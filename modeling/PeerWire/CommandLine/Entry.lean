import PeerWire.CommandLine.Settings
import PeerWire.Message.Registry
import PeerWire.Message.Inlet
import PeerWire.Text.Table

/-! # Entries

What is reported of one frame of an input: the message in it, or what is wrong with it. Entries
are numbered from zero in the order of the input. Messages and failures are gathered apart, and
brought together again by their numbers. -/

namespace PeerWire.CommandLine

/-- What became of a frame. -/
inductive Finding where
  /-- It holds a message. -/
  | decoded (message : Message)
  /-- Its body is no message of its tag. -/
  | malformed (tag : UInt16) (cause : DecodeError)
  /-- There is no frame, and nothing after it can be read. -/
  | unreadable (cause : LinkError)
  deriving DecidableEq

namespace Finding

/-- The finding that an error of a stream stands for: `malformed` if it is about a body. -/
def ofError : LinkError → Finding
  | .decode tag cause => .malformed tag cause
  | cause => .unreadable cause

/-- The tag, if there is one. -/
def tag? : Finding → Option UInt16
  | .decoded message => some message.tag
  | .malformed tag _ => some tag
  | .unreadable _ => none

/-- What is wrong. -/
def problem? : Finding → Option String
  | .decoded _ => none
  | .malformed _ cause => some cause.message
  | .unreadable cause => some cause.message

/-- The tag with its name, or `-`. -/
def label (finding : Finding) : String := (finding.tag?.map Registry.label).getD "-"

end Finding

/-- A finding and its number. -/
structure Entry where
  /-- The number of the frame in the input. -/
  index : Nat
  /-- What became of it. -/
  finding : Finding
  deriving DecidableEq

/-- What was found in an input: messages and failures, each with its place. -/
structure Harvest where
  /-- The messages. -/
  messages : List (Nat × Message) := []
  /-- What failed. -/
  failures : List (Nat × LinkError) := []

namespace Harvest

/-- Tells the items of an input apart; `place` is that of the first of them. -/
def gather (place : Nat) : List (Except LinkError Message) → Harvest
  | [] => {}
  | .ok message :: items =>
      let later := gather (place + 1) items
      { later with messages := (place, message) :: later.messages }
  | .error cause :: items =>
      let later := gather (place + 1) items
      { later with failures := (place, cause) :: later.failures }

/-- Everything that a source holds: what `drain` gives, by `gather 0`. -/
def ofSource (source : Source) (limit : Nat) : Harvest :=
  gather 0 ((MessageInlet.ofSource source limit none).drain []).1

/-- The entries of the messages, and then those of the failures. -/
def unsorted (harvest : Harvest) : List Entry :=
  harvest.messages.map (fun (index, message) => ⟨index, .decoded message⟩) ++
    harvest.failures.map fun (index, cause) => ⟨index, .ofError cause⟩

/-- The entries in the order of the input: those of `unsorted` by their `index`. -/
def entries (harvest : Harvest) : List Entry :=
  harvest.unsorted.mergeSort fun a b => a.index ≤ b.index

end Harvest

namespace Entry

/-- An entry as a JSON value; what there is not is left out. The names are `index`, `type_id`,
`name`, `body_len`, `message` and `error`. -/
def toJson (entry : Entry) : Json :=
  .object (("index", .number entry.index) :: match entry.finding with
    | .decoded message => [
        ("type_id", .number message.tag.toNat),
        ("name", .text message.name),
        ("body_len", .number message.bodyLength),
        ("message", message.toJson)]
    | .malformed tag cause =>
        ("type_id", .number tag.toNat) ::
          (((Registry.lookup? tag).map fun name => ("name", Json.text name)).toList ++
            [("error", .text cause.message)])
    | .unreadable cause => [("error", .text cause.message)])

/-- An entry as a row of a table: number, label, length and `ok` or what is wrong. -/
def toRow (entry : Entry) : List String := [
  toString entry.index,
  entry.finding.label,
  match entry.finding with
    | .decoded message => toString message.bodyLength
    | _ => "-",
  entry.finding.problem?.getD "ok"]

/-- An entry as lines for reading. -/
def toLines (entry : Entry) : List String :=
  match entry.finding with
  | .decoded message => [
      s!"#{entry.index} {entry.finding.label} ({message.bodyLength} bytes)",
      message.toJson.pretty]
  | finding => [s!"#{entry.index} {finding.label} error: " ++ finding.problem?.getD ""]

/-- The lines that show entries in a layout: `toJson`, `toRow` or `toLines` of each. -/
def render (entries : List Entry) : OutputFormat → List String
  | .json => entries.map fun entry => entry.toJson.compact
  | .table => (Text.Table.mk ["#", "TYPE", "SIZE", "STATUS"] (entries.map toRow)).lines
  | .pretty => entries.flatMap toLines

/-- What is told of an entry while the input is read. -/
def notice? (entry : Entry) : Option Notice :=
  match entry.finding with
  | .decoded _ => none
  | .malformed tag cause => some {
      level := .warn
      message := "malformed message"
      details := [("index", .number entry.index), ("type_id", .number tag.toNat),
        ("error", .text cause.message)] }
  | .unreadable cause => some {
      level := .error
      message := "stream unreadable past this point"
      details := [("index", .number entry.index), ("error", .text cause.message)] }

end Entry

end PeerWire.CommandLine
