import PeerWire.Frame.Basic
import PeerWire.Text.Json

/-! # Settings and commands

What a command line can ask for: a command, the layout of its output, and which notices of its
progress are wanted in which layout. -/

namespace PeerWire.CommandLine

/-- The layout of the output. -/
inductive OutputFormat where
  /-- One JSON value a line. -/
  | json
  /-- A drawn table. -/
  | table
  /-- Lines for reading. -/
  | pretty
  deriving DecidableEq, Repr

/-- The layout with a name. -/
def OutputFormat.ofName? : String → Option OutputFormat
  | "json" => some .json
  | "table" => some .table
  | "pretty" => some .pretty
  | _ => none

/-- The layout of notices. -/
inductive NoticeFormat where
  /-- Words. -/
  | text
  /-- One JSON value a line. -/
  | json
  deriving DecidableEq, Repr

/-- The layout of notices with a name. -/
def NoticeFormat.ofName? : String → Option NoticeFormat
  | "text" => some .text
  | "json" => some .json
  | _ => none

/-- How much a notice matters. -/
inductive NoticeLevel where
  /-- Something failed for good. -/
  | error
  /-- Something failed, and the work goes on. -/
  | warn
  /-- Something is done. -/
  | info
  /-- A detail. -/
  | debug
  /-- A small detail. -/
  | trace
  deriving DecidableEq, Repr

namespace NoticeLevel

/-- The level with a name. -/
def ofName? : String → Option NoticeLevel
  | "error" => some .error
  | "warn" => some .warn
  | "info" => some .info
  | "debug" => some .debug
  | "trace" => some .trace
  | _ => none

/-- Levels by how much they let through: the higher, the more, from `0` to `4`. -/
def rank : NoticeLevel → Nat
  | .error => 0
  | .warn => 1
  | .info => 2
  | .debug => 3
  | .trace => 4

/-- The name shown in a notice. -/
def label : NoticeLevel → String
  | .error => "ERROR"
  | .warn => "WARN"
  | .info => "INFO"
  | .debug => "DEBUG"
  | .trace => "TRACE"

end NoticeLevel

/-- Settings that any command takes; what is not given is none. -/
structure Settings where
  /-- The layout of the output. -/
  format : Option OutputFormat := none
  /-- The layout of notices. -/
  noticeFormat : Option NoticeFormat := none
  /-- The least level of wanted notices. -/
  noticeLevel : Option NoticeLevel := none
  deriving DecidableEq, Repr

/-- Settings, and `others` for what they do not say. -/
def Settings.orElse (settings others : Settings) : Settings where
  format := settings.format <|> others.format
  noticeFormat := settings.noticeFormat <|> others.noticeFormat
  noticeLevel := settings.noticeLevel <|> others.noticeLevel

/-- What is to be done. -/
inductive Command where
  /-- Write the sample messages of a seed to a file. -/
  | fixtures (path : String) (seed : UInt64)
  /-- Decode every frame of a file. -/
  | decode (path : String) (limit : Nat)
  /-- Decode one message given as hexadecimal digits. -/
  | inspect (digits : String) (unframed : Bool)
  /-- List the registry. -/
  | types
  /-- Show the version. -/
  | version (extended : Bool)
  deriving DecidableEq, Repr

/-- A command with its settings. -/
structure Invocation where
  /-- What is to be done. -/
  command : Command
  /-- How. -/
  settings : Settings := {}
  deriving DecidableEq, Repr

/-- What a command does with the file that it names. -/
inductive FileRequest where
  /-- It reads the file. -/
  | read (path : String)
  /-- It writes the file. -/
  | create (path : String)
  deriving DecidableEq, Repr

/-- The file that a command needs. -/
def Command.file? : Command → Option FileRequest
  | .fixtures path _ => some (.create path)
  | .decode path _ => some (.read path)
  | _ => none

/-! ## Notices -/

/-- Something worth telling about the progress of a command. -/
structure Notice where
  /-- How much it matters. -/
  level : NoticeLevel
  /-- What happened. -/
  message : String
  /-- To what. -/
  details : List (String × Json) := []

/-- A notice on one line. -/
def Notice.render (notice : Notice) : NoticeFormat → String
  | .text => " ".intercalate
      (notice.level.label :: notice.message ::
        notice.details.map fun detail => detail.1 ++ "=" ++ detail.2.compact)
  | .json => (Json.object [
      ("level", .text notice.level.label),
      ("fields", .object (("message", .text notice.message) :: notice.details))]).compact

end PeerWire.CommandLine
