import PeerWire.CommandLine.Arguments
import PeerWire.CommandLine.Entry
import PeerWire.Sample.File
import PeerWire.Text.Blank

/-! # Running commands

A command gives lines of output and an exit code, or says why it failed. What it needs of the
file that it names is given to it, and what it writes to that file is given back, so running a
command is a function. -/

namespace PeerWire.CommandLine

/-- The name of the program. -/
def programName : String := "lnwire"

/-- The version of the program. -/
def programVersion : String := "0.2.1"

/-! ## Exit codes -/

/-- How a command can end. -/
inductive ExitCode where
  /-- All went well. -/
  | success
  /-- Something was not there. -/
  | failure
  /-- The command line was wrong. -/
  | misuse
  /-- Something may not be used. -/
  | denied
  /-- Bytes are not what they should be. -/
  | invalidData
  /-- Anything else. -/
  | internal
  deriving DecidableEq, Repr

/-- The number of an exit code: `0` for success, `60` for data that are wrong. -/
def ExitCode.toNat : ExitCode → Nat
  | .success => 0
  | .failure => 1
  | .misuse => 2
  | .denied => 50
  | .invalidData => 60
  | .internal => 125

/-- The exit code for a file that cannot be opened. -/
def ExitCode.ofFile : FileFault → ExitCode
  | .absent => .failure
  | .denied => .denied
  | .notDirectory | .isDirectory | .nameTooLong | .other _ => .internal

/-- The exit code for a frame that cannot be read or written. -/
def ExitCode.ofFrame : FrameError → ExitCode
  | .transport .permissionDenied => .denied
  | .transport .notFound => .failure
  | .transport _ => .internal
  | .closed => .failure
  | _ => .invalidData

/-- The exit code for a failure of the samples. -/
def ExitCode.ofSamples : Sample.Failure → ExitCode
  | .file _ fault => ofFile fault
  | .stream (.frame cause) => ofFrame cause
  | .stream _ => .invalidData
  | .build .. => .internal

/-! ## Outcomes -/

/-- Why a command gives no output. -/
structure CommandError where
  /-- How it ends. -/
  code : ExitCode
  /-- What failed, and why. -/
  message : String
  deriving DecidableEq, Repr

/-- What running a command comes to. -/
structure Outcome where
  /-- How it ends. -/
  code : ExitCode := .success
  /-- The lines of output. -/
  output : List String := []
  /-- The line that says why it failed. -/
  error : Option String := none
  /-- What it tells of its progress. -/
  notices : List Notice := []
  /-- What the file that it writes is to hold. -/
  content : Option Bytes := none

/-- The outcome of a command that failed: a line `error: ` and the message. -/
def CommandError.outcome (error : CommandError) : Outcome where
  code := error.code
  error := some ("error: " ++ error.message)

/-- The output as one text. -/
def Outcome.text (outcome : Outcome) : String :=
  String.join (outcome.output.map (· ++ "\n"))

/-! ## Commands -/

/-- Reads the one message that `digits` stand for; blanks between the digits do not matter. -/
def inspect (digits : String) (unframed : Bool) : Except CommandError Message :=
  let fail (what why : String) : Except CommandError Message :=
    .error ⟨.invalidData, what ++ ": " ++ why⟩
  match Hex.decode (Text.withoutBlanks digits) with
  | .error error => fail "invalid hex" error.message
  | .ok bytes =>
      if unframed then
        match Message.read bytes with
        | .error error => fail "decode failed" error.message
        | .ok message => .ok message
      else
        match Frame.read bytes Frame.maxSize with
        | .error error => .error ⟨.ofFrame error, "unframe failed: " ++ error.message⟩
        | .ok (frame, size) =>
            if size ≠ bytes.length then
              fail "unframe failed" s!"{bytes.length - size} trailing bytes after frame"
            else
              match Message.ofFrame frame with
              | .error error => fail "decode failed" error.message
              | .ok message => .ok message

/-- Shows the one message that digits stand for. -/
def runInspect (digits : String) (unframed : Bool) (format : OutputFormat) : Outcome :=
  match inspect digits unframed with
  | .error error => error.outcome
  | .ok message => { output := Entry.render [⟨0, .decoded message⟩] format }

/-- Shows every frame of a file: the entries of `Harvest.ofSource source limit`. -/
def runDecode (source : Source) (limit : Nat) (format : OutputFormat) : Outcome :=
  let harvest := Harvest.ofSource source limit
  let entries := harvest.entries
  { code := if harvest.failures.isEmpty then .success else .invalidData
    output := Entry.render entries format
    notices := entries.filterMap Entry.notice? ++ [{
      level := .info
      message := "decode finished"
      details := [("decoded", .number harvest.messages.length),
        ("failed", .number harvest.failures.length)] }] }

/-- Writes the sample messages of a seed to a file, given whether it could be `opened`. -/
def runFixtures (path : String) (seed : UInt64) (format : OutputFormat)
    (opened : Except FileFault Source) : Outcome :=
  match Sample.fillWith Sample.compressor seed (opened.mapError (Sample.Failure.file path)) with
  | .error failure =>
      CommandError.outcome ⟨.ofSamples failure, "write failed: " ++ failure.message⟩
  | .ok (count, _, content) =>
      { output := match format with
          | .json => [(Json.object [("path", .text path), ("seed", .number seed.toNat),
              ("messages", .number count)]).compact]
          | .table => (Text.Table.mk ["PATH", "SEED", "MESSAGES"]
              [[path, toString seed.toNat, toString count]]).lines
          | .pretty => [s!"wrote {count} messages to {path} (seed {seed.toNat})"]
        notices := [{
          level := .info
          message := "fixtures written"
          details := [("path", .text path), ("seed", .number seed.toNat),
            ("messages", .number count)] }]
        content := some content }

/-- The word for the parity of a tag. -/
def parity (tag : UInt16) : String := if Registry.isEven tag then "even" else "odd"

/-- A text filled up with blanks in front, to `width` characters. -/
def padLeft (width : Nat) (text : String) : String :=
  String.ofList (List.replicate (width - text.length) ' ') ++ text

/-- A text filled up with blanks behind, to `width` characters. -/
def padRight (width : Nat) (text : String) : String :=
  text ++ String.ofList (List.replicate (width - text.length) ' ')

/-- Lists the registry. -/
def runTypes (format : OutputFormat) : Outcome :=
  let types := Registry.table.toList
  { output := match format with
      | .json => [(Json.array (types.map fun (tag, name) => Json.object [
          ("type_id", .number tag.toNat), ("name", .text name),
          ("even", .flag (Registry.isEven tag))])).compact]
      | .table => (Text.Table.mk ["TYPE", "NAME", "PARITY"]
          (types.map fun (tag, name) => [toString tag.toNat, name, parity tag])).lines
      | .pretty => types.map fun (tag, name) =>
          padLeft 5 (toString tag.toNat) ++ "  " ++ padRight 28 name ++ " " ++ parity tag }

/-- Shows the version. -/
def runVersion (extended : Bool) : Outcome :=
  if extended then
    { output := [
        "name: " ++ programName,
        "version: " ++ programVersion,
        "target: unknown",
        s!"message_types: {Registry.table.size}",
        s!"max_frame_size: {Frame.maxSize}",
        "features: stream=true, fixtures=true, async=false, cli=true"] }
  else { output := [programName ++ " " ++ programVersion] }

/-- What is shown when help is asked for. -/
def helpText : List String := [
  "Lightning peer wire codec CLI",
  "",
  "Usage: " ++ programName ++ " [OPTIONS] <COMMAND>",
  "",
  "Commands:",
  "  fixtures  Write one framed sample of every catalog message to a file",
  "  decode    Decode every frame in a file",
  "  inspect   Decode a single framed message given as hex",
  "  types     List the message type registry",
  "  version   Show version information",
  "  help      Print this message or the help of the given subcommand(s)"]

/-- Runs a command, given its file as opened: a source for a file that it reads, an empty one for
a file that it writes. -/
def Command.run (command : Command) (format : OutputFormat) (opened : Except FileFault Source) :
    Outcome :=
  match command, opened with
  | .fixtures path seed, opened => runFixtures path seed format opened
  | .decode path _, .error fault =>
      CommandError.outcome
        ⟨.ofFile fault, "open failed: " ++ (Sample.Failure.file path fault).message⟩
  | .decode _ limit, .ok source => runDecode source limit format
  | .inspect digits unframed, _ => runInspect digits unframed format
  | .types, _ => runTypes format
  | .version extended, _ => runVersion extended

/-- The outcome of a command line that gives no command. -/
def Stop.outcome : Stop → Outcome
  | .help => { output := helpText }
  | .version => runVersion false
  | .misuse cause => { code := .misuse, error := some ("error: " ++ cause.message) }

/-- The file that a request asks for, in a directory. -/
def FileRequest.openIn (directory : Directory) : FileRequest → Except FileFault Source
  | .read path => directory.openFile path
  | .create path => (directory.createFile path).map fun _ => .ofBytes []

/-- Runs a command line on a `directory` that holds the files it may name. The layout of the output
is JSON unless another is asked for. -/
def runIn (directory : Directory) (words : List String) : Outcome :=
  match parse words with
  | .error reason => reason.outcome
  | .ok invocation =>
      let opened := match invocation.command.file? with
        | none => .ok (.ofBytes [])
        | some request => request.openIn directory
      invocation.command.run (invocation.settings.format.getD .json) opened

end PeerWire.CommandLine
