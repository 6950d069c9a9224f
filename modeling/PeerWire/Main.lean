import PeerWire.CommandLine.Run

/-! # The program

Reads the command line, opens the file that the command names, runs the command, and writes what
comes of it. -/

namespace PeerWire

open CommandLine

/-- The fault that an error of the file system stands for. -/
def FileFault.ofError : IO.Error → FileFault
  | .noFileOrDirectory .. | .resourceVanished .. => .absent
  | .permissionDenied .. => .denied
  | .inappropriateType _ code _ => if code = 21 then .isDirectory else .notDirectory
  | .invalidArgument _ 36 _ | .resourceExhausted _ 36 _ => .nameTooLong
  | error => .other (toString error)

/-- Opens the file that a command asks for. -/
def CommandLine.FileRequest.open : FileRequest → IO (Except FileFault Source)
  | .read path => do
      try
        let content ← IO.FS.readBinFile path
        return .ok (.ofBytes content.toList)
      catch error =>
        match FileFault.ofError error with
        | .isDirectory => return .ok ⟨[.fault .isDirectory], 0⟩
        | fault => return .error fault
  | .create path => do
      try
        let _ ← IO.FS.Handle.mk path .append
        return .ok (.ofBytes [])
      catch error => return .error (.ofError error)

/-- Writes an outcome: notices and errors to one stream, output to the other. -/
def CommandLine.Outcome.write (outcome : Outcome) (settings : Settings) : IO Unit := do
  let level := settings.noticeLevel.getD .warn
  for notice in outcome.notices do
    if notice.level.rank ≤ level.rank then
      IO.eprintln (notice.render (settings.noticeFormat.getD .text))
  IO.print outcome.text
  for line in outcome.error do
    IO.eprintln line

/-- Runs a command with its settings. -/
def CommandLine.Invocation.perform (invocation : Invocation) : IO Outcome := do
  let terminal ← (← IO.getStdout).isTty
  let format := invocation.settings.format.getD (if terminal then .table else .json)
  let opened ← match invocation.command.file? with
    | none => pure (.ok (.ofBytes []))
    | some request => request.open
  let outcome := invocation.command.run format opened
  match invocation.command.file?, outcome.content with
  | some (.create path), some content => IO.FS.writeBinFile path ⟨content.toArray⟩
  | _, _ => pure ()
  return outcome

end PeerWire

open PeerWire CommandLine

/-- The program: its exit code is that of the command. -/
def main (words : List String) : IO UInt32 := do
  let (outcome, settings) ← match parse words with
    | .error reason => pure (reason.outcome, {})
    | .ok invocation => do pure (← invocation.perform, invocation.settings)
  outcome.write settings
  return UInt32.ofNat outcome.code.toNat
