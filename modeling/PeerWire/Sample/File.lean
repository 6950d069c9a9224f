import PeerWire.Sample.Messages
import PeerWire.Message.Inlet
import PeerWire.Message.Outlet

/-! # Sample files

A sample file is the sample messages of a seed, framed one after the other. Reading such a file
gives the messages back, or the first thing that is wrong with it. -/

namespace PeerWire.Sample

/-- The bytes of a file that holds the given messages. -/
def fileOf (messages : List Message) : Except Failure Bytes :=
  match MessageOutlet.sendAll {} messages with
  | (.error cause, _) => .error (.stream cause)
  | (.ok (), outlet) =>
      match outlet.flush with
      | (.error cause, _) => .error (.stream cause)
      | (.ok (), outlet) => .ok outlet.frames.sink.written

/-- Draws the sample messages of a seed, opens a file for them, and fills it. Gives their number,
what was opened, and the bytes of the file. -/
def fillWith (compress : Bytes → Except CodecError Bytes) (seed : UInt64)
    (opened : Except Failure α) : Except Failure (Nat × α × Bytes) := do
  let messages ← messagesWith compress seed
  let file ← opened
  let content ← fileOf messages
  return (messages.length, file, content)

/-- The number of sample messages of a seed, and the file that holds them, with `compressor`. -/
def fileOfSeed (seed : UInt64) : Except Failure (Nat × Bytes) := do
  let (count, (), content) ← fillWith compressor seed (.ok ())
  return (count, content)

/-- An inlet of the messages of a file. -/
def inletOf (source : Source) : MessageInlet := .ofSource source Frame.maxSize none

/-- The messages among some items, up to the first error; `done` holds those so far, last one
first. -/
def collect (done : List Message) :
    List (Except LinkError Message) → Except Failure (List Message)
  | [] => .ok done.reverse
  | .ok message :: items => collect (message :: done) items
  | .error cause :: _ => .error (.stream cause)

/-- The messages of a file: those among the items that `drain` gives. -/
def messagesOf (source : Source) : Except Failure (List Message) :=
  collect [] ((inletOf source).drain []).1

/-! ## Files in a directory -/

/-- The file at a path, opened to read its messages. -/
def openAt (directory : Directory) (path : String) : Except Failure MessageInlet :=
  match directory.openFile path with
  | .error fault => .error (.file path fault)
  | .ok source => .ok (inletOf source)

/-- The messages of the file at a path. -/
def readAt (directory : Directory) (path : String) : Except Failure (List Message) :=
  match directory.openFile path with
  | .error fault => .error (.file path fault)
  | .ok source => messagesOf source

/-- Writes the sample messages of a seed to the file at a path; gives their number and the directory
with that file, by `directory.put`. The messages are drawn first, so nothing is created unless there
are messages. -/
def writeAtWith (compress : Bytes → Except CodecError Bytes) (directory : Directory)
    (path : String) (seed : UInt64) : Except Failure (Nat × Directory) := do
  let created := (directory.createFile path).mapError (Failure.file path)
  let (count, name, content) ← fillWith compress seed created
  return (count, directory.put name content)

/-- Writes the sample messages of a seed to the file at a path, with the compressor of the
samples. -/
def writeAt : Directory → String → UInt64 → Except Failure (Nat × Directory) :=
  writeAtWith compressor

end PeerWire.Sample
