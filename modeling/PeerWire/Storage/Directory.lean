import PeerWire.Text.Pieces
import PeerWire.Transport.Source

/-! # Directories

A directory holds files by name. A path is walked from the directory: it may lead to a file, to
a name that is still free, to the directory itself, or nowhere. What is outside the directory is
not known, so a path that leaves it leads to no file. -/

namespace PeerWire

/-- Why a file cannot be opened. -/
inductive FileFault where
  /-- It is not there, or neither is the directory it should be in. -/
  | absent
  /-- A file stands where the path needs a directory. -/
  | notDirectory
  /-- A directory stands where a file is to be written. -/
  | isDirectory
  /-- A name in the path, or the path, is too long. -/
  | nameTooLong
  /-- It may not be used. -/
  | denied
  /-- Anything else, in the words of the system. -/
  | other (words : String)
  deriving DecidableEq, Repr

/-- The wording of a fault, with its number. -/
def FileFault.message : FileFault → String
  | .absent => "No such file or directory (os error 2)"
  | .notDirectory => "Not a directory (os error 20)"
  | .isDirectory => "Is a directory (os error 21)"
  | .nameTooLong => "File name too long (os error 36)"
  | .denied => "Permission denied (os error 13)"
  | .other words => words

/-- Files by name. -/
structure Directory where
  /-- The files; of two with one name the first counts. -/
  files : List (String × Bytes) := []
  deriving DecidableEq, Repr

/-- Where a path leads. -/
inductive Place where
  /-- To a file. -/
  | file (name : String) (content : Bytes)
  /-- To a name that no file has. -/
  | vacant (name : String)
  /-- To a name written as that of a directory, which cannot be opened. No file can be made
  there, whatever the name. -/
  | asDirectory (fault : FileFault)
  /-- To a directory. -/
  | directory
  /-- Nowhere. -/
  | nowhere (fault : FileFault)
  deriving DecidableEq, Repr

namespace Directory

/-- The most bytes of a name. -/
def maxNameSize : Nat := 255

/-- The most bytes of a path. -/
def maxPathSize : Nat := 4095

/-- The content of the file with a name. -/
def find? (directory : Directory) (name : String) : Option Bytes :=
  (directory.files.find? (·.1 = name)).map (·.2)

/-- The directory with a file of this name and content: `(name, content)` in place of any other. -/
def put (directory : Directory) (name : String) (content : Bytes) : Directory :=
  ⟨(name, content) :: directory.files.filter (·.1 ≠ name)⟩

/-- The fault of a name that leads to no file: `absent`, or `nameTooLong`. -/
def missing (name : String) : FileFault :=
  if maxNameSize < name.utf8ByteSize then .nameTooLong else .absent

/-- Walks the steps of a path outside the directory; `slash` says whether the path ends in a
slash. -/
def walkOutside (slash : Bool) : List String → Place
  | [] => .directory
  | step :: steps =>
      if step = "." || step = ".." then walkOutside slash steps
      else if steps.isEmpty && slash then .asDirectory (missing step)
      else .nowhere (missing step)

/-- Walks the steps of a path; `slash` says whether the path ends in a slash. -/
def walk (directory : Directory) (slash : Bool) : List String → Place
  | [] => .directory
  | "." :: steps => walk directory slash steps
  | ".." :: steps => walkOutside slash steps
  | name :: steps =>
      match directory.find? name with
      | some content =>
          if !steps.isEmpty then .nowhere .notDirectory
          else if slash then .asDirectory .notDirectory
          else .file name content
      | none =>
          -- nothing can be beyond a name that leads nowhere
          if steps.isEmpty && slash then .asDirectory (missing name)
          else if steps.isEmpty && missing name = .absent then .vacant name
          else .nowhere (missing name)

/-- Where a path leads. -/
def locate (directory : Directory) (path : String) : Place :=
  let pieces := Text.pieces '/' path.toList
  let steps := (pieces.filter (!·.isEmpty)).map String.ofList
  let slash := pieces.getLast? = some []
  if maxPathSize < path.utf8ByteSize then .nowhere .nameTooLong
  else if pieces.head? = some [] then walkOutside slash steps
  else directory.walk slash steps

/-- Opens a file to read it. A directory can be opened, but its content cannot be read. -/
def openFile (directory : Directory) (path : String) : Except FileFault Source :=
  match directory.locate path with
  | .file _ content => .ok (.ofBytes content)
  | .directory => .ok ⟨[.fault .isDirectory], 0⟩
  | .vacant _ => .error .absent
  | .asDirectory fault | .nowhere fault => .error fault

/-- The name of the file that a path creates or overwrites. -/
def createFile (directory : Directory) (path : String) : Except FileFault String :=
  match directory.locate path with
  | .file name _ | .vacant name => .ok name
  | .directory | .asDirectory _ => .error .isDirectory
  | .nowhere fault => .error fault

end Directory

end PeerWire
