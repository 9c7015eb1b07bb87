import Entailment.CommandLine.Path
import Entailment.Error
import Entailment.Table

/-!
# Directories

A directory holds files by name.  Paths are looked up from it: every step but the last has to lead
to a directory, and the last one leads to a directory or to the place of a file.  A file can be
created at its place if it is not there.

What lies outside the directory does not show: no file is found there, and a file created there
changes nothing here.
-/

namespace Entailment

/-- A directory without subdirectories: the contents of its files by name. -/
abbrev Directory := Table (List UInt8)

namespace Directory

/-- Where a path stands after some of its steps. -/
inductive Standpoint where
  /-- In the directory itself. -/
  | here
  /-- In a directory outside it. -/
  | outside
  deriving DecidableEq, Repr

/-- Where a path leads. -/
inductive Place where
  /-- To a directory. -/
  | directory
  /-- To the place of a file; `closed` if it is written as that of a directory. -/
  | file (within : Standpoint) (name : String) (closed : Bool)
  deriving DecidableEq, Repr

/-- The failure of looking for something that is not there. -/
def notThere : StreamError := ⟨.notFound, "No such file or directory (os error 2)"⟩

/-- The failure of using a file as a directory. -/
def notDirectory : StreamError := ⟨.notDirectory, "Not a directory (os error 20)"⟩

/-- The failure of using a directory as a file. -/
def isDirectory : StreamError := ⟨.isDirectory, "Is a directory (os error 21)"⟩

/-- The failure of looking for a name that no file can have. -/
def tooLong : StreamError := ⟨.invalidName, "File name too long (os error 36)"⟩

/-- The content of the file with this name; outside the directory no file is found. -/
def lookUp (directory : Directory) (within : Standpoint) (name : String) :
    Except StreamError (List UInt8) :=
  if Path.longestName < name.utf8ByteSize then .error tooLong
  else
    match within with
    | .here => (directory.get? name).elim (.error notThere) .ok
    | .outside => .error notThere

/-- Takes a step that has to lead to a directory. -/
def enter (directory : Directory) (within : Standpoint) : Path.Step → Except StreamError Standpoint
  | .stay => .ok within
  | .out => .ok .outside
  | .name name =>
    match directory.lookUp within name with
    | .error error => .error error
    | .ok _ => .error notDirectory

/-- Where a path leads from a directory in which it stands. -/
def locateFrom (directory : Directory) (within : Standpoint) (closed : Bool) :
    List Path.Step → Except StreamError Place
  | [] => .ok .directory
  | [.name name] => .ok (.file within name closed)
  | step :: rest =>
    match directory.enter within step with
    | .error error => .error error
    | .ok next => locateFrom directory next closed rest

/-- Where the path with this text leads. -/
def locate (directory : Directory) (text : String) : Except StreamError Place :=
  if text.isEmpty then .error notThere
  else if Path.longestText < text.utf8ByteSize then .error tooLong
  else
    let path := Path.ofText text
    directory.locateFrom (if path.rooted then .outside else .here) path.closed path.steps

/-- The content of what a path leads to, if it can be opened for reading.  A directory can, though
it cannot be read. -/
def openFile (directory : Directory) (text : String) :
    Except StreamError (Except StreamError (List UInt8)) :=
  match directory.locate text with
  | .error error => .error error
  | .ok .directory => .ok (.error isDirectory)
  | .ok (.file within name closed) =>
    match directory.lookUp within name with
    | .error error => .error error
    | .ok content => if closed then .error notDirectory else .ok (.ok content)

/-- Replaces the content of the file at a path, and creates the file if it is not there. -/
def write (directory : Directory) (text : String) (content : List UInt8) :
    Except StreamError Directory :=
  match directory.locate text with
  | .error error => .error error
  | .ok .directory | .ok (.file _ _ true) => .error isDirectory
  | .ok (.file within name false) =>
    if Path.longestName < name.utf8ByteSize then .error tooLong
    else
      match within with
      | .here => .ok (directory.insert name content)
      | .outside => .ok directory

/-- The files of a directory that are new or changed since `before`. -/
def changes (before after : Directory) : List (String × List UInt8) :=
  after.entries.filter fun entry => before.get? entry.1 != some entry.2

end Directory

end Entailment
