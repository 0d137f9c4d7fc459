import StackMachine.Text.Segment

/-!
# CommandLine — Workspace

What the command can read: the files and folders of the directory it is started in, and standard
input.  A path is followed component by component.  A folder may be left again by `..`, and empty
components and `.` stay where they are; a file has nothing below it, not even by a slash at the end
of its name.  Of what lies outside the directory only two devices are known, the empty one and
standard input.
-/

namespace StackMachine.CommandLine

/-- Why a program cannot be read. -/
inductive ReadError
  | notFound
  | notDirectory
  | isDirectory
  | nameTooLong
  | invalidUtf8
  | other (reason : String)
  deriving DecidableEq, Repr

def ReadError.message : ReadError → String
  | .notFound     => "No such file or directory (os error 2)"
  | .notDirectory => "Not a directory (os error 20)"
  | .isDirectory  => "Is a directory (os error 21)"
  | .nameTooLong  => "File name too long (os error 36)"
  | .invalidUtf8  => "stream did not contain valid UTF-8"
  | .other reason => reason

/-- The files of a directory, the empty folders beside them, and standard input. -/
structure Workspace where
  files   : List (String × ByteArray)
  folders : List String
  stdin   : ByteArray

/-- Where a path leads. -/
inductive Place
  | file (content : ByteArray)
  | folder
  /-- The directory itself. -/
  | here
  /-- The root of all paths. -/
  | root
  /-- The folder of the devices. -/
  | devices
  /-- Somewhere else outside the directory. -/
  | outside

/-- The longest name of a file, in bytes. -/
def maxName : Nat := 255

/-- The longest path, in bytes. -/
def maxPath : Nat := 4095

/-- The text of bytes that are UTF-8. -/
def decode (content : ByteArray) : Except ReadError String :=
  match String.fromUTF8? content with
  | some text => .ok text
  | none      => .error .invalidUtf8

namespace Workspace

/-- The place that a name leads to from the directory itself. -/
def lookup (w : Workspace) (name : String) : Except ReadError Place :=
  match w.files.lookup name with
  | some content => .ok (.file content)
  | none         => if name ∈ w.folders then .ok .folder else .error .notFound

/-- The place one component further. -/
def follow (w : Workspace) : Place → String → Except ReadError Place
  | .file _,  _    => .error .notDirectory
  | p,        ""   => .ok p
  | p,        "."  => .ok p
  | .folder,  ".." => .ok .here
  | .root,    ".." => .ok .root
  | .devices, ".." => .ok .root
  | _,        ".." => .ok .outside
  | p,        name =>
    if maxName < name.utf8ByteSize then .error .nameTooLong
    else match p, name with
      | .here,    _       => w.lookup name
      | .root,    "dev"   => .ok .devices
      | .devices, "null"  => .ok (.file .empty)
      | .devices, "stdin" => .ok (.file w.stdin)
      | _,        _       => .error .notFound

/-- The place at the end of a path; one that starts with a slash starts at the root. -/
def locate (w : Workspace) (path : String) : Except ReadError Place :=
  if path = "" then .error .notFound
  else if maxPath < path.utf8ByteSize then .error .nameTooLong
  else
    let start : Place := if path.toList.head? = some '/' then .root else .here
    (Text.split (path ++ "/") '/').foldlM w.follow start

/-- The text at a path, or of standard input if the path is a hyphen. -/
def read (w : Workspace) (path : String) : Except ReadError String := do
  if path = "-" then decode w.stdin
  else match ← w.locate path with
    | .file content => decode content
    | _             => .error .isDirectory

end Workspace

end StackMachine.CommandLine
