import SiblingStore.Text.Utf8

/-!
# The disk

What can stand at a path, why a file cannot be used, which paths there can be,
and where they lead.
-/

namespace SiblingStore.Disk

inductive Place where
  | absent
  | file (content : Bytes)
  | directory
  deriving DecidableEq

def Place.content : Place → Bytes
  | .file content => content
  | _ => []

inductive Fault where
  | notFound
  | exists
  | isDirectory
  | nameTooLong
  | nulInName
  | notText
  deriving Repr, DecidableEq

def Fault.message : Fault → String
  | .notFound => "No such file or directory (os error 2)"
  | .exists => "File exists (os error 17)"
  | .isDirectory => "Is a directory (os error 21)"
  | .nameTooLong => "File name too long (os error 36)"
  | .nulInName => "file name contained an unexpected NUL byte"
  | .notText => "stream did not contain valid UTF-8"

def nameLimit : Nat := 255

def pathLimit : Nat := 4095

/-- The names along a path, which are empty where slashes meet. -/
def names (path : String) : List String := path.splitOn "/"

/-- Why nothing can be made at a path, whatever stands there. -/
def fault? (path : String) : Option Fault :=
  let exceeds := fun (limit : Nat) (s : String) => decide (limit < Text.Utf8.size s)
  if path.toList.contains '\x00' then some .nulInName
  else if exceeds pathLimit path || (names path).any (exceeds nameLimit) then some .nameTooLong
  else none

/-- The directories that a path leads through and its end. One dot leads nowhere, two
dots lead out of where the path is. -/
def resolve (path : String) : List String :=
  (names path).foldl (fun reached name =>
    if name = "" || name = "." then reached
    else if name = ".." then reached.dropLast
    else reached ++ [name]) []

/-- Whether there has to be a directory at `path` if there is one at `made`. -/
def leadsThrough (made path : String) : Bool :=
  (resolve made).take (resolve path).length = resolve path

end SiblingStore.Disk
