import CadenceEntry.Text.Quoted

/-!
# Files

Where a path leads to in a tree of files and directories. A path is brought to a normal form first,
without repeated slashes and without steps that stay where they are.
-/

set_option autoImplicit false

namespace CadenceEntry

/-- Why a path leads to no file. -/
inductive FileError where
  | missing
  | directory
  | notDirectory
  /-- Another reason, with its number and description. -/
  | other (code : Nat) (description : String)
  deriving DecidableEq, Repr

namespace FileError

/-- The number of an error. -/
def code : FileError → Nat
  | missing => 2
  | directory => 21
  | notDirectory => 20
  | other n _ => n

/-- The description of an error. -/
def description : FileError → String
  | missing => "No such file or directory"
  | directory => "Is a directory"
  | notDirectory => "Not a directory"
  | other _ s => s

/-- The message of an error at a path. -/
def message (e : FileError) (path : String) : String :=
  "[Errno " ++ toString e.code ++ "] " ++ e.description ++ ": " ++ Text.quoted path

end FileError

namespace Path

/-- The steps of a path, without those that stay where they are. -/
def steps (path : String) : List String :=
  ((path.toList.splitOn '/').map String.ofList).filter fun s => !(s.isEmpty || s == ".")

/-- The slashes that a path from the root begins with. -/
def root (path : String) : String :=
  match path.toList.takeWhile (· == '/') with
  | [] => ""
  | [_, _] => "//"
  | _ => "/"

/-- A path in its normal form. -/
def normalize (path : String) : String :=
  match root path ++ "/".intercalate (steps path) with
  | "" => "."
  | s => s

end Path

/-- Files with their bytes, and directories, by the steps that lead to them. -/
structure FileTree where
  entries : List (List String × Option (List UInt8)) := []

namespace FileTree

/-- The directory that contains everything, or what an entry lists, holds at `place`: a file with
its bytes, or a directory. -/
def find? (t : FileTree) (place : List String) : Option (Option (List UInt8)) :=
  match t.entries.lookup place with
  | some e => some e
  | none =>
    if place.isEmpty || t.entries.any fun e => place.isPrefixOf e.1 then some none else none

/-- Follows steps from a directory. -/
def follow (t : FileTree) (place : List String) : List String → Except FileError (List UInt8)
  | [] =>
    match t.find? place with
    | some (some bytes) => .ok bytes
    | some none => .error .directory
    | none => .error .missing
  | step :: steps =>
    match t.find? place with
    | some none => follow t (if step = ".." then place.dropLast else place ++ [step]) steps
    | some (some _) => .error .notDirectory
    | none => .error .missing

/-- The bytes of the file that a path leads to. -/
def read (t : FileTree) (path : String) : Except FileError (List UInt8) :=
  if (Path.root path).isEmpty then t.follow [] (Path.steps path) else .error .missing

end FileTree

end CadenceEntry
