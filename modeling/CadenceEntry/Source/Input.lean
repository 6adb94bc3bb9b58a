import CadenceEntry.Files
import CadenceEntry.Text.Newline
import CadenceEntry.Text.Utf8

/-!
# Where a source text comes from

A source text is the first line of the standard input, or a whole file. A line must be complete; its
end is dropped, and so are the NUL characters before it, by which some programs mark the end of what
they send. The standard input is decoded in chunks, no further than the end of the first line
requires.
-/

set_option autoImplicit false

namespace CadenceEntry

/-- Why there is no source text. -/
inductive InputError where
  /-- The input ends before a line does. -/
  | incompleteLine
  /-- The standard input cannot be read. -/
  | unreadable (reason : String)
  /-- A file cannot be read. -/
  | unreadableFile (path reason : String)
  deriving DecidableEq, Repr

/-- The message of an error. -/
def InputError.message : InputError → String
  | incompleteLine => "reading source failed: end of input before newline"
  | unreadable reason => "reading source failed: " ++ reason
  | unreadableFile path reason => "reading " ++ path ++ " failed: " ++ reason

namespace Source

/-- The first line of a text without its end. Line feeds end lines. -/
def firstLine (cs : List Char) : Except InputError String :=
  if cs.contains '\n' then
    let line := cs.takeWhile (· != '\n')
    .ok (String.ofList (Text.stripEnd '\x00' (Text.stripEnd '\r' line)))
  else .error .incompleteLine

/-- The most bytes that are decoded at a time. -/
def chunkSize : Nat := 8192

/-- The characters up to the end of the first line, and maybe some more. `cs` are the characters
before `bytes`, and `pending` the bytes before them that are no whole character yet. -/
def decodeLine (cs : List Char) (pending bytes : List UInt8) :
    Except Text.Utf8.DecodeError (List Char) :=
  if _ : bytes = [] then
    (Text.Utf8.decode pending).map (cs ++ ·)
  else
    match Text.Utf8.decodePart (pending ++ bytes.take chunkSize) with
    | .error e => .error e
    | .ok (new, pending) =>
      if Text.hasLine (cs ++ new) then .ok (cs ++ new)
      else decodeLine (cs ++ new) pending (bytes.drop chunkSize)
termination_by bytes.length
decreasing_by
  have : 0 < bytes.length := List.length_pos_iff.2 ‹_›
  simp only [List.length_drop, chunkSize]
  omega

/-- The source text on the standard input, given its bytes or the reason why it cannot be read. -/
def ofInput (input : Except String (List UInt8)) : Except InputError String :=
  match input with
  | .error reason => .error (.unreadable reason)
  | .ok bytes =>
    match decodeLine [] [] bytes with
    | .error e => .error (.unreadable e.message)
    | .ok cs => firstLine (Text.normalizeNewlines cs)

/-- The source text in a file, given its bytes or the reason why it cannot be read. -/
def ofFile (path : String) (file : Except FileError (List UInt8)) : Except InputError String :=
  match file with
  | .error e => .error (.unreadableFile path (e.message path))
  | .ok bytes =>
    match Text.Utf8.decode bytes with
    | .error e => .error (.unreadableFile path e.message)
    | .ok cs => .ok (String.ofList (Text.normalizeNewlines cs))

end Source

end CadenceEntry
