import CadenceEntry.Datum
import CadenceEntry.Text.Utf8

/-!
# Loaders

What a data document holds is found by a loader. The loader is given the text of a file part by
part, as the bytes are decoded, and may come to a result before it has seen all of them; then bytes
that are no text are not noticed behind the parts that it has seen. Nothing else is said about a
loader here: which texts are documents, and what data they hold, is up to the loader.
-/

set_option autoImplicit false

namespace CadenceEntry

/-- Why a loader finds no data. -/
inductive LoadFault where
  /-- The text is no document. -/
  | malformed (problem : String)
  /-- Something else goes wrong, of some kind and perhaps with a message. -/
  | other (kind : String) (message : Option String)
  deriving DecidableEq, Repr

/-- What a document holds: a mapping, by the values of its text keys, or something else, which
counts as something or as nothing. -/
inductive Content where
  | mapping (value? : String → Option Datum)
  | other (counts : Bool)

/-- A way to find the data in a text that is read part by part. -/
structure Loader where
  /-- How many bytes are decoded after some parts, apart from the first of them. -/
  more : List (List Char) → Nat
  /-- The result after some parts, if no further part is asked for. -/
  early? : List (List Char) → Option (Except LoadFault Content)
  /-- The result after some parts that are the whole text. -/
  final : List (List Char) → Except LoadFault Content

namespace Loader

/-- The result of loading the rest of a file. `parts` are the parts of the text before `bytes`, and
`pending` the bytes before them that are no whole character yet. -/
def loadFrom (l : Loader) (parts : List (List Char)) (pending bytes : List UInt8) :
    Except Text.Utf8.DecodeError (Except LoadFault Content) :=
  match l.early? parts with
  | some result => .ok result
  | none =>
    if _ : bytes = [] then
      (Text.Utf8.decode pending).map fun cs => l.final (parts ++ [cs])
    else
      let size := l.more parts + 1
      match Text.Utf8.decodePart (pending ++ bytes.take size) with
      | .error e => .error e
      | .ok (cs, pending) => l.loadFrom (parts ++ [cs]) pending (bytes.drop size)
termination_by bytes.length
decreasing_by
  have : 0 < bytes.length := List.length_pos_iff.2 ‹_›
  simp only [List.length_drop]
  omega

/-- The result of loading a file, or why a part of it is no text. -/
def load (l : Loader) (bytes : List UInt8) :
    Except Text.Utf8.DecodeError (Except LoadFault Content) :=
  l.loadFrom [] [] bytes

end Loader

end CadenceEntry
