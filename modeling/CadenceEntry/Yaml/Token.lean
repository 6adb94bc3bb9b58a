/-!
# Tokens

A YAML text is a sequence of tokens. The indentation of lines and the keys of mappings have become
tokens of their own, so the sequence can be read without looking at places.
-/

set_option autoImplicit false

namespace CadenceEntry.Yaml

/-- A statement about a document. -/
inductive Directive where
  | version (major minor : Nat)
  | tagHandle (handle uri : String)
  | reserved
  deriving DecidableEq, Repr

/-- A token of a YAML text. -/
inductive Token where
  | directive (d : Directive)
  | documentStart
  | documentEnd
  | blockSequenceStart
  | blockMappingStart
  | blockEnd
  | flowSequenceStart
  | flowSequenceEnd
  | flowMappingStart
  | flowMappingEnd
  | flowEntry
  | blockEntry
  | key
  | value
  | reference (name : String)
  | anchor (name : String)
  | tag (handle : Option String) (suffix : String)
  | scalar (text : String) (isPlain : Bool)
  deriving DecidableEq, Repr

end CadenceEntry.Yaml
