import CadenceEntry.Configuration.Loader
import CadenceEntry.Text.Newline
import CadenceEntry.Yaml.Value

/-!
# The loader for YAML

The whole text is read before the document in it is looked at. A text without a document counts as
one that holds nothing.
-/

set_option autoImplicit false

namespace CadenceEntry.Yaml

/-- What a fault is for whoever wants the data. -/
def Fault.toLoadFault : Fault → LoadFault
  | malformed => .malformed "no document"
  | fault => .other fault.kind fault.message?

/-- What a text holds. -/
def content (cs : List Char) : Except Fault Content := do
  match ← document? cs with
  | none => return .other false
  | some root =>
    match ← root.outerDatum with
    | .map _ => return .mapping root.valueOf?
    | v => return .other v.isTrue

/-- The loader for YAML. -/
def loader : Loader where
  more _ := 8191
  early? _ := none
  final parts := (content (Text.normalizeNewlines parts.flatten)).mapError Fault.toLoadFault

end CadenceEntry.Yaml
