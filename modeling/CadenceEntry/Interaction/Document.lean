import CadenceEntry.Descriptor.Document
import CadenceEntry.Interaction.Basic

/-!
# Interactions as JSON

`toJson` writes an interaction with the code number of its kind and the list of its parameters.
`ofJson` reads one back; parameters that are null, empty or missing are none.
-/

set_option autoImplicit false

namespace CadenceEntry.Interaction

open Json

/-- An interaction as an object. -/
def toJson (i : Interaction Json) : Json :=
  object [("Kind", nat i.kind.code), ("Parameters", arrayOf Descriptor.toJson i.parameters)]

/-- The kind that a value gives; none given is the unknown one. -/
def kindOfJson : Option Json → Except DataError InteractionKind
  | none => .ok .unknown
  | some v =>
    match (Datum.ofJson v).toInt?.bind InteractionKind.ofCode? with
    | some k => .ok k
    | none => .error (.notInteractionKind (Datum.ofJson v).shown)

/-- The descriptors that the value of the parameters lists. What an object or a text consists of
describes no type. -/
def parametersOfJson : Option Json → Except DataError (List (Descriptor Json))
  | none => .ok []
  | some v =>
    if v.isTrue then
      match v with
      | array vs => vs.mapM Descriptor.ofJson
      | object _ | string _ => .error .notObject
      | _ => .error .notSequence
    else .ok []

/-- The interaction that an object describes. -/
def ofJson : Json → Except DataError (Interaction Json)
  | object ms => do
    let kind ← kindOfJson (ms.lookup "Kind")
    let parameters ← parametersOfJson (ms.lookup "Parameters")
    pure ⟨kind, parameters⟩
  | _ => .error .notObject

end CadenceEntry.Interaction
