import CadenceEntry.Descriptor.Outline
import CadenceEntry.Interaction.Basic

/-!
# Interactions as an outline

An interaction is shown by a line with its kind and the number of its parameters, followed by the
number and the indented outline of each parameter, if all of them have one.
-/

set_option autoImplicit false

namespace CadenceEntry.Interaction

/-- The first line of an outline. -/
def heading (i : Interaction String) : String :=
  let n := i.parameters.length
  i.kind.word ++ " (" ++ toString n ++ (if n = 1 then " parameter)" else " parameters)")

/-- The lines for the parameters, of which the first has the number `n`. -/
def parameterLines? (n : Nat) : List (Descriptor String) → Option (List String)
  | [] => some []
  | d :: ds => do
    let outline ← d.outline? 4
    let more ← parameterLines? (n + 1) ds
    return ("  #" ++ toString n) :: outline ++ more

/-- The text of an interaction. -/
def text? (i : Interaction String) : Option String :=
  (parameterLines? 0 i.parameters).map fun lines => "\n".intercalate (i.heading :: lines)

end CadenceEntry.Interaction
