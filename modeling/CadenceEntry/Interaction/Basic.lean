import CadenceEntry.Descriptor.Basic
import CadenceEntry.EntryPoint

/-!
# Interactions

An interaction says what a program is by its entry point, and of what kinds the parameters of the
entry point are.
-/

set_option autoImplicit false

namespace CadenceEntry

/-- The kind of a program and the descriptors of the parameters of its entry point. -/
structure Interaction (ρ : Type) where
  kind : InteractionKind := .unknown
  parameters : List (Descriptor ρ) := []
  deriving DecidableEq

namespace Interaction

variable {ρ σ : Type}

/-- The interaction with other raw types. -/
def map (f : ρ → σ) (i : Interaction ρ) : Interaction σ :=
  ⟨i.kind, i.parameters.map (·.map f)⟩

/-- The kind of a program with an entry point or none. -/
def kindOf : Option EntryPoint → InteractionKind
  | none => .unknown
  | some (.transaction _) => .transaction
  | some (.script _) => .script

/-- The types of the parameters of an entry point, without their resource markers. -/
def parameterTypes (e? : Option EntryPoint) : List TypeExpr :=
  ((e?.map EntryPoint.parameters).getD []).map fun p => p.type.type

/-- The interaction with an entry point. -/
def ofEntryPoint (table : KindTable ScalarKind) (e? : Option EntryPoint) : Interaction String :=
  ⟨kindOf e?, (parameterTypes e?).map (Descriptor.ofType table)⟩

/-- The interaction with a program. -/
def ofProgram (policy : Policy) (table : KindTable ScalarKind) (p : Program) :
    Except DuplicateEntryPoint (Interaction String) :=
  (p.entryPoint policy).map (ofEntryPoint table)

end Interaction

end CadenceEntry
