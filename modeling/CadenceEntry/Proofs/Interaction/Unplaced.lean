import CadenceEntry.Interaction.Basic
import CadenceEntry.Proofs.TypeText.Parentheses

/-!
# Interactions do not depend on places

The entry point of a program is chosen by the order and the names of its declarations, and its
parameters are described by the texts of their types. So programs that are the same but for places
and bodies have the same interaction, or are refused for the same duplicates.
-/

set_option autoImplicit false

namespace CadenceEntry

/-- Places have no part in the text of a type. -/
theorem TypeExpr.text_unplaced (t : TypeExpr) : t.unplaced.text = t.text := by
  rw [← String.toList_inj, TypeExpr.toList_text, TypeExpr.toList_text, t.chars_unplaced]

/-- A descriptor only knows the text of a type and what it consists of. -/
theorem Descriptor.ofType_unplaced (table : KindTable ScalarKind) (t : TypeExpr) :
    Descriptor.ofType table t.unplaced = Descriptor.ofType table t := by
  have hnamed : ∀ t : TypeExpr, Descriptor.named (table.kind? t.unplaced.text) t.unplaced.text
      false = .named (table.kind? t.text) t.text false := by
    intro t
    rw [t.text_unplaced]
  match t with
  | .optional t s =>
    have ht := Descriptor.ofType_unplaced table t
    show (Descriptor.ofType table t.unplaced).asOptional = (Descriptor.ofType table t).asOptional
    rw [ht]
  | .variableSized t s =>
    have htext := TypeExpr.text_unplaced (.variableSized t s)
    have ht := Descriptor.ofType_unplaced table t
    show Descriptor.array (TypeExpr.unplaced (.variableSized t s)).text false
      (Descriptor.ofType table t.unplaced) unbounded = _
    rw [htext, ht]
    rfl
  | .constantSized t size literal s =>
    have htext := TypeExpr.text_unplaced (.constantSized t size literal s)
    have ht := Descriptor.ofType_unplaced table t
    show Descriptor.array (TypeExpr.unplaced (.constantSized t size literal s)).text false
      (Descriptor.ofType table t.unplaced) size = _
    rw [htext, ht]
    rfl
  | .dictionary k v s =>
    have htext := TypeExpr.text_unplaced (.dictionary k v s)
    have hk := Descriptor.ofType_unplaced table k
    have hv := Descriptor.ofType_unplaced table v
    show Descriptor.dictionary (TypeExpr.unplaced (.dictionary k v s)).text false
      (Descriptor.ofType table k.unplaced) (Descriptor.ofType table v.unplaced) = _
    rw [htext, hk, hv]
    rfl
  | .nominal n => exact hnamed (.nominal n)
  | .instantiation t args s => exact hnamed (.instantiation t args s)
  | .reference authorized es t s => exact hnamed (.reference authorized es t s)
  | .intersection ts s => exact hnamed (.intersection ts s)
  | .restricted t ts s => exact hnamed (.restricted t ts s)
  | .function ps none s => exact hnamed (.function ps none s)
  | .function ps (some r) s => exact hnamed (.function ps (some r) s)

/-- A policy chooses by order and number only. -/
theorem Policy.choose_map {α β : Type} (policy : Policy) (kind : EntryPointKind) (f : α → β)
    (xs : List α) : policy.choose kind (xs.map f) = (policy.choose kind xs).map (Option.map f) := by
  unfold Policy.choose
  rw [List.length_map, List.getLast?_map]
  split <;> rfl

/-- An entry point without its places. -/
def EntryPoint.unplaced : EntryPoint → EntryPoint
  | .transaction d => .transaction d.unplaced
  | .script d => .script d.unplaced

namespace Program

/-- Places have no part in what the transactions of a program are. -/
theorem transactions_unplaced (p : Program) :
    p.unplaced.transactions = p.transactions.map TransactionDeclaration.unplaced := by
  unfold transactions unplaced
  rw [List.filterMap_map, List.map_filterMap]
  congr 1
  funext d
  cases d <;> rfl

/-- Places have no part in what the main functions of a program are. -/
theorem mains_unplaced (p : Program) :
    p.unplaced.mains = p.mains.map FunctionDeclaration.unplaced := by
  have hfunctions : p.unplaced.functions = p.functions.map FunctionDeclaration.unplaced := by
    unfold functions unplaced
    rw [List.filterMap_map, List.map_filterMap]
    congr 1
    funext d
    cases d <;> rfl
  unfold mains
  rw [hfunctions, List.filter_map]
  rfl

/-- The entry point is chosen in the same way without places. -/
theorem entryPoint_unplaced (policy : Policy) (p : Program) :
    p.unplaced.entryPoint policy = (p.entryPoint policy).map (Option.map EntryPoint.unplaced) := by
  have htransaction : p.unplaced.transaction policy =
      (p.transaction policy).map (Option.map TransactionDeclaration.unplaced) := by
    rw [transaction, transactions_unplaced, Policy.choose_map]
    rfl
  have hmain : p.unplaced.main policy =
      (p.main policy).map (Option.map FunctionDeclaration.unplaced) := by
    rw [main, mains_unplaced, Policy.choose_map]
    rfl
  unfold entryPoint
  rw [htransaction, hmain]
  cases p.transaction policy with
  | error e => rfl
  | ok d? =>
    cases d? with
    | some d => rfl
    | none =>
      cases p.main policy with
      | error e => rfl
      | ok f? => cases f? <;> rfl

end Program

namespace Interaction

/-- Places have no part in the interaction with an entry point. -/
theorem ofEntryPoint_unplaced (table : KindTable ScalarKind) (e? : Option EntryPoint) :
    ofEntryPoint table (e?.map EntryPoint.unplaced) = ofEntryPoint table e? := by
  have hparameter : ∀ p : Parameter, Descriptor.ofType table p.unplaced.type.type =
      Descriptor.ofType table p.type.type := by
    intro p
    obtain ⟨label, name, ⟨r, t, s⟩, span⟩ := p
    exact Descriptor.ofType_unplaced table t
  have hparameters : ∀ ps : List Parameter,
      ((ps.map Parameter.unplaced).map fun p => p.type.type).map (Descriptor.ofType table) =
        (ps.map fun p => p.type.type).map (Descriptor.ofType table) := by
    intro ps
    rw [List.map_map, List.map_map, List.map_map]
    exact List.map_congr_left fun p _ => hparameter p
  match e? with
  | none => rfl
  | some (.transaction d) => exact congrArg (Interaction.mk _) (hparameters d.parameters.parameters)
  | some (.script d) => exact congrArg (Interaction.mk _) (hparameters d.parameters.parameters)

/-- Places and bodies have no part in an interaction. -/
theorem ofProgram_unplaced (policy : Policy) (table : KindTable ScalarKind) (p : Program) :
    ofProgram policy table p.unplaced = ofProgram policy table p := by
  unfold ofProgram
  rw [Program.entryPoint_unplaced]
  cases p.entryPoint policy with
  | error e => rfl
  | ok e? => exact congrArg Except.ok (ofEntryPoint_unplaced table e?)

/-- Programs that are the same but for places and bodies have the same interaction. -/
theorem ofProgram_congr {p p' : Program} (h : p'.unplaced = p.unplaced) (policy : Policy)
    (table : KindTable ScalarKind) : ofProgram policy table p' = ofProgram policy table p := by
  rw [← ofProgram_unplaced policy table p', h, ofProgram_unplaced]

end Interaction

end CadenceEntry
