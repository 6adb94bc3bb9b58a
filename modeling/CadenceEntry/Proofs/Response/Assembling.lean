import CadenceEntry.Descriptor.Document
import CadenceEntry.Interaction.Basic

/-!
# Describing types always fits

A descriptor can also be put together from a kind and from the parts that an array or a dictionary
has, and that fails if the parts do not fit the kind. The descriptor of a type is put together in
this way from the descriptors of the types inside it, and the parts always fit:
`Descriptor.assembleType_eq`.
-/

set_option autoImplicit false

namespace CadenceEntry

namespace Descriptor

/-- The element and the size of an array. -/
def arrayParts? : Descriptor Json → Option (Descriptor Json × Int)
  | array _ _ e n => some (e, n)
  | _ => none

/-- The key and the value of a dictionary. -/
def dictionaryParts? : Descriptor Json → Option (Descriptor Json × Descriptor Json)
  | dictionary _ _ k v => some (k, v)
  | _ => none

/-- The descriptor of a type, put together from parts that must fit. -/
def assembleType (table : KindTable ScalarKind) : TypeExpr → Except DataError (Descriptor Json)
  | .optional t _ => do
    let d ← assembleType table t
    assemble d.kind d.raw true d.arrayParts? d.dictionaryParts?
  | .variableSized t s => do
    let e ← assembleType table t
    assemble .array (.string (TypeExpr.text (.variableSized t s))) false (some (e, unbounded)) none
  | .constantSized t n literal s => do
    let e ← assembleType table t
    assemble .array (.string (TypeExpr.text (.constantSized t n literal s))) false (some (e, n))
      none
  | .dictionary k v s => do
    let k' ← assembleType table k
    let v' ← assembleType table v
    assemble .dictionary (.string (TypeExpr.text (.dictionary k v s))) false none (some (k', v'))
  | t =>
    assemble (((table.kind? t.text).map TypeKind.scalar).getD .unknown) (.string t.text) false
      none none

/-- The parts of a descriptor fit its kind. -/
theorem assemble_parts (d : Descriptor Json) :
    assemble d.kind d.raw true d.arrayParts? d.dictionaryParts? = .ok d.asOptional := by
  cases d with
  | named k r o => cases k <;> rfl
  | array r o e n => rfl
  | dictionary r o k v => rfl

/-- A type that is known by its name has no parts. -/
theorem assemble_named (k : Option ScalarKind) (raw : Json) :
    assemble ((k.map TypeKind.scalar).getD .unknown) raw false none none =
      .ok (named k raw false) := by
  cases k <;> rfl

/-- Being optional has no part in what is made of the texts. -/
theorem map_asOptional {ρ σ : Type} (f : ρ → σ) (d : Descriptor ρ) :
    (d.map f).asOptional = d.asOptional.map f := by
  cases d <;> rfl

/-- What is put together is the descriptor of the type. -/
theorem assembleType_eq (table : KindTable ScalarKind) (t : TypeExpr) :
    assembleType table t = .ok ((ofType table t).map .string) := by
  match t with
  | .optional t s =>
    have ht := assembleType_eq table t
    show (assembleType table t >>= fun d =>
      assemble d.kind d.raw true d.arrayParts? d.dictionaryParts?) =
        .ok ((ofType table t).asOptional.map .string)
    rw [ht, ← map_asOptional]
    exact assemble_parts _
  | .variableSized t s =>
    rw [assembleType, assembleType_eq table t]
    rfl
  | .constantSized t n literal s =>
    rw [assembleType, assembleType_eq table t]
    rfl
  | .dictionary k v s =>
    rw [assembleType, assembleType_eq table k, assembleType_eq table v]
    rfl
  | .nominal n => exact assemble_named _ _
  | .instantiation t args s => exact assemble_named _ _
  | .reference authorized es t s => exact assemble_named _ _
  | .intersection ts s => exact assemble_named _ _
  | .restricted t ts s => exact assemble_named _ _
  | .function ps none s => exact assemble_named _ _
  | .function ps (some r) s => exact assemble_named _ _

end Descriptor

namespace Interaction

/-- The interaction with an entry point, its descriptors put together from parts that must fit. -/
def assemble (table : KindTable ScalarKind) (e? : Option EntryPoint) :
    Except DataError (Interaction Json) := do
  let ds ← (parameterTypes e?).mapM (Descriptor.assembleType table)
  pure ⟨kindOf e?, ds⟩

/-- What is put together is the interaction. -/
theorem assemble_eq (table : KindTable ScalarKind) (e? : Option EntryPoint) :
    assemble table e? = .ok ((ofEntryPoint table e?).map .string) := by
  have hds : ∀ ts : List TypeExpr, ts.mapM (Descriptor.assembleType table) =
      .ok ((ts.map (Descriptor.ofType table)).map (·.map Json.string)) := by
    intro ts
    induction ts with
    | nil => rfl
    | cons t ts ih =>
      rw [List.mapM_cons, Descriptor.assembleType_eq, ih]
      rfl
  rw [assemble, hds]
  rfl

end Interaction

end CadenceEntry
