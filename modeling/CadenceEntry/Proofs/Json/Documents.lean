import CadenceEntry.Proofs.Json.Writing
import CadenceEntry.Response

/-!
# All documents are plain

Syntax trees, interactions and responses are written as plain documents: their numbers are integers,
and no object names a member twice.
-/

set_option autoImplicit false

namespace CadenceEntry

open Json

namespace Json

/-- The null value is plain. -/
@[simp] theorem plain_null : Plain null := .null

/-- A truth value is plain. -/
@[simp] theorem plain_bool (b : Bool) : Plain (bool b) := .bool b

/-- An integer is plain. -/
@[simp] theorem plain_int (n : Int) : Plain (int n) := .int n

/-- A natural number is plain. -/
@[simp] theorem plain_nat (n : Nat) : Plain (nat n) := .int n

/-- A string is plain. -/
@[simp] theorem plain_string (s : String) : Plain (string s) := .string s

/-- An array is plain if all of its items are. -/
@[simp] theorem plain_array {vs : List Json} : Plain (array vs) ↔ ∀ v ∈ vs, Plain v :=
  ⟨fun h => by cases h; assumption, .array⟩

/-- An object is plain if its keys differ and all of its values are plain. -/
@[simp] theorem plain_object {ms : List (String × Json)} :
    Plain (object ms) ↔ (ms.map Prod.fst).Nodup ∧ ∀ m ∈ ms, Plain m.2 :=
  ⟨fun h => by cases h; exact ⟨by assumption, by assumption⟩, fun h => .object h.1 h.2⟩

variable {α : Type} {f : α → Json}

/-- An array is plain if all that its items can be written as is. -/
@[simp] theorem plain_arrayOf (h : ∀ a, Plain (f a)) (as : List α) : Plain (arrayOf f as) := by
  simp [arrayOf, h]

/-- A value that may be missing is plain if all that it can be written as is. -/
@[simp] theorem plain_ofOption (h : ∀ a, Plain (f a)) (a? : Option α) : Plain (ofOption f a?) := by
  cases a? with
  | none => exact .null
  | some a => exact h a

end Json

/-! ### Syntax trees -/

/-- A place is written plainly. -/
@[simp] theorem Position.plain_toJson (p : Position) : Plain p.toJson := by
  simp [Position.toJson]

/-- An identifier is written plainly. -/
@[simp] theorem Identifier.plain_toJson (i : Identifier) : Plain i.toJson := by
  simp [Identifier.toJson]

/-- A type name is written plainly. -/
@[simp] theorem NominalType.plain_toJson (t : NominalType) : Plain t.toJson := by
  simp [NominalType.toJson, Span.members]

mutual

/-- A type is written plainly. -/
theorem TypeExpr.plain_toJson (t : TypeExpr) : Plain t.toJson := by
  match t with
  | .nominal n => exact n.plain_toJson
  | .optional t s => simp [TypeExpr.toJson, Span.members, t.plain_toJson]
  | .variableSized t s => simp [TypeExpr.toJson, Span.members, t.plain_toJson]
  | .constantSized t n literal s => simp [TypeExpr.toJson, Span.members, t.plain_toJson]
  | .dictionary k v s => simp [TypeExpr.toJson, Span.members, k.plain_toJson, v.plain_toJson]
  | .instantiation t args s =>
    simpa [TypeExpr.toJson, Span.members, t.plain_toJson] using AnnotatedType.plain_toJsons args
  | .reference authorized es t s => simp [TypeExpr.toJson, Span.members, t.plain_toJson]
  | .intersection ts s => simp [TypeExpr.toJson, Span.members]
  | .restricted t ts s => simp [TypeExpr.toJson, Span.members]
  | .function ps none s =>
    simpa [TypeExpr.toJson, Span.members] using AnnotatedType.plain_toJsons ps
  | .function ps (some r) s =>
    simpa [TypeExpr.toJson, Span.members, r.plain_toJson] using AnnotatedType.plain_toJsons ps

/-- A type with its resource marker is written plainly. -/
theorem AnnotatedType.plain_toJson (a : AnnotatedType) : Plain a.toJson := by
  match a with
  | .mk r t s => simp [AnnotatedType.toJson, t.plain_toJson]

/-- A list of types is written plainly. -/
theorem AnnotatedType.plain_toJsons (as : List AnnotatedType) :
    Plain (array (AnnotatedType.toJsons as)) := by
  match as with
  | [] => simp [AnnotatedType.toJsons]
  | a :: as => simpa [AnnotatedType.toJsons, a.plain_toJson] using AnnotatedType.plain_toJsons as

end

attribute [simp] TypeExpr.plain_toJson AnnotatedType.plain_toJson

/-- A parameter is written plainly. -/
@[simp] theorem Parameter.plain_toJson (p : Parameter) : Plain p.toJson := by
  simp [Parameter.toJson, Span.members]

/-- A list of parameters is written plainly. -/
@[simp] theorem ParameterList.plain_toJson (ps : ParameterList) : Plain ps.toJson := by
  simp [ParameterList.toJson, Span.members]

/-- A body is written plainly. -/
@[simp] theorem Block.plain_toJson (b : Block) : Plain b.toJson := by
  simp [Block.toJson, Span.members]

/-- An access modifier is written plainly. -/
@[simp] theorem Access.plain_toJson (a : Option Access) : Plain (Access.toJson a) :=
  .string _

/-- No key is repeated in the location of an import. -/
@[simp] theorem ImportLocation.plain_toJson (l : ImportLocation) : Plain l.toJson := by
  cases l <;> simp [ImportLocation.toJson]

/-- A field is written plainly. -/
@[simp] theorem FieldDeclaration.plain_toJson (d : FieldDeclaration) : Plain d.toJson := by
  simp [FieldDeclaration.toJson, Span.members]

/-- A phase is written plainly. -/
@[simp] theorem PhaseDeclaration.plain_toJson (d : PhaseDeclaration) : Plain d.toJson := by
  simp [PhaseDeclaration.toJson, Span.members]

/-- The document of a declaration is plain. -/
@[simp] theorem Declaration.plain_toJson (d : Declaration) : Plain d.toJson := by
  cases d with
  | imports d => simp [toJson, ImportDeclaration.toJson, Span.members]
  | pragma d => simp [toJson, PragmaDeclaration.toJson, Span.members]
  | transaction d => simp [toJson, TransactionDeclaration.toJson, Span.members]
  | function d => simp [toJson, FunctionDeclaration.toJson, Span.members]
  | composite d => simp [toJson, CompositeDeclaration.toJson, Span.members]
  | event d => simp [toJson, EventDeclaration.toJson, Span.members]
  | entitlement d => simp [toJson, EntitlementDeclaration.toJson, Span.members]

/-- A program is written plainly. -/
@[simp] theorem Program.plain_toJson (p : Program) : Plain p.toJson := by
  simp [Program.toJson]

/-! ### Responses -/

/-- The document of a descriptor is plain if its raw types are texts. -/
@[simp] theorem Descriptor.plain_toJson (d : Descriptor String) :
    Plain (d.map Json.string).toJson := by
  induction d with
  | named k r o => simp [Descriptor.map, Descriptor.toJson, Descriptor.raw]
  | array r o e n ih => simp [Descriptor.map, Descriptor.toJson, Descriptor.raw, ih]
  | dictionary r o k v ihk ihv =>
    simp [Descriptor.map, Descriptor.toJson, Descriptor.raw, ihk, ihv]

/-- An interaction is written plainly. -/
@[simp] theorem Interaction.plain_toJson (i : Interaction String) :
    Plain (i.map Json.string).toJson := by
  simp [Interaction.map, Interaction.toJson, arrayOf]

/-- The document of a response is plain. -/
theorem Response.plain_toJson (r : Response String) : Plain (r.map Json.string).toJson := by
  have hinteraction :
      Plain (ofOption Interaction.toJson (r.interaction.map (·.map Json.string))) := by
    cases r.interaction with
    | none => exact .null
    | some i => exact i.plain_toJson
  simp [Response.map, Response.toJson, hinteraction]

end CadenceEntry
