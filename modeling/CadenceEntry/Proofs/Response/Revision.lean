import CadenceEntry.Proofs.Descriptor.Data
import CadenceEntry.Proofs.Kind.Revision
import CadenceEntry.Response

/-!
# What the names of old change in a response

The option for the names of old replaces the table that kinds are looked up in, and nothing else. So
the responses with and without it have the same program and the same error, and their interactions
have descriptors of the same form; only a descriptor of a revised name has another kind, and it is
numeric in one of the two and unknown in the other (`Response.regraded_ofSource`).
-/

set_option autoImplicit false

namespace CadenceEntry

open KindTable (IsRevised)

/-- The same but for the kind, which is another one exactly for a revised name. -/
structure Descriptor.SameButKind (d d' : Descriptor String) : Prop where
  raw_eq : d'.raw = d.raw
  isOptional_eq : d'.isOptional = d.isOptional
  size?_eq : d'.size? = d.size?
  kind_ne_iff : d'.kind ≠ d.kind ↔ IsRevised d.raw
  kinds : d'.kind = d.kind ∨ d.kind = .scalar .numeric ∧ d'.kind = .unknown ∨
    d.kind = .unknown ∧ d'.kind = .scalar .numeric

/-- Two descriptors have the same parts at every depth, and all of them are the same but for the
kinds of revised names. -/
def Descriptor.Regraded (d d' : Descriptor String) : Prop :=
  ∀ ps : List Part, Option.Rel SameButKind (d.at? ps) (d'.at? ps)

/-- Two interactions are the same but for the kinds of revised names. -/
structure Interaction.Regraded (i i' : Interaction String) : Prop where
  kind_eq : i'.kind = i.kind
  parameters : List.Forall₂ Descriptor.Regraded i.parameters i'.parameters

/-- Two responses are the same but for the kinds of revised names. -/
structure Response.Regraded (r r' : Response String) : Prop where
  program_eq : r'.program = r.program
  error_eq : r'.error = r.error
  interaction : Option.Rel Interaction.Regraded r.interaction r'.interaction

namespace Descriptor

/-- The descriptors of what is looked up by its text. -/
theorem sameButKind_named (text : String) :
    SameButKind (named (KindTable.current.kind? text) text false)
      (named (KindTable.legacy.kind? text) text false) := by
  have hrevises := KindTable.revises_kind? text
  generalize KindTable.current.kind? text = k? at hrevises
  generalize KindTable.legacy.kind? text = k'? at hrevises
  cases hrevises with
  | kept _ h => exact ⟨rfl, rfl, rfl, iff_of_false (fun hne => hne rfl) h, .inl rfl⟩
  | dropped h => exact ⟨rfl, rfl, rfl, iff_of_true (by simp [kind]) h, .inr (.inl ⟨rfl, rfl⟩)⟩
  | added h => exact ⟨rfl, rfl, rfl, iff_of_true (by simp [kind]) h, .inr (.inr ⟨rfl, rfl⟩)⟩

/-- The text of an array or of a dictionary is no revised name. -/
theorem not_isRevised_of_compound {t : TypeExpr} (h : t.IsArray ∨ t.IsDictionary) :
    ¬ IsRevised t.text := by
  intro hrevised
  have hname : ∀ n s, t ≠ .nominal ⟨n, [], s⟩ := by
    rintro n s rfl
    rcases h with (⟨e, s, h⟩ | ⟨e, n, literal, s, h⟩) | ⟨k, v, s, h⟩ <;> cases h
  obtain ⟨c, hc, hmark, -⟩ := TypeExpr.exists_mark hname
  rw [← t.toList_text] at hc
  rw [hrevised.continuesName hc] at hmark
  cases hmark

/-- Descriptors that are the same but for the kind stay so when both are made optional. -/
theorem SameButKind.asOptional {d d' : Descriptor String} (h : SameButKind d d') :
    SameButKind d.asOptional d'.asOptional := by
  obtain ⟨hraw, -, hsize, hkind, hkinds⟩ := h
  constructor
  · simp [hraw]
  · simp
  · simp [hsize]
  · simpa using hkind
  · simpa using hkinds

/-- The descriptors that the two tables give a type are the same but for the kind of the type. -/
theorem sameButKind_ofType (t : TypeExpr) :
    SameButKind (ofType .current t) (ofType .legacy t) :=
  match t with
  | .optional t _ => (sameButKind_ofType t).asOptional
  | .variableSized e s => by
    have hnot : ¬ IsRevised (TypeExpr.variableSized e s).text :=
      not_isRevised_of_compound (.inl (.inl ⟨e, s, rfl⟩))
    exact ⟨rfl, rfl, rfl, iff_of_false (fun hne => hne rfl) hnot, .inl rfl⟩
  | .constantSized e n literal s => by
    have hnot : ¬ IsRevised (TypeExpr.constantSized e n literal s).text :=
      not_isRevised_of_compound (.inl (.inr ⟨e, n, literal, s, rfl⟩))
    exact ⟨rfl, rfl, rfl, iff_of_false (fun hne => hne rfl) hnot, .inl rfl⟩
  | .dictionary k v s => by
    have hnot : ¬ IsRevised (TypeExpr.dictionary k v s).text :=
      not_isRevised_of_compound (.inr ⟨k, v, s, rfl⟩)
    exact ⟨rfl, rfl, rfl, iff_of_false (fun hne => hne rfl) hnot, .inl rfl⟩
  | .nominal _ | .instantiation _ _ _ | .reference _ _ _ _ | .intersection _ _ | .restricted _ _ _
  | .function _ _ _ => sameButKind_named _

/-- The table reaches every part of a type and changes nothing but kinds there. -/
theorem regraded_ofType (t : TypeExpr) : Regraded (ofType .current t) (ofType .legacy t) := by
  intro ps
  induction ps generalizing t with
  | nil => exact .some (sameButKind_ofType t)
  | cons p ps ih =>
    rw [at?, at?, part?_ofType, part?_ofType]
    cases t.unwrapped.part? p with
    | none => exact .none
    | some u => exact ih u

end Descriptor

/-- The interactions that the two tables give an entry point. -/
theorem Interaction.regraded_ofEntryPoint (e? : Option EntryPoint) :
    Regraded (ofEntryPoint .current e?) (ofEntryPoint .legacy e?) := by
  refine ⟨rfl, ?_⟩
  unfold ofEntryPoint
  induction parameterTypes e? with
  | nil => exact .nil
  | cons t ts ih => exact .cons (Descriptor.regraded_ofType t) ih

namespace Response

/-- The interactions of a program by the two tables are the same but for the kinds of revised names.
-/
theorem regraded_ofProgram (c : Configuration Bool) (p : Program) :
    Regraded (ofProgram { c with legacyTypeNames := false } p)
      (ofProgram { c with legacyTypeNames := true } p) := by
  unfold ofProgram Interaction.ofProgram
  dsimp only
  cases p.entryPoint c.entryPoints with
  | error e => exact ⟨rfl, rfl, .none⟩
  | ok e? => exact ⟨rfl, rfl, .some (Interaction.regraded_ofEntryPoint e?)⟩

/-- The responses to a source text with the current names and with the names of old are the same
but for kinds. These are other ones exactly in the descriptors, at every depth, of `UFix64`,
`UFIx64` and the `Word` names, which are numeric in one of the two responses and unknown in the
other. -/
theorem regraded_ofSource (c : Configuration Bool) (source : String) :
    Regraded (ofSource { c with legacyTypeNames := false } source)
      (ofSource { c with legacyTypeNames := true } source) := by
  unfold ofSource
  cases Program.parse source with
  | error e => exact ⟨rfl, rfl, .none⟩
  | ok p => exact regraded_ofProgram c p

end Response

end CadenceEntry
