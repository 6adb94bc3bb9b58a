import CadenceEntry.Descriptor.Basic
import CadenceEntry.Proofs.Kind.Construction
import CadenceEntry.Proofs.Number.LiteralValue
import CadenceEntry.Proofs.TypeText.WellFormed

/-!
# The kinds of types

The kind of a type that is neither an array nor a dictionary is looked up by its text. All that the
tables list are single names, and the text of every other type has a character that is in no name,
so only a single unqualified name is ever found. The size of an array is the value of a literal and
so never the mark of an array of any size.
-/

set_option autoImplicit false

namespace CadenceEntry

open Grammar

namespace KindTable

variable {κ : Type}

/-- The table lists single names, each once. -/
structure ListsNames (table : KindTable κ) : Prop where
  continuesName : ∀ x ∈ table.entries, ∀ c ∈ x.1.toList, WordClass.continuesName c = true
  nodup : (table.entries.map Prod.fst).Nodup

/-- A table lists names if a check of its entries says so. -/
theorem ListsNames.of_all {table : KindTable κ}
    (h : (table.entries.all fun x => x.1.toList.all WordClass.continuesName) = true)
    (hnodup : (table.entries.map Prod.fst).Nodup) : table.ListsNames :=
  ⟨fun x hx c hc => List.all_eq_true.1 (List.all_eq_true.1 h x hx) c hc, hnodup⟩

/-- The current table lists single names, each once. -/
theorem listsNames_current : current.ListsNames :=
  .of_all (by decide +kernel) (by decide +kernel)

/-- The table of old lists single names, each once. -/
theorem listsNames_legacy : legacy.ListsNames :=
  .of_all (by decide +kernel) (by decide +kernel)

/-- A text with a character that is in no name has no kind. -/
theorem ListsNames.kind?_eq_none {table : KindTable κ} (htable : table.ListsNames) {text : String}
    {c : Char} (hc : c ∈ text.toList) (hmark : WordClass.continuesName c = false) :
    table.kind? text = none := by
  cases h : table.kind? text with
  | none => rfl
  | some k =>
    have hname := htable.continuesName _ (mem_of_kind?_eq_some h) c hc
    rw [hmark] at hname
    cases hname

end KindTable

namespace TypeExpr

/-- The type without the optional layers around it. -/
def unwrapped : TypeExpr → TypeExpr
  | .optional t _ => t.unwrapped
  | t => t

/-- Whether a type is an array type, of any size or of a constant size. -/
def IsArray (t : TypeExpr) : Prop :=
  (∃ e s, t = .variableSized e s) ∨ ∃ e n literal s, t = .constantSized e n literal s

/-- Whether a type is a dictionary type. -/
def IsDictionary (t : TypeExpr) : Prop := ∃ k v s, t = .dictionary k v s

/-- Whether a type is a single unqualified name that the table lists with a kind. -/
def IsListed (table : KindTable ScalarKind) (k : ScalarKind) (t : TypeExpr) : Prop :=
  ∃ n s, t = .nominal ⟨n, [], s⟩ ∧ (n.text, k) ∈ table.entries

/-- A type is optional if its outermost layer is a question mark. -/
theorem isOptional_iff (t : TypeExpr) : t.isOptional = true ↔ ∃ u s, t = .optional u s := by
  match t with
  | .optional t s => exact ⟨fun _ => ⟨t, s, rfl⟩, fun _ => rfl⟩
  | .nominal _ | .variableSized _ _ | .constantSized _ _ _ _ | .dictionary _ _ _
  | .instantiation _ _ _ | .reference _ _ _ _ | .intersection _ _ | .restricted _ _ _
  | .function _ _ _ => simp [isOptional]

/-- Without its optional layers a type is not optional. -/
theorem unwrapped_isOptional (t : TypeExpr) : t.unwrapped.isOptional = false :=
  match t with
  | .optional t _ => t.unwrapped_isOptional
  | .nominal _ | .variableSized _ _ | .constantSized _ _ _ _ | .dictionary _ _ _
  | .instantiation _ _ _ | .reference _ _ _ _ | .intersection _ _ | .restricted _ _ _
  | .function _ _ _ => rfl

/-- A well-formed type is well-formed without its optional layers. -/
theorem WellFormed.unwrapped {t : TypeExpr} (h : t.WellFormed) : t.unwrapped.WellFormed :=
  match t with
  | .optional t _ => by
    rw [WellFormed] at h
    exact WellFormed.unwrapped (t := t) h
  | .nominal _ | .variableSized _ _ | .constantSized _ _ _ _ | .dictionary _ _ _
  | .instantiation _ _ _ | .reference _ _ _ _ | .intersection _ _ | .restricted _ _ _
  | .function _ _ _ => h

/-- The text of a type that is not a single name has a character that is in no name, and this is a
question mark only if the type is an optional one. -/
theorem exists_mark {t : TypeExpr} (hname : ∀ n s, t ≠ .nominal ⟨n, [], s⟩) :
    ∃ c ∈ t.chars, WordClass.continuesName c = false ∧ (c = '?' → t.isOptional = true) := by
  have hmark : ∀ c, WordClass.continuesName c = false ∧ c ≠ '?' → c ∈ t.chars →
      ∃ c ∈ t.chars, WordClass.continuesName c = false ∧ (c = '?' → t.isOptional = true) :=
    fun c hc hmem => ⟨c, hmem, hc.1, fun heq => absurd heq hc.2⟩
  match t with
  | .nominal ⟨n, [], s⟩ => exact absurd rfl (hname n s)
  | .nominal ⟨n, m :: ms, s⟩ =>
    exact hmark '.' (by decide)
      (by simp [TypeExpr.chars, NominalType.chars, Identifier.charsBehindDot])
  | .optional t _ => exact ⟨'?', by simp [TypeExpr.chars], by decide, fun _ => rfl⟩
  | .variableSized t _ => exact hmark '[' (by decide) (by simp [TypeExpr.chars])
  | .constantSized t _ _ _ => exact hmark '[' (by decide) (by simp [TypeExpr.chars])
  | .dictionary k v _ => exact hmark '\x7b' (by decide) (by simp [TypeExpr.chars])
  | .instantiation t args _ => exact hmark '<' (by decide) (by simp [TypeExpr.chars])
  | .reference authorized es t _ =>
    exact hmark '&' (by decide) (by cases authorized <;> cases es <;> simp [TypeExpr.chars])
  | .intersection ts _ => exact hmark '\x7b' (by decide) (by simp [TypeExpr.chars])
  | .restricted t ts _ => exact hmark '\x7b' (by decide) (by simp [TypeExpr.chars])
  | .function ps r _ => exact hmark '(' (by decide) (by cases r <;> simp [TypeExpr.chars])

end TypeExpr

/-- The types that arrays and dictionaries are made of. -/
inductive Part where
  | element
  | key
  | value

/-- The part of a type. -/
def TypeExpr.part? : Part → TypeExpr → Option TypeExpr
  | .element, .variableSized t _ | .element, .constantSized t _ _ _ => some t
  | .key, .dictionary k _ _ => some k
  | .value, .dictionary _ v _ => some v
  | _, _ => none

/-- The parts of a well-formed type are well-formed. -/
theorem TypeExpr.WellFormed.part? {t u : TypeExpr} {p : Part} (ht : t.WellFormed)
    (hu : t.part? p = some u) : u.WellFormed := by
  match t with
  | .variableSized e _ =>
    cases p <;> cases hu
    exact ht
  | .constantSized e _ _ _ =>
    cases p <;> cases hu
    rw [TypeExpr.WellFormed] at ht
    exact ht.1
  | .dictionary k v _ =>
    rw [TypeExpr.WellFormed] at ht
    cases p <;> cases hu
    · exact ht.1
    · exact ht.2
  | .nominal _ | .optional _ _ | .instantiation _ _ _ | .reference _ _ _ _ | .intersection _ _
  | .restricted _ _ _ | .function _ _ _ => cases p <;> cases hu

namespace Descriptor

variable {ρ : Type}

/-- The part of a descriptor. -/
def part? : Part → Descriptor ρ → Option (Descriptor ρ)
  | .element, array _ _ e _ => some e
  | .key, dictionary _ _ k _ => some k
  | .value, dictionary _ _ _ v => some v
  | _, _ => none

/-- The size that the descriptor of an array has. -/
def size? : Descriptor ρ → Option Int
  | array _ _ _ n => some n
  | _ => none

/-- Being optional does not change the kind. -/
@[simp] theorem kind_asOptional (d : Descriptor ρ) : d.asOptional.kind = d.kind := by
  match d with
  | named none _ _ | named (some _) _ _ | array .. | dictionary .. => rfl

/-- Being optional does not change the text. -/
@[simp] theorem raw_asOptional (d : Descriptor ρ) : d.asOptional.raw = d.raw := by
  cases d <;> rfl

/-- What is made optional is optional. -/
@[simp] theorem isOptional_asOptional (d : Descriptor ρ) : d.asOptional.isOptional = true := by
  cases d <;> rfl

/-- Being optional does not change the parts. -/
@[simp] theorem part?_asOptional (p : Part) (d : Descriptor ρ) :
    d.asOptional.part? p = d.part? p := by
  cases d <;> cases p <;> rfl

/-- Being optional does not change the size. -/
@[simp] theorem size?_asOptional (d : Descriptor ρ) : d.asOptional.size? = d.size? := by
  cases d <;> rfl

/-- What is optional stays the same when it is made optional. -/
@[simp] theorem asOptional_asOptional (d : Descriptor ρ) :
    d.asOptional.asOptional = d.asOptional := by
  cases d <;> rfl

/-- A type and its descriptor, or a part of the type at any depth and the part of the descriptor
that stands for it. -/
inductive Inside (t : TypeExpr) (d : Descriptor String) : TypeExpr → Descriptor String → Prop
  | whole : Inside t d t d
  | part (p : Part) {u u' : TypeExpr} {e e' : Descriptor String} (h : Inside t d u e)
      (hu : u.unwrapped.part? p = some u') (he : e.part? p = some e') : Inside t d u' e'

/-- A descriptor says what is true of a type, apart from its parts. -/
structure Fits (table : KindTable ScalarKind) (t : TypeExpr) (d : Descriptor String) : Prop where
  isOptional_iff : d.isOptional = true ↔ ∃ u s, t = .optional u s
  raw_eq : d.raw = t.unwrapped.text
  array_iff : d.kind = .array ↔ t.unwrapped.IsArray
  dictionary_iff : d.kind = .dictionary ↔ t.unwrapped.IsDictionary
  scalar_iff : ∀ k, d.kind = .scalar k ↔ t.unwrapped.IsListed table k
  unknown_iff : d.kind = .unknown ↔ ¬ t.unwrapped.IsArray ∧ ¬ t.unwrapped.IsDictionary ∧
    ∀ k, ¬ t.unwrapped.IsListed table k
  element_iff : (d.part? .element).isSome ↔ d.kind = .array
  key_iff : (d.part? .key).isSome ↔ d.kind = .dictionary
  value_iff : (d.part? .value).isSome ↔ d.kind = .dictionary
  size_iff : ∀ n, d.size? = some n → (n = -1 ↔ ∃ e s, t.unwrapped = .variableSized e s)
  size_eq : ∀ e n literal s, t.unwrapped = .constantSized e n literal s →
    ∃ v, Number.IntegerLiteral.value? literal.toList = some v ∧ 0 ≤ v ∧ d.size? = some v

/-- What is under optional layers decides all but whether there are any. -/
theorem ofType_eq (table : KindTable ScalarKind) (t : TypeExpr) : ofType table t =
    if t.isOptional then (ofType table t.unwrapped).asOptional else ofType table t.unwrapped :=
  match t with
  | .optional t _ => by
    rw [ofType, ofType_eq table t, TypeExpr.unwrapped, TypeExpr.isOptional, if_pos rfl]
    split
    · rw [asOptional_asOptional]
    · rfl
  | .nominal _ | .variableSized _ _ | .constantSized _ _ _ _ | .dictionary _ _ _
  | .instantiation _ _ _ | .reference _ _ _ _ | .intersection _ _ | .restricted _ _ _
  | .function _ _ _ => rfl

/-- The kind of a type is the kind of what is under its optional layers. -/
theorem kind_ofType (table : KindTable ScalarKind) (t : TypeExpr) :
    (ofType table t).kind = (ofType table t.unwrapped).kind := by
  rw [ofType_eq]
  split <;> simp

/-- The text in a descriptor is the one of what is under the optional layers. -/
theorem raw_ofType (table : KindTable ScalarKind) (t : TypeExpr) :
    (ofType table t).raw = (ofType table t.unwrapped).raw := by
  rw [ofType_eq]
  split <;> simp

/-- The size of a type is the size of what is under its optional layers. -/
theorem size?_ofType (table : KindTable ScalarKind) (t : TypeExpr) :
    (ofType table t).size? = (ofType table t.unwrapped).size? := by
  rw [ofType_eq]
  split <;> simp

/-- A descriptor has one kind, so the unknown one says that it has no other. -/
theorem kind_eq_unknown_iff (d : Descriptor ρ) : d.kind = .unknown ↔
    d.kind ≠ .array ∧ d.kind ≠ .dictionary ∧ ∀ k, d.kind ≠ .scalar k := by
  cases d.kind <;> simp

/-- The kind of a descriptor decides which parts it has. -/
theorem isSome_part?_iff (d : Descriptor ρ) :
    ((d.part? .element).isSome ↔ d.kind = .array) ∧
      ((d.part? .key).isSome ↔ d.kind = .dictionary) ∧
      ((d.part? .value).isSome ↔ d.kind = .dictionary) := by
  match d with
  | named none _ _ | named (some _) _ _ | array .. | dictionary .. => simp [part?, kind]

/-- The part of the descriptor of a type is the descriptor of the part. -/
theorem part?_ofType (table : KindTable ScalarKind) (t : TypeExpr) (p : Part) :
    (ofType table t).part? p = (t.unwrapped.part? p).map (ofType table) := by
  have hunwrapped : ∀ u : TypeExpr, u.isOptional = false →
      (ofType table u).part? p = (u.part? p).map (ofType table) := by
    intro u hu
    match u with
    | .optional _ _ => cases hu
    | .nominal _ | .variableSized _ _ | .constantSized _ _ _ _ | .dictionary _ _ _
    | .instantiation _ _ _ | .reference _ _ _ _ | .intersection _ _ | .restricted _ _ _
    | .function _ _ _ => cases p <;> rfl
  rw [ofType_eq, ← hunwrapped _ t.unwrapped_isOptional]
  split <;> simp

section Table

variable {table : KindTable ScalarKind}

/-- Only a single name has a kind, the one that it is listed with. -/
theorem kind?_text_iff (htable : table.ListsNames) (t : TypeExpr) (k : ScalarKind) :
    table.kind? t.text = some k ↔ t.IsListed table k := by
  by_cases hname : ∃ n s, t = .nominal ⟨n, [], s⟩
  · obtain ⟨n, s, rfl⟩ := hname
    have htext : (TypeExpr.nominal ⟨n, [], s⟩).text = n.text := by
      rw [← String.toList_inj, TypeExpr.toList_text]
      simp [TypeExpr.chars, NominalType.chars]
    rw [htext, KindTable.kind?_eq_some_iff htable.nodup]
    constructor
    · intro h
      exact ⟨n, s, rfl, h⟩
    · rintro ⟨n', s', heq, h⟩
      cases heq
      exact h
  · have hnot : ∀ n s, t ≠ .nominal ⟨n, [], s⟩ := fun n s h => hname ⟨n, s, h⟩
    obtain ⟨c, hc, hmark, -⟩ := TypeExpr.exists_mark hnot
    rw [← t.toList_text] at hc
    rw [htable.kind?_eq_none hc hmark]
    constructor
    · intro h
      cases h
    · rintro ⟨n, s, heq, -⟩
      exact absurd heq (hnot n s)

/-- What the descriptor of a type under optional layers says: of an array, of a dictionary, or the
kind that is found for the text. -/
inductive Bare (table : KindTable ScalarKind) : TypeExpr → Descriptor String → Prop
  | variableSized (e : TypeExpr) (s : Span) : Bare table (.variableSized e s)
      (array (TypeExpr.text (.variableSized e s)) false (ofType table e) unbounded)
  | constantSized (e : TypeExpr) (n : Int) (literal : String) (s : Span) :
      Bare table (.constantSized e n literal s)
        (array (TypeExpr.text (.constantSized e n literal s)) false (ofType table e) n)
  | dictionary (k v : TypeExpr) (s : Span) : Bare table (.dictionary k v s)
      (dictionary (TypeExpr.text (.dictionary k v s)) false (ofType table k) (ofType table v))
  | named (t : TypeExpr) (harray : ¬ t.IsArray) (hdictionary : ¬ t.IsDictionary) :
      Bare table t (named (table.kind? t.text) t.text false)

/-- The descriptor of a type that is not optional says what the type is. -/
theorem bare_ofType {t : TypeExpr} (ht : t.isOptional = false) :
    Bare table t (ofType table t) := by
  match t with
  | .optional _ _ => cases ht
  | .variableSized e s => exact .variableSized e s
  | .constantSized e n literal s => exact .constantSized e n literal s
  | .dictionary k v s => exact .dictionary k v s
  | .nominal _ | .instantiation _ _ _ | .reference _ _ _ _ | .intersection _ _ | .restricted _ _ _
  | .function _ _ _ =>
    exact .named _ (by simp [TypeExpr.IsArray]) (by simp [TypeExpr.IsDictionary])

namespace Bare

variable {t : TypeExpr} {d : Descriptor String} (h : Bare table t d)
include h

/-- What is under the optional layers is not optional. -/
theorem isOptional_eq : d.isOptional = false := by cases h <;> rfl

/-- The text of a descriptor is the text of the type. -/
theorem raw_eq : d.raw = t.text := by cases h <;> rfl

/-- The kind is that of arrays exactly for array types. -/
theorem array_iff : d.kind = .array ↔ t.IsArray := by
  cases h with
  | named t harray hdictionary =>
    cases table.kind? t.text <;> simp [kind, harray]
  | _ => simp [kind, TypeExpr.IsArray]

/-- The kind is that of dictionaries exactly for dictionary types. -/
theorem dictionary_iff : d.kind = .dictionary ↔ t.IsDictionary := by
  cases h with
  | named t harray hdictionary =>
    cases table.kind? t.text <;> simp [kind, hdictionary]
  | _ => simp [kind, TypeExpr.IsDictionary]

/-- The kind is a scalar one exactly for the single names that the table lists with it. -/
theorem scalar_iff (htable : table.ListsNames) (k : ScalarKind) :
    d.kind = .scalar k ↔ t.IsListed table k := by
  cases h with
  | named t harray hdictionary =>
    rw [← kind?_text_iff htable]
    cases table.kind? t.text <;> simp [kind]
  | _ => simp [kind, TypeExpr.IsListed]

/-- The size of an array of a constant size is the value of its literal. -/
theorem size_eq (ht : t.WellFormed) {e : TypeExpr} {n : Int} {literal : String} {s : Span}
    (heq : t = .constantSized e n literal s) :
    ∃ v, Number.IntegerLiteral.value? literal.toList = some v ∧ 0 ≤ v ∧ d.size? = some v := by
  subst heq
  rw [TypeExpr.WellFormed] at ht
  obtain ⟨-, hliteral, hvalue⟩ := ht
  cases h with
  | constantSized => exact ⟨n, hvalue, Number.IntegerLiteral.value?_nonneg hliteral hvalue, rfl⟩
  | named t harray hdictionary => exact absurd (.inr ⟨e, n, literal, s, rfl⟩) harray

/-- The size is the mark of an array of any size exactly for array types without a size. -/
theorem size_iff (ht : t.WellFormed) {n : Int} (hn : d.size? = some n) :
    n = -1 ↔ ∃ e s, t = .variableSized e s := by
  cases h with
  | variableSized e s =>
    cases hn
    simp [unbounded]
  | constantSized e m literal s =>
    have hconstant : Bare table (.constantSized e m literal s) _ := .constantSized e m literal s
    obtain ⟨v, -, hv, hsize⟩ := hconstant.size_eq ht rfl
    rw [hn, Option.some.injEq] at hsize
    subst hsize
    constructor
    · omega
    · rintro ⟨e', s', heq⟩
      cases heq
  | dictionary => cases hn
  | named => cases hn

end Bare

/-- A descriptor is optional if the type is. -/
theorem isOptional_ofType (t : TypeExpr) : (ofType table t).isOptional = t.isOptional := by
  have hbare : Bare table t.unwrapped (ofType table t.unwrapped) :=
    bare_ofType t.unwrapped_isOptional
  rw [ofType_eq]
  cases t.isOptional with
  | true => exact isOptional_asOptional _
  | false => exact hbare.isOptional_eq

/-- The descriptor of a well-formed type fits it. -/
theorem fits_ofType (htable : table.ListsNames) {t : TypeExpr} (ht : t.WellFormed) :
    Fits table t (ofType table t) := by
  have hbare : Bare table t.unwrapped (ofType table t.unwrapped) :=
    bare_ofType t.unwrapped_isOptional
  obtain ⟨helement, hkey, hvalue⟩ := isSome_part?_iff (ofType table t)
  refine ⟨?_, ?_, ?_, ?_, ?_, ?_, helement, hkey, hvalue, ?_, ?_⟩
  · rw [isOptional_ofType, t.isOptional_iff]
  · rw [raw_ofType, hbare.raw_eq]
  · rw [kind_ofType, hbare.array_iff]
  · rw [kind_ofType, hbare.dictionary_iff]
  · intro k
    rw [kind_ofType, hbare.scalar_iff htable]
  · rw [kind_eq_unknown_iff, kind_ofType, ne_eq, hbare.array_iff, ne_eq, hbare.dictionary_iff]
    simp only [ne_eq, hbare.scalar_iff htable]
  · intro n hn
    rw [size?_ofType] at hn
    exact hbare.size_iff ht.unwrapped hn
  · intro e n literal s heq
    rw [size?_ofType]
    exact hbare.size_eq ht.unwrapped heq

/-- Inside the descriptor of a well-formed type there are the descriptors of the well-formed types
inside it. -/
theorem Inside.eq_ofType {t t' : TypeExpr} {d' : Descriptor String} (ht : t.WellFormed)
    (h : Inside t (ofType table t) t' d') : t'.WellFormed ∧ d' = ofType table t' := by
  induction h with
  | whole => exact ⟨ht, rfl⟩
  | part p h hu he ih =>
    obtain ⟨hwellFormed, rfl⟩ := ih
    rw [part?_ofType, hu] at he
    exact ⟨hwellFormed.unwrapped.part? hu, (Option.some.inj he).symm⟩

/-- The descriptor of a type that has been read fits it, and at every depth the descriptor of a part
fits the part. -/
theorem fits_of_parse {text : String} {t : TypeExpr} (h : TypeExpr.parse text = .ok t)
    (htable : table = .current ∨ table = .legacy) {t' : TypeExpr} {d' : Descriptor String}
    (hinside : Inside t (ofType table t) t' d') : Fits table t' d' := by
  have hnames : table.ListsNames := by
    rcases htable with rfl | rfl
    · exact KindTable.listsNames_current
    · exact KindTable.listsNames_legacy
  obtain ⟨hwellFormed, rfl⟩ := hinside.eq_ofType (TypeExpr.wellFormed_of_parse h)
  exact fits_ofType hnames hwellFormed

/-- The element of an optional array of a constant size that an optional dictionary has as its
values. -/
theorem fits_of_parse_element :
    ∃ t u v, TypeExpr.parse "\x7bAddress: [A.Int?; 0x3]?\x7d?" = .ok t ∧
      t.unwrapped.part? .value = some u ∧ u.unwrapped.part? .element = some v ∧
      Fits .current v (ofType .current v) := by
  have hparts : (match TypeExpr.parse "\x7bAddress: [A.Int?; 0x3]?\x7d?" with
      | .ok t => ((t.unwrapped.part? .value).bind fun u => u.unwrapped.part? .element).isSome
      | .error _ => false) = true := by
    decide +kernel
  cases hparse : TypeExpr.parse "\x7bAddress: [A.Int?; 0x3]?\x7d?" with
  | error e =>
    rw [hparse] at hparts
    cases hparts
  | ok t =>
    rw [hparse] at hparts
    obtain ⟨v, hv⟩ := Option.isSome_iff_exists.1 hparts
    obtain ⟨u, hu, hv⟩ := Option.bind_eq_some_iff.1 hv
    have hvalue : Inside t (ofType .current t) u (ofType .current u) :=
      .part .value .whole hu (by rw [part?_ofType, hu]; rfl)
    have helement : Inside t (ofType .current t) v (ofType .current v) :=
      .part .element hvalue hv (by rw [part?_ofType, hv]; rfl)
    exact ⟨t, u, v, rfl, hu, hv, fits_of_parse hparse (.inl rfl) helement⟩

end Table

end Descriptor

end CadenceEntry
