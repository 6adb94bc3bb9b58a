import CadenceEntry.Proofs.Descriptor.Kinds
import CadenceEntry.Proofs.TypeText.Nesting

/-!
# The ends of the text of a type

The first character of a type tells whether it is an array, and a brace with a colon behind it that
it is a dictionary. At its end the text has a question mark for every optional layer; of a type that
ends with a bracket, or is plain and no function type, all question marks at the end are optional
layers.
-/

set_option autoImplicit false

namespace CadenceEntry

open Grammar

/-- A text with question marks at its end is split before them in one way. -/
theorem append_marks_inj {x y : List Char} {m n : Nat} (hx : x.getLast? ≠ some '?')
    (hy : y.getLast? ≠ some '?')
    (h : x ++ List.replicate m '?' = y ++ List.replicate n '?') : x = y ∧ m = n := by
  have hlast : ∀ (z : List Char) (k : Nat),
      (z ++ List.replicate (k + 1) '?').getLast? = some '?' := by
    intro z k
    rw [List.replicate_succ', ← List.append_assoc, List.getLast?_concat]
  induction m generalizing n with
  | zero =>
    cases n with
    | zero => simpa using h
    | succ n =>
      rw [List.replicate_zero, List.append_nil] at h
      rw [h] at hx
      exact absurd (hlast y n) hx
  | succ m ih =>
    cases n with
    | zero =>
      rw [List.replicate_zero, List.append_nil] at h
      rw [← h] at hy
      exact absurd (hlast x m) hy
    | succ n =>
      rw [List.replicate_succ', List.replicate_succ', ← List.append_assoc, ← List.append_assoc]
        at h
      obtain ⟨rfl, rfl⟩ := ih (List.append_cancel_right h)
      exact ⟨rfl, rfl⟩

/-- The last character of a text that is not empty satisfies a condition. -/
def EndsWith (p : Char → Prop) (cs : List Char) : Prop := ∃ x c, cs = x ++ [c] ∧ p c

namespace EndsWith

variable {p : Char → Prop} {cs : List Char}

/-- A text ends as its second part does. -/
theorem append_left (x : List Char) (h : EndsWith p cs) : EndsWith p (x ++ cs) := by
  obtain ⟨y, c, rfl, hc⟩ := h
  exact ⟨x ++ y, c, (List.append_assoc _ _ _).symm, hc⟩

/-- A text ends with a character of a kind if all of its characters are of this kind. -/
theorem of_forall (hne : cs ≠ []) (h : ∀ c ∈ cs, p c) : EndsWith p cs :=
  ⟨cs.dropLast, cs.getLast hne, (List.dropLast_append_getLast hne).symm,
    h _ (List.getLast_mem hne)⟩

/-- A text that ends with another character does not end with this one. -/
theorem getLast?_ne {c : Char} (h : EndsWith (· ≠ c) cs) : cs.getLast? ≠ some c := by
  obtain ⟨y, d, rfl, hd⟩ := h
  rw [List.getLast?_concat]
  exact fun heq => hd (Option.some.inj heq)

end EndsWith

/-- What the texts of a list are made of. -/
theorem mem_listedChars {α : Type} {chars : α → List Char} {xs : List α} {c : Char}
    (h : c ∈ listedChars chars xs) : c = ',' ∨ c = ' ' ∨ ∃ x ∈ xs, c ∈ chars x := by
  cases xs with
  | nil => cases h
  | cons x xs =>
    rcases List.mem_append.1 h with hx | hxs
    · exact .inr (.inr ⟨x, List.mem_cons_self, hx⟩)
    · obtain ⟨y, hy, hmem⟩ := List.mem_flatMap.1 hxs
      simp only [List.mem_cons] at hmem
      rcases hmem with rfl | rfl | hmem
      · exact .inl rfl
      · exact .inr (.inl rfl)
      · exact .inr (.inr ⟨y, List.mem_cons_of_mem _ hy, hmem⟩)

namespace NominalType.WellFormed

variable {t : NominalType} (h : t.WellFormed)
include h

/-- The text of a type name begins like a name. -/
theorem exists_cons : ∃ c cs, t.chars = c :: cs ∧ WordClass.continuesName c = true := by
  unfold NominalType.chars
  cases hhead : t.head.text.toList with
  | nil => exact absurd hhead h.1.ne_nil
  | cons c cs =>
    refine ⟨c, _, List.cons_append, h.1.continuesName c ?_⟩
    rw [hhead]
    exact List.mem_cons_self

/-- The text of a type name consists of characters of names and of dots. -/
theorem mem_chars : ∀ c ∈ t.chars, WordClass.continuesName c = true ∨ c = '.' := by
  intro c hc
  rcases List.mem_append.1 hc with hc | hc
  · exact .inl (h.1.continuesName c hc)
  · obtain ⟨n, hn, hc⟩ := List.mem_flatMap.1 hc
    rcases List.mem_cons.1 hc with rfl | hc
    · exact .inr rfl
    · exact .inl ((h.2 n hn).continuesName c hc)

/-- The text of a type name does not end with a character that is in no name, the dot apart. -/
theorem endsWith {c : Char} (hc : WordClass.continuesName c = false ∧ c ≠ '.') :
    EndsWith (· ≠ c) t.chars := by
  obtain ⟨x, xs, hcons, -⟩ := h.exists_cons
  refine .of_forall (by simp [hcons]) ?_
  rintro d hd rfl
  rcases h.mem_chars d hd with hname | hdot
  · rw [hc.1] at hname
    cases hname
  · exact hc.2 hdot

end NominalType.WellFormed

namespace TypeExpr

/-- The number of optional layers around a type. -/
def layers : TypeExpr → Nat
  | .optional t _ => t.layers + 1
  | _ => 0

/-- Every optional layer is a question mark at the end of the text. -/
theorem chars_eq_append (t : TypeExpr) :
    t.chars = t.unwrapped.chars ++ List.replicate t.layers '?' :=
  match t with
  | .optional t _ => by
    rw [TypeExpr.chars, t.chars_eq_append, unwrapped, layers, List.replicate_succ']
    simp
  | .nominal _ | .variableSized _ _ | .constantSized _ _ _ _ | .dictionary _ _ _
  | .instantiation _ _ _ | .reference _ _ _ _ | .intersection _ _ | .restricted _ _ _
  | .function _ _ _ => by simp [unwrapped, layers]

/-- A type is optional if it has optional layers. -/
theorem isOptional_eq (t : TypeExpr) : t.isOptional = decide (0 < t.layers) := by
  match t with
  | .optional t _ => simp [isOptional, layers]
  | .nominal _ | .variableSized _ _ | .constantSized _ _ _ _ | .dictionary _ _ _
  | .instantiation _ _ _ | .reference _ _ _ _ | .intersection _ _ | .restricted _ _ _
  | .function _ _ _ => simp [isOptional, layers]

/-- Without optional layers nothing is unwrapped. -/
theorem unwrapped_eq {t : TypeExpr} (h : t.layers = 0) : t.unwrapped = t := by
  match t with
  | .optional t _ => cases h
  | .nominal _ | .variableSized _ _ | .constantSized _ _ _ _ | .dictionary _ _ _
  | .instantiation _ _ _ | .reference _ _ _ _ | .intersection _ _ | .restricted _ _ _
  | .function _ _ _ => rfl

/-- A plain type is plain without its optional layers. -/
theorem Plain.unwrapped {t : TypeExpr} (h : t.Plain) : t.unwrapped.Plain :=
  match t with
  | .optional t _ => by
    rw [Plain] at h
    exact Plain.unwrapped (t := t) h.2
  | .nominal _ | .variableSized _ _ | .constantSized _ _ _ _ | .dictionary _ _ _
  | .instantiation _ _ _ | .reference _ _ _ _ | .intersection _ _ | .restricted _ _ _
  | .function _ _ _ => h

/-- The text of an array type of a constant size. -/
theorem chars_constantSized {n : Int} {literal : String} (h : SizeOf n literal) (e : TypeExpr)
    (s : Span) : (TypeExpr.constantSized e n literal s).chars =
      '[' :: (e.chars ++ ';' :: ' ' :: (literal.toList ++ [']'])) := by
  simp [TypeExpr.chars, h.isEmpty_eq]

/-- The text of an array type of any size. -/
theorem chars_variableSized (e : TypeExpr) (s : Span) :
    (TypeExpr.variableSized e s).chars = '[' :: (e.chars ++ [']']) := by
  simp [TypeExpr.chars]

/-- The text of a dictionary type. -/
theorem chars_dictionary (k v : TypeExpr) (s : Span) : (TypeExpr.dictionary k v s).chars =
    '\x7b' :: (k.chars ++ ':' :: ' ' :: (v.chars ++ ['\x7d'])) := by
  simp [TypeExpr.chars]

/-- Whether the text of a type ends with a bracket of its own. -/
def closes : TypeExpr → Bool
  | .variableSized _ _ | .constantSized _ _ _ _ | .dictionary _ _ _ | .instantiation _ _ _
  | .intersection _ _ | .restricted _ _ _ => true
  | _ => false

/-- The text of a type that ends with a bracket of its own ends with a closing bracket. -/
theorem WellFormed.endsWith_of_closes {t : TypeExpr} (h : t.WellFormed) (hcloses : t.closes = true)
    {p : Char → Prop} (hp : p ']' ∧ p '\x7d' ∧ p '>') : EndsWith p t.chars := by
  obtain ⟨hbracket, hbrace, hgreater⟩ := hp
  match t with
  | .variableSized t _ => exact ⟨'[' :: t.chars, ']', by simp [TypeExpr.chars], hbracket⟩
  | .constantSized t n literal _ =>
    rw [WellFormed] at h
    rw [chars_constantSized h.2]
    exact ⟨'[' :: (t.chars ++ ';' :: ' ' :: literal.toList), ']', by simp, hbracket⟩
  | .dictionary k v _ =>
    exact ⟨'\x7b' :: (k.chars ++ ':' :: ' ' :: v.chars), '\x7d', by simp [TypeExpr.chars],
      hbrace⟩
  | .instantiation t args _ =>
    exact ⟨t.chars ++ '<' :: AnnotatedType.listedChars args, '>', by simp [TypeExpr.chars],
      hgreater⟩
  | .intersection ts _ =>
    exact ⟨'\x7b' :: listedChars NominalType.chars ts, '\x7d', by simp [TypeExpr.chars],
      hbrace⟩
  | .restricted t ts _ =>
    exact ⟨t.chars ++ '\x7b' :: listedChars NominalType.chars ts, '\x7d',
      by simp [TypeExpr.chars], hbrace⟩

/-- The texts of array and dictionary types end with brackets of their own. -/
theorem closes_of_compound {t : TypeExpr} (h : t.IsArray ∨ t.IsDictionary) : t.closes = true := by
  rcases h with (⟨e, s, rfl⟩ | ⟨e, n, literal, s, rfl⟩) | ⟨k, v, s, rfl⟩ <;> rfl

/-- A reference ends like the type that it goes to. -/
theorem endsWith_reference {p : Char → Prop} {t : TypeExpr} (h : EndsWith p t.chars)
    (authorized : Bool) (es : List NominalType) (s : Span) :
    EndsWith p (TypeExpr.reference authorized es t s).chars := by
  have hauthorized := h.append_left (NominalType.authorizationChars es ++ [' ', '&'])
  cases authorized <;> cases es
  · simpa [TypeExpr.chars] using h.append_left ['&']
  all_goals simpa [TypeExpr.chars] using hauthorized

end TypeExpr

mutual

/-- No type ends with a closing parenthesis. -/
theorem TypeExpr.WellFormed.endsWith {t : TypeExpr} (h : t.WellFormed) :
    EndsWith (· ≠ ')') t.chars := by
  match t with
  | .nominal n => exact NominalType.WellFormed.endsWith h (by decide)
  | .optional t _ => exact ⟨t.chars, '?', by simp [TypeExpr.chars], by decide⟩
  | .variableSized _ _ | .constantSized _ _ _ _ | .dictionary _ _ _ | .instantiation _ _ _
  | .intersection _ _ | .restricted _ _ _ => exact h.endsWith_of_closes rfl (by decide)
  | .reference authorized es t _ =>
    rw [TypeExpr.WellFormed] at h
    exact TypeExpr.endsWith_reference (TypeExpr.WellFormed.endsWith h.2) authorized es _
  | .function ps (some r) _ =>
    rw [TypeExpr.WellFormed] at h
    have hr := (AnnotatedType.WellFormed.endsWith h.2).append_left
      ('f' :: 'u' :: 'n' :: '(' :: (AnnotatedType.listedChars ps ++ [')', ':', ' ']))
    simpa [TypeExpr.chars] using hr

/-- The text of a type with its resource marker does not end with a closing parenthesis. -/
theorem AnnotatedType.WellFormed.endsWith {a : AnnotatedType} (h : a.WellFormed) :
    EndsWith (· ≠ ')') a.chars := by
  match a with
  | .mk r t _ =>
    rw [AnnotatedType.WellFormed] at h
    have ht := (TypeExpr.WellFormed.endsWith h).append_left (if r then ['@'] else [])
    simpa [AnnotatedType.chars] using ht

end

namespace TypeExpr

/-- A plain type ends with a question mark only if it is an optional type or a function type. -/
theorem Plain.endsWith {t : TypeExpr} (h : t.Plain) (ht : t.WellFormed)
    (hoptional : t.isOptional = false) (hfunction : t.isFunction = false) :
    EndsWith (· ≠ '?') t.chars := by
  match t with
  | .nominal n => exact NominalType.WellFormed.endsWith ht (by decide)
  | .variableSized _ _ | .constantSized _ _ _ _ | .dictionary _ _ _ | .instantiation _ _ _
  | .intersection _ _ | .restricted _ _ _ => exact ht.endsWith_of_closes rfl (by decide)
  | .reference authorized es t _ =>
    rw [WellFormed] at ht
    rw [Plain] at h
    exact endsWith_reference (Plain.endsWith h.2.2 ht.2 h.1 h.2.1) authorized es _

/-- Only array types begin with a bracket, and only dictionary types have a colon behind a brace
that they begin with. -/
theorem WellFormed.head?_chars {t : TypeExpr} (h : t.WellFormed) :
    (t.chars.head? = some '[' ↔ t.unwrapped.IsArray) ∧
      (t.chars.head? = some '\x7b' ∧ ':' ∈ t.chars ↔ t.unwrapped.IsDictionary) := by
  have hname : ∀ n : NominalType, n.WellFormed →
      ∃ c cs, n.chars = c :: cs ∧ c ≠ '[' ∧ c ≠ '\x7b' := by
    intro n hn
    obtain ⟨c, cs, hcons, hc⟩ := hn.exists_cons
    refine ⟨c, cs, hcons, ?_, ?_⟩
    · rintro rfl
      exact absurd hc (by decide)
    · rintro rfl
      exact absurd hc (by decide)
  cases t with
  | nominal n =>
    rw [WellFormed] at h
    obtain ⟨c, cs, hcons, hbracket, hbrace⟩ := hname n h
    simp [TypeExpr.chars, hcons, hbracket, hbrace, IsArray, IsDictionary, TypeExpr.unwrapped]
  | optional t _ =>
    rw [WellFormed] at h
    obtain ⟨x, c, hlast, -⟩ := h.endsWith
    have ht := WellFormed.head?_chars h
    rw [TypeExpr.unwrapped, ← ht.1, ← ht.2]
    simp [TypeExpr.chars, hlast]
  | variableSized e _ => simp [TypeExpr.chars, IsArray, IsDictionary, TypeExpr.unwrapped]
  | constantSized e n literal _ =>
    simp [TypeExpr.chars, IsArray, IsDictionary, TypeExpr.unwrapped]
  | dictionary k v _ => simp [TypeExpr.chars, IsArray, IsDictionary, TypeExpr.unwrapped]
  | instantiation t args _ =>
    cases t with
    | nominal n =>
      rw [WellFormed] at h
      obtain ⟨c, cs, hcons, hbracket, hbrace⟩ := hname n h.1
      simp [TypeExpr.chars, hcons, hbracket, hbrace, IsArray, IsDictionary, TypeExpr.unwrapped]
    | _ => exact h.elim
  | reference authorized es t _ =>
    cases authorized <;> cases es <;>
      simp [TypeExpr.chars, NominalType.authorizationChars, IsArray, IsDictionary,
        TypeExpr.unwrapped]
  | intersection ts _ =>
    rw [WellFormed] at h
    have hcolon : ':' ∉ listedChars NominalType.chars ts := by
      intro hmem
      obtain hmem | hmem | ⟨n, hn, hmem⟩ := mem_listedChars hmem
      · cases hmem
      · cases hmem
      · rcases (h n hn).mem_chars ':' hmem with hc | hc
        · cases hc
        · cases hc
    simp [TypeExpr.chars, hcolon, IsArray, IsDictionary, TypeExpr.unwrapped]
  | restricted n ts _ =>
    rw [WellFormed] at h
    obtain ⟨c, cs, hcons, hbracket, hbrace⟩ := hname n h.1
    simp [TypeExpr.chars, hcons, hbracket, hbrace, IsArray, IsDictionary, TypeExpr.unwrapped]
  | function ps r _ =>
    cases r <;> simp [TypeExpr.chars, IsArray, IsDictionary, TypeExpr.unwrapped]

/-- Only function types begin with `fun` and a parenthesis. -/
theorem WellFormed.isFunction_iff {t : TypeExpr} (h : t.WellFormed)
    (hoptional : t.isOptional = false) (m : Nat) :
    t.isFunction = true ↔ ['f', 'u', 'n', '('] <+: t.chars ++ List.replicate m '?' := by
  -- A name has no parenthesis, and the mark behind it is not among the first four characters.
  have hname : ∀ (n : NominalType) (cs : List Char), n.WellFormed →
      (∀ c ∈ cs.head?, c ∉ ['f', 'u', 'n', '(']) → ¬ ['f', 'u', 'n', '('] <+: n.chars ++ cs := by
    intro n cs hn hcs hprefix
    have hparen : '(' ∉ n.chars := by
      intro hmem
      rcases hn.mem_chars _ hmem with hc | hc
      · exact absurd hc (by decide)
      · cases hc
    rcases List.prefix_or_prefix_of_prefix hprefix (List.prefix_append n.chars cs) with hle | hle
    · exact hparen (hle.subset (by simp))
    · obtain ⟨q, hq⟩ := hle
      rw [← hq, List.prefix_append_right_inj] at hprefix
      cases q with
      | nil =>
        rw [List.append_nil] at hq
        exact hparen (by simp [hq])
      | cons c q =>
        obtain ⟨cs', rfl⟩ := hprefix
        have hmem : c ∈ ['f', 'u', 'n', '('] := by
          rw [← hq]
          exact List.mem_append_right _ List.mem_cons_self
        exact hcs c rfl hmem
  match t with
  | .nominal n =>
    rw [WellFormed] at h
    have hhead : ∀ c ∈ (List.replicate m '?').head?, c ∉ ['f', 'u', 'n', '('] := by
      intro c hc
      rw [List.eq_of_mem_replicate (List.mem_of_mem_head? hc)]
      decide
    simpa [TypeExpr.chars, isFunction] using hname n _ h hhead
  | .variableSized e _ => simp [TypeExpr.chars, isFunction]
  | .constantSized e n literal _ => simp [TypeExpr.chars, isFunction]
  | .dictionary k v _ => simp [TypeExpr.chars, isFunction]
  | .instantiation (.nominal n) args _ =>
    rw [WellFormed] at h
    simpa [TypeExpr.chars, isFunction] using hname n
      ('<' :: (AnnotatedType.listedChars args ++ '>' :: List.replicate m '?')) h.1 (by simp)
  | .reference authorized es t _ =>
    cases authorized <;> cases es <;>
      simp [TypeExpr.chars, NominalType.authorizationChars, isFunction]
  | .intersection ts _ => simp [TypeExpr.chars, isFunction]
  | .restricted n ts _ =>
    rw [WellFormed] at h
    simpa [TypeExpr.chars, isFunction] using hname n
      ('\x7b' :: (listedChars NominalType.chars ts ++ '\x7d' :: List.replicate m '?')) h.1 (by simp)
  | .function ps (some r) _ => simp [TypeExpr.chars, isFunction]

/-- A plain type has no optional layers around a function type. -/
theorem Plain.layers_eq_zero {t : TypeExpr} (h : t.Plain)
    (hfunction : t.unwrapped.isFunction = true) : t.layers = 0 :=
  match t with
  | .optional t _ => by
    rw [Plain] at h
    have hlayers : t.layers = 0 := Plain.layers_eq_zero h.2 hfunction
    have hunwrapped : t.unwrapped = t := TypeExpr.unwrapped_eq hlayers
    have hnot := h.1
    rw [← hunwrapped] at hnot
    exact absurd (hnot.symm.trans hfunction) (by decide)
  | .nominal _ | .variableSized _ _ | .constantSized _ _ _ _ | .dictionary _ _ _
  | .instantiation _ _ _ | .reference _ _ _ _ | .intersection _ _ | .restricted _ _ _
  | .function _ _ _ => rfl

end TypeExpr

end CadenceEntry
