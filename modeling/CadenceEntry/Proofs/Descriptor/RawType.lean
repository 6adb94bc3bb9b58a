import CadenceEntry.Proofs.Descriptor.Ends
import CadenceEntry.Proofs.Interaction.Unplaced

/-!
# What the raw type tells

The raw type of a descriptor is the text of the type that it describes, and the text of a type tells
nearly all that a descriptor says: the kind, the size and the parts. Only of a type without a kind
the text does not tell which question marks at its end belong to it and which make it optional,
because grouping parentheses are not written. So descriptors with the same raw type and the same
mark of optionality are alike at every depth, and they are the same if no parentheses are missed.
-/

set_option autoImplicit false

namespace CadenceEntry

open Grammar

namespace TypeExpr

variable {t t' : TypeExpr}

/-- Arrays with the same text are of the same size and their elements have the same text. -/
theorem arrays_of_chars_eq (ht : t.WellFormed) (ht' : t'.WellFormed) (harray : t.IsArray)
    (harray' : t'.IsArray) (h : t.chars = t'.chars) :
    (∃ e e' s s', t = .variableSized e s ∧ t' = .variableSized e' s' ∧ e.chars = e'.chars) ∨
      ∃ e e' n literal s s', t = .constantSized e n literal s ∧
        t' = .constantSized e' n literal s' ∧ e.chars = e'.chars := by
  -- In the element there is no semicolon outside of brackets, so the two texts differ.
  have hsemicolon : ∀ {e e' : TypeExpr} {cs : List Char}, e.WellFormed → e'.WellFormed →
      e.chars ≠ e'.chars ++ ';' :: cs := by
    intro e e' cs he he' heq
    have hpos := he.enclosed.semicolon _ _ heq
    rw [he'.enclosed.depth_eq] at hpos
    omega
  obtain ⟨e, s, rfl⟩ | ⟨e, n, literal, s, rfl⟩ := harray <;>
    obtain ⟨e', s', rfl⟩ | ⟨e', n', literal', s', rfl⟩ := harray'
  · rw [chars_variableSized, chars_variableSized] at h
    exact .inl ⟨e, e', s, s', rfl, rfl, List.append_cancel_right (List.cons.inj h).2⟩
  · rw [WellFormed] at ht'
    rw [chars_variableSized, chars_constantSized ht'.2] at h
    have heq : e.chars ++ [']'] = (e'.chars ++ ';' :: ' ' :: literal'.toList) ++ [']'] := by
      simpa using (List.cons.inj h).2
    exact absurd (List.append_cancel_right heq) (hsemicolon ht ht'.1)
  · rw [WellFormed] at ht
    rw [chars_variableSized, chars_constantSized ht.2] at h
    have heq : (e.chars ++ ';' :: ' ' :: literal.toList) ++ [']'] = e'.chars ++ [']'] := by
      simpa using (List.cons.inj h).2
    exact absurd (List.append_cancel_right heq).symm (hsemicolon ht' ht.1)
  · rw [WellFormed] at ht ht'
    rw [chars_constantSized ht.2, chars_constantSized ht'.2] at h
    obtain ⟨helement, hrest⟩ := ht.1.enclosed.semicolon_inj ht'.1.enclosed (List.cons.inj h).2
    have hliteral : literal = literal' := by
      have htext := List.append_cancel_right (List.cons.inj hrest).2
      exact String.toList_inj.1 htext
    subst hliteral
    have hsize : n = n' := Option.some.inj (ht.2.2.symm.trans ht'.2.2)
    subst hsize
    exact .inr ⟨e, e', n, literal, s, s', rfl, rfl, helement⟩

/-- Dictionaries with the same text have keys and values with the same texts. -/
theorem dictionaries_of_chars_eq (ht : t.WellFormed) (ht' : t'.WellFormed)
    (hdictionary : t.IsDictionary) (hdictionary' : t'.IsDictionary) (h : t.chars = t'.chars) :
    ∃ k k' v v' s s', t = .dictionary k v s ∧ t' = .dictionary k' v' s' ∧ k.chars = k'.chars ∧
      v.chars = v'.chars := by
  obtain ⟨k, v, s, rfl⟩ := hdictionary
  obtain ⟨k', v', s', rfl⟩ := hdictionary'
  rw [WellFormed] at ht ht'
  rw [chars_dictionary, chars_dictionary] at h
  obtain ⟨hkey, hrest⟩ := ht.1.enclosed.colon_inj ht'.1.enclosed ht.1.endsWith.getLast?_ne
    ht'.1.endsWith.getLast?_ne (List.cons.inj h).2
  exact ⟨k, k', v, v', s, s', rfl, rfl, hkey, List.append_cancel_right (List.cons.inj hrest).2⟩

/-- Types with the same text of which one is a single name are the same name, equally often
optional. -/
theorem name_of_chars_eq (ht : t.WellFormed) (ht' : t'.WellFormed) {n : Identifier} {s : Span}
    (hname : t.unwrapped = .nominal ⟨n, [], s⟩) (h : t.chars = t'.chars) :
    t.unwrapped.chars = t'.unwrapped.chars ∧ t.layers = t'.layers := by
  have hn : n.WellFormed := by
    have hwellFormed := ht.unwrapped
    rw [hname, WellFormed] at hwellFormed
    exact hwellFormed.1
  have hchars : t.unwrapped.chars = n.text.toList := by
    rw [hname]
    simp [TypeExpr.chars, NominalType.chars]
  have hmem : ∀ c ∈ t'.unwrapped.chars, WordClass.continuesName c = true ∨ c = '?' := by
    intro c hc
    have hmem : c ∈ t.chars := by
      rw [h, t'.chars_eq_append]
      exact List.mem_append_left _ hc
    rw [t.chars_eq_append, hchars] at hmem
    rcases List.mem_append.1 hmem with hmem | hmem
    · exact .inl (hn.continuesName c hmem)
    · exact .inr (List.eq_of_mem_replicate hmem)
  obtain ⟨n', s', hname'⟩ : ∃ n' s', t'.unwrapped = .nominal ⟨n', [], s'⟩ := by
    by_contra hnot
    obtain ⟨c, hc, hmark, hquestion⟩ :=
      exists_mark fun n' s' hname' => hnot ⟨n', s', hname'⟩
    rcases hmem c hc with hcontinues | hc
    · rw [hmark] at hcontinues
      cases hcontinues
    · have hoptional := hquestion hc
      rw [t'.unwrapped_isOptional] at hoptional
      cases hoptional
  have hends : ∀ {u : TypeExpr} {m : Identifier} {s : Span}, u.WellFormed →
      u = .nominal ⟨m, [], s⟩ → u.chars.getLast? ≠ some '?' := by
    rintro u m s hu rfl
    rw [WellFormed] at hu
    exact (NominalType.WellFormed.endsWith hu (by decide)).getLast?_ne
  rw [t.chars_eq_append, t'.chars_eq_append] at h
  exact append_marks_inj (hends ht.unwrapped hname) (hends ht'.unwrapped hname') h

/-- Plain types with the same text have the same optional layers. -/
theorem layers_of_chars_eq (ht : t.WellFormed) (ht' : t'.WellFormed) (hplain : t.Plain)
    (hplain' : t'.Plain) (h : t.chars = t'.chars) :
    t.unwrapped.chars = t'.unwrapped.chars ∧ t.layers = t'.layers := by
  have hfunction : t.unwrapped.isFunction = t'.unwrapped.isFunction := by
    rw [Bool.eq_iff_iff, ht.unwrapped.isFunction_iff t.unwrapped_isOptional t.layers,
      ht'.unwrapped.isFunction_iff t'.unwrapped_isOptional t'.layers, ← t.chars_eq_append,
      ← t'.chars_eq_append, h]
  rw [t.chars_eq_append, t'.chars_eq_append] at h
  cases hf : t.unwrapped.isFunction with
  | true =>
    have hlayers := hplain.layers_eq_zero hf
    have hlayers' := hplain'.layers_eq_zero (hfunction.symm.trans hf)
    rw [hlayers, hlayers', List.replicate_zero, List.append_nil, List.append_nil] at h
    exact ⟨h, hlayers.trans hlayers'.symm⟩
  | false =>
    have hend := hplain.unwrapped.endsWith ht.unwrapped t.unwrapped_isOptional hf
    have hend' := hplain'.unwrapped.endsWith ht'.unwrapped t'.unwrapped_isOptional
      (hfunction.symm.trans hf)
    exact append_marks_inj hend.getLast?_ne hend'.getLast?_ne h

end TypeExpr

namespace Descriptor

/-- Two descriptors are alike if they are the same but for types without a kind inside them: of the
question marks at the end of such a type they may have different numbers in the raw type. -/
inductive Alike : Descriptor String → Descriptor String → Prop
  | scalar (k : ScalarKind) (raw : String) (isOptional : Bool) :
      Alike (named (some k) raw isOptional) (named (some k) raw isOptional)
  | unknown {raw raw' : String} {m m' : Nat} (h : raw.toList ++ List.replicate m '?' =
      raw'.toList ++ List.replicate m' '?') :
      Alike (named none raw (decide (0 < m))) (named none raw' (decide (0 < m')))
  | array (raw : String) (isOptional : Bool) {e e' : Descriptor String} (size : Int)
      (h : Alike e e') : Alike (array raw isOptional e size) (array raw isOptional e' size)
  | dictionary (raw : String) (isOptional : Bool) {k k' v v' : Descriptor String}
      (hk : Alike k k') (hv : Alike v v') :
      Alike (dictionary raw isOptional k v) (dictionary raw isOptional k' v')

/-- Alike descriptors stay alike when both are made optional. -/
theorem Alike.asOptional {d d' : Descriptor String} (h : Alike d d') :
    Alike d.asOptional d'.asOptional := by
  cases h with
  | scalar k raw o => exact .scalar k raw true
  | array raw o size h => exact .array raw true size h
  | dictionary raw o hk hv => exact .dictionary raw true hk hv
  | @unknown raw raw' m m' h =>
    have hmarks : raw.toList ++ List.replicate (m + 1) '?' =
        raw'.toList ++ List.replicate (m' + 1) '?' := by
      rw [List.replicate_succ', List.replicate_succ', ← List.append_assoc, h, List.append_assoc]
    have halike := Alike.unknown hmarks
    simpa [Descriptor.asOptional] using halike

/-- What the same text says of two types: their descriptors are alike, and the same if both types
are plain. -/
structure Agree (table : KindTable ScalarKind) (t t' : TypeExpr) : Prop where
  alike : Alike (ofType table t) (ofType table t')
  eq_of_plain : t.Plain → t'.Plain → ofType table t = ofType table t'

variable {table : KindTable ScalarKind} {t t' : TypeExpr}

/-- Two types agree if they do without their optional layers and both or none are optional. -/
theorem Agree.of_unwrapped (h : Agree table t.unwrapped t'.unwrapped)
    (hoptional : t.isOptional = t'.isOptional) : Agree table t t' where
  alike := by
    rw [ofType_eq table t, ofType_eq table t', hoptional]
    split
    · exact h.alike.asOptional
    · exact h.alike
  eq_of_plain hplain hplain' := by
    rw [ofType_eq table t, ofType_eq table t', hoptional,
      h.eq_of_plain hplain.unwrapped hplain'.unwrapped]

/-- A type that is no optional, array or dictionary type is looked up by its text. -/
theorem ofType_eq_named (hoptional : t.isOptional = false) (harray : ¬ t.IsArray)
    (hdictionary : ¬ t.IsDictionary) :
    ofType table t = named (table.kind? t.text) t.text false := by
  have hbare : Bare table t (ofType table t) := bare_ofType hoptional
  generalize ofType table t = d at hbare ⊢
  cases hbare with
  | variableSized e s => exact absurd (.inl ⟨e, s, rfl⟩) harray
  | constantSized e n literal s => exact absurd (.inr ⟨e, n, literal, s, rfl⟩) harray
  | dictionary k v s => exact absurd ⟨k, v, s, rfl⟩ hdictionary
  | named => rfl

/-- A descriptor without parts is alike itself. -/
theorem Alike.refl_named (kind : Option ScalarKind) (raw : String) :
    Alike (named kind raw false) (named kind raw false) := by
  cases kind with
  | none =>
    have hmarks : raw.toList ++ List.replicate 0 '?' = raw.toList ++ List.replicate 0 '?' := rfl
    exact .unknown hmarks
  | some k => exact .scalar k raw false

/-- The text says all of types that have the same text without their optional layers. -/
theorem Agree.of_text_eq (ht : ¬ t.unwrapped.IsArray ∧ ¬ t.unwrapped.IsDictionary)
    (ht' : ¬ t'.unwrapped.IsArray ∧ ¬ t'.unwrapped.IsDictionary)
    (hchars : t.unwrapped.chars = t'.unwrapped.chars) (hlayers : t.layers = t'.layers) :
    Agree table t t' := by
  have htext : t.unwrapped.text = t'.unwrapped.text := by
    rw [← String.toList_inj, TypeExpr.toList_text, TypeExpr.toList_text, hchars]
  have hoptional : t.isOptional = t'.isOptional := by
    rw [t.isOptional_eq, t'.isOptional_eq, hlayers]
  have heq : ofType table t.unwrapped = ofType table t'.unwrapped := by
    rw [ofType_eq_named t.unwrapped_isOptional ht.1 ht.2,
      ofType_eq_named t'.unwrapped_isOptional ht'.1 ht'.2, htext]
  refine Agree.of_unwrapped ⟨?_, fun _ _ => heq⟩ hoptional
  rw [← heq, ofType_eq_named t.unwrapped_isOptional ht.1 ht.2]
  exact .refl_named _ _

/-- Of types without a kind that have the same text it is only open to which optional layers the
question marks at the end belong. -/
theorem Agree.of_unknown (ht : t.WellFormed) (ht' : t'.WellFormed)
    (hkind : ofType table t.unwrapped = named none t.unwrapped.text false)
    (hkind' : ofType table t'.unwrapped = named none t'.unwrapped.text false)
    (h : t.chars = t'.chars) : Agree table t t' := by
  have hnamed : ∀ u : TypeExpr, ofType table u.unwrapped = named none u.unwrapped.text false →
      ofType table u = named none u.unwrapped.text (decide (0 < u.layers)) := by
    intro u hu
    rw [ofType_eq, hu, u.isOptional_eq]
    by_cases hlayers : 0 < u.layers <;> simp [hlayers, asOptional]
  refine ⟨?_, fun hplain hplain' => ?_⟩
  · rw [t.chars_eq_append, t'.chars_eq_append] at h
    rw [hnamed t hkind, hnamed t' hkind']
    refine .unknown ?_
    rw [TypeExpr.toList_text, TypeExpr.toList_text, h]
  · obtain ⟨hchars, hlayers⟩ := TypeExpr.layers_of_chars_eq ht ht' hplain hplain' h
    have htext : t.unwrapped.text = t'.unwrapped.text := by
      rw [← String.toList_inj, TypeExpr.toList_text, TypeExpr.toList_text, hchars]
    rw [hnamed t hkind, hnamed t' hkind', htext, hlayers]

/-- Arrays and dictionaries with the same text have the same optional layers. -/
theorem layers_of_compound (ht : t.WellFormed) (ht' : t'.WellFormed) (h : t.chars = t'.chars)
    (hcompound : t.unwrapped.IsArray ∨ t.unwrapped.IsDictionary)
    (hcompound' : t'.unwrapped.IsArray ∨ t'.unwrapped.IsDictionary) :
    t.unwrapped.chars = t'.unwrapped.chars ∧ t.isOptional = t'.isOptional := by
  have hend : EndsWith (· ≠ '?') t.unwrapped.chars :=
    ht.unwrapped.endsWith_of_closes (TypeExpr.closes_of_compound hcompound) (by decide)
  have hend' : EndsWith (· ≠ '?') t'.unwrapped.chars :=
    ht'.unwrapped.endsWith_of_closes (TypeExpr.closes_of_compound hcompound') (by decide)
  rw [t.chars_eq_append, t'.chars_eq_append] at h
  obtain ⟨hchars, hlayers⟩ := append_marks_inj hend.getLast?_ne hend'.getLast?_ne h
  exact ⟨hchars, by rw [t.isOptional_eq, t'.isOptional_eq, hlayers]⟩

/-- Of types that are neither arrays nor dictionaries a single name tells itself, and any other one
has no kind. -/
theorem Agree.of_named (htable : table.ListsNames) (ht : t.WellFormed) (ht' : t'.WellFormed)
    (hnamed : ¬ t.unwrapped.IsArray ∧ ¬ t.unwrapped.IsDictionary)
    (hnamed' : ¬ t'.unwrapped.IsArray ∧ ¬ t'.unwrapped.IsDictionary) (h : t.chars = t'.chars) :
    Agree table t t' := by
  have hkind : ∀ u : TypeExpr, ¬ u.unwrapped.IsArray ∧ ¬ u.unwrapped.IsDictionary →
      (¬ ∃ n s, u.unwrapped = .nominal ⟨n, [], s⟩) →
        ofType table u.unwrapped = named none u.unwrapped.text false := by
    intro u hu hname
    rw [ofType_eq_named u.unwrapped_isOptional hu.1 hu.2]
    cases hk : table.kind? u.unwrapped.text with
    | none => rfl
    | some k =>
      obtain ⟨n, s, hn, -⟩ := (kind?_text_iff htable u.unwrapped k).1 hk
      exact absurd ⟨n, s, hn⟩ hname
  by_cases hname : ∃ n s, t.unwrapped = .nominal ⟨n, [], s⟩
  · obtain ⟨n, s, hname⟩ := hname
    obtain ⟨hchars, hlayers⟩ := TypeExpr.name_of_chars_eq ht ht' hname h
    exact .of_text_eq hnamed hnamed' hchars hlayers
  · by_cases hname' : ∃ n s, t'.unwrapped = .nominal ⟨n, [], s⟩
    · obtain ⟨n, s, hname'⟩ := hname'
      obtain ⟨hchars, hlayers⟩ := TypeExpr.name_of_chars_eq ht' ht hname' h.symm
      exact .of_text_eq hnamed hnamed' hchars.symm hlayers.symm
    · exact .of_unknown ht ht' (hkind t hnamed hname) (hkind t' hnamed' hname') h

/-- Arrays of any size agree if their elements do and have the same text. -/
theorem Agree.variableSized {e e' : TypeExpr} (h : Agree table e e') (hchars : e.chars = e'.chars)
    (s s' : Span) : Agree table (.variableSized e s) (.variableSized e' s') := by
  have htext : (TypeExpr.variableSized e s).text = (TypeExpr.variableSized e' s').text := by
    rw [← String.toList_inj, TypeExpr.toList_text, TypeExpr.toList_text,
      TypeExpr.chars_variableSized, TypeExpr.chars_variableSized, hchars]
  constructor
  · rw [ofType, ofType, htext]
    exact .array _ _ _ h.alike
  · intro hplain hplain'
    rw [ofType, ofType, htext, h.eq_of_plain hplain hplain']

/-- Arrays of the same size agree if their elements do and have the same text. -/
theorem Agree.constantSized {e e' : TypeExpr} (h : Agree table e e') (hchars : e.chars = e'.chars)
    (n : Int) (literal : String) (s s' : Span) :
    Agree table (.constantSized e n literal s) (.constantSized e' n literal s') := by
  have htext : (TypeExpr.constantSized e n literal s).text =
      (TypeExpr.constantSized e' n literal s').text := by
    rw [← String.toList_inj, TypeExpr.toList_text, TypeExpr.toList_text, TypeExpr.chars,
      TypeExpr.chars, hchars]
  constructor
  · rw [ofType, ofType, htext]
    exact .array _ _ _ h.alike
  · intro hplain hplain'
    rw [ofType, ofType, htext, h.eq_of_plain hplain hplain']

/-- Dictionaries agree if their keys and their values do and have the same texts. -/
theorem Agree.dictionary {k k' v v' : TypeExpr} (hk : Agree table k k') (hv : Agree table v v')
    (hkey : k.chars = k'.chars) (hvalue : v.chars = v'.chars) (s s' : Span) :
    Agree table (.dictionary k v s) (.dictionary k' v' s') := by
  have htext : (TypeExpr.dictionary k v s).text = (TypeExpr.dictionary k' v' s').text := by
    rw [← String.toList_inj, TypeExpr.toList_text, TypeExpr.toList_text,
      TypeExpr.chars_dictionary, TypeExpr.chars_dictionary, hkey, hvalue]
  constructor
  · rw [ofType, ofType, htext]
    exact .dictionary _ _ hk.alike hv.alike
  · intro hplain hplain'
    rw [TypeExpr.Plain] at hplain hplain'
    rw [ofType, ofType, htext, hk.eq_of_plain hplain.1 hplain'.1,
      hv.eq_of_plain hplain.2 hplain'.2]

/-- Types with the same text have descriptors that are alike, and the same if both are plain. -/
theorem agree_of_chars_eq (htable : table.ListsNames) (ht : t.WellFormed) (ht' : t'.WellFormed)
    (h : t.chars = t'.chars) : Agree table t t' := by
  -- By induction on the length of the text: the parts of a type have shorter texts.
  induction hlength : t.chars.length using Nat.strong_induction_on generalizing t t' with
  | _ n ih =>
    have hu := ht.unwrapped
    have hu' := ht'.unwrapped
    have hle : t.unwrapped.chars.length ≤ n := by
      rw [← hlength, t.chars_eq_append, List.length_append]
      omega
    have harray : t.unwrapped.IsArray ↔ t'.unwrapped.IsArray := by
      rw [← ht.head?_chars.1, ← ht'.head?_chars.1, h]
    have hdictionary : t.unwrapped.IsDictionary ↔ t'.unwrapped.IsDictionary := by
      rw [← ht.head?_chars.2, ← ht'.head?_chars.2, h]
    by_cases hisArray : t.unwrapped.IsArray
    · have hisArray' := harray.1 hisArray
      obtain ⟨hchars, hoptional⟩ :=
        layers_of_compound ht ht' h (.inl hisArray) (.inl hisArray')
      refine Agree.of_unwrapped ?_ hoptional
      rcases TypeExpr.arrays_of_chars_eq hu hu' hisArray hisArray' hchars with
        ⟨e, e', s, s', heq, heq', helement⟩ | ⟨e, e', m, literal, s, s', heq, heq', helement⟩
      · rw [heq, TypeExpr.chars_variableSized] at hle
        rw [heq, TypeExpr.WellFormed] at hu
        rw [heq', TypeExpr.WellFormed] at hu'
        rw [heq, heq']
        exact .variableSized (ih _ (by simp at hle; omega) hu hu' helement rfl) helement s s'
      · rw [heq, TypeExpr.WellFormed] at hu
        rw [heq', TypeExpr.WellFormed] at hu'
        rw [heq, TypeExpr.chars_constantSized hu.2] at hle
        rw [heq, heq']
        exact .constantSized (ih _ (by simp at hle; omega) hu.1 hu'.1 helement rfl) helement m
          literal s s'
    · by_cases hisDictionary : t.unwrapped.IsDictionary
      · have hisDictionary' := hdictionary.1 hisDictionary
        obtain ⟨hchars, hoptional⟩ :=
          layers_of_compound ht ht' h (.inr hisDictionary) (.inr hisDictionary')
        refine Agree.of_unwrapped ?_ hoptional
        obtain ⟨k, k', v, v', s, s', heq, heq', hkey, hvalue⟩ :=
          TypeExpr.dictionaries_of_chars_eq hu hu' hisDictionary hisDictionary' hchars
        rw [heq, TypeExpr.chars_dictionary] at hle
        rw [heq, TypeExpr.WellFormed] at hu
        rw [heq', TypeExpr.WellFormed] at hu'
        rw [heq, heq']
        exact .dictionary (ih _ (by simp at hle; omega) hu.1 hu'.1 hkey rfl)
          (ih _ (by simp at hle; omega) hu.2 hu'.2 hvalue rfl) hkey hvalue s s'
      · exact .of_named htable ht ht' ⟨hisArray, hisDictionary⟩
          ⟨fun h => hisArray (harray.2 h), fun h => hisDictionary (hdictionary.2 h)⟩ h

/-- Types that have been read and are described by the same raw type, both optional or both not,
have descriptors that are alike at every depth, and the same descriptor if both types are plain. -/
theorem agree_of_raw_eq {text text' : String} (h : TypeExpr.parse text = .ok t)
    (h' : TypeExpr.parse text' = .ok t') (htable : table = .current ∨ table = .legacy)
    (hraw : (ofType table t).raw = (ofType table t').raw)
    (hoptional : (ofType table t).isOptional = (ofType table t').isOptional) :
    Agree table t t' := by
  have hnames : table.ListsNames := by
    rcases htable with rfl | rfl
    · exact KindTable.listsNames_current
    · exact KindTable.listsNames_legacy
  have hbare : ∀ u : TypeExpr, (ofType table u).raw = u.unwrapped.text := fun u =>
    (raw_ofType table u).trans (bare_ofType u.unwrapped_isOptional).raw_eq
  have hchars : t.unwrapped.chars = t'.unwrapped.chars := by
    rw [← TypeExpr.toList_text, ← TypeExpr.toList_text, ← hbare, ← hbare, hraw]
  rw [isOptional_ofType, isOptional_ofType] at hoptional
  have ht := (TypeExpr.wellFormed_of_parse h).unwrapped
  have ht' := (TypeExpr.wellFormed_of_parse h').unwrapped
  exact (agree_of_chars_eq hnames ht ht' hchars).of_unwrapped hoptional

/-- What can be checked of two types that two texts are. -/
theorem exists_types (text text' : String) (p : TypeExpr → TypeExpr → Bool)
    (h : (match TypeExpr.parse text, TypeExpr.parse text' with
      | .ok t, .ok t' => p t t'
      | _, _ => false) = true) :
    ∃ t t', TypeExpr.parse text = .ok t ∧ TypeExpr.parse text' = .ok t' ∧ p t t' = true := by
  split at h
  · next t t' ht ht' => exact ⟨t, t', ht, ht', h⟩
  · cases h

/-- A dictionary of references, written in two ways. -/
theorem agree_of_raw_eq_dictionary : ∃ t t',
    TypeExpr.parse "\x7bA: [&(B?); 0x2]?\x7d" = .ok t ∧
      TypeExpr.parse "\x7b(A) : [&B?; 0x2]?\x7d" = .ok t' ∧
      (ofType .current t).raw = (ofType .current t').raw ∧ Agree .current t t' := by
  obtain ⟨t, t', h, h', hsame⟩ := exists_types "\x7bA: [&(B?); 0x2]?\x7d"
    "\x7b(A) : [&B?; 0x2]?\x7d"
    (fun t t' => decide ((ofType .current t).raw = (ofType .current t').raw ∧
      (ofType .current t).isOptional = (ofType .current t').isOptional))
    (by decide +kernel)
  obtain ⟨hraw, hoptional⟩ := of_decide_eq_true hsame
  exact ⟨t, t', h, h', hraw, agree_of_raw_eq h h' (.inl rfl) hraw hoptional⟩

/-- An array of references to optional types has the raw type of an array of optional references,
but another element. -/
theorem ofType_ne_of_raw_eq : ∃ t t',
    TypeExpr.parse "[&(T?)]" = .ok t ∧ TypeExpr.parse "[&T?]" = .ok t' ∧
      (ofType .current t).raw = (ofType .current t').raw ∧
      (ofType .current t).isOptional = (ofType .current t').isOptional ∧
      ofType .current t ≠ ofType .current t' := by
  obtain ⟨t, t', h, h', hsame⟩ := exists_types "[&(T?)]" "[&T?]"
    (fun t t' => decide ((ofType .current t).raw = (ofType .current t').raw ∧
      (ofType .current t).isOptional = (ofType .current t').isOptional ∧
      ofType .current t ≠ ofType .current t'))
    (by decide +kernel)
  exact ⟨t, t', h, h', of_decide_eq_true hsame⟩

end Descriptor

end CadenceEntry
