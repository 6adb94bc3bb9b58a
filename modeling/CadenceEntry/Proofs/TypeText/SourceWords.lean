import CadenceEntry.Proofs.TypeText.RoundTrip

/-!
# The text of a type and the text it was read from

The text of a type that has been read has, apart from white space, the words of the source in their
order, without the parentheses that only group and without the resource marker of the whole type.
One word is another one: a bar between entitlements is a comma in the text of the type. So the text
is that of the source exactly if no bar is among its words, `TypeExpr.withoutBlanks_text`.
-/

set_option autoImplicit false

namespace CadenceEntry

open Grammar

/-- A text without its white space. -/
def withoutBlanks (cs : List Char) : List Char := cs.filter fun c => !Text.isBlank c

/-- Texts in two parts lose their blanks part by part. -/
theorem withoutBlanks_append (cs cs' : List Char) :
    withoutBlanks (cs ++ cs') = withoutBlanks cs ++ withoutBlanks cs' :=
  List.filter_append cs cs'

/-- What continues a name is not white space. -/
theorem WordClass.isBlank_of_continuesName {x : Char} (h : continuesName x = true) :
    Text.isBlank x = false := by
  rw [continuesName_iff] at h
  simp [Text.isBlank]
  omega

/-- A decimal literal has no white space. -/
theorem WordClass.continuesName_of_mem_integer {w : List Char} {x : Char}
    (hw : integerLength? w = some w.length) (hx : x ∈ w) : continuesName x = true := by
  rcases integerLength?_eq_some hw with ⟨m, ds, p, k, rfl, hp, hk, hlength⟩ |
    ⟨c, ds, rfl, hc, -, hlength⟩
  · obtain ⟨hrun, -⟩ := run?_eq_some_iff.1 hk
    have hall : ds.take (run p ds) = ds := by
      apply List.take_of_length_le
      simp only [List.length_cons] at hlength
      omega
    have hm : continuesName m = true := by
      by_contra hm
      rw [Bool.not_eq_true] at hm
      rw [radixDigit?_of_continuesName hm] at hp
      exact absurd hp (by simp)
    rcases List.mem_cons.1 hx with rfl | hx
    · decide
    · rcases List.mem_cons.1 hx with rfl | hx
      · exact hm
      · rw [← hall] at hx
        exact continuesName_of_radixDigit? hp (of_mem_take_run hx)
  · have hall : ds.take (run (fun c => c.isDigit || c == '_') ds) = ds := by
      apply List.take_of_length_le
      simp only [List.length_cons] at hlength
      omega
    rcases List.mem_cons.1 hx with rfl | hx
    · apply continuesName_of_decimal
      rw [hc, Bool.true_or]
    · rw [← hall] at hx
      exact continuesName_of_decimal (of_mem_take_run hx)

namespace Grammar

/-- The words of a type have no white space. -/
theorem Terminal.withoutBlanks_of_matches {t : Terminal} {w : List Char}
    (ht : (Symbol.token t).isType = true) (hw : t.Matches w) : withoutBlanks w = w := by
  apply List.filter_eq_self.2
  intro x hx
  rw [Bool.not_eq_true']
  cases hclass : t.class? with
  | some c =>
    apply WordClass.isBlank_of_continuesName
    have hterminal := class?_eq_some_iff.1 hclass
    cases c
    case name =>
      obtain rfl := Option.some.inj hterminal
      exact WordClass.continuesName_of_mem_name hw hx
    case integer =>
      obtain rfl := Option.some.inj hterminal
      exact WordClass.continuesName_of_mem_integer hw hx
    case blockComment | blanks | lineComment =>
      exact absurd hterminal (by simp [WordClass.terminal?])
    all_goals
      obtain rfl := Option.some.inj hterminal
      exact absurd ht (by decide)
  | none =>
    have hall : (all.all fun t =>
        t.chars?.all fun w => w.all fun x => !Text.isBlank x) = true := by
      decide
    have hspelling := List.all_eq_true.1 hall t t.mem_all
    rw [Matches, hclass] at hw
    rw [hw] at hspelling
    simpa using List.all_eq_true.1 hspelling x hx

mutual

/-- The words of a derivation without grouping parentheses. -/
def Derivation.ungroupedWords {s : Symbol} : Derivation s → List (Terminal × Lexeme)
  | .leaf t w => [(t, w)]
  | .node p ds =>
    if p = .primaryGroup then ds.ungroupedWords.tail.dropLast else ds.ungroupedWords

/-- The words of a list of derivations without grouping parentheses. -/
def Derivations.ungroupedWords {ss : List Symbol} : Derivations ss → List (Terminal × Lexeme)
  | .nil => []
  | .cons d ds => d.ungroupedWords ++ ds.ungroupedWords

end

/-- The words of a whole type without grouping parentheses and without the resource marker in front
of it. -/
def Derivation.bareWords (d : Derivation (.phrase .typeText)) : List (Terminal × Lexeme) :=
  match d.words with
  | (.atSign, _) :: _ => d.ungroupedWords.tail
  | _ => d.ungroupedWords

/-- A word as the text of a type shows it. -/
def shownWord (x : Terminal × Lexeme) : List Char := if x.1 = .bar then [','] else x.2.text

/-- The text of the value of a symbol without white space, and a comma for a bar. -/
def Symbol.shown (s : Symbol) (v : s.Value) : List Char :=
  if s = .token .bar then [','] else withoutBlanks (s.chars v)

/-- The texts of the values of a list of symbols without white space. -/
def Symbol.shownAll : (ss : List Symbol) → Symbol.Values ss → List Char
  | [], _ => []
  | s :: ss, (v, vs) => s.shown v ++ Symbol.shownAll ss vs

/-- Where no bar is among the symbols, what is shown is the text without blanks. -/
theorem Symbol.shownAll_eq_flatMap {ss : List Symbol} (hss : .token .bar ∉ ss)
    (vs : Symbol.Values ss) : shownAll ss vs = (charsAll ss vs).flatMap withoutBlanks := by
  induction ss with
  | nil => rfl
  | cons s ss ih =>
    obtain ⟨v, vs⟩ := vs
    have hs : s ≠ .token .bar := fun h => hss (by rw [h]; exact List.mem_cons_self)
    rw [shownAll, charsAll, List.flatMap_cons, shown, if_neg hs,
      ih fun h => hss (List.mem_cons_of_mem _ h)]

/-- Without white space nothing stands between the parts of a phrase. -/
theorem Production.withoutBlanks_spaced (p : Production) (n : Nat) (css : List (List Char)) :
    withoutBlanks (p.spaced n css) = css.flatMap withoutBlanks := by
  induction css generalizing n with
  | nil => rfl
  | cons cs css ih =>
    have hgap : withoutBlanks (p.gap n) = [] := by
      rcases p.gap_cases n with hgap | hgap
      · rw [hgap]
        rfl
      · rw [hgap]
        decide
    rw [spaced, withoutBlanks_append, withoutBlanks_append, hgap, ih, List.nil_append,
      List.flatMap_cons]

/-- A bar separates entitlements, and stands nowhere else in a type. -/
theorem Production.bar_notMem_rhs {p : Production} (hp : p.lhs.isType = true)
    (hgroup : p.isGroup = false) : .token .bar ∉ p.rhs := by
  have hall : (Production.all.all fun p =>
      !p.lhs.isType || p.isGroup || !p.rhs.contains (.token .bar)) = true := by
    decide
  have h := List.all_eq_true.1 hall p p.mem_all
  rw [hp, hgroup] at h
  simpa using h

/-- The text of what a production means has the texts of its parts one after the other, but for
white space, unless the production groups. -/
theorem Production.withoutBlanks_meaning (p : Production) (source : List Char) (s : Unit → Span)
    (vs : Symbol.Values p.rhs) (hp : p.lhs.isType = true) (hne : p ≠ .primaryGroup)
    (hvs : Symbol.AllFit p.rhs vs) :
    withoutBlanks (p.lhs.chars (p.meaning source s vs)) = Symbol.shownAll p.rhs vs := by
  by_cases hgroup : p.isGroup = true
  · have hcomma : ∀ cs, withoutBlanks (',' :: ' ' :: cs) = ',' :: withoutBlanks cs := fun _ => rfl
    cases p
    case authorizedBarFirst =>
      obtain ⟨_, t, _⟩ := vs
      show withoutBlanks (',' :: ' ' :: (t.chars ++ [])) = ',' :: (withoutBlanks t.chars ++ [])
      rw [hcomma, List.append_nil, List.append_nil]
    case authorizedBarNext =>
      obtain ⟨ts, _, t, _⟩ := vs
      show withoutBlanks ((List.concat ts t).flatMap fun t : NominalType => ',' :: ' ' :: t.chars) =
        withoutBlanks (ts.flatMap fun t : NominalType => ',' :: ' ' :: t.chars) ++
          ',' :: (withoutBlanks t.chars ++ [])
      rw [flatMap_concat_chars (fun t : NominalType => ',' :: ' ' :: t.chars) ts t,
        List.flatten_cons, List.flatten_singleton, withoutBlanks_append, hcomma, List.append_nil]
    case primaryGroup => exact absurd rfl hne
    all_goals exact absurd hgroup (by decide)
  · rw [Bool.not_eq_true] at hgroup
    rw [p.chars_meaning source s vs hp hgroup hvs, p.withoutBlanks_spaced,
      Symbol.shownAll_eq_flatMap (bar_notMem_rhs hp hgroup)]

/-- A type in parentheses consists of the parentheses and the type. -/
theorem Derivations.exists_group (ds : Derivations Production.primaryGroup.rhs) :
    ∃ (w : Lexeme) (d : Derivation (.phrase .type)) (w' : Lexeme),
      ds = .cons (.leaf .leftParen w) (.cons d (.cons (.leaf .rightParen w') .nil)) := by
  cases ds with | cons d ds => cases d with | leaf t w =>
  cases ds with | cons d ds => cases ds with | cons d' ds => cases d' with | leaf t w' =>
  cases ds
  exact ⟨w, d, w', rfl⟩

/-- A group shows what the type in its parentheses shows. -/
theorem Derivations.flatMap_shownWord_group {ds : Derivations Production.primaryGroup.rhs}
    {source : List Char} (hmatches : ∀ x ∈ ds.words, x.1.Matches x.2.text)
    (h : ds.ungroupedWords.flatMap shownWord = Symbol.shownAll _ (ds.values source)) :
    ds.ungroupedWords.tail.dropLast.flatMap shownWord =
      withoutBlanks (Nonterminal.chars .primaryType
        (Production.primaryGroup.meaning source (fun _ => ds.span) (ds.values source))) := by
  obtain ⟨w, d, w', rfl⟩ := ds.exists_group
  have hleft : ['('] = w.text :=
    Option.some.inj (hmatches (.leftParen, w) (by simp [Derivations.words, Derivation.words]))
  have hright : [')'] = w'.text :=
    Option.some.inj (hmatches (.rightParen, w') (by simp [Derivations.words, Derivation.words]))
  have hwords : ∀ w, shownWord (.leftParen, w) = w.text ∧ shownWord (.rightParen, w) = w.text :=
    fun _ => ⟨rfl, rfl⟩
  have hshown : '(' :: (d.ungroupedWords.flatMap shownWord ++ [')']) =
      '(' :: (withoutBlanks (TypeExpr.chars (d.value source)) ++ [')']) := by
    refine Eq.trans ?_ h
    simp [ungroupedWords, Derivation.ungroupedWords, hwords, ← hleft, ← hright]
  have hinner := List.append_cancel_right (List.cons.inj hshown).2
  refine Eq.trans ?_ hinner
  simp [ungroupedWords, Derivation.ungroupedWords]

mutual

/-- Only parentheses are left out of the words of a derivation. -/
theorem Derivation.mem_ungroupedWords {s : Symbol} (d : Derivation s) (x : Terminal × Lexeme) :
    (x ∈ d.ungroupedWords → x ∈ d.words) ∧
      (x ∈ d.words → x ∈ d.ungroupedWords ∨ x.1 = .leftParen ∨ x.1 = .rightParen) :=
  match d with
  | .leaf t w => ⟨id, .inl⟩
  | .node p ds => by
    obtain ⟨hsub, hcover⟩ := ds.mem_ungroupedWords x
    rw [Derivation.ungroupedWords, Derivation.words]
    by_cases hgroup : p = .primaryGroup
    · subst hgroup
      rw [if_pos rfl]
      refine ⟨fun hx => hsub (List.mem_of_mem_tail (List.dropLast_subset _ hx)), fun hx => ?_⟩
      rcases hcover hx with hx | hx
      · obtain ⟨w, d, w', rfl⟩ := ds.exists_group
        simp only [Derivations.ungroupedWords, Derivation.ungroupedWords, List.append_nil,
          List.mem_append, List.mem_singleton] at hx
        rcases hx with rfl | hx | rfl
        · exact .inr (.inl rfl)
        · refine .inl ?_
          simpa [Derivations.ungroupedWords, Derivation.ungroupedWords] using hx
        · exact .inr (.inr rfl)
      · exact .inr hx
    · rw [if_neg hgroup]
      exact ⟨hsub, hcover⟩

/-- The words of derivations outside of grouping are all but parentheses. -/
theorem Derivations.mem_ungroupedWords {ss : List Symbol} (ds : Derivations ss)
    (x : Terminal × Lexeme) : (x ∈ ds.ungroupedWords → x ∈ ds.words) ∧
      (x ∈ ds.words → x ∈ ds.ungroupedWords ∨ x.1 = .leftParen ∨ x.1 = .rightParen) :=
  match ds with
  | .nil => ⟨id, .inl⟩
  | .cons d ds => by
    obtain ⟨hd, hd'⟩ := d.mem_ungroupedWords x
    obtain ⟨hds, hds'⟩ := ds.mem_ungroupedWords x
    rw [Derivations.ungroupedWords, Derivations.words, List.mem_append, List.mem_append]
    refine ⟨Or.imp hd hds, ?_⟩
    rintro (hx | hx)
    · exact (hd' hx).imp_left .inl
    · exact (hds' hx).imp_left .inr

end

mutual

/-- The text of the value of a derivation of a type shows its words without grouping parentheses. -/
theorem Derivation.flatMap_shownWord {s : Symbol} (d : Derivation s) (source : List Char)
    (htype : s.isType = true) (hmatches : ∀ x ∈ d.words, x.1.Matches x.2.text) :
    d.ungroupedWords.flatMap shownWord = s.shown (d.value source) :=
  match d with
  | .leaf t w => by
    have hw : t.Matches w.text := hmatches (t, w) (List.mem_singleton.2 rfl)
    have hwords : (Derivation.leaf t w).ungroupedWords.flatMap shownWord = shownWord (t, w) :=
      List.append_nil (shownWord (t, w))
    rw [hwords, shownWord, Symbol.shown]
    by_cases hbar : t = .bar
    · rw [if_pos hbar, if_pos (congrArg Symbol.token hbar)]
    · rw [if_neg hbar, if_neg fun h => hbar (Symbol.token.inj h)]
      have hchars : (Symbol.token t).chars w = w.text := Symbol.chars_of_matches w hw
      exact ((congrArg withoutBlanks hchars).trans (t.withoutBlanks_of_matches htype hw)).symm
  | .node p ds => by
    have hds := ds.flatMap_shownWord source (fun s hs => p.isType_of_mem htype hs) hmatches
    rw [Symbol.shown, if_neg (by simp)]
    by_cases hgroup : p = .primaryGroup
    · subst hgroup
      exact ds.flatMap_shownWord_group hmatches hds
    · rw [Derivation.ungroupedWords, if_neg hgroup, hds]
      exact (p.withoutBlanks_meaning source (fun _ => ds.span) (ds.values source) htype hgroup
        (ds.allFit source hmatches)).symm

/-- The texts of the values of derivations of parts of a type show their words without grouping
parentheses. -/
theorem Derivations.flatMap_shownWord {ss : List Symbol} (ds : Derivations ss)
    (source : List Char) (htype : ∀ s ∈ ss, s.isType = true)
    (hmatches : ∀ x ∈ ds.words, x.1.Matches x.2.text) :
    ds.ungroupedWords.flatMap shownWord = Symbol.shownAll ss (ds.values source) :=
  match ds with
  | .nil => rfl
  | .cons d ds => by
    rw [Derivations.ungroupedWords, List.flatMap_append,
      d.flatMap_shownWord source (htype _ List.mem_cons_self)
        fun x hx => hmatches x (List.mem_append_left _ hx),
      ds.flatMap_shownWord source (fun s hs => htype s (List.mem_cons_of_mem _ hs))
        fun x hx => hmatches x (List.mem_append_right _ hx)]
    rfl

end

/-- The text of a whole type shows its words without grouping parentheses and resource marker. -/
theorem Derivation.flatMap_shownWord_bareWords (d : Derivation (.phrase .typeText))
    (source : List Char) (hmatches : ∀ x ∈ d.words, x.1.Matches x.2.text) :
    d.bareWords.flatMap shownWord = withoutBlanks (d.annotation source).type.chars := by
  obtain ⟨d, rfl⟩ := d.exists_annotatedType
  rcases d.annotatedType_cases with ⟨w, d, rfl⟩ | ⟨d, rfl⟩
  · have hwords := d.flatMap_shownWord source rfl fun x hx => hmatches x (by
      simpa [Derivation.words, Derivations.words] using Or.inr hx)
    refine Eq.trans ?_ hwords
    simp [bareWords, words, Derivations.words, ungroupedWords, Derivations.ungroupedWords]
  · have hwords := d.flatMap_shownWord source rfl fun x hx => hmatches x (by
      simpa [Derivation.words, Derivations.words] using hx)
    obtain ⟨t, w, ws, hws, ht⟩ := d.exists_first (by decide)
    have hmark : t ≠ .atSign := by
      rintro rfl
      exact absurd ht (by decide)
    refine Eq.trans ?_ hwords
    simp [bareWords, words, Derivations.words, ungroupedWords, Derivations.ungroupedWords, hws,
      hmark]

/-- The only word in front of the bare words of a type is a resource marker. -/
theorem Derivation.ungroupedWords_cases (d : Derivation (.phrase .typeText)) :
    d.ungroupedWords = d.bareWords ∨ ∃ w, d.ungroupedWords = (.atSign, w) :: d.bareWords := by
  unfold bareWords
  split
  · next w ws hwords =>
    obtain ⟨d, rfl⟩ := d.exists_annotatedType
    rcases d.annotatedType_cases with ⟨w, d, rfl⟩ | ⟨d, rfl⟩
    · exact .inr ⟨w, rfl⟩
    · obtain ⟨t, w', ws', hfirst, ht⟩ := d.exists_first (by decide)
      have hmark : t = .atSign := by
        simp [words, Derivations.words, hfirst] at hwords
        exact hwords.1.1
      rw [hmark] at ht
      exact absurd ht (by decide)
  · exact .inl rfl

/-- Only parentheses and a resource marker are left out of the words of a whole type. -/
theorem Derivation.mem_bareWords (d : Derivation (.phrase .typeText)) {x : Terminal × Lexeme} :
    (x ∈ d.bareWords → x ∈ d.words) ∧ (x ∈ d.words → x.1 = .bar → x ∈ d.bareWords) := by
  obtain ⟨hsub, hcover⟩ := d.mem_ungroupedWords x
  have hungrouped : x ∈ d.words → x.1 = .bar → x ∈ d.ungroupedWords := by
    intro hx hbar
    rcases hcover hx with h | h | h
    · exact h
    · exact absurd (hbar.symm.trans h) (by decide)
    · exact absurd (hbar.symm.trans h) (by decide)
  rcases d.ungroupedWords_cases with hwords | ⟨w, hwords⟩
  · rw [hwords] at hsub hungrouped
    exact ⟨hsub, hungrouped⟩
  · rw [hwords] at hsub hungrouped
    refine ⟨fun hx => hsub (List.mem_cons_of_mem _ hx), fun hx hbar => ?_⟩
    rcases List.mem_cons.1 (hungrouped hx hbar) with rfl | hmem
    · exact absurd hbar (by simp)
    · exact hmem

/-- Words show their own texts exactly if no bar is among them. -/
theorem flatMap_shownWord_eq_wordChars_iff {ws : List (Terminal × Lexeme)}
    (hws : ∀ x ∈ ws, x.1.Matches x.2.text) :
    ws.flatMap shownWord = wordChars ws ↔ ∀ x ∈ ws, x.1 ≠ .bar := by
  induction ws with
  | nil => simp [wordChars]
  | cons x ws ih =>
    have htail := ih fun y hy => hws y (List.mem_cons_of_mem _ hy)
    rw [wordChars, List.flatMap_cons, List.flatMap_cons, ← wordChars, List.forall_mem_cons, ← htail]
    by_cases hbar : x.1 = .bar
    · have hx := hws x List.mem_cons_self
      rw [hbar] at hx
      have htext : ['|'] = x.2.text := Option.some.inj hx
      simp [shownWord, hbar, ← htext]
    · simp [shownWord, hbar]

end Grammar

/-- The text of a type that has been read is, but for white space, that of the words of the source
without grouping parentheses and without the resource marker in front, where a bar is shown as a
comma. So it is the source without white space, comments, grouping parentheses and marker exactly
if no bar separates entitlements in it. -/
theorem TypeExpr.withoutBlanks_text {text : String} {t : TypeExpr}
    (h : TypeExpr.parse text = .ok t) :
    ∃ (d : Derivation (.phrase .typeText)) (ss : List Segment),
      Source.derive .typeText text.toList = .ok d ∧ (d.annotation text.toList).type = t ∧
      Segment.join ss = text.toList ∧ (∀ s ∈ ss, s.Valid) ∧ Segment.words .origin ss = d.words ∧
      withoutBlanks t.text.toList = d.bareWords.flatMap shownWord ∧
      (withoutBlanks t.text.toList = wordChars d.bareWords ↔ ∀ x ∈ d.words, x.1 ≠ .bar) := by
  obtain ⟨d, hderive, -, rfl⟩ := parse_eq_ok_iff.1 h
  obtain ⟨ss, hjoin, hvalid, hwords⟩ := Source.exists_segments_of_derive hderive
  have hmatches : ∀ x ∈ d.words, x.1.Matches x.2.text :=
    Source.matches_of_derive (g := .typeText) hderive
  have htext : withoutBlanks (d.annotation text.toList).type.text.toList =
      d.bareWords.flatMap shownWord := by
    rw [TypeExpr.toList_text, d.flatMap_shownWord_bareWords text.toList hmatches]
  refine ⟨d, ss, hderive, rfl, hjoin, hvalid, hwords, htext, ?_⟩
  rw [htext, flatMap_shownWord_eq_wordChars_iff fun x hx => hmatches x (d.mem_bareWords.1 hx)]
  constructor
  · intro hbar x hx hxbar
    exact hbar x (d.mem_bareWords.2 hx hxbar) hxbar
  · intro hbar x hx
    exact hbar x (d.mem_bareWords.1 hx)

/-- Comments, grouping parentheses and the marker of the whole type are not shown, the marker of a
parameter is, and a bar is shown as a comma. -/
theorem TypeExpr.withoutBlanks_text_grouped :
    ∃ (t : TypeExpr) (d : Derivation (.phrase .typeText)),
      TypeExpr.parse "@(auth(A | B) /* or */ & [ (fun(@C): D?) ])" = .ok t ∧
      withoutBlanks t.text.toList = "auth(A,B)&[fun(@C):D?]".toList ∧
      d.bareWords.flatMap shownWord = "auth(A,B)&[fun(@C):D?]".toList ∧
      (withoutBlanks t.text.toList = wordChars d.bareWords ↔ ∀ x ∈ d.words, x.1 ≠ .bar) := by
  have hparse : (TypeExpr.parse "@(auth(A | B) /* or */ & [ (fun(@C): D?) ])").map TypeExpr.text =
      .ok "auth(A, B) &[fun(@C): D?]" := by
    decide +kernel
  cases h : TypeExpr.parse "@(auth(A | B) /* or */ & [ (fun(@C): D?) ])" with
  | error e =>
    rw [h] at hparse
    exact absurd hparse (by simp [Except.map])
  | ok t =>
    rw [h] at hparse
    have htext : t.text = "auth(A, B) &[fun(@C): D?]" := Except.ok.inj hparse
    obtain ⟨d, -, -, -, -, -, -, hshown, hiff⟩ := withoutBlanks_text h
    have hblanks : withoutBlanks t.text.toList = "auth(A,B)&[fun(@C):D?]".toList := by
      rw [htext]
      decide
    exact ⟨t, d, rfl, hblanks, hshown.symm.trans hblanks, hiff⟩

/-- A bar between entitlements does not come back: the text of the type has a comma there. -/
theorem TypeExpr.text_bar_replaced :
    ∃ (t : TypeExpr) (d : Derivation (.phrase .typeText)),
      TypeExpr.parse "auth(A | B) &T" = .ok t ∧
      Source.derive .typeText "auth(A | B) &T".toList = .ok d ∧
      wordChars d.bareWords = "auth(A|B)&T".toList ∧
      withoutBlanks t.text.toList = "auth(A,B)&T".toList ∧
      withoutBlanks t.text.toList ≠ wordChars d.bareWords := by
  have hparse : (TypeExpr.parse "auth(A | B) &T").map TypeExpr.text = .ok "auth(A, B) &T" := by
    decide +kernel
  have hderive : (Source.derive .typeText "auth(A | B) &T".toList).map
      (fun d => wordChars (Derivation.bareWords d)) = .ok "auth(A|B)&T".toList := by
    decide +kernel
  cases h : TypeExpr.parse "auth(A | B) &T" with
  | error e =>
    rw [h] at hparse
    exact absurd hparse (by simp [Except.map])
  | ok t =>
    rw [h] at hparse
    have htext : withoutBlanks t.text.toList = "auth(A,B)&T".toList := by
      rw [Except.ok.inj hparse]
      decide
    obtain ⟨d, hd, -⟩ := parse_eq_ok_iff.1 h
    rw [hd] at hderive
    have hwords : wordChars d.bareWords = "auth(A|B)&T".toList := Except.ok.inj hderive
    refine ⟨t, d, rfl, hd, hwords, htext, ?_⟩
    rw [htext, hwords]
    decide

end CadenceEntry
