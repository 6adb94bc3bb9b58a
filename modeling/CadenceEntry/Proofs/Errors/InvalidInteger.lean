import CadenceEntry.Proofs.Body.Words
import CadenceEntry.Proofs.Errors.FirstWrongPlace
import CadenceEntry.Proofs.Nodes.Placement
import CadenceEntry.Proofs.Number.LiteralSpelling

/-!
# Invalid integer literals

An integer literal of a text is the size of an array type, and of those without a value the first
one is reported, once all of the text has been derived. A text that cannot be derived is refused at
a place, whatever literals it has, and no literal stands in a body: `checksIntegers_evaluate`
collects this, and `parse_checksIntegers` says it of programs and types.
-/

set_option autoImplicit false

namespace CadenceEntry

open Grammar

/-- The first word with a property stands before all others that have it. -/
theorem WordsStand.find?_eq_some_iff {source : List Char} {ws : List (Terminal × Lexeme)}
    (h : WordsStand source ws) {p : Terminal × Lexeme → Bool} {x : Terminal × Lexeme} :
    ws.find? p = some x ↔
      x ∈ ws ∧ p x = true ∧ ∀ y ∈ ws, p y = true → x.2.start.offset ≤ y.2.start.offset := by
  have hlt : ∀ y ∈ ws, ∀ z, y.2.stop.offset < z → y.2.start.offset < z := by
    intro y hy z hz
    have hlength := (h.stands y hy).length_text
    have hpos := List.length_pos_iff.2 (h.stands y hy).1
    omega
  rw [List.find?_eq_some_iff_append]
  constructor
  · rintro ⟨hx, us, vs, rfl, hus : ∀ y ∈ us, (!p y) = true⟩
    obtain ⟨-, htail, -⟩ := List.pairwise_append.1 h.order
    refine ⟨by simp, hx, fun y hy hpy => ?_⟩
    rcases List.mem_append.1 hy with hy | hy
    · exact absurd hpy (by simpa using hus y hy)
    · rcases List.mem_cons.1 hy with rfl | hy
      · exact Nat.le_refl _
      · exact Nat.le_of_lt (hlt x (by simp) _ (List.rel_of_pairwise_cons htail hy))
  · rintro ⟨hmem, hx, hfirst⟩
    obtain ⟨us, vs, rfl⟩ := List.append_of_mem hmem
    obtain ⟨-, -, hbefore⟩ := List.pairwise_append.1 h.order
    refine ⟨hx, us, vs, rfl, fun y hy => ?_⟩
    have hy' : y ∈ us ++ x :: vs := List.mem_append_left _ hy
    have hstart := hlt y hy' _ (hbefore y hy x List.mem_cons_self)
    by_contra hpy
    have hle := hfirst y hy' (by simpa using hpy)
    omega

namespace Grammar

/-! ## The sizes of arrays -/

/-- The words that are parts of a list of derivations. -/
def Derivations.leaves : {ss : List Symbol} → Derivations ss → List (Terminal × Lexeme)
  | _, .nil => []
  | _, .cons (.leaf t w) ds => (t, w) :: ds.leaves
  | _, .cons (.node _ _) ds => ds.leaves

/-- The derivation is that of an array type with the size `w`, the integer among its parts. -/
def Derivation.IsSizedArray {s : Symbol} (w : Lexeme) : Derivation s → Prop
  | .leaf _ _ => False
  | .node p ds => (p = .primarySizedArray ∨ p = .resultSizedArray) ∧ (.integer, w) ∈ ds.leaves

/-- The literal `w` is the size of an array type in what is derived. -/
def Derivation.HasSize {s : Symbol} (d : Derivation s) (w : Lexeme) : Prop :=
  ∃ e ∈ d.inner, e.2.IsSizedArray w

/-- The words that are parts are words of terminals among the symbols. -/
theorem Derivations.symbol_mem_of_mem_leaves {ss : List Symbol} {ds : Derivations ss}
    {x : Terminal × Lexeme} (hx : x ∈ ds.leaves) : .token x.1 ∈ ss := by
  fun_induction Derivations.leaves ds with
  | case1 => exact absurd hx List.not_mem_nil
  | case2 _ t w ds ih =>
    rcases List.mem_cons.1 hx with rfl | hx
    · exact List.mem_cons_self
    · exact List.mem_cons_of_mem _ (ih hx)
  | case3 _ p parts ds ih => exact List.mem_cons_of_mem _ (ih hx)

/-- The words that are parts are among the words. -/
theorem Derivations.mem_words_of_mem_leaves {ss : List Symbol} {ds : Derivations ss}
    {x : Terminal × Lexeme} (hx : x ∈ ds.leaves) : x ∈ ds.words := by
  fun_induction Derivations.leaves ds with
  | case1 => exact hx
  | case2 _ t w ds ih =>
    rcases List.mem_cons.1 hx with rfl | hx
    · exact List.mem_cons_self
    · exact List.mem_cons_of_mem _ (ih hx)
  | case3 _ p parts ds ih => exact List.mem_append_right _ (ih hx)

/-- Only array types with a size have an integer among their parts. -/
theorem Production.eq_of_integer_mem {p : Production} (h : .token .integer ∈ p.rhs) :
    p = .primarySizedArray ∨ p = .resultSizedArray := by
  cases p <;> first | exact .inl rfl | exact .inr rfl | exact absurd h (by decide)

/-- The size of an array type is an integer. -/
theorem Derivation.HasSize.mem_words {s : Symbol} {d : Derivation s} {w : Lexeme}
    (h : d.HasSize w) : (.integer, w) ∈ d.words := by
  obtain ⟨⟨_, e⟩, he, hsize⟩ := h
  refine (d.words_infix he).subset ?_
  cases e with
  | leaf => exact hsize.elim
  | node p ds => exact Derivations.mem_words_of_mem_leaves hsize.2

mutual

/-- Every integer in what is derived is the size of an array type, or it is all there is. -/
theorem Derivation.isLeaf_or_hasSize {s : Symbol} (d : Derivation s) {w : Lexeme}
    (hw : (.integer, w) ∈ d.words) : s = .token .integer ∨ d.HasSize w :=
  match d with
  | .leaf t v => by
    obtain ⟨rfl, -⟩ := Prod.mk.inj (List.mem_singleton.1 hw)
    exact .inl rfl
  | .node p ds => by
    right
    rcases ds.mem_leaves_or_hasSize hw with hleaf | ⟨e, he, hsize⟩
    · have hp := Production.eq_of_integer_mem (Derivations.symbol_mem_of_mem_leaves hleaf)
      exact ⟨_, List.mem_cons_self, hp, hleaf⟩
    · exact ⟨e, List.mem_cons_of_mem _ he, hsize⟩

/-- Every integer in what is derived is a part of it or the size of an array type inside. -/
theorem Derivations.mem_leaves_or_hasSize {ss : List Symbol} (ds : Derivations ss) {w : Lexeme}
    (hw : (.integer, w) ∈ ds.words) :
    (.integer, w) ∈ ds.leaves ∨ ∃ e ∈ ds.inner, e.2.IsSizedArray w :=
  match ds with
  | .nil => absurd hw List.not_mem_nil
  | .cons (.leaf t v) ds => by
    rcases List.mem_cons.1 hw with hw | hw
    · exact .inl (hw ▸ List.mem_cons_self)
    · rcases ds.mem_leaves_or_hasSize hw with hleaf | ⟨e, he, hsize⟩
      · exact .inl (List.mem_cons_of_mem _ hleaf)
      · exact .inr ⟨e, List.mem_append_right _ he, hsize⟩
  | .cons (.node p parts) ds => by
    rcases List.mem_append.1 hw with hw | hw
    · rcases (Derivation.node p parts).isLeaf_or_hasSize hw with h | ⟨e, he, hsize⟩
      · cases h
      · exact .inr ⟨e, List.mem_append_left _ he, hsize⟩
    · rcases ds.mem_leaves_or_hasSize hw with hleaf | ⟨e, he, hsize⟩
      · exact .inl hleaf
      · exact .inr ⟨e, List.mem_append_right _ he, hsize⟩

end

/-- The integers in a phrase are the sizes of its array types. -/
theorem Derivation.hasSize_iff {n : Nonterminal} {d : Derivation (.phrase n)} {w : Lexeme} :
    d.HasSize w ↔ (.integer, w) ∈ d.words := by
  constructor
  · exact HasSize.mem_words
  · intro hw
    rcases d.isLeaf_or_hasSize hw with h | h
    · cases h
    · exact h

/-! ## The first literal without a value -/

/-- Whether a word is an integer literal without a value. -/
def isInvalidInteger (x : Terminal × Lexeme) : Bool :=
  x.1 == .integer && (Number.IntegerLiteral.value? x.2.text).isNone

mutual

/-- The literal that is reported is the first among the words. -/
theorem Derivation.invalidInteger?_eq {s : Symbol} (d : Derivation s) :
    d.invalidInteger? = (d.words.find? isInvalidInteger).map Prod.snd :=
  match d with
  | .leaf t w => by
    rw [Derivation.invalidInteger?, Derivation.words, List.find?_singleton]
    show (if isInvalidInteger (t, w) then _ else _) = _
    split <;> rfl
  | .node p ds => ds.invalidInteger?_eq

/-- The invalid integer literal of derivations is the first among their words. -/
theorem Derivations.invalidInteger?_eq {ss : List Symbol} (ds : Derivations ss) :
    ds.invalidInteger? = (ds.words.find? isInvalidInteger).map Prod.snd :=
  match ds with
  | .nil => rfl
  | .cons d ds => by
    rw [Derivations.invalidInteger?, Derivations.words, d.invalidInteger?_eq,
      ds.invalidInteger?_eq, List.find?_append]
    cases d.words.find? isInvalidInteger <;> rfl

end

/-- The size `w` of an array type has no value, and it stands before all others that have none. -/
structure Derivation.FirstInvalidSize {s : Symbol} (d : Derivation s) (w : Lexeme) : Prop where
  hasSize : d.HasSize w
  valueless : Number.IntegerLiteral.IsValueless w.text
  first : ∀ w', d.HasSize w' → Number.IntegerLiteral.IsValueless w'.text →
    w.start.offset ≤ w'.start.offset

section Standing

variable {source : List Char} {n : Nonterminal} {d : Derivation (.phrase n)}

/-- The words that are reported are the sizes of array types that have no value. -/
theorem Derivation.mem_words_and_isInvalidInteger_iff (hd : WordsStand source d.words)
    {x : Terminal × Lexeme} : x ∈ d.words ∧ isInvalidInteger x = true ↔
      x.1 = .integer ∧ d.HasSize x.2 ∧ Number.IntegerLiteral.IsValueless x.2.text := by
  obtain ⟨t, w⟩ := x
  rw [isInvalidInteger, Bool.and_eq_true, beq_iff_eq, Option.isNone_iff_eq_none, and_left_comm]
  refine and_congr_right fun ht => ?_
  subst ht
  rw [hasSize_iff]
  exact and_congr_right fun hw => Number.IntegerLiteral.value?_eq_none_iff (hd.fits _ hw)

/-- The first size without a value is reported. -/
theorem Derivation.invalidInteger?_eq_some_iff (hd : WordsStand source d.words) {w : Lexeme} :
    d.invalidInteger? = some w ↔ d.FirstInvalidSize w := by
  have hinvalid := fun x => d.mem_words_and_isInvalidInteger_iff hd (x := x)
  rw [d.invalidInteger?_eq, Option.map_eq_some_iff]
  constructor
  · rintro ⟨x, hx, rfl⟩
    obtain ⟨hmem, hbad, hfirst⟩ := hd.find?_eq_some_iff.1 hx
    obtain ⟨-, hsize, hvalueless⟩ := (hinvalid x).1 ⟨hmem, hbad⟩
    refine ⟨hsize, hvalueless, fun w' hsize' hvalueless' => ?_⟩
    obtain ⟨hmem', hbad'⟩ := (hinvalid (.integer, w')).2 ⟨rfl, hsize', hvalueless'⟩
    exact hfirst _ hmem' hbad'
  · rintro ⟨hsize, hvalueless, hfirst⟩
    obtain ⟨hmem, hbad⟩ := (hinvalid (.integer, w)).2 ⟨rfl, hsize, hvalueless⟩
    refine ⟨(.integer, w), hd.find?_eq_some_iff.2 ⟨hmem, hbad, fun y hy hbad' => ?_⟩, rfl⟩
    obtain ⟨-, hsize', hvalueless'⟩ := (hinvalid y).1 ⟨hy, hbad'⟩
    exact hfirst _ hsize' hvalueless'

/-- Nothing is reported if all sizes have a value. -/
theorem Derivation.invalidInteger?_eq_none_iff_hasSize (hd : WordsStand source d.words) :
    d.invalidInteger? = none ↔
      ∀ w, d.HasSize w → ¬ Number.IntegerLiteral.IsValueless w.text := by
  have hinvalid := fun x => d.mem_words_and_isInvalidInteger_iff hd (x := x)
  rw [d.invalidInteger?_eq, Option.map_eq_none_iff, List.find?_eq_none]
  constructor
  · intro hnone w hsize hvalueless
    obtain ⟨hmem, hbad⟩ := (hinvalid (.integer, w)).2 ⟨rfl, hsize, hvalueless⟩
    exact hnone _ hmem hbad
  · intro hall x hmem hbad
    obtain ⟨-, hsize, hvalueless⟩ := (hinvalid x).1 ⟨hmem, hbad⟩
    exact hall _ hsize hvalueless

end Standing

/-! ## Bodies -/

/-- Bodies and what they are put together from. -/
def Symbol.inBody : Symbol → Bool
  | .token t => Terminal.bodyWords.contains t
  | .phrase n => [Nonterminal.block, .nestedBlock, .blockItems, .blockItem].contains n

/-- What a body is put together from is made of bodies and their words. -/
theorem Production.inBody_of_mem {p : Production} (hp : (Symbol.phrase p.lhs).inBody = true)
    {s : Symbol} (hs : s ∈ p.rhs) : s.inBody = true := by
  have hall : (p.rhs.all Symbol.inBody) = true := by
    cases p <;> first | exact absurd hp (by decide) | decide
  exact List.all_eq_true.1 hall s hs

mutual

/-- A body has the words of a body only. -/
theorem Derivation.mem_bodyWords {s : Symbol} (d : Derivation s) (hs : s.inBody = true)
    {x : Terminal × Lexeme} (hx : x ∈ d.words) : x.1 ∈ Terminal.bodyWords :=
  match d with
  | .leaf t w => by
    rw [List.mem_singleton.1 hx]
    exact List.contains_iff_mem.1 hs
  | .node p ds => ds.mem_bodyWords (fun _ h => Production.inBody_of_mem hs h) hx

/-- The words of the parts of a body are words of bodies. -/
theorem Derivations.mem_bodyWords {ss : List Symbol} (ds : Derivations ss)
    (hss : ∀ s ∈ ss, s.inBody = true) {x : Terminal × Lexeme} (hx : x ∈ ds.words) :
    x.1 ∈ Terminal.bodyWords :=
  match ds with
  | .nil => absurd hx List.not_mem_nil
  | .cons d ds => by
    rcases List.mem_append.1 hx with hx | hx
    · exact d.mem_bodyWords (hss _ List.mem_cons_self) hx
    · exact ds.mem_bodyWords (fun s hs => hss s (List.mem_cons_of_mem _ hs)) hx

end

/-- The size of an array type stands before or behind each body. -/
theorem Derivation.HasSize.outside {source : List Char} {s : Symbol} {d : Derivation s}
    (hd : WordsStand source d.words) {w : Lexeme} (hw : d.HasSize w) {b : Span}
    (hb : b ∈ d.bodies) : w.stop.offset < b.start.offset ∨ b.stop.offset < w.start.offset := by
  obtain ⟨⟨s', e⟩, he, rfl, rfl⟩ := d.exists_of_mem_bodies hb
  obtain ⟨us, vs, hwords⟩ := d.words_infix he
  have hne : e.words ≠ [] := by
    obtain ⟨t, w, ws, hws, -⟩ := e.exists_first (by simp)
    simp [hws]
  have hspan : e.span = ⟨(e.words.head hne).2.start, (e.words.getLast hne).2.stop⟩ :=
    e.span_eq (List.head?_eq_some_head hne) (List.getLast?_eq_some_getLast hne)
  have hmem := hw.mem_words
  rw [← hwords, List.append_assoc] at hd hmem
  obtain ⟨-, hrest, hbefore⟩ := List.pairwise_append.1 hd.order
  obtain ⟨-, -, hbehind⟩ := List.pairwise_append.1 hrest
  rw [hspan]
  rcases List.mem_append.1 hmem with hmem | hmem
  · exact .inl (hbefore _ hmem _ (List.mem_append_left _ (List.head_mem hne)))
  · rcases List.mem_append.1 hmem with hmem | hmem
    · have hinteger : Terminal.integer ∈ Terminal.bodyWords := e.mem_bodyWords (by decide) hmem
      exact absurd hinteger (by decide)
    · exact .inr (hbehind _ (List.getLast_mem hne) _ hmem)

end Grammar

/-! ## Programs and types -/

namespace Source

/-- A text that cannot be derived is refused at a place. -/
theorem place?_of_derive {g : Goal} {source : List Char} {e : SyntaxError}
    (h : derive g source = .error e) : e.place? ≠ none := by
  have hstuck : ∀ (q : State) (c : Cursor), (stuckError q c).place? ≠ none := by
    intro q c
    unfold stuckError
    split <;> simp [SyntaxError.place?]
  unfold derive at h
  generalize Stack.empty g = k at h
  generalize Position.origin = last at h
  generalize Cursor.ofText source = c at h
  fun_induction deriveFrom k last c with
  | case1 _ _ _ _ _ _ _ _ _ _ ih => exact ih h
  | case2 =>
    obtain rfl := Except.error.inj h
    simp [SyntaxError.place?]
  | case3 => cases h
  | case4 =>
    obtain rfl := Except.error.inj h
    simp [SyntaxError.place?]
  | case5 =>
    obtain rfl := Except.error.inj h
    exact hstuck _ _

end Source

open Source

/-- The literal `l` is reported to be invalid, without a place. -/
def ReportsInteger {α : Type} (r : Except SyntaxError α) (l : String) : Prop :=
  ∃ e, r = .error e ∧ e.place? = none ∧ e.message = "invalid integer literal: " ++ l

/-- What the integer literals of the text `source` have to do with the result `r` of reading it
towards the goal `g`. -/
structure ChecksIntegers (g : Goal) (source : List Char) {α : Type} (r : Except SyntaxError α) :
    Prop where
  /-- A literal is reported if the text is derived and has an array type whose size is invalid. -/
  reported : (∃ l, ReportsInteger r l) ↔ ∃ d, derive g source = .ok d ∧
    ∃ w, d.HasSize w ∧ Number.IntegerLiteral.IsValueless w.text
  /-- It is the first of these sizes that is reported, as it stands in the text. -/
  first : ∀ l, ReportsInteger r l ↔ ∃ d, derive g source = .ok d ∧
    ∃ w, d.FirstInvalidSize w ∧ w.StandsIn source ∧ w.spelling = l
  /-- A text that is derived and has no such size is accepted. -/
  accepted : (∃ a, r = .ok a) ↔ ∃ d, derive g source = .ok d ∧
    ∀ w, d.HasSize w → ¬ Number.IntegerLiteral.IsValueless w.text
  /-- A text that cannot be derived is refused for that, at a place. -/
  refused : ∀ e, derive g source = .error e → r = .error e ∧ e.place? ≠ none
  /-- No size stands in a body. -/
  outside : ∀ d, derive g source = .ok d → ∀ b ∈ d.bodies, ∀ w, d.HasSize w →
    w.stop.offset < b.start.offset ∨ b.stop.offset < w.start.offset

/-- A literal is reported with its spelling. -/
theorem reportsInteger_error_iff {α : Type} {e : SyntaxError} {l : String} :
    ReportsInteger (.error e : Except SyntaxError α) l ↔ e = .invalidInteger l := by
  constructor
  · rintro ⟨e', ⟨⟩, hplace, hmessage⟩
    cases e with
    | invalidInteger l' =>
      have hmessage : "invalid integer literal: " ++ l' = "invalid integer literal: " ++ l :=
        hmessage
      rw [← String.toList_inj, String.toList_append, String.toList_append] at hmessage
      rw [String.toList_inj.1 (List.append_cancel_left hmessage)]
    | unexpectedWord => cases hplace
    | unexpectedCharacter => cases hplace
    | unexpectedEnd => cases hplace
  · rintro rfl
    exact ⟨_, rfl, rfl, rfl⟩

namespace Grammar

section Evaluate

variable {source : List Char} {n : Nonterminal} {d : Derivation (.phrase n)}
  (hd : WordsStand source d.words) {α : Type} (f : (Symbol.phrase n).Value → α)
include hd

/-- Some size comes first among those without a value, if there is any. -/
theorem Derivation.exists_firstInvalidSize_iff : (∃ w, d.FirstInvalidSize w) ↔
    ∃ w, d.HasSize w ∧ Number.IntegerLiteral.IsValueless w.text := by
  constructor
  · exact fun ⟨w, hw⟩ => ⟨w, hw.hasSize, hw.valueless⟩
  · rintro ⟨w, hsize, hvalueless⟩
    cases hinvalid : d.invalidInteger? with
    | none =>
      have hvalues := (d.invalidInteger?_eq_none_iff_hasSize hd).1 hinvalid
      exact absurd hvalueless (hvalues w hsize)
    | some w' => exact ⟨w', (d.invalidInteger?_eq_some_iff hd).1 hinvalid⟩

/-- The first size without a value is reported. -/
theorem Derivation.reportsInteger_evaluate_iff {l : String} :
    ReportsInteger ((d.evaluate source).map f) l ↔ ∃ w, d.FirstInvalidSize w ∧ w.spelling = l := by
  simp only [← d.invalidInteger?_eq_some_iff hd, Derivation.evaluate]
  cases d.invalidInteger? with
  | none =>
    constructor
    · rintro ⟨e, he, -⟩
      cases he
    · rintro ⟨w, hw, -⟩
      cases hw
  | some w =>
    refine reportsInteger_error_iff.trans ⟨fun h => ⟨w, rfl, SyntaxError.invalidInteger.inj h⟩, ?_⟩
    rintro ⟨w', ⟨⟩, rfl⟩
    rfl

/-- Without such a size there is a value. -/
theorem Derivation.exists_evaluate_eq_ok_iff :
    (∃ a, (d.evaluate source).map f = .ok a) ↔
      ∀ w, d.HasSize w → ¬ Number.IntegerLiteral.IsValueless w.text := by
  rw [← d.invalidInteger?_eq_none_iff_hasSize hd, Derivation.evaluate]
  cases d.invalidInteger? with
  | none => exact ⟨fun _ => rfl, fun _ => ⟨_, rfl⟩⟩
  | some w =>
    constructor
    · rintro ⟨a, ha⟩
      cases ha
    · nofun

end Evaluate

end Grammar

/-- The integer literals of what is derived and evaluated are checked. -/
theorem checksIntegers_evaluate (g : Goal) (source : List Char) {α : Type}
    (f : (Symbol.phrase g.phrase).Value → α) :
    ChecksIntegers g source (((derive g source).bind (·.evaluate source)).map f) := by
  cases hderive : derive g source with
  | error e =>
    have hplace := place?_of_derive hderive
    have hreports : ∀ l, ¬ ReportsInteger (.error e : Except SyntaxError α) l := by
      rintro l ⟨e', ⟨⟩, hnone, -⟩
      exact hplace hnone
    have hnone : ∀ P : Derivation (.phrase g.phrase) → Prop,
        ¬ ∃ d, derive g source = .ok d ∧ P d := by
      rintro P ⟨d, hd, -⟩
      cases hderive.symm.trans hd
    constructor
    case reported => exact iff_of_false (fun ⟨l, hl⟩ => hreports l hl) (hnone _)
    case first => exact fun l => iff_of_false (hreports l) (hnone _)
    case accepted => exact iff_of_false (fun ⟨a, ha⟩ => nomatch ha) (hnone _)
    case refused =>
      intro e' he'
      obtain rfl := Except.error.inj (hderive.symm.trans he')
      exact ⟨rfl, hplace⟩
    case outside => exact fun d hd => absurd ⟨d, hd, trivial⟩ (hnone fun _ => True)
  | ok d =>
    obtain ⟨ss, hjoin, hvalid, hwords⟩ := exists_segments_of_derive hderive
    have hd : WordsStand source d.words := Derivation.Covers.stand ⟨ss, hjoin, hvalid, hwords⟩
    have hunique : ∀ {P : Derivation (.phrase g.phrase) → Prop},
        (∃ d', derive g source = .ok d' ∧ P d') ↔ P d := by
      intro P
      rw [hderive]
      exact ⟨fun ⟨_, heq, h⟩ => Except.ok.inj heq ▸ h, fun h => ⟨d, rfl, h⟩⟩
    have hreports : ∀ l, ReportsInteger ((d.evaluate source).map f) l ↔ _ :=
      fun l => d.reportsInteger_evaluate_iff hd f
    constructor
    case reported =>
      rw [hunique, ← d.exists_firstInvalidSize_iff hd]
      constructor
      · rintro ⟨l, hl⟩
        obtain ⟨w, hw, -⟩ := (hreports l).1 hl
        exact ⟨w, hw⟩
      · exact fun ⟨w, hw⟩ => ⟨w.spelling, (hreports _).2 ⟨w, hw, rfl⟩⟩
    case first =>
      intro l
      rw [hunique]
      refine (hreports l).trans (exists_congr fun w => and_congr_right fun hw => ?_)
      exact (and_iff_right (hd.stands _ hw.hasSize.mem_words)).symm
    case accepted =>
      rw [hunique]
      exact d.exists_evaluate_eq_ok_iff hd f
    case refused =>
      intro e he
      cases hderive.symm.trans he
    case outside =>
      intro d' hd' b hb w hw
      obtain rfl := Except.ok.inj (hderive.symm.trans hd')
      exact hw.outside hd hb

/-- The integer literals of programs and types are checked. -/
theorem parse_checksIntegers (text : String) :
    ChecksIntegers .program text.toList (Program.parse text) ∧
      ChecksIntegers .typeText text.toList (TypeExpr.parse text) := by
  constructor
  · have hid : (Program.parse text).map id = Program.parse text := by
      cases Program.parse text <;> rfl
    rw [← hid]
    exact checksIntegers_evaluate .program text.toList id
  · exact checksIntegers_evaluate .typeText text.toList AnnotatedType.type

/-- Of two sizes without a value in a type the one inside comes first. -/
theorem parse_checksIntegers_nested : ∃ d w, derive .typeText "[[A; 0x_]; 0b_]".toList = .ok d ∧
    d.FirstInvalidSize w ∧ w.spelling = "0x_" := by
  have herror : (match TypeExpr.parse "[[A; 0x_]; 0b_]" with
      | .error (.invalidInteger l) => l == "0x_"
      | _ => false) = true := by
    decide +kernel
  have hreports : ReportsInteger (TypeExpr.parse "[[A; 0x_]; 0b_]") "0x_" := by
    split at herror
    · next l hparse => rw [hparse, reportsInteger_error_iff, beq_iff_eq.1 herror]
    · cases herror
  obtain ⟨d, hd, w, hw, -, hspelling⟩ := ((parse_checksIntegers _).2.first "0x_").1 hreports
  exact ⟨d, w, hd, hw, hspelling⟩

end CadenceEntry
