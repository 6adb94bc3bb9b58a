import CadenceEntry.Proofs.Syntax.Kept
import CadenceEntry.Proofs.TypeText.Ungrouping

/-!
# The text of a type is its words

The text of a type has a space at some places only, so its words must not run into each other at the
others. They do not: of two parts of a type that stand next to each other, the first is a mark or
the second begins with one. So the text of the value of a derivation without parentheses has the
words of this derivation: `Derivation.written`.
-/

set_option autoImplicit false

namespace CadenceEntry

open Grammar

/-- A text that does not go on with a letter, a digit or an underscore. -/
def IsApart (cs : List Char) : Prop := ∀ x ∈ cs.head?, WordClass.continuesName x = false

namespace Grammar

/-- Whether a terminal is a mark, that is, a fixed spelling without letters. -/
def Terminal.isMark (t : Terminal) : Bool := t.class?.isNone && !WordClass.name.covers t

/-- Nothing runs into a mark. -/
theorem Terminal.stops_of_isMark {t : Terminal} (ht : t.isMark = true) (cs : List Char) :
    t.Stops cs := by
  intro x _
  simp only [isMark, Bool.and_eq_true, Option.isNone_iff_eq_none, Bool.not_eq_true'] at ht
  simp [continues, ht.1, ht.2]

/-- A word of a type is not made longer by what stands apart. -/
theorem Terminal.stops_of_isApart {t : Terminal} (ht : t ≠ .statement) {cs : List Char}
    (hcs : IsApart cs) : t.Stops cs := by
  intro x hx
  have hname : WordClass.continuesName x = false := hcs x hx
  cases t <;> first
    | exact absurd rfl ht
    | simp [continues, class?, WordClass.continues, hname]

/-- A mark does not begin with a letter, a digit or an underscore. -/
theorem Terminal.isApart_of_isMark {t : Terminal} (ht : t.isMark = true) {w : List Char}
    (hw : t.Matches w) (cs : List Char) : IsApart (w ++ cs) := by
  have hall : (all.all fun t => !t.isMark ||
      (t.chars?.bind List.head?).any fun x => !WordClass.continuesName x) = true := by
    decide
  have hmark := List.all_eq_true.1 hall t t.mem_all
  have hclass : t.class? = none := by
    simp only [isMark, Bool.and_eq_true, Option.isNone_iff_eq_none] at ht
    exact ht.1
  have hchars : t.chars? = some w := by
    rw [Matches, hclass] at hw
    exact hw
  rw [ht, hchars] at hmark
  cases w with
  | nil => exact absurd hmark (by simp)
  | cons x w =>
    intro y hy
    obtain rfl := Option.some.inj hy
    simpa using hmark

/-- What begins with a mark stands apart from what is before it. -/
theorem isApart_of_written {t : Terminal} {w : Lexeme} {ws : List (Terminal × Lexeme)}
    {cs rest : List Char} (h : Written ((t, w) :: ws) cs rest) (ht : t.isMark = true) :
    IsApart cs := by
  obtain ⟨g, rest', rfl, hg, hmatches, -, -⟩ := h
  cases g with
  | nil => exact Terminal.isApart_of_isMark ht hmatches rest'
  | cons x g =>
    intro y hy
    obtain rfl := Option.some.inj hy
    exact Terminal.continues_of_separates (t := .name) (hg x List.mem_cons_self)

/-- Between two parts of a phrase nothing is written, or a space. -/
theorem Production.gap_cases (p : Production) (n : Nat) : p.gap n = [] ∨ p.gap n = [' '] := by
  cases n with
  | zero => exact .inl rfl
  | succ n =>
    simp only [gap]
    split <;> simp

/-- What stands between the parts of a type is white space. -/
theorem Production.isBlank_gap (p : Production) (n : Nat) : IsBlank (p.gap n) := by
  rcases p.gap_cases n with hgap | hgap
  · rw [hgap]
    decide
  · rw [hgap]
    decide

/-- A symbol that stands for a mark. -/
def Symbol.isMark : Symbol → Bool
  | .token t => t.isMark
  | .phrase _ => false

/-- Of two parts of a type that stand next to each other, the first is a mark or the second begins
with one. -/
theorem Production.isMark_or_begins {p : Production} {n : Nat} {s s' : Symbol}
    (hp : p.lhs.isType = true) (hs : p.rhs[n]? = some s) (hs' : p.rhs[n + 1]? = some s') :
    (∃ t, s = .token t ∧ t.isMark = true) ∨
      ∀ t, s'.firsts.has (.word t) = true → t.isMark = true := by
  have hall : (Production.all.all fun p => !p.lhs.isType ||
      (p.rhs.zip p.rhs.tail).all fun x =>
        x.1.isMark || Terminal.all.all fun t => !x.2.firsts.has (.word t) || t.isMark) = true := by
    decide
  have hzip := List.all_eq_true.1 hall p p.mem_all
  rw [hp, Bool.not_true, Bool.false_or] at hzip
  have hmem : (s, s') ∈ p.rhs.zip p.rhs.tail := by
    refine List.mem_of_getElem? (i := n) ?_
    rw [List.getElem?_zip_eq_some]
    exact ⟨hs, by rw [List.getElem?_tail]; exact hs'⟩
  have hpair := List.all_eq_true.1 hzip (s, s') hmem
  rw [Bool.or_eq_true] at hpair
  rcases hpair with hmark | hbegins
  · cases s with
    | token t => exact .inl ⟨t, rfl, hmark⟩
    | phrase k => exact absurd hmark (by simp [Symbol.isMark])
  · refine .inr fun t ht => ?_
    have hmark := List.all_eq_true.1 hbegins t t.mem_all
    rw [ht] at hmark
    simpa using hmark

/-- Behind a part of a type that is no mark, the rest of the type stands apart. -/
theorem Derivations.isApart {ss : List Symbol} (ds : Derivations ss) {p : Production} {n : Nat}
    {s : Symbol} (hp : p.lhs.isType = true) (hs : p.rhs[n]? = some s)
    (hss : p.rhs.drop (n + 1) = ss)
    (hmark : ∀ t, s = .token t → t.isMark = false) {cs rest : List Char}
    (h : Written ds.words cs rest) (hrest : IsApart rest) : IsApart cs := by
  cases ss with
  | nil =>
    cases ds
    obtain rfl : rest = cs := h
    exact hrest
  | cons s' ss' =>
    have hs' : p.rhs[n + 1]? = some s' := by
      rw [← List.head?_drop, hss]
      rfl
    have hprogram : s' ≠ .phrase .program := by
      rintro rfl
      exact p.program_notMem_rhs (List.mem_of_getElem? hs')
    obtain ⟨t, w, ws, hws, ht⟩ := ds.exists_first rfl hprogram
    rw [hws] at h
    rcases p.isMark_or_begins hp hs hs' with ⟨t', rfl, ht'⟩ | hbegins
    · rw [hmark t' rfl] at ht'
      exact absurd ht' (by simp)
    · exact isApart_of_written h (hbegins t ht)

/-- The text of a word is the word. -/
theorem Symbol.chars_of_matches {t : Terminal} (w : Lexeme) (hw : t.Matches w.text) :
    (Symbol.token t).chars w = w.text := by
  show (t.spelling?.map String.toList).getD w.spelling.toList = w.text
  rw [Option.getD_map, Lexeme.getD_spelling_of_matches hw, Lexeme.spelling, String.toList_ofList]

mutual

/-- The text of the value of a derivation without parentheses has the words of the derivation, if it
stands apart from what follows. -/
theorem Derivation.written {s : Symbol} (d : Derivation s) (source : List Char)
    (htype : s.isType = true) (hungrouped : d.Ungrouped)
    (hmatches : ∀ x ∈ d.words, x.1.Matches x.2.text) {rest : List Char}
    (hrest : (∀ t, s = .token t → t.isMark = false) → IsApart rest) :
    Written d.words (s.chars (d.value source) ++ rest) rest :=
  match d with
  | .leaf t w => by
    have hw : t.Matches w.text := hmatches (t, w) (List.mem_singleton.2 rfl)
    have hchars : (Symbol.token t).chars w = w.text := Symbol.chars_of_matches w hw
    have hstops : t.Stops rest := by
      by_cases hmark : t.isMark = true
      · exact t.stops_of_isMark hmark rest
      · refine t.stops_of_isApart ?_ (hrest ?_)
        · rintro rfl
          exact absurd htype (by decide)
        · intro t' ht'
          obtain rfl := Symbol.token.inj ht'
          simpa using hmark
    refine ⟨[], rest, ?_, by decide, hw, hstops, rfl⟩
    exact congrArg (· ++ rest) hchars
  | .node p ds => by
    have hchars := p.chars_meaning source (fun _ => ds.span) (ds.values source) htype hungrouped.1
      (ds.allFit source hmatches)
    have hds := ds.written source htype List.drop_zero hungrouped.2 hmatches
      (hrest fun t ht => absurd ht (by simp))
    rw [← hchars] at hds
    exact hds

/-- The texts of the values of parts without parentheses, laid out one after the other, have the
words of the parts, if they stand apart from what follows. -/
theorem Derivations.written {ss : List Symbol} (ds : Derivations ss) (source : List Char)
    {p : Production} {n : Nat} (hp : p.lhs.isType = true) (hss : p.rhs.drop n = ss)
    (hungrouped : ds.Ungrouped) (hmatches : ∀ x ∈ ds.words, x.1.Matches x.2.text)
    {rest : List Char} (hrest : IsApart rest) :
    Written ds.words (p.spaced n (Symbol.charsAll ss (ds.values source)) ++ rest) rest :=
  match ds with
  | .nil => rfl
  | @Derivations.cons s ss' d ds => by
    have hget : p.rhs[n]? = some s := by
      rw [← List.head?_drop, hss]
      rfl
    have hdrop : p.rhs.drop (n + 1) = ss' := by
      rw [← List.drop_drop, hss]
      rfl
    have htype : s.isType = true := p.isType_of_mem hp (List.mem_of_getElem? hget)
    have hds := ds.written source hp hdrop hungrouped.2
      (fun x hx => hmatches x (List.mem_append_right _ hx)) hrest
    have hd := d.written source htype hungrouped.1
      (fun x hx => hmatches x (List.mem_append_left _ hx))
      fun hmark => ds.isApart hp hget hdrop hmark hds hrest
    have hwritten := written_append.2 ⟨_, hd, hds⟩
    obtain ⟨t, w, ws, hws, -⟩ := d.exists_first fun h => absurd (h ▸ htype) (by decide)
    rw [Derivations.words]
    rw [hws, List.cons_append] at hwritten ⊢
    have hgap := hwritten.blank_append (p.isBlank_gap n)
    rw [Derivations.values, Symbol.charsAll, Production.spaced, List.append_assoc,
      List.append_assoc]
    exact hgap

end

end Grammar

end CadenceEntry
