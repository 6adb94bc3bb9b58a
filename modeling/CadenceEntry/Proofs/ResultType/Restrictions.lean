import CadenceEntry.Proofs.ResultType.Mirror
import CadenceEntry.Proofs.ResultType.Reading
import CadenceEntry.Proofs.TypeText.SourceWords

/-!
# A restriction list as a body

Behind a result a brace opens the body of the function, so a restriction list there is taken for a
body: a scan goes over the names in it to its closing brace. A declaration begins neither with a
question mark nor with a brace, so where one of them comes next the text is refused.
-/

set_option autoImplicit false

namespace CadenceEntry

open Grammar
open Source (Head)

/-! ## Scanning over names -/

/-- A scan goes on behind characters that stand for themselves. -/
theorem scansTo_ordinary {w : List Char} (hw : ∀ x ∈ w, WordClass.isOrdinary x = true)
    (depth : Nat) (rest : List Char) : ScansTo .code depth (w ++ rest) w.length := by
  induction w with
  | nil => exact scansTo_zero depth rest
  | cons x w ih =>
    refine (ih fun y hy => hw y (List.mem_cons_of_mem _ hy)).succ ?_
    exact scanBody_of_skipped depth (.inl (hw x List.mem_cons_self))

/-- The characters of names stand for themselves in a body. -/
theorem WordClass.isOrdinary_of_continuesName {x : Char} (h : continuesName x = true) :
    isOrdinary x = true := by
  have hblank := isBlank_of_continuesName h
  rw [continuesName_iff] at h
  rw [isOrdinary_iff]
  refine ⟨?_, ?_, ?_, ?_, hblank⟩ <;> omega

/-- The words of lists of names are ordinary text of a body. -/
theorem Grammar.Terminal.isOrdinary_of_listWords {t : Terminal} {w : List Char}
    (ht : t ∈ Terminal.listWords) (hw : t.Matches w) : ∀ x ∈ w, WordClass.isOrdinary x = true := by
  simp only [Terminal.listWords, List.mem_cons, List.not_mem_nil, or_false] at ht
  rcases ht with rfl | rfl | rfl
  · intro x hx
    exact WordClass.isOrdinary_of_continuesName (WordClass.continuesName_of_mem_name hw hx)
  · obtain rfl : ['.'] = w := Option.some.inj hw
    exact List.forall_mem_singleton.2 rfl
  · obtain rfl : [','] = w := Option.some.inj hw
    exact List.forall_mem_singleton.2 rfl

/-- A scan of a body goes over a list of names. -/
theorem Laid.scansTo {ws : List (Terminal × Lexeme)} {cs cs' : List Char}
    (h : Laid Stands ws cs cs')
    (hws : ∀ x ∈ ws, x.1 ∈ Terminal.listWords) (depth : Nat) :
    ∃ v, cs = v ++ cs' ∧ ScansTo .code depth cs v.length := by
  induction ws generalizing cs with
  | nil => exact ⟨[], h.symm, scansTo_zero depth cs⟩
  | cons x ws ih =>
    obtain ⟨g, rest, rfl, hstands, h⟩ := h
    obtain ⟨v, hv, hscan⟩ := ih h fun y hy => hws y (List.mem_cons_of_mem _ hy)
    have hword := scansTo_ordinary
      (Terminal.isOrdinary_of_listWords (hws x List.mem_cons_self) hstands.isWord) depth rest
    have hbehind : ScansTo .code depth (x.2.text ++ rest) (x.2.text.length + v.length) :=
      hword.add (by rwa [List.drop_left])
    refine ⟨g ++ (x.2.text ++ v), by rw [hv]; simp, ?_⟩
    rw [List.length_append, List.length_append]
    exact (hstands.scans depth).add (by rwa [List.drop_left])

/-- A scan from behind the opening brace of a list of names ends with the closing brace. -/
theorem Laid.exists_scanBody {ws ws' : List (Terminal × Lexeme)} {r : Lexeme} {cs cs' : List Char}
    (h : Laid Stands (ws ++ (.rightBrace, r) :: ws') cs cs')
    (hws : ∀ x ∈ ws, x.1 ∈ Terminal.listWords) :
    ∃ n, scanBody .code 1 cs = some n ∧ Laid Stands ws' (cs.drop n) cs' := by
  obtain ⟨cs₁, hws₁, hclose⟩ := laid_append.1 h
  obtain ⟨v, rfl, hscan⟩ := hws₁.scansTo hws 1
  obtain ⟨g, rest, rfl, hstands, hrest⟩ := hclose
  have htext : r.text = ['\x7d'] := (Option.some.inj hstands.isWord).symm
  have hgap := hstands.scans 1
  rw [htext] at hscan hgap ⊢
  have hbehind : (v ++ (g ++ ('\x7d' :: rest))).drop (v.length + g.length) = '\x7d' :: rest := by
    rw [← List.drop_drop, List.drop_left, List.drop_left]
  have hbrace : ScansTo .code 1 (v ++ (g ++ ('\x7d' :: rest))) (v.length + g.length) :=
    hscan.add (by rwa [List.drop_left])
  refine ⟨1 + (v.length + g.length), ?_, ?_⟩
  · unfold ScansTo at hbrace
    rw [hbehind] at hbrace
    exact hbrace
  · rw [Nat.add_comm, ← List.drop_drop]
    show Laid Stands ws' (((v ++ (g ++ ('\x7d' :: rest))).drop (v.length + g.length)).drop 1) cs'
    rw [hbehind]
    exact hrest

/-! ## Behind a body -/

/-- No class that the state tries, and no spelling that it looks for, begins with the character. -/
def Grammar.State.overlooks (q : State) (x : Char) : Bool :=
  q.wordClasses.all (fun c => !c.begins x) &&
    q.fixedWords.all fun t => t.chars?.all fun w => w.head? != some x

/-- A character that a state overlooks begins no piece in it. -/
theorem Piece.next?_eq_none_of_overlooks {q : State} {x : Char} (h : q.overlooks x = true)
    (cs : List Char) : next? q (x :: cs) = none := by
  simp only [State.overlooks, Bool.and_eq_true, List.all_eq_true, Bool.not_eq_true'] at h
  rw [next?_of_no_class]
  · cases hspelling : ofSpelling? q.fixedWords (x :: cs) with
    | none => rfl
    | some p =>
      obtain ⟨t, ht, w, hw, hstart, -⟩ := exists_of_ofSpelling? hspelling
      obtain ⟨y, v, hchars, -⟩ := Terminal.exists_chars?_of_mem_fixed (List.mem_filter.1 ht).1
      rw [hw] at hchars
      obtain rfl := Option.some.inj hchars
      have hnot := h.2 t ht
      rw [hw] at hnot
      simp [(List.cons_prefix_cons.1 hstart).1] at hnot
  · intro c hc
    rw [Option.eq_none_iff_forall_ne_some]
    intro n hn
    have hbegins := WordClass.begins_of_length? hn
    rw [h.1 c hc] at hbegins
    exact absurd hbegins (by simp)

/-- Behind a body question marks and opening braces are overlooked. -/
theorem Grammar.State.overlooks_behind_body {q : State} (hq : q = 181 ∨ q = 182) {x : Char}
    (hx : x = '?' ∨ x = '\x7b') : q.overlooks x = true := by
  rcases hq with rfl | rfl <;> rcases hx with rfl | rfl <;> decide

/-- Behind a body the text `cs` is refused: a question mark comes next, or a brace. -/
def Refused (cs : List Char) : Prop :=
  ∀ (q : State) (p : Position), q = 181 ∨ q = 182 → ∃ c, NextWord.read q ⟨p, cs⟩ = .stuck c

/-- Behind a body a text is refused that begins with a question mark or an opening brace. -/
theorem refused_cons {x : Char} (hx : x = '?' ∨ x = '\x7b') (cs : List Char) :
    Refused (x :: cs) := by
  intro q p hq
  have hoverlooks := State.overlooks_behind_body hq hx
  exact ⟨_, NextWord.read_of_next?_eq_none (c := ⟨p, x :: cs⟩) (List.cons_ne_nil x cs)
    (Piece.next?_eq_none_of_overlooks hoverlooks cs)⟩

/-- A question mark is refused behind a body. -/
theorem Laid.refused {w : Lexeme} {ws : List (Terminal × Lexeme)} {cs cs' : List Char}
    (h : Laid Stands ((.question, w) :: ws) cs cs') : Refused cs := by
  obtain ⟨g, rest, rfl, hstands, -⟩ := h
  have htext : w.text = ['?'] := (Option.some.inj hstands.isWord).symm
  intro q p hq
  obtain ⟨c, hc⟩ := refused_cons (.inl rfl) rest q (p.afterAll g) hq
  refine ⟨c, ?_⟩
  rw [(hstands.skips q p).read_eq, htext]
  exact hc

/-- A text that is read as a function with something behind it that is refused is no program. -/
theorem Program.exists_error_of_refused {text : String}
    {d : Derivation (.phrase .functionDeclaration)} {q : State} {p : Position} {cs : List Char}
    (hd : d.Reads 0 ⟨0, .ofText text.toList⟩ ⟨q, p, cs⟩) (hq : q = 181 ∨ q = 182)
    (hcs : Refused cs) : ∃ e, Program.parse text = .error e := by
  let k₀ : Stack .program := Stack.empty .program
  have hawaits : ∀ p : Production, Symbol.phrase .functionDeclaration = .phrase p.lhs →
      k₀.state.Awaits p 0 .finish := by
    intro p hp
    have hexpected : ((State.row 0).expected .functionDeclaration).has .finish = true := by
      decide
    refine .inr ⟨rfl, ?_⟩
    rw [← Symbol.phrase.inj hp]
    exact hexpected
  have hd' : d.Reads k₀.state ⟨0, .ofText text.toList⟩ ⟨q, p, cs⟩ := hd
  have hmove : k₀.state.row.move? (.phrase .functionDeclaration) = some 11 := rfl
  obtain ⟨k, -, last, hk, hrun, -⟩ := Source.deriveFrom_of_reads d .origin hd' rfl .refl
    (fun t ht => absurd ht (by simp)) hawaits hmove
  obtain ⟨c, hc⟩ := hcs q p hq
  have hread : NextWord.read k.state ⟨p, cs⟩ = .stuck c := by
    rw [hk]
    exact hc
  have hderive : Source.derive .program text.toList = .error (Source.stuckError k.state c) := by
    rw [Source.derive, hrun, Source.deriveFrom_eq, hread]
  refine ⟨Source.stuckError k.state c, ?_⟩
  rw [Program.parse, hderive]
  rfl

end CadenceEntry
