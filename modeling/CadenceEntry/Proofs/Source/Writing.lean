import CadenceEntry.Proofs.Source.Piece
import CadenceEntry.Proofs.Source.Reading
import CadenceEntry.Proofs.Syntax.Unplaced

/-!
# Reading what has been written

A derivation is written by writing its words one after the other, with white space where two words
would run together. `Derivation.exists_reads` reads such a text back: the derivation is the one that
was written, with the places of its words in the text. Its only condition on the states is that no
name is spelled like a keyword that could come in its place, `Legible`; that every word is looked
for where it stands is a consequence of the table being closed.
-/

set_option autoImplicit false

namespace CadenceEntry

open Grammar

namespace Cursor

/-- Going on in two parts. -/
theorem advance_advance (c : Cursor) (m n : Nat) : (c.advance m).advance n = c.advance (m + n) := by
  simp only [advance, List.take_add, Position.afterAll_append, List.drop_drop]

/-- The rest of a text behind its first part. -/
theorem rest_advance {c : Cursor} {w rest : List Char} (h : c.rest = w ++ rest) :
    (c.advance w.length).rest = rest := by
  rw [advance, h, List.drop_left]

end Cursor

/-- A text of white space only. -/
def IsBlank (g : List Char) : Prop := ∀ x ∈ g, WordClass.separates x = true

instance (g : List Char) : Decidable (IsBlank g) :=
  List.decidableBAll (fun x => WordClass.separates x = true) g

namespace NextWord

variable {q : State} {c : Cursor}

/-- At the end of a text there is no word. -/
theorem read_of_nil (h : c.rest = []) : read q c = finish := by
  rw [read, readBy, dif_pos h]

/-- A gap is skipped. -/
theorem read_of_gap {n : Nat} (h : Piece.next? q c.rest = some (.gap n)) :
    read q c = read q (c.advance n) := by
  have hpos : 0 < n := Piece.length_pos_of_next? h
  have hne : c.rest ≠ [] := by
    intro hnil
    have hle := (Piece.isGap_of_next? h).1
    rw [hnil, List.length_nil] at hle
    omega
  rw [read, readBy, dif_neg hne]
  split
  · next hnone =>
    rw [h] at hnone
    exact absurd hnone (by simp)
  · next p hp =>
    rw [h] at hp
    obtain rfl := Option.some.inj hp
    rw [dif_pos (by exact hpos), read]

/-- A word is taken. -/
theorem read_of_word {t : Terminal} {n : Nat} (h : Piece.next? q c.rest = some (.word t n)) :
    read q c = .word t (c.lexeme n) (c.advance n) := by
  have hpos : 0 < n := Piece.length_pos_of_next? h
  have hne : c.rest ≠ [] := by
    intro hnil
    have hle := (Piece.matches_of_next? h).1
    rw [hnil, List.length_nil] at hle
    omega
  rw [read, readBy, dif_neg hne]
  split
  · next hnone =>
    rw [h] at hnone
    exact absurd hnone (by simp)
  · next p hp =>
    rw [h] at hp
    obtain rfl := Option.some.inj hp
    rw [dif_pos (by exact hpos)]

/-- Where nothing stands that is looked for, reading gets stuck. -/
theorem read_of_next?_eq_none (hne : c.rest ≠ []) (h : Piece.next? q c.rest = none) :
    read q c = .stuck c := by
  rw [read, readBy, dif_neg hne]
  split
  · rfl
  · next p hp =>
    rw [h] at hp
    exact absurd hp (by simp)

/-- White space is skipped. -/
theorem read_of_isBlank {g rest : List Char} (hg : IsBlank g) (hc : c.rest = g ++ rest) :
    read q c = read q (c.advance g.length) := by
  have hblanks : WordClass.blanks ∈ q.wordClasses :=
    State.mem_wordClasses_iff.2 (by simp [WordClass.terminal?])
  have hgap : ∀ (c : Cursor) (n : Nat), WordClass.run WordClass.separates c.rest = n →
      read q c = read q (c.advance n) := by
    intro c n hn
    cases n with
    | zero => simp [Cursor.advance]
    | succ n =>
      have hlength : WordClass.blanks.length? c.rest = some (n + 1) :=
        WordClass.run?_eq_some_iff.2 ⟨hn, Nat.succ_pos n⟩
      have htake := List.length_take_of_le (WordClass.length?_take hlength).1
      have hnext := Piece.next?_of_class hblanks hlength
      rw [Piece.ofClass, htake] at hnext
      exact read_of_gap hnext
  have hrun : WordClass.run WordClass.separates c.rest =
      g.length + WordClass.run WordClass.separates rest := by
    rw [hc]
    unfold WordClass.run
    rw [List.takeWhile_append_of_pos hg, List.length_append]
  rw [hgap c _ hrun, ← Cursor.advance_advance]
  exact (hgap _ _ (by rw [Cursor.rest_advance hc])).symm

/-- A word that the state admits is read behind white space. -/
theorem read_of_matches {t : Terminal} {g w rest : List Char} (hc : c.rest = g ++ (w ++ rest))
    (hg : IsBlank g) (hadmits : q.admits (.word t) = true) (hw : t.Matches w)
    (hname : t = .name → q.reserves w = false) (hrest : t.Stops rest) :
    read q c = .word t ⟨w, c.place.afterAll g⟩ ⟨c.place.afterAll (g ++ w), rest⟩ := by
  have hgap : c.advance g.length = ⟨c.place.afterAll g, w ++ rest⟩ := by
    rw [Cursor.advance, hc, List.take_left, List.drop_left]
  have hnext := Piece.next?_of_matches hadmits hw hname hrest
  rw [read_of_isBlank hg hc, hgap, read_of_word hnext, Cursor.lexeme, Cursor.advance,
    List.take_left, List.drop_left, Position.afterAll_append]

end NextWord

/-- The words `ws` stand at the beginning of the text `cs`, with white space before each of them or
not, and `cs'` is what comes behind them. No word runs into what follows it. -/
def Written : List (Terminal × Lexeme) → List Char → List Char → Prop
  | [], cs, cs' => cs' = cs
  | (t, w) :: ws, cs, cs' =>
    ∃ g rest, cs = g ++ (w.text ++ rest) ∧ IsBlank g ∧ t.Matches w.text ∧ t.Stops rest ∧
      Written ws rest cs'

/-- Words are written part by part. -/
theorem written_append {ws ws' : List (Terminal × Lexeme)} {cs cs' : List Char} :
    Written (ws ++ ws') cs cs' ↔ ∃ cs₁, Written ws cs cs₁ ∧ Written ws' cs₁ cs' := by
  induction ws generalizing cs with
  | nil =>
    constructor
    · intro h
      exact ⟨cs, rfl, h⟩
    · rintro ⟨cs₁, rfl, h⟩
      exact h
  | cons x ws ih =>
    constructor
    · rintro ⟨g, rest, hcs, hg, hmatches, hstops, h⟩
      obtain ⟨cs₁, h₁, h₂⟩ := ih.1 h
      exact ⟨cs₁, ⟨g, rest, hcs, hg, hmatches, hstops, h₁⟩, h₂⟩
    · rintro ⟨cs₁, ⟨g, rest, hcs, hg, hmatches, hstops, h₁⟩, h₂⟩
      exact ⟨g, rest, hcs, hg, hmatches, hstops, ih.2 ⟨cs₁, h₁, h₂⟩⟩

/-- Behind the text `g`, and with `rest` behind it, the word `w` is found by every state that admits
the terminal `t` and does not reserve the spelling. -/
def Findable (t : Terminal) (g w rest : List Char) : Prop :=
  ∀ (q : State) (p : Position), q.admits (.word t) = true → (t = .name → q.reserves w = false) →
    NextWord.read q ⟨p, g ++ (w ++ rest)⟩ = .word t ⟨w, p.afterAll g⟩ ⟨p.afterAll (g ++ w), rest⟩

/-- The words `ws` stand at the beginning of the text `cs`, and `cs'` is what comes behind them. The
property `P` holds of each word, what stands before it and what comes behind it. -/
def Laid (P : Terminal → List Char → List Char → List Char → Prop) :
    List (Terminal × Lexeme) → List Char → List Char → Prop
  | [], cs, cs' => cs' = cs
  | (t, w) :: ws, cs, cs' =>
    ∃ g rest, cs = g ++ (w.text ++ rest) ∧ P t g w.text rest ∧ Laid P ws rest cs'

/-- Words are laid part by part. -/
theorem laid_append {P : Terminal → List Char → List Char → List Char → Prop}
    {ws ws' : List (Terminal × Lexeme)} {cs cs' : List Char} :
    Laid P (ws ++ ws') cs cs' ↔ ∃ cs₁, Laid P ws cs cs₁ ∧ Laid P ws' cs₁ cs' := by
  induction ws generalizing cs with
  | nil =>
    constructor
    · intro h
      exact ⟨cs, rfl, h⟩
    · rintro ⟨cs₁, rfl, h⟩
      exact h
  | cons x ws ih =>
    constructor
    · rintro ⟨g, rest, hcs, hx, h⟩
      obtain ⟨cs₁, h₁, h₂⟩ := ih.1 h
      exact ⟨cs₁, ⟨g, rest, hcs, hx, h₁⟩, h₂⟩
    · rintro ⟨cs₁, ⟨g, rest, hcs, hx, h₁⟩, h₂⟩
      exact ⟨g, rest, hcs, hx, ih.2 ⟨cs₁, h₁, h₂⟩⟩

/-- Words that are laid with a property are laid with every weaker one. -/
theorem Laid.mono {P P' : Terminal → List Char → List Char → List Char → Prop}
    {ws : List (Terminal × Lexeme)} {cs cs' : List Char} (h : Laid P ws cs cs')
    (hP : ∀ t g w rest, P t g w rest → P' t g w rest) : Laid P' ws cs cs' := by
  induction ws generalizing cs with
  | nil => exact h
  | cons x ws ih =>
    obtain ⟨g, rest, hcs, hx, h⟩ := h
    exact ⟨g, rest, hcs, hP _ _ _ _ hx, ih h⟩

/-- Words that have been written with white space between them are found. -/
theorem Written.laid {ws : List (Terminal × Lexeme)} {cs cs' : List Char} (h : Written ws cs cs') :
    Laid Findable ws cs cs' := by
  induction ws generalizing cs with
  | nil => exact h
  | cons x ws ih =>
    obtain ⟨g, rest, hcs, hg, hmatches, hstops, h⟩ := h
    refine ⟨g, rest, hcs, fun q p hadmits hname => ?_, ih h⟩
    exact NextWord.read_of_matches (c := ⟨p, _⟩) rfl hg hadmits hmatches hname hstops

namespace Grammar

/-- The state that a symbol leads to, if it leads anywhere. -/
def State.goto (q : State) (s : Symbol) : State := (q.row.move? s).getD 0

mutual

/-- The state behind the last word of a derivation that is pushed on the state `q`, if the state
before its first word is `q₀`. -/
def Derivation.lastState {s : Symbol} (d : Derivation s) (q q₀ : State) : State :=
  match d with
  | .leaf t _ => q.goto (.token t)
  | .node _ ds => ds.lastState q q₀

/-- The state behind the last word of derivations that are pushed on the state `q` one after the
other, if the state before their first word is `q₀`. -/
def Derivations.lastState {ss : List Symbol} (ds : Derivations ss) (q q₀ : State) : State :=
  match ds with
  | .nil => q₀
  | .cons (s := s) d ds => ds.lastState (q.goto s) (d.lastState q q₀)

end

mutual

/-- No name of a derivation is spelled like a keyword that the state before it admits, where the
derivation is pushed on the state `q` and the state before its first word is `q₀`. -/
def Derivation.Legible {s : Symbol} (d : Derivation s) (q q₀ : State) : Prop :=
  match d with
  | .leaf t w => t = .name → q₀.reserves w.text = false
  | .node _ ds => ds.Legible q q₀

/-- No name of a list of derivations is spelled like a keyword that the state before it admits. -/
def Derivations.Legible {ss : List Symbol} (ds : Derivations ss) (q q₀ : State) : Prop :=
  match ds with
  | .nil => True
  | .cons (s := s) d ds => d.Legible q q₀ ∧ ds.Legible (q.goto s) (d.lastState q q₀)

end

mutual

/-- A state that awaits a symbol admits the first word of every derivation of it. -/
theorem Derivation.admits_next {s : Symbol} (d : Derivation s) {q : State} {a : Lookahead}
    (htoken : ∀ t, s = .token t → (q.row.move? (.token t)).isSome = true)
    (hphrase : ∀ p : Production, s = .phrase p.lhs → q.Awaits p 0 a) :
    q.admits (Lookahead.next d.words a) = true :=
  match d with
  | .leaf t w => by
    have hmove := htoken t rfl
    simp [Derivation.words, Lookahead.next, State.admits, Row.admits, hmove]
  | .node p ds => ds.admits_next List.drop_zero (Nat.zero_le _) (hphrase p rfl)

/-- A state that awaits the rest of a production admits the first word of every derivation of it, or
what follows the production if nothing is left. -/
theorem Derivations.admits_next {ss : List Symbol} (ds : Derivations ss) {q : State}
    {a : Lookahead} {p : Production} {n : Nat} (hss : p.rhs.drop n = ss) (hn : n ≤ p.rhs.length)
    (hawaits : q.Awaits p n a) : q.admits (Lookahead.next ds.words a) = true :=
  match ds with
  | .nil => by
    have hlength : n = p.rhs.length := Nat.le_antisymm hn (List.drop_eq_nil_iff.1 hss)
    have hreduction := (hlength ▸ hawaits).reduction?
    simp [Derivations.words, Lookahead.next, State.admits, Row.admits, hreduction]
  | .cons (s := s) d ds => by
    obtain ⟨hlt, hrest, ⟨q', hmove, -⟩, -, hphrase⟩ := hawaits.cons hss ds
    rw [Derivations.words, Lookahead.next_append]
    refine d.admits_next ?_ hphrase
    rintro t rfl
    rw [hmove]
    rfl

end

end Grammar

mutual

/-- A derivation whose words are found is read back, in a state that admits its first word. The
state behind it admits what follows it. -/
theorem Grammar.Derivation.exists_reads {s : Symbol} (d : Derivation s) {q q₀ : State}
    {c : Cursor} {cs' : List Char} {a : Lookahead} (hlaid : Laid Findable d.words c.rest cs')
    (hlegible : d.Legible q q₀) (hadmits : q₀.admits (Lookahead.next d.words a) = true)
    (htoken : ∀ t, s = .token t → ∃ q', q.row.move? s = some q' ∧ q'.admits a = true)
    (hphrase : ∀ p : Production, s = .phrase p.lhs → q.Awaits p 0 a) :
    ∃ (d' : Derivation s) (h' : Source.Head), d'.unplaced = d.unplaced ∧
      d'.Reads q ⟨q₀, c⟩ h' ∧ h'.state = d.lastState q q₀ ∧ h'.cursor.rest = cs' ∧
      h'.state.admits a = true :=
  match d with
  | .leaf t w => by
    obtain ⟨q', hmove, hadmits'⟩ := htoken t rfl
    obtain ⟨g, rest, hc, hfound, rfl⟩ := hlaid
    have hread : NextWord.read q₀ c =
        .word t ⟨w.text, c.place.afterAll g⟩ ⟨c.place.afterAll (g ++ w.text), cs'⟩ := by
      rw [← hfound q₀ c.place hadmits hlegible, ← hc]
    refine ⟨.leaf t ⟨w.text, c.place.afterAll g⟩, ⟨q', _⟩, ?_, ⟨hread, hmove⟩, ?_, rfl, hadmits'⟩
    · rw [Derivation.unplaced, Derivation.unplaced, Lexeme.unplaced, Lexeme.unplaced]
    · rw [Derivation.lastState, State.goto, hmove, Option.getD_some]
  | .node p ds => by
    obtain ⟨ds', h', hds', hreads, hstate, hrest, hadmits'⟩ :=
      ds.exists_reads List.drop_zero hlaid hlegible hadmits (hphrase p rfl)
    refine ⟨.node p ds', h', ?_, hreads, hstate, hrest, hadmits'⟩
    rw [Derivation.unplaced, Derivation.unplaced, hds']

/-- Derivations of the rest of a right-hand side whose words are found are read back. -/
theorem Grammar.Derivations.exists_reads {ss : List Symbol} (ds : Derivations ss) {q q₀ : State}
    {c : Cursor} {cs' : List Char} {a : Lookahead} {p : Production} {n : Nat}
    (hss : p.rhs.drop n = ss) (hlaid : Laid Findable ds.words c.rest cs')
    (hlegible : ds.Legible q q₀) (hadmits : q₀.admits (Lookahead.next ds.words a) = true)
    (hawaits : q.Awaits p n a) :
    ∃ (ds' : Derivations ss) (h' : Source.Head), ds'.unplaced = ds.unplaced ∧
      ds'.Reads q ⟨q₀, c⟩ h' ∧ h'.state = ds.lastState q q₀ ∧ h'.cursor.rest = cs' ∧
      h'.state.admits a = true :=
  match ds with
  | .nil => ⟨.nil, ⟨q₀, c⟩, rfl, rfl, rfl, hlaid.symm, hadmits⟩
  | .cons (s := s) d ds => by
    obtain ⟨hlt, hrest, ⟨q', hmove, hnext⟩, -, hphrase⟩ := hawaits.cons hss ds
    obtain ⟨cs₁, hd, hds⟩ := laid_append.1 hlaid
    rw [Derivations.words, Lookahead.next_append] at hadmits
    have hadmits' := ds.admits_next hrest hlt hnext
    obtain ⟨d', h₁, hd', hreads, hstate, rfl, hadmits₁⟩ :=
      d.exists_reads hd hlegible.1 hadmits (fun t _ => ⟨q', hmove, hadmits'⟩) hphrase
    have hgoto : q.goto s = q' := by rw [State.goto, hmove, Option.getD_some]
    have hlegible₂ := hlegible.2
    rw [hgoto, ← hstate] at hlegible₂
    obtain ⟨ds', h₂, hds', hreads₂, hstate₂, hrest₂, hadmits₂⟩ :=
      ds.exists_reads (c := h₁.cursor) hrest hds hlegible₂ hadmits₁ hnext
    refine ⟨.cons d' ds', h₂, ?_, ⟨h₁, q', hreads, hmove, hreads₂⟩, ?_, hrest₂, hadmits₂⟩
    · rw [Derivations.unplaced, Derivations.unplaced, hd', hds']
    · rw [hstate₂, Derivations.lastState, hgoto, hstate]

end

/-- A name that is read is not reserved in the state that looks for it. -/
theorem NextWord.not_reserves_of_read {q : State} {c c' : Cursor} {t : Terminal} {w : Lexeme}
    (h : read q c = .word t w c') (ht : t = .name) : q.reserves w.text = false := by
  unfold read at h
  fun_induction readBy (Piece.next? q) c with
  | case1 => exact absurd h (by simp)
  | case2 => exact absurd h (by simp)
  | case3 c hc t' n hp hnext =>
    obtain ⟨rfl, rfl, rfl⟩ := NextWord.word.inj h
    exact (Piece.matches_of_next? hnext).2.2.2 ht
  | case4 c hc n _ hnext _ ih => exact ih h
  | case5 => exact absurd h (by simp)

mutual

/-- A derivation that is read off a text is legible there. -/
theorem Grammar.Derivation.legible_of_reads {s : Symbol} (d : Derivation s) {q : State}
    {h h' : Source.Head} (hreads : d.Reads q h h') :
    d.Legible q h.state ∧ h'.state = d.lastState q h.state :=
  match d with
  | .leaf t w => by
    obtain ⟨hread, hmove⟩ := hreads
    refine ⟨NextWord.not_reserves_of_read hread, ?_⟩
    rw [Derivation.lastState, State.goto, hmove, Option.getD_some]
  | .node p ds => ds.legible_of_reads hreads

/-- Derivations that are read off a text are legible there. -/
theorem Grammar.Derivations.legible_of_reads {ss : List Symbol} (ds : Derivations ss) {q : State}
    {h h' : Source.Head} (hreads : ds.Reads q h h') :
    ds.Legible q h.state ∧ h'.state = ds.lastState q h.state :=
  match ds with
  | .nil => ⟨trivial, by rw [hreads, Derivations.lastState]⟩
  | .cons (s := s) d ds => by
    obtain ⟨h₁, q', hd, hmove, hds⟩ := hreads
    obtain ⟨hlegible, hstate⟩ := d.legible_of_reads hd
    obtain ⟨hlegible', hstate'⟩ := ds.legible_of_reads hds
    have hgoto : q.goto s = q' := by rw [State.goto, hmove, Option.getD_some]
    rw [hstate] at hlegible' hstate'
    rw [Derivations.Legible, Derivations.lastState, hgoto]
    exact ⟨⟨hlegible, hlegible'⟩, hstate'⟩

end

/-- A text of white space ends like the empty text. -/
theorem NextWord.read_of_isBlank_rest {q : State} {c : Cursor} (h : IsBlank c.rest) :
    read q c = finish := by
  have hskip := read_of_isBlank (q := q) h (List.append_nil c.rest).symm
  rw [hskip]
  exact read_of_nil (by rw [Cursor.advance, List.drop_length])

namespace Source

/-- A derivation that has been written as a whole text is the derivation of the text, up to the
places of its words. -/
theorem exists_derive_eq_ok {g : Goal} {cs rest : List Char} (d : Derivation (.phrase g.phrase))
    (hwritten : Written d.words cs rest) (hrest : IsBlank rest)
    (hlegible : d.Legible g.start g.start) :
    ∃ d', derive g cs = .ok d' ∧ d'.unplaced = d.unplaced := by
  have hphrase : ∀ p : Production, Symbol.phrase g.phrase = .phrase p.lhs →
      g.start.Awaits p 0 .finish := fun p hp => g.awaits (Symbol.phrase.inj hp).symm
  obtain ⟨d', h', hd', hreads, -, rfl, -⟩ :=
    d.exists_reads (c := .ofText cs) hwritten.laid hlegible
      (d.admits_next (fun t ht => absurd ht (by simp)) hphrase)
      (fun t ht => absurd ht (by simp)) hphrase
  exact ⟨d', derive_eq_ok_iff.2 ⟨h', hreads, NextWord.read_of_isBlank_rest hrest⟩, hd'⟩

end Source

end CadenceEntry
