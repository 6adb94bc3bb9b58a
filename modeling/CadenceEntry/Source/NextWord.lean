import CadenceEntry.Grammar.Automaton
import CadenceEntry.Source.Cursor
import CadenceEntry.Source.WordClass

/-!
# The next word of a text

Which words there are depends on the state of the automaton: only the terminals that the state
admits are looked for, and white space and comments everywhere. The word classes are tried first, in
their order, then the fixed spellings from long to short. A fixed spelling that an admitted word
class covers is not looked for by itself; instead a word of that class counts as the terminal with
this spelling if the whole word is spelled so.
-/

set_option autoImplicit false

namespace CadenceEntry

open Grammar (Terminal Lookahead State)

namespace Grammar.State

/-- The word classes that are tried in the state `q`. -/
def wordClasses (q : State) : List WordClass :=
  WordClass.all.filter fun c =>
    match c.terminal? with
    | some t => q.admits (.word t)
    | none => true

/-- Whether the spelling of `t` is left to a word class in the state `q`. -/
def absorbs (q : State) (t : Terminal) : Bool := q.wordClasses.any (·.covers t)

/-- The terminals with a fixed spelling that are looked for by their spelling. -/
def fixedWords (q : State) : List Terminal :=
  Terminal.fixed.filter fun t => q.admits (.word t) && !q.absorbs t

/-- What the scanner looks for in the state `q`, white space and comments apart. -/
def sought (q : State) : List Lookahead :=
  q.lookaheads.filter fun
    | .word t => !q.absorbs t
    | .finish => false

/-- The terminal that a word of class `t` is in the state `q`: an admitted one with exactly this
spelling if there is one. -/
def classify (q : State) (t : Terminal) (w : List Char) : Terminal :=
  (Terminal.fixed.find? fun k =>
    q.admits (.word k) && k.spelling?.map String.toList == some w).getD t

end Grammar.State

/-- A piece of text: a word, or something between words. -/
inductive Piece where
  | word (t : Terminal) (length : Nat)
  | gap (length : Nat)
  deriving DecidableEq, Repr

namespace Piece

/-- The number of characters of a piece. -/
def length : Piece → Nat
  | word _ n => n
  | gap n => n

/-- The terminal of `ts` whose spelling a text begins with, the first one that fits. -/
def ofSpelling? (ts : List Terminal) (cs : List Char) : Option Piece :=
  ts.findSome? fun t =>
    t.spelling?.bind fun s =>
      if s.toList.isPrefixOf cs && 0 < s.length then some (word t s.length) else none

/-- The piece that `cs` begins with in the state `q`. -/
def next? (q : State) (cs : List Char) : Option Piece :=
  match q.wordClasses.findSome? fun c => (c.length? cs).map (c, ·) with
  | some (c, n) =>
    match c.terminal? with
    | some t => some (word (q.classify t (cs.take n)) n)
    | none => some (gap n)
  | none => ofSpelling? q.fixedWords cs

/-- The text that `cs` begins with when every word is looked for, whatever the state. -/
def anywhere? (cs : List Char) : Option Nat :=
  match WordClass.all.findSome? (·.length? cs) with
  | some n => some n
  | none => (ofSpelling? Terminal.fixed cs).map length

/-- A piece is never empty. -/
theorem length_pos_of_next? {q : State} {cs : List Char} {p : Piece} (h : next? q cs = some p) :
    0 < p.length := by
  unfold next? at h
  split at h
  · next c n hn =>
    obtain ⟨c', -, hc⟩ := List.exists_of_findSome?_eq_some hn
    obtain ⟨m, hm, he⟩ := Option.map_eq_some_iff.1 hc
    obtain ⟨rfl, rfl⟩ := Prod.mk.inj he
    have := WordClass.length?_pos hm
    split at h <;> (obtain rfl := Option.some.inj h; exact this)
  · obtain ⟨t, -, ht⟩ := List.exists_of_findSome?_eq_some h
    obtain ⟨s, -, hs⟩ := Option.bind_eq_some_iff.1 ht
    split at hs
    · next hp =>
      obtain rfl := Option.some.inj hs
      simpa [length] using (by simpa using hp : _ ∧ 0 < s.length).2
    · exact absurd hs (by simp)

end Piece

/-- What a text goes on with. -/
inductive NextWord where
  | word (t : Terminal) (w : Lexeme) (c : Cursor)
  | finish
  | stuck (c : Cursor)

namespace NextWord

/-- Skips what stands between words and takes the next word, where `next?` finds the pieces. An
empty piece would get stuck. -/
def readBy (next? : List Char → Option Piece) (c : Cursor) : NextWord :=
  if _ : c.rest = [] then finish
  else
    match next? c.rest with
    | none => stuck c
    | some p =>
      if _ : 0 < p.length then
        match p with
        | .word t n => word t (c.lexeme n) (c.advance n)
        | .gap n => readBy next? (c.advance n)
      else stuck c
termination_by c.rest.length
decreasing_by exact Cursor.length_advance_lt ‹_› ‹_›

/-- Skips what stands between words and takes the next word that the state `q` looks for. -/
def read (q : State) (c : Cursor) : NextWord := readBy (Piece.next? q) c

/-- Reading a word leaves less text. -/
theorem length_lt_of_readBy {next? : List Char → Option Piece} {c c' : Cursor} {t : Terminal}
    {w : Lexeme} (h : readBy next? c = word t w c') : c'.rest.length < c.rest.length := by
  fun_induction readBy next? c with
  | case1 => exact absurd h (by simp)
  | case2 => exact absurd h (by simp)
  | case3 c hc t' n hp =>
    injection h with _ _ h
    subst h
    exact Cursor.length_advance_lt hp hc
  | case4 c hc n _ _ hp ih => exact Nat.lt_trans (ih h) (Cursor.length_advance_lt hp hc)
  | case5 => exact absurd h (by simp)

end NextWord

end CadenceEntry
