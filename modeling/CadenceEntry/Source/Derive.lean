import CadenceEntry.Source.NextWord
import CadenceEntry.Source.SyntaxError

/-!
# Deriving a text

`derive g cs` reads the text `cs` towards the goal `g`: words are taken one after the other, each
looked for in the state that the word before it led to, and the end of the text is read like a last
word. The result is a derivation of the goal or the reason why there is none.
-/

set_option autoImplicit false

namespace CadenceEntry

open Grammar

namespace Source

/-- Nothing that is looked for in the state `q` stands at the cursor. The message shows the word
that stands there if any state looks for one, else the character. -/
def stuckError (q : State) (c : Cursor) : SyntaxError :=
  match Piece.anywhere? c.rest with
  | some n => .unexpectedWord (c.rest.take n) q.sought c.place
  | none => .unexpectedCharacter (c.rest.headD '\x00') q.sought c.place

/-- Reads on from the cursor, where `last` is the place of the word before it. -/
def deriveFrom {g : Goal} (k : Stack g) (last : Position) (c : Cursor) :
    Except SyntaxError (Derivation (.phrase g.phrase)) :=
  match _ : NextWord.read k.state c with
  | .word t w c' =>
    let k := k.settle (.word t)
    match k.push? (.leaf t w) with
    | some k => deriveFrom k w.start c'
    | none => .error (.unexpectedWord w.text k.state.lookaheads w.start)
  | .finish =>
    let k := k.settle .finish
    match k.result? with
    | some d => .ok d
    | none => .error (.unexpectedEnd k.state.lookaheads last)
  | .stuck c' => .error (stuckError k.state c')
termination_by c.rest.length
decreasing_by exact NextWord.length_lt_of_readBy ‹_›

/-- The derivation of the text `cs`. -/
def derive (g : Goal) (cs : List Char) : Except SyntaxError (Derivation (.phrase g.phrase)) :=
  deriveFrom (Stack.empty g) .origin (.ofText cs)

end Source

end CadenceEntry
