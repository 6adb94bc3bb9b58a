import CadenceEntry.Grammar.Table
import CadenceEntry.Grammar.Derivation

/-!
# The parsing automaton

The automaton reads words from left to right and keeps the derivations of what it has read on a
stack, each with the state it led to. A lookahead that completes a production puts the derivations
of its right-hand side together; otherwise the word is pushed. Because each stack entry carries a
derivation of its symbol, whatever the automaton puts together is a derivation, for any table.
-/

set_option autoImplicit false

namespace CadenceEntry.Grammar

/-- What a text is to be read as. -/
inductive Goal where
  | program
  | typeText
  deriving DecidableEq, Repr

namespace Goal

/-- The phrase that a text of this kind is. -/
def phrase : Goal → Nonterminal
  | program => .program
  | typeText => .typeText

/-- The state in which reading begins. -/
def start : Goal → State
  | program => 0
  | typeText => 1

end Goal

namespace State

/-- The row of a state. A state outside the table knows nothing. -/
def row (q : State) : Row := Table.rows[q]?.getD ⟨[], []⟩

/-- Whether `a` can come next in the state `q`, as far as `q` alone can tell. -/
def admits (q : State) (a : Lookahead) : Bool := q.row.admits a

/-- Everything that can come next in the state `q`, as far as `q` alone can tell. -/
def lookaheads (q : State) : List Lookahead :=
  Lookahead.all.filter q.admits

end State

/-- A derivation that has been read, and the state it led to. -/
structure Frame where
  symbol : Symbol
  derivation : Derivation symbol
  state : State

/-- What has been read so far on the way to the goal `g`, the last part first. -/
structure Stack (g : Goal) where
  frames : List Frame

namespace Stack

variable {g : Goal}

/-- The stack before anything is read. -/
def empty (g : Goal) : Stack g := ⟨[]⟩

/-- The state on top of the stack. -/
def state (k : Stack g) : State :=
  match k.frames with
  | [] => g.start
  | f :: _ => f.state

/-- Pushes a derivation of `s` if the state on top has a move for `s`. -/
def push? (k : Stack g) {s : Symbol} (d : Derivation s) : Option (Stack g) :=
  (k.state.row.move? s).map fun q => ⟨⟨s, d, q⟩ :: k.frames⟩

/-- The derivations in `fs`, if they are derivations of the symbols `ss` in this order. -/
def derivations? : (ss : List Symbol) → List Frame → Option (Derivations ss)
  | [], [] => some .nil
  | s :: ss, f :: fs =>
    if h : f.symbol = s then (derivations? ss fs).map (.cons (h ▸ f.derivation)) else none
  | _, _ => none

/-- Replaces the right-hand side of `p` on top of the stack by the phrase it builds. -/
def reduce? (k : Stack g) (p : Production) : Option (Stack g) :=
  let n := p.rhs.length
  match derivations? p.rhs (k.frames.take n).reverse with
  | some ds => push? ⟨k.frames.drop n⟩ (.node p ds)
  | none => none

/-- Puts productions together as long as the lookahead asks for it, at most `fuel` times. -/
def settleWithin : Nat → Stack g → Lookahead → Stack g
  | 0, k, _ => k
  | fuel + 1, k, a =>
    match k.state.row.reduction? a with
    | none => k
    | some p =>
      match k.reduce? p with
      | none => k
      | some k' => settleWithin fuel k' a

/-- More productions than are ever put together between two words: one with two symbols or more
makes the stack shorter, and a chain of others passes each nonterminal at most once. -/
def settleBound (k : Stack g) : Nat := (k.frames.length + 1) * Nonterminal.all.length

/-- Puts productions together as long as the lookahead asks for it. -/
def settle (k : Stack g) (a : Lookahead) : Stack g := settleWithin k.settleBound k a

/-- The derivation of the whole text, if the stack holds that and nothing else. -/
def result? (k : Stack g) : Option (Derivation (.phrase g.phrase)) :=
  match k.frames with
  | [f] => if h : f.symbol = .phrase g.phrase then some (h ▸ f.derivation) else none
  | _ => none

end Stack

end CadenceEntry.Grammar
