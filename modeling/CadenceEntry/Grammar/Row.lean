import CadenceEntry.Grammar.Production

/-!
# Rows of a parsing automaton

A row says what is known in one state: which productions are being read and how far (its items, with
what may follow each once it is complete), and to which state each symbol leads.
-/

set_option autoImplicit false

namespace CadenceEntry.Grammar

/-- A state of the automaton, by its place in the table. -/
abbrev State := Nat

/-- A production of which the first `done` symbols have been read, and what may follow it. -/
structure Item where
  production : Production
  done : Nat
  follow : List Lookahead

/-- What is known in a state. -/
structure Row where
  items : List Item
  moves : List (Symbol × State)

namespace Row

/-- The state that the symbol `s` leads to. -/
def move? (r : Row) (s : Symbol) : Option State := r.moves.lookup s

/-- The completed production that the lookahead `a` asks to put together. -/
def reduction? (r : Row) (a : Lookahead) : Option Production :=
  (r.items.find? fun i => i.done == i.production.rhs.length && i.follow.contains a).map
    Item.production

/-- Whether `a` is a word that leads on from here or a lookahead that completes a production. -/
def admits (r : Row) (a : Lookahead) : Bool :=
  (r.reduction? a).isSome ||
    match a with
    | .word t => (r.move? (.token t)).isSome
    | .finish => false

end Row

end CadenceEntry.Grammar
