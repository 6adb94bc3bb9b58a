import CadenceEntry.Grammar.Production
import CadenceEntry.Source.Position

/-!
# Derivations

A derivation shows how a symbol is built: a terminal from one word, a phrase by a production from
derivations of the symbols on its right-hand side. The words of a derivation from left to right are
what it derives; a piece of text that a phrase covers runs from its first word to its last.
-/

set_option autoImplicit false

namespace CadenceEntry.Grammar

mutual

/-- The ways to build the symbol `s`. -/
inductive Derivation : Symbol → Type where
  | leaf (t : Terminal) (w : Lexeme) : Derivation (.token t)
  | node (p : Production) (parts : Derivations p.rhs) : Derivation (.phrase p.lhs)

/-- One derivation for each symbol of a list. -/
inductive Derivations : List Symbol → Type where
  | nil : Derivations []
  | cons {s : Symbol} {ss : List Symbol} (d : Derivation s) (ds : Derivations ss) :
      Derivations (s :: ss)

end

mutual

/-- The words of a derivation from left to right, each with the terminal it is read as. -/
def Derivation.words {s : Symbol} : Derivation s → List (Terminal × Lexeme)
  | .leaf t w => [(t, w)]
  | .node _ ds => ds.words

/-- The words of a list of derivations from left to right. -/
def Derivations.words {ss : List Symbol} : Derivations ss → List (Terminal × Lexeme)
  | .nil => []
  | .cons d ds => d.words ++ ds.words

end

mutual

/-- The first word of a derivation, if it has words. -/
def Derivation.first? {s : Symbol} : Derivation s → Option Lexeme
  | .leaf _ w => some w
  | .node _ ds => ds.first?

/-- The first word of a list of derivations, if there is one. -/
def Derivations.first? {ss : List Symbol} : Derivations ss → Option Lexeme
  | .nil => none
  | .cons d ds =>
    match d.first? with
    | some w => some w
    | none => ds.first?

end

mutual

/-- The last word of a derivation, if it has words. -/
def Derivation.last? {s : Symbol} : Derivation s → Option Lexeme
  | .leaf _ w => some w
  | .node _ ds => ds.last?

/-- The last word of a list of derivations, if there is one. -/
def Derivations.last? {ss : List Symbol} : Derivations ss → Option Lexeme
  | .nil => none
  | .cons d ds =>
    match ds.last? with
    | some w => some w
    | none => d.last?

end

/-- From the first character of the first word to the last character of the last one. -/
def Derivations.span {ss : List Symbol} (ds : Derivations ss) : Span :=
  match ds.first?, ds.last? with
  | some a, some z => ⟨a.start, z.stop⟩
  | _, _ => {}

end CadenceEntry.Grammar
