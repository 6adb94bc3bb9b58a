import CadenceEntry.Syntax.Declaration

/-!
# Entry points

The entry point of a program is a transaction, or a function called `main` if there is no
transaction. When several declarations could be the entry point, a policy decides whether the last
one is or none.
-/

set_option autoImplicit false

namespace CadenceEntry

/-- What to do when several declarations could be the entry point. -/
inductive Policy where
  /-- The last one is. -/
  | last
  /-- That is an error. -/
  | strict
  deriving DecidableEq, Repr

namespace Policy

/-- All policies. -/
def all : List Policy := [last, strict]

/-- The name of a policy. -/
def name : Policy → String
  | last => "last"
  | strict => "strict"

/-- The policy with a name. -/
def ofName? (s : String) : Option Policy := all.find? fun p => p.name == s

/-- A name belongs to one policy only. -/
theorem ofName?_name (p : Policy) : ofName? p.name = some p := by cases p <;> rfl

end Policy

/-- What can be an entry point. -/
inductive EntryPointKind where
  | transaction
  | main
  deriving DecidableEq, Repr

/-- What messages call several declarations that could be the entry point. -/
def EntryPointKind.plural : EntryPointKind → String
  | transaction => "transaction declarations"
  | main => "main functions"

/-- Several declarations could be the entry point and none is chosen. -/
structure DuplicateEntryPoint where
  kind : EntryPointKind
  count : Nat
  deriving DecidableEq, Repr

/-- The message of the error. -/
def DuplicateEntryPoint.message (e : DuplicateEntryPoint) : String :=
  "program declares " ++ toString e.count ++ " " ++ e.kind.plural ++ ", expected at most one"

/-- The declaration that a policy chooses from some that are of one kind. -/
def Policy.choose {α : Type} (policy : Policy) (kind : EntryPointKind) (candidates : List α) :
    Except DuplicateEntryPoint (Option α) :=
  if policy = .strict ∧ 1 < candidates.length then .error ⟨kind, candidates.length⟩
  else .ok candidates.getLast?

/-- The entry point of a program. -/
inductive EntryPoint where
  | transaction (d : TransactionDeclaration)
  | script (d : FunctionDeclaration)

/-- The parameters of an entry point. -/
def EntryPoint.parameters : EntryPoint → List Parameter
  | transaction d => d.parameters.parameters
  | script d => d.parameters.parameters

namespace Program

/-- The name of the function that is the entry point of a script. -/
def mainName : String := "main"

/-- The functions of a program that are called `main`, in order. -/
def mains (p : Program) : List FunctionDeclaration :=
  p.functions.filter fun d => d.name.text == mainName

/-- The transaction that is chosen. -/
def transaction (policy : Policy) (p : Program) :
    Except DuplicateEntryPoint (Option TransactionDeclaration) :=
  policy.choose .transaction p.transactions

/-- The function called `main` that is chosen. -/
def main (policy : Policy) (p : Program) :
    Except DuplicateEntryPoint (Option FunctionDeclaration) :=
  policy.choose .main p.mains

/-- The entry point of a program; functions only matter if there is no transaction. -/
def entryPoint (policy : Policy) (p : Program) :
    Except DuplicateEntryPoint (Option EntryPoint) := do
  match ← p.transaction policy with
  | some d => pure (some (.transaction d))
  | none => return (← p.main policy).map .script

end Program

end CadenceEntry
