import CadenceEntry.Syntax.Type

/-!
# Declarations

The declarations of a Cadence program as far as their headers tell: imports, pragmas, transactions,
functions, composites and interfaces, events and entitlements. Bodies are kept as source text. The
default of every field is what a node has that nothing was written for.
-/

set_option autoImplicit false

namespace CadenceEntry

/-- A parameter with an optional label; an empty label is none. -/
structure Parameter where
  label : String := ""
  name : Identifier
  type : AnnotatedType
  span : Span := {}

/-- The parameters in a pair of parentheses. -/
structure ParameterList where
  parameters : List Parameter := []
  span : Span := {}

/-- A body, with the braces around it. -/
structure Block where
  source : String := ""
  span : Span := {}

/-- What separates two names in an access modifier. -/
inductive AccessSeparator where
  | all
  | any
  deriving DecidableEq, Repr

/-- Who may access a declaration. -/
inductive Access where
  | pub
  | priv
  | pubSet
  | names (first : String) (rest : List (AccessSeparator × String))
  deriving DecidableEq, Repr

namespace Access

/-- A name with the separator before it. -/
def separated : AccessSeparator × String → String
  | (.all, n) => ", " ++ n
  | (.any, n) => " | " ++ n

/-- The text of an access modifier. -/
def text : Access → String
  | pub => "pub"
  | priv => "priv"
  | pubSet => "pub(set)"
  | names first rest => "access(" ++ first ++ String.join (rest.map separated) ++ ")"

end Access

/-- Where an import is taken from. -/
inductive ImportLocation where
  | address (text : String)
  | string (text : String)
  | identifier (text : String)
  deriving DecidableEq, Repr

/-- An import of some names, or of everything, from a location. -/
structure ImportDeclaration where
  names : List Identifier := []
  location : ImportLocation := .identifier ""
  span : Span := {}

/-- A pragma. -/
structure PragmaDeclaration where
  name : String := ""
  span : Span := {}

/-- Whether a field can be assigned to. -/
inductive VariableKind where
  | immutable
  | mutable
  deriving DecidableEq, Repr

/-- The word that declares a field. -/
def VariableKind.text : VariableKind → String
  | immutable => "let"
  | mutable => "var"

/-- A field of a transaction. -/
structure FieldDeclaration where
  access : Option Access := none
  kind : VariableKind := .immutable
  name : Identifier
  type : AnnotatedType
  span : Span := {}

/-- A phase of a transaction. -/
inductive Phase where
  | prepare
  | pre
  | execute
  | post
  deriving DecidableEq, Repr

/-- The word that opens a phase. -/
def Phase.text : Phase → String
  | prepare => "prepare"
  | pre => "pre"
  | execute => "execute"
  | post => "post"

/-- The body of a phase, with the parameters of `prepare`. -/
structure PhaseDeclaration where
  phase : Option Phase := none
  parameters : Option ParameterList := none
  body : Block := {}
  span : Span := {}

/-- A transaction. -/
structure TransactionDeclaration where
  parameters : ParameterList := {}
  fields : List FieldDeclaration := []
  prepare : Option PhaseDeclaration := none
  pre : Option PhaseDeclaration := none
  execute : Option PhaseDeclaration := none
  post : Option PhaseDeclaration := none
  span : Span := {}

/-- A function. -/
structure FunctionDeclaration where
  access : Option Access := none
  isView : Bool := false
  name : Identifier := {}
  parameters : ParameterList := {}
  result : Option AnnotatedType := none
  body : Option Block := none
  span : Span := {}

/-- The kind of a composite. -/
inductive CompositeKind where
  | contract
  | resource
  | struct
  | enum
  deriving DecidableEq, Repr

/-- The word that declares a composite. -/
def CompositeKind.text : CompositeKind → String
  | contract => "contract"
  | resource => "resource"
  | struct => "struct"
  | enum => "enum"

/-- A composite or an interface. -/
structure CompositeDeclaration where
  access : Option Access := none
  kind : Option CompositeKind := none
  isInterface : Bool := false
  name : Identifier := {}
  conformances : List NominalType := []
  body : Block := {}
  span : Span := {}

/-- An event. -/
structure EventDeclaration where
  access : Option Access := none
  name : Identifier := {}
  parameters : ParameterList := {}
  span : Span := {}

/-- An entitlement. -/
structure EntitlementDeclaration where
  access : Option Access := none
  name : Identifier := {}
  span : Span := {}

/-- A top-level declaration. -/
inductive Declaration where
  | imports (d : ImportDeclaration)
  | pragma (d : PragmaDeclaration)
  | transaction (d : TransactionDeclaration)
  | function (d : FunctionDeclaration)
  | composite (d : CompositeDeclaration)
  | event (d : EventDeclaration)
  | entitlement (d : EntitlementDeclaration)

/-- The declarations of a source text in order. -/
structure Program where
  declarations : List Declaration := []

namespace Program

/-- The transactions of a program in order. -/
def transactions (p : Program) : List TransactionDeclaration :=
  p.declarations.filterMap fun
    | .transaction d => some d
    | _ => none

/-- The top-level functions of a program in order. -/
def functions (p : Program) : List FunctionDeclaration :=
  p.declarations.filterMap fun
    | .function d => some d
    | _ => none

end Program

end CadenceEntry
