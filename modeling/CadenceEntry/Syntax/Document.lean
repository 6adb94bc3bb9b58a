import CadenceEntry.Json.Basic
import CadenceEntry.Syntax.Declaration

/-!
# Syntax trees as JSON

Every node is an object with a `Type` tag where its kind is not clear from its place, its parts, and
the places where it starts and ends. A part that is not there is `null`.
-/

set_option autoImplicit false

namespace CadenceEntry

open Json

/-- A place as an object. -/
def Position.toJson (p : Position) : Json :=
  object [("Offset", nat p.offset), ("Line", nat p.line), ("Column", nat p.column)]

/-- The two places of a span, as the last members of a node. -/
def Span.members (s : Span) : List (String × Json) :=
  [("StartPos", s.start.toJson), ("EndPos", s.stop.toJson)]

/-- A name as an object. -/
def Identifier.toJson (i : Identifier) : Json :=
  object [("Identifier", string i.text), ("Pos", i.place.toJson)]

/-- A type name as an object. -/
def NominalType.toJson (t : NominalType) : Json :=
  object <|
    [("Type", string "NominalType"), ("Identifier", t.head.toJson),
      ("NestedIdentifiers", arrayOf Identifier.toJson t.nested)] ++ t.span.members

mutual

/-- A type as an object. -/
def TypeExpr.toJson : TypeExpr → Json
  | .nominal n => n.toJson
  | .optional t s =>
    object <| [("Type", string "OptionalType"), ("ElementType", t.toJson)] ++ s.members
  | .variableSized t s =>
    object <| [("Type", string "VariableSizedType"), ("ElementType", t.toJson)] ++ s.members
  | .constantSized t size literal s =>
    object <|
      [("Type", string "ConstantSizedType"), ("ElementType", t.toJson),
        ("Size", object
          [("Type", string "IntegerExpression"), ("Value", int size),
            ("Literal", string literal)])] ++ s.members
  | .dictionary k v s =>
    object <|
      [("Type", string "DictionaryType"), ("KeyType", k.toJson), ("ValueType", v.toJson)] ++
        s.members
  | .instantiation t args s =>
    object <|
      [("Type", string "InstantiationType"), ("InstantiatedType", t.toJson),
        ("TypeArguments", array (AnnotatedType.toJsons args))] ++ s.members
  | .reference authorized es t s =>
    object <|
      [("Type", string "ReferenceType"), ("Authorized", bool authorized),
        ("Entitlements", arrayOf NominalType.toJson es), ("ReferencedType", t.toJson)] ++
        s.members
  | .intersection ts s =>
    object <|
      [("Type", string "IntersectionType"), ("Types", arrayOf NominalType.toJson ts)] ++ s.members
  | .restricted t ts s =>
    object <|
      [("Type", string "RestrictedType"), ("RestrictedType", t.toJson),
        ("Restrictions", arrayOf NominalType.toJson ts)] ++ s.members
  | .function ps none s =>
    object <|
      [("Type", string "FunctionType"),
        ("ParameterTypeAnnotations", array (AnnotatedType.toJsons ps)),
        ("ReturnTypeAnnotation", null)] ++ s.members
  | .function ps (some r) s =>
    object <|
      [("Type", string "FunctionType"),
        ("ParameterTypeAnnotations", array (AnnotatedType.toJsons ps)),
        ("ReturnTypeAnnotation", r.toJson)] ++ s.members

/-- A type with its resource marker as an object. It shows only where it starts. -/
def AnnotatedType.toJson : AnnotatedType → Json
  | .mk r t s =>
    object [("IsResource", bool r), ("AnnotatedType", t.toJson), ("StartPos", s.start.toJson)]

/-- A list of types as objects. -/
def AnnotatedType.toJsons : List AnnotatedType → List Json
  | [] => []
  | a :: as => a.toJson :: AnnotatedType.toJsons as

end

/-- A parameter as an object. -/
def Parameter.toJson (p : Parameter) : Json :=
  object <|
    [("Label", string p.label), ("Identifier", p.name.toJson),
      ("TypeAnnotation", p.type.toJson)] ++ p.span.members

/-- A parameter list as an object. -/
def ParameterList.toJson (ps : ParameterList) : Json :=
  object <| [("Parameters", arrayOf Parameter.toJson ps.parameters)] ++ ps.span.members

/-- A body as an object. -/
def Block.toJson (b : Block) : Json :=
  object <| [("Type", string "Block"), ("Source", string b.source)] ++ b.span.members

/-- An access modifier as a string; none is empty. -/
def Access.toJson (a : Option Access) : Json := string ((a.map Access.text).getD "")

/-- An import location as an object. -/
def ImportLocation.toJson : ImportLocation → Json
  | .address s => object [("Type", Json.string "address"), ("Value", Json.string s)]
  | .string s => object [("Type", Json.string "string"), ("Value", Json.string s)]
  | .identifier s => object [("Type", Json.string "identifier"), ("Value", Json.string s)]

/-- An import as an object. -/
def ImportDeclaration.toJson (d : ImportDeclaration) : Json :=
  object <|
    [("Type", string "ImportDeclaration"), ("Identifiers", arrayOf Identifier.toJson d.names),
      ("Location", d.location.toJson)] ++ d.span.members

/-- A pragma as an object. -/
def PragmaDeclaration.toJson (d : PragmaDeclaration) : Json :=
  object <| [("Type", string "PragmaDeclaration"), ("Name", string d.name)] ++ d.span.members

/-- A field as an object. -/
def FieldDeclaration.toJson (d : FieldDeclaration) : Json :=
  object <|
    [("Type", string "FieldDeclaration"), ("Access", Access.toJson d.access),
      ("VariableKind", string d.kind.text), ("Identifier", d.name.toJson),
      ("TypeAnnotation", d.type.toJson)] ++ d.span.members

/-- A function as an object. -/
def FunctionDeclaration.toJson (d : FunctionDeclaration) : Json :=
  object <|
    [("Type", string "FunctionDeclaration"), ("Access", Access.toJson d.access),
      ("Purity", string (if d.isView then "view" else "")), ("Identifier", d.name.toJson),
      ("ParameterList", d.parameters.toJson),
      ("ReturnTypeAnnotation", ofOption AnnotatedType.toJson d.result),
      ("FunctionBlock", ofOption Block.toJson d.body)] ++ d.span.members

/-- A phase of a transaction as an object. -/
def PhaseDeclaration.toJson (d : PhaseDeclaration) : Json :=
  object <|
    [("Type", string "SpecialFunctionDeclaration"),
      ("Kind", string ((d.phase.map Phase.text).getD "")),
      ("ParameterList", ofOption ParameterList.toJson d.parameters),
      ("FunctionBlock", d.body.toJson)] ++ d.span.members

/-- A transaction as an object. -/
def TransactionDeclaration.toJson (d : TransactionDeclaration) : Json :=
  object <|
    [("Type", string "TransactionDeclaration"), ("ParameterList", d.parameters.toJson),
      ("Fields", arrayOf FieldDeclaration.toJson d.fields),
      ("Prepare", ofOption PhaseDeclaration.toJson d.prepare),
      ("PreConditions", ofOption PhaseDeclaration.toJson d.pre),
      ("Execute", ofOption PhaseDeclaration.toJson d.execute),
      ("PostConditions", ofOption PhaseDeclaration.toJson d.post)] ++ d.span.members

/-- A composite or an interface as an object. -/
def CompositeDeclaration.toJson (d : CompositeDeclaration) : Json :=
  object <|
    [("Type", string (if d.isInterface then "InterfaceDeclaration" else "CompositeDeclaration")),
      ("Access", Access.toJson d.access),
      ("CompositeKind", string ((d.kind.map CompositeKind.text).getD "")),
      ("Identifier", d.name.toJson),
      ("Conformances", arrayOf NominalType.toJson d.conformances),
      ("Members", d.body.toJson)] ++ d.span.members

/-- An event as an object. -/
def EventDeclaration.toJson (d : EventDeclaration) : Json :=
  object <|
    [("Type", string "EventDeclaration"), ("Access", Access.toJson d.access),
      ("Identifier", d.name.toJson), ("ParameterList", d.parameters.toJson)] ++ d.span.members

/-- An entitlement as an object. -/
def EntitlementDeclaration.toJson (d : EntitlementDeclaration) : Json :=
  object <|
    [("Type", string "EntitlementDeclaration"), ("Access", Access.toJson d.access),
      ("Identifier", d.name.toJson)] ++ d.span.members

/-- A declaration as an object. -/
def Declaration.toJson : Declaration → Json
  | imports d => d.toJson
  | pragma d => d.toJson
  | transaction d => d.toJson
  | function d => d.toJson
  | composite d => d.toJson
  | event d => d.toJson
  | entitlement d => d.toJson

/-- A program as an object. -/
def Program.toJson (p : Program) : Json :=
  object
    [("Type", string "Program"), ("Declarations", arrayOf Declaration.toJson p.declarations)]

end CadenceEntry
