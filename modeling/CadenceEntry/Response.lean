import CadenceEntry.Configuration.Basic
import CadenceEntry.Interaction.Document
import CadenceEntry.Interaction.Outline
import CadenceEntry.Syntax.Document
import CadenceEntry.Syntax.Parse

/-!
# Responses

The response to a source text holds the interaction with the program, the program itself unless the
configuration leaves it out, and an error if there is no interaction. A text that is no program gets
nothing but an error.
-/

set_option autoImplicit false

namespace CadenceEntry

/-- The answer to a source text. -/
structure Response (ρ : Type) where
  interaction : Option (Interaction ρ) := none
  program : Option Program := none
  error : String := ""

namespace Response

/-- The response to a program. -/
def ofProgram (c : Configuration Bool) (p : Program) : Response String :=
  let shown := if c.includeProgram then some p else none
  match Interaction.ofProgram c.entryPoints c.kindTable p with
  | .ok i => { interaction := some i, program := shown }
  | .error e => { program := shown, error := e.message }

/-- The response to a source text. -/
def ofSource (c : Configuration Bool) (source : String) : Response String :=
  match Program.parse source with
  | .ok p => ofProgram c p
  | .error e => { error := e.message }

/-- A response with other raw types. -/
def map {ρ σ : Type} (f : ρ → σ) (r : Response ρ) : Response σ :=
  ⟨r.interaction.map (·.map f), r.program, r.error⟩

/-- A response as an object. -/
def toJson (r : Response Json) : Json :=
  .object
    [("interaction", Json.ofOption Interaction.toJson r.interaction),
      ("program", Json.ofOption Program.toJson r.program), ("error", .string r.error)]

/-- The text of a response: the error, if there is one, or the interaction. -/
def text? (r : Response String) : Option String :=
  if r.error.isEmpty then
    match r.interaction with
    | none => some "No interaction."
    | some i => i.text?
  else some ("Error: " ++ r.error)

end Response

namespace Event

/-- What is reported while a policy chooses from candidates of a kind. -/
def ofChoice {α : Type} (policy : Policy) (kind : EntryPointKind) (candidates : List α) :
    List Event :=
  if policy = .last ∧ 1 < candidates.length then [lastChosen kind candidates.length] else []

/-- What is reported while the entry point of a program is looked for. -/
def ofEntryPoint (policy : Policy) (p : Program) : List Event :=
  if p.transactions.isEmpty then ofChoice policy .main p.mains
  else ofChoice policy .transaction p.transactions

/-- What is reported while a program is classified. -/
def ofProgram (c : Configuration Bool) (p : Program) : List Event :=
  match p.entryPoint c.entryPoints with
  | .error e => [classificationFailed e.message]
  | .ok e? =>
    let types := Interaction.parameterTypes e?
    ofEntryPoint c.entryPoints p ++
      (types.flatMap (Descriptor.unclassified c.kindTable)).map unclassified ++
      [classified (Interaction.kindOf e?) types.length]

/-- What is reported while the response to a source text is found. -/
def ofSource (c : Configuration Bool) (source : String) : List Event :=
  match Program.parse source with
  | .error e => [parseFailed e.reason]
  | .ok p => parsed p.declarations.length :: ofProgram c p

end Event

end CadenceEntry
