import CadenceEntry.Text.DecimalDigit

/-!
# Options

The words of a command line are options, operands, or the separator after which everything is an
operand. An option is called by one of its names or by the beginning of a long name that is the
beginning of no other. Short options can be joined in one word, and the value of an option can be
joined to it.
-/

set_option autoImplicit false

namespace CadenceEntry.CommandLine

/-- An option: its names and whether it takes a value. -/
structure OptionSpec (α : Type) where
  option : α
  names : List String
  takesValue : Bool
  deriving Repr

/-- How messages call an option. -/
def OptionSpec.label {α : Type} (o : OptionSpec α) : String := "/".intercalate o.names

/-- What is wrong with the options of a command line. -/
inductive OptionFault where
  | ambiguous (word : String) (names : List String)
  | unusedValue (label value : String)
  | missingValue (label : String)
  deriving DecidableEq, Repr

/-- An option as it is called: by which name, and with what joined to it, after an equals sign or
not. -/
structure Call (α : Type) where
  spec : OptionSpec α
  name : String
  joined : Option (Bool × List Char) := none

/-- What a word of a command line is. -/
inductive Word (α : Type) where
  | option (text : String) (call : Call α)
  | unknown (text : String)
  | operand (text : String)
  | separator

/-- The text of a word. -/
def Word.text {α : Type} : Word α → String
  | option s _ | unknown s | operand s => s
  | separator => "--"

variable {α : Type}

/-- The option with a name. -/
def named? (specs : List (OptionSpec α)) (name : String) : Option (OptionSpec α) :=
  specs.find? fun o => o.names.contains name

/-- Whether a text is a negative number, which is no option. -/
def isNegativeNumber (cs : List Char) : Bool :=
  let isDigit (c : Char) : Bool := (Text.decimalDigit? c).isSome
  match if cs.getLast? == some '\n' then cs.dropLast else cs with
  | '-' :: ds =>
    let fraction := ds.dropWhile isDigit
    match fraction with
    | [] => !ds.isEmpty
    | '.' :: fraction => !fraction.isEmpty && fraction.all isDigit
    | _ => false
  | _ => false

/-- The ways in which a word that is no name calls an option. A word with two dashes is the
beginning of a name, up to an equals sign; another one is the beginning of a name, or a short name
with something joined to it. -/
def abbreviated (specs : List (OptionSpec α)) (word : List Char) : List (Call α) :=
  let names := specs.flatMap fun o => o.names.map (o, ·)
  if word.take 2 = ['-', '-'] then
    let start := word.takeWhile (· != '=')
    let joined := (word.dropWhile (· != '=')).tail?.map (true, ·)
    (names.filter fun n => start.isPrefixOf n.2.toList).map fun n => ⟨n.1, n.2, joined⟩
  else
    names.filterMap fun n =>
      if n.2.toList = word.take 2 then some ⟨n.1, n.2, some (false, word.drop 2)⟩
      else if word.isPrefixOf n.2.toList then some ⟨n.1, n.2, none⟩
      else none

/-- What a word in front of any separator is. -/
def wordOf (specs : List (OptionSpec α)) (text : String) : Except OptionFault (Word α) :=
  let cs := text.toList
  match cs with
  | '-' :: _ :: _ =>
    let start := cs.takeWhile (· != '=')
    match named? specs text, named? specs (String.ofList start), abbreviated specs cs with
    | some o, _, _ => .ok (.option text ⟨o, text, none⟩)
    | none, some o, _ =>
      .ok (.option text ⟨o, String.ofList start, some (true, cs.drop (start.length + 1))⟩)
    | none, none, [c] => .ok (.option text c)
    | none, none, [] =>
      .ok (if isNegativeNumber cs || cs.contains ' ' then .operand text else .unknown text)
    | none, none, calls => .error (.ambiguous text (calls.map Call.name))
  | _ => .ok (.operand text)

/-- What the words of a command line are. -/
def wordsOf (specs : List (OptionSpec α)) : List String → Except OptionFault (List (Word α))
  | [] => .ok []
  | text :: texts =>
    if text = "--" then .ok (.separator :: texts.map .operand)
    else do
      let w ← wordOf specs text
      let ws ← wordsOf specs texts
      pure (w :: ws)

/-- The options that one word calls: those with what they need, one that still needs a value or
nothing from the words after it, and a rest that calls no option. -/
structure Calls (α : Type) where
  complete : List (α × Option String) := []
  last : Option (OptionSpec α) := none
  rest : Option String := none

/-- The options that are joined to a call: a value, or more short options. -/
def joinedCalls (specs : List (OptionSpec α)) (spec : OptionSpec α) (isShort hasEquals : Bool) :
    List Char → Except OptionFault (Calls α)
  | [] =>
    if spec.takesValue then .ok { complete := [(spec.option, some "")] }
    else .error (.unusedValue spec.label "")
  | c :: cs =>
    let value := String.ofList (c :: cs)
    if spec.takesValue then .ok { complete := [(spec.option, some value)] }
    else if !isShort || hasEquals || c == '-' then .error (.unusedValue spec.label value)
    else
      match named? specs (String.ofList ['-', c]) with
      | none => .ok { complete := [(spec.option, none)], rest := some ("-" ++ value) }
      | some next =>
        match cs with
        | [] => .ok { complete := [(spec.option, none)], last := some next }
        | '=' :: ds => do
          let more ← joinedCalls specs next true true ds
          pure { more with complete := (spec.option, none) :: more.complete }
        | d :: ds => do
          let more ← joinedCalls specs next true false (d :: ds)
          pure { more with complete := (spec.option, none) :: more.complete }

/-- The options that a call stands for. -/
def callsOf (specs : List (OptionSpec α)) (c : Call α) : Except OptionFault (Calls α) :=
  match c.joined with
  | none => .ok { last := some c.spec }
  | some (hasEquals, cs) =>
    joinedCalls specs c.spec (!"--".toList.isPrefixOf c.name.toList) hasEquals cs

/-- The options that a call stands for with their values, the rest that calls no option, and whether
the first of the following words is the value of the last option. -/
def optionsOf (specs : List (OptionSpec α)) (c : Call α) (following : List (Word α)) :
    Except OptionFault (List (α × Option String) × Option String × Bool) := do
  let calls ← callsOf specs c
  match calls.last with
  | none => return (calls.complete, calls.rest, false)
  | some o =>
    if o.takesValue then
      match following with
      | .operand v :: _ => return (calls.complete ++ [(o.option, some v)], none, true)
      | _ => throw (.missingValue o.label)
    else return (calls.complete ++ [(o.option, none)], none, false)

end CadenceEntry.CommandLine
