import CadenceEntry.Proofs.Layout.Insertion

/-!
# Layout does not matter

With white space inserted, or a comment on lines of its own, a text means the same as before: a
program or a type is the same one but for places and for the bodies around the insertion, a program
has the same interaction, and a text that is refused is refused for the same reason, at the place
where its place goes. Only the end of a type text without words has no place of its own.
-/

set_option autoImplicit false

namespace CadenceEntry

open Grammar
open Source (IsBoundary IsWordless)

/-- A derivation at other places is evaluated to the value at other places, or it is refused because
of the same integer literal. -/
theorem Grammar.Derivation.evaluate_of_moved {m : Relocation} {s : Symbol} {d d' : Derivation s}
    {source source' : List Char} (h : d.Moved m.place d')
    (hbodies : ∀ b ∈ d.bodies,
      Block.ofSpan source' (b.relocated m) = (Block.ofSpan source b).relocated m) :
    d'.evaluate source' =
      ((d.evaluate source).map (s.relocated m)).mapError (SyntaxError.moved m.place) := by
  have hinvalid := h.extent.invalid
  unfold evaluate
  cases hd : d.invalidInteger? with
  | none =>
    rw [h.invalidInteger?_eq_none_iff.2 hd]
    exact congrArg Except.ok (value_of_moved h hbodies)
  | some w =>
    rw [hd, Option.map_some, Option.map_eq_some_iff] at hinvalid
    obtain ⟨w', hd', htext⟩ := hinvalid
    rw [hd']
    dsimp only
    rw [Lexeme.spelling, htext]
    rfl

namespace Source

variable {g : Goal} {pre ins post : List Char}

/-- What is read off a text is evaluated with layout inserted as it is without it. -/
theorem evaluate_insert (hboundary : IsBoundary g pre post) (hins : IsLayout ins)
    (hempty : IsWordless g (pre ++ post) → ((Stack.empty g).settle .finish).result? ≠ none) :
    (derive g (pre ++ ins ++ post)).bind (·.evaluate (pre ++ ins ++ post)) =
      (((derive g (pre ++ post)).bind (·.evaluate (pre ++ post))).map
        (Symbol.relocated (.inserting pre ins) (.phrase g.phrase))).mapError
          (SyntaxError.moved (Relocation.inserting pre ins).place) := by
  have hmoved := (derive_insert hboundary hins).1 hempty
  generalize hold : derive g (pre ++ post) = old at hmoved
  generalize derive g (pre ++ ins ++ post) = new at hmoved
  cases hmoved with
  | @ok d d' hd =>
    obtain ⟨h', hreads, -⟩ := derive_eq_ok_iff.1 hold
    exact Derivation.evaluate_of_moved hd fun b hb =>
      Block.ofSpan_inserting ((d.ordered_bodies hreads).within b hb)
  | error e => rfl

/-- A program with layout inserted has the interaction that it has without it. -/
theorem ofProgram_insert (hboundary : IsBoundary .program pre post) (hins : IsLayout ins)
    {p p' : Program} (hp : Program.parse (String.ofList (pre ++ post)) = .ok p)
    (hp' : Program.parse (String.ofList (pre ++ ins ++ post)) = .ok p') (policy : Policy)
    (table : KindTable ScalarKind) :
    Interaction.ofProgram policy table p' = Interaction.ofProgram policy table p := by
  obtain ⟨d, hd, -, rfl⟩ := Program.exists_derive_of_parse hp
  obtain ⟨d', hd', -, rfl⟩ := Program.exists_derive_of_parse hp'
  have hmoved := (derive_insert hboundary hins).1 fun _ => by decide
  rw [String.toList_ofList] at hd hd'
  rw [hd, hd'] at hmoved
  cases hmoved with
  | ok hmoved =>
    refine Interaction.ofProgram_congr ?_ policy table
    exact (d'.unplaced_value _).trans
      ((Derivation.plainValue_of_moved hmoved).trans (d.unplaced_value _).symm)

/-- The end of a type text without words comes too early, and it has no place of its own. -/
theorem derive_of_isWordless {cs : List Char} (h : IsWordless .typeText cs) :
    ∃ expected, derive .typeText cs = .error (.unexpectedEnd expected .origin) := by
  have hread : NextWord.read (Stack.empty .typeText).state (.ofText cs) = .finish := h
  have hresult : ((Stack.empty .typeText).settle .finish).result? = none := by decide
  refine ⟨((Stack.empty .typeText).settle .finish).state.lookaheads, ?_⟩
  rw [derive, deriveFrom_eq, hread]
  dsimp only
  rw [hresult]

/-- A type with layout inserted is the same one but for places, or it is refused as it is without
it, pointing at the place where its place goes. Without words it ends too early in the same place.
-/
theorem parseType_insert (hboundary : IsBoundary .typeText pre post) (hins : IsLayout ins) :
    (¬ IsWordless .typeText (pre ++ post) →
      TypeExpr.parse (String.ofList (pre ++ ins ++ post)) =
        ((TypeExpr.parse (String.ofList (pre ++ post))).map
          (TypeExpr.relocated (.inserting pre ins))).mapError
            (SyntaxError.moved (Relocation.inserting pre ins).place)) ∧
    (IsWordless .typeText (pre ++ post) →
      ∃ e, TypeExpr.parse (String.ofList (pre ++ post)) = .error e ∧ e.place? = some .origin ∧
        TypeExpr.parse (String.ofList (pre ++ ins ++ post)) = .error e) := by
  have hparse : ∀ cs : List Char, TypeExpr.parse (String.ofList cs) =
      ((derive .typeText cs).bind (·.evaluate cs)).map AnnotatedType.type := by
    intro cs
    rw [TypeExpr.parse, AnnotatedType.parse, String.toList_ofList]
    rfl
  rw [hparse, hparse]
  constructor
  · intro hwords
    rw [evaluate_insert hboundary hins fun hwordless => absurd hwordless hwords]
    cases (derive .typeText (pre ++ post)).bind (·.evaluate (pre ++ post)) with
    | error e => rfl
    | ok a =>
      cases a
      rfl
  · intro hwordless
    obtain ⟨expected, hderive⟩ := derive_of_isWordless hwordless
    refine ⟨.unexpectedEnd expected .origin, ?_, rfl, ?_⟩
    · rw [hderive]
      rfl
    · rw [(derive_insert hboundary hins).2 hwordless, hderive]
      rfl

/-- White space, or a comment on lines of its own, can be inserted where a piece of a text ends or
where the first one begins. A program is then the same one but for places and for the bodies around
the insertion, with the same interaction, and so is a type. A text that is refused is refused for
the same reason, pointing at the place where its place goes; only a type text without words ends at
the same place as before, the beginning. -/
theorem parse_of_inserted {pre ins post : String} (hins : IsLayout ins.toList) :
    let m := Relocation.inserting pre.toList ins.toList
    (IsBoundary .program pre.toList post.toList →
      Program.parse (pre ++ ins ++ post) =
        ((Program.parse (pre ++ post)).map (Program.relocated m)).mapError
          (SyntaxError.moved m.place) ∧
      ∀ p, Program.parse (pre ++ post) = .ok p → ∀ policy table,
        Interaction.ofProgram policy table (p.relocated m) =
          Interaction.ofProgram policy table p) ∧
    (IsBoundary .typeText pre.toList post.toList →
      (¬ IsWordless .typeText (pre ++ post).toList →
        TypeExpr.parse (pre ++ ins ++ post) =
          ((TypeExpr.parse (pre ++ post)).map (TypeExpr.relocated m)).mapError
            (SyntaxError.moved m.place)) ∧
      (IsWordless .typeText (pre ++ post).toList →
        ∃ e, TypeExpr.parse (pre ++ post) = .error e ∧ e.place? = some .origin ∧
          TypeExpr.parse (pre ++ ins ++ post) = .error e)) := by
  intro m
  have hold : String.ofList (pre.toList ++ post.toList) = pre ++ post := by
    rw [← String.toList_append, String.ofList_toList]
  have hnew : String.ofList (pre.toList ++ ins.toList ++ post.toList) = pre ++ ins ++ post := by
    rw [← String.toList_append, ← String.toList_append, String.ofList_toList]
  constructor
  · intro hboundary
    have hparse : Program.parse (pre ++ ins ++ post) =
        ((Program.parse (pre ++ post)).map (Program.relocated m)).mapError
          (SyntaxError.moved m.place) := by
      unfold Program.parse
      rw [String.toList_append, String.toList_append, String.toList_append]
      -- no words are a program as well
      exact evaluate_insert hboundary hins fun _ => by decide +kernel
    refine ⟨hparse, ?_⟩
    intro p hp policy table
    rw [hp] at hparse
    rw [← hold] at hp
    rw [← hnew] at hparse
    exact ofProgram_insert hboundary hins hp hparse policy table
  · intro hboundary
    have htype := parseType_insert hboundary hins
    rw [hold, hnew] at htype
    rw [String.toList_append]
    exact htype

/-- A comment that looks like the end of a body. -/
def bracesComment : String := "\n/* \x7d */\n"

/-- A comment is inserted into a body, into a text that is not a type, and into white space. -/
theorem parse_of_inserted_bracesComment :
    IsLayout bracesComment.toList ∧
    (IsBoundary .program "fun main() \x7b".toList "\x7d".toList ∧
      ∃ p, Program.parse ("fun main() \x7b" ++ "\x7d") = .ok p ∧
        Program.parse ("fun main() \x7b" ++ bracesComment ++ "\x7d") =
          .ok (p.relocated (.inserting "fun main() \x7b".toList bracesComment.toList))) ∧
    (IsBoundary .typeText "[Int".toList " x]".toList ∧
      ¬ IsWordless .typeText ("[Int" ++ " x]").toList ∧
      ∃ e, TypeExpr.parse ("[Int" ++ " x]") = .error e ∧
        TypeExpr.parse ("[Int" ++ bracesComment ++ " x]") =
          .error (e.moved (Relocation.inserting "[Int".toList bracesComment.toList).place)) ∧
    IsBoundary .typeText " ".toList "".toList ∧ IsWordless .typeText (" " ++ "").toList ∧
      ∃ e, TypeExpr.parse (" " ++ "") = .error e ∧
        TypeExpr.parse (" " ++ bracesComment ++ "") = .error e := by
  have hcomment : IsComment "/* \x7d */".toList := .inr (by decide +kernel)
  have hins : IsLayout bracesComment.toList := .comment hcomment
  refine ⟨hins, ?_, ?_, ?_⟩
  · have hboundary : IsBoundary .program "fun main() \x7b".toList "\x7d".toList :=
      ⟨7, by decide +kernel⟩
    obtain ⟨p, hp⟩ : ∃ p, Program.parse ("fun main() \x7b" ++ "\x7d") = .ok p :=
      exists_ok_of_isSome (by decide +kernel)
    obtain ⟨hparse, -⟩ := (parse_of_inserted hins).1 hboundary
    rw [hp] at hparse
    exact ⟨hboundary, p, hp, hparse⟩
  · have hboundary : IsBoundary .typeText "[Int".toList " x]".toList := ⟨2, by decide +kernel⟩
    have hwords : ¬ IsWordless .typeText ("[Int" ++ " x]").toList := by decide +kernel
    have hparse := ((parse_of_inserted hins).2 hboundary).1 hwords
    have hnone : (TypeExpr.parse ("[Int" ++ " x]")).toOption.isNone = true := by decide +kernel
    cases h : TypeExpr.parse ("[Int" ++ " x]") with
    | ok t =>
      rw [h] at hnone
      exact absurd hnone (by simp [Except.toOption])
    | error e =>
      rw [h] at hparse
      exact ⟨hboundary, hwords, e, rfl, hparse⟩
  · have hboundary : IsBoundary .typeText " ".toList "".toList := ⟨1, by decide +kernel⟩
    have hwordless : IsWordless .typeText (" " ++ "").toList := by decide +kernel
    obtain ⟨e, he, -, hparse⟩ := ((parse_of_inserted hins).2 hboundary).2 hwordless
    exact ⟨hboundary, hwordless, e, he, hparse⟩

/-- The end of a type text without words stays at the beginning, although this goes to the next line
when a line feed is inserted. -/
theorem parseType_lineFeed_fixed :
    IsLayout "\n".toList ∧ IsBoundary .typeText "".toList "".toList ∧
    ∃ e, TypeExpr.parse ("" ++ "") = .error e ∧ TypeExpr.parse ("" ++ "\n" ++ "") = .error e ∧
      e ≠ e.moved (Relocation.inserting "".toList "\n".toList).place := by
  have hins : IsLayout "\n".toList := .blank (by decide)
  have hboundary : IsBoundary .typeText "".toList "".toList := ⟨0, by decide +kernel⟩
  have hwordless : IsWordless .typeText ("".toList ++ "".toList) := by decide +kernel
  obtain ⟨e, hold, hplace, hnew⟩ := (parseType_insert hboundary hins).2 hwordless
  refine ⟨hins, hboundary, e, hold, hnew, fun hmoved => ?_⟩
  have hplace' := congrArg SyntaxError.place? hmoved
  rw [(SyntaxError.reason_moved _ e).2, hplace] at hplace'
  exact absurd hplace' (by decide +kernel)

end Source

end CadenceEntry
