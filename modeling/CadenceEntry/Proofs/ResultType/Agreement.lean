import CadenceEntry.Proofs.Body.Replacement
import CadenceEntry.Proofs.ResultType.Restrictions

/-!
# The two copies of the type syntax agree

The text of a type can be written as the result of a function, with a body behind a line feed. If no
restriction list stands outside of all brackets in it, this is a program of one function with this
result. Otherwise the first such list is taken for the body of the function, and what comes behind
it is no declaration.
-/

set_option autoImplicit false

namespace CadenceEntry

open Grammar

namespace TypeText

/-- The words of a text that is a type. -/
def words (text : String) : List (Terminal × Lexeme) :=
  match Source.derive .typeText text.toList with
  | .ok d => d.words
  | .error _ => []

/-- Whether the text of a type begins with a resource marker. -/
def isMarked (text : String) : Bool := (words text).head?.map Prod.fst == some .atSign

/-- Whether a restriction list stands outside of all brackets in the text of a type: a brace comes
right behind a type name, and no bracket is open. -/
def restrictsOutside (text : String) : Bool := (WordPlace.behindAll? {} (words text)).isNone

end TypeText

/-- A function with the result `type` and the body `body`, and nothing else. -/
def Program.functionText (type body : String) : String := functionHead ++ type ++ "\n" ++ body

namespace Grammar

/-- What a type with or without a resource marker means, by its first word. -/
theorem Derivation.plainValue_annotatedType (d : Derivation (.phrase .annotatedType)) :
    ∃ t, d.plainValue = AnnotatedType.mk (d.words.head?.map Prod.fst == some .atSign) t {} := by
  rcases d.annotatedType_cases with ⟨w, d₁, rfl⟩ | ⟨d₁, rfl⟩
  · exact ⟨d₁.plainValue, rfl⟩
  · obtain ⟨t, w, ws, hwords, ht⟩ := d₁.exists_first (by decide)
    have hmarked : ((d₁.words ++ []).head?.map Prod.fst == some Terminal.atSign) = false := by
      rw [hwords]
      refine beq_eq_false_iff_ne.2 fun heq => ?_
      obtain rfl : t = .atSign := Option.some.inj heq
      exact absurd ht (by decide +kernel)
    exact ⟨d₁.plainValue, congrArg (AnnotatedType.mk · d₁.plainValue {}) hmarked.symm⟩

/-- A type that has been read is marked as its first word says. -/
theorem Derivation.unplaced_annotation (d : Derivation (.phrase .annotatedType))
    {a : AnnotatedType} (ha : a.unplaced = d.plainValue) :
    d.plainValue =
      AnnotatedType.mk (d.words.head?.map Prod.fst == some .atSign) a.type.unplaced {} := by
  obtain ⟨t, ht⟩ := d.plainValue_annotatedType
  cases a with
  | mk m u s =>
    have heq := ha.trans ht
    rw [AnnotatedType.unplaced] at heq
    obtain ⟨-, rfl, -⟩ := AnnotatedType.mk.inj heq
    exact ht

end Grammar

section

variable {d : Derivation (.phrase .annotatedResult)} {cs y z : List Char} {text : String}

/-- Behind the last word of a type, and a line feed, a brace is found. -/
theorem findable_brace (hfinish : ∀ q p, NextWord.read q ⟨p, y⟩ = .finish) :
    Findable .leftBrace (y ++ ['\n']) ['\x7b'] z := by
  intro q p hadmits hname
  have hbrace := NextWord.read_of_matches (q := q) (c := ⟨p.afterAll (y ++ ['\n']), '\x7b' :: z⟩)
    (g := []) rfl (by decide) hadmits (by decide) hname fun _ _ => rfl
  rw [List.append_assoc]
  refine (NextWord.read_of_finish_append (hfinish q p) ('\x7b' :: z)).trans (hbrace.trans ?_)
  simp only [Position.afterAll_append]
  rfl

/-- A result with a body behind a line feed is that of a function. -/
theorem Program.exists_of_result (hproper : d.Proper Terminal.typeWords)
    (hlaid : Laid Stands d.words cs (y ++ '\n' :: '\x7b' :: z))
    (hfinish : ∀ q p, NextWord.read q ⟨p, y⟩ = .finish)
    (hscan : scanBody .code 1 z = some z.length)
    (htext : text.toList = functionHead.toList ++ cs) :
    ∃ (p : Program) (f : FunctionDeclaration), Program.parse text = .ok p ∧
      p.declarations = [.function f] ∧ f.unplaced = .returning d.plainValue ∧
      f.body.map Block.source = some (String.ofList ('\x7b' :: z)) := by
  have hlaid' : Laid Stands d.words cs ((y ++ ['\n']) ++ '\x7b' :: z) := by
    rw [List.append_assoc]
    exact hlaid
  obtain ⟨f, q, p, -, hvalid, hreads, hvalue, b, hbody, hsource⟩ :=
    exists_function hproper hlaid' (findable_brace hfinish) hscan
  rw [← htext] at hreads hbody
  rw [List.drop_length] at hreads
  rw [List.take_length] at hsource
  have hparse := Program.parse_of_declaration (d := .node .declarationFunction (.cons f .nil))
    ⟨_, 11, hreads, rfl, rfl⟩ ((Derivations.invalidInteger?_cons _ _).2 ⟨hvalid, rfl⟩)
  refine ⟨_, f.value text.toList, hparse, rfl, ?_, ?_⟩
  · rw [← hvalue]
    exact f.unplaced_value text.toList
  · rw [hbody, Option.map_some, hsource, ← List.singleton_append, String.ofList_append]

/-- A restriction list behind a result is taken for a body, and what comes behind it is refused. -/
theorem Program.exists_error_of_restriction (hproper : d.Proper Terminal.typeWords) {l r : Lexeme}
    {inner rest : List (Terminal × Lexeme)}
    (hlaid : Laid Stands (d.words ++ (.leftBrace, l) :: (inner ++ (.rightBrace, r) :: rest)) cs
      (y ++ '\n' :: '\x7b' :: z))
    (hinner : ∀ x ∈ inner, x.1 ∈ Terminal.listWords) (hrest : ∀ x ∈ rest, x.1 = .question)
    (hfinish : ∀ q p, NextWord.read q ⟨p, y⟩ = .finish)
    (htext : text.toList = functionHead.toList ++ cs) : ∃ e, Program.parse text = .error e := by
  obtain ⟨cs₁, hresult, g, cs₂, rfl, hstands, hlist⟩ := laid_append.1 hlaid
  obtain ⟨n, hscan, hbehind⟩ := hlist.exists_scanBody hinner
  have hbrace : l.text = ['\x7b'] := (Option.some.inj hstands.isWord).symm
  have hopen := hstands.findable
  rw [hbrace] at hopen
  rw [hbrace, List.singleton_append] at hresult
  obtain ⟨f, q, p, hq, -, hreads, -, -⟩ := exists_function hproper hresult hopen hscan
  rw [← htext] at hreads
  refine exists_error_of_refused hreads hq ?_
  cases rest with
  | nil =>
    -- the brace of the body comes next
    have heq : y ++ '\n' :: '\x7b' :: z = cs₂.drop n := hbehind
    rw [← heq]
    intro q p hq
    obtain ⟨c, hc⟩ := refused_cons (.inr rfl) z q (p.afterAll (y ++ ['\n'])) hq
    exact ⟨c, (NextWord.read_of_finish_append (hfinish q p) ('\x7b' :: z)).trans hc⟩
  | cons x rest =>
    -- a question mark comes next
    obtain ⟨t, w⟩ := x
    obtain rfl : t = .question := hrest (t, w) List.mem_cons_self
    exact hbehind.refused

end

namespace Program

/-- The text of a type, behind the header of a function and with a body behind a line feed. If no
restriction list stands outside of all brackets in it, this is a program of one function. Its result
is the type with the resource marker that is written, and its body is the one that is written.
Otherwise this is no program. -/
theorem parse_functionText {type body : String} {t : TypeExpr} (ht : TypeExpr.parse type = .ok t)
    (hbody : IsBody body.toList) :
    (TypeText.restrictsOutside type = false →
      ∃ (p : Program) (f : FunctionDeclaration), Program.parse (functionText type body) = .ok p ∧
        p.declarations = [.function f] ∧
        f.unplaced = .returning (.mk (TypeText.isMarked type) t.unplaced {}) ∧
        f.body.map Block.source = some body) ∧
    (TypeText.restrictsOutside type = true →
      ∃ e, Program.parse (functionText type body) = .error e) := by
  obtain ⟨d, hderive, hvalid, rfl⟩ := TypeExpr.parse_eq_ok_iff.1 ht
  obtain ⟨z, hz, hscan⟩ := hbody
  have hproper := Source.proper_of_derive hderive hvalid
  obtain ⟨⟨q, p, y⟩, hreads, hfinish⟩ := Source.derive_eq_ok_iff.1 hderive
  obtain ⟨d₁, rfl⟩ := d.exists_annotatedType
  obtain ⟨h₁, q₁, hd₁, -, rfl⟩ := hreads
  have hwords : TypeText.words type = d₁.words := by
    rw [TypeText.words, hderive]
    exact List.append_nil d₁.words
  have htext : (functionText type body).toList =
      functionHead.toList ++ (type.toList ++ '\n' :: '\x7b' :: z) := by
    simp [functionText, hz]
  -- the words of the type stand where they are read, and nothing that counts is left behind them
  have hstart : (State.row Goal.typeText.start).readsTypes = true := by decide
  have hlaid := (d₁.laid_of_reads rfl hstart hstart
    (d₁.reads_before_lineFeed hd₁ ('\x7b' :: z))).1
  have hfinish' := fun q' p' => NextWord.finish_elsewhere hfinish q' p'
  have hvalue := d₁.unplaced_annotation (d₁.unplaced_value type.toList)
  rw [← hwords] at hvalue
  have hsource : String.ofList ('\x7b' :: z) = body := by
    rw [← hz, String.ofList_toList]
  cases d₁.mirrors _ hproper.1 with
  | whole d' hproper' hwords' hvalue' name hbehind =>
    have hfree : TypeText.restrictsOutside type = false := by
      rw [TypeText.restrictsOutside, hwords, hbehind]
      rfl
    rw [hfree]
    refine ⟨fun _ => ?_, fun h => absurd h (by decide)⟩
    rw [← hwords'] at hlaid
    obtain ⟨P, f, hparse, hdeclarations, hf, hb⟩ :=
      Program.exists_of_result hproper' hlaid hfinish' hscan htext
    refine ⟨P, f, hparse, hdeclarations, ?_, hb.trans (congrArg some hsource)⟩
    rw [hf, hvalue']
    exact congrArg FunctionDeclaration.returning hvalue
  | restricted d' hproper' l r inner rest hwords' hinner hrest hbehind =>
    have hrestricts : TypeText.restrictsOutside type = true := by
      rw [TypeText.restrictsOutside, hwords, hbehind]
      rfl
    rw [hrestricts]
    refine ⟨fun h => absurd h (by decide), fun _ => ?_⟩
    rw [hwords'] at hlaid
    exact Program.exists_error_of_restriction hproper' hlaid hinner hrest hfinish' htext

/-- A restriction list in a dictionary, with a comment behind the type. -/
def restrictionWithin : String := "@\x7bString: A\x7bB\x7d\x7d? // \x7b"

/-- A restriction list behind the ampersand of a reference. -/
def restrictionOutside : String := "&A\x7bB, C.D\x7d?"

/-- The dictionary is a result, the reference is not. -/
theorem parse_functionText_restrictions : IsBody "\x7b return \x7b\x7d \x7d".toList ∧
    (∃ t : TypeExpr, TypeExpr.parse restrictionWithin = .ok t ∧
      TypeText.restrictsOutside restrictionWithin = false ∧
      ∃ (p : Program) (f : FunctionDeclaration),
        Program.parse (functionText restrictionWithin "\x7b return \x7b\x7d \x7d") = .ok p ∧
        p.declarations = [.function f] ∧
        f.unplaced = .returning (.mk (TypeText.isMarked restrictionWithin) t.unplaced {}) ∧
        f.body.map Block.source = some "\x7b return \x7b\x7d \x7d") ∧
    ∃ t : TypeExpr, TypeExpr.parse restrictionOutside = .ok t ∧
      TypeText.restrictsOutside restrictionOutside = true ∧
      ∃ e, Program.parse (functionText restrictionOutside "\x7b return \x7b\x7d \x7d") =
        .error e := by
  have hbody : IsBody "\x7b return \x7b\x7d \x7d".toList :=
    ⟨" return \x7b\x7d \x7d".toList, by decide, by decide⟩
  obtain ⟨t, ht⟩ : ∃ t, TypeExpr.parse restrictionWithin = .ok t :=
    exists_ok_of_isSome (by decide +kernel)
  obtain ⟨u, hu⟩ : ∃ u, TypeExpr.parse restrictionOutside = .ok u :=
    exists_ok_of_isSome (by decide +kernel)
  have hwithin : TypeText.restrictsOutside restrictionWithin = false := by decide +kernel
  have houtside : TypeText.restrictsOutside restrictionOutside = true := by decide +kernel
  exact ⟨hbody, ⟨t, ht, hwithin, (parse_functionText ht hbody).1 hwithin⟩,
    ⟨u, hu, houtside, (parse_functionText hu hbody).2 houtside⟩⟩

end Program

end CadenceEntry
