import CadenceEntry.Proofs.Body.Program
import CadenceEntry.Proofs.Body.Reading
import CadenceEntry.Proofs.Parameters.Agreement
import CadenceEntry.Proofs.ResultType.Words

/-!
# Reading a function with a result

A function without parameters is read at the beginning of a text if the words of its result stand
there and a body comes behind them.
-/

set_option autoImplicit false

namespace CadenceEntry

open Grammar
open Source (Head)

/-- White space before words that are found makes no difference. -/
theorem Laid.blank_append {ws : List (Terminal × Lexeme)} {g cs cs' : List Char} (hg : IsBlank g)
    (hws : ws ≠ []) (h : Laid Findable ws cs cs') : Laid Findable ws (g ++ cs) cs' := by
  obtain ⟨⟨t, w⟩, ws, rfl⟩ := List.exists_cons_of_ne_nil hws
  obtain ⟨g', rest, rfl, hfound, hrest⟩ := h
  refine ⟨g ++ g', rest, by rw [List.append_assoc], fun q p hadmits hname => ?_, hrest⟩
  rw [List.append_assoc, NextWord.read_of_isBlank (c := ⟨p, g ++ (g' ++ (w.text ++ rest))⟩) hg rfl,
    Cursor.advance, List.take_left, List.drop_left, hfound q _ hadmits hname]
  simp only [Position.afterAll_append]

namespace Grammar

/-- Behind the colon of a result the keywords of types are reserved. -/
theorem State.reserves_ninetySix : State.Reserves 96 Terminal.typeWords := by
  have hall : (Terminal.all.all fun k => !WordClass.name.covers k ||
      State.admits 96 (.word k) == Terminal.typeWords.contains k) = true := by
    decide
  intro k hk
  have hadmits := List.all_eq_true.1 hall k k.mem_all
  rw [hk, Bool.not_true, Bool.false_or, beq_iff_eq] at hadmits
  rw [hadmits, List.contains_iff_mem]

/-- Behind the colon of a function its result is awaited, and a brace behind that. -/
theorem State.awaits_result {p : Production} (hp : p.lhs = .annotatedResult) :
    State.Awaits 96 p 0 (.word .leftBrace) := by
  have hexpected : ((State.row 96).expected .annotatedResult).has (.word .leftBrace) = true := by
    decide
  exact .inr ⟨rfl, by rw [hp]; exact hexpected⟩

/-- Where a result is proper its integer literals have values and its names are legible. -/
theorem Derivation.legible_of_proper {d : Derivation (.phrase .annotatedResult)}
    (hproper : d.Proper Terminal.typeWords) : d.invalidInteger? = none ∧ d.Legible 96 96 :=
  ((d.proper_iff rfl (fun _ hp => State.awaits_result (Symbol.phrase.inj hp).symm)
    fun _ => State.reserves_ninetySix).1 hproper).2

/-- A result whose words stand behind the colon is read there. -/
theorem exists_result {d : Derivation (.phrase .annotatedResult)}
    (hproper : d.Proper Terminal.typeWords) {cs cs' : List Char}
    (hlaid : Laid Stands d.words cs cs')
    (place : Position) : ∃ (d' : Derivation (.phrase .annotatedResult)) (h' : Head),
      d'.unplaced = d.unplaced ∧ d'.Reads 96 ⟨96, place, ' ' :: cs⟩ h' ∧ h'.cursor.rest = cs' ∧
        h'.state.admits (.word .leftBrace) = true := by
  have hphrase : ∀ p : Production, Symbol.phrase .annotatedResult = .phrase p.lhs →
      State.Awaits 96 p 0 (.word .leftBrace) :=
    fun p hp => State.awaits_result (Symbol.phrase.inj hp).symm
  have hne : d.words ≠ [] := by
    obtain ⟨t, w, ws, hwords, -⟩ := d.exists_first (by decide)
    rw [hwords]
    exact List.cons_ne_nil _ _
  have hlaid' : Laid Findable d.words (' ' :: cs) cs' :=
    (hlaid.mono fun _ _ _ _ => Stands.findable).blank_append (g := [' ']) (by decide) hne
  have hadmits : State.admits 96 (Lookahead.next d.words (.word .leftBrace)) = true :=
    d.admits_next (fun t ht => absurd ht (by simp)) hphrase
  obtain ⟨d', h', hd', hreads, -, hrest, hbrace⟩ :=
    d.exists_reads (c := ⟨place, ' ' :: cs⟩) hlaid' (Derivation.legible_of_proper hproper).2 hadmits
      (fun t ht => absurd ht (by simp)) hphrase
  exact ⟨d', h', hd', hreads, hrest, hbrace⟩

end Grammar

/-- A function without parameters with a result, up to the brace that opens its body. -/
def functionHead : String := "fun f(): "

/-- The function with the result `a` and some body, without places. -/
def FunctionDeclaration.returning (a : AnnotatedType) : FunctionDeclaration :=
  { name := ⟨"f", {}⟩, result := some a, body := some {} }

/-- The words of `functionHead` read at the beginning of a text, with `cs` behind them. -/
structure FunctionHead (cs : List Char) where
  /-- The place behind the colon. -/
  place : Position
  place_eq : place = Position.origin.afterAll "fun f():".toList
  /-- The function with a result and a body. -/
  build : Derivation (.phrase .annotatedResult) → Derivation (.phrase .block) →
    Derivation (.phrase .functionDeclaration)
  reads : ∀ {d b} {h h' : Head}, d.Reads 96 ⟨96, place, ' ' :: cs⟩ h → b.Reads 97 h h' →
    (build d b).Reads 0 ⟨0, .ofText (functionHead.toList ++ cs)⟩ h'
  valid : ∀ {d b}, d.invalidInteger? = none → b.invalidInteger? = none →
    (build d b).invalidInteger? = none
  plainValue_build : ∀ d b,
    (build d b).plainValue = FunctionDeclaration.returning d.plainValue
  body_build : ∀ d b source,
    FunctionDeclaration.body ((build d b).value source) = some (b.value source)

/-- The header of a function is read at the beginning of a text. -/
theorem exists_functionHead (cs : List Char) : Nonempty (FunctionHead cs) := by
  have htext : functionHead.toList ++ cs =
      "fun".toList ++ ([' '] ++ ("f".toList ++ ('(' :: ')' :: ':' :: ' ' :: cs))) := by
    simp [functionHead]
  have hfun :
      Terminal.funWord.Stops ([' '] ++ ("f".toList ++ ('(' :: ')' :: ':' :: ' ' :: cs))) := by
    intro y hy
    rw [← Option.some.inj hy]
    rfl
  have hname : Terminal.name.Stops ('(' :: ')' :: ':' :: ' ' :: cs) := by
    intro y hy
    rw [← Option.some.inj hy]
    rfl
  obtain ⟨p₁, p₂, hf⟩ := exists_word (q := 0) (t := .funWord) rfl (g := []) (w := "fun".toList)
    (by decide) (by decide) (fun h => absurd h (by decide)) hfun .origin
  obtain ⟨p₃, p₄, hn⟩ := exists_word (q := 93) (t := .name) rfl (g := [' ']) (w := "f".toList)
    (by decide) (by decide) (fun _ => by decide) hname p₂
  obtain ⟨p₅, p₆, ho⟩ := exists_mark (q := 94) (t := .leftParen) (x := '(') rfl rfl rfl (by decide)
    p₄ (')' :: ':' :: ' ' :: cs)
  obtain ⟨p₇, p₈, hc⟩ := exists_mark (q := 163) (t := .rightParen) (x := ')') rfl rfl rfl
    (by decide) p₆ (':' :: ' ' :: cs)
  have hadmits : State.admits 168 (.word .colon) = true := by decide
  have hcolon : Head.Finds ⟨168, p₈, ':' :: ' ' :: cs⟩ .colon [':'] (' ' :: cs) :=
    .of_matches (List.nil_append _).symm (by decide) hadmits (by decide)
      (fun h => absurd h (by decide)) fun _ _ => rfl
  obtain ⟨p₉, place, hk⟩ := hcolon.exists_leaf (show (State.row 95).move? _ = some 96 from rfl)
  let f := Derivation.leaf .funWord ⟨"fun".toList, p₁⟩
  let n := Derivation.leaf .name ⟨"f".toList, p₃⟩
  let ps : Derivation (.phrase .parameterList) := .node .parametersNone
    (.cons (.leaf .leftParen ⟨['('], p₅⟩) (.cons (.leaf .rightParen ⟨[')'], p₇⟩) .nil))
  let k := Derivation.leaf .colon ⟨[':'], p₉⟩
  have hps : ps.Reads 94 ⟨94, p₄, '(' :: ')' :: ':' :: ' ' :: cs⟩ ⟨168, p₈, ':' :: ' ' :: cs⟩ :=
    ⟨_, 163, ho, rfl, _, 168, hc, rfl, rfl⟩
  have hhead : (Derivations.cons f (.cons n (.cons ps (.cons k .nil)))).Reads 0
      ⟨0, .ofText (functionHead.toList ++ cs)⟩ ⟨96, place, ' ' :: cs⟩ := by
    rw [htext]
    exact ⟨_, 93, hf, rfl, _, 94, hn, rfl, _, 95, hps, rfl, _, 96, hk, rfl, rfl⟩
  have hplace : place = Position.origin.afterAll "fun f():".toList := by
    obtain ⟨ss, ⟨hrest, hplace, -⟩, -⟩ := Derivations.exists_segments _ hhead
    have hjoin : Segment.join ss = "fun f():".toList := by
      have hsplit : "fun f():".toList ++ ' ' :: cs = Segment.join ss ++ ' ' :: cs := by
        rw [← hrest]
        simp [functionHead, Cursor.ofText]
      exact (List.append_cancel_right hsplit).symm
    rw [← hjoin]
    exact hplace
  refine ⟨place, hplace, fun d b => .node .functionResult
    (.cons f (.cons n (.cons ps (.cons k (.cons d (.cons b .nil)))))), ?_, ?_, ?_, ?_⟩
  · intro d b h h' hd hb
    rw [htext]
    exact ⟨_, 93, hf, rfl, _, 94, hn, rfl, _, 95, hps, rfl, _, 96, hk, rfl, h, 97, hd, rfl,
      h', 98, hb, rfl, rfl⟩
  · intro d b hd hb
    exact (Derivations.invalidInteger?_cons _ _).2 ⟨rfl,
      (Derivations.invalidInteger?_cons _ _).2 ⟨rfl,
        (Derivations.invalidInteger?_cons _ _).2 ⟨rfl,
          (Derivations.invalidInteger?_cons _ _).2 ⟨rfl,
            (Derivations.invalidInteger?_cons _ _).2 ⟨hd,
              (Derivations.invalidInteger?_cons _ _).2 ⟨hb, rfl⟩⟩⟩⟩⟩⟩
  · intro d b
    have hbody : b.plainValue = ({} : Block) := b.plainValue_block
    exact congrArg (fun b => FunctionDeclaration.mk none false ⟨"f", {}⟩ {} (some d.plainValue)
      (some b) {}) hbody
  · intro d b source
    rfl

/-- A body that is read as far as a scan goes is the text that the scan has gone through. -/
theorem Grammar.Derivation.source_of_block {b : Derivation (.phrase .block)} {p : Position}
    {pre r : List Char} {m : Nat} {c : Cursor} (hc : c = ⟨p.afterAll ['\x7b'], r⟩)
    (hp : p.offset = pre.length) (hfirst : b.first? = some ⟨['\x7b'], p⟩)
    (hlast : b.last? = some ⟨['\x7d'], (c.advance m).place⟩)
    (hplace : (c.advance (m + 1)).place = (c.advance m).place.afterAll ['\x7d']) :
    Block.source (b.value (pre ++ '\x7b' :: r)) = "\x7b" ++ String.ofList (r.take (m + 1)) := by
  subst hc
  have hspan : b.span = ⟨p, ((Cursor.mk (p.afterAll ['\x7b']) r).advance m).place⟩ := by
    rw [Derivation.span, hfirst, hlast]
    rfl
  rw [b.value_block, hspan]
  refine Block.source_ofSpan hp ?_
  have hoffset := congrArg Position.offset hplace
  simp only [Cursor.advance, Position.offset_afterAll, List.length_take, List.length_singleton, hp]
    at hoffset ⊢
  omega

/-- A function is read if its result stands behind the colon and a body comes behind the result. Its
body is the text that the scan goes through. -/
theorem Grammar.exists_function {d : Derivation (.phrase .annotatedResult)}
    (hproper : d.Proper Terminal.typeWords) {cs g r : List Char}
    (hlaid : Laid Stands d.words cs (g ++ '\x7b' :: r)) (hopen : Findable .leftBrace g ['\x7b'] r)
    {n : Nat} (hscan : scanBody .code 1 r = some n) :
    ∃ (d' : Derivation (.phrase .functionDeclaration)) (q : State) (p : Position),
      (q = 181 ∨ q = 182) ∧ d'.invalidInteger? = none ∧
      d'.Reads 0 ⟨0, .ofText (functionHead.toList ++ cs)⟩ ⟨q, p, r.drop n⟩ ∧
      d'.plainValue = FunctionDeclaration.returning d.plainValue ∧
      ∃ b, FunctionDeclaration.body (d'.value (functionHead.toList ++ cs)) = some b ∧
        b.source = "\x7b" ++ String.ofList (r.take n) := by
  obtain ⟨head⟩ := exists_functionHead cs
  obtain ⟨d₁, h₁, hd₁, hreads, hrest, hadmits⟩ := exists_result hproper hlaid head.place
  obtain ⟨ss, ⟨hbefore, hplace₁, -⟩, -⟩ := d₁.exists_segments hreads
  have hread : NextWord.read h₁.state h₁.cursor =
      .word .leftBrace ⟨['\x7b'], h₁.cursor.place.afterAll g⟩
      ⟨h₁.cursor.place.afterAll (g ++ ['\x7b']), r⟩ := by
    have h := hopen h₁.state h₁.cursor.place hadmits (fun h => absurd h (by decide))
    rwa [List.singleton_append, ← hrest] at h
  obtain ⟨b, q, m, hq, hm, hlast, hvalid, hfirst, hlast', hb⟩ :=
    exists_block_of_scanBody hread hscan (show (State.row 97).move? _ = some 179 from rfl)
  have hinteger : d₁.invalidInteger? = none := by
    rw [← d₁.invalidInteger?_unplaced, hd₁, d.invalidInteger?_unplaced]
    exact (Derivation.legible_of_proper hproper).1
  refine ⟨head.build d₁ b, q, _, hq, head.valid hinteger hvalid, head.reads hreads hb, ?_, _,
    head.body_build d₁ b _, ?_⟩
  · rw [head.plainValue_build, ← d₁.plainValue_unplaced, hd₁, d.plainValue_unplaced]
  · -- the body begins behind what is read before it
    have hpre : functionHead.toList ++ cs =
        ("fun f():".toList ++ Segment.join ss ++ g) ++ '\x7b' :: r := by
      rw [hrest] at hbefore
      rw [List.append_assoc, List.append_assoc, ← hbefore]
      simp [functionHead]
    have hstart : (h₁.cursor.place.afterAll g).offset =
        ("fun f():".toList ++ Segment.join ss ++ g).length := by
      rw [hplace₁, head.place_eq, ← Position.afterAll_append, ← Position.afterAll_append,
        Position.offset_afterAll]
      exact Nat.zero_add _
    subst hm
    rw [hpre]
    exact Derivation.source_of_block (by rw [Position.afterAll_append]) hstart hfirst hlast' hlast

end CadenceEntry
