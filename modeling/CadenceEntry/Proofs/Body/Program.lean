import CadenceEntry.Proofs.Body.FirstBody
import CadenceEntry.Proofs.Syntax.Soundness

/-!
# Programs that begin with a body

Behind a header and the brace that opens a body, a text is a program only if a scan finds the end of
the body, and then exactly if it is one with an empty body instead. The body of the first
declaration goes as far as the scan did.
-/

set_option autoImplicit false

namespace CadenceEntry

open Grammar Grammar.Stack Source

/-- A text is a program if what is derived from it has a value. -/
theorem Program.exists_parse_iff (text : String) :
    (∃ p, Program.parse text = .ok p) ↔ Accepts (derive .program text.toList) := by
  constructor
  · rintro ⟨p, hp⟩
    obtain ⟨d, hd, hvalid, -⟩ := Program.exists_derive_of_parse hp
    exact ⟨d, hd, hvalid⟩
  · rintro ⟨d, hd, hvalid⟩
    exact ⟨_, Program.parse_of_derive hd hvalid⟩

namespace BodyHeader

variable {h : BodyHeader} {k k₀ : Stack .program} {w : Lexeme}

/-- Behind a header the text of a body is read as far as the scan goes. -/
theorem Leads.ends (hleads : h.Leads k k₀ w) (cs : List Char) :
    ∃ last, derive .program (h.text.toList ++ '\x7b' :: cs) =
        deriveFrom k₀ last ⟨Position.origin.afterAll (h.text.toList ++ ['\x7b']), cs⟩ ∧
      Ends k w k₀ last ⟨Position.origin.afterAll (h.text.toList ++ ['\x7b']), cs⟩
        (scanBody .code 1 cs) := by
  obtain ⟨last, hrun⟩ := hleads.run cs
  have hpending : Pending k₀ 0 k₀ := Opened.outer.pending hleads.open_state hleads.opens
  exact ⟨last, hrun, ends_scanBody hleads.open_state hleads.opens hpending last _⟩

/-- The brace behind a header leads to the state that opens a body. -/
theorem Leads.move (hleads : h.Leads k k₀ w) :
    k.state.row.move? (.token .leftBrace) = some 179 := by
  rw [state_of_push? hleads.opens, hleads.open_state]

/-- When the body has been put together it is carried from where it lies. -/
theorem Leads.carries (hleads : h.Leads k k₀ w) {d : Derivation (.phrase .block)}
    {k' : Stack .program} (hpush : k.push? d = some k') (source : List Char) :
    h.Carries (d.value source) source k' := by
  obtain ⟨q, -, hframes⟩ := push?_eq_some hpush
  refine ⟨k.frames.reverse, [], .block, d, q, ?_, ?_, rfl⟩
  · rw [hframes, List.reverse_cons]
  · rw [hleads.symbols]
    exact List.mem_cons_self

/-- What is derived behind a body has it in the first declaration. -/
theorem Leads.hasFirst (hleads : h.Leads k k₀ w) {d : Derivation (.phrase .block)}
    {k₁ : Stack .program} (hd : Completes k d k₁) {last : Position} {c : Cursor}
    {D : Derivation (.phrase .program)} (hrun : deriveFrom k₁ last c = .ok D)
    (source : List Char) :
    h.HasFirst (d.value source) (.phrase .program) (D.value source) := by
  obtain ⟨q, hq⟩ := State.exists_move?_block hleads.move
  have hpush := push?_of_move? d hq
  have hcarries := hleads.carries hpush source
  refine hasFirst_of_deriveFrom hrun (fun t w' k' hpushed => ?_) (fun D' hresult => ?_)
  · by_cases ht : (Lookahead.word t).followsBody = true
    · rw [hd.settle ht hpush] at hpushed
      exact (hcarries.settles (settles_settle _ _)).push hpushed
    · rw [Bool.not_eq_true] at ht
      rw [hd.push?_settle ht] at hpushed
      exact absurd hpushed (by simp)
  · rw [hd.settle (by decide) hpush] at hresult
    exact (hcarries.settles (settles_settle _ _)).result? hresult

end BodyHeader

/-- From brace to brace a body is the text that the scan has gone through. -/
theorem Block.source_ofSpan {pre cs : List Char} {s : Span} {n : Nat}
    (hstart : s.start.offset = pre.length) (hstop : s.stop.offset + 1 = pre.length + 1 + n) :
    (Block.ofSpan (pre ++ '\x7b' :: cs) s).source = "\x7b" ++ String.ofList (cs.take n) := by
  have hlength : s.stop.offset + 1 - s.start.offset = n + 1 := by omega
  rw [Block.ofSpan, hlength, hstart, List.drop_left, List.take_succ_cons]
  have happend : String.ofList (['\x7b'] ++ cs.take n) = "\x7b" ++ String.ofList (cs.take n) :=
    String.ofList_append
  exact happend

namespace Program

/-- The text behind the header of a first declaration and the brace that opens its body. If a scan
finds no end of the body, this is no program. Otherwise it is one exactly if it is one with an empty
body instead, and the body of the declaration goes as far as the scan. -/
theorem parse_body (h : BodyHeader) (r : String) :
    match scanBody .code 1 r.toList with
    | none => ∃ e, Program.parse (h.text ++ "\x7b" ++ r) = .error e
    | some n =>
      ((∃ p, Program.parse (h.text ++ "\x7b" ++ r) = .ok p) ↔
        ∃ p, Program.parse (h.text ++ "\x7b\x7d" ++ String.ofList (r.toList.drop n)) = .ok p) ∧
      ∀ p, Program.parse (h.text ++ "\x7b" ++ r) = .ok p →
        ∃ (d : Declaration) (ds : List Declaration) (b : Block), p.declarations = d :: ds ∧
          h.Has b d ∧ b.source = "\x7b" ++ String.ofList (r.toList.take n) := by
  obtain ⟨k, k₀, w, hleads⟩ := h.exists_leads
  have htext : (h.text ++ "\x7b" ++ r).toList = h.text.toList ++ '\x7b' :: r.toList := by
    simp
  obtain ⟨last, hrun, hends⟩ := hleads.ends r.toList
  rw [← htext] at hrun
  split
  · next hscan =>
    rw [hscan] at hends
    obtain ⟨e, he⟩ := hends
    refine ⟨e, ?_⟩
    rw [Program.parse, hrun, he]
    rfl
  · next n hscan =>
    rw [hscan] at hends
    obtain ⟨w', k₁, hclosed, -, hstop, hend⟩ := hends
    obtain ⟨d, hd, hvalue⟩ := hclosed.completes
    constructor
    · obtain ⟨last', hrun', w'', k₂, hclosed', -, -, hend'⟩ :=
        hleads.ends ('\x7d' :: r.toList.drop n)
      obtain ⟨d', hd', -⟩ := hclosed'.completes
      have htext' : (h.text ++ "\x7b\x7d" ++ String.ofList (r.toList.drop n)).toList =
          h.text.toList ++ '\x7b' :: '\x7d' :: r.toList.drop n := by
        simp
      rw [exists_parse_iff, exists_parse_iff, hrun, htext', hrun', hend, hend']
      exact accepts_deriveFrom_iff (similar_of_completes hd hd' hleads.move) _ _ rfl
    · intro p hp
      obtain ⟨D, hD, -, rfl⟩ := exists_derive_of_parse hp
      rw [hrun, hend] at hD
      obtain ⟨e, ds, hds, he⟩ := hleads.hasFirst hd hD (h.text ++ "\x7b" ++ r).toList
      refine ⟨e, ds, _, hds, he, ?_⟩
      rw [hvalue, htext]
      refine Block.source_ofSpan (hleads.offset.trans String.length_toList.symm) ?_
      rw [hstop, Position.offset_afterAll, List.length_append, List.length_singleton]
      show 0 + (h.text.toList.length + 1) + n = h.text.toList.length + 1 + n
      omega

/-- A body with braces in a literal and in comments, and a declaration behind it. -/
def strayBraces : String :=
  " log(\"\x7d\") \x7b x \x7d /* \x7d */ // \x7b\n a / b \x7d struct B \x7b\x7d"

/-- The body of a function with braces in a literal and in comments. -/
theorem parse_body_strayBraces : scanBody .code 1 strayBraces.toList = some 37 ∧
    ∃ p, Program.parse (BodyHeader.function.text ++ "\x7b" ++ strayBraces) = .ok p ∧
      ∃ (d : Declaration) (ds : List Declaration) (b : Block), p.declarations = d :: ds ∧
        BodyHeader.function.Has b d ∧
        b.source = "\x7b" ++ String.ofList (strayBraces.toList.take 37) := by
  have hscan : scanBody .code 1 strayBraces.toList = some 37 := by decide +kernel
  have hok : (Program.parse (BodyHeader.function.text ++ "\x7b" ++ strayBraces)).toOption.isSome =
      true := by
    decide +kernel
  have hbody := parse_body .function strayBraces
  rw [hscan] at hbody
  cases h : Program.parse (BodyHeader.function.text ++ "\x7b" ++ strayBraces) with
  | error e =>
    rw [h] at hok
    exact absurd hok (by simp [Except.toOption])
  | ok p => exact ⟨hscan, p, rfl, hbody.2 p h⟩

end Program

end CadenceEntry
