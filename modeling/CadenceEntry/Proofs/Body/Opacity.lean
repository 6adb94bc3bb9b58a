import CadenceEntry.Proofs.Body.Replacement
import CadenceEntry.Proofs.Interaction.Unplaced
import CadenceEntry.Proofs.Syntax.Blocks
import CadenceEntry.Proofs.Syntax.Soundness

/-!
# Bodies are opaque

A body of a program can be replaced by any other text that is a body. The program is then the same
one with the new text in the place of the old one and with what stands behind it moved, and its
interaction is the same: no word of a body is seen outside of it.
-/

set_option autoImplicit false

namespace CadenceEntry

open Grammar
open Source (Head)

/-- What becomes of a program when the text `new` replaces the body at the span `s`. -/
def Relocation.replacing (s : Span) (new : String) : Relocation where
  place := s.replacing new.toList
  source b := if b.span = s then new else b.source
  place_zero := Position.movedFrom_zero _ _

/-- Each body is cut out of the text with the new body as it was cut out of the text with the old
one. -/
theorem Block.ofSpan_replacing {p' : Position} {s s' : Span} {pre old post : List Char}
    {new : String} (hpre : s.start.offset = pre.length)
    (hstop : s.stop.offset + 1 = s.start.offset + old.length) (hlt : s.start.offset < s.stop.offset)
    (hnew : IsBody new.toList) (hs' : s'.Within .origin p')
    (hcases : s' = s ∨ s'.stop.offset < s.start.offset ∨ s.stop.offset < s'.start.offset) :
    Block.ofSpan (pre ++ (new.toList ++ post)) (s'.relocated (.replacing s new)) =
      (Block.ofSpan (pre ++ (old ++ post)) s').relocated (.replacing s new) := by
  have hnewpos : 0 < new.toList.length := by
    obtain ⟨r, hr, -⟩ := hnew
    rw [hr]
    exact Nat.succ_pos _
  have hend : (s.start.afterAll new.toList.dropLast).offset + 1 =
      s.start.offset + new.toList.length := by
    rw [Position.offset_afterAll, List.length_dropLast]
    omega
  have hafter : ∀ q : Position, 0 < q.line → s.stop.offset ≤ q.offset →
      (s.replacing new.toList q).offset + old.length = q.offset + new.toList.length := by
    intro q hq hle
    rw [Span.replacing, Position.offset_movedFrom hq hle]
    omega
  have hbefore : ∀ q : Position, q.offset < s.stop.offset → s.replacing new.toList q = q :=
    fun q hq => Position.movedFrom_of_lt hq
  have hstart : 0 < s'.start.line := hs'.start.line
  have hstopline : 0 < s'.stop.line := hs'.stop.line
  have horder := hs'.order
  suffices hsource : (Block.ofSpan (pre ++ (new.toList ++ post))
      ⟨s.replacing new.toList s'.start, s.replacing new.toList s'.stop⟩).source =
        if s' = s then new else (Block.ofSpan (pre ++ (old ++ post)) s').source from
    congrArg (Block.mk · _) hsource
  rcases hcases with rfl | hcase | hcase
  · rw [if_pos rfl, hbefore _ hlt]
    have hstop' := hafter s'.stop hstopline (Nat.le_refl _)
    have hlength : (s'.replacing new.toList s'.stop).offset + 1 - s'.start.offset =
        new.toList.length := by
      omega
    show String.ofList _ = new
    rw [hlength, hpre, List.drop_left, List.take_left, String.ofList_toList]
  · have hne : s' ≠ s := by
      rintro rfl
      omega
    rw [if_neg hne, hbefore _ (by omega), hbefore _ (by omega)]
    refine Block.source_congr_left ?_
    show s'.stop.offset < pre.length
    omega
  · have hne : s' ≠ s := by
      rintro rfl
      omega
    have hstart' := hafter s'.start hstart (by omega)
    have hstop' := hafter s'.stop hstopline (by omega)
    rw [if_neg hne, ← List.append_assoc, ← List.append_assoc]
    refine Block.source_congr_right ?_ ?_ ?_
    · rw [List.length_append]
      omega
    · rw [List.length_append, List.length_append]
      show (s.replacing new.toList s'.start).offset + _ = _
      omega
    · rw [List.length_append, List.length_append]
      show (s.replacing new.toList s'.stop).offset + _ = _
      omega

namespace Program

/-- A body of a program can be replaced by any other text that is a body. The program is then the
same one but for the source of this body and for the places of its end and of what stands behind it,
and its interaction is the same, or it is refused for the same duplicates. -/
theorem parse_of_replaced {text : String} {p : Program} (hp : Program.parse text = .ok p)
    {b : Block} (hb : b ∈ p.blocks) {new : String} (hnew : IsBody new.toList) :
    ∃ pre post : String, text = pre ++ b.source ++ post ∧ pre.length = b.span.start.offset ∧
      Program.parse (pre ++ new ++ post) = .ok (p.relocated (.replacing b.span new)) ∧
      ∀ policy table,
        Interaction.ofProgram policy table (p.relocated (.replacing b.span new)) =
          Interaction.ofProgram policy table p := by
  obtain ⟨d, hderive, hvalid, rfl⟩ := exists_derive_of_parse hp
  obtain ⟨h', hreads, hfinish⟩ := Source.derive_eq_ok_iff.1 hderive
  obtain ⟨hspan, hsource⟩ := d.mem_bodies_of_mem_blocks hb
  have hmove : (Goal.start .program).row.move? (.phrase .program) = some 2 := rfl
  obtain ⟨pre, old, post, ⟨hrest, hstart, hstop, hlt, -⟩, d', h'', hmoved, hreads', hnext⟩ :=
    d.replaces hreads hmove Nat.one_pos hvalid hspan hnew
  have htext : text.toList = pre ++ (old ++ post) := hrest
  have hpre : b.span.start.offset = pre.length := by
    rw [hstart, Position.offset_afterAll]
    exact Nat.zero_add _
  have hbody : b.source.toList = old := by
    have hlength : b.span.stop.offset + 1 - b.span.start.offset = old.length := by omega
    rw [hsource, Block.ofSpan, String.toList_ofList, hlength, htext, hpre, List.drop_left,
      List.take_left]
  have hordered := d.ordered_bodies hreads
  have hvalue : d'.value (pre ++ (new.toList ++ post)) =
      Program.relocated (.replacing b.span new) (d.value text.toList) := by
    refine Derivation.value_of_moved hmoved fun s hs => ?_
    rw [htext]
    refine Block.ofSpan_replacing hpre hstop hlt hnew (hordered.within s hs) ?_
    rcases hordered.cases hs hspan with rfl | hcase | hcase
    · exact .inl rfl
    · exact .inr (.inl hcase)
    · exact .inr (.inr hcase)
  have hparse : Program.parse (String.ofList pre ++ new ++ String.ofList post) =
      .ok (d'.value (pre ++ (new.toList ++ post))) := by
    have htext' : (String.ofList pre ++ new ++ String.ofList post).toList =
        pre ++ (new.toList ++ post) := by
      simp
    rw [← htext']
    refine parse_of_derive ?_ (hmoved.invalidInteger?_eq_none_iff.2 hvalid)
    rw [htext']
    exact Source.derive_of_reads hreads' (hnext.finish hfinish)
  refine ⟨String.ofList pre, String.ofList post, ?_, ?_, ?_, fun policy table => ?_⟩
  · rw [← String.toList_inj]
    simp [htext, hbody]
  · rw [← String.length_toList, String.toList_ofList]
    exact hpre.symm
  · rw [hparse, hvalue]
  · refine Interaction.ofProgram_congr ?_ policy table
    rw [← hvalue]
    exact (d'.unplaced_value _).trans
      ((Derivation.plainValue_of_moved hmoved).trans (d.unplaced_value _).symm)

/-- A function with a body, and a structure behind it. -/
def functionAndStruct : String := "fun main(a: Int) \x7b return a \x7d /* \x7d */ struct B \x7b\x7d"

/-- The body of a function is replaced by one that looks like a transaction. -/
theorem parse_of_replaced_functionAndStruct :
    IsBody "\x7b \"\x7d\" transaction \x7b\x7d // \x7d\n\x7d".toList ∧
    ∃ (p : Program) (b : Block), Program.parse functionAndStruct = .ok p ∧ b ∈ p.blocks ∧
      ∃ pre post : String, functionAndStruct = pre ++ b.source ++ post ∧
        pre.length = b.span.start.offset ∧
        Program.parse (pre ++ "\x7b \"\x7d\" transaction \x7b\x7d // \x7d\n\x7d" ++ post) =
          .ok (p.relocated (.replacing b.span
            "\x7b \"\x7d\" transaction \x7b\x7d // \x7d\n\x7d")) := by
  have hnew : IsBody "\x7b \"\x7d\" transaction \x7b\x7d // \x7d\n\x7d".toList :=
    ⟨_, rfl, by decide +kernel⟩
  have hok : (Program.parse functionAndStruct).toOption.any fun p => !p.blocks.isEmpty := by
    decide +kernel
  cases h : Program.parse functionAndStruct with
  | error e =>
    rw [h] at hok
    exact absurd hok (by simp [Except.toOption])
  | ok p =>
    rw [h] at hok
    have hblocks : p.blocks ≠ [] := by simpa [Except.toOption] using hok
    obtain ⟨b, hb⟩ := List.exists_mem_of_ne_nil _ hblocks
    obtain ⟨pre, post, htext, hpre, hparse, -⟩ := parse_of_replaced h hb hnew
    exact ⟨hnew, p, b, rfl, hb, pre, post, htext, hpre, hparse⟩

end Program

end CadenceEntry
