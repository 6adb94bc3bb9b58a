import CadenceEntry.Proofs.Nodes.Placement
import CadenceEntry.Proofs.Source.Spacing
import CadenceEntry.Proofs.Syntax.Blocks

/-!
# Every program is parsed

A derivation of a program whose words are well-formed can be written with white space between its
words, and the text is parsed: the result is what the derivation means, with the places that its
words have in the text, and a body in it shows how the words of the body are laid out. As a text is
parsed in one way only, no two such derivations are written alike.
-/

set_option autoImplicit false

namespace CadenceEntry

open Grammar

namespace Grammar

/-- The words of a derivation as they are spelled. -/
def Derivation.spellings {s : Symbol} (d : Derivation s) : List (List Char) :=
  d.words.map fun x => x.2.text

/-- The words of a derivation are words of their terminals, no name is spelled like a keyword, and
every integer literal has a value. -/
structure Derivation.WellWorded {s : Symbol} (d : Derivation s) : Prop where
  matches_terminal : ∀ x ∈ d.words, x.1.Matches x.2.text
  no_keyword : ∀ x ∈ d.words, x.1 = .name → ∀ t : Terminal, t.chars? ≠ some x.2.text
  valid_integer : ∀ x ∈ d.words, x.1 = .integer →
    (Number.IntegerLiteral.value? x.2.text).isSome = true

/-- Leaving out places keeps the spelling of the words. -/
theorem Derivation.spellings_unplaced {s : Symbol} (d : Derivation s) :
    d.unplaced.spellings = d.spellings := by
  rw [spellings, d.words_unplaced, List.map_map]
  rfl

end Grammar

/-- Words with white space between them do not run into each other. -/
theorem Spaced.written {ws : List (Terminal × Lexeme)} {cs : List Char}
    (h : Spaced (ws.map fun x => x.2.text) cs) (hws : ∀ x ∈ ws, x.1.Matches x.2.text) :
    ∃ rest, Written ws cs rest ∧ IsBlank rest := by
  induction ws generalizing cs with
  | nil =>
    cases h with
    | nil hg => exact ⟨cs, rfl, hg⟩
  | cons x ws ih =>
    obtain ⟨t, w⟩ := x
    cases h with
    | @cons g _ g' cs' _ hg hg' hne hrest =>
      obtain ⟨rest, hwritten, hblank⟩ := ih hrest fun x hx => hws x (List.mem_cons_of_mem _ hx)
      obtain ⟨rest, hwritten, hblank⟩ := hwritten.of_isBlank hblank hg'
      have hhead := hrest.separates_head? hg' hne
      refine ⟨rest, ⟨g, g' ++ cs', rfl, hg, hws _ List.mem_cons_self, ?_, hwritten⟩, hblank⟩
      exact fun x hx => Terminal.continues_of_separates (hhead x hx)

/-- A derivation that is written with white space between its words is found, up to the places of
its words, and these are the places where they are written. -/
theorem Source.exists_derive_of_spaced {g : Goal} {d : Derivation (.phrase g.phrase)}
    (hd : d.WellWorded) {cs : List Char} (hcs : Spaced d.spellings cs) :
    ∃ d', derive g cs = .ok d' ∧ d'.unplaced = d.unplaced ∧ d'.Covers cs ∧
      SetOut .origin d'.words cs := by
  obtain ⟨rest, hwritten, hrest⟩ := hcs.written hd.matches_terminal
  obtain ⟨d', hderive, hd'⟩ :=
    exists_derive_eq_ok d hwritten hrest (d.legible_of_no_keyword _ _ hd.no_keyword)
  obtain ⟨ss, rfl, hvalid, hwords⟩ := exists_segments_of_derive hderive
  refine ⟨d', hderive, hd', ⟨ss, rfl, hvalid, hwords⟩, ?_⟩
  rw [← d.spellings_unplaced, ← hd', d'.spellings_unplaced, Derivation.spellings, ← hwords] at hcs
  rw [← hwords]
  exact Segment.setOut hvalid hcs

/-- The source of a body consists of the words of the body, with white space between them, if the
text consists of its words in this way. -/
theorem Grammar.Derivation.exists_spaced_of_mem_blocks {s : Symbol} {d : Derivation s}
    {source : List Char} (hset : SetOut .origin d.words source)
    (hmatches : ∀ x ∈ d.words, x.1.Matches x.2.text) {b : Block}
    (hb : b ∈ s.blocks (d.value source)) :
    ∃ e ∈ d.inner, e.1 = .phrase .block ∧ b.span = e.2.span ∧
      Spaced e.2.spellings b.source.toList := by
  obtain ⟨hbody, hsource⟩ := d.mem_bodies_of_mem_blocks hb
  obtain ⟨⟨s', e⟩, he, rfl, hspan⟩ := d.exists_of_mem_bodies hbody
  refine ⟨_, he, rfl, hspan.symm, ?_⟩
  -- the words of the body stand side by side, and its place is from the first to the last of them
  obtain ⟨us, vs, hwords⟩ := d.words_infix he
  have hne : e.words ≠ [] := by
    obtain ⟨t, w, ws, hfirst, -⟩ := e.exists_first (by simp)
    simp [hfirst]
  have ha := List.head?_eq_some_head hne
  have hz := List.getLast?_eq_some_getLast hne
  rw [← hwords] at hset hmatches
  have hspaced := hset.spaced_text
    (fun x hx => hmatches x (List.mem_append_left _ (List.mem_append_right _ hx))) ha hz
  rw [← e.span_eq ha hz] at hspaced
  rw [hsource, ← hspan, Block.ofSpan, String.toList_ofList]
  exact hspaced

namespace Program

/-- A program that is written with white space between its words is parsed. The result is what the
derivation means that was written, its words being where they stand in the text: it is the same as
for words at any other places, but for the places and the sources of bodies. The source of a body
consists of the words of the body, with white space between them. No other derivation is written
like this. -/
theorem parse_of_spaced {d : Derivation (.phrase .program)} (hd : d.WellWorded) {text : String}
    (htext : Spaced d.spellings text.toList) :
    (∃ d' : Derivation (.phrase .program), d'.unplaced = d.unplaced ∧ d'.Covers text.toList ∧
      Program.parse text = .ok (d'.value text.toList) ∧
      (∀ source, Program.unplaced (d'.value text.toList) = Program.unplaced (d.value source)) ∧
      ∀ b ∈ Program.blocks (d'.value text.toList), ∃ e ∈ d'.inner,
        e.1 = .phrase .block ∧ b.span = e.2.span ∧ Spaced e.2.spellings b.source.toList) ∧
    ∀ d₂ : Derivation (.phrase .program), d₂.WellWorded → Spaced d₂.spellings text.toList →
      d₂.unplaced = d.unplaced := by
  have hderives : ∀ d : Derivation (.phrase .program), d.WellWorded →
      Spaced d.spellings text.toList → ∃ d' : Derivation (.phrase .program),
        Source.derive .program text.toList = .ok d' ∧ d'.unplaced = d.unplaced ∧
          d'.Covers text.toList ∧ SetOut .origin d'.words text.toList :=
    fun d hd htext => Source.exists_derive_of_spaced (g := .program) hd htext
  obtain ⟨d', hderive, hd', hcovers, hset⟩ := hderives d hd htext
  constructor
  · refine ⟨d', hd', hcovers, parse_of_derive hderive ?_, fun source => ?_, fun b hb => ?_⟩
    · rw [← d'.invalidInteger?_unplaced, hd', d.invalidInteger?_unplaced,
        d.invalidInteger?_eq_none_iff]
      exact hd.valid_integer
    · exact Derivation.unplaced_value_eq hd' source text.toList
    · exact Derivation.exists_spaced_of_mem_blocks hset hcovers.stand.fits hb
  · intro d₂ hd₂ htext₂
    obtain ⟨d₂', hderive₂, hd₂', -⟩ := hderives d₂ hd₂ htext₂
    rw [hderive] at hderive₂
    rw [← hd₂', ← Except.ok.inj hderive₂, hd']

/-- A function without parameters whose body is a single piece of text. -/
def functionDerivation (name body : List Char) : Derivation (.phrase .program) :=
  .node .programSome (.cons (.node .declarationsFirst (.cons (.node .declarationFunction (.cons
    (.node .function (.cons (.leaf .funWord ⟨"fun".toList, {}⟩) (.cons (.leaf .name ⟨name, {}⟩)
      (.cons (.node .parametersNone (.cons (.leaf .leftParen ⟨['('], {}⟩) (.cons
        (.leaf .rightParen ⟨[')'], {}⟩) .nil))) (.cons (.node .blockItems (.cons
          (.leaf .leftBrace ⟨['\x7b'], {}⟩) (.cons (.node .blockItemFirst (.cons
            (.node .itemStatement (.cons (.leaf .statement ⟨body, {}⟩) .nil)) .nil)) (.cons
          (.leaf .rightBrace ⟨['\x7d'], {}⟩) .nil)))) .nil))))) .nil)) .nil)) .nil)

/-- A function is parsed whose words stand behind spaces, a tab and a line feed. -/
theorem parse_of_spaced_function : (functionDerivation ['f'] ['a']).WellWorded ∧
    Spaced (functionDerivation ['f'] ['a']).spellings "fun f ( )\t\x7b\na \x7d".toList ∧
    ∃ d' : Derivation (.phrase .program), d'.unplaced = (functionDerivation ['f'] ['a']).unplaced ∧
      d'.Covers "fun f ( )\t\x7b\na \x7d".toList ∧
      Program.parse "fun f ( )\t\x7b\na \x7d" =
        .ok (d'.value "fun f ( )\t\x7b\na \x7d".toList) := by
  have hname : ∀ x ∈ (functionDerivation ['f'] ['a']).words, x.1 = .name →
      ∀ t ∈ Terminal.all, t.chars? ≠ some x.2.text := by decide
  have hd : (functionDerivation ['f'] ['a']).WellWorded :=
    ⟨by decide, fun x hx h t => hname x hx h t t.mem_all, by decide⟩
  have hword : ∀ (w g cs : List Char) (ws : List (List Char)), IsBlank g → g ≠ [] →
      Spaced ws cs → Spaced (w :: ws) (w ++ (g ++ cs)) :=
    fun w g cs ws hg hne hws => @Spaced.cons [] w g cs ws (by decide) hg (fun _ => hne) hws
  have hlast : Spaced [['\x7d']] ['\x7d'] :=
    @Spaced.cons [] ['\x7d'] [] [] [] (by decide) (by decide) (by decide) (.nil (by decide))
  have htext : Spaced (functionDerivation ['f'] ['a']).spellings
      "fun f ( )\t\x7b\na \x7d".toList :=
    hword "fun".toList [' '] _ _ (by decide) (by decide)
      (hword ['f'] [' '] _ _ (by decide) (by decide)
        (hword ['('] [' '] _ _ (by decide) (by decide)
          (hword [')'] ['\t'] _ _ (by decide) (by decide)
            (hword ['\x7b'] ['\n'] _ _ (by decide) (by decide)
              (hword ['a'] [' '] _ _ (by decide) (by decide) hlast)))))
  obtain ⟨⟨d', hd', hcovers, hparse, -⟩, -⟩ := parse_of_spaced hd htext
  exact ⟨hd, htext, d', hd', hcovers, hparse⟩

end Program

end CadenceEntry
