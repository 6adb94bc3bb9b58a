import CadenceEntry.Proofs.Interaction.ParameterTypes
import CadenceEntry.Proofs.TypeText.OneLine

/-!
# Texts of interactions lose nothing

The text of an interaction is made of lines, and these tell the interaction, because the outline of
each parameter tells where the next one begins. The text tells its lines as long as no raw type has
a line feed, and the raw types of types that have been read have none. There is no text if a
parameter has no outline.
-/

set_option autoImplicit false

namespace CadenceEntry

namespace Interaction

/-- No raw type of a parameter has a line feed. -/
def OneLine (i : Interaction String) : Prop := ∀ d ∈ i.parameters, d.OneLine

/-- The lines for some parameters are those for the first of them and those for the others. -/
theorem parameterLines?_cons_eq_some_iff {n : Nat} {d : Descriptor String}
    {ds : List (Descriptor String)} {ls : List String} :
    parameterLines? n (d :: ds) = some ls ↔
      ∃ outline more, d.outline? 4 = some outline ∧ parameterLines? (n + 1) ds = some more ∧
        ls = ("  #" ++ toString n) :: (outline ++ more) := by
  simp only [parameterLines?, Option.bind_eq_bind, Option.bind_eq_some_iff, Option.pure_def,
    Option.some.injEq, exists_and_left, eq_comm (b := ls), List.cons_append]

/-- The numbers and the outlines of some parameters tell the parameters. -/
theorem parameterLines?_inj {n : Nat} {ds ds' : List (Descriptor String)} {ls : List String}
    (h : parameterLines? n ds = some ls) (h' : parameterLines? n ds' = some ls) : ds = ds' := by
  induction ds generalizing n ds' ls with
  | nil =>
    obtain rfl := Option.some.inj h
    cases ds' with
    | nil => rfl
    | cons d' ds' =>
      obtain ⟨outline, more, -, -, hlines⟩ := parameterLines?_cons_eq_some_iff.1 h'
      cases hlines
  | cons d ds ih =>
    obtain ⟨outline, more, hd, hds, rfl⟩ := parameterLines?_cons_eq_some_iff.1 h
    cases ds' with
    | nil => cases h'
    | cons d' ds' =>
      obtain ⟨outline', more', hd', hds', hlines⟩ := parameterLines?_cons_eq_some_iff.1 h'
      obtain ⟨rfl, rfl⟩ := Descriptor.outline?_append_inj hd hd' (List.cons.inj hlines).2
      rw [ih hds hds']

/-- The first line tells the kind. -/
theorem kind_of_heading_eq {i i' : Interaction String} (h : i.heading = i'.heading) :
    i.kind = i'.kind := by
  have hhead : ∀ i : Interaction String, i.heading.toList.head? = i.kind.word.toList.head? := by
    intro i
    cases hkind : i.kind <;> simp [heading, hkind, InteractionKind.word]
  have hwords : ∀ k k' : InteractionKind, k.word.toList.head? = k'.word.toList.head? → k = k' := by
    intro k k' hw
    cases k <;> cases k' <;> first | rfl | exact absurd hw (by decide)
  refine hwords _ _ ?_
  rw [← hhead, ← hhead, h]

/-- The lines that the text of an interaction is made of. -/
def lines? (i : Interaction String) : Option (List String) :=
  (parameterLines? 0 i.parameters).map (i.heading :: ·)

/-- The text of an interaction is its lines with line feeds between them. -/
theorem text?_eq_map_lines? (i : Interaction String) :
    i.text? = i.lines?.map ("\n".intercalate ·) := by
  rw [text?, lines?, Option.map_map]
  rfl

/-- Interactions with the same lines are the same. -/
theorem lines?_inj {i i' : Interaction String} {ls : List String} (h : i.lines? = some ls)
    (h' : i'.lines? = some ls) : i = i' := by
  obtain ⟨ms, hms, rfl⟩ := Option.map_eq_some_iff.1 h
  obtain ⟨ms', hms', hlines⟩ := Option.map_eq_some_iff.1 h'
  obtain ⟨hheading, rfl⟩ := List.cons.inj hlines
  obtain ⟨k, ds⟩ := i
  obtain ⟨k', ds'⟩ := i'
  obtain rfl : k' = k := kind_of_heading_eq hheading
  obtain rfl : ds = ds' := parameterLines?_inj hms hms'
  rfl

/-- The lines for some parameters have no line feed if no raw type has one. -/
theorem newline_notMem_parameterLines? {n : Nat} {ds : List (Descriptor String)}
    {ls : List String} (hds : ∀ d ∈ ds, d.OneLine) (h : parameterLines? n ds = some ls) :
    ∀ l ∈ ls, '\n' ∉ l.toList := by
  induction ds generalizing n ls with
  | nil =>
    obtain rfl := Option.some.inj h
    exact nofun
  | cons d ds ih =>
    obtain ⟨hd, hds⟩ := List.forall_mem_cons.1 hds
    obtain ⟨outline, more, houtline, hmore, rfl⟩ := parameterLines?_cons_eq_some_iff.1 h
    have hnumber : '\n' ∉ (toString n).toList := Descriptor.newline_notMem_toString n
    simp only [List.forall_mem_cons, List.forall_mem_append]
    exact ⟨by simpa using hnumber, hd.outline? houtline, ih hds hmore⟩

/-- The lines have no line feed if no raw type has one. -/
theorem OneLine.lines? {i : Interaction String} (hi : i.OneLine) {ls : List String}
    (h : i.lines? = some ls) : ∀ l ∈ ls, '\n' ∉ l.toList := by
  obtain ⟨ms, hms, rfl⟩ := Option.map_eq_some_iff.1 h
  refine List.forall_mem_cons.2 ⟨?_, newline_notMem_parameterLines? hi hms⟩
  have hnumber : ∀ n : Nat, '\n' ∉ (toString n).toList := fun n =>
    Descriptor.newline_notMem_toString n
  have hword : '\n' ∉ i.kind.word.toList := by
    cases i.kind <;> decide
  unfold heading
  dsimp only
  split <;> simpa [hword] using hnumber _

/-- A text without line feeds in the raw types tells its lines. -/
theorem OneLine.exists_lines? {i : Interaction String} (hi : i.OneLine) {s : String}
    (h : i.text? = some s) :
    ∃ ls, i.lines? = some ls ∧ s.toList.splitOn '\n' = ls.map String.toList := by
  rw [text?_eq_map_lines?] at h
  obtain ⟨ls, hls, rfl⟩ := Option.map_eq_some_iff.1 h
  refine ⟨ls, hls, ?_⟩
  have hne : ls.map String.toList ≠ [] := by
    obtain ⟨ms, -, rfl⟩ := Option.map_eq_some_iff.1 hls
    simp
  have htext : ("\n".intercalate ls).toList = ['\n'].intercalate (ls.map String.toList) := by
    rw [String.toList_intercalate]
    rfl
  rw [htext]
  exact List.splitOn_intercalate '\n' (List.forall_mem_map.2 (hi.lines? hls)) hne

/-- Interactions without line feeds in their raw types are the same if their texts are. -/
theorem text?_inj {i i' : Interaction String} (hi : i.OneLine) (hi' : i'.OneLine) {s : String}
    (h : i.text? = some s) (h' : i'.text? = some s) : i = i' := by
  obtain ⟨ls, hls, hsplit⟩ := hi.exists_lines? h
  obtain ⟨ls', hls', hsplit'⟩ := hi'.exists_lines? h'
  obtain rfl : ls = ls' := by
    refine List.map_injective_iff.2 (fun _ _ => String.toList_inj.1) ?_
    rw [← hsplit, ← hsplit']
  exact lines?_inj hls hls'

/-- The raw types of the interaction with a program that has been read have no line feed. -/
theorem oneLine_of_parse {policy : Policy} {table : KindTable ScalarKind} {text : String}
    {p : Program} {i : Interaction String} (hp : Program.parse text = .ok p)
    (hi : ofProgram policy table p = .ok i) : i.OneLine := by
  have htyped := Program.typed_of_parse hp
  unfold ofProgram at hi
  cases hentry : p.entryPoint policy with
  | error e =>
    rw [hentry] at hi
    cases hi
  | ok e? =>
    rw [hentry] at hi
    obtain rfl := Except.ok.inj hi
    cases e? with
    | none => exact nofun
    | some e =>
      have hparameters := Program.wellFormed_of_entryPoint htyped hentry
      intro d hd
      obtain ⟨t, ht, rfl⟩ := List.mem_map.1 hd
      obtain ⟨x, hx, rfl⟩ := List.mem_map.1 ht
      have hx := hparameters x hx
      cases htype : x.type with
      | mk r t s =>
        rw [htype, AnnotatedType.WellFormed] at hx
        exact Descriptor.oneLine_ofType table hx

end Interaction

/-- Descriptors with the same outline are the same, and so are interactions with the same text whose
raw types have no line feed, like the raw types of types and of programs that have been read. An
outline is indented by putting spaces in front of each of its lines. -/
theorem outlines_lose_nothing :
    (∀ (n : Int) (d d' : Descriptor String) (lines : List String),
      d.outline? n = some lines → d'.outline? n = some lines → d = d') ∧
    (∀ (i i' : Interaction String) (text : String), i.OneLine → i'.OneLine →
      i.text? = some text → i'.text? = some text → i = i') ∧
    (∀ (table : KindTable ScalarKind) (text : String) (t : TypeExpr),
      TypeExpr.parse text = .ok t → (Descriptor.ofType table t).OneLine) ∧
    (∀ (policy : Policy) (table : KindTable ScalarKind) (text : String) (p : Program)
      (i : Interaction String), Program.parse text = .ok p →
        Interaction.ofProgram policy table p = .ok i → i.OneLine) ∧
    (∀ (n : Nat) (d : Descriptor String), d.outline? n =
      (d.outline? 0).map fun lines => lines.map (String.ofList (List.replicate n ' ') ++ ·)) := by
  refine ⟨fun _ _ _ _ h h' => Descriptor.outline?_inj h h',
    fun _ _ _ hi hi' h h' => Interaction.text?_inj hi hi' h h',
    fun table _ _ h => Descriptor.oneLine_ofType table (TypeExpr.wellFormed_of_parse h),
    fun _ _ _ _ _ hp hi => Interaction.oneLine_of_parse hp hi, fun n d => ?_⟩
  have hadd := Descriptor.outline?_add n 0 d
  rwa [Int.natCast_zero, Int.add_zero] at hadd

/-- A raw type that looks like the end of a first line does not make two texts the same. -/
theorem outlines_lose_nothing_array :
    Interaction.text? ⟨.script, [.named none "T  (array)" false]⟩ ≠
      Interaction.text? ⟨.script, [.array "T" false (.named none "T" false) (-1)]⟩ := by
  intro h
  have htext : ∃ text, Interaction.text? ⟨.script, [.named none "T  (array)" false]⟩ = some text :=
    ⟨_, rfl⟩
  obtain ⟨text, htext⟩ := htext
  have heq := outlines_lose_nothing.2.1 _ _ text (by simp [Interaction.OneLine])
    (by simp [Interaction.OneLine]) htext (h ▸ htext)
  exact absurd heq (by decide)

end CadenceEntry
