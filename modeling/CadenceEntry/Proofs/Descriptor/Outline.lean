import CadenceEntry.Interaction.Outline
import CadenceEntry.Proofs.Json.Writing

/-!
# Outlines lose nothing

The end of the first line of an outline tells the kind, and the kind tells which lines follow. So
the outline of a descriptor can be told from whatever lines follow it (`outline?_append_inj`), and
descriptors with the same outline are the same. An outline that is indented is the outline with
spaces in front of each line. There is an outline as long as every size has a decimal text.
-/

set_option autoImplicit false

namespace CadenceEntry

/-- There is no kind of type but those that are listed. -/
theorem TypeKind.mem_all (k : TypeKind) : k ∈ all := by
  rcases k with _ | k | _ | _ <;> try decide
  cases k <;> decide

namespace Descriptor

/-! ## The lines of an outline -/

/-- How the first line of an outline ends, behind the raw type. -/
def tag (k : TypeKind) (o : Bool) : List Char :=
  ("  (" ++ k.word ++ (if o then ", optional" else "") ++ ")").toList

/-- No two first lines end alike. -/
theorem eq_of_tag_isSuffix {k k' : TypeKind} {o o' : Bool} (h : tag k o <:+ tag k' o') :
    k = k' ∧ o = o' := by
  have hall : ∀ k ∈ TypeKind.all, ∀ k' ∈ TypeKind.all, ∀ o o', tag k o <:+ tag k' o' →
      k = k' ∧ o = o' := by
    decide +kernel
  exact hall k k.mem_all k' k'.mem_all o o' h

/-- The first line in its parts. -/
theorem toList_heading (n : Int) (d : Descriptor String) :
    (heading n d).toList = (spaces n).toList ++ (d.raw.toList ++ tag d.kind d.isOptional) := by
  simp [heading, tag]

/-- The first line tells all but the parts. -/
theorem heading_inj {n : Int} {d d' : Descriptor String} (h : heading n d = heading n d') :
    d.kind = d'.kind ∧ d.raw = d'.raw ∧ d.isOptional = d'.isOptional := by
  rw [← String.toList_inj, toList_heading, toList_heading] at h
  have heq := List.append_cancel_left h
  have hends : tag d.kind d.isOptional <:+ tag d'.kind d'.isOptional ∨
      tag d'.kind d'.isOptional <:+ tag d.kind d.isOptional := by
    refine List.suffix_or_suffix_of_suffix (List.suffix_append d.raw.toList _) ?_
    rw [heq]
    exact List.suffix_append _ _
  obtain ⟨hkind, hoptional⟩ : d.kind = d'.kind ∧ d.isOptional = d'.isOptional := by
    rcases hends with h | h
    · exact eq_of_tag_isSuffix h
    · obtain ⟨hkind, hoptional⟩ := eq_of_tag_isSuffix h
      exact ⟨hkind.symm, hoptional.symm⟩
  rw [hkind, hoptional] at heq
  exact ⟨hkind, String.toList_inj.1 (List.append_cancel_right heq), hoptional⟩

/-- The text of a size is that of an integer, or a word. -/
theorem eq_of_sizeText?_eq_some {n : Int} {s : String} (h : sizeText? n = some s) :
    n = unbounded ∧ s = "unbounded" ∨ s = toString n := by
  unfold sizeText? Number.decimal? at h
  split at h
  · next hn => exact .inl ⟨hn, (Option.some.inj h).symm⟩
  · split at h
    · exact .inr (Option.some.inj h).symm
    · cases h

/-- The size of an array can be read off its text. -/
theorem sizeText?_inj {n m : Int} {s : String} (hn : sizeText? n = some s)
    (hm : sizeText? m = some s) : n = m := by
  have hread : ∀ n : Int, Json.number? (toString n).toList = some (.int n, []) := by
    intro n
    have hspells := Json.spellsInt_toString n
    have hnumber := Json.number?_append hspells (r := []) (by simp [Json.Stops])
    rwa [List.append_nil] at hnumber
  have hword : ∀ n : Int, toString n ≠ "unbounded" := by
    intro n hn
    have hnone : Json.number? "unbounded".toList = none := by rfl
    rw [← hn, hread] at hnone
    cases hnone
  rcases eq_of_sizeText?_eq_some hn with ⟨rfl, hs⟩ | hs
  · rcases eq_of_sizeText?_eq_some hm with ⟨rfl, -⟩ | hs'
    · rfl
    · exact absurd (hs'.symm.trans hs) (hword m)
  · rcases eq_of_sizeText?_eq_some hm with ⟨rfl, hs'⟩ | hs'
    · exact absurd (hs.symm.trans hs') (hword n)
    · have heq := hread n
      rw [← hs, hs', hread m] at heq
      cases heq
      rfl

/-- A size has a text if it is unbounded or has a decimal text. -/
theorem isSome_sizeText? (n : Int) :
    (sizeText? n).isSome = (n == unbounded || Number.hasDecimal n) := by
  unfold sizeText? Number.decimal?
  by_cases hn : n = unbounded
  · simp [hn]
  · cases hdecimal : Number.hasDecimal n <;> simp [hn]

/-- The outline of an array is its first line, its size and the outline of its element. -/
theorem outline?_array_eq_some_iff {n : Int} {r : String} {o : Bool} {e : Descriptor String}
    {m : Int} {ls : List String} : outline? n (array r o e m) = some ls ↔
      ∃ size element, sizeText? m = some size ∧ outline? (n + 4) e = some element ∧
        ls = heading n (array r o e m) :: (spaces n ++ "  size: " ++ size) ::
          (spaces n ++ "  element:") :: element := by
  simp only [outline?, Option.bind_eq_bind, Option.bind_eq_some_iff, Option.pure_def,
    Option.some.injEq, exists_and_left, eq_comm (b := ls)]

/-- The outline of a dictionary is its first line and the outlines of its key and its value. -/
theorem outline?_dictionary_eq_some_iff {n : Int} {r : String} {o : Bool}
    {k v : Descriptor String} {ls : List String} : outline? n (dictionary r o k v) = some ls ↔
      ∃ key value, outline? (n + 4) k = some key ∧ outline? (n + 4) v = some value ∧
        ls = heading n (dictionary r o k v) :: (spaces n ++ "  key:") ::
          (key ++ (spaces n ++ "  value:") :: value) := by
  simp only [outline?, Option.bind_eq_bind, Option.bind_eq_some_iff, Option.pure_def,
    Option.some.injEq, exists_and_left, eq_comm (b := ls), List.cons_append]

/-- The sizes of the arrays in a descriptor. -/
def sizes {ρ : Type} : Descriptor ρ → List Int
  | named .. => []
  | array _ _ e n => n :: e.sizes
  | dictionary _ _ k v => k.sizes ++ v.sizes

/-- There is an outline if every size is unbounded or has a decimal text. -/
theorem isSome_outline? (n : Int) (d : Descriptor String) :
    (outline? n d).isSome = d.sizes.all fun m => m == unbounded || Number.hasDecimal m := by
  induction d generalizing n with
  | named k r o => rfl
  | array r o e m ih =>
    rw [sizes, List.all_cons, ← isSome_sizeText?, ← ih (n + 4), outline?]
    cases sizeText? m <;> cases outline? (n + 4) e <;> rfl
  | dictionary r o k v ihk ihv =>
    rw [sizes, List.all_append, ← ihk (n + 4), ← ihv (n + 4), outline?]
    cases outline? (n + 4) k <;> cases outline? (n + 4) v <;> rfl

/-- An outline begins with its first line. -/
theorem exists_of_outline? {n : Int} {d : Descriptor String} {ls : List String}
    (h : outline? n d = some ls) : ∃ ms, ls = heading n d :: ms := by
  cases d with
  | named k r o => exact ⟨[], (Option.some.inj h).symm⟩
  | array r o e m =>
    obtain ⟨size, element, -, -, rfl⟩ := outline?_array_eq_some_iff.1 h
    exact ⟨_, rfl⟩
  | dictionary r o k v =>
    obtain ⟨key, value, -, -, rfl⟩ := outline?_dictionary_eq_some_iff.1 h
    exact ⟨_, rfl⟩

/-- Outlines that begin alike are outlines of descriptors that differ in their parts only. -/
theorem eq_of_outline?_append {n : Int} {d d' : Descriptor String} {ls ls' ms ms' : List String}
    (hd : outline? n d = some ls) (hd' : outline? n d' = some ls') (h : ls ++ ms = ls' ++ ms') :
    d.kind = d'.kind ∧ d.raw = d'.raw ∧ d.isOptional = d'.isOptional := by
  obtain ⟨more, rfl⟩ := exists_of_outline? hd
  obtain ⟨more', rfl⟩ := exists_of_outline? hd'
  exact heading_inj (List.cons.inj h).1

/-- An outline tells the descriptor and where the lines behind it begin. -/
theorem outline?_append_inj {n : Int} {d d' : Descriptor String} {ls ls' ms ms' : List String}
    (hd : outline? n d = some ls) (hd' : outline? n d' = some ls') (h : ls ++ ms = ls' ++ ms') :
    d = d' ∧ ms = ms' := by
  obtain ⟨hkind, hraw, hoptional⟩ := eq_of_outline?_append hd hd' h
  induction d generalizing n d' ls ls' ms ms' with
  | named k r o =>
    cases d' with
    | named k' r' o' =>
      obtain rfl : r = r' := hraw
      obtain rfl : o = o' := hoptional
      obtain rfl : k = k' := by
        cases k <;> cases k' <;> cases hkind <;> rfl
      obtain rfl := Option.some.inj hd
      obtain rfl := Option.some.inj hd'
      exact ⟨rfl, (List.cons.inj h).2⟩
    | array => cases k <;> cases hkind
    | dictionary => cases k <;> cases hkind
  | array r o e m ih =>
    cases d' with
    | named k' => cases k' <;> cases hkind
    | array r' o' e' m' =>
      obtain rfl : r = r' := hraw
      obtain rfl : o = o' := hoptional
      obtain ⟨size, element, hsize, he, rfl⟩ := outline?_array_eq_some_iff.1 hd
      obtain ⟨size', element', hsize', he', rfl⟩ := outline?_array_eq_some_iff.1 hd'
      simp only [List.cons_append, List.cons.injEq] at h
      obtain ⟨-, hsizes, -, hlines⟩ := h
      obtain rfl := (String.append_right_inj _).1 hsizes
      obtain ⟨hkind', hraw', hoptional'⟩ := eq_of_outline?_append he he' hlines
      obtain ⟨rfl, hms⟩ := ih he he' hlines hkind' hraw' hoptional'
      rw [sizeText?_inj hsize hsize']
      exact ⟨rfl, hms⟩
    | dictionary => cases hkind
  | dictionary r o k v ihk ihv =>
    cases d' with
    | named k' => cases k' <;> cases hkind
    | array => cases hkind
    | dictionary r' o' k' v' =>
      obtain rfl : r = r' := hraw
      obtain rfl : o = o' := hoptional
      obtain ⟨key, value, hk, hv, rfl⟩ := outline?_dictionary_eq_some_iff.1 hd
      obtain ⟨key', value', hk', hv', rfl⟩ := outline?_dictionary_eq_some_iff.1 hd'
      simp only [List.cons_append, List.append_assoc, List.cons.injEq] at h
      obtain ⟨-, -, hlines⟩ := h
      obtain ⟨hkind', hraw', hoptional'⟩ := eq_of_outline?_append hk hk' hlines
      obtain ⟨rfl, hlines⟩ := ihk hk hk' hlines hkind' hraw' hoptional'
      obtain ⟨-, hlines⟩ := List.cons.inj hlines
      obtain ⟨hkind', hraw', hoptional'⟩ := eq_of_outline?_append hv hv' hlines
      obtain ⟨rfl, hms⟩ := ihv hv hv' hlines hkind' hraw' hoptional'
      exact ⟨rfl, hms⟩

/-- Descriptors with the same outline are the same. -/
theorem outline?_inj {n : Int} {d d' : Descriptor String} {ls : List String}
    (hd : outline? n d = some ls) (hd' : outline? n d' = some ls) : d = d' := by
  have hnil : ls ++ [] = ls ++ ([] : List String) := rfl
  exact (outline?_append_inj hd hd' hnil).1

/-! ## Indented outlines -/

/-- Spaces add up. -/
theorem spaces_add (n m : Nat) : spaces ((n : Int) + m) = spaces n ++ spaces m := by
  rw [← String.toList_inj, ← Int.natCast_add]
  simp only [spaces, Int.toNat_natCast, String.toList_append, String.toList_ofList,
    List.replicate_append_replicate]

/-- Each line is indented by itself. -/
theorem outline?_add (n m : Nat) (d : Descriptor String) :
    outline? ((n : Int) + m) d = (outline? m d).map (·.map (spaces n ++ ·)) := by
  have hheading : ∀ (m : Nat) (d : Descriptor String),
      heading ((n : Int) + m) d = spaces n ++ heading m d := by
    intro m d
    simp [heading, spaces_add, String.append_assoc]
  let indent : List String → List String := (·.map (spaces n ++ ·))
  induction d generalizing m with
  | named k r o => simp [outline?, hheading]
  | array r o e k ih =>
    have he : outline? ((n : Int) + m + 4) e = (outline? (m + 4) e).map indent := by
      rw [Int.add_assoc]
      exact ih (m + 4)
    rw [outline?, outline?, he]
    cases sizeText? k <;> cases outline? (m + 4) e <;>
      simp [indent, hheading, spaces_add, String.append_assoc]
  | dictionary r o k v ihk ihv =>
    have hk : outline? ((n : Int) + m + 4) k = (outline? (m + 4) k).map indent := by
      rw [Int.add_assoc]
      exact ihk (m + 4)
    have hv : outline? ((n : Int) + m + 4) v = (outline? (m + 4) v).map indent := by
      rw [Int.add_assoc]
      exact ihv (m + 4)
    rw [outline?, outline?, hk, hv]
    cases outline? (m + 4) k <;> cases outline? (m + 4) v <;>
      simp [indent, hheading, spaces_add, String.append_assoc]

/-! ## Outlines of single lines -/

/-- The raw types of a descriptor and of its parts. -/
def rawTypes {ρ : Type} : Descriptor ρ → List ρ
  | named _ r _ => [r]
  | array r _ e _ => r :: e.rawTypes
  | dictionary r _ k v => r :: (k.rawTypes ++ v.rawTypes)

/-- No raw type has a line feed. -/
def OneLine (d : Descriptor String) : Prop := ∀ r ∈ d.rawTypes, '\n' ∉ r.toList

/-- A descriptor without parts has its own raw type only. -/
@[simp] theorem oneLine_named {k : Option ScalarKind} {r : String} {o : Bool} :
    OneLine (named k r o) ↔ '\n' ∉ r.toList := by
  simp [OneLine, rawTypes]

/-- An array has the raw types of its element too. -/
@[simp] theorem oneLine_array {r : String} {o : Bool} {e : Descriptor String} {n : Int} :
    OneLine (array r o e n) ↔ '\n' ∉ r.toList ∧ e.OneLine := by
  simp [OneLine, rawTypes]

/-- A dictionary has the raw types of its key and its value too. -/
@[simp] theorem oneLine_dictionary {r : String} {o : Bool} {k v : Descriptor String} :
    OneLine (dictionary r o k v) ↔ '\n' ∉ r.toList ∧ k.OneLine ∧ v.OneLine := by
  simp [OneLine, rawTypes, or_imp, forall_and]

/-- An integer is written without a line feed. -/
theorem newline_notMem_toString (n : Int) : '\n' ∉ (toString n).toList := by
  have hdigits : ∀ ds, Json.Natural ds → '\n' ∉ ds := by
    intro ds hds hmem
    exact absurd (hds.isDigit _ hmem) (by decide)
  generalize hw : (toString n).toList = w
  have hspells := Json.spellsInt_toString n
  rw [hw] at hspells
  cases hspells with
  | natural h => exact hdigits _ h
  | negative h => simp [hdigits _ h]

/-- The lines of an outline have no line feed if no raw type has one. -/
theorem OneLine.outline? {d : Descriptor String} (hd : d.OneLine) {n : Int} {ls : List String}
    (h : d.outline? n = some ls) : ∀ l ∈ ls, '\n' ∉ l.toList := by
  have hspaces : ∀ n : Int, '\n' ∉ (spaces n).toList := by
    intro n
    simp [spaces, List.mem_replicate]
  have hheading : ∀ (n : Int) (d : Descriptor String), '\n' ∉ d.raw.toList →
      '\n' ∉ (heading n d).toList := by
    intro n d hraw
    have htag : ∀ k ∈ TypeKind.all, ∀ o, '\n' ∉ tag k o := by decide +kernel
    rw [toList_heading]
    simp [hspaces, hraw, htag d.kind d.kind.mem_all]
  have hsize : ∀ {n : Int} {s : String}, sizeText? n = some s → '\n' ∉ s.toList := by
    intro n s hs
    rcases eq_of_sizeText?_eq_some hs with ⟨-, rfl⟩ | rfl
    · decide
    · exact newline_notMem_toString n
  induction d generalizing n ls with
  | named k r o =>
    rw [oneLine_named] at hd
    obtain rfl := Option.some.inj h
    simpa using hheading n (named k r o) hd
  | array r o e m ih =>
    rw [oneLine_array] at hd
    obtain ⟨size, element, hm, he, rfl⟩ := outline?_array_eq_some_iff.1 h
    have hfirst := hheading n (array r o e m) hd.1
    simpa [hspaces, hsize hm] using And.intro hfirst (ih hd.2 he)
  | dictionary r o k v ihk ihv =>
    rw [oneLine_dictionary] at hd
    obtain ⟨key, value, hk, hv, rfl⟩ := outline?_dictionary_eq_some_iff.1 h
    have hfirst := hheading n (dictionary r o k v) hd.1
    simp only [List.forall_mem_cons, List.forall_mem_append]
    exact ⟨hfirst, by simp [hspaces], ihk hd.2.1 hk, by simp [hspaces], ihv hd.2.2 hv⟩

end Descriptor

end CadenceEntry
