import CadenceEntry.Proofs.Naming.Replacement
import CadenceEntry.Proofs.Syntax.Evaluation
import CadenceEntry.Proofs.Syntax.Soundness

/-!
# Every word can be a name

Whether a word is a keyword depends on what is looked for where it stands. In the places of
`Production.reserved?` a name of a program can be replaced by any other word, and the program is
then the same one with this word in the place of the name and with what stands behind it moved.
Only a composite that is not called an interface cannot have the name `interface`.
-/

set_option autoImplicit false

namespace CadenceEntry

open Grammar

namespace Program

/-- The names of a program in whose place any other word is a name, but for some keywords. -/
def nameSlots (text : String) : List NameSlot :=
  match Source.derive .program text.toList with
  | .ok d => d.slots none
  | .error _ => []

/-- With any word filled in that can be there, a template of a whole text is the derivation of the
text with this word. -/
theorem exists_derive_of_opens {cs pre post : List Char} {x : NameSlot}
    {e : Derivation (.phrase .program)} {k : Source.Head}
    (hat : NameAt x ⟨Goal.start .program, .ofText cs⟩ pre post)
    (hopens : Opens x e (Goal.start .program) ⟨Goal.start .program, .ofText cs⟩ k pre post)
    (hfinish : NextWord.read k.state k.cursor = .finish) {v : String} (hv : x.Takes v) :
    ∃ d' : Derivation (.phrase .program),
      Source.derive .program (pre ++ (v.toList ++ post)) = .ok d' ∧
        (d'.invalidInteger? = none ↔ e.invalidInteger? = none) ∧
        d'.value (pre ++ (v.toList ++ post)) =
          Program.filled v (Program.relocated (.filling x.word.start v)
            (e.value (pre ++ (hole.toList ++ post)))) := by
  obtain ⟨-, hstart, -, -⟩ := hat
  have hstart : x.word.start = Position.origin.afterAll pre := hstart
  obtain ⟨d', k', hfilled, hreads, hnext⟩ := hopens.fills v hv
  have hderive : Source.derive .program (pre ++ (v.toList ++ post)) = .ok d' :=
    Source.derive_of_reads hreads (hnext.finish hfinish)
  have hinvalid : d'.invalidInteger? = none ↔ e.invalidInteger? = none := by
    rw [← Option.map_eq_none_iff (f := Lexeme.text), hfilled.extent.invalid,
      Option.map_eq_none_iff]
  have hpre : x.word.start.offset = pre.length := by
    rw [hstart, Position.offset_afterAll]
    exact Nat.zero_add _
  have hline : 0 < x.word.start.line := by
    rw [hstart]
    exact Nat.lt_of_lt_of_le Nat.one_pos (Position.le_afterAll .origin pre).1
  have hne : v.toList ≠ [] := by
    intro hnil
    have hmatches := hv.name
    rw [hnil] at hmatches
    exact Terminal.not_matches_nil _ hmatches
  refine ⟨d', hderive, hinvalid, Derivation.value_of_filled hfilled fun s hs => ?_⟩
  exact Block.ofSpan_filling hpre hline hne (hopens.beside s hs)

/-- A name of a program can be replaced by any other word, keywords included. Both programs are the
template `t` with a name filled in for the hole, which it has in no other place, so they differ in
this name and in what stands behind it being moved. -/
theorem parse_of_renamed {text : String} {p : Program} (hp : Program.parse text = .ok p)
    {x : NameSlot} (hx : x ∈ nameSlots text) :
    ∃ (pre post : String) (t : Program), text = pre ++ x.word.spelling ++ post ∧
      pre.length = x.word.start.offset ∧ t.allNames.count hole ≤ 1 ∧
      p = (t.relocated (.filling x.word.start x.word.spelling)).filled x.word.spelling ∧
      ∀ v : String, Terminal.name.Matches v.toList → (∀ k ∈ x.reserved, k.spelling? ≠ some v) →
        Program.parse (pre ++ v ++ post) =
          .ok ((t.relocated (.filling x.word.start v)).filled v) := by
  obtain ⟨d, hderive, hvalid, rfl⟩ := exists_derive_of_parse hp
  rw [nameSlots, hderive] at hx
  obtain ⟨h', hreads, hfinish⟩ := Source.derive_eq_ok_iff.1 hderive
  have hphrase : ∀ q : Production, Symbol.phrase (Goal.phrase .program) = .phrase q.lhs →
      (Goal.start .program).Awaits q 0 .finish :=
    fun q hq => Goal.awaits .program (Symbol.phrase.inj hq).symm
  obtain ⟨pre, post, e, k, hat, hfollows, hopens⟩ :=
    d.opens hreads Nat.one_pos (fun _ h => absurd h (by simp)) hphrase hx
  have htext : text.toList = pre ++ (x.word.text ++ post) := hat.rest
  have hword : x.word.spelling.toList = x.word.text := String.toList_ofList
  -- the name itself gives the derivation that there is
  have hself : x.Takes x.word.spelling := ⟨by rw [hword]; exact hat.name, .inl rfl⟩
  obtain ⟨d₀, hderive₀, hinvalid, hvalue⟩ :=
    exists_derive_of_opens hat hopens (hfollows.finish hfinish) hself
  rw [hword, ← htext] at hderive₀ hvalue
  obtain rfl : d = d₀ := Except.ok.inj (hderive.symm.trans hderive₀)
  refine ⟨String.ofList pre, String.ofList post, e.value (pre ++ (hole.toList ++ post)), ?_, ?_, ?_,
    hvalue, ?_⟩
  · rw [← String.toList_inj]
    simp [htext, hword]
  · have hstart : x.word.start = Position.origin.afterAll pre := hat.start
    rw [hstart, Position.offset_afterAll, ← String.length_toList, String.toList_ofList]
    exact (Nat.zero_add _).symm
  · have hcount := (e.allNames_value (pre ++ (hole.toList ++ post))).count_le hole
    rw [hopens.names] at hcount
    exact hcount
  · intro v hv hfree
    obtain ⟨d', hderive', hinvalid', hvalue'⟩ :=
      exists_derive_of_opens hat hopens (hfollows.finish hfinish) ⟨hv, .inr hfree⟩
    have hvalid' : d'.invalidInteger? = none := hinvalid'.2 (hinvalid.1 hvalid)
    have htext' : (String.ofList pre ++ v ++ String.ofList post).toList =
        pre ++ (v.toList ++ post) := by
      simp
    rw [← htext'] at hderive' hvalue'
    rw [parse_of_derive hderive' hvalid', hvalue']

/-- The keyword `interface` would say what kind of composite it is. -/
example : (Program.parse "resource interface: Storage \x7b\x7d").isOk = false := by
  decide +kernel

/-- A resource that conforms to an interface. -/
def vault : String := "access(all) resource Vault: Storage \x7b\x7d"

/-- The name of the resource, which cannot be `interface`. -/
def vaultName : NameSlot := ⟨⟨"Vault".toList, ⟨21, 1, 21⟩⟩, [.interfaceWord]⟩

/-- The resource is called `resource`. -/
theorem parse_of_renamed_vault :
    vaultName ∈ nameSlots vault ∧
    ∃ (p t : Program) (pre post : String), Program.parse vault = .ok p ∧
      vault = pre ++ "Vault" ++ post ∧ t.allNames.count hole ≤ 1 ∧
      p = (t.relocated (.filling vaultName.word.start "Vault")).filled "Vault" ∧
      Program.parse (pre ++ "resource" ++ post) =
        .ok ((t.relocated (.filling vaultName.word.start "resource")).filled "resource") := by
  have hslot : vaultName ∈ nameSlots vault := by decide +kernel
  have hok : (Program.parse vault).isOk = true := by decide +kernel
  cases h : Program.parse vault with
  | error e =>
    rw [h] at hok
    exact absurd hok (by simp [Except.isOk, Except.toBool])
  | ok p =>
    obtain ⟨pre, post, t, htext, -, hcount, hp, hparse⟩ := parse_of_renamed h hslot
    have hfree : ∀ k ∈ vaultName.reserved, k.spelling? ≠ some "resource" := by decide
    exact ⟨hslot, p, t, pre, post, rfl, htext, hcount, hp, hparse "resource" (by decide) hfree⟩

end Program

end CadenceEntry
