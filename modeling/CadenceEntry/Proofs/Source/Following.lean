import CadenceEntry.Proofs.Source.Writing

/-!
# What is looked for behind what has been read

The state behind a derivation admits everything that can follow it there. If such a state looks for
more than another one, it still finds what the other one finds, as long as no spelling that it looks
for besides begins like one of the others: `State.Extends`.
-/

set_option autoImplicit false

namespace CadenceEntry

open Grammar
open Source (Head)

namespace Grammar

mutual

/-- The state behind a derivation that is read admits what can follow it. -/
theorem Derivation.admits_of_reads {s : Symbol} (d : Derivation s) {q : State} {h h' : Head}
    {a : Lookahead} (hd : d.Reads q h h')
    (htoken : ∀ t, s = .token t → ∃ q', q.row.move? s = some q' ∧ q'.admits a = true)
    (hphrase : ∀ p : Production, s = .phrase p.lhs → q.Awaits p 0 a)
    (hadmits : h.state.admits (Lookahead.next d.words a) = true) : h'.state.admits a = true :=
  match d with
  | .leaf t w => by
    obtain ⟨q', hmove, hadmits'⟩ := htoken t rfl
    have hmove' := hd.2
    rw [hmove] at hmove'
    rw [← Option.some.inj hmove']
    exact hadmits'
  | .node p ds => ds.admits_of_reads List.drop_zero hd (hphrase p rfl) hadmits

/-- The state behind derivations that are read admits what can follow the production that they
complete. -/
theorem Derivations.admits_of_reads {ss : List Symbol} (ds : Derivations ss) {q : State}
    {h h' : Head} {a : Lookahead} {p : Production} {n : Nat} (hss : p.rhs.drop n = ss)
    (hds : ds.Reads q h h') (hawaits : q.Awaits p n a)
    (hadmits : h.state.admits (Lookahead.next ds.words a) = true) : h'.state.admits a = true :=
  match ds with
  | .nil => by
    rw [show h' = h from hds]
    exact hadmits
  | .cons d ds => by
    obtain ⟨h₁, q', hd, hmove, hds⟩ := hds
    obtain ⟨hlt, hrest, ⟨q'', hmove', hnext⟩, -, hphrase⟩ := hawaits.cons hss ds
    rw [hmove] at hmove'
    obtain rfl := Option.some.inj hmove'
    rw [Derivations.words, Lookahead.next_append] at hadmits
    have hadmits' := ds.admits_next hrest hlt hnext
    have hadmits₁ := d.admits_of_reads hd (fun t _ => ⟨q', hmove, hadmits'⟩) hphrase hadmits
    exact ds.admits_of_reads hrest hds hnext hadmits₁

end

/-- One of two spellings begins like the other. -/
def Terminal.overlaps (s t : Terminal) : Bool :=
  match s.chars?, t.chars? with
  | some v, some w => v.isPrefixOf w || w.isPrefixOf v
  | _, _ => false

/-- The state `q'` looks for what the state `q` looks for, besides only for spellings that do not
begin like the others. Both find white space and comments, and no word by its class. -/
structure State.Extends (q q' : State) : Prop where
  classes : q'.wordClasses = q.wordClasses
  gaps : ∀ c ∈ q.wordClasses, c.terminal? = none
  fixed : ∀ t ∈ q.fixedWords, t ∈ q'.fixedWords
  apart : ∀ s ∈ q'.fixedWords, s ∈ q.fixedWords ∨ ∀ t ∈ q.fixedWords, s.overlaps t = false

instance (q q' : State) : Decidable (q.Extends q') :=
  decidable_of_iff (q'.wordClasses = q.wordClasses ∧ (∀ c ∈ q.wordClasses, c.terminal? = none) ∧
      (∀ t ∈ q.fixedWords, t ∈ q'.fixedWords) ∧
      ∀ s ∈ q'.fixedWords, s ∈ q.fixedWords ∨ ∀ t ∈ q.fixedWords, s.overlaps t = false)
    ⟨fun ⟨h₁, h₂, h₃, h₄⟩ => ⟨h₁, h₂, h₃, h₄⟩, fun ⟨h₁, h₂, h₃, h₄⟩ => ⟨h₁, h₂, h₃, h₄⟩⟩

end Grammar

namespace Piece

/-- A spelling is found among more spellings that the text does not begin with. -/
theorem ofSpelling?_of_filter {p p' : Terminal → Bool} {ts : List Terminal} {cs : List Char}
    {t : Terminal} {n : Nat} (h : ofSpelling? (ts.filter p) cs = some (word t n))
    (hmore : ∀ s ∈ ts, p s = true → p' s = true)
    (hapart : ∀ s ∈ ts, p' s = true → p s = true ∨ ∀ v, s.chars? = some v → ¬ v <+: cs) :
    ofSpelling? (ts.filter p') cs = some (word t n) := by
  induction ts with
  | nil => exact absurd h (by simp [ofSpelling?])
  | cons s ts ih =>
    have htail := fun h => ih h (fun s hs => hmore s (List.mem_cons_of_mem _ hs))
      fun s hs => hapart s (List.mem_cons_of_mem _ hs)
    rw [List.filter_cons] at h ⊢
    by_cases hp : p s = true
    · rw [if_pos hp] at h
      rw [if_pos (hmore s List.mem_cons_self hp)]
      unfold ofSpelling? at h htail ⊢
      rw [List.findSome?_cons] at h ⊢
      split at h
      · exact h
      · exact htail h
    · rw [if_neg hp] at h
      split
      · next hp' =>
        have hnot := (hapart s List.mem_cons_self hp').resolve_left hp
        have hhead : ofSpelling? [s] cs = none := by
          cases hfound : ofSpelling? [s] cs with
          | none => rfl
          | some x =>
            obtain ⟨s', hs', w, hw, hstart, -⟩ := exists_of_ofSpelling? hfound
            rw [List.mem_singleton.1 hs'] at hw
            exact absurd hstart (hnot w hw)
        have hcons : ofSpelling? (s :: ts.filter p') cs =
            (ofSpelling? [s] cs).or (ofSpelling? (ts.filter p') cs) := by
          unfold ofSpelling?
          rw [List.findSome?_cons, List.findSome?_cons, List.findSome?_nil]
          split <;> rfl
        rw [hcons, hhead]
        exact htail h
      · exact htail h

/-- What a state finds another state finds as well that looks for more. -/
theorem next?_of_extends {q q' : State} (hq : q.Extends q') {cs : List Char} {x : Piece}
    (h : next? q cs = some x) : next? q' cs = some x := by
  rcases next?_cases h with ⟨c, n, hc, hn, rfl⟩ | ⟨hnone, hspelling⟩
  · rw [next?_of_class (q := q') (by rw [hq.classes]; exact hc) hn, ofClass, ofClass, hq.gaps c hc]
  · rw [next?_of_no_class (q := q') (by rw [hq.classes]; exact hnone)]
    obtain ⟨t, ht, w, hw, hstart, rfl⟩ := exists_of_ofSpelling? hspelling
    refine ofSpelling?_of_filter hspelling (fun s hs hp => ?_) fun s hs hp' => ?_
    · exact (List.mem_filter.1 (hq.fixed s (List.mem_filter.2 ⟨hs, hp⟩))).2
    · rcases hq.apart s (List.mem_filter.2 ⟨hs, hp'⟩) with hmem | hapart
      · exact .inl (List.mem_filter.1 hmem).2
      · refine .inr fun v hv hstart' => ?_
        have hno := hapart t ht
        rw [Terminal.overlaps, hv, hw] at hno
        simp only [Bool.or_eq_false_iff] at hno
        rcases List.prefix_or_prefix_of_prefix hstart' hstart with hvw | hwv
        · rw [List.isPrefixOf_iff_prefix.2 hvw] at hno
          exact absurd hno.1 (by simp)
        · rw [List.isPrefixOf_iff_prefix.2 hwv] at hno
          exact absurd hno.2 (by simp)

end Piece

/-- What a state reads another state reads as well that looks for more. -/
theorem NextWord.read_of_extends {q q' : State} (hq : q.Extends q') {c : Cursor}
    (h : ∀ c', read q c ≠ .stuck c') : read q' c = read q c := by
  unfold read at h ⊢
  fun_induction readBy (Piece.next? q) c with
  | case1 c hnil => exact read_of_nil hnil
  | case2 c hc hnone => exact absurd rfl (h c)
  | case3 c hc t n hpos hnext => exact read_of_word (Piece.next?_of_extends hq hnext)
  | case4 c hc n hpos hnext _ ih =>
    have hskip := read_of_gap (Piece.next?_of_extends hq hnext)
    exact hskip.trans (ih h)
  | case5 c hc p hnext hpos => exact absurd (Piece.length_pos_of_next? hnext) hpos

end CadenceEntry
