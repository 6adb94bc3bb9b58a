import CadenceEntry.Proofs.Source.Related
import CadenceEntry.Proofs.Syntax.Moved

/-!
# Reading at another place

The same text, read on from another place, gives the same outcome at other places:
`Source.deriveFrom_moved`, for texts that are refused as well. A derivation that can be read off a
text can also be read off it where the states are others, as long as they lead on in the same way
and the first word is found there: `Derivation.exists_moved`.
-/

set_option autoImplicit false

namespace CadenceEntry

open Grammar

/-- The same refusal, pointing at the place where its place goes. -/
def SyntaxError.moved (f : Position → Position) : SyntaxError → SyntaxError
  | unexpectedWord w as p => .unexpectedWord w as (f p)
  | unexpectedCharacter c as p => .unexpectedCharacter c as (f p)
  | unexpectedEnd as p => .unexpectedEnd as (f p)
  | invalidInteger s => .invalidInteger s

/-- A refusal says the same wherever it points. -/
theorem SyntaxError.reason_moved (f : Position → Position) (e : SyntaxError) :
    (e.moved f).reason = e.reason ∧ (e.moved f).place? = e.place?.map f := by
  cases e <;> exact ⟨rfl, rfl⟩

/-- To stand at other places carries over from the parts of a phrase to the phrase. -/
def Grammar.Congruence.moved (f : Position → Position) : Congruence where
  rel := Derivation.Moved f
  relAll := Derivations.Moved f
  nil := trivial
  cons hd hds := ⟨hd, hds⟩
  node := Derivations.Moved.node

namespace Source

variable {f : Position → Position} {g : Goal}

/-- The second outcome is the first one at other places. -/
inductive Moved (f : Position → Position) {s : Symbol} :
    Except SyntaxError (Derivation s) → Except SyntaxError (Derivation s) → Prop
  | ok {d d' : Derivation s} (hd : d.Moved f d') : Moved f (.ok d) (.ok d')
  | error (e : SyntaxError) : Moved f (.error e) (.error (e.moved f))

/-- The error where reading gets stuck moves with the text. -/
theorem stuckError_moved (q : State) {c c' : Cursor} (hc : c.Moved f c') :
    stuckError q c' = (stuckError q c).moved f := by
  have hplace : c'.place = f c.place := hc.place []
  unfold stuckError
  rw [hc.rest, hplace]
  cases Piece.anywhere? c.rest <;> rfl

/-- At another place a text is read on to the same outcome. The place of the last word is only shown
if there is no further word and the end of the text cannot come next. -/
theorem deriveFrom_moved {k k' : Stack g} {last last' : Position} {c c' : Cursor}
    (hk : Stack.Related (.moved f) k k') (hc : c.Moved f c')
    (hlast : NextWord.read k.state c = .finish → (k.settle .finish).result? = none →
      last' = f last) :
    Moved f (deriveFrom k last c) (deriveFrom k' last' c') := by
  -- each word leaves a shorter text
  induction hlength : c.rest.length using Nat.strong_induction_on
    generalizing k k' last last' c c' with
  | _ length ih =>
    have hread := NextWord.read_moved k.state hc
    rw [deriveFrom_eq k, deriveFrom_eq k', ← hk.state]
    cases hword : NextWord.read k.state c with
    | word t w c₁ =>
      rw [hword] at hread
      obtain ⟨w', c₁', hword', hw, hc₁⟩ := hread.exists_word
      have hlt : c₁.rest.length < length := hlength ▸ NextWord.length_lt_of_readBy hword
      have hsettled := hk.settle (.word t)
      have hleaf : (Congruence.moved f).rel (.leaf t w) (.leaf t w') := ⟨w', rfl, hw⟩
      have hrel := hsettled.push? hleaf
      rw [hword']
      dsimp only
      rw [← hsettled.state, hw.text, hw.start]
      generalize (k.settle (.word t)).push? (.leaf t w) = o at hrel
      generalize (k'.settle (.word t)).push? (.leaf t w') = o' at hrel
      cases hrel with
      | some hk₁ => exact ih _ hlt hk₁ hc₁ (fun _ _ => rfl) rfl
      | none => exact .error _
    | finish =>
      rw [hword] at hread
      generalize NextWord.read k.state c' = r' at hread
      cases hread
      have hsettled := hk.settle .finish
      have hrel := hsettled.result?
      dsimp only
      have hlast' := hlast hword
      rw [← hsettled.state]
      generalize (k.settle .finish).result? = o at hrel hlast'
      generalize (k'.settle .finish).result? = o' at hrel
      cases hrel with
      | some hd => exact .ok hd
      | none =>
        rw [hlast' rfl]
        exact .error _
    | stuck c₁ =>
      rw [hword] at hread
      generalize NextWord.read k.state c' = r' at hread
      cases hread with
      | stuck hc₁ =>
        dsimp only
        rw [stuckError_moved k.state hc₁]
        exact .error _

/-! ## Derivations where the states are others -/

/-- What is read next at the second head is what is read next at the first, at other places. -/
def Head.Follows (f : Position → Position) (h h' : Head) : Prop :=
  NextWord.Moved f (NextWord.read h.state h.cursor) (NextWord.read h'.state h'.cursor)

/-- Where nothing is left at the first head, nothing is left at the second. -/
theorem Head.Follows.finish {h h' : Head} (hfollows : h.Follows f h')
    (hfinish : NextWord.read h.state h.cursor = .finish) :
    NextWord.read h'.state h'.cursor = .finish := by
  unfold Follows at hfollows
  rw [hfinish] at hfollows
  generalize NextWord.read h'.state h'.cursor = r at hfollows
  cases hfollows
  rfl

end Source

namespace Grammar

open Source (Head)

variable {f : Position → Position}

/-- Where the two states lead to the same state with a phrase, they do so with everything the phrase
can begin with. -/
def State.Parallel (q q' : State) : Prop :=
  ∀ (p : Production) (s : Symbol), p.rhs.head? = some s →
    q.row.move? (.phrase p.lhs) = q'.row.move? (.phrase p.lhs) → q.row.move? s = q'.row.move? s

instance (q q' : State) : Decidable (q.Parallel q') :=
  decidable_of_iff (∀ p ∈ Production.all, ∀ s ∈ p.rhs.head?,
      q.row.move? (.phrase p.lhs) = q'.row.move? (.phrase p.lhs) → q.row.move? s = q'.row.move? s)
    ⟨fun h p s hs => h p p.mem_all s hs, fun h p _ s hs => h p s hs⟩

/-- Every state is parallel to itself. -/
theorem State.Parallel.refl (q : State) : Parallel q q := fun _ _ _ _ => rfl

mutual

/-- A derivation that is read off a text is also read off it at another place and on a state that
leads on in the same way, and so is what comes next. -/
theorem Derivation.exists_moved {s : Symbol} (d : Derivation s) {q q' : State} {h₁ h₂ h₁' : Head}
    (hd : d.Reads q h₁ h₂) (hfollows : h₁.Follows f h₁') (hq : q.Parallel q')
    (hs : q.row.move? s = q'.row.move? s) :
    ∃ (d' : Derivation s) (h₂' : Head), d.Moved f d' ∧ d'.Reads q' h₁' h₂' ∧ h₂.Follows f h₂' :=
  match d with
  | .leaf t w => by
    obtain ⟨hread, hmove⟩ := hd
    unfold Head.Follows at hfollows
    rw [hread] at hfollows
    obtain ⟨w', c', hread', hw, hc⟩ := hfollows.exists_word
    exact ⟨.leaf t w', ⟨h₂.state, c'⟩, ⟨w', rfl, hw⟩, ⟨hread', hs ▸ hmove⟩,
      NextWord.read_moved h₂.state hc⟩
  | .node p ds => by
    obtain ⟨ds', h₂', hmoved, hreads, hnext⟩ :=
      ds.exists_moved hd hfollows hq fun s hs' => hq p s hs' hs
    exact ⟨.node p ds', h₂', hmoved.node, hreads, hnext⟩

/-- Derivations that are read off a text are also read off it at another place and on a state that
leads on in the same way. -/
theorem Derivations.exists_moved {ss : List Symbol} (ds : Derivations ss) {q q' : State}
    {h₁ h₂ h₁' : Head} (hds : ds.Reads q h₁ h₂) (hfollows : h₁.Follows f h₁')
    (hq : q.Parallel q') (hss : ∀ s, ss.head? = some s → q.row.move? s = q'.row.move? s) :
    ∃ (ds' : Derivations ss) (h₂' : Head), ds.Moved f ds' ∧ ds'.Reads q' h₁' h₂' ∧
      h₂.Follows f h₂' :=
  match ds with
  | .nil => by
    obtain rfl : h₂ = h₁ := hds
    exact ⟨.nil, h₁', trivial, rfl, hfollows⟩
  | .cons (s := s) d ds => by
    obtain ⟨h, q₁, hd, hmove, hds⟩ := hds
    obtain ⟨d', h', hmoved, hreads, hnext⟩ := d.exists_moved hd hfollows hq (hss s rfl)
    obtain ⟨ds', h₂', hmoved', hreads', hnext'⟩ :=
      ds.exists_moved hds hnext (.refl q₁) fun _ _ => rfl
    exact ⟨.cons d' ds', h₂', ⟨hmoved, hmoved'⟩, ⟨h', q₁, hreads, hss s rfl ▸ hmove, hreads'⟩,
      hnext'⟩

end

/-- A phrase is also read where the phrase itself leads elsewhere, if what it can begin with leads
to the same states. -/
theorem Derivation.exists_moved_of_parts {n : Nonterminal} (d : Derivation (.phrase n))
    {q q' : State} {h₁ h₂ h₁' : Head} (hd : d.Reads q h₁ h₂) (hfollows : h₁.Follows f h₁')
    (hq : q.Parallel q') (hn : ∀ (p : Production) (s : Symbol), p.lhs = n →
      p.rhs.head? = some s → q.row.move? s = q'.row.move? s) :
    ∃ (d' : Derivation (.phrase n)) (h₂' : Head), d.Moved f d' ∧ d'.Reads q' h₁' h₂' ∧
      h₂.Follows f h₂' := by
  cases d with
  | node p ds =>
    obtain ⟨ds', h₂', hmoved, hreads, hnext⟩ :=
      ds.exists_moved hd hfollows hq fun s hs => hn p s rfl hs
    exact ⟨.node p ds', h₂', hmoved.node, hreads, hnext⟩

/-- A derivation of a phrase ends with a production for it. -/
theorem Derivation.exists_node {n : Nonterminal} (d : Derivation (.phrase n)) :
    ∃ (p : Production) (hp : p.lhs = n) (ds : Derivations p.rhs),
      d = hp ▸ Derivation.node p ds := by
  cases d with
  | node p ds => exact ⟨p, rfl, ds, rfl⟩

end Grammar

end CadenceEntry
