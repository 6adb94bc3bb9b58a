import CadenceEntry.Proofs.Grammar.Firsts
import CadenceEntry.Proofs.Grammar.Reduction
import CadenceEntry.Source.Derive

/-!
# Reading a derivation

Which words a text has depends on the state of the automaton, so a derivation is read off a text
together with the states: each of its words is looked for in the state that the word before it led
to. `Derivation.Reads` says this by recursion on the derivation, without a stack. The main statement
is `derive_eq_ok_iff`: a text has exactly the derivations that can be read off it to the end. From
left to right this is an invariant of the stack, from right to left an induction on the derivation
in which the table is closed; so at most one derivation can be read off a text.
-/

set_option autoImplicit false

namespace CadenceEntry

open Grammar

namespace Source

/-- The state in which the next word is looked for, and the place where. -/
structure Head where
  state : State
  cursor : Cursor

end Source

namespace Grammar

open Source (Head)

mutual

/-- The words of a derivation are read off a text from the head `h` to the head `h'`, where the
derivation is pushed on the state `q`. -/
def Derivation.Reads {s : Symbol} (d : Derivation s) (q : State) (h h' : Head) : Prop :=
  match d with
  | .leaf t w =>
    NextWord.read h.state h.cursor = .word t w h'.cursor ∧ q.row.move? (.token t) = some h'.state
  | .node _ ds => ds.Reads q h h'

/-- The words of a list of derivations are read off a text from the head `h` to the head `h'`, where
the derivations are pushed on the state `q` one after the other. -/
def Derivations.Reads {ss : List Symbol} (ds : Derivations ss) (q : State) (h h' : Head) : Prop :=
  match ds with
  | .nil => h' = h
  | .cons (s := s) d ds =>
    ∃ h₁ q', d.Reads q h h₁ ∧ q.row.move? s = some q' ∧ ds.Reads q' h₁ h'

end

/-- The start state awaits its phrase with the end of the text behind it. -/
theorem Goal.awaits (g : Goal) {p : Production} (h : p.lhs = g.phrase) :
    g.start.Awaits p 0 .finish := by
  have hexpected : (g.start.row.expected g.phrase).has .finish = true := by
    cases g <;> decide +kernel
  exact .inr ⟨rfl, by rw [h]; exact hexpected⟩

namespace Stack

variable {g : Goal} {a : Lookahead}

/-- Pushes derivations one after the other. -/
def pushAll? (k : Stack g) {ss : List Symbol} : Derivations ss → Option (Stack g)
  | .nil => some k
  | .cons d ds => (k.push? d).bind (·.pushAll? ds)

/-- What has been pushed lies on top, the last part first. -/
theorem pushAll?_eq_some {k k' : Stack g} {ss : List Symbol} {ds : Derivations ss}
    (h : k.pushAll? ds = some k') :
    ∃ fs : List Frame, k'.frames = fs.reverse ++ k.frames ∧ derivations? ss fs = some ds := by
  induction ss generalizing k with
  | nil =>
    cases ds
    obtain rfl := Option.some.inj h
    exact ⟨[], rfl, rfl⟩
  | cons s ss ih =>
    cases ds with
    | cons d ds =>
      obtain ⟨k₁, hk₁, h⟩ := Option.bind_eq_some_iff.1 h
      obtain ⟨q, -, hframes⟩ := push?_eq_some hk₁
      obtain ⟨fs, hfs, hds⟩ := ih h
      refine ⟨⟨s, d, q⟩ :: fs, ?_, ?_⟩
      · rw [hfs, hframes]
        simp
      · simp [derivations?, hds]

/-- A right-hand side that has been pushed is replaced by its phrase. -/
theorem reduce?_of_pushAll? {k k' : Stack g} {p : Production} {ds : Derivations p.rhs}
    (h : k.pushAll? ds = some k') : k'.reduce? p = k.push? (.node p ds) := by
  obtain ⟨fs, hfs, hds⟩ := pushAll?_eq_some h
  have hlength : fs.reverse.length = p.rhs.length := by
    rw [← map_symbol_of_derivations? hds]
    simp
  unfold reduce?
  dsimp only
  rw [hfs, ← hlength, List.take_left, List.drop_left, List.reverse_reverse, hds]

end Stack

end Grammar

namespace Source

open Stack (Settles)

variable {g : Goal}

/-- How reading goes on is decided by the word that is read. -/
theorem deriveFrom_eq (k : Stack g) (last : Position) (c : Cursor) :
    deriveFrom k last c =
      match NextWord.read k.state c with
      | .word t w c' =>
        match (k.settle (.word t)).push? (.leaf t w) with
        | some k' => deriveFrom k' w.start c'
        | none =>
          .error (.unexpectedWord w.text (k.settle (.word t)).state.lookaheads w.start)
      | .finish =>
        match (k.settle .finish).result? with
        | some d => .ok d
        | none => .error (.unexpectedEnd (k.settle .finish).state.lookaheads last)
      | .stuck c' => .error (stuckError k.state c') := by
  rw [deriveFrom]
  split
  all_goals next hread =>
    rewrite [hread]
    rfl

/-- Where the same word is read, reading goes on in the same way. -/
theorem deriveFrom_congr {k : Stack g} {last : Position} {c c' : Cursor}
    (h : NextWord.read k.state c = NextWord.read k.state c') :
    deriveFrom k last c = deriveFrom k last c' := by
  rw [deriveFrom_eq, h, ← deriveFrom_eq]

/-- A word that is read is pushed after what its lookahead asks for. -/
theorem deriveFrom_of_word {k k' : Stack g} {last : Position} {c c' : Cursor} {t : Terminal}
    {w : Lexeme} (hread : NextWord.read k.state c = .word t w c')
    (hpush : (k.settle (.word t)).push? (.leaf t w) = some k') :
    deriveFrom k last c = deriveFrom k' w.start c' := by
  rw [deriveFrom_eq, hread]
  simp only [hpush]

/-- The end of a text is read like a last word. -/
theorem deriveFrom_of_finish {k : Stack g} {last : Position} {c : Cursor}
    {d : Derivation (.phrase g.phrase)} (hread : NextWord.read k.state c = .finish)
    (hresult : (k.settle .finish).result? = some d) : deriveFrom k last c = .ok d := by
  rw [deriveFrom_eq, hread]
  simp only [hresult]

mutual

/-- A derivation that can be read off a text is found: when the last of its words has been pushed,
what follows it asks to put it together on the stack that its first word has settled. -/
theorem deriveFrom_of_reads {s : Symbol} (d : Derivation s) {k₀ k : Stack g} {h h' : Head}
    {a : Lookahead} (last : Position) (hd : d.Reads k.state h h') (hstate : k₀.state = h.state)
    (hsettles : Settles (Lookahead.next d.words a) k₀ k)
    (htoken : ∀ t, s = .token t → k.state.row.reduction? (.word t) = none)
    (hphrase : ∀ p : Production, s = .phrase p.lhs → k.state.Awaits p 0 a)
    {q : State} (hmove : k.state.row.move? s = some q) :
    ∃ (k₁ kd : Stack g) (last' : Position), k₁.state = h'.state ∧
      deriveFrom k₀ last h.cursor = deriveFrom k₁ last' h'.cursor ∧
      k.push? d = some kd ∧ Settles a k₁ kd :=
  match d with
  | .leaf t w => by
    obtain ⟨hread, hmove'⟩ := hd
    have hpush := Stack.push?_of_move? (.leaf t w) hmove'
    refine ⟨_, _, w.start, rfl, ?_, hpush, .refl⟩
    have hsettle : k₀.settle (.word t) = k := Stack.settle_eq_of_settles hsettles (htoken t rfl)
    exact deriveFrom_of_word (by rw [hstate]; exact hread) (by rw [hsettle]; exact hpush)
  | .node p ds => by
    have hawaits := hphrase p rfl
    obtain ⟨k₁, kd, last', hk₁, hrun, hpush, hsettles₁, hcomplete⟩ :=
      deriveFrom_of_readsAll ds last List.drop_zero (Nat.zero_le _) hd hstate hsettles hawaits
    have hreduce := Stack.reduce?_of_pushAll? hpush
    have hpushed := Stack.push?_of_move? (.node p ds) hmove
    rw [hpushed] at hreduce
    exact ⟨k₁, _, last', hk₁, hrun, hpushed,
      hsettles₁.tail ⟨p, hcomplete.reduction?, hreduce⟩⟩

/-- Derivations of the rest of a right-hand side that can be read off a text are found. -/
theorem deriveFrom_of_readsAll {ss : List Symbol} (ds : Derivations ss) {k₀ k : Stack g}
    {h h' : Head} {a : Lookahead} {p : Production} {n : Nat} (last : Position)
    (hss : p.rhs.drop n = ss) (hn : n ≤ p.rhs.length) (hds : ds.Reads k.state h h')
    (hstate : k₀.state = h.state) (hsettles : Settles (Lookahead.next ds.words a) k₀ k)
    (hawaits : k.state.Awaits p n a) :
    ∃ (k₁ kd : Stack g) (last' : Position), k₁.state = h'.state ∧
      deriveFrom k₀ last h.cursor = deriveFrom k₁ last' h'.cursor ∧
      k.pushAll? ds = some kd ∧ Settles a k₁ kd ∧ kd.state.Awaits p p.rhs.length a :=
  match ds with
  | .nil => by
    obtain rfl := hds
    have hlength : n = p.rhs.length := Nat.le_antisymm hn (List.drop_eq_nil_iff.1 hss)
    exact ⟨k₀, k, last, hstate, rfl, rfl, hsettles, hlength ▸ hawaits⟩
  | .cons d ds => by
    obtain ⟨h₁, q, hd, hmove, hds⟩ := hds
    obtain ⟨hlt, hrest, ⟨q', hq', hnext⟩, htoken, hphrase⟩ := hawaits.cons hss ds
    rw [hmove] at hq'
    obtain rfl := Option.some.inj hq'
    rw [Derivations.words, Lookahead.next_append] at hsettles
    obtain ⟨k₁, kd, last₁, hk₁, hrun, hpush, hsettles₁⟩ :=
      deriveFrom_of_reads d last hd hstate hsettles htoken hphrase hmove
    obtain ⟨q', hq', hframes⟩ := Stack.push?_eq_some hpush
    rw [hmove] at hq'
    obtain rfl := Option.some.inj hq'
    have hkd : kd.state = q := by
      unfold Stack.state
      rw [hframes]
    obtain ⟨k₂, kds, last₂, hk₂, hrun₂, hpush₂, hsettles₂, hcomplete⟩ :=
      deriveFrom_of_readsAll ds last₁ hrest hlt (hkd ▸ hds) hk₁ hsettles₁ (hkd ▸ hnext)
    refine ⟨k₂, kds, last₂, hk₂, hrun.trans hrun₂, ?_, hsettles₂, hcomplete⟩
    rw [Stack.pushAll?, hpush]
    exact hpush₂

end

/-- A derivation that can be read off a text to its end is the derivation of the text. -/
theorem derive_of_reads {cs : List Char} {d : Derivation (.phrase g.phrase)} {h : Head}
    (hd : d.Reads g.start ⟨g.start, .ofText cs⟩ h)
    (hfinish : NextWord.read h.state h.cursor = .finish) : derive g cs = .ok d := by
  obtain ⟨q, hmove, hstop⟩ : ∃ q : State, g.start.row.move? (.phrase g.phrase) = some q ∧
      q.row.reduction? .finish = none := by
    cases g
    · exact ⟨2, rfl, rfl⟩
    · exact ⟨3, rfl, rfl⟩
  have hempty : Settles (Lookahead.next d.words .finish) (Stack.empty g) (Stack.empty g) := .refl
  have hd' : d.Reads (Stack.empty g).state ⟨g.start, .ofText cs⟩ h := hd
  obtain ⟨k₁, kd, last, hk₁, hrun, hpush, hsettles⟩ :=
    deriveFrom_of_reads d .origin hd' rfl hempty (fun t ht => absurd ht (by simp))
      (fun p hp => g.awaits (Symbol.phrase.inj hp).symm) hmove
  obtain ⟨q', hq', hframes⟩ := Stack.push?_eq_some hpush
  rw [show (Stack.empty g).state = g.start from rfl, hmove] at hq'
  obtain rfl := Option.some.inj hq'
  have hkd : kd.state = q := by
    unfold Stack.state
    rw [hframes]
  have hsettle : k₁.settle .finish = kd :=
    Stack.settle_eq_of_settles hsettles (by rw [hkd]; exact hstop)
  have hresult : kd.result? = some d := by
    unfold Stack.result?
    rw [hframes]
    simp [Stack.empty]
  exact hrun.trans (deriveFrom_of_finish (by rw [hk₁]; exact hfinish) (by rw [hsettle, hresult]))

/-- The frames `fs`, the lowest first, have been read off a text from the state `q` and the head `h`
to the state `q'` and the head `h'`. -/
def FramesRead : List Frame → State → Head → State → Head → Prop
  | [], q, h, q', h' => q' = q ∧ h' = h
  | f :: fs, q, h, q', h' =>
    ∃ h₁, f.derivation.Reads q h h₁ ∧ q.row.move? f.symbol = some f.state ∧
      FramesRead fs f.state h₁ q' h'

/-- Frames are read part by part. -/
theorem framesRead_append {fs fs' : List Frame} {q q' : State} {h h' : Head} :
    FramesRead (fs ++ fs') q h q' h' ↔
      ∃ q₁ h₁, FramesRead fs q h q₁ h₁ ∧ FramesRead fs' q₁ h₁ q' h' := by
  induction fs generalizing q h with
  | nil =>
    constructor
    · intro hfs'
      exact ⟨q, h, ⟨rfl, rfl⟩, hfs'⟩
    · rintro ⟨q₁, h₁, ⟨rfl, rfl⟩, hfs'⟩
      exact hfs'
  | cons f fs ih =>
    constructor
    · rintro ⟨h₁, hf, hmove, hfs⟩
      obtain ⟨q₂, h₂, hfs, hfs'⟩ := ih.1 hfs
      exact ⟨q₂, h₂, ⟨h₁, hf, hmove, hfs⟩, hfs'⟩
    · rintro ⟨q₂, h₂, ⟨h₁, hf, hmove, hfs⟩, hfs'⟩
      exact ⟨h₁, hf, hmove, ih.2 ⟨q₂, h₂, hfs, hfs'⟩⟩

/-- The derivations in frames that have been read are read. -/
theorem reads_of_derivations? {ss : List Symbol} {fs : List Frame} {ds : Derivations ss}
    {q q' : State} {h h' : Head} (hds : Stack.derivations? ss fs = some ds)
    (hfs : FramesRead fs q h q' h') : ds.Reads q h h' := by
  induction ss generalizing fs q h with
  | nil =>
    cases fs with
    | nil =>
      cases ds
      exact hfs.2
    | cons f fs => simp [Stack.derivations?] at hds
  | cons s ss ih =>
    cases fs with
    | nil => simp [Stack.derivations?] at hds
    | cons f fs =>
      obtain ⟨s', d, q₁⟩ := f
      unfold Stack.derivations? at hds
      split at hds
      · next hs =>
        obtain rfl : s' = s := hs
        obtain ⟨ds', hds', rfl⟩ := Option.map_eq_some_iff.1 hds
        obtain ⟨h₁, hd, hmove, hrest⟩ := hfs
        exact ⟨h₁, q₁, hd, hmove, ih hds' hrest⟩
      · simp at hds

/-- What lies on the stack has been read off the text at the cursor `c`, up to the head `h`. -/
def HasRead (k : Stack g) (c : Cursor) (h : Head) : Prop :=
  ∃ q, FramesRead k.frames.reverse g.start ⟨g.start, c⟩ q h

/-- Frames that have been read lead to the state on top of the stack. -/
theorem framesRead_state {fs : List Frame} {q : State} {h h' : Head}
    (hfs : FramesRead fs.reverse g.start h q h') : q = (⟨fs⟩ : Stack g).state := by
  cases fs with
  | nil => exact hfs.1
  | cons f fs =>
    rw [List.reverse_cons, framesRead_append] at hfs
    obtain ⟨q₁, h₁, -, h₂, -, -, hq, -⟩ := hfs
    exact hq

/-- What is pushed must have been read from the head where the stack ends. -/
theorem HasRead.push {k k' : Stack g} {c : Cursor} {h h' : Head} {s : Symbol} {d : Derivation s}
    (hk : HasRead k c h) (hpush : k.push? d = some k') (hd : d.Reads k.state h h') :
    HasRead k' c h' := by
  obtain ⟨q, hmove, hframes⟩ := Stack.push?_eq_some hpush
  obtain ⟨q₁, hfs⟩ := hk
  have hq₁ : q₁ = k.state := framesRead_state hfs
  refine ⟨q, ?_⟩
  rw [hframes, List.reverse_cons, framesRead_append]
  exact ⟨q₁, h, hfs, h', by rw [hq₁]; exact hd, by rw [hq₁]; exact hmove, rfl, rfl⟩

/-- Putting productions together does not change what has been read. -/
theorem HasRead.settles {k k' : Stack g} {c : Cursor} {h : Head} {a : Lookahead}
    (hk : HasRead k c h) (hsettles : Settles a k k') : HasRead k' c h := by
  induction hsettles with
  | refl => exact hk
  | tail _ hreduces ih =>
    obtain ⟨p, -, hreduce⟩ := hreduces
    obtain ⟨fs, ds, rest, hframes, hds, hpush⟩ := Stack.reduce?_eq_some hreduce
    obtain ⟨q, hfs⟩ := ih
    rw [hframes, List.reverse_append, framesRead_append] at hfs
    obtain ⟨q₁, h₁, hrest, hfs⟩ := hfs
    obtain rfl := framesRead_state hrest
    exact HasRead.push ⟨_, hrest⟩ hpush (reads_of_derivations? hds hfs)

/-- A result lies alone on the stack. -/
theorem frames_of_result? {k : Stack g} {d : Derivation (.phrase g.phrase)}
    (h : k.result? = some d) : ∃ q, k.frames = [⟨.phrase g.phrase, d, q⟩] := by
  obtain ⟨fs⟩ := k
  match fs with
  | [] => simp [Stack.result?] at h
  | [⟨s, d', q⟩] =>
    unfold Stack.result? at h
    dsimp only at h
    split at h
    · next hs =>
      obtain rfl : s = .phrase g.phrase := hs
      obtain rfl := Option.some.inj h
      exact ⟨q, rfl⟩
    · simp at h
  | _ :: _ :: _ => simp [Stack.result?] at h

/-- What is derived can be read off the text to its end. -/
theorem reads_of_deriveFrom {k : Stack g} {last : Position} {c c₀ : Cursor}
    {d : Derivation (.phrase g.phrase)} (hrun : deriveFrom k last c = .ok d)
    (hk : HasRead k c₀ ⟨k.state, c⟩) :
    ∃ h : Head, d.Reads g.start ⟨g.start, c₀⟩ h ∧
      NextWord.read h.state h.cursor = .finish := by
  fun_induction deriveFrom k last c with
  | case1 k last c t w c' hread k₁ k₂ hpush ih =>
    refine ih hrun ?_
    obtain ⟨q, hmove, hframes⟩ := Stack.push?_eq_some hpush
    have hq : k₂.state = q := by
      unfold Stack.state
      rw [hframes]
    exact (hk.settles (Stack.settles_settle k _)).push hpush ⟨hread, by rw [hq]; exact hmove⟩
  | case2 => exact absurd hrun (by simp)
  | case3 k last c hread k₁ d' hresult =>
    obtain rfl := Except.ok.inj hrun
    obtain ⟨q, hfs⟩ := hk.settles (Stack.settles_settle k .finish)
    obtain ⟨q', hframes⟩ := frames_of_result? hresult
    rw [hframes] at hfs
    obtain ⟨h₁, hd, -, -, rfl⟩ := hfs
    exact ⟨_, hd, hread⟩
  | case4 => exact absurd hrun (by simp)
  | case5 => exact absurd hrun (by simp)

/-- A text has exactly the derivations that can be read off it to its end. -/
theorem derive_eq_ok_iff {cs : List Char} {d : Derivation (.phrase g.phrase)} :
    derive g cs = .ok d ↔ ∃ h : Head, d.Reads g.start ⟨g.start, .ofText cs⟩ h ∧
      NextWord.read h.state h.cursor = .finish := by
  constructor
  · intro h
    exact reads_of_deriveFrom h ⟨g.start, rfl, rfl⟩
  · rintro ⟨h, hd, hfinish⟩
    exact derive_of_reads hd hfinish

end Source

end CadenceEntry
