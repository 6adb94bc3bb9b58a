import CadenceEntry.Proofs.Grammar.Viable
import CadenceEntry.Proofs.Syntax.Evaluation

/-!
# Completing what has been read

Every symbol has a derivation from some words, so what is viable can be completed: the rest of its
right-hand side is written from such words, then the rest of the production that awaits it, and so
on up to the goal. As long as a word, or nothing at all, lies on top of the stack there is a text
with which reading ends well: `exists_deriveFrom_eq_ok`.
-/

set_option autoImplicit false

namespace CadenceEntry

open Grammar

namespace Grammar

/-- A word of the terminal. -/
def Terminal.sample (t : Terminal) : List Char :=
  match t with
  | .name => ['a']
  | .integer => ['0']
  | .string => ['"', '"']
  | .address => ['0', 'x', '0']
  | .statement => ['a']
  | t => t.chars?.getD []

/-- A sample is a word of its terminal. -/
theorem Terminal.matches_sample (t : Terminal) : t.Matches t.sample := by
  cases t <;> decide

/-- The sample of a name is no keyword. -/
theorem Terminal.sample_name_ne_chars? (t : Terminal) : t.chars? ≠ some Terminal.name.sample := by
  cases t <;> decide

/-- The words are samples of their terminals. -/
def AreSamples (ws : List (Terminal × Lexeme)) : Prop := ∀ x ∈ ws, x.2.text = x.1.sample

/-- Samples make up samples. -/
theorem AreSamples.append {ws ws' : List (Terminal × Lexeme)} (h : AreSamples ws)
    (h' : AreSamples ws') : AreSamples (ws ++ ws') :=
  List.forall_mem_append.2 ⟨h, h'⟩

/-- Whether a symbol has a derivation in which at most `depth` phrases are within each other. -/
def Symbol.endsWithin : Nat → Symbol → Bool
  | _, .token _ => true
  | 0, .phrase _ => false
  | depth + 1, .phrase n => n.productions.any fun p => p.rhs.all (endsWithin depth)

/-- The start state has a move for its goal, and behind it the end of the text asks for nothing. -/
theorem Goal.exists_move? (g : Goal) : ∃ q : State, g.start.row.move? (.phrase g.phrase) = some q ∧
    q.row.reduction? .finish = none := by
  cases g with
  | program => exact ⟨2, rfl, rfl⟩
  | typeText => exact ⟨3, rfl, rfl⟩

/-- Some symbols have a derivation from samples if each of them has one. -/
theorem exists_derivations {ss : List Symbol}
    (h : ∀ s ∈ ss, ∃ d : Derivation s, AreSamples d.words) :
    ∃ ds : Derivations ss, AreSamples ds.words := by
  induction ss with
  | nil => exact ⟨.nil, by simp [AreSamples, Derivations.words]⟩
  | cons s ss ih =>
    obtain ⟨d, hd⟩ := h s List.mem_cons_self
    obtain ⟨ds, hds⟩ := ih fun s hs => h s (List.mem_cons_of_mem _ hs)
    exact ⟨.cons d ds, hd.append hds⟩

/-- Every symbol has a derivation from samples. -/
theorem Symbol.exists_derivation (s : Symbol) : ∃ d : Derivation s, AreSamples d.words := by
  have hends : ∀ depth (s : Symbol), s.endsWithin depth = true →
      ∃ d : Derivation s, AreSamples d.words := by
    intro depth
    induction depth with
    | zero =>
      intro s hs
      cases s with
      | token t => exact ⟨.leaf t ⟨t.sample, {}⟩, by simp [AreSamples, Derivation.words]⟩
      | phrase n => exact absurd hs (by simp [endsWithin])
    | succ depth ih =>
      intro s hs
      cases s with
      | token t => exact ⟨.leaf t ⟨t.sample, {}⟩, by simp [AreSamples, Derivation.words]⟩
      | phrase n =>
        obtain ⟨p, hp, hrhs⟩ := List.any_eq_true.1 hs
        obtain ⟨ds, hds⟩ := exists_derivations fun s hs => ih s (List.all_eq_true.1 hrhs s hs)
        obtain rfl : p.lhs = n := beq_iff_eq.1 (List.mem_filter.1 hp).2
        exact ⟨.node p ds, hds⟩
  have hall : (Nonterminal.all.all fun n => (Symbol.phrase n).endsWithin 12) = true := by
    decide
  cases s with
  | token t => exact hends 0 _ rfl
  | phrase n => exact hends 12 _ (List.all_eq_true.1 hall n n.mem_all)

/-- The words of the same derivations in another place. -/
theorem Derivations.words_of_unplaced_eq {ss : List Symbol} {ds ds' : Derivations ss}
    (h : ds'.unplaced = ds.unplaced) :
    (ds'.words.map fun x => (x.1, x.2.text)) = ds.words.map fun x => (x.1, x.2.text) := by
  have hwords := congrArg Derivations.words h
  rw [Derivations.words_unplaced, Derivations.words_unplaced] at hwords
  have htexts := congrArg (List.map fun x : Terminal × Lexeme => (x.1, x.2.text)) hwords
  rw [List.map_map, List.map_map] at htexts
  exact htexts

/-- What comes next does not depend on places. -/
theorem Lookahead.next_congr {ws ws' : List (Terminal × Lexeme)} {a : Lookahead}
    (h : (ws'.map fun x => (x.1, x.2.text)) = ws.map fun x => (x.1, x.2.text)) :
    next ws' a = next ws a := by
  cases ws with
  | nil =>
    obtain rfl : ws' = [] := List.map_eq_nil_iff.1 h
    rfl
  | cons x ws =>
    cases ws' with
    | nil => exact absurd h (by simp)
    | cons x' ws' =>
      rw [List.map_cons, List.map_cons] at h
      have hx := congrArg Prod.fst (List.cons.inj h).1
      exact congrArg Lookahead.word hx

/-- Samples in another place are samples. -/
theorem AreSamples.congr {ws ws' : List (Terminal × Lexeme)} (hws : AreSamples ws)
    (h : (ws'.map fun x => (x.1, x.2.text)) = ws.map fun x => (x.1, x.2.text)) :
    AreSamples ws' := by
  intro x hx
  have hmem : (x.1, x.2.text) ∈ ws.map fun x => (x.1, x.2.text) := by
    rw [← h]
    exact List.mem_map_of_mem hx
  obtain ⟨y, hy, heq⟩ := List.mem_map.1 hmem
  obtain ⟨hterminal, htext⟩ := Prod.mk.inj heq
  rw [← hterminal, ← htext]
  exact hws y hy

namespace Stack

variable {g : Goal}

/-- The words of what lies on the stack. -/
def words (k : Stack g) : List (Terminal × Lexeme) :=
  k.frames.reverse.flatMap fun f => f.derivation.words

/-- Pushing a derivation adds its words. -/
theorem words_push? {k k' : Stack g} {s : Symbol} {d : Derivation s} (h : k.push? d = some k') :
    k'.words = k.words ++ d.words := by
  obtain ⟨q, -, hframes⟩ := push?_eq_some h
  rw [words, words, hframes, List.reverse_cons, List.flatMap_append, List.flatMap_singleton]

/-- Pushing derivations adds their words. -/
theorem words_pushAll? {k k' : Stack g} {ss : List Symbol} {ds : Derivations ss}
    (h : k.pushAll? ds = some k') : k'.words = k.words ++ ds.words := by
  induction ss generalizing k with
  | nil =>
    cases ds
    obtain rfl := Option.some.inj h
    exact (List.append_nil _).symm
  | cons s ss ih =>
    cases ds with
    | cons d ds =>
      obtain ⟨k₁, hk₁, h⟩ := Option.bind_eq_some_iff.1 h
      rw [ih h, words_push? hk₁, List.append_assoc]
      rfl

/-- The words of frames are the words of the derivations in them. -/
theorem words_of_derivations? {ss : List Symbol} {fs : List Frame} {ds : Derivations ss}
    (h : derivations? ss fs = some ds) :
    (fs.flatMap fun f => f.derivation.words) = ds.words := by
  induction ss generalizing fs with
  | nil =>
    cases fs with
    | nil =>
      cases ds
      rfl
    | cons f fs => exact absurd h (by simp [derivations?])
  | cons s ss ih =>
    cases fs with
    | nil => exact absurd h (by simp [derivations?])
    | cons f fs =>
      obtain ⟨s', d, q⟩ := f
      unfold derivations? at h
      split at h
      · next hs =>
        obtain rfl : s' = s := hs
        obtain ⟨ds', hds', rfl⟩ := Option.map_eq_some_iff.1 h
        rw [List.flatMap_cons, ih hds']
        rfl
      · exact absurd h (by simp)

/-- Putting productions together keeps the words. -/
theorem words_settles {k k' : Stack g} {a : Lookahead} (h : Settles a k k') :
    k'.words = k.words := by
  induction h with
  | refl => rfl
  | tail _ hreduces ih =>
    obtain ⟨p, -, hreduce⟩ := hreduces
    obtain ⟨fs, ds, rest, hframes, hds, hpush⟩ := reduce?_eq_some hreduce
    rw [words_push? hpush, ← ih, words, words, hframes, List.reverse_append, List.flatMap_append,
      words_of_derivations? hds]
    rfl

/-- A phrase that is the goal and lies alone on the stack is the result. -/
theorem exists_result? {f : Frame} (h : f.symbol = .phrase g.phrase) :
    ∃ D, (⟨[f]⟩ : Stack g).result? = some D ∧ D.words = f.derivation.words := by
  obtain ⟨s, d, q⟩ := f
  obtain rfl : s = .phrase g.phrase := h
  exact ⟨d, by simp [result?], rfl⟩

end Stack

end Grammar

namespace Source

open Stack (Settles Viable)

variable {g : Goal} {fs : List Frame} {p : Production} {n : Nat} {ws : List (Terminal × Lexeme)}

/-- With the words `ws` behind the rest of the production `p`, of which `n` symbols lie on top of
the frames, reading ends well. -/
structure Completes (g : Goal) (fs : List Frame) (p : Production) (n : Nat)
    (ws : List (Terminal × Lexeme)) : Prop where
  awaits : (⟨fs⟩ : Stack g).state.Awaits p n (Lookahead.next ws .finish)
  derives : ∀ {ss : List Symbol} (_ : p.rhs.drop n = ss) (ds : Derivations ss) (k kd : Stack g)
    (last : Position) (c : Cursor) (rest : List Char),
    (⟨fs⟩ : Stack g).pushAll? ds = some kd →
    kd.state.Awaits p p.rhs.length (Lookahead.next ws .finish) →
    Settles (Lookahead.next ws .finish) k kd →
    k.state.admits (Lookahead.next ws .finish) = true → Written ws c.rest rest → IsBlank rest →
    ∃ D ws', deriveFrom k last c = .ok D ∧ D.words = kd.words ++ ws' ∧ AreSamples ws'

/-- The goal is complete at the end of the text. -/
theorem completes_of_goal (h : p.lhs = g.phrase) : Completes g [] p 0 [] := by
  obtain ⟨q, hmove, hstop⟩ := g.exists_move?
  rw [← h] at hmove
  refine ⟨g.awaits h, ?_⟩
  intro ss hss ds k kd last c rest hpush hcomplete hsettles _ hwritten hrest
  obtain rfl : p.rhs = ss := hss
  have hreduce := Stack.reduce?_of_pushAll? hpush
  have hpushed := Stack.push?_of_move? (k := (⟨[]⟩ : Stack g)) (.node p ds) hmove
  rw [hpushed] at hreduce
  have hsettle := Stack.settle_eq_of_settles
    (hsettles.tail ⟨p, hcomplete.reduction?, hreduce⟩) hstop
  obtain ⟨D, hresult, hwords⟩ :=
    Stack.exists_result? (g := g) (f := ⟨_, .node p ds, q⟩) (congrArg Symbol.phrase h)
  have hblank : IsBlank c.rest := by
    rw [← show rest = c.rest from hwritten]
    exact hrest
  refine ⟨D, [], ?_, ?_, by simp [AreSamples]⟩
  · exact deriveFrom_of_finish (NextWord.read_of_isBlank_rest hblank)
      ((congrArg Stack.result? hsettle).trans hresult)
  · rw [hwords, Stack.words_pushAll? hpush, List.append_nil]
    rfl

/-- A symbol that has been read belongs to the production. -/
theorem Completes.read {f : Frame} (h : Completes g fs p n ws) (hs : p.rhs[n]? = some f.symbol)
    (hmove : (⟨fs⟩ : Stack g).state.row.move? f.symbol = some f.state) :
    Completes g (f :: fs) p (n + 1) ws := by
  obtain ⟨q, hq, hawaits⟩ := h.awaits.next hs
  rw [hmove] at hq
  obtain rfl := Option.some.inj hq
  refine ⟨hawaits, ?_⟩
  intro ss hss ds k kd last c rest hpush hcomplete hsettles hadmits hwritten hrest
  obtain ⟨hlt, hget⟩ := List.getElem?_eq_some_iff.1 hs
  have hss' : p.rhs.drop n = f.symbol :: ss := by
    rw [List.drop_eq_getElem_cons hlt, hget, hss]
  refine h.derives hss' (.cons f.derivation ds) k kd last c rest ?_ hcomplete hsettles hadmits
    hwritten hrest
  rw [Stack.pushAll?, Stack.push?_of_move? f.derivation hmove]
  exact hpush

/-- With samples for the rest of the production, reading ends well. -/
theorem Completes.exists_deriveFrom (h : Completes g fs p n ws) (hn : n ≤ p.rhs.length)
    {ds : Derivations (p.rhs.drop n)} (hds : AreSamples ds.words) {k : Stack g}
    (hsettles : Settles (Lookahead.next (ds.words ++ ws) .finish) k ⟨fs⟩)
    (hadmits : k.state.admits (Lookahead.next (ds.words ++ ws) .finish) = true)
    (last : Position) {c : Cursor} {rest : List Char}
    (hwritten : Written (ds.words ++ ws) c.rest rest)
    (hrest : IsBlank rest) :
    ∃ D ws', deriveFrom k last c = .ok D ∧ D.words = (⟨fs⟩ : Stack g).words ++ ws' ∧
      AreSamples ws' := by
  obtain ⟨cs, hwritten₁, hwritten₂⟩ := written_append.1 hwritten
  rw [Lookahead.next_append] at hsettles hadmits
  have hlegible : ds.Legible (⟨fs⟩ : Stack g).state k.state := by
    refine ds.legible_of_no_keyword _ _ fun x hx hname t => ?_
    rw [hds x hx, hname]
    exact t.sample_name_ne_chars?
  obtain ⟨ds', h', hunplaced, hreads, -, rfl, hadmits'⟩ :=
    ds.exists_reads rfl hwritten₁.laid hlegible hadmits h.awaits
  have htexts := Derivations.words_of_unplaced_eq hunplaced
  rw [← Lookahead.next_congr htexts] at hsettles
  obtain ⟨k₁, kd, last', hstate, hrun, hpush, hsettles', hcomplete⟩ :=
    deriveFrom_of_readsAll ds' (k := ⟨fs⟩) (h := ⟨k.state, c⟩) last rfl hn hreads rfl hsettles
      h.awaits
  obtain ⟨D, ws', hD, hwords, hsamples⟩ := h.derives rfl ds' k₁ kd last' h'.cursor rest hpush
    hcomplete hsettles' (by rw [hstate]; exact hadmits') hwritten₂ hrest
  refine ⟨D, ds'.words ++ ws', hrun.trans hD, ?_, (hds.congr htexts).append hsamples⟩
  rw [hwords, Stack.words_pushAll? hpush, List.append_assoc]

/-- A phrase that comes next is completed by the rest of the production that awaits it. -/
theorem Completes.begin {p' : Production} (h : Completes g fs p n ws)
    (hs : p.rhs[n]? = some (.phrase p'.lhs)) {ds : Derivations (p.rhs.drop (n + 1))}
    (hds : AreSamples ds.words) : Completes g fs p' 0 (ds.words ++ ws) := by
  obtain ⟨hlt, hget⟩ := List.getElem?_eq_some_iff.1 hs
  have hdrop : p.rhs.drop n = .phrase p'.lhs :: p.rhs.drop (n + 1) := by
    rw [List.drop_eq_getElem_cons hlt, hget]
  obtain ⟨-, -, ⟨q, hmove, -⟩, -, hphrase⟩ := h.awaits.cons hdrop ds
  refine ⟨?_, ?_⟩
  · rw [Lookahead.next_append]
    exact hphrase p' rfl
  · intro ss hss ds' k kd last c rest hpush hcomplete hsettles hadmits hwritten hrest
    obtain rfl : p'.rhs = ss := hss
    have hreduce := Stack.reduce?_of_pushAll? hpush
    have hpushed := Stack.push?_of_move? (k := (⟨fs⟩ : Stack g)) (.node p' ds') hmove
    rw [hpushed] at hreduce
    -- the phrase lies on the stack, and what is left are samples
    have hread := h.read (f := ⟨_, .node p' ds', q⟩) hs hmove
    obtain ⟨D, ws', hD, hwords, hsamples⟩ := hread.exists_deriveFrom hlt hds
      (hsettles.tail ⟨p', hcomplete.reduction?, hreduce⟩) hadmits last hwritten hrest
    refine ⟨D, ws', hD, ?_, hsamples⟩
    rw [hwords, Stack.words_push? hpushed, Stack.words_pushAll? hpush]
    rfl

/-- What is viable can be completed with samples. -/
theorem exists_completes (h : Viable g fs p n) :
    n ≤ p.rhs.length ∧ ∃ ws, AreSamples ws ∧ Completes g fs p n ws := by
  induction h with
  | start h => exact ⟨Nat.zero_le _, [], by simp [AreSamples], completes_of_goal h⟩
  | read _ hs hmove ih =>
    obtain ⟨-, ws, hws, hcompletes⟩ := ih
    obtain ⟨hlt, -⟩ := List.getElem?_eq_some_iff.1 hs
    exact ⟨hlt, ws, hws, hcompletes.read hs hmove⟩
  | begin _ hs ih =>
    obtain ⟨-, ws, hws, hcompletes⟩ := ih
    obtain ⟨ds, hds⟩ := exists_derivations fun s (_ : s ∈ _) => s.exists_derivation
    exact ⟨Nat.zero_le _, ds.words ++ ws, hds.append hws, hcompletes.begin hs hds⟩

/-- Samples are written line by line. -/
theorem exists_written {ws : List (Terminal × Lexeme)} (hws : AreSamples ws) :
    ∃ cs, Written ws cs [] ∧ ∀ x ∈ cs.head?, x = '\n' := by
  induction ws with
  | nil => exact ⟨[], rfl, by simp⟩
  | cons x ws ih =>
    obtain ⟨cs, hwritten, hhead⟩ := ih fun x hx => hws x (List.mem_cons_of_mem _ hx)
    obtain ⟨t, w⟩ := x
    have htext : w.text = t.sample := hws _ List.mem_cons_self
    refine ⟨'\n' :: (w.text ++ cs), ⟨['\n'], cs, rfl, by decide, ?_, ?_, hwritten⟩, by simp⟩
    · rw [htext]
      exact t.matches_sample
    · intro y hy
      rw [hhead y hy]
      exact Terminal.continues_of_separates (by decide)

/-- Where frames lie on each other as the moves of the table lead, with a word on top or nothing at
all, there is a text with which reading ends well. It has no words but samples. -/
theorem exists_deriveFrom_eq_ok {k : Stack g} (hk : Stack.Linked g k.frames)
    (htop : ∀ f ∈ k.frames.head?, ∃ t, f.symbol = .token t) :
    ∃ cs : List Char, ∀ last place, ∃ D ws, deriveFrom k last ⟨place, '\n' :: cs⟩ = .ok D ∧
      D.words = k.words ++ ws ∧ AreSamples ws := by
  obtain ⟨p, n, hviable⟩ := Stack.exists_viable hk htop
  obtain ⟨hn, ws, hws, hcompletes⟩ := exists_completes hviable
  obtain ⟨ds, hds⟩ := exists_derivations fun s (_ : s ∈ p.rhs.drop n) => s.exists_derivation
  obtain ⟨cs, hwritten, -⟩ := exists_written (hds.append hws)
  obtain ⟨rest, hwritten', hrest⟩ :=
    hwritten.of_isBlank (g := ['\n']) (by simp [IsBlank]) (by decide)
  refine ⟨cs, fun last place => ?_⟩
  have hadmits := ds.admits_next rfl hn hcompletes.awaits
  rw [← Lookahead.next_append] at hadmits
  exact hcompletes.exists_deriveFrom hn hds .refl hadmits last hwritten' hrest

end Source

end CadenceEntry
