import CadenceEntry.Proofs.Body.Header

/-!
# The body behind a header

The body behind a header goes up into the first declaration of the program. On the way there it is
the body of a phrase that lies on the stack above a part of the header: `BodyHeader.places` lists
the phrases and what lies below them. Each production that is put together leads from one of them to
another and keeps the body.
-/

set_option autoImplicit false

namespace CadenceEntry

open Grammar

/-- The phrase that a phase is. -/
def Phase.phrase : Phase → Nonterminal
  | prepare => .prepareBlock
  | pre => .preBlock
  | execute => .executeBlock
  | post => .postBlock

namespace BodyHeader

/-- Whether the header is that of a composite or an interface. -/
def isComposite : BodyHeader → Bool
  | composite _ _ => true
  | _ => false

/-- The phase has the body `b` behind the header `h`. -/
def HasPhase (h : BodyHeader) (b : Block) (d : PhaseDeclaration) : Prop :=
  ∃ p, h = .phase p ∧ d.phase = some p ∧ d.body = b

/-- The declaration has the body `b` behind the header `h`; in a transaction the first member has
it. -/
def Has (h : BodyHeader) (b : Block) : Declaration → Prop
  | .function d => h = .function ∧ d.body = some b
  | .composite d => h.isComposite = true ∧ d.body = b
  | .transaction d => ∃ m ms span, d = .ofMembers {} (.phase m :: ms) span ∧ h.HasPhase b m
  | _ => False

/-- What has the body `b` behind the header `h` comes first in a phrase. -/
def HasFirst (h : BodyHeader) (b : Block) : (s : Symbol) → s.Value → Prop
  | .phrase .block, v => v = b
  | .phrase .functionDeclaration, v => h.Has b (.function v)
  | .phrase .compositeDeclaration, v => h.Has b (.composite v)
  | .phrase .transactionDeclaration, v => h.Has b (.transaction v)
  | .phrase .prepareBlock, v | .phrase .preBlock, v | .phrase .executeBlock, v
  | .phrase .postBlock, v => h.HasPhase b v
  | .phrase .transactionMember, v => ∃ m, v = .phase m ∧ h.HasPhase b m
  | .phrase .transactionMembers, v => ∃ m ms, v = .phase m :: ms ∧ h.HasPhase b m
  | .phrase .declaration, v => ∃ d, v = some d ∧ h.Has b d
  | .phrase .declarations, v => ∃ d ds, v = d :: ds ∧ h.Has b d
  | .phrase .program, v => ∃ d ds, Program.declarations v = d :: ds ∧ h.Has b d
  | _, _ => False

/-- The phrases that the body behind a header goes up into, each with the symbols below it on the
stack. -/
def places (h : BodyHeader) : List (List Symbol × Nonterminal) :=
  (h.symbols, .block) ::
    (match h with
      | function => [([], .functionDeclaration)]
      | composite _ _ => [([], .compositeDeclaration)]
      | phase p =>
        [([.token .transactionWord, .token .leftBrace], p.phrase),
          ([.token .transactionWord, .token .leftBrace], .transactionMember),
          ([.token .transactionWord, .token .leftBrace], .transactionMembers),
          ([], .transactionDeclaration)]) ++
    [([], .declaration), ([], .declarations), ([], .program)]

end BodyHeader

namespace Grammar

/-- The part of a phrase in which the body behind a header is. -/
def Production.bodyPart? : Production → Option Nat
  | .function | .interface => some 3
  | .composite | .prepare | .transactionMembers => some 2
  | .pre | .execute | .post => some 1
  | .memberPrepare | .memberPre | .memberExecute | .memberPost | .memberFirst | .memberNext
  | .declarationFunction | .declarationComposite | .declarationTransaction
  | .declarationsFirst | .declarationsNext | .programSome => some 0
  | _ => none

/-- One of the values has the property `P`, the one at the index `i`. -/
def Symbol.PartAt (P : (s : Symbol) → s.Value → Prop) :
    (ss : List Symbol) → Symbol.Values ss → Nat → Prop
  | [], _, _ => False
  | s :: _, (v, _), 0 => P s v
  | _ :: ss, (_, vs), i + 1 => Symbol.PartAt P ss vs i

end Grammar

namespace BodyHeader

/-- A production that takes a phrase with symbols below it leads to another place. -/
theorem places_closed {h : BodyHeader} {ss ss' : List Symbol} {n : Nonterminal} {p : Production}
    (hplace : (ss ++ ss', n) ∈ h.places) (hrhs : ss' ++ [.phrase n] <+: p.rhs) :
    p.bodyPart? = some ss'.length ∧ (ss, p.lhs) ∈ h.places := by
  have hall : ∀ h ∈ all, ∀ x ∈ h.places, ∀ i ∈ List.range (x.1.length + 1), ∀ p ∈ Production.all,
      x.1.drop i ++ [.phrase x.2] <+: p.rhs →
        p.bodyPart? = some (x.1.length - i) ∧ (x.1.take i, p.lhs) ∈ h.places := by
    decide +kernel
  have hlength : ss.length ∈ List.range ((ss ++ ss').length + 1) := by
    rw [List.mem_range, List.length_append]
    omega
  have hclosed := hall h h.mem_all _ hplace ss.length hlength p p.mem_all
  rw [List.drop_left, List.take_left, List.length_append, Nat.add_sub_cancel_left] at hclosed
  exact hclosed hrhs

/-- A body goes up into the phrase that its header belongs to. -/
theorem eq_of_mem_places {h : BodyHeader} {ss : List Symbol} {n : Nonterminal}
    (hplace : (ss, n) ∈ h.places) :
    (n = .functionDeclaration → h = .function) ∧
      (n = .compositeDeclaration → h.isComposite = true) ∧
      ∀ p : Phase, n = p.phrase → h = .phase p := by
  have hall : ∀ h ∈ all, ∀ x ∈ h.places, (x.2 = .functionDeclaration → h = .function) ∧
      (x.2 = .compositeDeclaration → h.isComposite = true) ∧
      ∀ p ∈ [Phase.prepare, .pre, .execute, .post], x.2 = p.phrase → h = .phase p := by
    decide
  obtain ⟨hfunction, hcomposite, hphase⟩ := hall h h.mem_all _ hplace
  exact ⟨hfunction, hcomposite, fun p => hphase p (by cases p <;> decide)⟩

/-- What a production makes of the body behind a header has it. -/
theorem hasFirst_meaning {h : BodyHeader} {b : Block} {ss : List Symbol} {p : Production} {i : Nat}
    (source : List Char) (s : Unit → Span) (vs : Symbol.Values p.rhs)
    (hplace : (ss, p.lhs) ∈ h.places) (hpart : p.bodyPart? = some i)
    (hvs : Symbol.PartAt (h.HasFirst b) p.rhs vs i) :
    h.HasFirst b (.phrase p.lhs) (p.meaning source s vs) := by
  obtain ⟨hfunction, hcomposite, hphase⟩ := eq_of_mem_places hplace
  cases p
  case function =>
    obtain rfl := Option.some.inj hpart
    exact ⟨hfunction rfl, congrArg some hvs⟩
  case composite =>
    obtain rfl := Option.some.inj hpart
    exact ⟨hcomposite rfl, hvs⟩
  case interface =>
    obtain rfl := Option.some.inj hpart
    exact ⟨hcomposite rfl, hvs⟩
  case prepare =>
    obtain rfl := Option.some.inj hpart
    exact ⟨.prepare, hphase .prepare rfl, rfl, hvs⟩
  case pre =>
    obtain rfl := Option.some.inj hpart
    exact ⟨.pre, hphase .pre rfl, rfl, hvs⟩
  case execute =>
    obtain rfl := Option.some.inj hpart
    exact ⟨.execute, hphase .execute rfl, rfl, hvs⟩
  case post =>
    obtain rfl := Option.some.inj hpart
    exact ⟨.post, hphase .post rfl, rfl, hvs⟩
  case memberPrepare | memberPre | memberExecute | memberPost =>
    obtain rfl := Option.some.inj hpart
    exact ⟨_, rfl, hvs⟩
  case memberFirst =>
    obtain rfl := Option.some.inj hpart
    obtain ⟨v, _⟩ := vs
    obtain ⟨m, rfl, hm⟩ := hvs
    exact ⟨m, [], rfl, hm⟩
  case memberNext =>
    obtain rfl := Option.some.inj hpart
    obtain ⟨ms, v, _⟩ := vs
    obtain ⟨m, ms, rfl, hm⟩ := hvs
    exact ⟨m, ms.concat v, rfl, hm⟩
  case transactionMembers =>
    obtain rfl := Option.some.inj hpart
    obtain ⟨_, _, ms, _⟩ := vs
    obtain ⟨m, ms, rfl, hm⟩ := hvs
    exact ⟨m, ms, s (), rfl, hm⟩
  case declarationFunction | declarationComposite | declarationTransaction =>
    obtain rfl := Option.some.inj hpart
    exact ⟨_, rfl, hvs⟩
  case declarationsFirst =>
    obtain rfl := Option.some.inj hpart
    obtain ⟨v, _⟩ := vs
    obtain ⟨d, rfl, hd⟩ := hvs
    exact ⟨d, [], rfl, hd⟩
  case declarationsNext =>
    obtain rfl := Option.some.inj hpart
    obtain ⟨ds, v, _⟩ := vs
    obtain ⟨d, ds, rfl, hd⟩ := hvs
    exact ⟨d, ds ++ Option.toList v, rfl, hd⟩
  case programSome =>
    obtain rfl := Option.some.inj hpart
    exact hvs
  all_goals exact nomatch hpart

end BodyHeader

namespace Grammar.Stack

/-- A frame keeps its value when a right-hand side is taken off the stack. -/
theorem partAt_of_derivations? {P : (s : Symbol) → s.Value → Prop} {source : List Char}
    {fs rest : List Frame} {f : Frame} {ss : List Symbol} {ds : Derivations ss}
    (hds : derivations? ss (fs ++ f :: rest) = some ds)
    (hf : P f.symbol (f.derivation.value source)) :
    Symbol.PartAt P ss (ds.values source) fs.length := by
  induction fs generalizing ss with
  | nil =>
    cases ss with
    | nil => exact absurd hds (by simp [derivations?])
    | cons s ss =>
      obtain ⟨s', d, q⟩ := f
      simp only [List.nil_append, derivations?] at hds
      split at hds
      · next hs =>
        obtain rfl : s' = s := hs
        obtain ⟨ds', -, rfl⟩ := Option.map_eq_some_iff.1 hds
        exact hf
      · exact absurd hds (by simp)
  | cons f' fs ih =>
    cases ss with
    | nil => exact absurd hds (by simp [derivations?])
    | cons s ss =>
      simp only [List.cons_append, derivations?] at hds
      split at hds
      · obtain ⟨ds', hds', rfl⟩ := Option.map_eq_some_iff.1 hds
        exact ih hds'
      · exact absurd hds (by simp)

end Grammar.Stack

namespace BodyHeader

variable {h : BodyHeader} {b : Block} {source : List Char} {k k' : Stack .program}

/-- The body behind a header has gone up into a phrase on the stack. -/
def Carries (h : BodyHeader) (b : Block) (source : List Char) (k : Stack .program) : Prop :=
  ∃ (fs rest : List Frame) (n : Nonterminal) (d : Derivation (.phrase n)) (q : State),
    k.frames.reverse = fs ++ ⟨.phrase n, d, q⟩ :: rest ∧
      (fs.map Frame.symbol, n) ∈ h.places ∧ h.HasFirst b (.phrase n) (d.value source)

/-- What the body has gone up into stays on the stack when something is pushed. -/
theorem Carries.push (hk : h.Carries b source k) {s : Symbol} {d : Derivation s}
    (hpush : k.push? d = some k') : h.Carries b source k' := by
  obtain ⟨fs, rest, n, d', q', hframes, hplace, hfirst⟩ := hk
  obtain ⟨q, -, hframes'⟩ := Stack.push?_eq_some hpush
  refine ⟨fs, rest ++ [⟨s, d, q⟩], n, d', q', ?_, hplace, hfirst⟩
  rw [hframes', List.reverse_cons, hframes]
  simp

/-- A production either leaves the phrase alone or takes it to its next place. -/
theorem Carries.reduces {a : Lookahead} (hk : h.Carries b source k)
    (hreduces : Stack.Reduces a k k') : h.Carries b source k' := by
  obtain ⟨fs, rest, n, d, q, hframes, hplace, hfirst⟩ := hk
  obtain ⟨p, -, hreduce⟩ := hreduces
  obtain ⟨top, ds, below, hsplit, hds, hpush⟩ := Stack.reduce?_eq_some hreduce
  obtain ⟨q', -, hframes'⟩ := Stack.push?_eq_some hpush
  have hframes'' : k'.frames.reverse = below.reverse ++ [⟨.phrase p.lhs, .node p ds, q'⟩] := by
    rw [hframes', List.reverse_cons]
  have htaken : ∀ fs', fs = below.reverse ++ fs' →
      top.reverse = fs' ++ ⟨.phrase n, d, q⟩ :: rest → h.Carries b source k' := by
    intro fs' hfs htop
    rw [htop] at hds
    have hrhs := Stack.map_symbol_of_derivations? hds
    rw [hfs, List.map_append] at hplace
    obtain ⟨hpart, hplace'⟩ := places_closed hplace
      ⟨rest.map Frame.symbol, by rw [← hrhs]; simp⟩
    rw [List.length_map] at hpart
    refine ⟨below.reverse, [], p.lhs, .node p ds, q', hframes'', hplace', ?_⟩
    rw [Derivation.value]
    exact hasFirst_meaning source _ _ hplace' hpart (Stack.partAt_of_derivations? hds hfirst)
  rw [hsplit, List.reverse_append] at hframes
  rcases List.append_eq_append_iff.1 hframes with ⟨fs', hfs, htop⟩ | ⟨fs', hbelow, htop⟩
  · exact htaken fs' hfs htop
  · cases fs' with
    | nil => exact htaken [] (by simpa using hbelow.symm) (by simpa using htop.symm)
    | cons f rest' =>
      -- the phrase is below what is taken off the stack
      obtain ⟨rfl, -⟩ := List.cons.inj htop
      refine ⟨fs, rest' ++ [⟨.phrase p.lhs, .node p ds, q'⟩], n, d, q, ?_, hplace, hfirst⟩
      rw [hframes'', hbelow]
      simp

/-- What the body has gone up into stays on the stack, or goes further up, when the stack is
settled. -/
theorem Carries.settles {a : Lookahead} (hk : h.Carries b source k)
    (hsettles : Stack.Settles a k k') : h.Carries b source k' := by
  induction hsettles with
  | refl => exact hk
  | tail _ hreduces ih => exact ih.reduces hreduces

/-- In the end the body is that of the first declaration. -/
theorem Carries.result? (hk : h.Carries b source k) {d : Derivation (.phrase .program)}
    (hresult : k.result? = some d) : h.HasFirst b (.phrase .program) (d.value source) := by
  obtain ⟨fs, rest, n, d', q, hframes, -, hfirst⟩ := hk
  obtain ⟨q', hframes'⟩ := Source.frames_of_result? hresult
  rw [hframes', List.reverse_singleton] at hframes
  cases fs with
  | nil =>
    obtain ⟨hsymbol, hd, -⟩ := Frame.mk.inj (List.cons.inj hframes).1
    obtain rfl : Nonterminal.program = n := Symbol.phrase.inj hsymbol
    rw [eq_of_heq hd]
    exact hfirst
  | cons f fs => exact absurd (congrArg List.length hframes) (by simp)

/-- What is derived behind the body of a header has this body first. -/
theorem hasFirst_of_deriveFrom {last : Position} {c : Cursor} {d : Derivation (.phrase .program)}
    (hrun : Source.deriveFrom k last c = .ok d)
    (hpush : ∀ t w k', (k.settle (.word t)).push? (.leaf t w) = some k' → h.Carries b source k')
    (hresult : ∀ d, (k.settle .finish).result? = some d →
      h.HasFirst b (.phrase .program) (d.value source)) :
    h.HasFirst b (.phrase .program) (d.value source) := by
  fun_induction Source.deriveFrom k last c with
  | case1 k last c t w c' _ k₁ k₂ hpushed ih =>
    have hk₂ := hpush t w k₂ hpushed
    refine ih hrun (fun t' w' k₃ hpushed' => ?_) (fun d' hresult' => ?_)
    · exact (hk₂.settles (Stack.settles_settle k₂ _)).push hpushed'
    · exact (hk₂.settles (Stack.settles_settle k₂ _)).result? hresult'
  | case2 => exact absurd hrun (by simp)
  | case3 k last c _ k₁ d' hresult' =>
    obtain rfl := Except.ok.inj hrun
    exact hresult _ hresult'
  | case4 => exact absurd hrun (by simp)
  | case5 => exact absurd hrun (by simp)

end BodyHeader

end CadenceEntry
