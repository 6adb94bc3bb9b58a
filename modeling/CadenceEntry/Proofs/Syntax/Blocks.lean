import CadenceEntry.Proofs.Syntax.Moved

/-!
# The bodies of a syntax tree

The bodies in the value of a derivation are cut out of the text where the derivation has a body.
(The derivation may have more: of a phase that is repeated the value keeps the last occurrence.)
-/

set_option autoImplicit false

namespace CadenceEntry

open Grammar

/-- The bodies of the phases of a transaction. -/
def TransactionDeclaration.blocks (d : TransactionDeclaration) : List Block :=
  [d.prepare, d.pre, d.execute, d.post].flatMap fun p => (p.map PhaseDeclaration.body).toList

/-- The bodies in a declaration. -/
def Declaration.blocks : Declaration → List Block
  | .transaction d => d.blocks
  | .function d => d.body.toList
  | .composite d => [d.body]
  | _ => []

/-- The bodies in a program. -/
def Program.blocks (p : Program) : List Block := p.declarations.flatMap Declaration.blocks

/-- The body of a phase. -/
def TransactionMember.blocks : TransactionMember → List Block
  | .field _ => []
  | .phase d => [d.body]

/-- The phases of a transaction are members of it. -/
theorem TransactionMember.mem_of_lastPhase? {p : Phase} {ms : List TransactionMember}
    {d : PhaseDeclaration} (h : lastPhase? p ms = some d) : .phase d ∈ ms := by
  obtain ⟨m, hm, hd⟩ := List.mem_filterMap.1 (List.mem_of_getLast? h)
  cases m with
  | field => exact absurd hd (by simp)
  | phase d' =>
    dsimp only at hd
    split at hd
    · obtain rfl := Option.some.inj hd
      exact hm
    · exact absurd hd (by simp)

/-- The bodies of a transaction are bodies of its members. -/
theorem TransactionDeclaration.blocks_ofMembers_subset {ps : ParameterList}
    {ms : List TransactionMember} {span : Span} {b : Block}
    (hb : b ∈ (ofMembers ps ms span).blocks) : b ∈ ms.flatMap TransactionMember.blocks := by
  have hphase : ∀ p : Phase, b ∈ ((TransactionMember.lastPhase? p ms).map
      PhaseDeclaration.body).toList → b ∈ ms.flatMap TransactionMember.blocks := by
    intro p hp
    obtain ⟨d, hd, rfl⟩ := Option.map_eq_some_iff.1 (Option.mem_toList.1 hp)
    have hmem := TransactionMember.mem_of_lastPhase? hd
    exact List.mem_flatMap.2 ⟨.phase d, hmem, List.mem_singleton.2 rfl⟩
  obtain ⟨o, ho, hb⟩ := List.mem_flatMap.1 hb
  simp only [ofMembers, List.mem_cons, List.not_mem_nil, or_false] at ho
  rcases ho with rfl | rfl | rfl | rfl
  · exact hphase _ hb
  · exact hphase _ hb
  · exact hphase _ hb
  · exact hphase _ hb

namespace Grammar

/-- The bodies in the value of a phrase. -/
def Nonterminal.blocks : (n : Nonterminal) → n.Value → List Block
  | .program => Program.blocks
  | .declarations => List.flatMap Declaration.blocks
  | .declaration => fun d => (Option.toList d).flatMap Declaration.blocks
  | .transactionDeclaration => TransactionDeclaration.blocks
  | .transactionMembers => List.flatMap TransactionMember.blocks
  | .transactionMember => TransactionMember.blocks
  | .prepareBlock | .preBlock | .executeBlock | .postBlock => fun d => [PhaseDeclaration.body d]
  | .functionDeclaration => fun d => (FunctionDeclaration.body d).toList
  | .compositeDeclaration => fun d => [CompositeDeclaration.body d]
  | .block => fun b => [b]
  | _ => fun _ => []

/-- The bodies in the value of a symbol. -/
def Symbol.blocks : (s : Symbol) → s.Value → List Block
  | .token _ => fun _ => []
  | .phrase n => n.blocks

/-- The bodies in the values of a list of symbols. -/
def Symbol.blocksAll : (ss : List Symbol) → Symbol.Values ss → List Block
  | [], _ => []
  | s :: ss, (v, vs) => s.blocks v ++ Symbol.blocksAll ss vs

/-- A production takes the bodies of its parts, unless it makes a body. -/
theorem Production.mem_blocks_meaning (p : Production) {source : List Char} {s : Unit → Span}
    {vs : Symbol.Values p.rhs} {b : Block} (hb : b ∈ p.lhs.blocks (p.meaning source s vs)) :
    b ∈ Symbol.blocksAll p.rhs vs ∨ p.lhs = .block ∧ b = Block.ofSpan source (s ()) := by
  have hdeclarations : ∀ (ds : List Declaration) (d : Option Declaration),
      b ∈ (ds ++ d.toList).flatMap Declaration.blocks →
        b ∈ ds.flatMap Declaration.blocks ∨ b ∈ d.toList.flatMap Declaration.blocks := by
    intro ds d h
    rwa [List.flatMap_append, List.mem_append] at h
  have hmembers : ∀ (ms : List TransactionMember) (m : TransactionMember),
      b ∈ (ms.concat m).flatMap TransactionMember.blocks →
        b ∈ ms.flatMap TransactionMember.blocks ∨ b ∈ m.blocks := by
    intro ms m h
    rwa [List.concat_eq_append, List.flatMap_append, List.flatMap_singleton, List.mem_append] at h
  cases p
  case blockItems => exact .inr ⟨rfl, List.mem_singleton.1 hb⟩
  case blockEmpty => exact .inr ⟨rfl, List.mem_singleton.1 hb⟩
  case programSome =>
    obtain ⟨ds, _⟩ := vs
    exact .inl (List.mem_append_left _ hb)
  case transactionParametersMembers =>
    obtain ⟨_, ps, _, ms, _, _⟩ := vs
    have hms := TransactionDeclaration.blocks_ofMembers_subset hb
    exact .inl (List.mem_append_left [] hms)
  case transactionMembers =>
    obtain ⟨_, _, ms, _, _⟩ := vs
    have hms := TransactionDeclaration.blocks_ofMembers_subset hb
    exact .inl (List.mem_append_left [] hms)
  case declarationsFirst =>
    obtain ⟨d, _⟩ := vs
    exact .inl (List.mem_append_left [] hb)
  case declarationsNext =>
    obtain ⟨ds, d, _⟩ := vs
    rcases hdeclarations ds d hb with hb | hb
    · exact .inl (List.mem_append_left _ hb)
    · exact .inl (List.mem_append_right _ (List.mem_append_left [] hb))
  case memberNext =>
    obtain ⟨ms, m, _⟩ := vs
    rcases hmembers ms m hb with hb | hb
    · exact .inl (List.mem_append_left _ hb)
    · exact .inl (List.mem_append_right _ (List.mem_append_left [] hb))
  all_goals exact .inl hb

/-- What a body consists of are no bodies. -/
theorem Production.not_mem_blocksAll (p : Production) (hp : p.lhs = .block)
    (vs : Symbol.Values p.rhs) {b : Block} : b ∉ Symbol.blocksAll p.rhs vs := by
  cases p
  case blockItems => exact List.not_mem_nil
  case blockEmpty => exact List.not_mem_nil
  all_goals exact absurd hp (by decide)

mutual

/-- A body in the value of a derivation is the text of a body of the derivation. -/
theorem Derivation.mem_bodies_of_mem_blocks {s : Symbol} (d : Derivation s) {source : List Char}
    {b : Block} (hb : b ∈ s.blocks (d.value source)) :
    b.span ∈ d.bodies ∧ b = Block.ofSpan source b.span :=
  match d with
  | .leaf t w => absurd hb List.not_mem_nil
  | .node p ds => by
    rw [Derivation.bodies]
    have hb' : b ∈ p.lhs.blocks (p.meaning source (fun _ => ds.span) (ds.values source)) := hb
    rcases p.mem_blocks_meaning hb' with hb | ⟨hp, rfl⟩
    · obtain ⟨hmem, heq⟩ := ds.mem_bodies_of_mem_blocks hb
      refine ⟨?_, heq⟩
      split
      · next hp => exact absurd hb (p.not_mem_blocksAll hp _)
      · exact hmem
    · rw [if_pos hp]
      exact ⟨List.mem_singleton.2 rfl, rfl⟩

/-- A body in the values of derivations is the text of a body of the derivations. -/
theorem Derivations.mem_bodies_of_mem_blocks {ss : List Symbol} (ds : Derivations ss)
    {source : List Char} {b : Block} (hb : b ∈ Symbol.blocksAll ss (ds.values source)) :
    b.span ∈ ds.bodies ∧ b = Block.ofSpan source b.span :=
  match ds with
  | .nil => absurd hb List.not_mem_nil
  | .cons d ds => by
    rw [Derivations.bodies, List.mem_append]
    rcases List.mem_append.1 hb with hb | hb
    · obtain ⟨hmem, heq⟩ := d.mem_bodies_of_mem_blocks hb
      exact ⟨.inl hmem, heq⟩
    · obtain ⟨hmem, heq⟩ := ds.mem_bodies_of_mem_blocks hb
      exact ⟨.inr hmem, heq⟩

end

end Grammar

end CadenceEntry
