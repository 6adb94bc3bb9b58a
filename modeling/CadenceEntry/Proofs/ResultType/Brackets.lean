import CadenceEntry.Proofs.Source.Shifting
import CadenceEntry.Proofs.TypeText.Keywords

/-!
# Brackets in types

The words of a type are gone through from left to right, counting the brackets that are open. Where
a brace comes right behind a name while none is open, a restriction list stands outside of all
brackets and the count ends. Within brackets a type closes what it opens, so what is in brackets
never ends the count.
-/

set_option autoImplicit false

namespace CadenceEntry

open Grammar

namespace Grammar

/-- The words that open a bracket. -/
def Terminal.opens (t : Terminal) : Bool :=
  [Terminal.leftParen, .leftBracket, .leftBrace, .less].contains t

/-- The words that close a bracket. -/
def Terminal.closes (t : Terminal) : Bool :=
  [Terminal.rightParen, .rightBracket, .rightBrace, .greater].contains t

/-- A place between two words: how many brackets are open there, and whether a name is right before
it. -/
structure WordPlace where
  depth : Nat := 0
  behindName : Bool := false
  deriving DecidableEq

namespace WordPlace

/-- The place behind the word `t`, unless this is a brace that opens a restriction list outside of
all brackets. -/
def behind? (p : WordPlace) (t : Terminal) : Option WordPlace :=
  if t = .leftBrace ∧ p.depth = 0 ∧ p.behindName = true then none
  else
    some
      { depth := if t.opens then p.depth + 1 else if t.closes then p.depth - 1 else p.depth
        behindName := t == .name }

/-- The place behind some words. -/
def behindAll? (p : WordPlace) (ws : List (Terminal × Lexeme)) : Option WordPlace :=
  ws.foldlM (fun p x => p.behind? x.1) p

variable {p p' : WordPlace} {ws ws' : List (Terminal × Lexeme)}

/-- The place behind words in two parts. -/
theorem behindAll?_append :
    p.behindAll? (ws ++ ws') = (p.behindAll? ws).bind fun p' => p'.behindAll? ws' :=
  List.foldlM_append

/-- The place behind words is found word by word. -/
theorem behindAll?_cons (t : Terminal) (w : Lexeme) :
    p.behindAll? ((t, w) :: ws) = (p.behind? t).bind fun p' => p'.behindAll? ws :=
  List.foldlM_cons

/-- Behind words that have a place behind them, it goes on from there. -/
theorem behindAll?_append_of_some (h : p.behindAll? ws = some p') :
    p.behindAll? (ws ++ ws') = p'.behindAll? ws' := by
  rw [behindAll?_append, h, Option.bind_some]

/-- Behind words that have no place behind them, there is none. -/
theorem behindAll?_append_of_none (h : p.behindAll? ws = none) :
    p.behindAll? (ws ++ ws') = none := by
  rw [behindAll?_append, h, Option.bind_none]

/-- Within brackets, or with no name before it, a brace opens no restriction list that counts. -/
theorem behind?_eq_some {t : Terminal} (h : t = .leftBrace → p.depth = 0 → p.behindName = false) :
    p.behind? t = some
      ⟨if t.opens then p.depth + 1 else if t.closes then p.depth - 1 else p.depth, t == .name⟩ := by
  rw [behind?, if_neg]
  rintro ⟨ht, hdepth, hname⟩
  rw [h ht hdepth] at hname
  exact absurd hname (by simp)

end WordPlace

/-! ## What is in brackets -/

/-- The number of brackets that are open behind some symbols, where `depth` are open before them.
There is none if a symbol stands outside of these brackets. -/
def Symbol.depthBehind? : Nat → List Symbol → Option Nat
  | depth, [] => some depth
  | 0, _ :: _ => none
  | depth + 1, .phrase _ :: ss => depthBehind? (depth + 1) ss
  | depth + 1, .token t :: ss =>
    if t.opens then depthBehind? (depth + 2) ss
    else if t.closes then depthBehind? depth ss
    else depthBehind? (depth + 1) ss

/-- A bracket among symbols opens or closes a level. -/
theorem Symbol.depthBehind?_token (r : Nat) (t : Terminal) (ss : List Symbol) :
    depthBehind? (r + 1) (.token t :: ss) =
      depthBehind? (if t.opens then r + 2 else if t.closes then r else r + 1) ss := by
  rw [depthBehind?]
  split
  · rfl
  · split <;> rfl

/-- A type closes the brackets that it opens. -/
theorem Production.depthBehind?_rhs {p : Production} (hp : p.lhs.isType = true) :
    Symbol.depthBehind? 1 p.rhs = some 1 := by
  have hall : (Production.all.all fun p =>
      !p.lhs.isType || Symbol.depthBehind? 1 p.rhs == some 1) = true := by
    decide
  have hrhs := List.all_eq_true.1 hall p p.mem_all
  rwa [hp, Bool.not_true, Bool.false_or, beq_iff_eq] at hrhs

/-- A word within brackets. -/
theorem WordPlace.behind?_within (t : Terminal) (depth r : Nat) (name : Bool) :
    (WordPlace.mk (depth + (r + 1)) name).behind? t = some
      ⟨depth + (if t.opens then r + 2 else if t.closes then r else r + 1), t == .name⟩ := by
  rw [behind?_eq_some fun _ hdepth => absurd hdepth (by simp)]
  congr 2
  split
  · rfl
  · split
    · simp
    · rfl

mutual

/-- Within brackets the words of a type leave those brackets open that were open before. -/
theorem Derivation.exists_behindAll {n : Nonterminal} (d : Derivation (.phrase n))
    (hn : n.isType = true) (depth : Nat) (name : Bool) : ∃ name',
      (WordPlace.mk (depth + 1) name).behindAll? d.words = some ⟨depth + 1, name'⟩ :=
  match d with
  | .node p ds =>
    ds.exists_behindAll (fun s hs => p.isType_of_mem hn hs) (p.depthBehind?_rhs hn) depth name

/-- Within brackets the words of parts of a type leave open what their symbols do. -/
theorem Derivations.exists_behindAll {ss : List Symbol} (ds : Derivations ss)
    (hss : ∀ s ∈ ss, s.isType = true) {r r' : Nat} (h : Symbol.depthBehind? r ss = some r')
    (depth : Nat) (name : Bool) : ∃ name',
      (WordPlace.mk (depth + r) name).behindAll? ds.words = some ⟨depth + r', name'⟩ :=
  match ds, r with
  | .nil, r => by
    obtain rfl : r = r' := by simpa [Symbol.depthBehind?] using h
    exact ⟨name, rfl⟩
  | .cons _ _, 0 => absurd h (by simp [Symbol.depthBehind?])
  | .cons (s := .token t) (.leaf _ w) ds, r + 1 => by
    rw [Symbol.depthBehind?_token] at h
    obtain ⟨name', hds⟩ :=
      ds.exists_behindAll (fun s hs => hss s (List.mem_cons_of_mem _ hs)) h depth
      (t == .name)
    refine ⟨name', ?_⟩
    rw [Derivations.words, Derivation.words, List.singleton_append, WordPlace.behindAll?_cons,
      WordPlace.behind?_within]
    exact hds
  | .cons (s := .phrase n) d ds, r + 1 => by
    obtain ⟨name₁, hd⟩ := d.exists_behindAll (hss _ List.mem_cons_self) (depth + r) name
    obtain ⟨name', hds⟩ := ds.exists_behindAll (fun s hs => hss s (List.mem_cons_of_mem _ hs))
      (show Symbol.depthBehind? (r + 1) _ = some r' from h) depth name₁
    refine ⟨name', ?_⟩
    rw [Derivations.words, ← hds]
    exact WordPlace.behindAll?_append_of_some hd

end

/-- Whether some symbols are a pair of brackets and what stands in it. -/
def Symbol.areBracketed : List Symbol → Bool
  | .token t :: ss => t.opens && ss.all Symbol.isType && depthBehind? 1 ss == some 0
  | _ => false

/-- A pair of brackets leaves no bracket open. A brace must have no name before it. -/
theorem Derivations.exists_behindAll_brackets {ss : List Symbol} (ds : Derivations ss)
    (h : Symbol.areBracketed ss = true) (name : Bool)
    (hname : ss.head? = some (.token .leftBrace) → name = false) : ∃ name',
      (WordPlace.mk 0 name).behindAll? ds.words = some ⟨0, name'⟩ :=
  match ds with
  | .cons (s := .token t) (.leaf _ w) ds => by
    simp only [Symbol.areBracketed, Bool.and_eq_true, List.all_eq_true, beq_iff_eq] at h
    obtain ⟨⟨hopens, htype⟩, hdepth⟩ := h
    obtain ⟨name', hds⟩ := ds.exists_behindAll htype hdepth 0 (t == .name)
    refine ⟨name', ?_⟩
    have hbrace : t = .leftBrace → name = false := fun h => hname (by rw [h]; rfl)
    rw [Derivations.words, Derivation.words, List.singleton_append, WordPlace.behindAll?_cons,
      WordPlace.behind?_eq_some fun h _ => hbrace h, Option.bind_some, if_pos hopens]
    exact hds
  | .cons (s := .phrase _) _ _ => absurd h (by simp [Symbol.areBracketed])
  | .nil => absurd h (by simp [Symbol.areBracketed])

/-! ## Lists of names -/

/-- The words of type names, and of lists of them. -/
def Terminal.listWords : List Terminal := [.name, .dot, .comma]

/-- The symbols that type names, and lists of them, are made of. -/
def Symbol.inList : Symbol → Bool
  | .token t => Terminal.listWords.contains t
  | .phrase n => [Nonterminal.nominalType, .moreNameParts, .moreNominals].contains n

/-- What a list of type names is put together from is made of type names. -/
theorem Production.inList_of_mem {p : Production} {s : Symbol}
    (hp : (Symbol.phrase p.lhs).inList = true) (h : s ∈ p.rhs) : s.inList = true := by
  have hall : (Production.all.all fun p =>
      !(Symbol.phrase p.lhs).inList || p.rhs.all Symbol.inList) = true := by
    decide
  have hrhs := List.all_eq_true.1 hall p p.mem_all
  rw [hp, Bool.not_true, Bool.false_or] at hrhs
  exact List.all_eq_true.1 hrhs s h

mutual

/-- Type names consist of names and what stands between them. -/
theorem Derivation.mem_listWords {s : Symbol} (d : Derivation s) (hs : s.inList = true) :
    ∀ x ∈ d.words, x.1 ∈ Terminal.listWords :=
  match d with
  | .leaf t w => by
    intro x hx
    rw [List.mem_singleton.1 hx]
    exact List.contains_iff_mem.1 hs
  | .node p ds => ds.mem_listWords fun s h => p.inList_of_mem hs h

/-- The words of the parts of a list of type names are words of such lists. -/
theorem Derivations.mem_listWords {ss : List Symbol} (ds : Derivations ss)
    (hss : ∀ s ∈ ss, s.inList = true) : ∀ x ∈ ds.words, x.1 ∈ Terminal.listWords :=
  match ds with
  | .nil => by
    intro x hx
    exact absurd hx (by simp [Derivations.words])
  | .cons d ds => by
    intro x hx
    rcases List.mem_append.1 hx with hx | hx
    · exact d.mem_listWords (hss _ List.mem_cons_self) x hx
    · exact ds.mem_listWords (fun s hs => hss s (List.mem_cons_of_mem _ hs)) x hx

end

/-- The last word of a type name is a name. -/
theorem Derivation.exists_last_name (d : Derivation (.phrase .nominalType)) :
    ∃ ws w, d.words = ws ++ [(Terminal.name, w)] := by
  have hparts : ∀ d : Derivation (.phrase .moreNameParts),
      ∃ ws w, d.words = ws ++ [(Terminal.name, w)] := by
    intro d
    obtain ⟨p, hp, ds, rfl⟩ := d.exists_node
    cases p
    case namePartFirst =>
      cases ds with | cons d ds =>
      obtain ⟨d', rfl⟩ := ds.exists_singleton
      cases d' with | leaf t w =>
      exact ⟨d.words, w, by simp [Derivation.words, Derivations.words]⟩
    case namePartNext =>
      cases ds with | cons d ds =>
      cases ds with | cons d' ds =>
      obtain ⟨d'', rfl⟩ := ds.exists_singleton
      cases d'' with | leaf t w =>
      exact ⟨d.words ++ d'.words, w, by simp [Derivation.words, Derivations.words]⟩
    all_goals exact absurd hp (by decide)
  obtain ⟨p, hp, ds, rfl⟩ := d.exists_node
  cases p
  case nominalSimple =>
    obtain ⟨d, rfl⟩ := ds.exists_singleton
    cases d with | leaf t w =>
    exact ⟨[], w, rfl⟩
  case nominalQualified =>
    cases ds with | cons d ds =>
    obtain ⟨d', rfl⟩ := ds.exists_singleton
    obtain ⟨ws, w, hwords⟩ := hparts d'
    exact ⟨d.words ++ ws, w, by simp [Derivation.words, Derivations.words, hwords]⟩
  all_goals exact absurd hp (by decide)

/-- Names, and what stands between them, open and close no brackets. -/
theorem WordPlace.exists_behindAll_list {ws : List (Terminal × Lexeme)}
    (h : ∀ x ∈ ws, x.1 ∈ Terminal.listWords) (depth : Nat) (name : Bool) : ∃ name',
      (WordPlace.mk depth name).behindAll? ws = some ⟨depth, name'⟩ := by
  induction ws generalizing name with
  | nil => exact ⟨name, rfl⟩
  | cons x ws ih =>
    obtain ⟨t, w⟩ := x
    have ht : t ∈ Terminal.listWords := h (t, w) List.mem_cons_self
    have hmarks : ¬ t = .leftBrace ∧ t.opens = false ∧ t.closes = false := by
      revert ht
      cases t <;> decide
    obtain ⟨name', hname⟩ := ih (fun x hx => h x (List.mem_cons_of_mem _ hx)) (t == .name)
    refine ⟨name', ?_⟩
    rw [behindAll?_cons, behind?_eq_some fun h => absurd h hmarks.1, Option.bind_some, hmarks.2.1,
      hmarks.2.2]
    exact hname

/-- Behind a type name stands a name. -/
theorem Derivation.behindAll?_nominalType (d : Derivation (.phrase .nominalType)) (depth : Nat)
    (name : Bool) : (WordPlace.mk depth name).behindAll? d.words = some ⟨depth, true⟩ := by
  have hlist := d.mem_listWords rfl
  obtain ⟨ws, w, hwords⟩ := d.exists_last_name
  rw [hwords] at hlist ⊢
  obtain ⟨name', hname⟩ := WordPlace.exists_behindAll_list
    (fun x hx => hlist x (List.mem_append_left _ hx)) depth name
  rw [WordPlace.behindAll?_append_of_some hname]
  rfl

end Grammar

end CadenceEntry
