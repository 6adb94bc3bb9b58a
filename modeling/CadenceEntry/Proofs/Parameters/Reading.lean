import CadenceEntry.Proofs.Source.Following
import CadenceEntry.Proofs.Source.Replacing
import CadenceEntry.Proofs.Source.Shifting
import CadenceEntry.Proofs.TypeText.RoundTrip

/-!
# Reading parameters that have been written

A parameter is written as its label, its name, a colon and the text of its type. The names may be
any words, keywords included, and the text of the type any text that is a type by itself: what the
automaton looks for behind the colon is what it looks for at the beginning of a type, and a line
feed ends every comment of the text.
-/

set_option autoImplicit false

namespace CadenceEntry

open Grammar
open Source (Head)

/-! ## Words that come next -/

/-- The word `w` comes next at a head, and `rest` is the text behind it. -/
def Source.Head.Finds (h : Head) (t : Terminal) (w rest : List Char) : Prop :=
  ∃ p p', NextWord.read h.state h.cursor = .word t ⟨w, p⟩ ⟨p', rest⟩

namespace Source.Head.Finds

variable {h : Head} {t : Terminal} {w rest : List Char}

/-- A word that is looked for comes next, behind white space. -/
theorem of_matches {g : List Char} (hrest : h.cursor.rest = g ++ (w ++ rest)) (hg : IsBlank g)
    (hadmits : h.state.admits (.word t) = true) (hw : t.Matches w)
    (hname : t = .name → h.state.reserves w = false) (hstops : t.Stops rest) : h.Finds t w rest :=
  ⟨_, _, NextWord.read_of_matches hrest hg hadmits hw hname hstops⟩

/-- A word that comes next is read. -/
theorem exists_leaf (hfinds : h.Finds t w rest) {q q₁ : State}
    (hmove : q.row.move? (.token t) = some q₁) :
    ∃ p p', (Derivation.leaf t ⟨w, p⟩).Reads q h ⟨q₁, p', rest⟩ := by
  obtain ⟨p, p', hread⟩ := hfinds
  exact ⟨p, p', hread, hmove⟩

end Source.Head.Finds

/-- A state that looks for no keyword reserves no name. -/
theorem Grammar.State.reserves_of_matches_name {q : State}
    (hq : ∀ k ∈ Terminal.fixed, q.admits (.word k) = true → WordClass.name.covers k = false)
    {w : List Char} (hw : Terminal.name.Matches w) : q.reserves w = false := by
  rw [Bool.eq_false_iff]
  intro hreserves
  obtain ⟨k, hk, hprop⟩ := List.any_eq_true.1 hreserves
  simp only [Bool.and_eq_true, beq_iff_eq] at hprop
  have hcovers : WordClass.name.covers k = true := (Terminal.covers_iff hprop.2).2 hw
  rw [hq k hk hprop.1] at hcovers
  exact absurd hcovers (by simp)

/-! ## Types behind a colon -/

namespace Grammar

/-- The states behind the colon of a parameter. -/
def State.typeOfParameter : List State := [174, 177]

/-- Behind the colon of a parameter the same is looked for as at the beginning of a type, and it
leads on in the same way. -/
structure State.BeginsType (q : State) : Prop where
  next : Piece.next? 1 = Piece.next? q
  parallel : State.Parallel 1 q
  moves : ∀ (p : Production) (s : Symbol), p.lhs = .annotatedType → p.rhs.head? = some s →
    (State.row 1).move? s = q.row.move? s
  awaits : ∀ (p : Production) (x : Terminal), p.lhs = .annotatedType →
    x = .comma ∨ x = .rightParen → q.Awaits p 0 (.word x)

/-- The states behind the colon of a parameter begin a type. -/
theorem State.beginsType {q : State} (hq : q ∈ typeOfParameter) : q.BeginsType := by
  have hadmits : ∀ q ∈ typeOfParameter, ∀ t ∈ Terminal.all,
      State.admits 1 (.word t) = State.admits q (.word t) := by
    decide +kernel
  have hparallel : ∀ q ∈ typeOfParameter, State.Parallel 1 q := by decide +kernel
  have hmoves : ∀ q ∈ typeOfParameter, ∀ p ∈ Production.all, p.lhs = .annotatedType →
      ∀ s ∈ p.rhs.head?, (State.row 1).move? s = (State.row q).move? s := by
    decide +kernel
  have hexpected : ∀ q ∈ typeOfParameter, ∀ x : Terminal, x = .comma ∨ x = .rightParen →
      ((State.row q).expected .annotatedType).has (.word x) = true := by
    rintro q hq x (rfl | rfl)
    · revert q
      decide +kernel
    · revert q
      decide +kernel
  refine ⟨Piece.next?_congr fun t => hadmits q hq t t.mem_all, hparallel q hq, ?_, ?_⟩
  · intro p s hp hs
    exact hmoves q hq p p.mem_all hp s hs
  · intro p x hp hx
    exact .inr ⟨rfl, by rw [hp]; exact hexpected q hq x hx⟩

/-- The text of a type is read as a type behind the colon of a parameter, and what follows the
parameter comes next. -/
theorem exists_annotatedType {q : State} (hq : q ∈ State.typeOfParameter) {text : String}
    {t : TypeExpr} (ht : TypeExpr.parse text = .ok t) {x : Terminal}
    (hx : x = .comma ∨ x = .rightParen) {w : List Char} (hw : x.chars? = some w)
    (place : Position) (rest : List Char) :
    ∃ (d : Derivation (.phrase .annotatedType)) (h' : Head),
      d.Reads q ⟨q, place, text.toList ++ '\n' :: (w ++ rest)⟩ h' ∧ h'.Finds x w rest ∧
      d.invalidInteger? = none ∧ AnnotatedType.type d.plainValue = t.unplaced := by
  obtain ⟨d, hderive, hvalid, rfl⟩ := TypeExpr.parse_eq_ok_iff.1 ht
  obtain ⟨h₁, hreads, hfinish⟩ := Source.derive_eq_ok_iff.1 hderive
  obtain ⟨d, rfl⟩ : ∃ d₁ : Derivation (.phrase .annotatedType),
      d = .node .typeText (.cons d₁ .nil) := by
    obtain ⟨p, hp, ds, rfl⟩ := d.exists_node
    cases p
    case typeText =>
      obtain ⟨d₁, rfl⟩ := ds.exists_singleton
      exact ⟨d₁, rfl⟩
    all_goals exact absurd hp (by decide)
  obtain ⟨h₂, q₁, hd, -, rfl⟩ := hreads
  obtain ⟨hvalid, -⟩ := (Derivations.invalidInteger?_cons d .nil).1 hvalid
  have htypes := State.beginsType hq
  -- the type is read at its place, without what is behind it
  have hfollows : Head.Follows (Position.movedFrom .origin place) ⟨1, .ofText text.toList⟩
      ⟨q, place, text.toList⟩ := by
    have hmoved : Cursor.Moved (Position.movedFrom .origin place) (.ofText text.toList)
        ⟨place, text.toList⟩ := Cursor.moved_of_movedFrom Nat.one_pos place text.toList
    have hread := NextWord.read_moved 1 hmoved
    unfold NextWord.read at hread
    unfold Head.Follows NextWord.read
    rw [← htypes.next]
    exact hread
  obtain ⟨d', ⟨q', p', y⟩, hmoved, hreads, hnext⟩ :=
    d.exists_moved_of_parts hd hfollows htypes.parallel htypes.moves
  have hfinish' : NextWord.read q' ⟨p', y⟩ = .finish := hnext.finish hfinish
  have hphrase : ∀ p : Production, Symbol.phrase .annotatedType = .phrase p.lhs →
      q.Awaits p 0 (.word x) := fun p hp => htypes.awaits p x (Symbol.phrase.inj hp).symm hx
  have hadmits : q'.admits (.word x) = true := by
    refine d'.admits_of_reads hreads (fun t ht => absurd ht (by simp)) hphrase ?_
    exact d'.admits_next (fun t ht => absurd ht (by simp)) hphrase
  refine ⟨d', ⟨q', p', y ++ '\n' :: (w ++ rest)⟩, d'.reads_before_lineFeed hreads _, ?_,
    hmoved.invalidInteger?_eq_none_iff.2 hvalid, ?_⟩
  · have hmatches : x.Matches w := by
      rcases hx with rfl | rfl
      · exact hw
      · exact hw
    have hstops : x.Stops rest := by
      rcases hx with rfl | rfl
      · exact fun _ _ => rfl
      · exact fun _ _ => rfl
    have hname : x = .name → q'.reserves w = false := by
      rintro rfl
      exact absurd hx (by simp)
    obtain ⟨p₁, p₂, hread⟩ : Head.Finds ⟨q', p'.afterAll (y ++ ['\n']), w ++ rest⟩ x w rest :=
      .of_matches (List.nil_append _).symm (by decide) hadmits hmatches hname hstops
    exact ⟨p₁, p₂, (NextWord.read_of_finish_append hfinish' _).trans hread⟩
  · have hplain : d'.plainValue = AnnotatedType.unplaced (d.value text.toList) :=
      (Derivation.plainValue_of_moved hmoved).trans (d.unplaced_value text.toList).symm
    rw [hplain]
    exact AnnotatedType.type_unplaced _

end Grammar

/-! ## Parameters -/

/-- How a parameter is written. -/
structure ParameterText where
  label : Option String
  name : String
  type : String

namespace ParameterText

/-- The label and the name are words that can be names, keywords included. -/
structure Named (p : ParameterText) : Prop where
  label : ∀ l ∈ p.label, Terminal.name.Matches l.toList
  name : Terminal.name.Matches p.name.toList

/-- The label, the name, a colon, the text of the type and a line feed. -/
def text (p : ParameterText) : String :=
  (p.label.map (· ++ " ")).getD "" ++ p.name ++ ":" ++ p.type ++ "\n"

/-- The parameters with commas between them. -/
def listText (ps : List ParameterText) : String := ",".intercalate (ps.map text)

/-- What stands behind a parameter: the other ones, each behind a comma, the closing parenthesis,
and the rest of the text. -/
def tailChars (ps : List ParameterText) (rest : List Char) : List Char :=
  match ps with
  | [] => ')' :: rest
  | p :: ps => ',' :: (p.text.toList ++ tailChars ps rest)

/-- The text of a list of parameters begins with the first of them. -/
theorem listText_append (p : ParameterText) (ps : List ParameterText) (rest : List Char) :
    (listText (p :: ps)).toList ++ ')' :: rest = p.text.toList ++ tailChars ps rest := by
  unfold listText
  rw [String.toList_intercalate, List.map_cons, List.map_cons, intercalate_cons_eq,
    List.append_assoc]
  congr 1
  induction ps with
  | nil => rfl
  | cons p ps ih =>
    rw [List.map_cons, List.map_cons, List.flatMap_cons, List.append_assoc, ih]
    rfl

end ParameterText

namespace Grammar

/-- A state admits what it can push. -/
theorem State.admits_of_move? {q q' : State} {t : Terminal}
    (h : q.row.move? (.token t) = some q') : q.admits (.word t) = true := by
  simp [State.admits, Row.admits, h]

/-- A word that a state can push is read behind white space. -/
theorem exists_word {q q₁ : State} {t : Terminal} (hmove : q.row.move? (.token t) = some q₁)
    {g w rest : List Char} (hg : IsBlank g) (hw : t.Matches w)
    (hname : t = .name → q.reserves w = false) (hstops : t.Stops rest) (place : Position) :
    ∃ p p', (Derivation.leaf t ⟨w, p⟩).Reads q ⟨q, place, g ++ (w ++ rest)⟩ ⟨q₁, p', rest⟩ := by
  have hfinds : Head.Finds ⟨q, place, g ++ (w ++ rest)⟩ t w rest :=
    .of_matches rfl hg (State.admits_of_move? hmove) hw hname hstops
  exact hfinds.exists_leaf hmove

/-- A mark that a state can push is read. -/
theorem exists_mark {q q₁ : State} {t : Terminal} (hmove : q.row.move? (.token t) = some q₁)
    {x : Char} (ht : t.chars? = some [x]) (hmark : t.class? = none)
    (hcovers : WordClass.name.covers t = false) (place : Position) (rest : List Char) :
    ∃ p p', (Derivation.leaf t ⟨[x], p⟩).Reads q ⟨q, place, x :: rest⟩ ⟨q₁, p', rest⟩ := by
  have hmatches : t.Matches [x] := by
    rw [Terminal.Matches, hmark]
    exact ht
  have hstops : t.Stops rest := by
    intro y _
    rw [Terminal.continues, hmark, hcovers]
    rfl
  have hname : t = .name → q.reserves [x] = false := by
    rintro rfl
    exact absurd hmark (by decide)
  exact exists_word hmove (g := []) (by decide) hmatches hname hstops place

/-- The states that look for a parameter. -/
def State.beforeParameter : List State := [163, 169, 171]

/-- A name is read where a parameter is looked for and behind its label, even if it is spelled like
a keyword. -/
theorem exists_name {q q₁ : State} (hq : q ∈ 173 :: State.beforeParameter)
    (hmove : q.row.move? (.token .name) = some q₁) {g w : List Char} (hg : IsBlank g)
    (hw : Terminal.name.Matches w) {x : Char} (hx : Terminal.name.continues x = false)
    (place : Position) (rest : List Char) :
    ∃ p p', (Derivation.leaf .name ⟨w, p⟩).Reads q ⟨q, place, g ++ (w ++ x :: rest)⟩
      ⟨q₁, p', x :: rest⟩ := by
  have hall : ∀ q ∈ 173 :: State.beforeParameter, ∀ k ∈ Terminal.fixed,
      State.admits q (.word k) = true → WordClass.name.covers k = false := by
    decide +kernel
  have hreserves := State.reserves_of_matches_name (hall q hq) hw
  have hstops : Terminal.name.Stops (x :: rest) := by
    intro y hy
    rw [← Option.some.inj hy]
    exact hx
  exact exists_word hmove hg hw (fun _ => hreserves) hstops place

/-- Behind a parameter the next one begins with a comma, if there is one, and the closing
parenthesis comes next, if there is none. -/
def FindsTail (h : Head) (ps : List ParameterText) (rest : List Char) : Prop :=
  match ps with
  | [] => h.Finds .rightParen [')'] rest
  | p :: ps => h.Finds .comma [','] (p.text.toList ++ ParameterText.tailChars ps rest)

/-- The type of a parameter is read behind its colon. -/
theorem exists_colonAndType {q q₁ q₂ : State} (hcolon : q.row.move? (.token .colon) = some q₁)
    (hq₁ : q₁ ∈ State.typeOfParameter) (hmove : q₁.row.move? (.phrase .annotatedType) = some q₂)
    {text : String} {t : TypeExpr} (ht : TypeExpr.parse text = .ok t) (ps : List ParameterText)
    (place : Position) (rest : List Char) :
    ∃ (ds : Derivations [.token .colon, .phrase .annotatedType]) (h' : Head),
      ds.Reads q
        ⟨q, place, ':' :: (text.toList ++ '\n' :: ParameterText.tailChars ps rest)⟩ h' ∧
      FindsTail h' ps rest ∧ ds.invalidInteger? = none ∧
      AnnotatedType.type ds.plainValues.2.1 = t.unplaced := by
  obtain ⟨p, p', hread⟩ := exists_mark hcolon rfl rfl (by decide) place
    (text.toList ++ '\n' :: ParameterText.tailChars ps rest)
  obtain ⟨d, h', hd, htail, hvalid, htype⟩ :
      ∃ (d : Derivation (.phrase .annotatedType)) (h' : Head),
      d.Reads q₁ ⟨q₁, p', text.toList ++ '\n' :: ParameterText.tailChars ps rest⟩ h' ∧
      FindsTail h' ps rest ∧ d.invalidInteger? = none ∧
      AnnotatedType.type d.plainValue = t.unplaced := by
    cases ps with
    | nil => exact exists_annotatedType hq₁ ht (.inr rfl) rfl p' rest
    | cons p ps => exact exists_annotatedType hq₁ ht (.inl rfl) rfl p' _
  refine ⟨.cons (.leaf .colon ⟨[':'], p⟩) (.cons d .nil), h',
    ⟨_, q₁, hread, hcolon, h', q₂, hd, hmove, rfl⟩, htail, ?_, htype⟩
  exact (Derivations.invalidInteger?_cons _ _).2
    ⟨rfl, (Derivations.invalidInteger?_cons _ _).2 ⟨hvalid, rfl⟩⟩

/-- A parameter that has been written is read, and what follows it comes next. -/
theorem exists_parameter {q : State} (hq : q ∈ State.beforeParameter) {p : ParameterText}
    (hp : p.Named) {t : TypeExpr} (ht : TypeExpr.parse p.type = .ok t) (ps : List ParameterText)
    (place : Position) (rest : List Char) :
    ∃ (d : Derivation (.phrase .parameter)) (h' : Head),
      d.Reads q ⟨q, place, p.text.toList ++ ParameterText.tailChars ps rest⟩ h' ∧
      FindsTail h' ps rest ∧ d.invalidInteger? = none ∧
      (Parameter.type d.plainValue).type = t.unplaced := by
  obtain ⟨label, name, type⟩ := p
  obtain ⟨hlabel, hname⟩ := hp
  have hmove : q.row.move? (.token .name) = some 173 := by
    revert q
    decide
  have hmem : q ∈ 173 :: State.beforeParameter := List.mem_cons_of_mem _ hq
  have hcolon : Terminal.name.continues ':' = false := rfl
  cases label with
  | none =>
    obtain ⟨p₁, p₂, hread⟩ := exists_name hmem hmove (g := []) (by decide) hname hcolon place
      (type.toList ++ '\n' :: ParameterText.tailChars ps rest)
    obtain ⟨ds, h', hds, htail, hvalid, htype⟩ :=
      exists_colonAndType (q := 173) rfl (by decide) rfl ht ps p₂ rest
    refine ⟨.node .parameter (.cons (.leaf .name ⟨name.toList, p₁⟩) ds), h',
      ⟨_, 173, ?_, hmove, hds⟩, htail, ?_, htype⟩
    · simpa [ParameterText.text] using hread
    · exact (Derivations.invalidInteger?_cons _ _).2 ⟨rfl, hvalid⟩
  | some label =>
    obtain ⟨p₁, p₂, hread⟩ := exists_name hmem hmove (g := []) (by decide)
      (hlabel label rfl) (x := ' ') rfl place
      (name.toList ++ ':' :: (type.toList ++ '\n' :: ParameterText.tailChars ps rest))
    obtain ⟨p₃, p₄, hread'⟩ := exists_name (q := 173) (by decide) rfl (g := [' ']) (by decide)
      hname hcolon p₂ (type.toList ++ '\n' :: ParameterText.tailChars ps rest)
    obtain ⟨ds, h', hds, htail, hvalid, htype⟩ :=
      exists_colonAndType (q := 176) rfl (by decide) rfl ht ps p₄ rest
    refine ⟨.node .parameterLabeled (.cons (.leaf .name ⟨label.toList, p₁⟩)
      (.cons (.leaf .name ⟨name.toList, p₃⟩) ds)), h',
      ⟨_, 173, ?_, hmove, _, 176, hread', rfl, hds⟩, htail, ?_, htype⟩
    · simpa [ParameterText.text] using hread
    · exact (Derivations.invalidInteger?_cons _ _).2
        ⟨rfl, (Derivations.invalidInteger?_cons _ _).2 ⟨rfl, hvalid⟩⟩

/-- The types of the parameters that derivations of parameters mean. -/
def parameterTypes (ps : List Parameter) : List TypeExpr := ps.map fun p => p.type.type

/-- The type of the last parameter comes last. -/
theorem parameterTypes_concat {ps : List Parameter} {p : Parameter} {ts : List TypeExpr}
    {t : TypeExpr} (hps : parameterTypes ps = ts) (hp : p.type.type = t) :
    parameterTypes (ps.concat p) = ts ++ [t] := by
  rw [parameterTypes, List.concat_eq_append, List.map_append, ← hps, ← hp]
  rfl

/-- The parameters behind the first ones are read one after the other, up to the closing
parenthesis. -/
theorem exists_moreParameters {ps : List ParameterText} {ts : List TypeExpr}
    (hnamed : ∀ p ∈ ps, p.Named)
    (htypes : List.Forall₂ (fun p t => TypeExpr.parse p.type = .ok t) ps ts)
    (d : Derivation (.phrase .moreParameters)) {h h₁ : Head} (hd : d.Reads 164 h h₁)
    (hvalid : d.invalidInteger? = none) {ts₁ : List TypeExpr}
    (htypes₁ : parameterTypes d.plainValue = ts₁) {rest : List Char}
    (htail : FindsTail h₁ ps rest) :
    ∃ (d' : Derivation (.phrase .moreParameters)) (h' : Head), d'.Reads 164 h h' ∧
      h'.Finds .rightParen [')'] rest ∧ d'.invalidInteger? = none ∧
      parameterTypes d'.plainValue = ts₁ ++ ts.map TypeExpr.unplaced := by
  induction htypes generalizing d h₁ ts₁ with
  | nil => exact ⟨d, h₁, hd, htail, hvalid, by rw [htypes₁]; exact (List.append_nil _).symm⟩
  | @cons p t ps ts ht _ ih =>
    have htail' : h₁.Finds .comma [','] (p.text.toList ++ ParameterText.tailChars ps rest) := htail
    obtain ⟨p₁, p₂, hcomma⟩ := htail'.exists_leaf
        (show (State.row 165).move? _ = some 171 from rfl)
    obtain ⟨d₂, h₂, hd₂, htail₂, hvalid₂, htype₂⟩ := exists_parameter (q := 171) (by decide)
      (hnamed p List.mem_cons_self) ht ps p₂ rest
    have hlonger : parameterTypes (List.concat d.plainValue d₂.plainValue) =
        ts₁ ++ [t.unplaced] := parameterTypes_concat htypes₁ htype₂
    obtain ⟨d', h', hd', hfinds, hvalid', htypes'⟩ :=
      ih (fun p hp => hnamed p (List.mem_cons_of_mem _ hp))
        (.node .parameterNext (.cons d (.cons (.leaf .comma ⟨[','], p₁⟩) (.cons d₂ .nil))))
        ⟨h₁, 165, hd, rfl, _, 171, hcomma, rfl, h₂, 172, hd₂, rfl, rfl⟩
        ((Derivations.invalidInteger?_cons _ _).2 ⟨hvalid,
          (Derivations.invalidInteger?_cons _ _).2 ⟨rfl,
            (Derivations.invalidInteger?_cons _ _).2 ⟨hvalid₂, rfl⟩⟩⟩) hlonger htail₂
    refine ⟨d', h', hd', hfinds, hvalid', ?_⟩
    rw [htypes', List.append_assoc]
    rfl

/-- The states behind a list of parameters. -/
def State.behindParameters : List State := [166, 167, 168]

/-- A list of parameters that has been written is read. -/
theorem exists_parameterList {q : State} (hopen : q.row.move? (.token .leftParen) = some 163)
    {ps : List ParameterText} {ts : List TypeExpr} (hnamed : ∀ p ∈ ps, p.Named)
    (htypes : List.Forall₂ (fun p t => TypeExpr.parse p.type = .ok t) ps ts) (place : Position)
    (rest : List Char) :
    ∃ (d : Derivation (.phrase .parameterList)) (q' : State) (p' : Position),
      d.Reads q ⟨q, place, '(' :: ((ParameterText.listText ps).toList ++ ')' :: rest)⟩
        ⟨q', p', rest⟩ ∧
      q' ∈ State.behindParameters ∧ d.invalidInteger? = none ∧
      parameterTypes (ParameterList.parameters d.plainValue) = ts.map TypeExpr.unplaced := by
  obtain ⟨p₁, p₂, hread⟩ := exists_mark hopen rfl rfl (by decide) place
    ((ParameterText.listText ps).toList ++ ')' :: rest)
  cases htypes with
  | nil =>
    obtain ⟨p₃, p₄, hclose⟩ := exists_mark (q := 163) (t := .rightParen) rfl rfl rfl (by decide)
      p₂ rest
    exact ⟨.node .parametersNone (.cons (.leaf .leftParen ⟨['('], p₁⟩)
        (.cons (.leaf .rightParen ⟨[')'], p₃⟩) .nil)), 168, p₄,
      ⟨_, 163, hread, hopen, _, 168, hclose, rfl, rfl⟩, by decide, rfl, rfl⟩
  | @cons p t ps ts ht htypes =>
    rw [ParameterText.listText_append] at hread ⊢
    obtain ⟨d, h, hd, htail, hvalid, htype⟩ := exists_parameter (q := 163) (by decide)
      (hnamed p List.mem_cons_self) ht ps p₂ rest
    cases htypes with
    | nil =>
      have hfinds : h.Finds .rightParen [')'] rest := htail
      obtain ⟨p₃, p₄, hclose⟩ := hfinds.exists_leaf
        (show (State.row 164).move? _ = some 167 from rfl)
      refine ⟨.node .parametersOne (.cons (.leaf .leftParen ⟨['('], p₁⟩)
          (.cons d (.cons (.leaf .rightParen ⟨[')'], p₃⟩) .nil))), 167, p₄,
        ⟨_, 163, hread, hopen, h, 164, hd, rfl, _, 167, hclose, rfl, rfl⟩, by decide, ?_, ?_⟩
      · exact (Derivations.invalidInteger?_cons _ _).2 ⟨rfl,
          (Derivations.invalidInteger?_cons _ _).2 ⟨hvalid, rfl⟩⟩
      · exact congrArg (fun t => [t]) htype
    | @cons p₀ t₀ ps ts ht₀ htypes =>
      have htail' : h.Finds .comma [','] (p₀.text.toList ++ ParameterText.tailChars ps rest) :=
        htail
      obtain ⟨p₃, p₄, hcomma⟩ := htail'.exists_leaf
        (show (State.row 164).move? _ = some 169 from rfl)
      have hnamed' := fun p hp => hnamed p (List.mem_cons_of_mem _ hp)
      obtain ⟨d₀, h₀, hd₀, htail₀, hvalid₀, htype₀⟩ := exists_parameter (q := 169) (by decide)
        (hnamed' p₀ List.mem_cons_self) ht₀ ps p₄ rest
      -- the second parameter begins the list that the further ones are put behind
      obtain ⟨ds, h', hds, hfinds, hvalidAll, htypesAll⟩ :=
        exists_moreParameters (fun p hp => hnamed' p (List.mem_cons_of_mem _ hp)) htypes
          (.node .parameterFirst (.cons (.leaf .comma ⟨[','], p₃⟩) (.cons d₀ .nil)))
          ⟨_, 169, hcomma, rfl, h₀, 170, hd₀, rfl, rfl⟩
          ((Derivations.invalidInteger?_cons _ _).2 ⟨rfl,
            (Derivations.invalidInteger?_cons _ _).2 ⟨hvalid₀, rfl⟩⟩)
          (congrArg (fun t => [t]) htype₀) htail₀
      obtain ⟨p₅, p₆, hclose⟩ := hfinds.exists_leaf
        (show (State.row 165).move? _ = some 166 from rfl)
      refine ⟨.node .parametersMany (.cons (.leaf .leftParen ⟨['('], p₁⟩)
          (.cons d (.cons ds (.cons (.leaf .rightParen ⟨[')'], p₅⟩) .nil)))), 166, p₆,
        ⟨_, 163, hread, hopen, h, 164, hd, rfl, h', 165, hds, rfl, _, 166, hclose, rfl, rfl⟩,
        by decide, ?_, ?_⟩
      · exact (Derivations.invalidInteger?_cons _ _).2 ⟨rfl,
          (Derivations.invalidInteger?_cons _ _).2 ⟨hvalid,
            (Derivations.invalidInteger?_cons _ _).2 ⟨hvalidAll, rfl⟩⟩⟩
      · exact congrArg₂ List.cons htype htypesAll

end Grammar

end CadenceEntry
