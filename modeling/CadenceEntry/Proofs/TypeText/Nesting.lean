import CadenceEntry.Proofs.TypeText.WellFormed

/-!
# Brackets in the text of a type

`depth` counts the brackets that are open at the end of a text. Brackets are balanced in the text of
a type, so the parts of an array or a dictionary can be told from its text: outside of all brackets
the text of a type has no semicolon, and a colon only behind the parenthesis of a function type, in
which the text of a type never ends.
-/

set_option autoImplicit false

namespace CadenceEntry

open Grammar

/-- One for an opening bracket, minus one for a closing bracket. -/
def nesting (c : Char) : Int :=
  if c ∈ ['(', '[', '\x7b', '<'] then 1 else if c ∈ [')', ']', '\x7d', '>'] then -1 else 0

/-- The number of brackets that are open at the end of a text. -/
def depth : List Char → Int
  | [] => 0
  | c :: cs => nesting c + depth cs

/-- In the empty text no bracket is open. -/
@[simp] theorem depth_nil : depth [] = 0 := rfl

/-- The first character opens a bracket, closes one or does neither. -/
@[simp] theorem depth_cons (c : Char) (cs : List Char) : depth (c :: cs) = nesting c + depth cs :=
  rfl

/-- The brackets that two texts leave open add up. -/
@[simp] theorem depth_append (cs cs' : List Char) : depth (cs ++ cs') = depth cs + depth cs' := by
  induction cs with
  | nil => simp
  | cons c cs ih => rw [List.cons_append, depth_cons, depth_cons, ih, Int.add_assoc]

/-- A text without brackets leaves none open. -/
theorem depth_eq_zero {cs : List Char} (h : ∀ c ∈ cs, nesting c = 0) : depth cs = 0 := by
  induction cs with
  | nil => rfl
  | cons c cs ih =>
    rw [depth_cons, h c List.mem_cons_self, ih fun x hx => h x (List.mem_cons_of_mem _ hx)]
    rfl

/-- A text that is split before a character is split in its first part or in its second. -/
theorem append_eq_append_cons {a b x y : List Char} {c : Char} (h : x ++ y = a ++ c :: b) :
    (∃ b', x = a ++ c :: b') ∨ ∃ a', a = x ++ a' ∧ y = a' ++ c :: b := by
  rcases List.append_eq_append_iff.1 h with ⟨a', rfl, hy⟩ | ⟨c', rfl, hc⟩
  · exact .inr ⟨a', rfl, hy⟩
  · cases c' with
    | nil => exact .inr ⟨[], by simp, by simpa using hc.symm⟩
    | cons x' c' =>
      obtain ⟨rfl, -⟩ := List.cons.inj hc
      exact .inl ⟨c', rfl⟩

/-- Two texts that are split before the same character are split in the same way if neither part
before it goes on with this character behind the other. -/
theorem append_cons_inj {a a' b b' : List Char} {c : Char} (h : a ++ c :: b = a' ++ c :: b')
    (ha : ∀ x, a ≠ a' ++ c :: x) (ha' : ∀ x, a' ≠ a ++ c :: x) : a = a' ∧ b = b' := by
  rcases append_eq_append_cons h with ⟨x, hx⟩ | ⟨x, rfl, hx⟩
  · exact absurd hx (ha x)
  · cases x with
    | nil => exact ⟨by simp, (List.cons.inj hx).2⟩
    | cons y x =>
      obtain ⟨rfl, -⟩ := List.cons.inj hx
      exact absurd rfl (ha' x)

/-- Every bracket that is opened in a text is closed in it, and no other one. -/
structure Balanced (cs : List Char) : Prop where
  depth_eq : depth cs = 0
  depth_nonneg : ∀ a b, cs = a ++ b → 0 ≤ depth a

/-- Outside of brackets a text has no semicolon, and colons behind closing parentheses only. -/
structure Enclosed (cs : List Char) : Prop extends Balanced cs where
  semicolon : ∀ a b, cs = a ++ ';' :: b → 0 < depth a
  colon : ∀ a b, cs = a ++ ':' :: b → 0 < depth a ∨ a.getLast? = some ')'

namespace Balanced

/-- A text without brackets is balanced. -/
theorem of_forall {cs : List Char} (h : ∀ c ∈ cs, nesting c = 0) : Balanced cs where
  depth_eq := depth_eq_zero h
  depth_nonneg := by
    rintro a b rfl
    have hzero := depth_eq_zero fun c hc => h c (List.mem_append_left _ hc)
    omega

/-- A text is balanced if a check says that it has no brackets. -/
theorem of_all {cs : List Char} (h : (cs.all fun c => nesting c == 0) = true) : Balanced cs :=
  .of_forall fun c hc => beq_iff_eq.1 (List.all_eq_true.1 h c hc)

/-- Balanced texts make up a balanced one. -/
theorem append {x y : List Char} (hx : Balanced x) (hy : Balanced y) : Balanced (x ++ y) where
  depth_eq := by rw [depth_append, hx.depth_eq, hy.depth_eq, add_zero]
  depth_nonneg := by
    intro a b h
    rcases List.append_eq_append_iff.1 h with ⟨a', rfl, hy'⟩ | ⟨b', hx', -⟩
    · have hnonneg := hy.depth_nonneg a' b hy'
      rw [depth_append, hx.depth_eq]
      omega
    · exact hx.depth_nonneg a b' hx'

end Balanced

namespace Enclosed

/-- A text without brackets, semicolons and colons is enclosed. -/
theorem of_forall {cs : List Char} (h : ∀ c ∈ cs, nesting c = 0 ∧ c ≠ ';' ∧ c ≠ ':') :
    Enclosed cs where
  toBalanced := .of_forall fun c hc => (h c hc).1
  semicolon := by
    rintro a b rfl
    exact absurd rfl (h ';' (by simp)).2.1
  colon := by
    rintro a b rfl
    exact absurd rfl (h ':' (by simp)).2.2

/-- A text is enclosed if a check says that it has no such characters. -/
theorem of_all {cs : List Char}
    (h : (cs.all fun c => nesting c == 0 && (c != ';' && c != ':')) = true) : Enclosed cs := by
  refine .of_forall fun c hc => ?_
  have hall := List.all_eq_true.1 h c hc
  rwa [Bool.and_eq_true, Bool.and_eq_true, beq_iff_eq, bne_iff_ne, bne_iff_ne] at hall

/-- The empty text is enclosed. -/
theorem nil : Enclosed [] := of_forall nofun

/-- Enclosed texts make up an enclosed one. -/
theorem append {x y : List Char} (hx : Enclosed x) (hy : Enclosed y) : Enclosed (x ++ y) where
  toBalanced := hx.toBalanced.append hy.toBalanced
  semicolon := by
    intro a b h
    rcases append_eq_append_cons h with ⟨b', hb'⟩ | ⟨a', rfl, ha'⟩
    · exact hx.semicolon a b' hb'
    · rw [depth_append, hx.depth_eq, zero_add]
      exact hy.semicolon a' b ha'
  colon := by
    intro a b h
    rcases append_eq_append_cons h with ⟨b', hb'⟩ | ⟨a', rfl, ha'⟩
    · exact hx.colon a b' hb'
    · rw [depth_append, hx.depth_eq, zero_add]
      rcases hy.colon a' b ha' with hdepth | hlast
      · exact .inl hdepth
      · right
        rw [List.getLast?_append, hlast]
        rfl

/-- Whatever stands between brackets, nothing of it is outside of brackets. -/
theorem wrap {cs : List Char} (h : Balanced cs) {o c : Char} (ho : nesting o = 1)
    (hc : nesting c = -1) : Enclosed (o :: (cs ++ [c])) := by
  have hdepth : ∀ {s : Char} (a b : List Char), nesting s = 0 →
      o :: (cs ++ [c]) = a ++ s :: b → 0 < depth a := by
    intro s a b hs heq
    cases a with
    | nil =>
      obtain ⟨rfl, -⟩ := List.cons.inj heq
      omega
    | cons x a =>
      obtain ⟨rfl, hrest⟩ := List.cons.inj heq
      have hnonneg : 0 ≤ depth a := by
        rcases append_eq_append_cons hrest with ⟨b', hb'⟩ | ⟨a', rfl, ha'⟩
        · exact h.depth_nonneg a _ hb'
        · cases a' with
          | nil =>
            obtain ⟨rfl, -⟩ := List.cons.inj ha'
            omega
          | cons y a' =>
            have hnil := (List.cons.inj ha').2
            simp at hnil
      rw [depth_cons, ho]
      omega
  refine ⟨⟨?_, ?_⟩, fun a b => hdepth a b (by decide), fun a b heq =>
    .inl (hdepth a b (by decide) heq)⟩
  · simp [ho, hc, h.depth_eq]
  · intro a b heq
    cases a with
    | nil => exact Int.le_refl 0
    | cons x a =>
      obtain ⟨rfl, hrest⟩ := List.cons.inj heq
      rw [depth_cons, ho]
      rcases List.append_eq_append_iff.1 hrest with ⟨a', rfl, ha'⟩ | ⟨b', hb', -⟩
      · have hle : -1 ≤ depth a' := by
          cases a' with
          | nil => simp
          | cons y a' =>
            obtain ⟨rfl, hnil⟩ := List.cons.inj ha'
            obtain ⟨rfl, -⟩ := List.append_eq_nil_iff.1 hnil.symm
            simp [hc]
        rw [depth_append, h.depth_eq]
        omega
      · have hnonneg := h.depth_nonneg a b' hb'
        omega

/-- A colon behind a closing parenthesis. -/
theorem append_colon {x y : List Char} (hx : Enclosed x) (hlast : x.getLast? = some ')')
    (hy : Enclosed y) : Enclosed (x ++ ':' :: y) := by
  have hmark : Balanced [':'] := .of_all (by decide)
  have hbalanced : Balanced (':' :: y) := hmark.append hy.toBalanced
  refine ⟨hx.toBalanced.append hbalanced, ?_, ?_⟩
  · intro a b h
    rcases append_eq_append_cons h with ⟨b', hb'⟩ | ⟨a', rfl, ha'⟩
    · exact hx.semicolon a b' hb'
    · cases a' with
      | nil => exact absurd (List.cons.inj ha').1 (by decide)
      | cons z a' =>
        obtain ⟨rfl, hrest⟩ := List.cons.inj ha'
        have hpos := hy.semicolon a' b hrest
        rw [depth_append, hx.depth_eq, depth_cons]
        simpa [nesting] using hpos
  · intro a b h
    rcases append_eq_append_cons h with ⟨b', hb'⟩ | ⟨a', rfl, ha'⟩
    · exact hx.colon a b' hb'
    · cases a' with
      | nil =>
        rw [List.append_nil]
        exact .inr hlast
      | cons z a' =>
        obtain ⟨rfl, hrest⟩ := List.cons.inj ha'
        rcases hy.colon a' b hrest with hpos | hend
        · left
          rw [depth_append, hx.depth_eq, depth_cons]
          simpa [nesting] using hpos
        · right
          rw [List.getLast?_append, List.getLast?_cons, hend]
          rfl

/-- What stands before a semicolon outside of brackets is told by the text. -/
theorem semicolon_inj {x x' y y' : List Char} (hx : Enclosed x) (hx' : Enclosed x')
    (h : x ++ ';' :: y = x' ++ ';' :: y') : x = x' ∧ y = y' := by
  refine append_cons_inj h ?_ ?_
  · intro z hz
    have hpos := hx.semicolon x' z hz
    rw [hx'.depth_eq] at hpos
    omega
  · intro z hz
    have hpos := hx'.semicolon x z hz
    rw [hx.depth_eq] at hpos
    omega

/-- What stands before a colon outside of brackets is told by the text, if it does not end with a
closing parenthesis. -/
theorem colon_inj {x x' y y' : List Char} (hx : Enclosed x) (hx' : Enclosed x')
    (hlast : x.getLast? ≠ some ')') (hlast' : x'.getLast? ≠ some ')')
    (h : x ++ ':' :: y = x' ++ ':' :: y') : x = x' ∧ y = y' := by
  refine append_cons_inj h ?_ ?_
  · intro z hz
    rcases hx.colon x' z hz with hpos | hend
    · rw [hx'.depth_eq] at hpos
      omega
    · exact hlast' hend
  · intro z hz
    rcases hx'.colon x z hz with hpos | hend
    · rw [hx.depth_eq] at hpos
      omega
    · exact hlast hend

end Enclosed

/-- What continues a name is no bracket and no separator. -/
theorem WordClass.nesting_of_continuesName {c : Char} (h : continuesName c = true) :
    nesting c = 0 ∧ c ≠ ';' ∧ c ≠ ':' := by
  have hne : ∀ x : Char, continuesName x = false → c ≠ x := by
    rintro x hx rfl
    rw [hx] at h
    cases h
  refine ⟨?_, hne ';' (by decide), hne ':' (by decide)⟩
  unfold nesting
  rw [if_neg, if_neg]
  · simp only [List.mem_cons, List.not_mem_nil, or_false, not_or]
    exact ⟨hne ')' (by decide), hne ']' (by decide), hne '\x7d' (by decide), hne '>' (by decide)⟩
  · simp only [List.mem_cons, List.not_mem_nil, or_false, not_or]
    exact ⟨hne '(' (by decide), hne '[' (by decide), hne '\x7b' (by decide), hne '<' (by decide)⟩

/-- A name consists of the characters of names. -/
theorem Identifier.WellFormed.continuesName {n : Identifier} (h : n.WellFormed) :
    ∀ c ∈ n.text.toList, WordClass.continuesName c = true :=
  fun _ hc => WordClass.continuesName_of_mem_name h hc

/-- A name is not empty. -/
theorem Identifier.WellFormed.ne_nil {n : Identifier} (h : n.WellFormed) : n.text.toList ≠ [] := by
  intro hnil
  rw [WellFormed, hnil] at h
  exact Terminal.not_matches_nil _ h

/-- A name is enclosed. -/
theorem Identifier.WellFormed.enclosed {n : Identifier} (h : n.WellFormed) :
    Enclosed n.text.toList :=
  .of_forall fun c hc => WordClass.nesting_of_continuesName (h.continuesName c hc)

/-- The literal of a size is enclosed. -/
theorem TypeExpr.SizeOf.enclosed {n : Int} {literal : String} (h : TypeExpr.SizeOf n literal) :
    Enclosed literal.toList :=
  .of_forall fun _ hc =>
    WordClass.nesting_of_continuesName (WordClass.continuesName_of_mem_integer h.1 hc)

/-- The literal of a size is not empty. -/
theorem TypeExpr.SizeOf.isEmpty_eq {n : Int} {literal : String} (h : TypeExpr.SizeOf n literal) :
    literal.isEmpty = false := by
  rw [Bool.eq_false_iff, ne_eq, String.isEmpty_iff]
  rintro rfl
  exact Terminal.not_matches_nil _ h.1

/-- The texts of the members of a list with a comma and a space between them. -/
theorem Enclosed.listedChars {α : Type} {chars : α → List Char} {xs : List α}
    (h : ∀ x ∈ xs, Enclosed (chars x)) : Enclosed (listedChars chars xs) := by
  have hcomma : Enclosed [',', ' '] := .of_all (by decide)
  have hmore : ∀ ys : List α, (∀ y ∈ ys, Enclosed (chars y)) →
      Enclosed (ys.flatMap fun y => ',' :: ' ' :: chars y) := by
    intro ys hys
    induction ys with
    | nil => exact .nil
    | cons y ys ih =>
      rw [List.flatMap_cons]
      exact (hcomma.append (hys y List.mem_cons_self)).append
        (ih fun z hz => hys z (List.mem_cons_of_mem _ hz))
  cases xs with
  | nil => exact .nil
  | cons x xs =>
    exact (h x List.mem_cons_self).append (hmore xs fun y hy => h y (List.mem_cons_of_mem _ hy))

namespace NominalType

/-- The text of a type name is enclosed. -/
theorem WellFormed.enclosed {t : NominalType} (h : t.WellFormed) : Enclosed t.chars := by
  refine h.1.enclosed.append ?_
  have hdot : Enclosed ['.'] := .of_all (by decide)
  have hnested : ∀ ns : List Identifier, (∀ n ∈ ns, n.WellFormed) →
      Enclosed (ns.flatMap Identifier.charsBehindDot) := by
    intro ns hns
    induction ns with
    | nil => exact .nil
    | cons n ns ih =>
      rw [List.flatMap_cons]
      exact (hdot.append (hns n List.mem_cons_self).enclosed).append
        (ih fun m hm => hns m (List.mem_cons_of_mem _ hm))
  exact hnested t.nested h.2

/-- A list of type names in braces is enclosed. -/
theorem enclosed_braced {ts : List NominalType} (h : ∀ t ∈ ts, t.WellFormed) :
    Enclosed ('\x7b' :: (listedChars chars ts ++ ['\x7d'])) := by
  have hlist : Enclosed (listedChars chars ts) := .listedChars fun t ht => (h t ht).enclosed
  exact .wrap hlist.toBalanced (by decide) (by decide)

/-- The text of an authorization is enclosed. -/
theorem enclosed_authorizationChars {es : List NominalType} (h : ∀ e ∈ es, e.WellFormed) :
    Enclosed (authorizationChars es) := by
  have hauth : Enclosed ['a', 'u', 't', 'h'] := .of_all (by decide)
  cases es with
  | nil => exact hauth
  | cons e es =>
    have hlist : Enclosed (listedChars chars (e :: es)) :=
      .listedChars fun t ht => (h t ht).enclosed
    have hwrapped : Enclosed ('(' :: (listedChars chars (e :: es) ++ [')'])) :=
      .wrap hlist.toBalanced (by decide) (by decide)
    simpa [authorizationChars] using hauth.append hwrapped

end NominalType

mutual

/-- The text of a type is balanced, and its separators are in brackets. -/
theorem TypeExpr.WellFormed.enclosed {t : TypeExpr} (h : t.WellFormed) : Enclosed t.chars := by
  match t with
  | .nominal n => exact NominalType.WellFormed.enclosed h
  | .optional t _ =>
    rw [TypeExpr.WellFormed] at h
    have hmark : Enclosed ['?'] := .of_all (by decide)
    simpa [TypeExpr.chars] using h.enclosed.append hmark
  | .variableSized t _ =>
    rw [TypeExpr.WellFormed] at h
    have hwrapped : Enclosed ('[' :: (t.chars ++ [']'])) :=
      .wrap h.enclosed.toBalanced (by decide) (by decide)
    simpa [TypeExpr.chars] using hwrapped
  | .constantSized t n literal _ =>
    rw [TypeExpr.WellFormed] at h
    have hinside : Balanced (t.chars ++ ([';', ' '] ++ literal.toList)) :=
      h.1.enclosed.toBalanced.append
        ((Balanced.of_all (by decide)).append h.2.enclosed.toBalanced)
    have hwrapped : Enclosed ('[' :: (t.chars ++ ([';', ' '] ++ literal.toList) ++ [']'])) :=
      .wrap hinside (by decide) (by decide)
    simpa [TypeExpr.chars, h.2.isEmpty_eq] using hwrapped
  | .dictionary k v _ =>
    rw [TypeExpr.WellFormed] at h
    have hinside : Balanced (k.chars ++ ([':', ' '] ++ v.chars)) :=
      h.1.enclosed.toBalanced.append
        ((Balanced.of_all (by decide)).append h.2.enclosed.toBalanced)
    have hwrapped : Enclosed ('\x7b' :: (k.chars ++ ([':', ' '] ++ v.chars) ++ ['\x7d'])) :=
      .wrap hinside (by decide) (by decide)
    simpa [TypeExpr.chars] using hwrapped
  | .instantiation (.nominal n) args _ =>
    rw [TypeExpr.WellFormed] at h
    have hwrapped : Enclosed ('<' :: (AnnotatedType.listedChars args ++ ['>'])) :=
      .wrap (AnnotatedType.enclosed_listedChars h.2).toBalanced (by decide) (by decide)
    simpa [TypeExpr.chars] using h.1.enclosed.append hwrapped
  | .reference authorized es t _ =>
    rw [TypeExpr.WellFormed] at h
    have hauthorized : Enclosed (NominalType.authorizationChars es ++ [' ', '&']) :=
      (NominalType.enclosed_authorizationChars h.1).append (.of_all (by decide))
    have hplain : Enclosed ['&'] := .of_all (by decide)
    have ht := TypeExpr.WellFormed.enclosed h.2
    cases authorized <;> cases es
    · simpa [TypeExpr.chars] using hplain.append ht
    all_goals simpa [TypeExpr.chars] using hauthorized.append ht
  | .intersection ts _ =>
    simpa [TypeExpr.chars] using NominalType.enclosed_braced h
  | .restricted t ts _ =>
    rw [TypeExpr.WellFormed] at h
    simpa [TypeExpr.chars] using h.1.enclosed.append (NominalType.enclosed_braced h.2)
  | .function ps (some r) _ =>
    rw [TypeExpr.WellFormed] at h
    have hfun : Enclosed ['f', 'u', 'n'] := .of_all (by decide)
    have hwrapped : Enclosed ('(' :: (AnnotatedType.listedChars ps ++ [')'])) :=
      .wrap (AnnotatedType.enclosed_listedChars h.1).toBalanced (by decide) (by decide)
    have hblank : Enclosed [' '] := .of_all (by decide)
    have hresult : Enclosed (' ' :: r.chars) :=
      hblank.append (AnnotatedType.WellFormed.enclosed h.2)
    have hlast : (['f', 'u', 'n'] ++ '(' :: (AnnotatedType.listedChars ps ++ [')'])).getLast? =
        some ')' :=
      List.getLast?_concat (l := ['f', 'u', 'n'] ++ '(' :: AnnotatedType.listedChars ps)
    have hcolon := (hfun.append hwrapped).append_colon hlast hresult
    simpa [TypeExpr.chars] using hcolon

/-- The text of a type with its resource marker is enclosed. -/
theorem AnnotatedType.WellFormed.enclosed {a : AnnotatedType} (h : a.WellFormed) :
    Enclosed a.chars := by
  match a with
  | .mk r t _ =>
    rw [AnnotatedType.WellFormed] at h
    have hat : Enclosed ['@'] := .of_all (by decide)
    cases r
    · simpa [AnnotatedType.chars] using TypeExpr.WellFormed.enclosed h
    · simpa [AnnotatedType.chars] using hat.append (TypeExpr.WellFormed.enclosed h)

/-- The texts of well-formed types are enclosed. -/
theorem AnnotatedType.enclosed_of_mem {as : List AnnotatedType}
    (h : AnnotatedType.AllWellFormed as) : ∀ a ∈ as, Enclosed a.chars := by
  match as with
  | [] => exact nofun
  | a :: as =>
    rw [AnnotatedType.AllWellFormed] at h
    exact List.forall_mem_cons.2
      ⟨AnnotatedType.WellFormed.enclosed h.1, AnnotatedType.enclosed_of_mem h.2⟩

/-- A list of well-formed types is enclosed. -/
theorem AnnotatedType.enclosed_listedChars {as : List AnnotatedType}
    (h : AnnotatedType.AllWellFormed as) : Enclosed (AnnotatedType.listedChars as) := by
  rw [AnnotatedType.listedChars_eq_listedChars]
  exact .listedChars (AnnotatedType.enclosed_of_mem h)

end

end CadenceEntry
