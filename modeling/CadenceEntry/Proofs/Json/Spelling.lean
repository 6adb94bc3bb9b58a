import CadenceEntry.Json.Reader
import Mathlib.Data.List.DropRight

/-!
# What JSON texts stand for

`Spells w p` is the grammar of JSON: the text `w` spells the part `p` of a document. It allows white
space wherever JSON does and every way to write a character of a string. Numbers are integers, and
the members of an object have different names, so every text spells one document at most:
`Spells.unique`. A reader that follows the grammar gives that document (`Reads`), and `read?` is one
such reader.
-/

set_option autoImplicit false

namespace CadenceEntry.Json

/-- White space. -/
def Gap (g : List Char) : Prop := ∀ c ∈ g, isGap c = true

/-- A text spells a character of a string. -/
inductive SpellsChar : List Char → Char → Prop
  | plain {c : Char} (h : 0x20 ≤ c.toNat) (hquote : c ≠ '"') (hescape : c ≠ '\\') :
    SpellsChar [c] c
  | letter {e c : Char} (h : letterEscape? e = some c) : SpellsChar ['\\', e] c
  | unit {a b c d : Char} {n : Nat} (h : unit? a b c d = some n) (hhigh : isHighUnit n = false)
    (hlow : isLowUnit n = false) : SpellsChar ['\\', 'u', a, b, c, d] (Char.ofNat n)
  | pair {a b c d a' b' c' d' : Char} {n m : Nat} (h : unit? a b c d = some n)
    (hhigh : isHighUnit n = true) (h' : unit? a' b' c' d' = some m) (hlow : isLowUnit m = true) :
    SpellsChar ['\\', 'u', a, b, c, d, '\\', 'u', a', b', c', d']
      (Char.ofNat (0x10000 + (n - 0xd800) * 0x400 + (m - 0xdc00)))

/-- A text spells the characters of a string. -/
inductive SpellsChars : List Char → List Char → Prop
  | nil : SpellsChars [] []
  | cons {w ws cs : List Char} {c : Char} (h : SpellsChar w c) (hs : SpellsChars ws cs) :
    SpellsChars (w ++ ws) (c :: cs)

/-- The digits of a natural number. Only zero begins with a zero. -/
structure Natural (ds : List Char) : Prop where
  ne_nil : ds ≠ []
  isDigit : ∀ c ∈ ds, c.isDigit = true
  length_eq_one : ds.head? = some '0' → ds.length = 1

/-- A text spells an integer. -/
inductive SpellsInt : List Char → Int → Prop
  | natural {ds : List Char} (h : Natural ds) : SpellsInt ds (digitsValue ds)
  | negative {ds : List Char} (h : Natural ds) : SpellsInt ('-' :: ds) (-(digitsValue ds : Int))

/-- A part of a document: a value by itself or with white space around it, some items of an array,
or one or some members of an object. -/
inductive Part where
  | value (v : Json)
  | element (v : Json)
  | items (vs : List Json)
  | member (name : String) (v : Json)
  | members (ms : List (String × Json))

/-- A text spells a part of a document. -/
inductive Spells : List Char → Part → Prop
  | null : Spells ['n', 'u', 'l', 'l'] (.value null)
  | true : Spells ['t', 'r', 'u', 'e'] (.value (bool true))
  | false : Spells ['f', 'a', 'l', 's', 'e'] (.value (bool false))
  | int {w : List Char} {n : Int} (h : SpellsInt w n) : Spells w (.value (int n))
  | string {w cs : List Char} (h : SpellsChars w cs) :
    Spells ('"' :: w ++ ['"']) (.value (string (String.ofList cs)))
  | emptyArray {g : List Char} (hg : Gap g) : Spells ('[' :: g ++ [']']) (.value (array []))
  | array {w : List Char} {vs : List Json} (h : Spells w (.items vs)) :
    Spells ('[' :: w ++ [']']) (.value (array vs))
  | emptyObject {g : List Char} (hg : Gap g) :
    Spells ('\x7b' :: g ++ ['\x7d']) (.value (object []))
  | object {w : List Char} {ms : List (String × Json)} (h : Spells w (.members ms))
    (hnames : (ms.map Prod.fst).Nodup) : Spells ('\x7b' :: w ++ ['\x7d']) (.value (object ms))
  | element {g w g' : List Char} {v : Json} (hg : Gap g) (h : Spells w (.value v)) (hg' : Gap g') :
    Spells (g ++ w ++ g') (.element v)
  | lastItem {w : List Char} {v : Json} (h : Spells w (.element v)) : Spells w (.items [v])
  | item {w ws : List Char} {v : Json} {vs : List Json} (h : Spells w (.element v))
    (hs : Spells ws (.items vs)) : Spells (w ++ ',' :: ws) (.items (v :: vs))
  | member {g w g' w' cs : List Char} {v : Json} (hg : Gap g) (h : SpellsChars w cs) (hg' : Gap g')
    (h' : Spells w' (.element v)) :
    Spells (g ++ '"' :: w ++ '"' :: g' ++ ':' :: w') (.member (String.ofList cs) v)
  | lastMember {w : List Char} {n : String} {v : Json} (h : Spells w (.member n v)) :
    Spells w (.members [(n, v)])
  | members {w ws : List Char} {n : String} {v : Json} {ms : List (String × Json)}
    (h : Spells w (.member n v)) (hs : Spells ws (.members ms)) :
    Spells (w ++ ',' :: ws) (.members ((n, v) :: ms))

/-- A reader follows the grammar: a text that spells a document is read as a document that it
spells. -/
def Reads (read : String → Option Json) : Prop :=
  ∀ (s : String) (v : Json), Spells s.toList (.element v) →
    ∃ v', read s = some v' ∧ Spells s.toList (.element v')

/-! ### White space -/

/-- No text is white space too. -/
theorem Gap.nil : Gap [] := nofun

/-- White space in front of a text is skipped. -/
theorem skipGap_append {g : List Char} (hg : Gap g) (cs : List Char) :
    skipGap (g ++ cs) = skipGap cs :=
  List.dropWhile_append_of_pos hg

/-- Behind what is skipped there is nothing left to skip. -/
theorem skipGap_idem (cs : List Char) : skipGap (skipGap cs) = skipGap cs :=
  List.dropWhile_idempotent _ cs

/-- A value is read as well when the white space before it has been skipped. -/
theorem value?_skipGap (fuel : Nat) (cs : List Char) :
    value? fuel (skipGap cs) = value? fuel cs := by
  cases fuel with
  | zero => rfl
  | succ fuel => rw [value?, value?, skipGap_idem]

/-- White space in front of a value makes no difference. -/
theorem value?_gap_append (fuel : Nat) {g : List Char} (hg : Gap g) (cs : List Char) :
    value? fuel (g ++ cs) = value? fuel cs := by
  rw [← value?_skipGap, skipGap_append hg, value?_skipGap]

/-- The items of an array are read as well when the white space before them is skipped. -/
theorem items?_skipGap (fuel : Nat) (cs : List Char) :
    items? fuel (skipGap cs) = items? fuel cs := by
  cases fuel with
  | zero => rfl
  | succ fuel => rw [items?, items?, value?_skipGap]

/-- The members of an object are read as well when the white space before them is skipped. -/
theorem members?_skipGap (fuel : Nat) (ms : List (String × Json)) (cs : List Char) :
    members? fuel ms (skipGap cs) = members? fuel ms cs := by
  cases fuel with
  | zero => rfl
  | succ fuel => rw [members?, members?, skipGap_idem]

/-! ### Strings -/

/-- A character of a string is read before anything. -/
theorem stringRest?_append {w : List Char} {c : Char} (h : SpellsChar w c) (r : List Char) :
    stringRest? (w ++ r) = (stringRest? r).map fun (s, r) => (c :: s, r) := by
  cases h with
  | plain h hquote hescape =>
    rw [List.singleton_append, stringRest?.eq_def]
    split
    · next heq => cases heq
    · next heq => cases heq; exact absurd rfl hquote
    · next heq => cases heq; exact absurd rfl hescape
    · next heq => cases heq; exact absurd rfl hescape
    · next heq => cases heq; exact absurd rfl hescape
    · next heq =>
      cases heq
      exact if_neg (by omega)
  | @letter e _ h =>
    have hu : e ≠ 'u' := by
      rintro rfl
      cases h
    show stringRest? ('\\' :: e :: r) = _
    rw [stringRest?.eq_def]
    split
    · next heq => cases heq
    · next heq => cases heq
    · next heq => cases heq; exact absurd rfl hu
    · next heq => cases heq; rw [h]
    · next heq => cases heq
    · next hescape _ heq => cases heq; exact (hescape e r rfl rfl).elim
  | unit h hhigh hlow =>
    show stringRest? ('\\' :: 'u' :: _ :: _ :: _ :: _ :: r) = _
    rw [stringRest?, h]
    simp only [hhigh, hlow, Bool.false_eq_true, if_false]
  | pair h hhigh h' hlow =>
    show stringRest? ('\\' :: 'u' :: _ :: _ :: _ :: _ :: '\\' :: 'u' :: _ :: _ :: _ :: _ :: r) = _
    rw [stringRest?, h]
    simp only [hhigh, if_true, h', hlow]

/-- The characters of a string are read up to the quote. -/
theorem stringRest?_eq {w cs : List Char} (h : SpellsChars w cs) (r : List Char) :
    stringRest? (w ++ '"' :: r) = some (cs, r) := by
  induction h with
  | nil => rfl
  | cons h hs ih => rw [List.append_assoc, stringRest?_append h, ih]; rfl

/-! ### Numbers -/

/-- A number does not go on at the beginning of a text. -/
def Stops (r : List Char) : Prop :=
  ∀ c, r.head? = some c → c.isDigit = false ∧ c ≠ '.' ∧ c ≠ 'e' ∧ c ≠ 'E'

/-- White space stops a number as what comes behind it does. -/
theorem Stops.gap_append {g r : List Char} (hg : Gap g) (hr : Stops r) : Stops (g ++ r) := by
  cases g with
  | nil => exact hr
  | cons c g =>
    intro c' hc'
    have hgap : isGap c = true := hg c List.mem_cons_self
    cases hc'
    refine ⟨?_, ?_, ?_, ?_⟩
    · simp only [isGap, Bool.or_eq_true, beq_iff_eq] at hgap
      rcases hgap with ((rfl | rfl) | rfl) | rfl <;> rfl
    all_goals
      rintro rfl
      cases hgap

/-- The digits of a number are read up to what is no digit. -/
theorem naturalPrefix?_append {ds : List Char} (h : Natural ds) {r : List Char} (hr : Stops r) :
    naturalPrefix? (ds ++ r) = some (ds, r) := by
  have htake : r.takeWhile Char.isDigit = [] := by
    cases r with
    | nil => rfl
    | cons c r => rw [List.takeWhile_cons, (hr c rfl).1]; rfl
  have hdrop : r.dropWhile Char.isDigit = r := by
    cases r with
    | nil => rfl
    | cons c r => rw [List.dropWhile_cons, (hr c rfl).1]; rfl
  unfold naturalPrefix?
  rw [List.takeWhile_append_of_pos h.isDigit, List.dropWhile_append_of_pos h.isDigit, htake, hdrop,
    List.append_nil]
  cases ds with
  | nil => exact absurd rfl h.ne_nil
  | cons d ds => rfl

/-- A number without a fraction and an exponent is an integer. -/
theorem numberRest?_append (negative : Bool) {ds : List Char} (h : Natural ds) {r : List Char}
    (hr : Stops r) :
    numberRest? negative (ds ++ r) =
      some (int (if negative then -(digitsValue ds : Int) else digitsValue ds), r) := by
  have hzero : ¬ (ds.head? = some '0' ∧ 1 < ds.length) := by
    rintro ⟨hhead, hlength⟩
    have := h.length_eq_one hhead
    omega
  have hexponent : exponentPrefix? r = none := by
    cases r with
    | nil => rfl
    | cons c r =>
      have hc := hr c rfl
      have he : (c == 'e' || c == 'E') = false := by simp [hc]
      rw [exponentPrefix?.eq_def]
      simp only [he, Bool.false_eq_true, if_false]
  unfold numberRest?
  rw [naturalPrefix?_append h hr]
  simp only [Option.bind_eq_bind, Option.bind_some, if_neg hzero]
  have hdot : ∀ cs, r ≠ '.' :: cs := by
    rintro cs rfl
    exact absurd rfl (hr '.' rfl).2.1
  split
  · rfl
  · next hother =>
    refine (hother ?_ ?_).elim
    · split
      · exact absurd rfl (hdot _)
      · rfl
    · split
      · exact absurd rfl (hdot _)
      · exact hexponent

/-- An integer is read up to where it stops. -/
theorem number?_append {w : List Char} {n : Int} (h : SpellsInt w n) {r : List Char}
    (hr : Stops r) : number? (w ++ r) = some (int n, r) := by
  cases h with
  | natural h =>
    have hminus : ∀ cs, w ++ r ≠ '-' :: cs := by
      intro cs hcs
      obtain ⟨d, ds, rfl⟩ := List.exists_cons_of_ne_nil h.ne_nil
      cases hcs
      exact absurd (h.isDigit '-' List.mem_cons_self) (by decide)
    rw [number?]
    · exact numberRest?_append false h hr
    · exact hminus
  | negative h => exact numberRest?_append true h hr

/-- An integer begins no other document. -/
theorem value?_int (fuel : Nat) {w : List Char} {n : Int} (h : SpellsInt w n) {r : List Char}
    (hr : Stops r) : value? (fuel + 1) (w ++ r) = some (int n, r) := by
  have hnumber := number?_append h hr
  obtain ⟨c, cs, hw, hc⟩ : ∃ c cs, w = c :: cs ∧ (c = '-' ∨ c.isDigit = true) := by
    cases h with
    | natural h =>
      obtain ⟨d, ds, rfl⟩ := List.exists_cons_of_ne_nil h.ne_nil
      exact ⟨d, ds, rfl, .inr (h.isDigit d List.mem_cons_self)⟩
    | negative h => exact ⟨'-', _, rfl, .inl rfl⟩
  subst hw
  have hgap : isGap c = false := by
    rw [Bool.eq_false_iff]
    intro hgap
    simp only [isGap, Bool.or_eq_true, beq_iff_eq] at hgap
    rcases hgap with ((rfl | rfl) | rfl) | rfl <;> simp at hc
  have hskip : skipGap (c :: cs ++ r) = c :: cs ++ r := by
    rw [skipGap, List.cons_append, List.dropWhile_cons, hgap]
    rfl
  have hother : ∀ c' ∈ ['n', 't', 'f', '"', '[', '\x7b'], c ≠ c' := by
    rintro c' hc' rfl
    simp only [List.mem_cons, List.not_mem_nil, or_false] at hc'
    rcases hc' with rfl | rfl | rfl | rfl | rfl | rfl <;> simp at hc
  rw [value?, hskip]
  split
  · next heq => exact absurd (List.head_eq_of_cons_eq heq) (hother _ (by decide))
  · next heq => exact absurd (List.head_eq_of_cons_eq heq) (hother _ (by decide))
  · next heq => exact absurd (List.head_eq_of_cons_eq heq) (hother _ (by decide))
  · next heq => exact absurd (List.head_eq_of_cons_eq heq) (hother _ (by decide))
  · next heq => exact absurd (List.head_eq_of_cons_eq heq) (hother _ (by decide))
  · next heq => exact absurd (List.head_eq_of_cons_eq heq) (hother _ (by decide))
  · exact hnumber

/-! ### Documents -/

/-- What is read behind a member, where `ms` are the members up to it. -/
def membersBehind? (fuel : Nat) (ms : List (String × Json)) (r : List Char) :
    Option (List (String × Json) × List Char) :=
  match skipGap r with
  | ',' :: r => members? fuel ms r
  | '\x7d' :: r => some (ms, r)
  | _ => none

/-- What reading a text gives that spells a part of a document. -/
def ReadAs (w : List Char) : Part → Prop
  | .value v => ∀ fuel r, 2 * w.length ≤ fuel + 1 → Stops r →
    value? (fuel + 1) (w ++ r) = some (v, r)
  | .element v => ∀ fuel r, 2 * w.length ≤ fuel + 1 → Stops r →
    ∃ g, Gap g ∧ value? (fuel + 1) (w ++ r) = some (v, g ++ r)
  | .items vs => ∀ fuel r, 2 * w.length ≤ fuel → items? (fuel + 2) (w ++ ']' :: r) = some (vs, r)
  | .member n v => ∀ fuel ms r, 2 * w.length ≤ fuel + 1 → Stops r →
    members? (fuel + 2) ms (w ++ r) = membersBehind? (fuel + 1) (putMember ms n v) r
  | .members ms => ∀ fuel ms' r, 2 * w.length ≤ fuel → ((ms' ++ ms).map Prod.fst).Nodup →
    members? (fuel + 2) ms' (w ++ '\x7d' :: r) = some (ms' ++ ms, r)

/-- A number does not go on with a comma or a closing bracket. -/
theorem stops_cons {c : Char} (h : c ∈ [',', ']', '\x7d']) (r : List Char) : Stops (c :: r) := by
  intro c' hc'
  cases hc'
  simp only [List.mem_cons, List.not_mem_nil, or_false] at h
  rcases h with rfl | rfl | rfl <;> decide

/-- The array whose opening bracket is behind. -/
def arrayRest? (fuel : Nat) (cs : List Char) : Option (Json × List Char) :=
  match skipGap cs with
  | ']' :: r => some (array [], r)
  | r => (items? fuel r).map fun (vs, r) => (array vs, r)

/-- The object whose opening brace is behind. -/
def objectRest? (fuel : Nat) (cs : List Char) : Option (Json × List Char) :=
  match skipGap cs with
  | '\x7d' :: r => some (object [], r)
  | r => (members? fuel [] r).map fun (ms, r) => (object ms, r)

/-- An array is closed behind its items. -/
theorem value?_array {fuel : Nat} {w r : List Char} {vs : List Json}
    (h : items? fuel (w ++ ']' :: r) = some (vs, r)) :
    value? (fuel + 1) ('[' :: w ++ ']' :: r) = some (array vs, r) := by
  rw [← items?_skipGap] at h
  show arrayRest? fuel (w ++ ']' :: r) = _
  unfold arrayRest?
  split
  · next r' heq =>
    -- no item begins with a bracket that closes the array
    rw [heq] at h
    rcases fuel with _ | _ | fuel <;> cases h
  · rw [h]
    rfl

/-- An object is closed behind its members. -/
theorem value?_object {fuel : Nat} {w r : List Char} {ms : List (String × Json)}
    (h : members? fuel [] (w ++ '\x7d' :: r) = some (ms, r)) :
    value? (fuel + 1) ('\x7b' :: w ++ '\x7d' :: r) = some (object ms, r) := by
  rw [← members?_skipGap] at h
  show objectRest? fuel (w ++ '\x7d' :: r) = _
  unfold objectRest?
  split
  · next r' heq =>
    -- no member begins with a brace that closes the object
    rw [heq] at h
    cases fuel <;> cases h
  · rw [h]
    rfl

/-- A member with a new name comes last. -/
theorem putMember_of_notMem {ms : List (String × Json)} {n : String} (h : n ∉ ms.map Prod.fst)
    (v : Json) : putMember ms n v = ms ++ [(n, v)] := by
  induction ms with
  | nil => rfl
  | cons m ms ih =>
    rw [List.map_cons, List.mem_cons, not_or] at h
    rw [putMember, if_neg (Ne.symm h.1), ih h.2]
    rfl

/-- The name of the next member is new. -/
theorem putMember_of_nodup {ms ms' : List (String × Json)} {n : String} {v : Json}
    (h : ((ms ++ (n, v) :: ms').map Prod.fst).Nodup) : putMember ms n v = ms ++ [(n, v)] := by
  rw [List.map_append, List.map_cons] at h
  exact putMember_of_notMem
    (fun hn => (List.nodup_append.1 h).2.2 n hn n List.mem_cons_self rfl) v

/-- What spells a part of a document is read as this part. -/
theorem readAs_of_spells {w : List Char} {p : Part} (h : Spells w p) : ReadAs w p := by
  induction h with
  | null => exact fun _ _ _ _ => rfl
  | true => exact fun _ _ _ _ => rfl
  | false => exact fun _ _ _ _ => rfl
  | int h => exact fun fuel r _ hr => value?_int fuel h hr
  | @string w cs h =>
    intro fuel r _ _
    show (stringRest? (w ++ ['"'] ++ r)).map (fun x => (string (String.ofList x.1), x.2)) = _
    rw [List.append_assoc, List.singleton_append, stringRest?_eq h]
    rfl
  | @emptyArray g hg =>
    intro fuel r _ _
    show arrayRest? fuel (g ++ [']'] ++ r) = _
    unfold arrayRest?
    rw [List.append_assoc, skipGap_append hg]
    rfl
  | @array w vs h ih =>
    intro fuel r hfuel _
    simp only [List.length_append, List.length_cons, List.length_nil] at hfuel
    obtain ⟨fuel, rfl⟩ : ∃ n, fuel = n + 2 := ⟨fuel - 2, by omega⟩
    rw [List.append_assoc]
    exact value?_array (ih fuel r (by omega))
  | @emptyObject g hg =>
    intro fuel r _ _
    show objectRest? fuel (g ++ ['\x7d'] ++ r) = _
    unfold objectRest?
    rw [List.append_assoc, skipGap_append hg]
    rfl
  | @object w ms h hnames ih =>
    intro fuel r hfuel _
    simp only [List.length_append, List.length_cons, List.length_nil] at hfuel
    obtain ⟨fuel, rfl⟩ : ∃ n, fuel = n + 2 := ⟨fuel - 2, by omega⟩
    rw [List.append_assoc]
    exact value?_object (ih fuel [] r (by omega) hnames)
  | @element g w g' v hg h hg' ih =>
    intro fuel r hfuel hr
    simp only [List.length_append] at hfuel
    rw [List.append_assoc, List.append_assoc, value?_gap_append _ hg]
    exact ⟨g', hg', ih fuel (g' ++ r) (by omega) (hr.gap_append hg')⟩
  | lastItem h ih =>
    intro fuel r hfuel
    obtain ⟨g, hg, hvalue⟩ := ih fuel (']' :: r) (by omega) (stops_cons (by decide) r)
    rw [items?, hvalue]
    simp only [skipGap_append hg]
    rfl
  | @item w ws v vs h hs ih ihs =>
    intro fuel r hfuel
    simp only [List.length_append, List.length_cons] at hfuel
    obtain ⟨fuel, rfl⟩ : ∃ n, fuel = n + 1 := ⟨fuel - 1, by omega⟩
    obtain ⟨g, hg, hvalue⟩ := ih (fuel + 1) (',' :: (ws ++ ']' :: r)) (by omega)
      (stops_cons (by decide) _)
    have hitems := ihs fuel r (by omega)
    rw [List.append_assoc, List.cons_append, items?, hvalue]
    simp only [skipGap_append hg]
    show (items? (fuel + 2) (ws ++ ']' :: r)).map (fun x => (v :: x.1, x.2)) = _
    rw [hitems]
    rfl
  | @member g w g' w' cs v hg h hg' h' ih =>
    intro fuel ms r hfuel hr
    simp only [List.length_append, List.length_cons] at hfuel
    obtain ⟨g'', hg'', hvalue⟩ := ih fuel r (by omega) hr
    have hskip : skipGap (g ++ '"' :: w ++ '"' :: g' ++ ':' :: w' ++ r) =
        '"' :: (w ++ '"' :: (g' ++ ':' :: (w' ++ r))) := by
      simp only [List.append_assoc, List.cons_append, skipGap_append hg]
      rfl
    have hcolon : skipGap (g' ++ ':' :: (w' ++ r)) = ':' :: (w' ++ r) := by
      rw [skipGap_append hg']
      rfl
    rw [members?, hskip]
    simp only [stringRest?_eq h, hcolon, hvalue, skipGap_append hg'']
    rfl
  | lastMember h ih =>
    intro fuel ms' r hfuel hnames
    rw [ih fuel ms' _ (by omega) (stops_cons (by decide) r), putMember_of_nodup hnames]
    rfl
  | @members w ws n v ms h hs ih ihs =>
    intro fuel ms' r hfuel hnames
    simp only [List.length_append, List.length_cons] at hfuel
    obtain ⟨fuel, rfl⟩ : ∃ n, fuel = n + 1 := ⟨fuel - 1, by omega⟩
    rw [List.append_assoc, List.cons_append,
      ih (fuel + 1) ms' _ (by omega) (stops_cons (by decide) _), putMember_of_nodup hnames]
    show members? (fuel + 2) (ms' ++ [(n, v)]) (ws ++ '\x7d' :: r) = _
    rw [ihs fuel _ r (by omega) (by rwa [List.append_assoc]), List.append_assoc]
    rfl

/-- A text that spells a document is read as this document. -/
theorem read?_of_spells {s : String} {v : Json} (h : Spells s.toList (.element v)) :
    read? s = some v := by
  obtain ⟨g, hg, hvalue⟩ := readAs_of_spells h (2 * s.length + 1) [] (by
    rw [String.length_toList]
    omega) nofun
  rw [List.append_nil, List.append_nil] at hvalue
  unfold read?
  rw [hvalue]
  have hend : (skipGap g).isEmpty = true := by
    rw [← List.append_nil g, skipGap_append hg]
    rfl
  simp only [hend, if_true]

/-- A text spells one document at most. -/
theorem Spells.unique {s : String} {v v' : Json} (h : Spells s.toList (.element v))
    (h' : Spells s.toList (.element v')) : v' = v :=
  Option.some.inj ((read?_of_spells h').symm.trans (read?_of_spells h))

/-- What a reader gives that follows the grammar is the document that a text spells. -/
theorem Reads.read_eq {read : String → Option Json} (hread : Reads read) {s : String} {v : Json}
    (h : Spells s.toList (.element v)) : read s = some v := by
  obtain ⟨v', hv', h'⟩ := hread s v h
  rw [hv', h.unique h']

/-- The reader of this library follows the grammar. -/
theorem reads_read? : Reads read? := fun _ v h => ⟨v, read?_of_spells h, h⟩

end CadenceEntry.Json
