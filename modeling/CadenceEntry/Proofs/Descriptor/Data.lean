import CadenceEntry.Interaction.Document
import CadenceEntry.Proofs.Descriptor.Kinds

/-!
# Descriptors in data

An object is read as a descriptor if it gives the number of a kind and has the parts that this kind
asks for, and if the objects that describe the parts are such, too. `Descriptor.ofJson_eq_ok_iff`
says this for one object and the objects right inside it, `Descriptor.exists_ofJson_eq_ok_iff` for
all of them, which are found by following parts (`Json.at?`). What is written is read back, so
reading and writing again changes data once at most.
-/

set_option autoImplicit false

namespace CadenceEntry

/-- Two steps succeed if the first does and the second does with its result. -/
theorem bind_eq_ok_iff {ε α β : Type} {x : Except ε α} {f : α → Except ε β} {b : β} :
    (x >>= f) = .ok b ↔ ∃ a, x = .ok a ∧ f a = .ok b := by
  cases x with
  | error e => exact ⟨nofun, fun ⟨_, h, _⟩ => nomatch h⟩
  | ok a => exact ⟨fun h => ⟨a, rfl, h⟩, fun ⟨_, h, h'⟩ => Except.ok.inj h ▸ h'⟩

/-- The names of the member, and of the member in it, that describe the part of a type. -/
def Part.members : Part → String × String
  | element => ("ArrayType", "Element")
  | key => ("DictionaryType", "Key")
  | value => ("DictionaryType", "Value")

namespace Json

/-- The member with a name, if it is there and neither null nor empty. -/
def filled? (v : Json) (name : String) : Option Json := (v.member? name).filter isTrue

/-- What describes the part of a type in what describes the type. -/
def partOf? (p : CadenceEntry.Part) (v : Json) : Option Json :=
  (v.filled? p.members.1).bind (·.member? p.members.2)

/-- What describes the part of a part of a type and so on. -/
def at? : List CadenceEntry.Part → Json → Option Json
  | [], v => some v
  | p :: ps, v => (v.partOf? p).bind (at? ps)

/-- The number that stands for the kind of a type, 0 if there is none. Truth values are numbers. -/
def kindNumber? (v : Json) : Option Int :=
  match v.member? "Kind" with
  | none => some 0
  | some k => (Datum.ofJson k).toInt?

/-- The raw type that a value gives, empty if it gives none. -/
def rawType (v : Json) : Json := (v.member? "RawType").getD (string "")

/-- Whether a value says that the type is optional. -/
def isOptional (v : Json) : Bool := ((v.member? "Optional").map isTrue).getD false

/-- The size of an array that a value gives. -/
def arraySize? (v : Json) : Option Int :=
  ((v.filled? "ArrayType").bind (·.member? "Size")).bind fun s => s.size.toOption

/-- An object describes a type, as far as this does not depend on the parts of the type. -/
structure DescribesType (v : Json) : Prop where
  object : ∃ ms, v = .object ms
  kind : ∃ n : Nat, n ≤ 6 ∧ v.kindNumber? = some (n : Int)
  array_iff : (v.filled? "ArrayType").isSome ↔ v.kindNumber? = some 5
  element : ∀ a, v.filled? "ArrayType" = some a → (a.member? "Element").isSome
  size : ∀ a, v.filled? "ArrayType" = some a →
    ∃ s n, a.member? "Size" = some s ∧ s.size = .ok n
  dictionary_iff : (v.filled? "DictionaryType").isSome ↔ v.kindNumber? = some 6
  key : ∀ a, v.filled? "DictionaryType" = some a → (a.member? "Key").isSome
  value : ∀ a, v.filled? "DictionaryType" = some a → (a.member? "Value").isSome

/-- A required member is there if it is found. -/
theorem required_eq_ok_iff {v w : Json} {name : String} :
    v.required name = .ok w ↔ v.member? name = some w := by
  cases v with
  | object ms =>
    rw [required, member?]
    cases ms.lookup name <;> simp
  | _ => constructor <;> intro h <;> cases h

/-- A member is smaller than what it is a member of. -/
theorem sizeOf_member?_lt {v w : Json} {name : String} (h : v.member? name = some w) :
    sizeOf w < sizeOf v :=
  sizeOf_required_lt (required_eq_ok_iff.2 h)

/-- What describes a part is smaller than what describes the whole. -/
theorem sizeOf_partOf?_lt {v w : Json} {p : CadenceEntry.Part} (h : v.partOf? p = some w) :
    sizeOf w < sizeOf v := by
  obtain ⟨a, ha, hw⟩ := Option.bind_eq_some_iff.1 h
  exact (sizeOf_member?_lt hw).trans (sizeOf_member?_lt (Option.filter_eq_some_iff.1 ha).1)

/-- The kind that is read is the one with the number of the member. -/
theorem typeKind_eq_ok_iff {v : Json} {k : TypeKind} :
    typeKind (v.member? "Kind") = .ok k ↔ v.kindNumber? = some (k.code : Int) := by
  have hcode : ∀ n : Option Int, n.bind TypeKind.ofCode? = some k ↔ n = some (k.code : Int) := by
    intro n
    rw [Option.bind_eq_some_iff]
    constructor
    · rintro ⟨m, rfl, hm⟩
      have hk := List.find?_some hm
      rw [beq_iff_eq.1 hk]
    · rintro rfl
      exact ⟨_, rfl, TypeKind.ofCode?_code k⟩
  unfold kindNumber? typeKind
  cases v.member? "Kind" with
  | none =>
    dsimp only
    rw [← hcode]
    show _ ↔ TypeKind.ofCode? 0 = some k
    rw [show TypeKind.ofCode? 0 = some .unknown from rfl, Except.ok.injEq, Option.some.injEq]
  | some u =>
    dsimp only
    rw [← hcode]
    cases (Datum.ofJson u).toInt?.bind TypeKind.ofCode? <;> simp

end Json

namespace Descriptor

open Json

/-- The array that is there, with its element and its size. -/
def readArray : Option Json → Except DataError (Option (Descriptor Json × Int))
  | none => pure none
  | some v => do
    let w ← v.required "Element"
    let element ← ofJson w
    let n ← (v.required "Size").bind Json.size
    pure (some (element, n))

/-- The dictionary that is there, with its key and its value. -/
def readDictionary : Option Json → Except DataError (Option (Descriptor Json × Descriptor Json))
  | none => pure none
  | some v => do
    let k ← v.required "Key"
    let key ← ofJson k
    let w ← v.required "Value"
    let value ← ofJson w
    pure (some (key, value))

/-- A descriptor is read from an object member by member. -/
theorem ofJson_object (ms : List (String × Json)) : ofJson (object ms) = (do
    let kind ← typeKind (ms.lookup "Kind")
    let array? ← readArray (Json.part? ms "ArrayType")
    let dictionary? ← readDictionary (Json.part? ms "DictionaryType")
    assemble kind ((ms.lookup "RawType").getD (string ""))
      (((ms.lookup "Optional").map isTrue).getD false) array? dictionary?) := by
  rw [ofJson]
  congr 1
  funext kind
  generalize Json.part? ms "ArrayType" = a?
  generalize Json.part? ms "DictionaryType" = b?
  -- a part that is missing or lacks a member ends both readings alike
  rcases a? with _ | a
  · rcases b? with _ | b
    · rfl
    · simp only [readArray, readDictionary, bind_assoc, pure_bind]
      cases b.required "Key" <;> cases b.required "Value" <;> rfl
  · rcases b? with _ | b
    · simp only [readArray, readDictionary, bind_assoc, pure_bind]
      cases a.required "Element" <;> rfl
    · simp only [readArray, readDictionary, bind_assoc, pure_bind]
      cases a.required "Element" <;> cases b.required "Key" <;> cases b.required "Value" <;> rfl

/-- No array is read exactly where none is given. -/
theorem readArray_eq_ok_none_iff {o : Option Json} : readArray o = .ok none ↔ o = none := by
  cases o with
  | none => exact ⟨fun _ => rfl, fun _ => rfl⟩
  | some v =>
    refine ⟨fun h => ?_, nofun⟩
    obtain ⟨w, -, h⟩ := bind_eq_ok_iff.1 h
    obtain ⟨e, -, h⟩ := bind_eq_ok_iff.1 h
    obtain ⟨n, -, h⟩ := bind_eq_ok_iff.1 h
    cases h

/-- An array is read from its element and its size. -/
theorem readArray_eq_ok_some_iff {o : Option Json} {e : Descriptor Json} {n : Int} :
    readArray o = .ok (some (e, n)) ↔ ∃ v w s, o = some v ∧ v.member? "Element" = some w ∧
      ofJson w = .ok e ∧ v.member? "Size" = some s ∧ s.size = .ok n := by
  cases o with
  | none => exact ⟨nofun, nofun⟩
  | some v =>
    constructor
    · intro h
      obtain ⟨w, hw, h⟩ := bind_eq_ok_iff.1 h
      obtain ⟨e', he, h⟩ := bind_eq_ok_iff.1 h
      obtain ⟨n', hn, h⟩ := bind_eq_ok_iff.1 h
      obtain ⟨s, hs, hn⟩ := bind_eq_ok_iff.1 hn
      cases h
      exact ⟨v, w, s, rfl, required_eq_ok_iff.1 hw, he, required_eq_ok_iff.1 hs, hn⟩
    · rintro ⟨_, w, s, ⟨⟩, hw, he, hs, hn⟩
      have hsize : (v.required "Size").bind Json.size = .ok n :=
        bind_eq_ok_iff.2 ⟨s, required_eq_ok_iff.2 hs, hn⟩
      exact bind_eq_ok_iff.2 ⟨w, required_eq_ok_iff.2 hw,
        bind_eq_ok_iff.2 ⟨e, he, bind_eq_ok_iff.2 ⟨n, hsize, rfl⟩⟩⟩

/-- No dictionary is read exactly where none is given. -/
theorem readDictionary_eq_ok_none_iff {o : Option Json} :
    readDictionary o = .ok none ↔ o = none := by
  cases o with
  | none => exact ⟨fun _ => rfl, fun _ => rfl⟩
  | some v =>
    refine ⟨fun h => ?_, nofun⟩
    obtain ⟨k, -, h⟩ := bind_eq_ok_iff.1 h
    obtain ⟨d, -, h⟩ := bind_eq_ok_iff.1 h
    obtain ⟨w, -, h⟩ := bind_eq_ok_iff.1 h
    obtain ⟨e, -, h⟩ := bind_eq_ok_iff.1 h
    cases h

/-- A dictionary is read from its key and its value. -/
theorem readDictionary_eq_ok_some_iff {o : Option Json} {d e : Descriptor Json} :
    readDictionary o = .ok (some (d, e)) ↔ ∃ v k w, o = some v ∧ v.member? "Key" = some k ∧
      ofJson k = .ok d ∧ v.member? "Value" = some w ∧ ofJson w = .ok e := by
  cases o with
  | none => exact ⟨nofun, nofun⟩
  | some v =>
    constructor
    · intro h
      obtain ⟨k, hk, h⟩ := bind_eq_ok_iff.1 h
      obtain ⟨d', hd, h⟩ := bind_eq_ok_iff.1 h
      obtain ⟨w, hw, h⟩ := bind_eq_ok_iff.1 h
      obtain ⟨e', he, h⟩ := bind_eq_ok_iff.1 h
      cases h
      exact ⟨v, k, w, rfl, required_eq_ok_iff.1 hk, hd, required_eq_ok_iff.1 hw, he⟩
    · rintro ⟨_, k, w, ⟨⟩, hk, hd, hw, he⟩
      exact bind_eq_ok_iff.2 ⟨k, required_eq_ok_iff.2 hk, bind_eq_ok_iff.2 ⟨d, hd,
        bind_eq_ok_iff.2 ⟨w, required_eq_ok_iff.2 hw, bind_eq_ok_iff.2 ⟨e, he, rfl⟩⟩⟩⟩

/-- The element and the size of an array. -/
def array? {ρ : Type} : Descriptor ρ → Option (Descriptor ρ × Int)
  | array _ _ e n => some (e, n)
  | _ => none

/-- The key and the value of a dictionary. -/
def dictionary? {ρ : Type} : Descriptor ρ → Option (Descriptor ρ × Descriptor ρ)
  | dictionary _ _ k v => some (k, v)
  | _ => none

/-- A descriptor is put together from what can be taken from it again. -/
theorem assemble_eq_ok_iff {kind : TypeKind} {raw : Json} {o : Bool}
    {a? : Option (Descriptor Json × Int)} {b? : Option (Descriptor Json × Descriptor Json)}
    {d : Descriptor Json} : assemble kind raw o a? b? = .ok d ↔
      d.kind = kind ∧ d.raw = raw ∧ d.isOptional = o ∧ d.array? = a? ∧ d.dictionary? = b? := by
  constructor
  · intro h
    rcases kind with _ | k | _ | _ <;> rcases a? with _ | ⟨e, n⟩ <;> rcases b? with _ | ⟨k, v⟩ <;>
      cases h <;> exact ⟨rfl, rfl, rfl, rfl, rfl⟩
  · rintro ⟨rfl, rfl, rfl, rfl, rfl⟩
    rcases d with ⟨_ | k, r, o⟩ | _ | _ <;> rfl

/-- A value is read as a descriptor if they agree apart from the parts, and the parts are read. -/
inductive Reads (v : Json) : Descriptor Json → Prop
  | named (k : Option ScalarKind) {r : Json} {o : Bool} (hraw : r = v.rawType)
      (hoptional : o = v.isOptional) (hkind : v.kindNumber? = some ((named k r o).kind.code : Int))
      (harray : v.filled? "ArrayType" = none) (hdictionary : v.filled? "DictionaryType" = none) :
      Reads v (named k r o)
  | array {r : Json} {o : Bool} {a w s : Json} {e : Descriptor Json} {n : Int}
      (hraw : r = v.rawType) (hoptional : o = v.isOptional) (hkind : v.kindNumber? = some 5)
      (harray : v.filled? "ArrayType" = some a) (hdictionary : v.filled? "DictionaryType" = none)
      (hw : a.member? "Element" = some w) (he : ofJson w = .ok e)
      (hs : a.member? "Size" = some s) (hn : s.size = .ok n) : Reads v (array r o e n)
  | dictionary {r : Json} {o : Bool} {b k w : Json} {d e : Descriptor Json}
      (hraw : r = v.rawType) (hoptional : o = v.isOptional) (hkind : v.kindNumber? = some 6)
      (harray : v.filled? "ArrayType" = none) (hdictionary : v.filled? "DictionaryType" = some b)
      (hk : b.member? "Key" = some k) (hd : ofJson k = .ok d)
      (hw : b.member? "Value" = some w) (he : ofJson w = .ok e) : Reads v (dictionary r o d e)

/-- An object is read as a descriptor if its members say so. -/
theorem ofJson_eq_ok_iff {v : Json} {d : Descriptor Json} :
    ofJson v = .ok d ↔ (∃ ms, v = .object ms) ∧ Reads v d := by
  constructor
  · intro h
    match v with
    | .null | .bool _ | .int _ | .float _ | .string _ | .array _ => simp [ofJson] at h
    | .object ms =>
      rw [ofJson_object] at h
      obtain ⟨kind, hkind, h⟩ := bind_eq_ok_iff.1 h
      obtain ⟨a?, ha, h⟩ := bind_eq_ok_iff.1 h
      obtain ⟨b?, hb, h⟩ := bind_eq_ok_iff.1 h
      obtain ⟨rfl, hraw, hoptional, rfl, rfl⟩ := assemble_eq_ok_iff.1 h
      have hkind := (typeKind_eq_ok_iff (v := .object ms)).1 hkind
      refine ⟨⟨ms, rfl⟩, ?_⟩
      cases d with
      | named k r o =>
        exact .named k hraw hoptional hkind (readArray_eq_ok_none_iff.1 ha)
          (readDictionary_eq_ok_none_iff.1 hb)
      | array r o e n =>
        obtain ⟨a, w, s, ha, hw, he, hs, hn⟩ := readArray_eq_ok_some_iff.1 ha
        exact .array hraw hoptional hkind ha (readDictionary_eq_ok_none_iff.1 hb) hw he hs hn
      | dictionary r o d e =>
        obtain ⟨b, k, w, hb, hk, hd, hw, he⟩ := readDictionary_eq_ok_some_iff.1 hb
        exact .dictionary hraw hoptional hkind (readArray_eq_ok_none_iff.1 ha) hb hk hd hw he
  · rintro ⟨⟨ms, rfl⟩, h⟩
    have hmembers : (object ms).kindNumber? = some (d.kind.code : Int) ∧
        readArray (Json.part? ms "ArrayType") = .ok d.array? ∧
        readDictionary (Json.part? ms "DictionaryType") = .ok d.dictionary? ∧
        d.raw = (object ms).rawType ∧ d.isOptional = (object ms).isOptional := by
      cases h with
      | named k hraw hoptional hkind harray hdictionary =>
        exact ⟨hkind, readArray_eq_ok_none_iff.2 harray,
          readDictionary_eq_ok_none_iff.2 hdictionary, hraw, hoptional⟩
      | array hraw hoptional hkind harray hdictionary hw he hs hn =>
        exact ⟨hkind, readArray_eq_ok_some_iff.2 ⟨_, _, _, harray, hw, he, hs, hn⟩,
          readDictionary_eq_ok_none_iff.2 hdictionary, hraw, hoptional⟩
      | dictionary hraw hoptional hkind harray hdictionary hk hd hw he =>
        exact ⟨hkind, readArray_eq_ok_none_iff.2 harray,
          readDictionary_eq_ok_some_iff.2 ⟨_, _, _, hdictionary, hk, hd, hw, he⟩, hraw, hoptional⟩
    obtain ⟨hkind, harray, hdictionary, hraw, hoptional⟩ := hmembers
    rw [ofJson_object]
    exact bind_eq_ok_iff.2 ⟨_, (typeKind_eq_ok_iff (v := .object ms)).2 hkind,
      bind_eq_ok_iff.2 ⟨_, harray,
      bind_eq_ok_iff.2 ⟨_, hdictionary,
        assemble_eq_ok_iff.2 ⟨rfl, hraw, hoptional, rfl, rfl⟩⟩⟩⟩

/-! ## Data that are accepted -/

/-- What is read describes a type. -/
theorem Reads.describesType {v : Json} {d : Descriptor Json} (hv : ∃ ms, v = .object ms)
    (h : Reads v d) : v.DescribesType := by
  cases h with
  | named k _ _ hkind harray hdictionary =>
    obtain ⟨c, hc, hkind⟩ : ∃ c : Nat, c ≤ 4 ∧ v.kindNumber? = some (c : Int) := by
      refine ⟨_, ?_, hkind⟩
      rcases k with _ | _ | _ | _ | _ <;> simp [kind, TypeKind.code]
    have hne : ∀ m : Int, 4 < m → v.kindNumber? ≠ some m := by
      rw [hkind]
      rintro m hm ⟨⟩
      omega
    constructor
    case object => exact hv
    case kind => exact ⟨c, by omega, hkind⟩
    all_goals simp [harray, hdictionary, hne]
  | array _ _ hkind harray hdictionary hw _ hs hn =>
    constructor
    case object => exact hv
    case kind => exact ⟨5, by decide, hkind⟩
    all_goals simp [hkind, harray, hdictionary, hw, hs, hn]
  | dictionary _ _ hkind harray hdictionary hk _ hw _ =>
    constructor
    case object => exact hv
    case kind => exact ⟨6, by decide, hkind⟩
    all_goals simp [hkind, harray, hdictionary, hk, hw]

/-- What describes the parts is read as the parts. -/
theorem Reads.part? {v : Json} {d : Descriptor Json} (h : Reads v d) (p : Part) :
    (v.partOf? p = none ∧ d.part? p = none) ∨
      ∃ w e, v.partOf? p = some w ∧ d.part? p = some e ∧ ofJson w = .ok e := by
  cases h with
  | named k _ _ hkind harray hdictionary =>
    left
    cases p <;> simp [partOf?, Part.members, Descriptor.part?, harray, hdictionary]
  | array _ _ hkind harray hdictionary hw he hs hn =>
    cases p
    case element =>
      exact .inr ⟨_, _, by simp [partOf?, Part.members, harray, hw], rfl, he⟩
    all_goals
      left
      simp [partOf?, Part.members, Descriptor.part?, hdictionary]
  | dictionary _ _ hkind harray hdictionary hk hd hw he =>
    cases p
    case element =>
      left
      simp [partOf?, Part.members, Descriptor.part?, harray]
    case key =>
      exact .inr ⟨_, _, by simp [partOf?, Part.members, hdictionary, hk], rfl, hd⟩
    case value =>
      exact .inr ⟨_, _, by simp [partOf?, Part.members, hdictionary, hw], rfl, he⟩

/-- What describes a type can be read if what describes its parts can. -/
theorem exists_reads {v : Json} (hv : v.DescribesType)
    (hparts : ∀ p w, v.partOf? p = some w → ∃ d, ofJson w = .ok d) : ∃ d, Reads v d := by
  have hall : ∀ n ≤ 6, ∃ k ∈ TypeKind.all, k.code = n := by decide
  obtain ⟨n, hn, hkind⟩ := hv.kind
  obtain ⟨k, -, rfl⟩ := hall n hn
  have hnone : ∀ {name : String} {m : Int}, ((v.filled? name).isSome ↔ v.kindNumber? = some m) →
      v.kindNumber? ≠ some m → v.filled? name = none := by
    intro name m hiff hne
    rwa [← Option.not_isSome_iff_eq_none, hiff]
  have harray := hnone hv.array_iff
  have hdictionary := hnone hv.dictionary_iff
  rw [hkind] at harray hdictionary
  rcases k with _ | k | _ | _
  · exact ⟨_, .named none rfl rfl hkind (harray (by decide)) (hdictionary (by decide))⟩
  · refine ⟨_, .named (some k) rfl rfl hkind (harray ?_) (hdictionary ?_)⟩
    · cases k <;> decide
    · cases k <;> decide
  · obtain ⟨a, ha⟩ := Option.isSome_iff_exists.1 (hv.array_iff.2 hkind)
    obtain ⟨w, hw⟩ := Option.isSome_iff_exists.1 (hv.element a ha)
    obtain ⟨s, n, hs, hn⟩ := hv.size a ha
    obtain ⟨e, he⟩ := hparts .element w (by simp [partOf?, Part.members, ha, hw])
    exact ⟨_, .array rfl rfl hkind ha (hdictionary (by decide)) hw he hs hn⟩
  · obtain ⟨b, hb⟩ := Option.isSome_iff_exists.1 (hv.dictionary_iff.2 hkind)
    obtain ⟨k, hk⟩ := Option.isSome_iff_exists.1 (hv.key b hb)
    obtain ⟨w, hw⟩ := Option.isSome_iff_exists.1 (hv.value b hb)
    obtain ⟨d, hd⟩ := hparts .key k (by simp [partOf?, Part.members, hb, hk])
    obtain ⟨e, he⟩ := hparts .value w (by simp [partOf?, Part.members, hb, hw])
    exact ⟨_, .dictionary rfl rfl hkind (harray (by decide)) hb hk hd hw he⟩

/-- Data are read as a descriptor if at every depth they describe a type. -/
theorem exists_ofJson_eq_ok_iff (v : Json) :
    (∃ d, ofJson v = .ok d) ↔ ∀ ps w, v.at? ps = some w → w.DescribesType := by
  constructor
  · rintro ⟨d, hd⟩ ps
    induction ps generalizing v d with
    | nil =>
      rintro w ⟨⟩
      obtain ⟨hobject, hreads⟩ := ofJson_eq_ok_iff.1 hd
      exact hreads.describesType hobject
    | cons p ps ih =>
      intro w hw
      obtain ⟨u, hu, hw⟩ := Option.bind_eq_some_iff.1 hw
      obtain ⟨-, hreads⟩ := ofJson_eq_ok_iff.1 hd
      rcases hreads.part? p with ⟨hnone, -⟩ | ⟨u', e, hu', -, he⟩
      · rw [hnone] at hu
        cases hu
      · obtain rfl := Option.some.inj (hu.symm.trans hu')
        exact ih u e he w hw
  · intro hall
    induction hsize : sizeOf v using Nat.strongRecOn generalizing v with
    | ind n ih =>
      have hv := hall [] v rfl
      obtain ⟨d, hd⟩ := exists_reads hv fun p w hw => by
        have hlt : sizeOf w < n := hsize ▸ sizeOf_partOf?_lt hw
        refine ih (sizeOf w) hlt w (fun ps u hu => hall (p :: ps) u ?_) rfl
        rw [at?, hw]
        exact hu
      exact ⟨d, ofJson_eq_ok_iff.2 ⟨hv.object, hd⟩⟩

/-! ## What is read -/

/-- The part of a part of a descriptor and so on. -/
def at? {ρ : Type} : List Part → Descriptor ρ → Option (Descriptor ρ)
  | [], d => some d
  | p :: ps, d => (d.part? p).bind (at? ps)

/-- A descriptor has the parts and the size that its kind asks for. -/
structure FitsKind {ρ : Type} (d : Descriptor ρ) : Prop where
  element_iff : (d.part? .element).isSome ↔ d.kind = .array
  size_iff : d.size?.isSome ↔ d.kind = .array
  key_iff : (d.part? .key).isSome ↔ d.kind = .dictionary
  value_iff : (d.part? .value).isSome ↔ d.kind = .dictionary

/-- The parts of a descriptor fit its kind. -/
theorem fitsKind {ρ : Type} (d : Descriptor ρ) : d.FitsKind := by
  obtain ⟨helement, hkey, hvalue⟩ := isSome_part?_iff d
  refine ⟨helement, ?_, hkey, hvalue⟩
  match d with
  | named none _ _ | named (some _) _ _ | array .. | dictionary .. => simp [size?, kind]

/-- A descriptor says what a value says, apart from the parts. -/
structure Agrees (v : Json) (d : Descriptor Json) : Prop where
  kind : v.kindNumber? = some (d.kind.code : Int)
  raw : d.raw = v.rawType
  isOptional : d.isOptional = v.isOptional
  size : d.size? = v.arraySize?

/-- What is read from data agrees with them. -/
theorem Reads.agrees {v : Json} {d : Descriptor Json} (h : Reads v d) : Agrees v d := by
  cases h with
  | named k hraw hoptional hkind harray hdictionary =>
    exact ⟨hkind, hraw, hoptional, by simp [size?, arraySize?, harray]⟩
  | array hraw hoptional hkind harray hdictionary hw he hs hn =>
    exact ⟨hkind, hraw, hoptional, by simp [size?, arraySize?, harray, hs, hn, Except.toOption]⟩
  | dictionary hraw hoptional hkind harray hdictionary hk hd hw he =>
    exact ⟨hkind, hraw, hoptional, by simp [size?, arraySize?, harray]⟩

/-- What is read agrees with the data at every depth. -/
theorem agrees_at {v : Json} {d : Descriptor Json} (hd : ofJson v = .ok d) (ps : List Part) :
    (v.at? ps = none ∧ d.at? ps = none) ∨
      ∃ w e, v.at? ps = some w ∧ d.at? ps = some e ∧ Agrees w e := by
  induction ps generalizing v d with
  | nil => exact .inr ⟨v, d, rfl, rfl, (ofJson_eq_ok_iff.1 hd).2.agrees⟩
  | cons p ps ih =>
    rw [Json.at?, at?]
    rcases (ofJson_eq_ok_iff.1 hd).2.part? p with ⟨hv, hd⟩ | ⟨w, e, hv, hd, he⟩
    · left
      rw [hv, hd]
      exact ⟨rfl, rfl⟩
    · rw [hv, hd]
      exact ih he

/-! ## What is written -/

/-- What is written is read back. -/
theorem ofJson_toJson (d : Descriptor Json) : ofJson d.toJson = .ok d :=
  match d with
  | .named k _ _ => ofJson_eq_ok_iff.2 ⟨⟨_, rfl⟩, .named k rfl rfl rfl rfl rfl⟩
  | .array _ _ e _ =>
    ofJson_eq_ok_iff.2 ⟨⟨_, rfl⟩, .array rfl rfl rfl rfl rfl rfl e.ofJson_toJson rfl rfl⟩
  | .dictionary _ _ k v =>
    ofJson_eq_ok_iff.2 ⟨⟨_, rfl⟩,
      .dictionary rfl rfl rfl rfl rfl rfl k.ofJson_toJson rfl v.ofJson_toJson⟩

/-- All descriptors of a list are read back. -/
theorem mapM_ofJson_toJson (ds : List (Descriptor Json)) :
    (ds.map toJson).mapM ofJson = .ok ds := by
  induction ds with
  | nil => rfl
  | cons d ds ih =>
    rw [List.map_cons, List.mapM_cons, ofJson_toJson, ih]
    rfl

end Descriptor

/-- What is written is read back. -/
theorem Interaction.ofJson_toJson (i : Interaction Json) : ofJson i.toJson = .ok i := by
  have hkind : kindOfJson (some (Json.nat i.kind.code)) = .ok i.kind := by
    cases i.kind <;> rfl
  have hparameters : parametersOfJson (some (Json.arrayOf Descriptor.toJson i.parameters)) =
      .ok i.parameters := by
    unfold parametersOfJson
    cases hds : i.parameters with
    | nil => rfl
    | cons d ds => exact Descriptor.mapM_ofJson_toJson (d :: ds)
  exact bind_eq_ok_iff.2 ⟨_, hkind, bind_eq_ok_iff.2 ⟨_, hparameters, rfl⟩⟩

/-- If what is written is read back, reading and writing again changes nothing any more. -/
theorem map_write_eq_ok {ε α : Type} {read : Json → Except ε α} {write : α → Json}
    (hread : ∀ a, read (write a) = .ok a) {v u : Json} (hu : (read v).map write = .ok u) :
    (read u).map write = .ok u := by
  cases hv : read v with
  | error e =>
    rw [hv] at hu
    cases hu
  | ok a =>
    rw [hv] at hu
    obtain rfl := Except.ok.inj hu
    rw [hread]
    rfl

/-- Data are read as a descriptor exactly if they describe a type at every depth, and the descriptor
then fits its kind and agrees with the data at every depth. Descriptors and interactions that are
written are read back, and reading and writing again changes nothing the second time. -/
theorem data_read_and_restored :
    (∀ v : Json, (∃ d, Descriptor.ofJson v = .ok d) ↔
      ∀ ps w, v.at? ps = some w → w.DescribesType) ∧
    (∀ (v : Json) (d : Descriptor Json), Descriptor.ofJson v = .ok d → ∀ ps,
      (v.at? ps = none ∧ d.at? ps = none) ∨ ∃ w e, v.at? ps = some w ∧ d.at? ps = some e ∧
        e.FitsKind ∧ Descriptor.Agrees w e) ∧
    (∀ d : Descriptor Json, Descriptor.ofJson d.toJson = .ok d) ∧
    (∀ i : Interaction Json, Interaction.ofJson i.toJson = .ok i) ∧
    (∀ v u : Json, (Descriptor.ofJson v).map Descriptor.toJson = .ok u →
      (Descriptor.ofJson u).map Descriptor.toJson = .ok u) ∧
    (∀ v u : Json, (Interaction.ofJson v).map Interaction.toJson = .ok u →
      (Interaction.ofJson u).map Interaction.toJson = .ok u) := by
  refine ⟨Descriptor.exists_ofJson_eq_ok_iff, fun v d hd ps => ?_, Descriptor.ofJson_toJson,
    Interaction.ofJson_toJson, fun v u => map_write_eq_ok Descriptor.ofJson_toJson,
    fun v u => map_write_eq_ok Interaction.ofJson_toJson⟩
  rcases Descriptor.agrees_at hd ps with h | ⟨w, e, hw, he, hagrees⟩
  · exact .inl h
  · exact .inr ⟨w, e, hw, he, e.fitsKind, hagrees⟩

/-- The size of an array is a text with white space, and the kind of its element a truth value. -/
theorem data_read_and_restored_array : ∃ d e, Descriptor.ofJson (.object [("Kind", .int 5),
      ("ArrayType", .object [("Element", .object [("Kind", .bool true)]),
        ("Size", .string " 1_0 ")])]) = .ok d ∧ d.size? = some 10 ∧
    d.at? [.element] = some e ∧ e.FitsKind ∧
      Descriptor.Agrees (.object [("Kind", .bool true)]) e := by
  have helement : Descriptor.ofJson (.object [("Kind", .bool true)]) = .ok _ :=
    Descriptor.ofJson_eq_ok_iff.2 ⟨⟨_, rfl⟩, .named (some .numeric) rfl rfl rfl rfl rfl⟩
  have hsize : Json.size (.string " 1_0 ") = .ok 10 := by rfl
  have hd := Descriptor.ofJson_eq_ok_iff.2 ⟨⟨_, rfl⟩, .array (v := .object [("Kind", .int 5),
    ("ArrayType", .object [("Element", .object [("Kind", .bool true)]),
      ("Size", .string " 1_0 ")])]) rfl rfl rfl rfl rfl rfl helement rfl hsize⟩
  rcases data_read_and_restored.2.1 _ _ hd [.element] with
    ⟨hnone, -⟩ | ⟨w, e, hw, he, hfits, hagrees⟩
  · cases hnone
  · cases hw
    exact ⟨_, e, hd, rfl, he, hfits, hagrees⟩

end CadenceEntry
