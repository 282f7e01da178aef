import Puya.Wtypes.Constructors

/-! # ARC4 equivalents of native types

    `has_arc4_equivalent_type` and `avm_to_arc4_equivalent_type` are written
    independently: the predicate tests membership in the five basic constants
    by `==` and admits tuples whose items are ARC4 types or have an
    equivalent, but are not tuples themselves; the converter tests identity
    (`is`) against the same constants and converts tuple items one by one.

    On built types the two agree: whenever the predicate holds, the converter
    returns a built ARC4 type, and a tuple becomes an ARC4 tuple of the same
    length (`avmToArc4EquivalentType_of_has`). The proof needs no induction:
    the predicate excludes nested tuples, so one level of items is converted
    by the non-tuple case. A second instance equal to `bool_wtype` is not the
    constant itself, and there the predicate holds while the converter raises
    (`has_arc4_equivalent_copy_raises`).
-/

namespace Puya.Wtypes

open WType PuyaError

/-- The constants `has_arc4_equivalent_type` tests membership in. -/
def arc4EquivalentBasics : List WType :=
  [boolWtype, uint64Wtype, bytesWtype, biguintWtype, stringWtype]

mutual
/-- `has_arc4_equivalent_type`. -/
def hasArc4EquivalentType (w : WType) : Bool :=
  arc4EquivalentBasics.any (fun c => pyEq c w) ||
    match w with
    | tuple ts => tupleItemsHaveEquivalent ts
    | _ => false
  termination_by structural w
/-- The `all(...)` over the items of a tuple. -/
def tupleItemsHaveEquivalent : List WType → Bool
  | [] => true
  | t :: ts =>
    ((hasArc4EquivalentType t || t.isArc4) && !t.isTuple) && tupleItemsHaveEquivalent ts
  termination_by structural ts => ts
end

mutual
/-- `avm_to_arc4_equivalent_type`: the basic cases test identity with the
    module constants, so only the constants themselves match them. -/
def avmToArc4EquivalentType : WType → Except PuyaError WType
  | basic .bool => .ok arc4BoolWtype
  | basic .uint64 => ARC4UIntN.new 64 uint64Wtype none
  | basic .biguint => ARC4UIntN.new 512 biguintWtype none
  | basic .bytes => ARC4DynamicArray.new arc4ByteAlias none (some bytesWtype) false
  | basic .string => .ok arc4StringWtype
  | tuple ts => do
    let types ← toArc4Types ts
    ARC4Tuple.new types
  | w => .error (internalError (w.name ++ " does not have an arc4 equivalent type"))
  termination_by structural w => w
/-- The generator of ARC4 item types passed to `ARC4Tuple`: ARC4 items are
    kept, the others converted, in order. -/
def toArc4Types : List WType → Except PuyaError (List WType)
  | [] => .ok []
  | t :: ts => do
    let a ← if t.isArc4 then .ok t else avmToArc4EquivalentType t
    let rest ← toArc4Types ts
    pure (a :: rest)
  termination_by structural ts => ts
end

@[simp] theorem hasArc4EquivalentType_tuple (ts : List WType) :
    hasArc4EquivalentType (tuple ts) = tupleItemsHaveEquivalent ts := rfl

theorem tupleItemsHaveEquivalent_iff (ts : List WType) :
    tupleItemsHaveEquivalent ts = true ↔
      ∀ t ∈ ts, (hasArc4EquivalentType t = true ∨ t.isArc4 = true) ∧ t.isTuple = false := by
  induction ts with
  | nil => simp [tupleItemsHaveEquivalent]
  | cons t ts ih => simp [tupleItemsHaveEquivalent, ih]

theorem Built.tuple_inv {ts : List WType} (h : Built (WType.tuple ts)) :
    ts ≠ [] ∧ ∀ t ∈ ts, Built t := by
  cases h with
  | tuple htypes hnew =>
    obtain ⟨hne, -, heq⟩ := WTuple.new_eq_ok.1 hnew
    cases heq
    exact ⟨hne, htypes⟩
  | struct _ _ hnew => simp [WStructType.new_eq_ok] at hnew
  | array _ hnew => simp [WArray.new_eq_ok] at hnew
  | arc4UIntN _ hnew => simp [ARC4UIntN.new_eq_ok] at hnew
  | arc4UFixedNxM hnew => simp [ARC4UFixedNxM.new_eq_ok] at hnew
  | arc4Tuple _ hnew => simp [ARC4Tuple.new_eq_ok] at hnew
  | arc4DynamicArray _ _ hnew => simp [ARC4DynamicArray.new_eq_ok] at hnew
  | arc4StaticArray _ _ hnew => simp [ARC4StaticArray.new_eq_ok] at hnew
  | arc4Struct _ _ hnew => simp [ARC4Struct.new_eq_ok] at hnew

/-- Outside tuples, a built type with an equivalent is one of the five
    constants, and each converts to a built ARC4 type. -/
theorem avmToArc4EquivalentType_of_not_tuple {w : WType} (hw : Built w)
    (ht : w.isTuple = false) (h : hasArc4EquivalentType w = true) :
    ∃ a, avmToArc4EquivalentType w = .ok a ∧ Built a ∧ a.isArc4 = true := by
  cases hw with
  | basic c =>
    cases c
    case bool => exact ⟨_, rfl, .arc4Bool, rfl⟩
    case uint64 => exact ⟨_, rfl, @Built.arc4UIntN 64 uint64Wtype none _ (.basic _) rfl, rfl⟩
    case biguint => exact ⟨_, rfl, @Built.arc4UIntN 512 biguintWtype none _ (.basic _) rfl, rfl⟩
    case bytes =>
      exact ⟨_, rfl, .arc4DynamicArray arc4ByteAlias_built (by simpa using .basic _) rfl, rfl⟩
    case string => exact ⟨_, rfl, arc4StringWtype_built, rfl⟩
    all_goals cases h
  | arc4Bool | groupTransaction | innerTransactionFields | innerTransaction => cases h
  | struct _ _ hnew => obtain ⟨-, -, rfl⟩ := WStructType.new_eq_ok.1 hnew; cases h
  | array _ hnew => obtain ⟨-, rfl⟩ := WArray.new_eq_ok.1 hnew; cases h
  | tuple _ hnew => obtain ⟨-, -, rfl⟩ := WTuple.new_eq_ok.1 hnew; cases ht
  | arc4UIntN _ hnew => obtain ⟨-, -, -, rfl⟩ := ARC4UIntN.new_eq_ok.1 hnew; cases h
  | arc4UFixedNxM hnew => obtain ⟨-, -, -, rfl⟩ := ARC4UFixedNxM.new_eq_ok.1 hnew; cases h
  | arc4Tuple _ hnew => obtain ⟨-, -, rfl⟩ := ARC4Tuple.new_eq_ok.1 hnew; cases h
  | arc4DynamicArray _ _ hnew => obtain ⟨-, rfl⟩ := ARC4DynamicArray.new_eq_ok.1 hnew; cases h
  | arc4StaticArray _ _ hnew => obtain ⟨-, -, rfl⟩ := ARC4StaticArray.new_eq_ok.1 hnew; cases h
  | arc4Struct _ _ hnew => obtain ⟨-, -, rfl⟩ := ARC4Struct.new_eq_ok.1 hnew; cases h

/-- The items of a tuple with an equivalent convert one by one to built ARC4
    types, as many as there are items. -/
theorem toArc4Types_ok {ts : List WType} (hb : ∀ t ∈ ts, Built t)
    (hh : ∀ t ∈ ts, (hasArc4EquivalentType t = true ∨ t.isArc4 = true) ∧ t.isTuple = false) :
    ∃ items, toArc4Types ts = .ok items ∧ items.length = ts.length ∧
      ∀ a ∈ items, Built a ∧ a.isArc4 = true := by
  induction ts with
  | nil => exact ⟨[], rfl, rfl, by simp⟩
  | cons t ts ih =>
    obtain ⟨items, hitems, hlen, hall⟩ :=
      ih (fun u hu => hb u (List.mem_cons_of_mem _ hu)) (fun u hu => hh u (List.mem_cons_of_mem _ hu))
    have hbt := hb t (List.mem_cons_self _ _)
    obtain ⟨a, ha, hab, haa⟩ :
        ∃ a, toArc4Types (t :: ts) = .ok (a :: items) ∧ Built a ∧ a.isArc4 = true := by
      cases harc4 : t.isArc4
      · obtain ⟨hhas | hf, htup⟩ := hh t (List.mem_cons_self _ _)
        · obtain ⟨a, ha, hab, haa⟩ := avmToArc4EquivalentType_of_not_tuple hbt htup hhas
          exact ⟨a, by simp [toArc4Types, harc4, ha, hitems, bind, Except.bind, pure,
            Except.pure], hab, haa⟩
        · simp [harc4] at hf
      · exact ⟨t, by simp [toArc4Types, harc4, hitems, bind, Except.bind, pure, Except.pure],
          hbt, harc4⟩
    exact ⟨a :: items, ha, by simp [hlen], by simpa [hab, haa] using hall⟩

/-- Whenever a built type has an ARC4 equivalent, the converter returns a
    built ARC4 type without raising, and a tuple becomes an ARC4 tuple of the
    same length. -/
theorem avmToArc4EquivalentType_of_has (w : WType) (hw : Built w)
    (h : hasArc4EquivalentType w = true) :
    ∃ a, avmToArc4EquivalentType w = .ok a ∧ Built a ∧ a.isArc4 = true ∧
      ∀ ts, w = tuple ts → ∃ items, a = arc4Tuple items ∧ items.length = ts.length := by
  cases hwt : w.isTuple
  · obtain ⟨a, ha, hb, harc4⟩ := avmToArc4EquivalentType_of_not_tuple hw hwt h
    exact ⟨a, ha, hb, harc4, fun ts hts => by simp [hts, isTuple] at hwt⟩
  · obtain ⟨ts, rfl⟩ : ∃ ts, w = tuple ts := by cases w <;> first | exact ⟨_, rfl⟩ | cases hwt
    obtain ⟨hne, hb⟩ := hw.tuple_inv
    obtain ⟨items, hitems, hlen, hall⟩ :=
      toArc4Types_ok hb ((tupleItemsHaveEquivalent_iff ts).1 (by simpa using h))
    have hnew : ARC4Tuple.new items = .ok (arc4Tuple items) :=
      ARC4Tuple.new_eq_ok.2
        ⟨by rintro rfl; exact hne (List.length_eq_zero.1 hlen.symm), fun a ha => (hall a ha).2, rfl⟩
    refine ⟨arc4Tuple items, ?_, .arc4Tuple (fun a ha => (hall a ha).1) hnew, rfl, ?_⟩
    · simp only [avmToArc4EquivalentType, hitems, bind, Except.bind, hnew]
    · rintro ts' ⟨⟩
      exact ⟨items, rfl, hlen⟩

/-- A native tuple mixing a basic constant, an ARC4 type and `bool`. -/
def mixedTuple : WType := tuple [uint64Wtype, arc4StringWtype, boolWtype]

theorem mixedTuple_converts :
    ∃ a, avmToArc4EquivalentType mixedTuple = .ok a ∧ Built a ∧ a.isArc4 = true ∧
      ∀ ts, mixedTuple = tuple ts → ∃ items, a = arc4Tuple items ∧ items.length = ts.length :=
  avmToArc4EquivalentType_of_has mixedTuple
    (.tuple (by simp [uint64Wtype, boolWtype, arc4StringWtype_built, Built.basic])
      (WTuple.new_eq_ok.2 ⟨by simp [mixedTuple], by decide, rfl⟩))
    (by decide)

example : avmToArc4EquivalentType mixedTuple =
    .ok (arc4Tuple [arc4UIntN 64 uint64Wtype none, arc4StringWtype, arc4Bool]) := rfl

/-- A second instance equal to `bool_wtype` that is not the constant itself,
    as `attrs.evolve(bool_wtype)` or a deep copy would give. -/
def boolCopy : WType := plain "bool" (some .uint64) false true

theorem has_arc4_equivalent_copy_raises :
    pyEq boolCopy boolWtype = true ∧ hasArc4EquivalentType boolCopy = true ∧
      avmToArc4EquivalentType boolCopy =
        .error (internalError "bool does not have an arc4 equivalent type") :=
  ⟨rfl, rfl, rfl⟩

end Puya.Wtypes
