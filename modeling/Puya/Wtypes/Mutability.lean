import Puya.Wtypes.Constructors

/-! # Immutability of nested ARC4 types

    `ARC4Tuple` and `ARC4Struct` compute their `immutable` flag from their
    items: one mutable item makes the aggregate mutable. The ARC4 array
    constructors take the flag from the caller instead and never compare it
    with the element type. So a built array flagged immutable can hold mutable
    elements (`immutable_array_holds_mutable`), and immutability reaches every
    nested type exactly when each array flagged immutable inside the type has
    an immutable element type (`reach_immutable_of_flagsSound`).

    The proof is a step lemma (one level down keeps the flag and the soundness
    of the array flags below) and a run lemma by induction along the chain of
    levels.
-/

namespace Puya.Wtypes

open WType

/-- `u` is one level inside `t`: an item of an ARC4 tuple, the type of a field
    of an ARC4 struct, or the element type of an ARC4 array. -/
inductive Child : WType → WType → Prop
  | arc4Tuple {u types} (h : u ∈ types) : Child u (arc4Tuple types)
  | arc4Struct {f fields name immutable} (h : f ∈ fields) :
      Child f.2 (arc4Struct fields name immutable)
  | arc4DynamicArray {e a d i} : Child e (arc4DynamicArray e a d i)
  | arc4StaticArray {e k a d i} : Child e (arc4StaticArray e k a d i)

/-- `u` is reachable from `t` through one or more levels. -/
def Reach (u t : WType) : Prop := Relation.TransGen Child u t

mutual
/-- Every ARC4 array in the type, the type itself included, that is flagged
    immutable has an immutable element type. -/
def flagsSound : WType → Bool
  | arc4Tuple ts => allFlagsSound ts
  | arc4Struct fs _ _ => fieldFlagsSound fs
  | arc4DynamicArray e _ _ i => (!i || e.immutable) && flagsSound e
  | arc4StaticArray e _ _ _ i => (!i || e.immutable) && flagsSound e
  | _ => true
  termination_by structural t => t
/-- `flagsSound` of every type of a list. -/
def allFlagsSound : List WType → Bool
  | [] => true
  | t :: ts => flagsSound t && allFlagsSound ts
  termination_by structural ts => ts
/-- `flagsSound` of every field type of a struct. -/
def fieldFlagsSound : List (String × WType) → Bool
  | [] => true
  | (_, t) :: fs => flagsSound t && fieldFlagsSound fs
  termination_by structural fs => fs
end

theorem allFlagsSound_iff (ts : List WType) :
    allFlagsSound ts = true ↔ ∀ t ∈ ts, flagsSound t = true := by
  induction ts with
  | nil => simp [allFlagsSound]
  | cons t ts ih => simp [allFlagsSound, ih]

theorem fieldFlagsSound_iff (fs : List (String × WType)) :
    fieldFlagsSound fs = true ↔ ∀ f ∈ fs, flagsSound f.2 = true := by
  induction fs with
  | nil => simp [fieldFlagsSound]
  | cons f fs ih => obtain ⟨k, t⟩ := f; simp [fieldFlagsSound, ih]

/-- One level down from an immutable type whose array flags are sound, the
    type is immutable and its array flags are sound. -/
theorem Child.immutable_flagsSound {u t : WType} (h : Child u t) (hi : t.immutable = true)
    (hs : flagsSound t = true) : u.immutable = true ∧ flagsSound u = true := by
  cases h with
  | arc4Tuple hu =>
    simp only [immutable, flagsSound, allImmutable_iff, allFlagsSound_iff] at hi hs
    exact ⟨hi _ hu, hs _ hu⟩
  | arc4Struct hf =>
    simp only [immutable, flagsSound, Bool.and_eq_true, fieldsImmutable_iff,
      fieldFlagsSound_iff] at hi hs
    exact ⟨hi.2 _ hf, hs _ hf⟩
  | arc4DynamicArray | arc4StaticArray =>
    simp only [immutable] at hi
    simpa [flagsSound, hi] using hs

/-- Immutability reaches every nested ARC4 type when no array in the type is
    flagged immutable over a mutable element type. -/
theorem reach_immutable_of_flagsSound (t : WType) (hs : flagsSound t = true)
    (hi : t.immutable = true) (u : WType) (h : Reach u t) : u.immutable = true := by
  suffices u.immutable = true ∧ flagsSound u = true from this.1
  induction h using Relation.TransGen.head_induction_on with
  | base hc => exact hc.immutable_flagsSound hi hs
  | ih hc _ ih => exact hc.immutable_flagsSound ih.1 ih.2

/-- An ARC4 struct of a string and an address, both immutable byte arrays. -/
def accountRecord : WType :=
  arc4Struct [("name", arc4StringWtype), ("owner", arc4AddressWtype)] "AccountRecord" true

theorem accountRecord_byte_immutable :
    flagsSound accountRecord = true ∧ accountRecord.immutable = true ∧
      arc4ByteAlias.immutable = true :=
  ⟨by decide, by decide, reach_immutable_of_flagsSound accountRecord (by decide) (by decide) _
    (.tail (.single (show Child arc4ByteAlias arc4StringWtype from .arc4DynamicArray))
      (show Child arc4StringWtype accountRecord from
        @Child.arc4Struct ("name", arc4StringWtype) _ _ _ (List.mem_cons_self _ _)))⟩

/-- `ARC4DynamicArray(ARC4DynamicArray(arc4_byte_alias), immutable=True)`: the
    outer array is flagged immutable, the inner one keeps the default. -/
def immutableOfMutable : WType :=
  arc4DynamicArray (arc4DynamicArray arc4ByteAlias none none false) none none true

theorem immutable_array_holds_mutable :
    Built immutableOfMutable ∧ immutableOfMutable.isArc4 = true ∧
      immutableOfMutable.immutable = true ∧
      ∃ u, Reach u immutableOfMutable ∧ u.isArc4 = true ∧ u.immutable = false :=
  ⟨.arc4DynamicArray (.arc4DynamicArray arc4ByteAlias_built (by simp) rfl) (by simp) rfl,
    rfl, rfl, _, .single .arc4DynamicArray, rfl, rfl⟩

end Puya.Wtypes
