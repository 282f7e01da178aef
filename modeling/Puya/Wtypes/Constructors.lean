import Puya.Wtypes.Basic

/-! # The checked constructors

    The `__init__` methods of `wtypes.py`, each a function into
    `Except PuyaError WType` that makes the same checks in the same order and
    raises the same errors, and `Built`: the types reachable from the module
    constants by calls of these constructors that return.

    Every constructor gets one spec lemma (`new_eq_ok`) that says exactly when
    it returns and what it returns; the proofs about `Built` invert a call
    through these lemmas and never unfold a constructor.
-/

namespace Puya

/-- The two exceptions of `puya.errors` raised by the modelled code, with
    their messages (the source location is not modelled). -/
inductive PuyaError
  | codeError (msg : String)
  | internalError (msg : String)
  deriving DecidableEq, Repr

end Puya

namespace Puya.Wtypes

open WType PuyaError

theorem bind_eq_ok {ε α β : Type} {x : Except ε α} {f : α → Except ε β} {b : β} :
    x >>= f = .ok b ↔ ∃ a, x = .ok a ∧ f a = .ok b := by
  cases x <;> simp [bind, Except.bind]

theorem bind_eq_error {ε α β : Type} {x : Except ε α} {f : α → Except ε β} {e : ε} :
    x >>= f = .error e ↔ x = .error e ∨ ∃ a, x = .ok a ∧ f a = .error e := by
  cases x <;> simp [bind, Except.bind]

/-! ### Native types -/

/-- `WStructType.__init__`. -/
def WStructType.new (fields : List (String × WType)) (name : String) (immutable : Bool) :
    Except PuyaError WType :=
  if fields.isEmpty then .error (codeError "struct needs fields")
  else if fields.any (fun f => pyEq f.2 voidWtype) then
    .error (codeError "struct should not contain void types")
  else .ok (struct fields name immutable)

/-- `WArray.__init__`. -/
def WArray.new (elementType : WType) : Except PuyaError WType :=
  if pyEq elementType voidWtype then .error (codeError "array element type cannot be void")
  else .ok (array elementType)

/-- `WTuple.__init__`. -/
def WTuple.new (types : List WType) : Except PuyaError WType :=
  if types.isEmpty then .error (codeError "tuple needs types")
  else if types.any (pyEq · voidWtype) then
    .error (codeError "tuple should not contain void types")
  else .ok (tuple types)

theorem WStructType.new_eq_ok {fields name immutable w} :
    WStructType.new fields name immutable = .ok w ↔
      fields ≠ [] ∧ (∀ f ∈ fields, pyEq f.2 voidWtype = false) ∧
        struct fields name immutable = w := by
  unfold WStructType.new
  by_cases h0 : fields = []
  · simp [h0]
  by_cases hv : ∀ f ∈ fields, pyEq f.2 voidWtype = false
  · have hany : fields.any (fun f => pyEq f.2 voidWtype) = false := by simpa using hv
    simp only [List.isEmpty_eq_false.2 h0, hany, Bool.false_eq_true, if_false, Except.ok.injEq]
    exact ⟨fun h => ⟨h0, hv, h⟩, fun h => h.2.2⟩
  · have hany : fields.any (fun f => pyEq f.2 voidWtype) = true := by simpa using hv
    simp only [List.isEmpty_eq_false.2 h0, hany]
    exact iff_of_false (by simp) fun h => hv h.2.1

theorem WArray.new_eq_ok {e w} :
    WArray.new e = .ok w ↔ pyEq e voidWtype = false ∧ array e = w := by
  unfold WArray.new
  cases pyEq e voidWtype <;> simp

theorem WTuple.new_eq_ok {types w} :
    WTuple.new types = .ok w ↔
      types ≠ [] ∧ (∀ t ∈ types, pyEq t voidWtype = false) ∧ tuple types = w := by
  unfold WTuple.new
  by_cases h0 : types = []
  · simp [h0]
  by_cases hv : ∀ t ∈ types, pyEq t voidWtype = false
  · have hany : types.any (pyEq · voidWtype) = false := by simpa using hv
    simp only [List.isEmpty_eq_false.2 h0, hany, Bool.false_eq_true, if_false, Except.ok.injEq]
    exact ⟨fun h => ⟨h0, hv, h⟩, fun h => h.2.2⟩
  · have hany : types.any (pyEq · voidWtype) = true := by simpa using hv
    simp only [List.isEmpty_eq_false.2 h0, hany]
    exact iff_of_false (by simp) fun h => hv h.2.1

/-! ### ARC4 types -/

/-- `ARC4UIntN.__init__`: the bit size, then the decode type, which must equal
    `uint64_wtype` (for at most 64 bits) or `biguint_wtype`. -/
def ARC4UIntN.new (n : Int) (decodeType : WType) (arc4Alias : Option String) :
    Except PuyaError WType :=
  if n % 8 ≠ 0 then .error (codeError "Bit size must be multiple of 8")
  else if ¬(8 ≤ n ∧ n ≤ 512) then
    .error (codeError "Bit size must be between 8 and 512 inclusive")
  else if pyEq decodeType uint64Wtype then
    if n > 64 then .error (internalError "TODO") else .ok (arc4UIntN n decodeType arc4Alias)
  else if pyEq decodeType biguintWtype then .ok (arc4UIntN n decodeType arc4Alias)
  else .error (internalError "TODO")

/-- `ARC4UFixedNxM.__init__`. -/
def ARC4UFixedNxM.new (bits precision : Int) : Except PuyaError WType :=
  if bits % 8 ≠ 0 then .error (codeError "Bit size must be multiple of 8")
  else if ¬(8 ≤ bits ∧ bits ≤ 512) then
    .error (codeError "Bit size must be between 8 and 512 inclusive")
  else if ¬(1 ≤ precision ∧ precision ≤ 160) then
    .error (codeError "Precision must be between 1 and 160 inclusive")
  else .ok (arc4UFixedNxM bits precision)

/-- `ARC4Tuple.__init__`: the first item that is not an ARC4 type is reported
    by its index; the native tuple `WTuple(types)` is then built as the decode
    type. -/
def ARC4Tuple.new (types : List WType) : Except PuyaError WType :=
  if types.isEmpty then .error (codeError "ARC4 Tuple cannot be empty")
  else match types.findIdx? (fun t => !t.isArc4) with
    | some i =>
      .error (codeError ("Invalid ARC4 Tuple type: type at index " ++ toString i ++
        " is not an ARC4 encoded type"))
    | none => do
      let _ ← WTuple.new types
      pure (arc4Tuple types)

/-- `ARC4DynamicArray.__init__`. -/
def ARC4DynamicArray.new (elementType : WType) (arc4Alias : Option String)
    (nativeType : Option WType) (immutable : Bool) : Except PuyaError WType :=
  if !elementType.isArc4 then
    .error (codeError "ARC4 arrays must have ARC4 encoded element type")
  else .ok (arc4DynamicArray elementType arc4Alias nativeType immutable)

/-- `ARC4StaticArray.__init__`. -/
def ARC4StaticArray.new (elementType : WType) (arraySize : Int) (arc4Alias : Option String)
    (nativeType : Option WType) (immutable : Bool) : Except PuyaError WType :=
  if !elementType.isArc4 then
    .error (codeError "ARC4 arrays must have ARC4 encoded element type")
  else if arraySize < 0 then
    .error (codeError "ARC4 static array size must be non-negative")
  else .ok (arc4StaticArray elementType arraySize arc4Alias nativeType immutable)

/-- `ARC4Struct.__init__`: every field that is not an ARC4 type is named in
    one error; the ARC4 name comes from an `ARC4Tuple` of the field types. -/
def ARC4Struct.new (fields : List (String × WType)) (name : String) (immutable : Bool) :
    Except PuyaError WType :=
  if fields.isEmpty then .error (codeError "arc4.Struct needs at least one element")
  else
    let badFieldNames := (fields.filter fun f => !f.2.isArc4).map Prod.fst
    if !badFieldNames.isEmpty then
      .error (codeError ("Invalid ARC4 Struct declaration, the following fields are not " ++
        "ARC4 encoded types: " ++ ", ".intercalate badFieldNames))
    else do
      let _ ← ARC4Tuple.new (fields.map Prod.snd)
      pure (arc4Struct fields name immutable)

/-- An ARC4 type is never equal to `void_wtype`, which is of another class. -/
theorem pyEq_void_of_isArc4 {t : WType} (h : t.isArc4 = true) : pyEq t voidWtype = false := by
  cases t <;> first | rfl | cases h

theorem ARC4UIntN.new_eq_ok {n d a w} :
    ARC4UIntN.new n d a = .ok w ↔
      n % 8 = 0 ∧ (8 ≤ n ∧ n ≤ 512) ∧
        ((pyEq d uint64Wtype = true ∧ n ≤ 64) ∨
          (pyEq d uint64Wtype = false ∧ pyEq d biguintWtype = true)) ∧
        arc4UIntN n d a = w := by
  unfold ARC4UIntN.new
  by_cases h8 : n % 8 = 0
  swap; · simp [h8]
  by_cases hr : 8 ≤ n ∧ n ≤ 512
  swap; · simp only [h8, hr, ne_eq, not_true_eq_false, not_false_eq_true, if_true, if_false]
          simp [hr]
  cases hu : pyEq d uint64Wtype
  · cases hb : pyEq d biguintWtype <;> simp [h8, hr]
  · by_cases h64 : n > 64
    · simp [h8, hr, h64]
    · simp [h8, hr, h64]; omega

theorem ARC4UFixedNxM.new_eq_ok {n m w} :
    ARC4UFixedNxM.new n m = .ok w ↔
      n % 8 = 0 ∧ (8 ≤ n ∧ n ≤ 512) ∧ (1 ≤ m ∧ m ≤ 160) ∧ arc4UFixedNxM n m = w := by
  unfold ARC4UFixedNxM.new
  by_cases h8 : n % 8 = 0
  swap; · simp [h8]
  by_cases hr : 8 ≤ n ∧ n ≤ 512
  swap; · simp only [h8, hr, ne_eq, not_true_eq_false, not_false_eq_true, if_true, if_false]
          simp [hr]
  by_cases hp : 1 ≤ m ∧ m ≤ 160
  swap; · simp only [h8, hr, hp, ne_eq, not_true_eq_false, not_false_eq_true, if_true, if_false]
          simp [hp]
  simp [h8, hr, hp]

theorem ARC4Tuple.new_eq_ok {types w} :
    ARC4Tuple.new types = .ok w ↔
      types ≠ [] ∧ (∀ t ∈ types, t.isArc4 = true) ∧ arc4Tuple types = w := by
  unfold ARC4Tuple.new
  by_cases h0 : types = []
  · simp [h0]
  simp only [List.isEmpty_eq_false.2 h0, Bool.false_eq_true, if_false]
  by_cases ha : ∀ t ∈ types, t.isArc4 = true
  · have hnone : types.findIdx? (fun t => !t.isArc4) = none := by simpa using ha
    have htuple : WTuple.new types = .ok (tuple types) :=
      WTuple.new_eq_ok.2 ⟨h0, fun t ht => pyEq_void_of_isArc4 (ha t ht), rfl⟩
    simp only [hnone, htuple, bind, Except.bind, pure, Except.pure, Except.ok.injEq]
    exact ⟨fun h => ⟨h0, ha, h⟩, fun h => h.2.2⟩
  · obtain ⟨i, hi⟩ : ∃ i, types.findIdx? (fun t => !t.isArc4) = some i :=
      Option.ne_none_iff_exists'.1 (by simpa using ha)
    simp only [hi]
    exact iff_of_false (by simp) fun h => ha h.2.1

theorem ARC4DynamicArray.new_eq_ok {e a d i w} :
    ARC4DynamicArray.new e a d i = .ok w ↔
      e.isArc4 = true ∧ arc4DynamicArray e a d i = w := by
  unfold ARC4DynamicArray.new
  cases e.isArc4 <;> simp

theorem ARC4StaticArray.new_eq_ok {e k a d i w} :
    ARC4StaticArray.new e k a d i = .ok w ↔
      e.isArc4 = true ∧ 0 ≤ k ∧ arc4StaticArray e k a d i = w := by
  unfold ARC4StaticArray.new
  cases e.isArc4
  · simp
  · by_cases hk : k < 0
    · simp [hk]
    · simp [hk]; omega

theorem ARC4Struct.new_eq_ok {fields name immutable w} :
    ARC4Struct.new fields name immutable = .ok w ↔
      fields ≠ [] ∧ (∀ f ∈ fields, f.2.isArc4 = true) ∧ arc4Struct fields name immutable = w := by
  unfold ARC4Struct.new
  by_cases h0 : fields = []
  · simp [h0]
  simp only [List.isEmpty_eq_false.2 h0, Bool.false_eq_true, if_false]
  by_cases ha : ∀ f ∈ fields, f.2.isArc4 = true
  · have hgood : (fields.filter fun f => !f.2.isArc4) = [] := by
      simpa [List.filter_eq_nil_iff] using ha
    have htuple : ARC4Tuple.new (fields.map Prod.snd) = .ok (arc4Tuple (fields.map Prod.snd)) :=
      ARC4Tuple.new_eq_ok.2 ⟨by simpa using h0, fun t ht => by
        obtain ⟨f, hf, rfl⟩ := List.mem_map.1 ht; exact ha f hf, rfl⟩
    simp only [hgood, List.map_nil, List.isEmpty_nil, Bool.not_true, Bool.false_eq_true,
      if_false, htuple, bind, Except.bind, pure, Except.pure, Except.ok.injEq]
    exact ⟨fun h => ⟨h0, ha, h⟩, fun h => h.2.2⟩
  · have hbad : (fields.filter fun f => !f.2.isArc4) ≠ [] := by
      simpa [List.filter_eq_nil_iff] using ha
    have hbad' : ((fields.filter fun f => !f.2.isArc4).map Prod.fst).isEmpty = false :=
      List.isEmpty_eq_false.2 (by rwa [Ne, List.map_eq_nil_iff])
    simp only [hbad', Bool.not_false, if_true]
    exact iff_of_false (by simp) fun h => ha h.2.1
/-! ### Built types -/

/-- The types built through the module constants and the checked
    constructors: every argument type is itself built, and the constructor
    returned. Struct fields come from a Python mapping, so their names are
    distinct. The base class's own constructor `WType(...)` is not among
    them. -/
inductive Built : WType → Prop
  | basic (c : BasicConst) : Built (basic c)
  | arc4Bool : Built arc4Bool
  | groupTransaction (t : Option TransactionType) : Built (groupTransaction t)
  | innerTransactionFields (t : Option TransactionType) : Built (innerTransactionFields t)
  | innerTransaction (t : Option TransactionType) : Built (innerTransaction t)
  | struct {fields name immutable w} (hkeys : (fields.map Prod.fst).Nodup)
      (hfields : ∀ f ∈ fields, Built f.2) (hnew : WStructType.new fields name immutable = .ok w) :
      Built w
  | array {e w} (he : Built e) (hnew : WArray.new e = .ok w) : Built w
  | tuple {types w} (htypes : ∀ t ∈ types, Built t) (hnew : WTuple.new types = .ok w) : Built w
  | arc4UIntN {n d a w} (hd : Built d) (hnew : ARC4UIntN.new n d a = .ok w) : Built w
  | arc4UFixedNxM {n m w} (hnew : ARC4UFixedNxM.new n m = .ok w) : Built w
  | arc4Tuple {types w} (htypes : ∀ t ∈ types, Built t) (hnew : ARC4Tuple.new types = .ok w) :
      Built w
  | arc4DynamicArray {e a d i w} (he : Built e) (hd : ∀ x ∈ d, Built x)
      (hnew : ARC4DynamicArray.new e a d i = .ok w) : Built w
  | arc4StaticArray {e k a d i w} (he : Built e) (hd : ∀ x ∈ d, Built x)
      (hnew : ARC4StaticArray.new e k a d i = .ok w) : Built w
  | arc4Struct {fields name immutable w} (hkeys : (fields.map Prod.fst).Nodup)
      (hfields : ∀ f ∈ fields, Built f.2) (hnew : ARC4Struct.new fields name immutable = .ok w) :
      Built w

/-- The module-level ARC4 constants are what their constructor calls return,
    so importing `wtypes.py` raises nothing. -/
theorem arc4_constants_new :
    ARC4UIntN.new 8 uint64Wtype (some "byte") = .ok arc4ByteAlias ∧
      ARC4DynamicArray.new arc4ByteAlias (some "string") (some stringWtype) true =
        .ok arc4StringWtype ∧
      ARC4StaticArray.new arc4ByteAlias 32 (some "address") (some accountWtype) true =
        .ok arc4AddressWtype :=
  ⟨rfl, rfl, rfl⟩

theorem arc4ByteAlias_built : Built arc4ByteAlias :=
  .arc4UIntN (.basic _) arc4_constants_new.1

theorem arc4StringWtype_built : Built arc4StringWtype :=
  .arc4DynamicArray arc4ByteAlias_built (by simpa [stringWtype] using .basic _)
    arc4_constants_new.2.1

end Puya.Wtypes
