import Puya.Wtypes.Constructors

/-! # Names and equality of wtypes

    `==` on wtypes compares every field but `arc4_name`, and `name` is built
    from some of them. Equal types have equal names (`pyEq_name`), but a name
    does not show the decode type of an `ARC4UIntN`, nor the native type or
    `immutable` flag of an ARC4 array, so two built types can share a name
    and differ (`arc4String_dynamicBytes_same_name`).

    Those fields are all a name loses. `erase` sets them to fixed values, and
    for built types whose struct names cannot be read as another type's name
    and identify their struct, two names are equal exactly when the erased
    types are (`name_eq_iff_erase_pyEq`). The proof reads a name back: its
    start gives the class (`nameKind_name`), and the commas outside angle
    brackets split the item names of a tuple (`splitTop_intercalate`).
-/

namespace Puya.Wtypes

open WType

/-! ## Section 1: Decimal text -/

/-- The number that a text of decimal digits stands for, read on from `acc`. -/
def decimalValue : List Char → Nat → Nat
  | [], acc => acc
  | c :: cs, acc => decimalValue cs (acc * 10 + (c.toNat - '0'.toNat))

/-- The characters `0-9`. -/
def decimalDigits : List Char := "0123456789".data

theorem decimalValue_append (xs ys : List Char) (acc : Nat) :
    decimalValue (xs ++ ys) acc = decimalValue ys (decimalValue xs acc) := by
  induction xs generalizing acc with
  | nil => rfl
  | cons c cs ih => exact ih _

theorem digitChar_decimal {k : Nat} (hk : k < 10) :
    (Nat.digitChar k).toNat - '0'.toNat = k ∧ Nat.digitChar k ∈ decimalDigits := by
  have : ∀ k < 10,
      (Nat.digitChar k).toNat - '0'.toNat = k ∧ Nat.digitChar k ∈ decimalDigits := by
    decide
  exact this k hk

/-- `Nat.toDigitsCore` puts before `ds` a non-empty text of digits that reads
    back as `n`. -/
theorem toDigitsCore_decimal (fuel n : Nat) (ds : List Char) (hn : n < fuel) :
    ∃ pre, pre ≠ [] ∧ (∀ c ∈ pre, c ∈ decimalDigits) ∧
      Nat.toDigitsCore 10 fuel n ds = pre ++ ds ∧
      ∀ acc, decimalValue pre acc = acc * 10 ^ pre.length + n := by
  induction fuel generalizing n ds with
  | zero => omega
  | succ fuel ih =>
    obtain ⟨hval, hmem⟩ := digitChar_decimal (Nat.mod_lt n (show 10 > 0 by omega))
    have hsplit := Nat.div_add_mod n 10
    simp only [Nat.toDigitsCore]
    split_ifs with h0
    · refine ⟨[Nat.digitChar (n % 10)], List.cons_ne_nil _ _, by simpa using hmem, rfl,
        fun acc => ?_⟩
      simp only [decimalValue, hval, List.length_singleton, pow_one]
      omega
    · obtain ⟨pre, hne, hdig, heq, hdec⟩ :=
        ih (n / 10) (Nat.digitChar (n % 10) :: ds) (by omega)
      refine ⟨pre ++ [Nat.digitChar (n % 10)], by simp, ?_, by rw [heq]; simp, fun acc => ?_⟩
      · simpa [or_imp, forall_and] using ⟨hdig, hmem⟩
      · rw [decimalValue_append, hdec, List.length_append, List.length_singleton, pow_succ]
        simp only [decimalValue, hval]
        calc (acc * 10 ^ pre.length + n / 10) * 10 + n % 10
            = acc * (10 ^ pre.length * 10) + (10 * (n / 10) + n % 10) := by ring
          _ = acc * (10 ^ pre.length * 10) + n := by rw [hsplit]

/-- `str(n)` of a natural number is a non-empty text of digits that reads
    back as `n`. -/
theorem natToString_decimal (n : Nat) :
    (toString n).data ≠ [] ∧ (∀ c ∈ (toString n).data, c ∈ decimalDigits) ∧
      decimalValue (toString n).data 0 = n := by
  obtain ⟨pre, hne, hdig, heq, hdec⟩ := toDigitsCore_decimal (n + 1) n [] (by omega)
  have hdata : (toString n).data = pre := heq.trans (List.append_nil pre)
  rw [hdata]
  exact ⟨hne, hdig, by simpa using hdec 0⟩

theorem intToString_data (n : Int) :
    (toString n).data = (if n < 0 then ['-'] else []) ++ (toString n.natAbs).data := by
  cases n with
  | ofNat m => rfl
  | negSucc m => rw [if_pos (Int.negSucc_lt_zero m)]; rfl

/-- Every character of `str(n)` is a digit or the minus sign. -/
theorem mem_intToString {n : Int} {c : Char} (h : c ∈ (toString n).data) :
    c = '-' ∨ c ∈ decimalDigits := by
  rw [intToString_data] at h
  rcases List.mem_append.1 h with h | h
  · split_ifs at h <;> simp_all
  · exact .inr ((natToString_decimal _).2.1 c h)

/-- `str` is injective on integers. -/
theorem intToString_inj {m n : Int} (h : toString m = toString n) : m = n := by
  have hd := congrArg String.data h
  rw [intToString_data, intToString_data] at hd
  have hhead : ∀ k : Nat, (toString k).data.head? ≠ some '-' := fun k hk => by
    obtain ⟨hne, hdig, -⟩ := natToString_decimal k
    obtain ⟨c, cs, hcs⟩ := List.exists_cons_of_ne_nil hne
    rw [hcs, List.head?_cons, Option.some.injEq] at hk
    exact absurd (hdig c (hcs ▸ List.mem_cons_self _ _)) (by rw [hk]; decide)
  have habs : ∀ a b : Nat, (toString a).data = (toString b).data → a = b := fun a b hab => by
    rw [← (natToString_decimal a).2.2, ← (natToString_decimal b).2.2, hab]
  by_cases hm : m < 0 <;> by_cases hn : n < 0 <;>
    simp only [hm, hn, if_true, if_false, List.singleton_append, List.nil_append] at hd
  · have := habs _ _ (List.cons_injective hd); omega
  · exact (hhead _ (by rw [← hd]; rfl)).elim
  · exact (hhead _ (by rw [hd]; rfl)).elim
  · have := habs _ _ hd; omega

/-! ## Section 2: Angle brackets and top-level commas -/

/-- The angle-bracket depth after `c`. -/
def angleStep (d : Nat) (c : Char) : Nat :=
  if c = '<' then d + 1 else if c = '>' then d - 1 else d

/-- From depth `d`, the angle brackets of `s` close to depth zero without
    going below it, and every comma of `s` is inside brackets. -/
def angleOk : Nat → List Char → Bool
  | d, [] => d == 0
  | d, c :: cs =>
    if c = '<' then angleOk (d + 1) cs
    else if c = '>' then d != 0 && angleOk (d - 1) cs
    else if c = ',' then d != 0 && angleOk d cs
    else angleOk d cs

/-- `s` holds no angle bracket and no comma. -/
def plainText (s : List Char) : Bool := s.all fun c => c != '<' && c != '>' && c != ','

/-- The pieces of `s` between its commas outside angle brackets, read from
    depth `d` with the piece `cur` read so far. -/
def splitTop : Nat → List Char → List Char → List (List Char)
  | _, cur, [] => [cur]
  | d, cur, c :: cs =>
    if c = ',' ∧ d = 0 then cur :: splitTop 0 [] cs
    else splitTop (angleStep d c) (cur ++ [c]) cs

theorem angleOk_cons {d : Nat} {c : Char} {cs : List Char} (h : angleOk d (c :: cs) = true) :
    angleOk (angleStep d c) cs = true ∧ ¬(c = ',' ∧ d = 0) := by
  unfold angleOk at h
  unfold angleStep
  split_ifs at h ⊢ with h1 h2 h3 <;> simp_all

theorem angleOk_append (d e : Nat) (xs ys : List Char) (h : angleOk e xs = true) :
    angleOk (d + e) (xs ++ ys) = angleOk d ys := by
  induction xs generalizing e with
  | nil =>
    simp only [angleOk, beq_iff_eq] at h
    simp [h]
  | cons c cs ih =>
    simp only [angleOk] at h
    simp only [List.cons_append, angleOk]
    split_ifs at h ⊢
    · rw [← ih _ h]; rfl
    · simp only [Bool.and_eq_true, bne_iff_ne] at h
      rw [← ih _ h.2, show d + e - 1 = d + (e - 1) by omega]
      simp; omega
    · simp only [Bool.and_eq_true, bne_iff_ne] at h
      rw [← ih _ h.2]
      simp; omega
    · exact ih _ h

theorem angleOk_plain {s : List Char} (h : plainText s = true) (d : Nat) (rest : List Char) :
    angleOk d (s ++ rest) = angleOk d rest := by
  induction s with
  | nil => rfl
  | cons c cs ih =>
    simp only [plainText, List.all_cons, Bool.and_eq_true, bne_iff_ne, ne_eq] at h
    simp [angleOk, h.1.1.1, h.1.1.2, h.1.2, ih h.2]

theorem angleOk_of_plain {s : List Char} (h : plainText s = true) : angleOk 0 s = true := by
  simpa using angleOk_plain h 0 []

/-- Text whose commas are inside brackets is one piece. -/
theorem splitTop_append (d : Nat) (cur x rest : List Char) (h : angleOk d x = true) :
    splitTop d cur (x ++ rest) = splitTop 0 (cur ++ x) rest := by
  induction x generalizing d cur with
  | nil =>
    simp only [angleOk, beq_iff_eq] at h
    subst h
    simp
  | cons c cs ih =>
    obtain ⟨hnext, hnot⟩ := angleOk_cons h
    rw [List.cons_append, splitTop, if_neg hnot, ih _ _ hnext, List.append_assoc,
      List.singleton_append]

theorem splitTop_joined (cur acc : List Char) (ns : List String) (hacc : angleOk 0 acc = true)
    (hns : ∀ n ∈ ns, angleOk 0 n.data = true) :
    splitTop 0 cur (acc ++ (ns.map fun n => ',' :: n.data).flatten) =
      (cur ++ acc) :: ns.map String.data := by
  induction ns generalizing cur acc with
  | nil =>
    have hone := splitTop_append 0 cur acc [] hacc
    rw [List.append_nil] at hone
    simp [hone, splitTop]
  | cons n ns ih =>
    rw [List.map_cons, List.flatten_cons, splitTop_append 0 cur acc _ hacc, List.cons_append,
      splitTop, if_pos ⟨rfl, rfl⟩, ih [] n.data (hns n (List.mem_cons_self _ _))
        fun m hm => hns m (List.mem_cons_of_mem _ hm)]
    rfl

theorem intercalate_go_data (acc : String) (ns : List String) :
    (String.intercalate.go acc "," ns).data =
      acc.data ++ (ns.map fun n => ',' :: n.data).flatten := by
  have hcomma : ",".data = [','] := rfl
  induction ns generalizing acc with
  | nil => simp [String.intercalate.go]
  | cons n ns ih => simp [String.intercalate.go, ih, String.data_append, hcomma]

/-- Names joined with commas, each with its own commas inside brackets, split
    back into the names. -/
theorem splitTop_intercalate (names : List String) (hne : names ≠ [])
    (h : ∀ n ∈ names, angleOk 0 n.data = true) :
    splitTop 0 [] (",".intercalate names).data = names.map String.data := by
  cases names with
  | nil => contradiction
  | cons n ns =>
    rw [String.intercalate, intercalate_go_data,
      splitTop_joined [] _ _ (h n (List.mem_cons_self _ _))
        fun m hm => h m (List.mem_cons_of_mem _ hm)]
    rfl

theorem intercalate_inj {ns ms : List String} (hns : ns ≠ []) (hms : ms ≠ [])
    (h1 : ∀ n ∈ ns, angleOk 0 n.data = true) (h2 : ∀ m ∈ ms, angleOk 0 m.data = true)
    (h : ",".intercalate ns = ",".intercalate ms) : ns = ms := by
  have hsplit := splitTop_intercalate ns hns h1
  rw [h, splitTop_intercalate ms hms h2] at hsplit
  exact List.map_injective_iff.2 (fun _ _ h => String.ext h) hsplit.symm

/-- `x, y` with `x`'s commas inside brackets and `y` plain splits into `x`
    and ` y`. -/
theorem splitTop_pair (x y : List Char) (hx : angleOk 0 x = true) (hy : plainText y = true) :
    splitTop 0 [] (x ++ ',' :: y) = [x, y] := by
  have hone := splitTop_append 0 [] y [] (angleOk_of_plain hy)
  rw [List.append_nil] at hone
  rw [splitTop_append 0 [] x _ hx, splitTop, if_pos ⟨rfl, rfl⟩, hone]
  simp [splitTop]

/-! ## Section 3: What the start of a name tells -/

/-- The classes that names tell apart, with the constant or transaction type
    that a name shows. Struct names are chosen by the caller, so the structs
    share one kind. -/
inductive NameKind
  | basic (c : BasicConst)
  | groupTransaction (t : Option TransactionType)
  | innerTransactionFields (t : Option TransactionType)
  | innerTransaction (t : Option TransactionType)
  | struct
  | array
  | tuple
  | arc4Bool
  | arc4UIntN
  | arc4UFixedNxM
  | arc4Tuple
  | arc4DynamicArray
  | arc4StaticArray
  deriving DecidableEq

/-- The kind of a type; `WStructType`, `ARC4Struct` and the other base-class
    instances are structs. -/
def WType.kind : WType → NameKind
  | basic c => .basic c
  | groupTransaction t => .groupTransaction t
  | innerTransactionFields t => .innerTransactionFields t
  | innerTransaction t => .innerTransaction t
  | plain .. | struct .. | arc4Struct .. => .struct
  | array _ => .array
  | tuple _ => .tuple
  | arc4Bool => .arc4Bool
  | arc4UIntN .. => .arc4UIntN
  | arc4UFixedNxM .. => .arc4UFixedNxM
  | arc4Tuple _ => .arc4Tuple
  | arc4DynamicArray .. => .arc4DynamicArray
  | arc4StaticArray .. => .arc4StaticArray

/-- Every module constant. -/
def allBasicConsts : List BasicConst :=
  [.void, .bool, .uint64, .biguint, .bytes, .string, .asset, .account, .application, .stateKey,
    .boxKey]

/-- Every transaction type a transaction wtype can carry. -/
def allTxnTypes : List (Option TransactionType) :=
  [none, some .pay, some .keyreg, some .acfg, some .axfer, some .afrz, some .appl]

/-- The fixed names without an angle bracket, with the kind each tells: the
    module constants', the transaction types' and `arc4.bool`. -/
def fixedNames : List (String × NameKind) :=
  ("arc4.bool", .arc4Bool) :: allBasicConsts.map (fun c => (c.name, .basic c)) ++
    allTxnTypes.flatMap fun t =>
      [(txnName "group_transaction" t, .groupTransaction t),
        (txnName "inner_transaction_fields" t, .innerTransactionFields t),
        (txnName "inner_transaction" t, .innerTransaction t)]

/-- `s` could be the name `arc4.uint{n}` of an `ARC4UIntN`: the prefix, then
    only characters that `str` of an `int` writes. -/
def uintLike (s : List Char) : Bool :=
  "arc4.uint".data.isPrefixOf s && (s.drop 9).all fun c => c == '-' || decimalDigits.contains c

/-- `s` could be the name `arc4.ufixed{n}x{m}` of an `ARC4UFixedNxM`. -/
def ufixedLike (s : List Char) : Bool :=
  "arc4.ufixed".data.isPrefixOf s &&
    (s.drop 11).all fun c => c == '-' || c == 'x' || decimalDigits.contains c

/-- The kind of a name with an angle bracket, from the text before it. -/
def bracketKind (pre : List Char) : NameKind :=
  if pre = "array".data then .array
  else if pre = "tuple".data then .tuple
  else if pre = "arc4.tuple".data then .arc4Tuple
  else if pre = "arc4.dynamic_array".data then .arc4DynamicArray
  else .arc4StaticArray

/-- The kind of a name without an angle bracket. -/
def atomKind (s : List Char) : NameKind :=
  match fixedNames.find? (fun p => p.1.data == s) with
  | some p => p.2
  | none =>
    if ufixedLike s then .arc4UFixedNxM
    else if uintLike s then .arc4UIntN
    else .struct

/-- The kind a name tells. -/
def nameKind (s : List Char) : NameKind :=
  if '<' ∈ s then bracketKind (s.takeWhile (· != '<')) else atomKind s

/-- A struct name that no other class's name can equal: it holds no angle
    bracket or comma, is none of the fixed names, and could not be the name
    of an `ARC4UIntN` or an `ARC4UFixedNxM`. -/
def structNameOk (n : String) : Bool :=
  plainText n.data && !fixedNames.any (·.1 == n) && !uintLike n.data && !ufixedLike n.data

mutual
/-- The names met in the name of `t` can be read back: struct names are
    hygienic, tuples have items, and no other base-class instance occurs. -/
def readable : WType → Bool
  | plain .. => false
  | struct _ n _ | arc4Struct _ n _ => structNameOk n
  | array e | arc4DynamicArray e .. | arc4StaticArray e .. => readable e
  | tuple ts | arc4Tuple ts => !ts.isEmpty && allReadable ts
  | _ => true
  termination_by structural t => t
/-- `readable` of every type of a list. -/
def allReadable : List WType → Bool
  | [] => true
  | t :: ts => readable t && allReadable ts
  termination_by structural ts => ts
end

theorem bracket_data (pre : String) (names : List String) :
    (bracket pre names).data = pre.data ++ '<' :: ((",".intercalate names).data ++ ['>']) := by
  have hl : "<".data = ['<'] := rfl
  have hr : ">".data = ['>'] := rfl
  simp [bracket, String.data_append, hl, hr]

theorem staticArray_data (e : WType) (k a d i) :
    (arc4StaticArray e k a d i).name.data =
      "arc4.static_array".data ++
        '<' :: (e.name.data ++ ',' :: ' ' :: (toString k).data ++ ['>']) := by
  have hl : "arc4.static_array<".data = "arc4.static_array".data ++ ['<'] := rfl
  have hc : ", ".data = [',', ' '] := rfl
  have hr : ">".data = ['>'] := rfl
  simp [WType.name, String.data_append, hl, hc, hr]

theorem nameKind_bracket (pre rest : List Char) (h : '<' ∉ pre) :
    nameKind (pre ++ '<' :: rest) = bracketKind pre := by
  have htake : (pre ++ '<' :: rest).takeWhile (· != '<') = pre := by
    rw [List.takeWhile_append_of_pos fun a ha => by
      rw [bne_iff_ne, ne_eq]; rintro rfl; exact h ha]
    simp
  simp [nameKind, htake]

theorem plainText_append (s t : List Char) : plainText (s ++ t) = (plainText s && plainText t) := by
  simp [plainText]

theorem plainText_intToString (n : Int) : plainText (toString n).data = true := by
  have hdig : ∀ c ∈ decimalDigits, (c != '<' && c != '>' && c != ',') = true := by decide
  simp only [plainText, List.all_eq_true]
  intro c hc
  rcases mem_intToString hc with rfl | hd
  · rfl
  · exact hdig c hd

theorem not_mem_of_plainText {s : List Char} (h : plainText s = true) : '<' ∉ s := fun hs => by
  simp only [plainText, List.all_eq_true] at h
  exact absurd (h _ hs) (by decide)

/-- A name that none of the fixed names is leaves the table. -/
theorem fixedNames_find?_none {s : List Char} (h : ∀ p ∈ fixedNames, p.1.data ≠ s) :
    fixedNames.find? (fun p => p.1.data == s) = none :=
  List.find?_eq_none.2 fun p hp hps => h p hp (by simpa using hps)

theorem atomKind_startsWith {pre x : List Char} (hfixed : ∀ p ∈ fixedNames, ¬ pre <+: p.1.data) :
    atomKind (pre ++ x) =
      if ufixedLike (pre ++ x) then .arc4UFixedNxM
      else if uintLike (pre ++ x) then .arc4UIntN else .struct := by
  rw [atomKind, fixedNames_find?_none fun p hp hpx => hfixed p hp (hpx ▸ List.prefix_append _ _)]

theorem atomKind_uint (n : Int) :
    atomKind ("arc4.uint".data ++ (toString n).data) = .arc4UIntN := by
  have hall : ((toString n).data.all fun c => c == '-' || decimalDigits.contains c) = true :=
    List.all_eq_true.2 fun c hc => (mem_intToString hc).elim (fun h => by simp [h])
      fun h => by simp [h]
  rw [atomKind_startsWith (by decide), if_neg (by rw [Bool.not_eq_true]; rfl), if_pos]
  rw [uintLike, List.isPrefixOf_iff_prefix.2 (List.prefix_append _ _), Bool.true_and]
  exact hall

theorem atomKind_ufixed (n m : Int) :
    atomKind ("arc4.ufixed".data ++ ((toString n).data ++ ('x' :: (toString m).data))) =
      .arc4UFixedNxM := by
  have hnum : ∀ k : Int, ((toString k).data.all
      fun c => c == '-' || c == 'x' || decimalDigits.contains c) = true := fun k =>
    List.all_eq_true.2 fun c hc => (mem_intToString hc).elim (fun h => by simp [h])
      fun h => by simp [h]
  rw [atomKind_startsWith (by decide), if_pos]
  rw [ufixedLike, List.isPrefixOf_iff_prefix.2 (List.prefix_append _ _), Bool.true_and]
  change ((toString n).data ++ 'x' :: (toString m).data).all _ = true
  rw [List.all_append, List.all_cons, hnum n, hnum m]
  rfl

/-- A hygienic struct name reads as a struct name. -/
theorem nameKind_structName {n : String} (h : structNameOk n = true) :
    nameKind n.data = .struct := by
  simp only [structNameOk, Bool.and_eq_true, Bool.not_eq_true'] at h
  obtain ⟨⟨⟨hplain, hfixed⟩, huint⟩, hufixed⟩ := h
  have hnone : ∀ p ∈ fixedNames, p.1.data ≠ n.data := fun p hp hpn =>
    List.any_eq_false.1 hfixed p hp (beq_iff_eq.2 (String.ext hpn))
  rw [nameKind, if_neg (not_mem_of_plainText hplain), atomKind, fixedNames_find?_none hnone]
  simp only [hufixed, huint, Bool.false_eq_true, if_false]

/-- The start of a readable type's name tells its kind. -/
theorem nameKind_name (t : WType) (h : readable t = true) : nameKind t.name.data = t.kind := by
  cases t with
  | basic c => cases c <;> decide
  | plain => cases h
  | groupTransaction t | innerTransactionFields t | innerTransaction t =>
    cases t with
    | none => decide
    | some x => cases x <;> decide
  | struct _ n _ | arc4Struct _ n _ => exact nameKind_structName h
  | array | tuple | arc4Tuple | arc4DynamicArray =>
    simp only [WType.name, bracket_data]
    rw [nameKind_bracket _ _ (by decide)]
    rfl
  | arc4StaticArray =>
    rw [staticArray_data, nameKind_bracket _ _ (by decide)]
    rfl
  | arc4Bool => decide
  | arc4UIntN n =>
    have hplain : plainText ("arc4.uint".data ++ (toString n).data) = true := by
      rw [plainText_append, plainText_intToString]; rfl
    simp only [WType.name, String.data_append]
    rw [nameKind, if_neg (not_mem_of_plainText hplain), atomKind_uint]
    rfl
  | arc4UFixedNxM n m =>
    have hx : "x".data = ['x'] := rfl
    have hplain :
        plainText ("arc4.ufixed".data ++ ((toString n).data ++ ('x' :: (toString m).data))) =
        true := by
      have hm : plainText ('x' :: (toString m).data) = true := by
        simpa [plainText] using plainText_intToString m
      rw [plainText_append, plainText_append, plainText_intToString, hm]; rfl
    simp only [WType.name, String.data_append, hx, List.append_assoc, List.singleton_append]
    rw [nameKind, if_neg (not_mem_of_plainText hplain), atomKind_ufixed]
    rfl

theorem angleOk_comma {d : Nat} (hd : d ≠ 0) (rest : List Char) :
    angleOk d (',' :: rest) = angleOk d rest := by
  rw [angleOk, if_neg (by decide), if_neg (by decide), if_pos rfl]
  simp [hd]

theorem angleOk_other {d : Nat} {c : Char} (h1 : c ≠ '<') (h2 : c ≠ '>') (h3 : c ≠ ',')
    (rest : List Char) : angleOk d (c :: rest) = angleOk d rest := by
  rw [angleOk, if_neg h1, if_neg h2, if_neg h3]

theorem angleOk_joined (d : Nat) (hd : d ≠ 0) (ns : List String)
    (h : ∀ n ∈ ns, angleOk 0 n.data = true) (rest : List Char) :
    angleOk d ((ns.map fun n => ',' :: n.data).flatten ++ rest) = angleOk d rest := by
  induction ns with
  | nil => rfl
  | cons n ns ih =>
    have hn := angleOk_append d 0 n.data ((ns.map fun n => ',' :: n.data).flatten ++ rest)
      (h n (List.mem_cons_self _ _))
    simp only [Nat.add_zero] at hn
    rw [List.map_cons, List.flatten_cons, List.cons_append, List.cons_append, List.append_assoc,
      angleOk_comma hd, hn, ih fun m hm => h m (List.mem_cons_of_mem _ hm)]

/-- Names with their commas inside brackets, joined with commas inside a
    bracket, close it. -/
theorem angleOk_intercalate (names : List String) (h : ∀ n ∈ names, angleOk 0 n.data = true) :
    angleOk 1 ((",".intercalate names).data ++ ['>']) = true := by
  cases names with
  | nil => rfl
  | cons n ns =>
    rw [String.intercalate, intercalate_go_data, List.append_assoc,
      angleOk_append 1 0 _ _ (h n (List.mem_cons_self _ _)),
      angleOk_joined 1 one_ne_zero ns fun m hm => h m (List.mem_cons_of_mem _ hm)]
    rfl

theorem angleOk_bracket {pre content : List Char} (hpre : plainText pre = true)
    (hc : angleOk 1 (content ++ ['>']) = true) :
    angleOk 0 (pre ++ '<' :: (content ++ ['>'])) = true := by
  rw [angleOk_plain hpre]
  exact hc

mutual
/-- The commas of a readable name are inside its angle brackets. -/
theorem angleOk_name : (t : WType) → readable t = true → angleOk 0 t.name.data = true
  | basic c, _ => by cases c <;> decide
  | groupTransaction t, _ | innerTransactionFields t, _ | innerTransaction t, _ => by
    cases t with
    | none => decide
    | some x => cases x <;> decide
  | struct _ n _, h | arc4Struct _ n _, h => by
    simp only [readable, structNameOk, Bool.and_eq_true] at h
    exact angleOk_of_plain h.1.1.1
  | array e, h | arc4DynamicArray e .., h => by
    simp only [WType.name, bracket_data]
    refine angleOk_bracket rfl ?_
    exact angleOk_intercalate [e.name] (by simpa using angleOk_name e h)
  | tuple ts, h | arc4Tuple ts, h => by
    simp only [readable, Bool.and_eq_true] at h
    simp only [WType.name, bracket_data]
    exact angleOk_bracket rfl (angleOk_intercalate _ (allAngleOk_names ts h.2))
  | arc4StaticArray e k .., h => by
    rw [staticArray_data]
    refine angleOk_bracket rfl ?_
    rw [List.append_assoc, angleOk_append 1 0 _ _ (angleOk_name e h), List.cons_append,
      angleOk_comma one_ne_zero, List.cons_append,
      angleOk_other (by decide) (by decide) (by decide),
      angleOk_plain (plainText_intToString k)]
    rfl
  | arc4Bool, _ => rfl
  | arc4UIntN n .., _ => by
    simp only [WType.name, String.data_append]
    exact angleOk_of_plain (by rw [plainText_append, plainText_intToString]; rfl)
  | arc4UFixedNxM n m, _ => by
    simp only [WType.name, String.data_append]
    exact angleOk_of_plain (by simp only [plainText_append, plainText_intToString]; rfl)
  | plain .., h => nomatch h
  termination_by structural t => t
/-- `angleOk_name` for every name of a list. -/
theorem allAngleOk_names : (ts : List WType) → allReadable ts = true →
    ∀ n ∈ names ts, angleOk 0 n.data = true
  | [], _ => fun _ hn => nomatch hn
  | t :: ts, h => by
    simp only [allReadable, Bool.and_eq_true] at h
    have ht := angleOk_name t h.1
    have hts := allAngleOk_names ts h.2
    simp only [names, List.mem_cons, forall_eq_or_imp]
    exact ⟨ht, hts⟩
  termination_by structural ts => ts
end

/-! ## Section 4: What equality sees and names do not -/

mutual
/-- The type with the fields its name does not show set to fixed values: an
    `ARC4UIntN` decodes to `uint64_wtype` up to 64 bits and to
    `biguint_wtype` above, with no alias, and an ARC4 array has no alias or
    native type and is mutable. Struct types stay whole, since their names
    stand for them. -/
def erase : WType → WType
  | array e => array (erase e)
  | tuple ts => tuple (eraseAll ts)
  | arc4UIntN n _ _ => arc4UIntN n (if n ≤ 64 then uint64Wtype else biguintWtype) none
  | arc4Tuple ts => arc4Tuple (eraseAll ts)
  | arc4DynamicArray e _ _ _ => arc4DynamicArray (erase e) none none false
  | arc4StaticArray e k _ _ _ => arc4StaticArray (erase e) k none none false
  | t@(basic _) | t@(plain ..) | t@(groupTransaction _) | t@(innerTransactionFields _)
  | t@(innerTransaction _) | t@(struct ..) | t@arc4Bool | t@(arc4UFixedNxM ..)
  | t@(arc4Struct ..) => t
  termination_by structural t => t
/-- `erase` of every type of a list. -/
def eraseAll : List WType → List WType
  | [] => []
  | t :: ts => erase t :: eraseAll ts
  termination_by structural ts => ts
end

mutual
theorem name_erase : (t : WType) → (erase t).name = t.name
  | array e | arc4DynamicArray e .. => by simp only [erase, WType.name, name_erase e]
  | arc4StaticArray e .. => by simp only [erase, WType.name, name_erase e]
  | tuple ts | arc4Tuple ts => by simp only [erase, WType.name, names_eraseAll ts]
  | arc4UIntN .. | basic _ | plain .. | groupTransaction _ | innerTransactionFields _
  | innerTransaction _ | struct .. | arc4Bool | arc4UFixedNxM .. | arc4Struct .. => rfl
  termination_by structural t => t
theorem names_eraseAll : (ts : List WType) → names (eraseAll ts) = names ts
  | [] => rfl
  | t :: ts => by simp only [eraseAll, names, name_erase t, names_eraseAll ts]
  termination_by structural ts => ts
end

theorem baseEq_iff {a b : WType} :
    baseEq a b = true ↔ a.name = b.name ∧ a.scalarType = b.scalarType ∧
      a.ephemeral = b.ephemeral ∧ a.immutable = b.immutable := by
  simp [baseEq, and_assoc]

theorem baseEq_self (t : WType) : baseEq t t = true := baseEq_iff.2 ⟨rfl, rfl, rfl, rfl⟩

/-- `==` compares the fields every class has. -/
theorem pyEq_baseEq {a b : WType} (h : pyEq a b = true) : baseEq a b = true := by
  cases a <;> simp only [pyEq] at h <;> split at h <;>
    (try simp only [Bool.and_eq_true, Bool.false_eq_true] at h) <;>
    first | exact h | exact h.1 | exact h.1.1 | exact h.1.1.1 | exact baseEq_self _

/-- Equal types have equal names. -/
theorem pyEq_name {a b : WType} (h : pyEq a b = true) : a.name = b.name :=
  (baseEq_iff.1 (pyEq_baseEq h)).1

theorem allImmutable_eq_of_listEq {xs ys : List WType} (h : listEq xs ys = true) :
    allImmutable xs = allImmutable ys := by
  induction xs generalizing ys with
  | nil => cases ys <;> first | rfl | cases h
  | cons x xs ih =>
    cases ys with
    | nil => cases h
    | cons y ys =>
      have h : (pyEq x y && listEq xs ys) = true := h
      obtain ⟨hxy, hrest⟩ := Bool.and_eq_true _ _ ▸ h
      show (x.immutable && allImmutable xs) = (y.immutable && allImmutable ys)
      rw [(baseEq_iff.1 (pyEq_baseEq hxy)).2.2.2, ih hrest]

theorem name_erase_eq {a b : WType} (h : a.name = b.name) : (erase a).name = (erase b).name := by
  rw [name_erase, name_erase, h]

/-! ## Section 5: Reading a type back from its name -/

mutual
/-- The struct types met in the name of `t`: their names stand for them. -/
def namedStructs : WType → List WType
  | array e | arc4DynamicArray e .. | arc4StaticArray e .. => namedStructs e
  | tuple ts | arc4Tuple ts => allNamedStructs ts
  | t@(struct ..) | t@(arc4Struct ..) => [t]
  | basic _ | plain .. | groupTransaction _ | innerTransactionFields _ | innerTransaction _
  | arc4Bool | arc4UIntN .. | arc4UFixedNxM .. => []
  termination_by structural t => t
/-- `namedStructs` of every type of a list. -/
def allNamedStructs : List WType → List WType
  | [] => []
  | t :: ts => namedStructs t ++ allNamedStructs ts
  termination_by structural ts => ts
end

/-- Struct types of one name are equal: a struct name identifies its declaration. -/
def NamesIdentify (structs : List WType) : Prop :=
  ∀ s ∈ structs, ∀ s' ∈ structs, s.name = s'.name → pyEq s s' = true

instance (structs : List WType) : Decidable (NamesIdentify structs) :=
  inferInstanceAs
    (Decidable (∀ s ∈ structs, ∀ s' ∈ structs, s.name = s'.name → pyEq s s' = true))

/-- What the names of `a` and `b` take from their struct types: each struct name
    is hygienic (no other class's name reads as it), and struct types of one
    name are equal. -/
structure StructNaming (a b : WType) : Prop where
  hygienic : ∀ s ∈ namedStructs a ++ namedStructs b, structNameOk s.name = true
  identified : NamesIdentify (namedStructs a ++ namedStructs b)

theorem kind_eq_of_name_eq {a b : WType} (ha : readable a = true) (hb : readable b = true)
    (h : a.name = b.name) : a.kind = b.kind := by
  rw [← nameKind_name a ha, ← nameKind_name b hb, h]

theorem bracket_inj {pre : String} {xs ys : List String} (h : bracket pre xs = bracket pre ys) :
    ",".intercalate xs = ",".intercalate ys := by
  have hd := congrArg String.data h
  simp only [bracket_data, List.append_cancel_left_eq, List.cons.injEq, true_and,
    List.append_cancel_right_eq] at hd
  exact String.ext hd

theorem names_inj_of_bracket (pre : String) {ts ts' : List WType} (ha : readable (tuple ts) = true)
    (hb : readable (tuple ts') = true) (h : bracket pre (names ts) = bracket pre (names ts')) :
    names ts = names ts' := by
  simp only [readable, Bool.and_eq_true, Bool.not_eq_true', List.isEmpty_eq_false] at ha hb
  have hne : ∀ {us : List WType}, us ≠ [] → names us ≠ [] := fun h => by
    rw [names_eq_map]; simpa using h
  exact intercalate_inj (hne ha.1) (hne hb.1) (allAngleOk_names ts ha.2)
    (allAngleOk_names ts' hb.2) (bracket_inj h)

theorem uintName_inj {n n' : Int} {d d' a a'}
    (h : (arc4UIntN n d a).name = (arc4UIntN n' d' a').name) : n = n' := by
  have hd := congrArg String.data h
  simp only [WType.name, String.data_append, List.append_cancel_left_eq] at hd
  exact intToString_inj (String.ext hd)

theorem x_not_mem_intToString (n : Int) : 'x' ∉ (toString n).data := fun h => by
  rcases mem_intToString h with h | h
  · exact absurd h (by decide)
  · exact absurd h (by decide)

theorem ufixedName_inj {n m n' m' : Int}
    (h : (arc4UFixedNxM n m).name = (arc4UFixedNxM n' m').name) : n = n' ∧ m = m' := by
  have hx : "x".data = ['x'] := rfl
  have hd := congrArg String.data h
  simp only [WType.name, String.data_append, hx, List.append_assoc, List.append_cancel_left_eq,
    List.singleton_append] at hd
  obtain ⟨hn, -, hm⟩ := (List.append_cons_inj_of_not_mem (x_not_mem_intToString n)
    (x_not_mem_intToString m)).1 hd
  exact ⟨intToString_inj (String.ext hn), intToString_inj (String.ext hm)⟩

theorem staticArrayName_inj {e e' : WType} {k k' : Int} {a d i a' d' i'}
    (he : readable (arc4StaticArray e k a d i) = true)
    (he' : readable (arc4StaticArray e' k' a' d' i') = true)
    (h : (arc4StaticArray e k a d i).name = (arc4StaticArray e' k' a' d' i').name) :
    e.name = e'.name ∧ k = k' := by
  have hd := congrArg String.data h
  simp only [staticArray_data, List.append_cancel_left_eq, List.cons.injEq, true_and,
    List.append_cancel_right_eq] at hd
  have hplain : ∀ n : Int, plainText (' ' :: (toString n).data) = true := fun n => by
    rw [← List.singleton_append, plainText_append, plainText_intToString]; rfl
  have hsplit := splitTop_pair _ _ (angleOk_name e he) (hplain k)
  rw [hd, splitTop_pair _ _ (angleOk_name e' he') (hplain k')] at hsplit
  simp only [List.cons.injEq, and_true, true_and] at hsplit
  exact ⟨String.ext hsplit.1.symm, intToString_inj (String.ext hsplit.2.symm)⟩

theorem pyEq_decode_self (n : Int) :
    pyEq (if n ≤ 64 then uint64Wtype else biguintWtype)
      (if n ≤ 64 then uint64Wtype else biguintWtype) = true := by
  split <;> rfl

section ReadBack

variable {U : List WType}

mutual
/-- Two readable types of one name are equal once the fields their names do not
    show are erased. -/
theorem pyEq_erase_of_name_eq (hU : NamesIdentify U) : (a b : WType) →
    readable a = true → readable b = true → namedStructs a ⊆ U → namedStructs b ⊆ U →
    a.name = b.name → pyEq (erase a) (erase b) = true
  | basic c, b, ha, hb, _, _, h => by
    cases b <;> cases kind_eq_of_name_eq ha hb h
    simp only [erase, pyEq, baseEq_self]
  | groupTransaction t, b, ha, hb, _, _, h | innerTransactionFields t, b, ha, hb, _, _, h
  | innerTransaction t, b, ha, hb, _, _, h => by
    cases b <;> cases kind_eq_of_name_eq ha hb h
    simp only [erase, pyEq, baseEq_self, beq_self_eq_true, Bool.and_self]
  | plain .., _, ha, _, _, _, _ => nomatch ha
  | struct .., b, ha, hb, hua, hub, h | arc4Struct .., b, ha, hb, hua, hub, h => by
    cases b <;> cases kind_eq_of_name_eq ha hb h
    case plain => exact nomatch hb
    all_goals exact hU _ (hua (List.mem_singleton_self _)) _ (hub (List.mem_singleton_self _)) h
  | array e, b, ha, hb, hua, hub, h => by
    cases b <;> cases kind_eq_of_name_eq ha hb h
    case array e' =>
      have ih := pyEq_erase_of_name_eq hU e e' ha hb hua hub (bracket_inj h)
      simp only [erase, pyEq, ih, Bool.and_true]
      exact baseEq_iff.2 ⟨name_erase_eq h, rfl, rfl, rfl⟩
  | tuple ts, b, ha, hb, hua, hub, h => by
    cases b <;> cases kind_eq_of_name_eq ha hb h
    case tuple ts' =>
      have ih := listEq_erase_of_names_eq hU ts ts' (Bool.and_eq_true _ _ ▸ ha).2
        (Bool.and_eq_true _ _ ▸ hb).2 hua hub (names_inj_of_bracket "tuple" ha hb h)
      simp only [erase, pyEq, ih, Bool.and_true]
      exact baseEq_iff.2 ⟨name_erase_eq h, rfl, rfl, rfl⟩
  | arc4Tuple ts, b, ha, hb, hua, hub, h => by
    cases b <;> cases kind_eq_of_name_eq ha hb h
    case arc4Tuple ts' =>
      have ih := listEq_erase_of_names_eq hU ts ts' (Bool.and_eq_true _ _ ▸ ha).2
        (Bool.and_eq_true _ _ ▸ hb).2 hua hub (names_inj_of_bracket "arc4.tuple" ha hb h)
      simp only [erase, pyEq, ih, Bool.and_true]
      exact baseEq_iff.2 ⟨name_erase_eq h, rfl, rfl, allImmutable_eq_of_listEq ih⟩
  | arc4Bool, b, ha, hb, _, _, h => by
    cases b <;> cases kind_eq_of_name_eq ha hb h
    rfl
  | arc4UIntN n .., b, ha, hb, _, _, h => by
    cases b <;> cases kind_eq_of_name_eq ha hb h
    case arc4UIntN n' _ _ =>
      cases uintName_inj h
      simp only [erase, pyEq, baseEq_self, pyEq_decode_self, beq_self_eq_true, Bool.and_self]
  | arc4UFixedNxM n m, b, ha, hb, _, _, h => by
    cases b <;> cases kind_eq_of_name_eq ha hb h
    case arc4UFixedNxM n' m' =>
      obtain ⟨rfl, rfl⟩ := ufixedName_inj h
      simp only [erase, pyEq, baseEq_self, beq_self_eq_true, Bool.and_self]
  | arc4DynamicArray e .., b, ha, hb, hua, hub, h => by
    cases b <;> cases kind_eq_of_name_eq ha hb h
    case arc4DynamicArray e' _ _ _ =>
      have ih := pyEq_erase_of_name_eq hU e e' ha hb hua hub (bracket_inj h)
      simp only [erase, pyEq, ih, optEq, Bool.and_true]
      exact baseEq_iff.2 ⟨name_erase_eq h, rfl, rfl, rfl⟩
  | arc4StaticArray e .., b, ha, hb, hua, hub, h => by
    cases b <;> cases kind_eq_of_name_eq ha hb h
    case arc4StaticArray e' _ _ _ _ =>
      obtain ⟨he, rfl⟩ := staticArrayName_inj ha hb h
      have ih := pyEq_erase_of_name_eq hU e e' ha hb hua hub he
      simp only [erase, pyEq, ih, optEq, beq_self_eq_true, Bool.and_true]
      exact baseEq_iff.2 ⟨name_erase_eq h, rfl, rfl, rfl⟩
  termination_by structural a => a
/-- `pyEq_erase_of_name_eq` item by item. -/
theorem listEq_erase_of_names_eq (hU : NamesIdentify U) : (ts ts' : List WType) →
    allReadable ts = true → allReadable ts' = true → allNamedStructs ts ⊆ U →
    allNamedStructs ts' ⊆ U → names ts = names ts' →
    listEq (eraseAll ts) (eraseAll ts') = true
  | [], [], _, _, _, _, _ => rfl
  | [], _ :: _, _, _, _, _, h | _ :: _, [], _, _, _, _, h => nomatch h
  | t :: ts, t' :: ts', ha, hb, hua, hub, h => by
    simp only [allReadable, Bool.and_eq_true] at ha hb
    simp only [allNamedStructs, List.append_subset] at hua hub
    simp only [names, List.cons.injEq] at h
    show (pyEq (erase t) (erase t') && listEq (eraseAll ts) (eraseAll ts')) = true
    rw [pyEq_erase_of_name_eq hU t t' ha.1 hb.1 hua.1 hub.1 h.1,
      listEq_erase_of_names_eq hU ts ts' ha.2 hb.2 hua.2 hub.2 h.2]
    rfl
  termination_by structural ts => ts
end

end ReadBack

theorem allReadable_iff (ts : List WType) :
    allReadable ts = true ↔ ∀ t ∈ ts, readable t = true := by
  induction ts with
  | nil => simp [allReadable]
  | cons t ts ih => simp [allReadable, ih]

theorem namedStructs_subset {t : WType} {ts : List WType} (h : t ∈ ts) :
    namedStructs t ⊆ allNamedStructs ts := by
  induction ts with
  | nil => cases h
  | cons u us ih =>
    rcases List.mem_cons.1 h with rfl | h
    · exact List.subset_append_left _ _
    · exact (ih h).trans (List.subset_append_right _ _)

/-- A built type whose struct names are hygienic is readable: the constructors
    refuse empty tuples, and no constructor makes another base-class instance. -/
theorem readable_of_built {t : WType} (ht : Built t)
    (hs : ∀ s ∈ namedStructs t, structNameOk s.name = true) : readable t = true := by
  induction ht with
  | basic | arc4Bool | groupTransaction | innerTransactionFields | innerTransaction => rfl
  | struct _ _ hnew =>
    obtain ⟨-, -, rfl⟩ := WStructType.new_eq_ok.1 hnew
    exact hs _ (List.mem_singleton_self _)
  | arc4Struct _ _ hnew =>
    obtain ⟨-, -, rfl⟩ := ARC4Struct.new_eq_ok.1 hnew
    exact hs _ (List.mem_singleton_self _)
  | array _ hnew ih =>
    obtain ⟨-, rfl⟩ := WArray.new_eq_ok.1 hnew
    exact ih hs
  | arc4DynamicArray _ _ hnew ih =>
    obtain ⟨-, rfl⟩ := ARC4DynamicArray.new_eq_ok.1 hnew
    exact ih hs
  | arc4StaticArray _ _ hnew ih =>
    obtain ⟨-, -, rfl⟩ := ARC4StaticArray.new_eq_ok.1 hnew
    exact ih hs
  | arc4UIntN _ hnew =>
    obtain ⟨-, -, -, rfl⟩ := ARC4UIntN.new_eq_ok.1 hnew
    rfl
  | arc4UFixedNxM hnew =>
    obtain ⟨-, -, -, rfl⟩ := ARC4UFixedNxM.new_eq_ok.1 hnew
    rfl
  | tuple _ hnew ih =>
    obtain ⟨hne, -, rfl⟩ := WTuple.new_eq_ok.1 hnew
    simp only [readable, Bool.and_eq_true, Bool.not_eq_true', List.isEmpty_eq_false,
      allReadable_iff]
    exact ⟨hne, fun t ht => ih t ht fun s h => hs s (namedStructs_subset ht h)⟩
  | arc4Tuple _ hnew ih =>
    obtain ⟨hne, -, rfl⟩ := ARC4Tuple.new_eq_ok.1 hnew
    simp only [readable, Bool.and_eq_true, Bool.not_eq_true', List.isEmpty_eq_false,
      allReadable_iff]
    exact ⟨hne, fun t ht => ih t ht fun s h => hs s (namedStructs_subset ht h)⟩

/-- Equal types always have equal names. Two built types have one name
    exactly when they are equal after erasing the fields names do not show
    (the alias and decode type of an `ARC4UIntN`, the alias, native type and
    mutability of an ARC4 array), provided their struct names are hygienic
    and identify their declarations. -/
theorem name_eq_iff_erase_pyEq :
    (∀ a b : WType, pyEq a b = true → a.name = b.name) ∧
    ∀ {a b : WType}, Built a → Built b → StructNaming a b →
      (a.name = b.name ↔ pyEq (erase a) (erase b) = true) := by
  refine ⟨fun _ _ => pyEq_name, fun {a b} ha hb hs => ⟨fun h => ?_, fun h => ?_⟩⟩
  · exact pyEq_erase_of_name_eq hs.identified a b
      (readable_of_built ha fun s h => hs.hygienic s (List.mem_append_left _ h))
      (readable_of_built hb fun s h => hs.hygienic s (List.mem_append_right _ h))
      (List.subset_append_left _ _) (List.subset_append_right _ _) h
  · rw [← name_erase a, ← name_erase b]
    exact pyEq_name h

/-- `arc4.DynamicArray[arc4.Byte]` with no alias or native type. -/
def dynamicBytes : WType := arc4DynamicArray arc4ByteAlias none none false

theorem dynamicBytes_built : Built dynamicBytes :=
  .arc4DynamicArray arc4ByteAlias_built (fun _ h => by cases h) rfl

theorem arc4String_dynamicBytes_erase :
    arc4StringWtype.name = dynamicBytes.name ∧
      pyEq (erase arc4StringWtype) (erase dynamicBytes) = true :=
  ⟨rfl, (name_eq_iff_erase_pyEq.2 arc4StringWtype_built dynamicBytes_built
    ⟨by decide, by decide⟩).1 rfl⟩

/-- `arc4.String` and `arc4.DynamicArray[arc4.Byte]` share a name, yet differ in
    alias, native type and mutability, so they are not equal. -/
theorem arc4String_dynamicBytes_same_name :
    Built arc4StringWtype ∧ Built dynamicBytes ∧ arc4StringWtype.name = dynamicBytes.name ∧
      pyEq arc4StringWtype dynamicBytes = false :=
  ⟨arc4StringWtype_built, dynamicBytes_built, rfl, rfl⟩

end Puya.Wtypes
