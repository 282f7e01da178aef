import Puya.Arc4.Signature

/-! # ARC4 names in method signatures

    The ARC4 names that `wtypes.py` builds form a small grammar: atoms free of
    parentheses (`uint64`, `bool`, `ufixed64x2`, the aliases), tuples and
    structs `(t1,...,tn)`, and arrays `t[]`, `t[N]`. Every such name has
    balanced parentheses and is either free of them or starts with `(`
    (`arc4Name_shape`).

    With the scan lemmas of `Puya.Arc4.Signature`, this gives the split of a
    signature built from ARC4 names (`splitSignature_arc4Names`): the method
    name, the joined argument names and the return name come back unchanged
    for every return type except an array over a tuple or struct. For those
    the return group ends at the tuple's `)` and the array suffix is reported
    as text after the returns (`splitSignature_rejects_tuple_array_return`).
-/

namespace Puya.Arc4

open Puya.Wtypes WType PuyaError

/-! ## Section 1: Balanced text -/

theorem parenDepthOk_append (d e : Nat) (xs ys : List Char) (h : parenDepthOk e xs = true) :
    parenDepthOk (d + e) (xs ++ ys) = parenDepthOk d ys := by
  induction xs generalizing e with
  | nil =>
    simp only [parenDepthOk, beq_iff_eq] at h
    simp [h]
  | cons c cs ih =>
    simp only [parenDepthOk] at h
    simp only [List.cons_append, parenDepthOk]
    split_ifs at h ⊢ with ho hc
    · rw [← ih _ h]; rfl
    · simp only [Bool.and_eq_true, bne_iff_ne] at h
      rw [← ih _ h.2, show d + e - 1 = d + (e - 1) by omega]
      simp; omega
    · exact ih _ h

theorem parenBalanced_append {xs ys : List Char} (hx : parenBalanced xs = true)
    (hy : parenBalanced ys = true) : parenBalanced (xs ++ ys) = true := by
  simpa [parenBalanced] using (parenDepthOk_append 0 0 xs ys hx).trans hy

theorem parenBalanced_of_parenFree {xs : List Char} (h : parenFree xs = true) :
    parenBalanced xs = true := by
  induction xs with
  | nil => rfl
  | cons c cs ih =>
    simp only [parenFree, List.all_cons, Bool.and_eq_true, bne_iff_ne, ne_eq] at h
    simpa [parenBalanced, parenDepthOk, h.1.1, h.1.2] using ih h.2

/-- A balanced text in parentheses is balanced. -/
theorem parenBalanced_group {b : List Char} (h : parenBalanced b = true) :
    parenBalanced ('(' :: b ++ [')']) = true := by
  have hb := parenDepthOk_append 1 0 b [')'] h
  simp only [Nat.add_zero] at hb
  simp [parenBalanced, parenDepthOk, hb]

theorem parenFree_append {xs ys : List Char} :
    parenFree (xs ++ ys) = (parenFree xs && parenFree ys) := by
  simp [parenFree]

/-! ## Section 2: Names -/

theorem parenFree_digitChar {k : Nat} (hk : k < 10) : parenFree [Nat.digitChar k] = true := by
  have : ∀ k < 10, parenFree [Nat.digitChar k] = true := by decide
  exact this k hk

theorem parenFree_toDigitsCore (fuel n : Nat) (ds : List Char) (h : parenFree ds = true) :
    parenFree (Nat.toDigitsCore 10 fuel n ds) = true := by
  induction fuel generalizing n ds with
  | zero => exact h
  | succ fuel ih =>
    have hd : parenFree (Nat.digitChar (n % 10) :: ds) = true := by
      rw [← List.singleton_append, parenFree_append, parenFree_digitChar (Nat.mod_lt _ (by omega)),
        h]; rfl
    simp only [Nat.toDigitsCore]
    split_ifs
    · exact hd
    · exact ih _ _ hd

/-- The decimal form of an integer holds no parenthesis. -/
theorem parenFree_intToString (n : Int) : parenFree (toString n).data = true := by
  have hnat : ∀ m : Nat, parenFree (toString m).data = true := fun m =>
    parenFree_toDigitsCore (m + 1) m [] rfl
  cases n with
  | ofNat m => exact hnat m
  | negSucc m =>
    show parenFree ("-" ++ toString (m + 1)).data = true
    rw [String.data_append, parenFree_append, hnat]; rfl

/-- An alias free of parentheses, or none. -/
def aliasParenFree : Option String → Bool
  | some s => parenFree s.data
  | none => true

/-- `alias or default` holds no parenthesis when neither does. -/
theorem parenFree_aliasOr {a : Option String} {default : String} (ha : aliasParenFree a = true)
    (hd : parenFree default.data = true) : parenFree (aliasOr a default).data = true := by
  cases a with
  | none => exact hd
  | some s => simp only [aliasOr]; split_ifs <;> assumption

theorem parenFree_uintName (n : Int) : parenFree ("uint" ++ toString n).data = true := by
  rw [String.data_append, parenFree_append, parenFree_intToString]; rfl

theorem parenFree_ufixedName (n m : Int) :
    parenFree ("ufixed" ++ toString n ++ "x" ++ toString m).data = true := by
  simp only [String.data_append, parenFree_append, parenFree_intToString]; rfl

mutual
/-- Every alias met by `arc4_name` is free of parentheses. -/
def aliasesParenFree : WType → Bool
  | arc4UIntN _ _ a => aliasParenFree a
  | arc4Tuple ts => allAliasesParenFree ts
  | arc4Struct fs _ _ => fieldAliasesParenFree fs
  | arc4DynamicArray e a _ _ => aliasParenFree a && aliasesParenFree e
  | arc4StaticArray e _ a _ _ => aliasParenFree a && aliasesParenFree e
  | _ => true
  termination_by structural t => t
/-- `aliasesParenFree` of every type of a list. -/
def allAliasesParenFree : List WType → Bool
  | [] => true
  | t :: ts => aliasesParenFree t && allAliasesParenFree ts
  termination_by structural ts => ts
/-- `aliasesParenFree` of every field type of a struct. -/
def fieldAliasesParenFree : List (String × WType) → Bool
  | [] => true
  | (_, t) :: fs => aliasesParenFree t && fieldAliasesParenFree fs
  termination_by structural fs => fs
end

/-! ## Section 3: The shape of ARC4 names -/

/-- The shape of an ARC4 name: free of parentheses, or one balanced group
    followed by text free of them, as in `(uint64,bool)[][2]`. -/
def NameShape (s : List Char) : Prop :=
  parenFree s = true ∨
    ∃ b rest, parenBalanced b = true ∧ parenFree rest = true ∧ s = '(' :: b ++ ')' :: rest

theorem NameShape.balanced {s : List Char} (h : NameShape s) : parenBalanced s = true := by
  rcases h with h | ⟨b, rest, hb, hr, rfl⟩
  · exact parenBalanced_of_parenFree h
  · simpa using parenBalanced_append (parenBalanced_group hb) (parenBalanced_of_parenFree hr)

/-- A name with a suffix free of parentheses (`[]`, `[N]`) keeps its shape. -/
theorem NameShape.append {s t : List Char} (hs : NameShape s) (ht : parenFree t = true) :
    NameShape (s ++ t) := by
  rcases hs with h | ⟨b, rest, hb, hr, rfl⟩
  · exact .inl (by rw [parenFree_append, h, ht]; rfl)
  · exact .inr ⟨b, rest ++ t, hb, by rw [parenFree_append, hr, ht]; rfl, by simp⟩

theorem NameShape.aliasOr {a : Option String} {default : String} (ha : aliasParenFree a = true)
    (hd : NameShape default.data) : NameShape (WType.aliasOr a default).data := by
  cases a with
  | none => exact hd
  | some s =>
    simp only [WType.aliasOr]
    split_ifs
    · exact hd
    · exact .inl ha

theorem parenBalanced_intercalate_go (acc : String) (l : List String)
    (hacc : parenBalanced acc.data = true) (hl : ∀ s ∈ l, parenBalanced s.data = true) :
    parenBalanced (String.intercalate.go acc "," l).data = true := by
  induction l generalizing acc with
  | nil => exact hacc
  | cons s l ih =>
    refine ih _ ?_ fun x hx => hl x (List.mem_cons_of_mem _ hx)
    simp only [String.data_append]
    exact parenBalanced_append (parenBalanced_append hacc rfl) (hl s (List.mem_cons_self _ _))

/-- Balanced names joined with commas are balanced. -/
theorem parenBalanced_intercalate (names : List String)
    (h : ∀ s ∈ names, parenBalanced s.data = true) :
    parenBalanced (",".intercalate names).data = true := by
  cases names with
  | nil => rfl
  | cons s l =>
    exact parenBalanced_intercalate_go s l (h s (List.mem_cons_self _ _))
      fun x hx => h x (List.mem_cons_of_mem _ hx)

theorem paren_data (names : List String) :
    (WType.paren names).data = '(' :: (",".intercalate names).data ++ [')'] := by
  simp [WType.paren]

/-- A tuple's ARC4 name `(t1,...,tn)`, with balanced item names, is one group. -/
theorem NameShape.paren {names : List String} (h : ∀ s ∈ names, parenBalanced s.data = true) :
    NameShape (WType.paren names).data :=
  .inr ⟨_, [], parenBalanced_intercalate names h, rfl, paren_data names⟩

mutual
/-- Every ARC4 name is free of parentheses or one balanced group followed by
    array suffixes; other types have the empty name. -/
theorem arc4Name_shape : (t : WType) → aliasesParenFree t = true → NameShape t.arc4Name.data
  | arc4Bool, _ => .inl rfl
  | arc4UIntN n _ _, h => .inl (parenFree_aliasOr h (parenFree_uintName n))
  | arc4UFixedNxM n m, _ => .inl (parenFree_ufixedName n m)
  | arc4Tuple ts, h => .paren fun s hs => (arc4Names_shape ts h s hs).balanced
  | arc4Struct fs _ _, h => .paren fun s hs => (fieldArc4Names_shape fs h s hs).balanced
  | arc4DynamicArray e a _ _, h => by
    simp only [aliasesParenFree, Bool.and_eq_true] at h
    exact .aliasOr h.1 (by rw [String.data_append]; exact (arc4Name_shape e h.2).append rfl)
  | arc4StaticArray e k a _ _, h => by
    simp only [aliasesParenFree, Bool.and_eq_true] at h
    refine .aliasOr h.1 ?_
    simp only [String.data_append, List.append_assoc]
    exact (arc4Name_shape e h.2).append (by
      rw [parenFree_append, parenFree_append, parenFree_intToString]; rfl)
  | basic _, _ | plain .., _ | groupTransaction _, _ | innerTransactionFields _, _
  | innerTransaction _, _ | struct .., _ | array _, _ | tuple _, _ => .inl rfl
  termination_by structural t => t
/-- `arc4Name_shape` of every name of a list. -/
theorem arc4Names_shape : (ts : List WType) → allAliasesParenFree ts = true →
    ∀ s ∈ arc4Names ts, NameShape s.data
  | [], _ => fun _ hs => nomatch hs
  | t :: ts, h => by
    simp only [allAliasesParenFree, Bool.and_eq_true] at h
    have ht := arc4Name_shape t h.1
    have hts := arc4Names_shape ts h.2
    simp only [arc4Names, List.mem_cons, forall_eq_or_imp]
    exact ⟨ht, hts⟩
  termination_by structural ts => ts
/-- `arc4Name_shape` of every field name of a struct. -/
theorem fieldArc4Names_shape : (fs : List (String × WType)) → fieldAliasesParenFree fs = true →
    ∀ s ∈ fieldArc4Names fs, NameShape s.data
  | [], _ => fun _ hs => nomatch hs
  | (_, t) :: fs, h => by
    simp only [fieldAliasesParenFree, Bool.and_eq_true] at h
    have ht := arc4Name_shape t h.1
    have hfs := fieldArc4Names_shape fs h.2
    simp only [fieldArc4Names, List.mem_cons, forall_eq_or_imp]
    exact ⟨ht, hfs⟩
  termination_by structural fs => fs
end

/-- `ARC4DynamicArray(ARC4Tuple([ARC4UIntN(64), arc4_bool_wtype]))`. -/
def tupleArray : WType :=
  arc4DynamicArray (arc4Tuple [arc4UIntN 64 uint64Wtype none, arc4Bool]) none none false

example : NameShape tupleArray.arc4Name.data :=
  arc4Name_shape tupleArray (by decide)

/-! ## Section 4: Splitting signatures of ARC4 names -/

/-- `isinstance(t, ARC4DynamicArray | ARC4StaticArray)`. -/
def isArc4Array : WType → Bool
  | arc4DynamicArray .. | arc4StaticArray .. => true
  | _ => false

theorem aliasOr_data_ne_nil {a : Option String} {default : String} (hd : default.data ≠ []) :
    (WType.aliasOr a default).data ≠ [] := by
  cases a with
  | none => exact hd
  | some s =>
    simp only [WType.aliasOr]
    split_ifs with h
    · exact hd
    · exact fun hs => h (String.ext hs)

theorem append_data_ne_nil {s t : String} (h : s.data ≠ [] ∨ t.data ≠ []) :
    (s ++ t).data ≠ [] := by
  rw [String.data_append]; rcases h with h | h <;> simp [h]

/-- Every ARC4 type has a name. -/
theorem arc4Name_data_ne_nil {t : WType} (hi : t.isArc4 = true) : t.arc4Name.data ≠ [] := by
  cases t with
  | arc4Bool => decide
  | arc4UIntN => exact aliasOr_data_ne_nil (append_data_ne_nil (.inl (by decide)))
  | arc4UFixedNxM => exact append_data_ne_nil (.inl (append_data_ne_nil (.inr (by decide))))
  | arc4Tuple | arc4Struct => exact paren_data _ ▸ List.cons_ne_nil _ _
  | arc4DynamicArray | arc4StaticArray =>
    exact aliasOr_data_ne_nil (append_data_ne_nil (.inr (by decide)))
  | _ => cases hi

/-- The name of an ARC4 array either holds no parenthesis or ends with `]`. -/
theorem arc4ArrayName_last {t : WType} (ht : isArc4Array t = true)
    (ha : aliasesParenFree t = true) :
    parenFree t.arc4Name.data = true ∨ t.arc4Name.data.getLast? = some ']' := by
  have hlast : ∀ (a : Option String) (default : String), aliasParenFree a = true →
      default.data.getLast? = some ']' →
      parenFree (WType.aliasOr a default).data = true ∨
        (WType.aliasOr a default).data.getLast? = some ']' := by
    intro a default ha hd
    cases a with
    | none => exact .inr hd
    | some s => simp only [WType.aliasOr]; split_ifs; exacts [.inr hd, .inl ha]
  have hdyn : "[]".data = ['[', ']'] := rfl
  have hsta : "]".data = [']'] := rfl
  cases t with
  | arc4DynamicArray | arc4StaticArray =>
    simp only [aliasesParenFree, Bool.and_eq_true] at ha
    exact hlast _ _ ha.1 (by
      simp only [arc4Name, String.data_append, hdyn, hsta, List.append_assoc, List.getLast?_append]
      rfl)
  | _ => cases ht

theorem head_ne_open_of_parenFree {s : List Char} (h : parenFree s = true) :
    s.head? ≠ some '(' := by
  cases s with
  | nil => simp
  | cons c cs => simp_all [parenFree]

/-- The name of an ARC4 return type, other than an array whose name opens
    with `(`, is free of parentheses or one balanced group. -/
theorem returnName_shape (t : WType) (hi : t.isArc4 = true) (ha : aliasesParenFree t = true)
    (hr : ¬(isArc4Array t = true ∧ t.arc4Name.data.head? = some '(')) :
    parenFree t.arc4Name.data = true ∨
      ∃ b, parenBalanced b = true ∧ t.arc4Name.data = '(' :: b ++ [')'] := by
  cases t with
  | arc4Bool => exact .inl rfl
  | arc4UIntN n _ _ => exact .inl (parenFree_aliasOr ha (parenFree_uintName n))
  | arc4UFixedNxM n m => exact .inl (parenFree_ufixedName n m)
  | arc4Tuple ts =>
    exact .inr ⟨_, parenBalanced_intercalate _ fun s hs => (arc4Names_shape ts ha s hs).balanced,
      paren_data _⟩
  | arc4Struct fs _ _ =>
    exact .inr ⟨_,
      parenBalanced_intercalate _ fun s hs => (fieldArc4Names_shape fs ha s hs).balanced,
      paren_data _⟩
  | arc4DynamicArray | arc4StaticArray =>
    rcases arc4Name_shape _ ha with h | ⟨b, rest, -, -, h⟩
    · exact .inl h
    · exact absurd ⟨rfl, by rw [h]; rfl⟩ hr
  | _ => cases hi

theorem signature_data (n : List Char) (args r : String) :
    String.mk n ++ "(" ++ args ++ ")" ++ r = String.mk (n ++ '(' :: args.data ++ ')' :: r.data) := by
  have hopen : "(".data = ['('] := rfl
  have hclose : ")".data = [')'] := rfl
  exact String.ext (by simp [String.data_append, hopen, hclose])

/-- The joined ARC4 names of argument types are balanced. -/
theorem parenBalanced_argNames (args : List WType) (h : ∀ a ∈ args, aliasesParenFree a = true) :
    parenBalanced (",".intercalate (args.map arc4Name)).data = true :=
  parenBalanced_intercalate _ fun s hs => by
    obtain ⟨a, ha, rfl⟩ := List.mem_map.1 hs
    exact (arc4Name_shape a (h a ha)).balanced

/-- A signature made of a valid method name, the ARC4 names of the argument
    types and the return text `void` or the name of an ARC4 type splits back
    into these three parts, with nothing raised or logged, when no alias
    holds a parenthesis and the return type is not an array named
    `(...)[]` or `(...)[N]`. -/
theorem splitSignature_arc4Names (n : List Char) (args : List WType) (r : String)
    (hn : validNamePattern n = true) (hargs : ∀ a ∈ args, aliasesParenFree a = true)
    (hr : r = "void" ∨ ∃ t, t.isArc4 = true ∧ aliasesParenFree t = true ∧
      ¬(isArc4Array t = true ∧ t.arc4Name.data.head? = some '(') ∧ r = t.arc4Name) :
    splitSignature (String.mk n ++ "(" ++ ",".intercalate (args.map arc4Name) ++ ")" ++ r) =
      .ok ((String.mk n, some (",".intercalate (args.map arc4Name)), some r), []) := by
  have hshape : (parenFree r.data = true ∨
      ∃ b, parenBalanced b = true ∧ r.data = '(' :: b ++ [')']) ∧ r.data ≠ [] := by
    rcases hr with rfl | ⟨t, hi, ha, hg, rfl⟩
    · exact ⟨.inl rfl, by decide⟩
    · exact ⟨returnName_shape t hi ha hg, arc4Name_data_ne_nil hi⟩
  rw [signature_data, splitSignature_wellFormed n _ r.data hn (parenBalanced_argNames args hargs)
    hshape.1]
  simp [hshape.2]

theorem splitSignature_transfer :
    splitSignature (String.mk "transfer".data ++ "(" ++
        ",".intercalate ([arc4AddressWtype, arc4UIntN 64 uint64Wtype none].map arc4Name) ++ ")" ++
        (arc4Tuple [arc4Bool, arc4StringWtype]).arc4Name) =
      .ok ((String.mk "transfer".data,
        some (",".intercalate ([arc4AddressWtype, arc4UIntN 64 uint64Wtype none].map arc4Name)),
        some (arc4Tuple [arc4Bool, arc4StringWtype]).arc4Name), []) :=
  splitSignature_arc4Names _ _ _ (by decide) (by decide)
    (.inr ⟨arc4Tuple [arc4Bool, arc4StringWtype], rfl, by decide, by decide, rfl⟩)

/-- An ARC4 array return type named `(...)[]` or `(...)[N]` splits as its
    leading group, and its array suffix is raised as text after the
    returns. -/
theorem splitSignature_groupArray_return (n : List Char) (args : List WType) (t : WType)
    (hn : validNamePattern n = true) (hargs : ∀ a ∈ args, aliasesParenFree a = true)
    (ht : aliasesParenFree t = true)
    (hg : isArc4Array t = true ∧ t.arc4Name.data.head? = some '(') :
    ∃ b rest, t.arc4Name.data = '(' :: b ++ ')' :: rest ∧
      splitSignature (String.mk n ++ "(" ++ ",".intercalate (args.map arc4Name) ++ ")" ++
          t.arc4Name) =
        .error (codeError ("invalid signature, text after returns: name=" ++ pyRepr n ++
          ", args=" ++ pyReprOpt (some (",".intercalate (args.map arc4Name)).data) ++
          ", returns=" ++ pyReprOpt (some ('(' :: b ++ [')'])) ++ ", remaining=" ++
          pyRepr rest)) := by
  rcases arc4Name_shape t ht with h | ⟨b, rest, hb, hrest, h⟩
  · exact absurd hg.2 (head_ne_open_of_parenFree h)
  have hne : rest ≠ [] := by
    rintro rfl
    rcases arc4ArrayName_last hg.1 ht with hl | hl
    · exact head_ne_open_of_parenFree hl hg.2
    · rw [h, List.getLast?_concat] at hl
      cases hl
  refine ⟨b, rest, h, ?_⟩
  rw [signature_data, h]
  exact splitSignature_textAfterReturns n _ b rest hn (parenBalanced_argNames args hargs) hb
    hrest hne

theorem splitSignature_tupleArray_return :
    ∃ b rest, tupleArray.arc4Name.data = '(' :: b ++ ')' :: rest ∧
      splitSignature (String.mk "f".data ++ "(" ++
          ",".intercalate (([] : List WType).map arc4Name) ++ ")" ++ tupleArray.arc4Name) =
        .error (codeError ("invalid signature, text after returns: name=" ++ pyRepr "f".data ++
          ", args=" ++ pyReprOpt (some (",".intercalate (([] : List WType).map arc4Name)).data) ++
          ", returns=" ++ pyReprOpt (some ('(' :: b ++ [')'])) ++ ", remaining=" ++
          pyRepr rest)) :=
  splitSignature_groupArray_return "f".data [] tupleArray (by decide) (by simp) (by decide)
    (by decide)

theorem splitSignature_rejects_tuple_array_return :
    Built tupleArray ∧ tupleArray.arc4Name = "(uint64,bool)[]" ∧
      splitSignature ("f()" ++ tupleArray.arc4Name) =
        .error (codeError ("invalid signature, text after returns: name='f', args='', " ++
          "returns='(uint64,bool)', remaining='[]'")) := by
  have hitems : ∀ t ∈ [arc4UIntN 64 uint64Wtype none, arc4Bool], Built t := by
    simp only [List.mem_cons, List.mem_singleton, List.not_mem_nil, or_false]
    rintro t (rfl | rfl)
    exacts [@Built.arc4UIntN 64 uint64Wtype none _ (.basic _) rfl, .arc4Bool]
  exact ⟨.arc4DynamicArray (.arc4Tuple hitems rfl) (by simp) rfl, rfl, rfl⟩

end Puya.Arc4
