import Puya.Wtypes.Constructors

/-! # Splitting an ARC4 method signature

    A model of `_split_signature` in `puyapy/awst_build/eb/arc4/_utils.py`.
    The loop tracks the parenthesis depth and `last_idx`, the index after the
    last parenthesis that opened or closed at depth one; the first such group
    is the argument list and the second, parentheses included, the return
    type. The text after `last_idx` is then checked, and a malformed name is
    logged.

    The main result describes the scan on a well-formed signature,
    `name(args)returns`, with a balanced argument list and a return text that is
    free of parentheses or one parenthesised group (`splitSignature_wellFormed`):
    a scan lemma per part of the signature (`scan_parenFree`, `scan_balanced`)
    composed by `scan_append`. On other shapes the split can leave characters
    out of all three parts without reporting them: text free of parentheses
    between the argument list and a parenthesised return type is skipped
    (`splitSignature_skips_parenFree_text`, `splitSignature_drops_text_between`).
-/

namespace Puya.Arc4

open PuyaError

/-! ### Python helpers -/

/-- Python's `s[start:stop]`: a negative bound counts from the end, and both
    bounds are clamped to the string. -/
def pySlice {α : Type} (s : List α) (start stop : Int) : List α :=
  let clamp (i : Int) : Nat := (if i < 0 then max (i + s.length) 0 else min i s.length).toNat
  (s.drop (clamp start)).take (clamp stop - clamp start)

theorem pySlice_natCast {α : Type} (s : List α) (i j : Nat) :
    pySlice s i j = (s.drop i).take (j - i) := by
  have clamp : ∀ k : Nat, (if (k : Int) < 0 then max ((k : Int) + s.length) 0
      else min (k : Int) s.length).toNat = min k s.length := fun k => by
    rw [if_neg (by omega)]; omega
  simp only [pySlice, clamp]
  by_cases hi : i ≤ s.length
  · rw [Nat.min_eq_left hi]
    apply List.ext_getElem
    · simp; omega
    · simp
  · simp [List.drop_eq_nil_of_le, Nat.le_of_not_le hi, Nat.min_eq_right (Nat.le_of_not_le hi)]

/-- The two hexadecimal digits of a character code below 256. -/
def hex2 (n : Nat) : String :=
  String.mk [Nat.digitChar (n / 16 % 16), Nat.digitChar (n % 16)]

/-- One character as Python's `repr` writes it between quotes `q`. -/
def reprChar (q c : Char) : String :=
  if c = '\\' then "\\\\"
  else if c = q then "\\" ++ c.toString
  else if c = '\t' then "\\t"
  else if c = '\n' then "\\n"
  else if c = '\r' then "\\r"
  else if c.toNat < 32 ∨ c.toNat = 127 then "\\x" ++ hex2 c.toNat
  else c.toString

/-- Python's `repr` of a string: in single quotes unless the text holds a
    single quote and no double quote. ASCII is escaped as CPython does;
    characters beyond ASCII are kept, as CPython keeps the printable ones. -/
def pyRepr (s : List Char) : String :=
  let q := if '\x27' ∈ s ∧ '\x22' ∉ s then '\x22' else '\x27'
  q.toString ++ String.join (s.map (reprChar q)) ++ q.toString

/-- An optional string in an f-string's `{x=}`: `None`, or its `repr`. -/
def pyReprOpt : Option (List Char) → String
  | some s => pyRepr s
  | none => "None"

/-- A character of `[_A-Za-z]`. -/
def isNameStart (c : Char) : Bool := c = '_' || ('A' ≤ c && c ≤ 'Z') || ('a' ≤ c && c ≤ 'z')

/-- A character of `[A-Za-z0-9_]`. -/
def isNameChar (c : Char) : Bool := isNameStart c || ('0' ≤ c && c ≤ '9')

/-- `_VALID_NAME_PATTERN.match(name)` for `^[_A-Za-z][A-Za-z0-9_]*$`: Python's
    `$` also matches just before a newline that ends the text. -/
def validNamePattern : List Char → Bool
  | [] => false
  | c :: rest =>
    isNameStart c &&
      (rest.all isNameChar || (rest.getLast? = some '\n' && rest.dropLast.all isNameChar))

/-! ### The scan -/

/-- The locals of `_split_signature`'s loop. -/
structure SplitState where
  /-- Parenthesis depth; a stray `)` takes it below zero. -/
  level : Int := 0
  /-- The index after the last parenthesis that opened or closed at depth one. -/
  lastIdx : Nat := 0
  name : List Char := []
  args : Option (List Char) := none
  returns : Option (List Char) := none
  deriving DecidableEq, Repr

/-- The loop body at `signature[idx] = tok`. -/
def scanStep (signature : List Char) (st : SplitState) (idx : Nat) (tok : Char) : SplitState :=
  if tok = '(' then
    if st.level + 1 = 1 then
      { st with
        level := st.level + 1
        name := if st.name.isEmpty then pySlice signature 0 idx else st.name
        lastIdx := idx + 1 }
    else { st with level := st.level + 1 }
  else if tok = ')' then
    if st.level - 1 = 0 then
      { st with
        level := st.level - 1
        args := if st.args.isNone then some (pySlice signature st.lastIdx idx) else st.args
        returns :=
          if st.args.isSome && st.returns.isNone then
            some (pySlice signature (st.lastIdx - 1) (idx + 1))
          else st.returns
        lastIdx := idx + 1 }
    else { st with level := st.level - 1 }
  else st

/-- `for idx, tok in enumerate(signature)`, from index `idx` on. -/
def scan (signature : List Char) : Nat → List Char → SplitState → SplitState
  | _, [], st => st
  | idx, tok :: rest, st => scan signature (idx + 1) rest (scanStep signature st idx tok)

/-- The checks on `signature[last_idx:]` after the loop. -/
def splitRemaining (signature : List Char) (st : SplitState) : Except PuyaError SplitState :=
  if st.lastIdx < signature.length then
    let remaining := signature.drop st.lastIdx
    if remaining.isEmpty then .ok st
    else if st.name.isEmpty then .ok { st with name := remaining }
    else if st.args.isNone then
      .error (codeError ("invalid signature, args not well defined: name=" ++ pyRepr st.name ++
        ", remaining=" ++ pyRepr remaining))
    else if st.returns.any (fun r => !r.isEmpty) then
      .error (codeError ("invalid signature, text after returns: name=" ++ pyRepr st.name ++
        ", args=" ++ pyReprOpt st.args ++ ", returns=" ++ pyReprOpt st.returns ++
        ", remaining=" ++ pyRepr remaining))
    else .ok { st with returns := some remaining }
  else .ok st

/-- `_split_signature`: the name, the argument text and the return text, with
    the errors it logs. -/
def splitSignature (signature : String) :
    Except PuyaError ((String × Option String × Option String) × List String) := do
  let sig := signature.data
  let st ← splitRemaining sig (scan sig 0 sig {})
  let logged :=
    if st.name.isEmpty || !validNamePattern st.name then
      ["invalid signature: name=" ++ pyRepr st.name]
    else []
  pure ((String.mk st.name, st.args.map String.mk, st.returns.map String.mk), logged)


/-! ### Well-formed signatures -/

/-- From depth `d`, the parentheses of `s` close to depth zero and never go
    below it. -/
def parenDepthOk : Nat → List Char → Bool
  | d, [] => d == 0
  | d, c :: cs =>
    if c = '(' then parenDepthOk (d + 1) cs
    else if c = ')' then d != 0 && parenDepthOk (d - 1) cs
    else parenDepthOk d cs

/-- The parentheses of `s` are balanced. -/
def parenBalanced (s : List Char) : Bool := parenDepthOk 0 s

/-- `s` holds no parenthesis. -/
def parenFree (s : List Char) : Bool := s.all fun c => c != '(' && c != ')'

theorem scan_append (sig : List Char) (idx : Nat) (xs ys : List Char) (st : SplitState) :
    scan sig idx (xs ++ ys) st = scan sig (idx + xs.length) ys (scan sig idx xs st) := by
  induction xs generalizing idx st with
  | nil => rfl
  | cons x xs ih =>
    rw [List.cons_append, scan, ih, scan, List.length_cons, Nat.add_assoc, Nat.add_comm 1]

theorem scanStep_other {sig : List Char} {st : SplitState} {idx : Nat} {c : Char}
    (h1 : c ≠ '(') (h2 : c ≠ ')') : scanStep sig st idx c = st := by
  simp [scanStep, h1, h2]

/-- Text without parentheses leaves the scan's state as it is. -/
theorem scan_parenFree (sig : List Char) (idx : Nat) (xs : List Char) (st : SplitState)
    (h : parenFree xs = true) : scan sig idx xs st = st := by
  induction xs generalizing idx with
  | nil => rfl
  | cons x xs ih =>
    simp only [parenFree, List.all_cons, Bool.and_eq_true, bne_iff_ne, ne_eq] at h
    rw [scan, scanStep_other h.1.1 h.1.2]
    exact ih _ h.2

/-- Inside a group opened at depth one, balanced text leaves the state as it
    is, back at depth one. -/
theorem scan_balanced (sig : List Char) (idx : Nat) (b : List Char) (d : Nat) (st : SplitState)
    (hb : parenDepthOk d b = true) (hl : st.level = 1 + d) :
    scan sig idx b st = { st with level := 1 } := by
  induction b generalizing idx d st with
  | nil =>
    simp only [parenDepthOk, beq_iff_eq] at hb
    subst hb
    cases st; simp_all [scan]
  | cons c cs ih =>
    rw [scan]
    by_cases ho : c = '('
    · subst ho
      have hb : parenDepthOk (d + 1) cs = true := by simpa [parenDepthOk] using hb
      have hstep : scanStep sig st idx '(' = { st with level := st.level + 1 } := by
        rw [scanStep, if_pos rfl, if_neg (by omega)]
      rw [hstep]
      exact ih _ (d + 1) _ hb (by simp; omega)
    by_cases hc : c = ')'
    · subst hc
      have hb : d ≠ 0 ∧ parenDepthOk (d - 1) cs = true := by simpa [parenDepthOk] using hb
      have hstep : scanStep sig st idx ')' = { st with level := st.level - 1 } := by
        rw [scanStep, if_neg (by decide), if_pos rfl, if_neg (by omega)]
      rw [hstep]
      exact ih _ (d - 1) _ hb.2 (by simp; omega)
    · have hb : parenDepthOk d cs = true := by simpa [parenDepthOk, ho, hc] using hb
      rw [scanStep_other ho hc]
      exact ih _ d _ hb hl

theorem isNameChar_ne_paren {c : Char} (h : isNameChar c = true) : c ≠ '(' ∧ c ≠ ')' := by
  constructor <;> rintro rfl <;> exact absurd h (by decide)

/-- A name the pattern accepts is not empty and holds no parenthesis. -/
theorem validNamePattern_parenFree {n : List Char} (h : validNamePattern n = true) :
    n ≠ [] ∧ parenFree n = true := by
  cases n with
  | nil => cases h
  | cons c rest =>
    simp only [validNamePattern, Bool.and_eq_true, Bool.or_eq_true, List.all_eq_true] at h
    obtain ⟨hc, hrest | ⟨hlast, hinit⟩⟩ := h
    · simp only [parenFree, List.all_cons, List.all_eq_true, Bool.and_eq_true, bne_iff_ne]
      exact ⟨List.cons_ne_nil _ _, isNameChar_ne_paren (by simp [isNameChar, hc]),
        fun x hx => isNameChar_ne_paren (hrest x hx)⟩
    · have hsplit := @List.dropLast_append_getLast? _ rest '\n' (by simpa using hlast)
      rw [← hsplit]
      simp only [parenFree, List.all_cons, List.all_append, List.all_eq_true, Bool.and_eq_true,
        bne_iff_ne]
      exact ⟨List.cons_ne_nil _ _, isNameChar_ne_paren (by simp [isNameChar, hc]),
        fun x hx => isNameChar_ne_paren (hinit x hx), by simp⟩

theorem pySlice_zero {α : Type} (s : List α) (j : Nat) : pySlice s 0 j = s.take j := by
  simpa using pySlice_natCast s 0 j

/-- `(` at depth zero opens a group at depth one. -/
theorem scanStep_open (sig : List Char) (st : SplitState) (idx : Nat) (hl : st.level = 0) :
    scanStep sig st idx '(' =
      { st with
        level := 1
        name := if st.name.isEmpty then sig.take idx else st.name
        lastIdx := idx + 1 } := by
  simp [scanStep, hl, pySlice_zero]

/-- `)` at depth one closes a group: the first sets the argument text, the
    second the return text with its parentheses. -/
theorem scanStep_close (sig : List Char) (st : SplitState) (idx : Nat) (hl : st.level = 1)
    (hi : 1 ≤ st.lastIdx) :
    scanStep sig st idx ')' =
      { st with
        level := 0
        args := if st.args.isNone then some ((sig.drop st.lastIdx).take (idx - st.lastIdx))
          else st.args
        returns :=
          if st.args.isSome && st.returns.isNone then
            some ((sig.drop (st.lastIdx - 1)).take (idx + 1 - (st.lastIdx - 1)))
          else st.returns
        lastIdx := idx + 1 } := by
  have hret : (st.lastIdx : Int) - 1 = ((st.lastIdx - 1 : Nat) : Int) := by omega
  have hidx : (idx : Int) + 1 = ((idx + 1 : Nat) : Int) := by omega
  rw [scanStep, if_neg (by decide), if_pos rfl, if_pos (by omega), hret, hidx, pySlice_natCast,
    pySlice_natCast, hl]
  rfl

/-- A parenthesised group with balanced contents, read from depth zero: the
    opening parenthesis may set the name, the closing one sets the argument
    text or else the return text, and `last_idx` moves past the group. -/
theorem scan_group (sig : List Char) (idx : Nat) (b : List Char) (st : SplitState)
    (hb : parenBalanced b = true) (hl : st.level = 0) :
    scan sig idx ('(' :: b ++ [')']) st =
      { st with
        name := if st.name.isEmpty then sig.take idx else st.name
        args := if st.args.isNone then some ((sig.drop (idx + 1)).take b.length) else st.args
        returns :=
          if st.args.isSome && st.returns.isNone then some ((sig.drop idx).take (b.length + 2))
          else st.returns
        lastIdx := idx + 1 + b.length + 1 } := by
  rw [List.cons_append, scan, scanStep_open _ _ _ hl, scan_append,
    scan_balanced sig _ b 0 _ hb rfl, scan, scan, scanStep_close _ _ _ rfl (by simp)]
  dsimp only
  rw [Nat.add_sub_cancel_left, Nat.add_sub_cancel,
    show idx + 1 + b.length + 1 - idx = b.length + 2 by omega, hl]

/-- The prefix `name(args)` of a signature, with a name free of parentheses
    and balanced arguments: the scan reaches the rest with the name and the
    argument text set and `last_idx` just past the argument group. -/
theorem scan_nameArgs (n args r : List Char) (hn : parenFree n = true)
    (hargs : parenBalanced args = true) :
    scan (n ++ '(' :: args ++ ')' :: r) 0 (n ++ '(' :: args ++ ')' :: r) {} =
      scan (n ++ '(' :: args ++ ')' :: r) (n.length + args.length + 2) r
        { name := n, args := some args, lastIdx := n.length + args.length + 2 } := by
  set sig := n ++ '(' :: args ++ ')' :: r with hsig
  have hsplit : sig = n ++ ('(' :: args ++ [')']) ++ r := by simp [hsig]
  have htake : sig.take n.length = n := by
    rw [hsplit, List.append_assoc]; exact List.take_left' rfl
  have hargs' : (sig.drop (n.length + 1)).take args.length = args := by
    rw [hsig, List.append_assoc, List.drop_append]
    simp
  conv_lhs => arg 3; rw [hsplit]
  rw [scan_append, scan_append, scan_parenFree _ _ _ _ hn, scan_group _ _ _ _ hargs rfl,
    show 0 + (n ++ ('(' :: args ++ [')'])).length = n.length + args.length + 2 by simp; omega]
  simp [htake, hargs', show n.length + 1 + args.length + 1 = n.length + args.length + 2 by omega]

theorem drop_nameArgs (n args r : List Char) :
    (n ++ '(' :: args ++ ')' :: r).drop (n.length + args.length + 2) = r := by
  rw [show n ++ '(' :: args ++ ')' :: r = (n ++ '(' :: args ++ [')']) ++ r by simp]
  exact List.drop_left' (by simp; omega)

/-- A well-formed signature `name(args)returns` splits into its three parts,
    with no error raised or logged: the name is a valid name, the argument
    list is balanced, and the return text is free of parentheses or one
    balanced parenthesised group. -/
theorem splitSignature_wellFormed (n args r : List Char) (hn : validNamePattern n = true)
    (hargs : parenBalanced args = true)
    (hr : parenFree r = true ∨ ∃ b, parenBalanced b = true ∧ r = '(' :: b ++ [')']) :
    splitSignature (String.mk (n ++ '(' :: args ++ ')' :: r)) =
      .ok ((String.mk n, some (String.mk args), if r.isEmpty then none else some (String.mk r)),
        []) := by
  obtain ⟨hne, hnf⟩ := validNamePattern_parenFree hn
  have hscan := scan_nameArgs n args r hnf hargs
  set sig := n ++ '(' :: args ++ ')' :: r with hsig
  set L := n.length + args.length + 2 with hL
  have hdrop : sig.drop L = r := drop_nameArgs n args r
  have hlen : sig.length = L + r.length := by simp [hsig, hL]; omega
  rcases hr with hr | ⟨b, hb, rfl⟩
  · rw [scan_parenFree _ _ _ _ hr] at hscan
    by_cases hr0 : r = []
    · subst hr0
      simp [splitSignature, hscan, splitRemaining, hlen, hne, hn]
    · simp [splitSignature, hscan, splitRemaining, hlen, hdrop, hr0, hne, hn,
        List.length_pos.2 hr0, Functor.map, Except.map]
  · have hret : (sig.drop L).take (b.length + 2) = '(' :: b ++ [')'] := by
      rw [hdrop]; exact List.take_of_length_le (by simp)
    rw [scan_group _ _ _ _ hb rfl] at hscan
    dsimp only at hscan
    have hend : ¬ L + 1 + b.length + 1 < sig.length := by rw [hlen]; simp; omega
    simp [splitSignature, hscan, splitRemaining, hend, hret, hne, hn, Functor.map, Except.map]

example :
    splitSignature "hello(uint64,string)(uint64,bool)" =
      .ok (("hello", some "uint64,string", some "(uint64,bool)"), []) :=
  splitSignature_wellFormed "hello".data "uint64,string".data "(uint64,bool)".data (by decide)
    (by decide) (.inr ⟨"uint64,bool".data, by decide, rfl⟩)

example : splitSignature "hello(uint64,string)uint64" =
    .ok (("hello", some "uint64,string", some "uint64"), []) := rfl

/-- After a parenthesised return group, text free of parentheses is raised
    as text after the returns. -/
theorem splitSignature_textAfterReturns (n args b rest : List Char)
    (hn : validNamePattern n = true) (hargs : parenBalanced args = true)
    (hb : parenBalanced b = true) (hrest : parenFree rest = true) (hne : rest ≠ []) :
    splitSignature (String.mk (n ++ '(' :: args ++ ')' :: ('(' :: b ++ ')' :: rest))) =
      .error (codeError ("invalid signature, text after returns: name=" ++ pyRepr n ++
        ", args=" ++ pyReprOpt (some args) ++ ", returns=" ++
        pyReprOpt (some ('(' :: b ++ [')'])) ++ ", remaining=" ++ pyRepr rest)) := by
  obtain ⟨hn0, hnf⟩ := validNamePattern_parenFree hn
  have hscan := scan_nameArgs n args ('(' :: b ++ ')' :: rest) hnf hargs
  set sig := n ++ '(' :: args ++ ')' :: ('(' :: b ++ ')' :: rest) with hsig
  set L := n.length + args.length + 2 with hL
  have hdrop : sig.drop L = '(' :: b ++ [')'] ++ rest := by
    rw [drop_nameArgs]; simp
  have hret : (sig.drop L).take (b.length + 2) = '(' :: b ++ [')'] := by
    rw [hdrop, List.take_left' (by simp)]
  have hrem : sig.drop (L + 1 + b.length + 1) = rest := by
    rw [show L + 1 + b.length + 1 = L + ('(' :: b ++ [')']).length by simp; omega,
      ← List.drop_drop, hdrop, List.drop_left]
  have hlt : L + 1 + b.length + 1 < sig.length := by
    have := List.length_pos.2 hne
    rw [hsig, hL]; simp only [List.length_append, List.length_cons]; omega
  have hafter : scan sig L ('(' :: b ++ ')' :: rest) { name := n, args := some args, lastIdx := L } =
      { name := n, args := some args, returns := some ('(' :: b ++ [')']),
        lastIdx := L + 1 + b.length + 1 } := by
    rw [show '(' :: b ++ ')' :: rest = ('(' :: b ++ [')']) ++ rest by simp, scan_append,
      scan_group _ _ _ _ hb rfl, scan_parenFree _ _ _ _ hrest]
    simp [hn0, hret]
  rw [hafter] at hscan
  simp [splitSignature, hscan, splitRemaining, hlt, hrem, hne, hn0]

example :
    splitSignature "f()(a)b" = .error (codeError
      "invalid signature, text after returns: name='f', args='', returns='(a)', remaining='b'") :=
  splitSignature_textAfterReturns "f".data [] "a".data "b".data (by decide) rfl rfl rfl (by decide)

/-- Text free of parentheses between the argument list and a parenthesised
    return group is in none of the three parts, and nothing is raised or
    logged: the split is the one of the signature without it. -/
theorem splitSignature_skips_parenFree_text (n args x b : List Char)
    (hn : validNamePattern n = true) (hargs : parenBalanced args = true)
    (hx : parenFree x = true) (hb : parenBalanced b = true) :
    splitSignature (String.mk (n ++ '(' :: args ++ ')' :: (x ++ '(' :: b ++ [')']))) =
      .ok ((String.mk n, some (String.mk args), some (String.mk ('(' :: b ++ [')']))), []) := by
  obtain ⟨hn0, hnf⟩ := validNamePattern_parenFree hn
  have hscan := scan_nameArgs n args (x ++ '(' :: b ++ [')']) hnf hargs
  set sig := n ++ '(' :: args ++ ')' :: (x ++ '(' :: b ++ [')'])
  set L := n.length + args.length + 2
  have hdrop : sig.drop (L + x.length) = '(' :: b ++ [')'] := by
    rw [← List.drop_drop, drop_nameArgs]; simp
  have hret : (sig.drop (L + x.length)).take (b.length + 2) = '(' :: b ++ [')'] := by
    rw [hdrop]; exact List.take_of_length_le (by simp)
  have hend : ¬ L + x.length + 1 + b.length + 1 < sig.length := by
    simp only [sig, L, List.length_append, List.length_cons, List.length_nil]; omega
  conv at hscan =>
    rhs
    rw [show x ++ '(' :: b ++ [')'] = x ++ ('(' :: b ++ [')']) by simp, scan_append,
      scan_parenFree _ _ _ _ hx, scan_group _ _ _ _ hb rfl]
  dsimp only at hscan
  simp [splitSignature, hscan, splitRemaining, hend, hret, hn0, hn, Functor.map, Except.map]

theorem splitSignature_pay_note :
    splitSignature "pay(uint64)note(string)" = .ok (("pay", some "uint64", some "(string)"), []) :=
  splitSignature_skips_parenFree_text "pay".data "uint64".data "note".data "string".data
    (by decide) (by decide) (by decide) (by decide)

/-- In `f(a)x(b)` the `x` between the argument list and the parenthesised
    return type is in none of the three parts, and nothing is raised or
    logged. -/
theorem splitSignature_drops_text_between :
    splitSignature "f(a)x(b)" = .ok (("f", some "a", some "(b)"), []) ∧
      "f(a)x(b)" ≠ "f" ++ "(" ++ "a" ++ ")" ++ "(b)" :=
  ⟨rfl, by decide⟩

end Puya.Arc4
