import Puya.Wtypes.Constructors

/-! # Base32

    CPython's `base64.b32decode`, which `valid_base32` and `valid_address`
    (`puya/awst/wtypes.py`) call, as `_b32decode` computes it: the text is cut
    into quanta of eight characters, each quantum's digits are gathered into
    `acc` five bits at a time, `acc` is written out as five bytes, and the last
    quantum is repaired after the loop from the number of `=` that padded it.
    Beside it the encoder `base64.b32encode` (`_b32encode`), which says what a
    base32 text is.

    Both loops are read as one number: eight base-32 digits and five bytes
    spell the same forty bits (`decodeQuanta_digits`, `encodeQuanta_digits`).
    A padded text of `n` digits decodes to the bytes of its number without the
    `5 * n % 8` bits that fill no byte (`b32decode_digits`); the decoder
    accepts nothing else (`b32decode_eq_ok`); the encoder writes exactly such
    texts (`b32encode_eq`), so the decoder inverts it (`b32decode_b32encode`);
    and `int.to_bytes` never overflows inside it (`b32decode_error`).
-/

namespace Puya.Wtypes

/-! ## Section 1: Python's bytes, digits and exceptions -/

/-- The exceptions the validation code meets: `binascii.Error` and the
    `ValueError` of a text that is not ASCII are both `ValueError`s, which the
    validators catch; `int.to_bytes` raises `OverflowError`, which they do
    not. -/
inductive PyExc
  | valueError (msg : String)
  | overflowError (msg : String)
  deriving DecidableEq, Repr

/-- The `k` base-`b` digits of `n` below `b ^ k`, most significant first. -/
def digitsBE (b : Nat) : Nat → Nat → List Nat
  | 0, _ => []
  | k + 1, n => digitsBE b k (n / b) ++ [n % b]

/-- The number that the base-`b` digits `ds` stand for, most significant
    first. -/
def valueBE (b : Nat) (ds : List Nat) : Nat :=
  ds.foldl (fun acc d => acc * b + d) 0

/-- `n.to_bytes(k)`: the `k` big-endian bytes of `n`, or `OverflowError` when
    `n` needs more. -/
def toBytes (n k : Nat) : Except PyExc (List UInt8) :=
  if n < 256 ^ k then .ok ((digitsBE 256 k n).map UInt8.ofNat)
  else .error (.overflowError "int too big to convert")

/-- `int.from_bytes(g)`: the number the big-endian bytes `g` stand for. -/
def fromBytes (g : List UInt8) : Nat := valueBE 256 (g.map UInt8.toNat)

/-- `_bytes_from_decode_data(s)` for a `str`: its ASCII bytes, which stand
    here as the characters themselves. -/
def bytesFromDecodeData (s : List Char) : Except PyExc (List Char) :=
  if s.all (·.toNat < 128) then .ok s
  else .error (.valueError "string argument should contain only ASCII characters")

/-! ## Section 2: `base64.b32decode` -/

/-- `_b32alphabet`. -/
def b32alphabet : List Char := "ABCDEFGHIJKLMNOPQRSTUVWXYZ234567".data

/-- `_b32rev[_b32alphabet][c]`: the position of `c` in the alphabet, `none`
    for the `KeyError`. -/
def b32rev (c : Char) : Option Nat := b32alphabet.indexOf? c

/-- `for c in quanta: acc = (acc << 5) + b32rev[c]`, with the `KeyError`
    turned into `binascii.Error`. -/
def quantumAcc : Nat → List Char → Except PyExc Nat
  | acc, [] => .ok acc
  | acc, c :: cs =>
    match b32rev c with
    | some v => quantumAcc ((acc <<< 5) + v) cs
    | none => .error (.valueError "Non-base32 digit found")

/-- The loop over the quanta `s[i: i + 8]` for `i` in `range(0, len(s), 8)`,
    from the bytes decoded so far: the decoded bytes and the last `acc`. The
    `acc` passed in stands for the one before the first quantum, which Python
    does not have and never reads. `fuel` bounds the number of quanta. -/
def decodeQuanta : Nat → List Char → List UInt8 → Nat → Except PyExc (List UInt8 × Nat)
  | 0, _, decoded, acc => .ok (decoded, acc)
  | _ + 1, [], decoded, acc => .ok (decoded, acc)
  | fuel + 1, c :: cs, decoded, _ => do
    let acc ← quantumAcc 0 ((c :: cs).take 8)
    let bytes ← toBytes acc 5
    decodeQuanta fuel ((c :: cs).drop 8) (decoded ++ bytes) acc

/-- `base64.b32decode(s)`, with `casefold=False` and `map01=None`. -/
def b32decode (s : List Char) : Except PyExc (List UInt8) := do
  let s ← bytesFromDecodeData s
  if s.length % 8 ≠ 0 then throw (.valueError "Incorrect padding")
  let l := s.length
  let s := s.rdropWhile (· == '=')
  let padchars := l - s.length
  let (decoded, acc) ← decodeQuanta s.length s [] 0
  if l % 8 ≠ 0 ∨ padchars ∉ [0, 1, 3, 4, 6] then throw (.valueError "Incorrect padding")
  if padchars ≠ 0 ∧ decoded ≠ [] then
    let last ← toBytes (acc <<< (5 * padchars)) 5
    let leftover := (43 - 5 * padchars) / 8
    pure (decoded.take (decoded.length - 5) ++ last.take leftover)
  else pure decoded

/-! ## Section 3: `base64.b32encode`

    `_b32encode` is not called by the validators; it states what a base32
    text is, and the decoder is proved to invert it. -/

/-- `_b32alphabet[v]` for a digit `v < 32` (its first letter past them). -/
def b32digit (v : Nat) : Char := b32alphabet.getD v 'A'

/-- The eight characters `_b32encode` appends for the five bytes `g`:
    `b32tab2[c >> 30] + b32tab2[(c >> 20) & 0x3ff] + b32tab2[(c >> 10) & 0x3ff]
    + b32tab2[c & 0x3ff]` for `c = from_bytes(g)`, where an entry of `b32tab2`
    spells a ten-bit number as two base-32 digits. -/
def encodeQuantum (g : List UInt8) : List Char := (digitsBE 32 8 (fromBytes g)).map b32digit

/-- The loop `for i in range(0, len(s), 5)` of `_b32encode`; `fuel` bounds
    the number of quanta. -/
def encodeQuanta : Nat → List UInt8 → List Char
  | 0, _ => []
  | _ + 1, [] => []
  | fuel + 1, b :: bs => encodeQuantum ((b :: bs).take 5) ++ encodeQuanta fuel ((b :: bs).drop 5)

/-- How many of the last characters `_b32encode` overwrites with `=` when the
    last quantum holds `leftover` bytes. -/
def padCount : Nat → Nat
  | 1 => 6
  | 2 => 4
  | 3 => 3
  | 4 => 1
  | _ => 0

/-- `base64.b32encode(s)`. -/
def b32encode (s : List UInt8) : List Char :=
  let leftover := s.length % 5
  let s := if leftover ≠ 0 then s ++ List.replicate (5 - leftover) 0 else s
  let encoded := encodeQuanta s.length s
  encoded.take (encoded.length - padCount leftover) ++ List.replicate (padCount leftover) '='

/-! ## Section 4: Big-endian digits -/

section Digits

variable {b : Nat}

@[simp] theorem digitsBE_length (b k n : Nat) : (digitsBE b k n).length = k := by
  induction k generalizing n <;> simp [digitsBE, *]

theorem digitsBE_lt (hb : 0 < b) {k n d : Nat} (h : d ∈ digitsBE b k n) : d < b := by
  induction k generalizing n with
  | zero => simp [digitsBE] at h
  | succ k ih =>
    rcases List.mem_append.1 h with h | h
    · exact ih h
    · rw [List.mem_singleton.1 h]; exact Nat.mod_lt _ hb

/-- The digits of `n` in `k + j` places: those of `n / b ^ j` in `k` places,
    then those of `n` in `j`. -/
theorem digitsBE_add (k j n : Nat) :
    digitsBE b (k + j) n = digitsBE b k (n / b ^ j) ++ digitsBE b j n := by
  induction j generalizing n with
  | zero => simp [digitsBE]
  | succ j ih =>
    rw [← Nat.add_assoc, digitsBE, ih, digitsBE, List.append_assoc, Nat.div_div_eq_div_mul,
      pow_succ', Nat.mul_comm]

theorem foldl_valueBE (ds : List Nat) (acc : Nat) :
    ds.foldl (fun acc d => acc * b + d) acc = acc * b ^ ds.length + valueBE b ds := by
  induction ds generalizing acc with
  | nil => simp [valueBE]
  | cons d ds ih =>
    have h0 : valueBE b (d :: ds) = (0 * b + d) * b ^ ds.length + valueBE b ds := ih (0 * b + d)
    rw [List.foldl_cons, ih, h0, List.length_cons]
    ring

theorem valueBE_append (xs ys : List Nat) :
    valueBE b (xs ++ ys) = valueBE b xs * b ^ ys.length + valueBE b ys := by
  rw [valueBE, List.foldl_append, foldl_valueBE]; rfl

@[simp] theorem valueBE_singleton (d : Nat) : valueBE b [d] = d := by simp [valueBE]

/-- Reading the `k` digits of `n` gives `n` below `b ^ k`. -/
theorem valueBE_digitsBE (k n : Nat) : valueBE b (digitsBE b k n) = n % b ^ k := by
  induction k generalizing n with
  | zero => simp [digitsBE, valueBE, Nat.mod_one]
  | succ k ih =>
    rw [digitsBE, valueBE_append, ih, List.length_singleton, valueBE_singleton, pow_one,
      pow_succ', Nat.mod_mul]
    ring

/-- Digits below `b` are the digits of the number they stand for. -/
theorem digitsBE_valueBE {ds : List Nat} (h : ∀ d ∈ ds, d < b) :
    digitsBE b ds.length (valueBE b ds) = ds := by
  induction ds using List.reverseRecOn with
  | nil => rfl
  | append_singleton ds d ih =>
    have hd : d < b := h d (by simp)
    have hdiv : (valueBE b ds * b + d) / b = valueBE b ds := by
      rw [Nat.add_comm, Nat.add_mul_div_right _ _ (Nat.zero_lt_of_lt hd), Nat.div_eq_of_lt hd,
        Nat.zero_add]
    have hmod : (valueBE b ds * b + d) % b = d := by
      rw [Nat.add_comm, Nat.add_mul_mod_self_right, Nat.mod_eq_of_lt hd]
    rw [List.length_append, List.length_singleton, digitsBE, valueBE_append,
      List.length_singleton, pow_one, valueBE_singleton, hdiv, hmod,
      ih fun x hx => h x (by simp [hx])]

@[simp] theorem valueBE_cons (d : Nat) (ds : List Nat) :
    valueBE b (d :: ds) = d * b ^ ds.length + valueBE b ds := by
  simpa using valueBE_append (b := b) [d] ds

theorem valueBE_lt (hb : 0 < b) {ds : List Nat} (h : ∀ d ∈ ds, d < b) :
    valueBE b ds < b ^ ds.length := by
  rw [← digitsBE_valueBE h, valueBE_digitsBE, digitsBE_valueBE h]
  exact Nat.mod_lt _ (Nat.pos_pow_of_pos _ hb)

/-- The digits in `k` places see `n` only below `b ^ k`. -/
theorem digitsBE_mod (hb : 0 < b) (k n : Nat) : digitsBE b k (n % b ^ k) = digitsBE b k n := by
  have h := digitsBE_valueBE fun d (hd : d ∈ digitsBE b k n) => digitsBE_lt hb hd
  rwa [digitsBE_length, valueBE_digitsBE] at h

/-- Digits of a number made of a high part `m` and a low part `n < b ^ j`. -/
theorem digitsBE_mul_add (hb : 0 < b) (k j m : Nat) {n : Nat} (hn : n < b ^ j) :
    digitsBE b (k + j) (m * b ^ j + n) = digitsBE b k m ++ digitsBE b j n := by
  have hpos : 0 < b ^ j := Nat.pos_pow_of_pos _ hb
  have hdiv : (m * b ^ j + n) / b ^ j = m := by
    rw [Nat.add_comm, Nat.add_mul_div_right _ _ hpos, Nat.div_eq_of_lt hn, Nat.zero_add]
  have hmod : (m * b ^ j + n) % b ^ j = n := by
    rw [Nat.add_comm, Nat.add_mul_mod_self_right, Nat.mod_eq_of_lt hn]
  rw [digitsBE_add, hdiv, ← digitsBE_mod hb j, hmod]

end Digits

/-! ## Section 5: Bytes as numbers -/

@[simp] theorem uint8_ofNat_toNat (x : UInt8) : UInt8.ofNat x.toNat = x :=
  UInt8.toNat.inj (UInt8.toNat_ofNat_of_lt x.toNat_lt)

theorem toNat_mem_lt (g : List UInt8) : ∀ d ∈ g.map UInt8.toNat, d < 256 := by
  simp only [List.mem_map]
  rintro _ ⟨x, -, rfl⟩
  exact x.toNat_lt

theorem fromBytes_append (xs ys : List UInt8) :
    fromBytes (xs ++ ys) = fromBytes xs * 256 ^ ys.length + fromBytes ys := by
  simp only [fromBytes, List.map_append, valueBE_append, List.length_map]

theorem fromBytes_lt (g : List UInt8) : fromBytes g < 256 ^ g.length := by
  simpa using valueBE_lt (by norm_num) (toNat_mem_lt g)

/-- The bytes are the base-256 digits of their number. -/
theorem digitsBE_fromBytes (g : List UInt8) :
    (digitsBE 256 g.length (fromBytes g)).map UInt8.ofNat = g := by
  have h := digitsBE_valueBE (toNat_mem_lt g)
  rw [List.length_map] at h
  rw [fromBytes, h, List.map_map]
  simp [Function.comp_def]

/-- A number below `256 ^ k` is the number of its `k` bytes. -/
theorem fromBytes_digitsBE {k n : Nat} (hn : n < 256 ^ k) :
    fromBytes ((digitsBE 256 k n).map UInt8.ofNat) = n := by
  have hmap : ((digitsBE 256 k n).map UInt8.ofNat).map UInt8.toNat = digitsBE 256 k n := by
    rw [List.map_map]
    refine (List.map_congr_left fun d hd => ?_).trans (List.map_id _)
    exact UInt8.toNat_ofNat_of_lt (digitsBE_lt (by norm_num) hd)
  rw [fromBytes, hmap, valueBE_digitsBE, Nat.mod_eq_of_lt hn]

theorem toBytes_of_lt {n k : Nat} (h : n < 256 ^ k) :
    toBytes n k = .ok ((digitsBE 256 k n).map UInt8.ofNat) := if_pos h

/-- Eight base-32 digits hold what five bytes hold. -/
theorem pow_quanta (k : Nat) : (32 : Nat) ^ (8 * k) = 256 ^ (5 * k) := by
  rw [pow_mul, pow_mul]; norm_num

/-! ## Section 6: The alphabet -/

theorem b32alphabet_length : b32alphabet.length = 32 := rfl

theorem b32rev_b32digit {v : Nat} (hv : v < 32) : b32rev (b32digit v) = some v := by
  revert v; decide

/-- `_b32rev` and `_b32alphabet` are inverse on the 32 digits. -/
theorem b32rev_eq_some {c : Char} {v : Nat} : b32rev c = some v ↔ v < 32 ∧ b32digit v = c := by
  refine ⟨fun h => ?_, fun ⟨hv, hc⟩ => hc ▸ b32rev_b32digit hv⟩
  obtain ⟨hv, hc, -⟩ := List.findIdx?_eq_some_iff_getElem.1 h
  exact ⟨b32alphabet_length ▸ hv,
    by rw [b32digit, List.getD_eq_getElem _ _ hv]; exact beq_iff_eq.1 hc⟩

theorem b32digit_mem (v : Nat) : b32digit v ∈ b32alphabet := by
  rcases Nat.lt_or_ge v b32alphabet.length with hv | hv
  · rw [b32digit, List.getD_eq_getElem _ _ hv]; exact List.getElem_mem hv
  · rw [b32digit, List.getD_eq_default _ _ hv]; decide

/-- The alphabet is ASCII and holds no pad character. -/
theorem b32alphabet_ascii : ∀ c ∈ b32alphabet, c.toNat < 128 ∧ c ≠ '=' := by decide

theorem b32digit_ne_pad (v : Nat) : b32digit v ≠ '=' := (b32alphabet_ascii _ (b32digit_mem v)).2

/-! ## Section 7: The decoder's loop -/

@[simp] theorem except_pure {ε α : Type} (a : α) : (pure a : Except ε α) = .ok a := rfl

@[simp] theorem except_ok_bind {ε α β : Type} (a : α) (f : α → Except ε β) :
    (Except.ok a >>= f) = f a := rfl

/-- A quantum of digits is read as their number. -/
theorem quantumAcc_map_b32digit {ds : List Nat} (h : ∀ d ∈ ds, d < 32) (acc : Nat) :
    quantumAcc acc (ds.map b32digit) = .ok (acc * 32 ^ ds.length + valueBE 32 ds) := by
  rw [← foldl_valueBE]
  induction ds generalizing acc with
  | nil => rfl
  | cons d ds ih =>
    simp only [List.map_cons, quantumAcc, b32rev_b32digit (h d (List.mem_cons_self _ _)),
      Nat.shiftLeft_eq]
    exact ih (fun x hx => h x (List.mem_cons_of_mem _ hx)) _

/-- The quantum loop succeeds only on texts of digits. -/
theorem quantumAcc_ok_digits {acc r : Nat} {cs : List Char} (h : quantumAcc acc cs = .ok r) :
    ∃ ds : List Nat, (∀ d ∈ ds, d < 32) ∧ cs = ds.map b32digit := by
  induction cs generalizing acc with
  | nil => exact ⟨[], by simp, rfl⟩
  | cons c cs ih =>
    rw [quantumAcc] at h
    split at h
    · rename_i v hv
      obtain ⟨ds, hds, rfl⟩ := ih h
      obtain ⟨hv32, rfl⟩ := b32rev_eq_some.1 hv
      exact ⟨v :: ds, List.forall_mem_cons.2 ⟨hv32, hds⟩, rfl⟩
    · cases h

theorem quantumAcc_error {acc : Nat} {cs : List Char} {e : PyExc}
    (h : quantumAcc acc cs = .error e) : e = .valueError "Non-base32 digit found" := by
  induction cs generalizing acc with
  | nil => cases h
  | cons c cs ih =>
    rw [quantumAcc] at h
    split at h
    · exact ih h
    · cases h; rfl

@[simp] theorem decodeQuanta_nil (fuel : Nat) (decoded : List UInt8) (acc : Nat) :
    decodeQuanta fuel [] decoded acc = .ok (decoded, acc) := by
  cases fuel <;> rfl

/-- One turn of the loop on a text that is not yet used up. -/
theorem decodeQuanta_cons {s : List Char} (hs : s ≠ []) (fuel : Nat) (decoded : List UInt8)
    (acc : Nat) :
    decodeQuanta (fuel + 1) s decoded acc = (do
      let acc ← quantumAcc 0 (s.take 8)
      let bytes ← toBytes acc 5
      decodeQuanta fuel (s.drop 8) (decoded ++ bytes) acc) := by
  obtain ⟨c, cs, rfl⟩ := List.exists_cons_of_ne_nil hs
  rfl

/-- The loop over `k` whole quanta of digits appends the bytes of the number
    they spell. -/
theorem decodeQuanta_digits {k : Nat} {ds : List Nat} (hlen : ds.length = 8 * k)
    (hds : ∀ d ∈ ds, d < 32) (ys : List Char) (fuel : Nat) (decoded : List UInt8) (acc : Nat) :
    ∃ acc', decodeQuanta (k + fuel) (ds.map b32digit ++ ys) decoded acc =
      decodeQuanta fuel ys (decoded ++ (digitsBE 256 (5 * k) (valueBE 32 ds)).map UInt8.ofNat)
        acc' := by
  induction k generalizing ds decoded acc with
  | zero => exact ⟨acc, by simp [List.length_eq_zero.1 hlen, digitsBE]⟩
  | succ k ih =>
    have hq : (ds.take 8).length = 8 := by simp [hlen]
    have hrest : (ds.drop 8).length = 8 * k := by simp [hlen]; omega
    have hq32 : valueBE 32 (ds.take 8) < 256 ^ 5 := by
      have h := valueBE_lt (by norm_num) fun d (hd : d ∈ ds.take 8) =>
        hds d (List.mem_of_mem_take hd)
      rw [hq] at h
      exact h.trans_eq (by norm_num)
    have hr32 : valueBE 32 (ds.drop 8) < 256 ^ (5 * k) := by
      have h := valueBE_lt (by norm_num) fun d (hd : d ∈ ds.drop 8) =>
        hds d (List.mem_of_mem_drop hd)
      rwa [hrest, pow_quanta] at h
    obtain ⟨acc', h⟩ := ih hrest (fun d hd => hds d (List.mem_of_mem_drop hd))
      (decoded ++ (digitsBE 256 5 (valueBE 32 (ds.take 8))).map UInt8.ofNat)
      (valueBE 32 (ds.take 8))
    refine ⟨acc', ?_⟩
    have hne : ds.map b32digit ++ ys ≠ [] := by simp [← List.length_pos, hlen]
    rw [Nat.add_right_comm, decodeQuanta_cons hne, List.take_append_of_le_length (by simp [hlen]),
      List.drop_append_of_le_length (by simp [hlen]), ← List.map_take, ← List.map_drop,
      quantumAcc_map_b32digit fun d hd => hds d (List.mem_of_mem_take hd), Nat.zero_mul,
      Nat.zero_add, except_ok_bind, toBytes_of_lt hq32, except_ok_bind, h, List.append_assoc,
      ← List.map_append, Nat.mul_succ, Nat.add_comm (5 * k),
      ← digitsBE_mul_add (by norm_num) _ _ _ hr32,
      ← pow_quanta, ← hrest, ← valueBE_append, List.take_append_drop]

/-- The last, partial quantum of `m ≤ 8` digits: five bytes, and the number
    of the digits left in `acc`. -/
theorem decodeQuanta_last {m : Nat} (hm0 : 0 < m) (hm : m ≤ 8) (x fuel : Nat)
    (decoded : List UInt8) (acc : Nat) :
    decodeQuanta (fuel + 1) ((digitsBE 32 m x).map b32digit) decoded acc =
      .ok (decoded ++ (digitsBE 256 5 (x % 32 ^ m)).map UInt8.ofNat, x % 32 ^ m) := by
  have hlen : ((digitsBE 32 m x).map b32digit).length = m := by simp
  have hlt : x % 32 ^ m < 256 ^ 5 :=
    (Nat.mod_lt _ (by positivity)).trans_le
      ((Nat.pow_le_pow_right (by norm_num) hm).trans_eq (by norm_num))
  rw [decodeQuanta_cons (by simp [← List.length_pos, hlen, hm0]),
    List.take_of_length_le (by omega), List.drop_of_length_le (by omega),
    quantumAcc_map_b32digit fun _ => digitsBE_lt (by norm_num), valueBE_digitsBE]
  simp [toBytes_of_lt hlt]

/-! ## Section 8: The decoder on a padded text -/

/-- The pad characters that `_b32decode` strips from the right. -/
theorem rdropWhile_pad {s : List Char} (hs : ∀ h : s ≠ [], s.getLast h ≠ '=') (p : Nat) :
    (s ++ List.replicate p '=').rdropWhile (· == '=') = s := by
  induction p with
  | zero => simpa [List.rdropWhile_eq_self_iff] using hs
  | succ p ih =>
    rw [List.replicate_succ', ← List.append_assoc, List.rdropWhile_concat_pos _ _ _ (by simp), ih]

/-- `b32decode` on digits followed by pad characters: the checks before the
    loop pass, the pad characters are counted, and what is left is the loop
    and the repair of the last quantum. -/
theorem b32decode_pad {s : List Char} (hs : ∀ c ∈ s, c ∈ b32alphabet) {p : Nat}
    (hlen : (s.length + p) % 8 = 0) (hp : p ∈ [0, 1, 3, 4, 6]) :
    b32decode (s ++ List.replicate p '=') = (do
      let (decoded, acc) ← decodeQuanta s.length s [] 0
      if p ≠ 0 ∧ decoded ≠ [] then
        let last ← toBytes (acc <<< (5 * p)) 5
        pure (decoded.take (decoded.length - 5) ++ last.take ((43 - 5 * p) / 8))
      else pure decoded) := by
  have hascii : bytesFromDecodeData (s ++ List.replicate p '=') =
      .ok (s ++ List.replicate p '=') := by
    refine if_pos (List.all_eq_true.2 fun c hc => decide_eq_true ?_)
    rcases List.mem_append.1 hc with hc | hc
    · exact (b32alphabet_ascii c (hs c hc)).1
    · rw [List.eq_of_mem_replicate hc]; decide
  have hstrip : (s ++ List.replicate p '=').rdropWhile (· == '=') = s :=
    rdropWhile_pad (fun h => (b32alphabet_ascii _ (hs _ (List.getLast_mem h))).2) p
  simp only [b32decode, hascii, except_ok_bind, hstrip, List.length_append, List.length_replicate,
    Nat.add_sub_cancel_left, hp, not_true_eq_false, or_false]
  simp [hlen]

/-- The repair after the loop, for `p` pad characters: the `acc` of the last
    `8 - p` digits, shifted back into place and cut to `leftover` bytes, is
    that number without its last `(40 - 5 * p) % 8` bits. -/
theorem lastBytes {p x : Nat} (hp : p = 1 ∨ p = 3 ∨ p = 4 ∨ p = 6) (hx : x < 32 ^ (8 - p)) :
    ∃ last, toBytes (x <<< (5 * p)) 5 = .ok last ∧
      last.take ((43 - 5 * p) / 8) =
        (digitsBE 256 ((43 - 5 * p) / 8) (x / 2 ^ ((40 - 5 * p) % 8))).map UInt8.ofNat := by
  have hL : (43 - 5 * p) / 8 + (5 - (43 - 5 * p) / 8) = 5 := by omega
  have h256 : ∀ j, (256 : Nat) ^ j = 2 ^ (8 * j) := fun j => by
    rw [show (256 : Nat) = 2 ^ 8 from rfl, ← pow_mul]
  have hlt : x <<< (5 * p) < 256 ^ 5 := by
    rw [Nat.shiftLeft_eq, h256, show 8 * 5 = 5 * (8 - p) + 5 * p by omega, pow_add,
      pow_mul 2 5 (8 - p)]
    exact Nat.mul_lt_mul_of_pos_right hx (by positivity)
  have hdiv : x <<< (5 * p) / 256 ^ (5 - (43 - 5 * p) / 8) = x / 2 ^ ((40 - 5 * p) % 8) := by
    rw [Nat.shiftLeft_eq, h256, show 8 * (5 - (43 - 5 * p) / 8) = (40 - 5 * p) % 8 + 5 * p by omega,
      pow_add, Nat.mul_div_mul_right _ _ (by positivity)]
  have hsplit := digitsBE_add (b := 256) ((43 - 5 * p) / 8) (5 - (43 - 5 * p) / 8) (x <<< (5 * p))
  rw [hL] at hsplit
  refine ⟨_, toBytes_of_lt hlt, ?_⟩
  rw [hsplit, List.map_append, List.take_left' (by simp), hdiv]

/-- Dropping the last `r` bits of a number whose last `m` base-32 digits make
    `q` bytes and `r` bits: the digits above those `m` move up by `q` bytes. -/
theorem div_two_pow_split {m q r : Nat} (h : 5 * m = 8 * q + r) (N : Nat) :
    N / 2 ^ r = N / 32 ^ m * 256 ^ q + N % 32 ^ m / 2 ^ r ∧ N % 32 ^ m / 2 ^ r < 256 ^ q := by
  have h32 : (32 : Nat) ^ m = 2 ^ r * 256 ^ q := by
    rw [show (32 : Nat) = 2 ^ 5 from rfl, show (256 : Nat) = 2 ^ 8 from rfl, ← pow_mul,
      ← pow_mul, ← pow_add, h, Nat.add_comm]
  have hr : 0 < 2 ^ r := by positivity
  have hN := Nat.div_add_mod N (32 ^ m)
  nth_rewrite 1 [h32, Nat.mul_assoc, Nat.mul_comm (256 ^ q)] at hN
  constructor
  · conv_lhs => rw [← hN, Nat.mul_add_div hr]
  · rw [Nat.div_lt_iff_lt_mul hr, Nat.mul_comm, ← h32]
    exact Nat.mod_lt _ (by positivity)

/-- A last group of `0 < r < 5` bytes: its `8 * r` bits take `8 - padCount r`
    digits, which leave `2 * r % 5` bits over. -/
theorem padCount_digits {r : Nat} (h0 : 0 < r) (h5 : r < 5) :
    (8 * r + 4) / 5 + padCount r = 8 ∧ 8 * (5 - r) = 2 * r % 5 + 5 * padCount r := by
  rcases (by omega : r = 1 ∨ r = 2 ∨ r = 3 ∨ r = 4) with rfl | rfl | rfl | rfl <;> decide

theorem padCount_mem (r : Nat) : padCount r ∈ [0, 1, 3, 4, 6] := by
  unfold padCount; split <;> decide

/-- A text of `n` digits padded to whole quanta decodes to the bytes of its
    number, without the `5 * n % 8` bits that fill no byte. -/
theorem b32decode_digits {n p N : Nat} (hlen : (n + p) % 8 = 0) (hp : p ∈ [0, 1, 3, 4, 6])
    (hN : N < 32 ^ n) :
    b32decode ((digitsBE 32 n N).map b32digit ++ List.replicate p '=') =
      .ok ((digitsBE 256 (5 * n / 8) (N / 2 ^ (5 * n % 8))).map UInt8.ofNat) := by
  rw [b32decode_pad (by simp [b32digit_mem]) (by simpa using hlen) hp, List.length_map,
    digitsBE_length]
  rcases List.mem_cons.1 hp with rfl | hp'
  · -- whole quanta only
    obtain ⟨k, rfl⟩ : ∃ k, n = 8 * k := ⟨n / 8, by omega⟩
    obtain ⟨acc, h⟩ := decodeQuanta_digits (by simp : (digitsBE 32 (8 * k) N).length = 8 * k)
      (fun _ => digitsBE_lt (by norm_num)) [] (7 * k) [] 0
    rw [List.append_nil, show k + 7 * k = 8 * k by omega] at h
    rw [h, decodeQuanta_nil, except_ok_bind, valueBE_digitsBE, Nat.mod_eq_of_lt hN,
      show 5 * (8 * k) / 8 = 5 * k by omega, show 5 * (8 * k) % 8 = 0 by omega]
    simp
  · -- a last quantum of `8 - p` digits
    have hp1 : p = 1 ∨ p = 3 ∨ p = 4 ∨ p = 6 := by simpa using hp'
    obtain ⟨k, rfl⟩ : ∃ k, n = 8 * k + (8 - p) := ⟨n / 8, by omega⟩
    have hhigh : N / 32 ^ (8 - p) < 32 ^ (8 * k) :=
      Nat.div_lt_of_lt_mul (by rwa [← pow_add, Nat.add_comm])
    obtain ⟨acc, h⟩ := decodeQuanta_digits
      (by simp : (digitsBE 32 (8 * k) (N / 32 ^ (8 - p))).length = 8 * k)
      (fun _ => digitsBE_lt (by norm_num)) ((digitsBE 32 (8 - p) N).map b32digit)
      (7 * k + (7 - p) + 1) [] 0
    obtain ⟨last, hlast, htake⟩ :=
      lastBytes hp1 (Nat.mod_lt N (by positivity : 0 < 32 ^ (8 - p)))
    obtain ⟨hsplit, hlow⟩ := div_two_pow_split
      (show 5 * (8 - p) = 8 * ((43 - 5 * p) / 8) + (40 - 5 * p) % 8 by omega) N
    rw [show 5 * (8 * k + (8 - p)) / 8 = 5 * k + (43 - 5 * p) / 8 by omega,
      show 5 * (8 * k + (8 - p)) % 8 = (40 - 5 * p) % 8 by omega, hsplit,
      digitsBE_add (b := 32) (8 * k) (8 - p) N, List.map_append,
      show 8 * k + (8 - p) = k + (7 * k + (7 - p) + 1) by omega, h,
      decodeQuanta_last (by omega) (by omega)]
    simp only [except_ok_bind]
    rw [if_pos ⟨by omega, fun h => by simpa using congrArg List.length h⟩, hlast,
      except_ok_bind,
      valueBE_digitsBE, Nat.mod_eq_of_lt hhigh,
      digitsBE_mul_add (by norm_num) _ _ _ hlow, List.map_append, htake, List.nil_append,
      List.take_append_of_le_length (by simp), List.take_of_length_le (by simp)]
    rfl

/-! ## Section 9: The encoder -/

@[simp] theorem encodeQuanta_nil (fuel : Nat) : encodeQuanta fuel [] = [] := by
  cases fuel <;> rfl

theorem fromBytes_zeros (n : Nat) : fromBytes (List.replicate n 0) = 0 := by
  induction n with
  | zero => rfl
  | succ n ih => simpa [fromBytes, List.replicate_succ] using ih

/-- The encoder's loop over `k` quanta of five bytes writes the digits of the
    bytes' number. -/
theorem encodeQuanta_digits {k : Nat} {s : List UInt8} (hs : s.length = 5 * k) (fuel : Nat) :
    encodeQuanta (k + fuel) s = (digitsBE 32 (8 * k) (fromBytes s)).map b32digit := by
  induction k generalizing s with
  | zero => simp [List.length_eq_zero.1 hs, digitsBE]
  | succ k ih =>
    cases s with
    | nil => simp at hs
    | cons b bs =>
      have hrest : ((b :: bs).drop 5).length = 5 * k := by
        simp only [List.length_drop] at hs ⊢; omega
      have hlt : fromBytes ((b :: bs).drop 5) < 32 ^ (8 * k) := by
        rw [pow_quanta, ← hrest]; exact fromBytes_lt _
      have hval : fromBytes (b :: bs) =
          fromBytes ((b :: bs).take 5) * 32 ^ (8 * k) + fromBytes ((b :: bs).drop 5) := by
        conv_lhs => rw [← List.take_append_drop 5 (b :: bs)]
        rw [fromBytes_append, hrest, pow_quanta]
      rw [Nat.add_right_comm, encodeQuanta, ih hrest, encodeQuantum, ← List.map_append, hval,
        Nat.mul_succ, Nat.add_comm (8 * k), digitsBE_mul_add (by norm_num) _ _ _ hlt]

/-- `b32encode` writes the digits of the bytes' number, shifted left to fill
    whole digits, and then `padCount` pad characters. -/
theorem b32encode_eq (bs : List UInt8) :
    b32encode bs = (digitsBE 32 ((8 * bs.length + 4) / 5)
        (fromBytes bs * 2 ^ (5 * ((8 * bs.length + 4) / 5) - 8 * bs.length))).map b32digit ++
      List.replicate (padCount (bs.length % 5)) '=' := by
  by_cases hr : bs.length % 5 = 0
  · obtain ⟨q, hq⟩ : ∃ q, bs.length = 5 * q := ⟨bs.length / 5, by omega⟩
    have henc : encodeQuanta bs.length bs = (digitsBE 32 (8 * q) (fromBytes bs)).map b32digit := by
      rw [hq, show 5 * q = q + 4 * q by omega]; exact encodeQuanta_digits (by omega) _
    have hn : (8 * bs.length + 4) / 5 = 8 * q := by omega
    simp [b32encode, hr, henc, hn, padCount, show 5 * (8 * q) - 8 * bs.length = 0 by omega]
  · obtain ⟨q, hq⟩ : ∃ q, bs.length = 5 * q + bs.length % 5 := ⟨bs.length / 5, by omega⟩
    obtain ⟨hd, hb⟩ :=
      padCount_digits (Nat.pos_of_ne_zero hr) (Nat.mod_lt bs.length (by norm_num))
    have hdiv : fromBytes bs * 256 ^ (5 - bs.length % 5) / 32 ^ padCount (bs.length % 5) =
        fromBytes bs * 2 ^ (2 * (bs.length % 5) % 5) := by
      rw [show (256 : Nat) = 2 ^ 8 from rfl, show (32 : Nat) = 2 ^ 5 from rfl, ← pow_mul,
        ← pow_mul, hb, pow_add, ← Nat.mul_assoc, Nat.mul_div_cancel _ (by positivity)]
    have hlen : (bs ++ List.replicate (5 - bs.length % 5) 0).length = 5 * (q + 1) := by
      simp only [List.length_append, List.length_replicate]; omega
    have henc : encodeQuanta (bs ++ List.replicate (5 - bs.length % 5) 0).length
        (bs ++ List.replicate (5 - bs.length % 5) 0) =
          (digitsBE 32 (8 * (q + 1)) (fromBytes bs * 256 ^ (5 - bs.length % 5))).map b32digit := by
      rw [hlen, show 5 * (q + 1) = (q + 1) + 4 * (q + 1) by omega, encodeQuanta_digits hlen,
        fromBytes_append, fromBytes_zeros, List.length_replicate, add_zero]
    rw [← Nat.sub_add_cancel (by omega : padCount (bs.length % 5) ≤ 8 * (q + 1))] at henc
    rw [show 5 * ((8 * bs.length + 4) / 5) - 8 * bs.length = 2 * (bs.length % 5) % 5 by omega,
      show (8 * bs.length + 4) / 5 = 8 * (q + 1) - padCount (bs.length % 5) by omega]
    simp only [b32encode, if_pos hr, henc, digitsBE_add, hdiv, List.map_append]
    rw [List.take_left' (by simp)]

/-- The encoder writes whole quanta: its digits and pad characters make a
    multiple of eight. -/
theorem digits_add_padCount (n : Nat) : ((8 * n + 4) / 5 + padCount (n % 5)) % 8 = 0 := by
  rw [show (8 * n + 4) / 5 = 8 * (n / 5) + (8 * (n % 5) + 4) / 5 by omega]
  rcases Nat.eq_zero_or_pos (n % 5) with hr | hr
  · rw [hr, show padCount 0 = 0 from rfl]; omega
  · have := (padCount_digits hr (Nat.mod_lt n (by norm_num))).1
    omega

/-! ## Section 10: Round trip and inversion -/

/-- The decoder inverts the encoder: `b32decode(b32encode(s)) == s`. -/
theorem b32decode_b32encode (bs : List UInt8) : b32decode (b32encode bs) = .ok bs := by
  have hpow : 256 ^ bs.length * 2 ^ (5 * ((8 * bs.length + 4) / 5) - 8 * bs.length) =
      32 ^ ((8 * bs.length + 4) / 5) := by
    rw [show (256 : Nat) = 2 ^ 8 by rfl, show (32 : Nat) = 2 ^ 5 by rfl, ← pow_mul, ← pow_mul,
      ← pow_add]
    congr 1; omega
  rw [b32encode_eq, b32decode_digits (digits_add_padCount _) (padCount_mem _)
    (hpow ▸ Nat.mul_lt_mul_of_pos_right (fromBytes_lt bs) (by positivity)),
    show 5 * ((8 * bs.length + 4) / 5) / 8 = bs.length by omega,
    show 5 * ((8 * bs.length + 4) / 5) % 8 = 5 * ((8 * bs.length + 4) / 5) - 8 * bs.length by omega,
    Nat.mul_div_cancel _ (by positivity), digitsBE_fromBytes]

/-- The pad characters at the end of a text, as `rstrip` leaves them. -/
theorem rdropWhile_append_pad (t : List Char) :
    t = t.rdropWhile (· == '=') ++
      List.replicate (t.length - (t.rdropWhile (· == '=')).length) '=' := by
  induction t using List.reverseRecOn with
  | nil => rfl
  | append_singleton t c ih =>
    rw [List.rdropWhile_concat]
    split
    · rename_i hc
      have hle := (List.rdropWhile_prefix (p := (· == '=')) (l := t)).length_le
      rw [List.length_append, List.length_singleton, Nat.sub_add_comm hle, List.replicate_succ',
        ← List.append_assoc, ← ih, beq_iff_eq.1 hc]
    · simp

/-- The loop succeeds only on texts of digits (given the fuel to reach the end). -/
theorem decodeQuanta_ok_digits {fuel : Nat} {s : List Char} {decoded : List UInt8} {acc : Nat}
    {r : List UInt8 × Nat} (h : decodeQuanta fuel s decoded acc = .ok r)
    (hfuel : s.length ≤ 8 * fuel) :
    ∃ ds : List Nat, (∀ d ∈ ds, d < 32) ∧ s = ds.map b32digit := by
  induction fuel generalizing s decoded acc with
  | zero => exact ⟨[], by simp, List.length_eq_zero.1 (by omega)⟩
  | succ fuel ih =>
    by_cases hs : s = []
    · exact ⟨[], by simp, hs⟩
    rw [decodeQuanta_cons hs] at h
    obtain ⟨a, ha, h⟩ := bind_eq_ok.1 h
    obtain ⟨bytes, -, h⟩ := bind_eq_ok.1 h
    obtain ⟨ds, hds, hq⟩ := quantumAcc_ok_digits ha
    obtain ⟨ds', hds', hrest⟩ := ih h (by simp only [List.length_drop]; omega)
    refine ⟨ds ++ ds', fun d hd => (List.mem_append.1 hd).elim (hds d) (hds' d), ?_⟩
    rw [← List.take_append_drop 8 s, hq, hrest, List.map_append]

theorem b32decode_eq_ok {t : List Char} {bs : List UInt8} (h : b32decode t = .ok bs) :
    ∃ n p N, (n + p) % 8 = 0 ∧ p ∈ [0, 1, 3, 4, 6] ∧ N < 32 ^ n ∧
      t = (digitsBE 32 n N).map b32digit ++ List.replicate p '=' := by
  simp only [b32decode, bind_eq_ok] at h
  obtain ⟨a, ha, h⟩ := h
  obtain rfl : a = t := by
    unfold bytesFromDecodeData at ha; split at ha <;> cases ha; rfl
  split at h
  · cases h
  simp only [pure_bind, bind_eq_ok] at h
  obtain ⟨⟨decoded, acc⟩, hloop, h⟩ := h
  split at h
  · cases h
  rename_i hlen hpad
  have hle := (List.rdropWhile_prefix (p := (· == '=')) (l := a)).length_le
  obtain ⟨ds, hds, hs⟩ := decodeQuanta_ok_digits hloop (by omega)
  refine ⟨ds.length, _, valueBE 32 ds, ?_, not_not.1 (not_or.1 hpad).2,
    valueBE_lt (by norm_num) hds, ?_⟩
  · have := congrArg List.length hs
    simp only [List.length_map] at this
    omega
  · rw [digitsBE_valueBE hds, ← hs]; exact rdropWhile_append_pad a

/-! ## Section 11: What the decoder raises -/

theorem quantumAcc_lt {cs : List Char} {r : Nat} (h : quantumAcc 0 cs = .ok r) :
    r < 32 ^ cs.length := by
  obtain ⟨ds, hds, rfl⟩ := quantumAcc_ok_digits h
  rw [quantumAcc_map_b32digit hds, Except.ok.injEq] at h
  rw [← h, List.length_map, Nat.zero_mul, Nat.zero_add]
  exact valueBE_lt (by norm_num) hds

/-- A quantum of at most eight digits always fits in five bytes. -/
theorem toBytes_quantum {cs : List Char} {r : Nat} (h : quantumAcc 0 (cs.take 8) = .ok r) :
    toBytes r 5 = .ok ((digitsBE 256 5 r).map UInt8.ofNat) :=
  toBytes_of_lt <| (quantumAcc_lt h).trans_le <|
    (Nat.pow_le_pow_right (n := 32) (by norm_num) (by simp : (cs.take 8).length ≤ 8)).trans_eq
      (by norm_num)

/-- The loop raises only for a character outside the alphabet. -/
theorem decodeQuanta_error {fuel : Nat} {s : List Char} {decoded : List UInt8} {acc : Nat}
    {e : PyExc} (h : decodeQuanta fuel s decoded acc = .error e) :
    e = .valueError "Non-base32 digit found" := by
  induction fuel generalizing s decoded acc with
  | zero => cases h
  | succ fuel ih =>
    by_cases hs : s = []
    · subst hs; cases h
    rw [decodeQuanta_cons hs] at h
    rcases bind_eq_error.1 h with h | ⟨a, ha, h⟩
    · exact quantumAcc_error h
    · rw [toBytes_quantum ha, except_ok_bind] at h
      exact ih h

/-- The loop's last `acc` holds the digits of the last quantum: it is below
    `32 ^ ℓ` for the length `ℓ` of that quantum. -/
theorem decodeQuanta_acc_lt {fuel : Nat} {s : List Char} {decoded decoded' : List UInt8}
    {acc acc' : Nat} (h : decodeQuanta fuel s decoded acc = .ok (decoded', acc'))
    (hfuel : s.length ≤ 8 * fuel) (hs : s ≠ []) : acc' < 32 ^ ((s.length + 7) % 8 + 1) := by
  induction fuel generalizing s decoded acc with
  | zero => exact absurd (List.length_eq_zero.1 (by omega)) hs
  | succ fuel ih =>
    rw [decodeQuanta_cons hs] at h
    obtain ⟨a, ha, h⟩ := bind_eq_ok.1 h
    rw [toBytes_quantum ha, except_ok_bind] at h
    by_cases hd : s.drop 8 = []
    · rw [hd, decodeQuanta_nil, Except.ok.injEq, Prod.mk.injEq] at h
      have hlen : s.length ≤ 8 := by simpa using hd
      have hpos : 0 < s.length := List.length_pos.2 hs
      rw [← h.2, show (s.length + 7) % 8 + 1 = (s.take 8).length by simp; omega]
      exact quantumAcc_lt ha
    · have := ih h (by simp only [List.length_drop]; omega) hd
      have hlen : 8 < s.length := by
        by_contra hle; exact hd (List.drop_eq_nil_of_le (by omega))
      rwa [List.length_drop, show (s.length - 8 + 7) % 8 = (s.length + 7) % 8 by omega] at this

/-- `b32decode` raises only `ValueError`s (`binascii.Error` is one):
    `int.to_bytes` never overflows inside it. -/
theorem b32decode_error {s : List Char} {e : PyExc} (h : b32decode s = .error e) :
    ∃ m, e = .valueError m := by
  simp only [b32decode, bind_eq_error] at h
  rcases h with h | ⟨a, ha, h⟩
  · unfold bytesFromDecodeData at h; split at h <;> cases h; exact ⟨_, rfl⟩
  obtain rfl : s = a := by
    unfold bytesFromDecodeData at ha; split at ha <;> cases ha; rfl
  split at h
  · cases h; exact ⟨_, rfl⟩
  simp only [pure_bind, bind_eq_error] at h
  rcases h with h | ⟨⟨decoded, acc⟩, hloop, h⟩
  · exact ⟨_, decodeQuanta_error h⟩
  split at h
  · cases h; exact ⟨_, rfl⟩
  rename_i hlen hpad
  split at h
  · rename_i hrep
    have hp : s.length - (s.rdropWhile (· == '=')).length = 1 ∨
        s.length - (s.rdropWhile (· == '=')).length = 3 ∨
        s.length - (s.rdropWhile (· == '=')).length = 4 ∨
        s.length - (s.rdropWhile (· == '=')).length = 6 := by
      have := not_not.1 (not_or.1 hpad).2
      simp only [List.mem_cons, List.mem_singleton, List.not_mem_nil, or_false] at this
      omega
    have hne : s.rdropWhile (· == '=') ≠ [] := by
      intro h0; rw [h0, decodeQuanta_nil] at hloop; cases hloop; exact hrep.2 rfl
    have hle := (List.rdropWhile_prefix (p := (· == '=')) (l := s)).length_le
    have hacc := decodeQuanta_acc_lt hloop (by omega) hne
    rw [show ((s.rdropWhile (· == '=')).length + 7) % 8 + 1 =
      8 - (s.length - (s.rdropWhile (· == '=')).length) by omega] at hacc
    obtain ⟨last, hlast, -⟩ := lastBytes hp hacc
    rw [hlast] at h
    cases h
  · cases h

end Puya.Wtypes
