import Puya.Wtypes.Base32

/-! # Base16

    CPython's `base64.b16decode`, which `valid_base16` (`puya/awst/wtypes.py`)
    calls: the text may hold only the digits `0-9A-F`, and
    `binascii.unhexlify` then reads it two digits to a byte, raising for an
    odd length. Beside it the encoder `base64.b16encode`,
    `binascii.hexlify(s).upper()`.

    A text decodes exactly when it is the encoding of some bytes, and then to
    those bytes (`b16decode_eq_ok_iff`).
-/

namespace Puya.Wtypes

/-! ## Section 1: Model -/

/-- `b'0123456789ABCDEF'`, the digits `b16decode` lets through. -/
def b16alphabet : List Char := "0123456789ABCDEF".data

/-- `_PyLong_DigitValue[c]` when it is below 16, the digits `binascii` reads:
    `0-9`, `a-f` and `A-F`. -/
def hexValue (c : Char) : Option Nat :=
  if '0' ≤ c ∧ c ≤ '9' then some (c.toNat - '0'.toNat)
  else if 'a' ≤ c ∧ c ≤ 'f' then some (c.toNat - 'a'.toNat + 10)
  else if 'A' ≤ c ∧ c ≤ 'F' then some (c.toNat - 'A'.toNat + 10)
  else none

/-- The loop of `binascii.unhexlify`: one byte `(top << 4) + bot` per pair of
    digits. -/
def unhexPairs : List Char → Except PyExc (List UInt8)
  | c1 :: c2 :: cs =>
    match hexValue c1, hexValue c2 with
    | some top, some bot => (UInt8.ofNat (top * 16 + bot) :: ·) <$> unhexPairs cs
    | _, _ => .error (.valueError "Non-hexadecimal digit found")
  | _ => .ok []

/-- `binascii.unhexlify(s)`. -/
def unhexlify (s : List Char) : Except PyExc (List UInt8) :=
  if s.length % 2 ≠ 0 then .error (.valueError "Odd-length string") else unhexPairs s

/-- `base64.b16decode(s)`, with `casefold=False`: `s.translate(None,
    delete=b'0123456789ABCDEF')` is the text without its digits. -/
def b16decode (s : List Char) : Except PyExc (List UInt8) := do
  let s ← bytesFromDecodeData s
  if s.filter (fun c => c ∉ b16alphabet) ≠ [] then throw (.valueError "Non-base16 digit found")
  unhexlify s

/-- `binascii.hexlify(s)`: two lower-case digits per byte, high half first. -/
def hexlify (s : List UInt8) : List Char :=
  s.flatMap fun b =>
    ["0123456789abcdef".data.getD (b.toNat / 16) '0',
      "0123456789abcdef".data.getD (b.toNat % 16) '0']

/-- `base64.b16encode(s)`: `binascii.hexlify(s).upper()`. -/
def b16encode (s : List UInt8) : List Char := (hexlify s).map Char.toUpper

/-! ## Section 2: Digits -/

/-- The upper-case digit of a value below 16. -/
def b16digit (v : Nat) : Char := b16alphabet.getD v '0'

/-- The two digits of a byte in `b16encode`. -/
def b16pair (b : UInt8) : List Char := [b16digit (b.toNat / 16), b16digit (b.toNat % 16)]

theorem toUpper_hexDigit {v : Nat} (hv : v < 16) :
    ("0123456789abcdef".data.getD v '0').toUpper = b16digit v := by
  revert v; decide

theorem hexValue_b16digit {v : Nat} (hv : v < 16) : hexValue (b16digit v) = some v := by
  revert v; decide

/-- Each character of the alphabet is the digit of the value it reads as. -/
theorem hexValue_of_mem :
    ∀ c ∈ b16alphabet, ∃ v < 16, hexValue c = some v ∧ b16digit v = c := by
  decide

/-- The alphabet is ASCII. -/
theorem b16alphabet_ascii : ∀ c ∈ b16alphabet, c.toNat < 128 := by decide

theorem b16digit_mem (v : Nat) : b16digit v ∈ b16alphabet := by
  rcases Nat.lt_or_ge v b16alphabet.length with hv | hv
  · rw [b16digit, List.getD_eq_getElem _ _ hv]; exact List.getElem_mem hv
  · rw [b16digit, List.getD_eq_default _ _ hv]; decide

theorem b16encode_eq (s : List UInt8) : b16encode s = s.flatMap b16pair := by
  induction s with
  | nil => rfl
  | cons b s ih =>
    have hb := b.toNat_lt
    rw [List.flatMap_cons, ← ih, b16encode, hexlify, List.flatMap_cons, List.map_append]
    simp only [List.map_cons, List.map_nil, toUpper_hexDigit (by omega : b.toNat / 16 < 16),
      toUpper_hexDigit (by omega : b.toNat % 16 < 16)]
    rfl

/-! ## Section 3: The decoder inverts the encoder -/

theorem unhexPairs_b16pairs (v : List UInt8) : unhexPairs (v.flatMap b16pair) = .ok v := by
  induction v with
  | nil => rfl
  | cons b v ih =>
    have hb := b.toNat_lt
    have h : unhexPairs (b16digit (b.toNat / 16) :: b16digit (b.toNat % 16) :: v.flatMap b16pair) =
        .ok (UInt8.ofNat (b.toNat / 16 * 16 + b.toNat % 16) :: v) := by
      rw [unhexPairs, hexValue_b16digit (by omega), hexValue_b16digit (by omega), ih]
      rfl
    rw [Nat.div_add_mod', uint8_ofNat_toNat] at h
    exact h

/-- Digits read in pairs are the encoding of the bytes they give. -/
theorem eq_of_unhexPairs {s : List Char} {v : List UInt8} (hs : ∀ c ∈ s, c ∈ b16alphabet)
    (he : s.length % 2 = 0) (h : unhexPairs s = .ok v) : s = v.flatMap b16pair := by
  induction s using unhexPairs.induct generalizing v with
  | case1 c1 c2 cs top bot h2 h1 ih =>
    obtain ⟨top', htop, h1', rfl⟩ := hexValue_of_mem c1 (hs c1 (by simp))
    obtain ⟨bot', hbot, h2', rfl⟩ := hexValue_of_mem c2 (hs c2 (by simp))
    obtain rfl := Option.some.inj (h1'.symm.trans h1)
    obtain rfl := Option.some.inj (h2'.symm.trans h2)
    rw [unhexPairs, h1, h2] at h
    cases hcs : unhexPairs cs with
    | error e => rw [hcs] at h; cases h
    | ok v' =>
      rw [hcs] at h
      cases h
      have hbyte : (UInt8.ofNat (top' * 16 + bot')).toNat = top' * 16 + bot' :=
        UInt8.toNat_ofNat_of_lt (by show _ < 256; omega)
      rw [ih (fun c hc => hs c (by simp [hc])) (by simp at he; omega) hcs, List.flatMap_cons,
        b16pair, hbyte, show (top' * 16 + bot') / 16 = top' by omega,
        show (top' * 16 + bot') % 16 = bot' by omega]
      rfl
  | case2 c1 c2 cs hne =>
    obtain ⟨top, -, h1, -⟩ := hexValue_of_mem c1 (hs c1 (by simp))
    obtain ⟨bot, -, h2, -⟩ := hexValue_of_mem c2 (hs c2 (by simp))
    exact absurd h2 (hne top bot h1)
  | case3 t hpair =>
    match t, he, h with
    | [], _, h => cases h; rfl
    | [_], he, _ => simp at he
    | c1 :: c2 :: cs, _, _ => exact absurd rfl (hpair c1 c2 cs)

theorem length_flatMap_b16pair (v : List UInt8) : (v.flatMap b16pair).length = 2 * v.length := by
  induction v with
  | nil => rfl
  | cons b v ih => rw [List.flatMap_cons, List.length_append, ih]; simp [b16pair]; omega

theorem mem_flatMap_b16pair {v : List UInt8} : ∀ c ∈ v.flatMap b16pair, c ∈ b16alphabet := by
  intro c hc
  obtain ⟨b, -, hb⟩ := List.mem_flatMap.1 hc
  rcases List.mem_pair.1 hb with rfl | rfl <;> exact b16digit_mem _

/-- A text decodes exactly when it is the encoding of some bytes, and then
    to those bytes. -/
theorem b16decode_eq_ok_iff {s : List Char} {v : List UInt8} :
    b16decode s = .ok v ↔ s = b16encode v := by
  rw [b16encode_eq]
  constructor
  · intro h
    simp only [b16decode, bind_eq_ok] at h
    obtain ⟨a, ha, h⟩ := h
    obtain rfl : s = a := by
      unfold bytesFromDecodeData at ha; split at ha <;> cases ha; rfl
    split at h
    · cases h
    rename_i hall
    simp only [pure_bind, unhexlify] at h
    split at h
    · cases h
    rename_i heven
    refine eq_of_unhexPairs (fun c hc => ?_) (by omega) h
    by_contra hn
    exact hall (List.ne_nil_of_mem (List.mem_filter.2 ⟨hc, by simpa using hn⟩))
  · rintro rfl
    have hascii : bytesFromDecodeData (v.flatMap b16pair) = .ok (v.flatMap b16pair) :=
      if_pos (List.all_eq_true.2 fun c hc =>
        decide_eq_true (b16alphabet_ascii c (mem_flatMap_b16pair c hc)))
    have hfilter : (v.flatMap b16pair).filter (fun c => c ∉ b16alphabet) = [] :=
      List.filter_eq_nil_iff.2 fun c hc => by simpa using mem_flatMap_b16pair c hc
    simp only [b16decode, hascii, except_ok_bind, hfilter, ne_eq, not_true_eq_false, if_false,
      pure_bind, unhexlify, length_flatMap_b16pair, Nat.mul_mod_right]
    exact unhexPairs_b16pairs v

/-! ## Section 4: What the decoder raises -/

/-- A text of digits of even length is an encoding. -/
theorem exists_b16encode {s : List Char} (he : s.length % 2 = 0)
    (hs : ∀ c ∈ s, c ∈ b16alphabet) : ∃ v, s = b16encode v := by
  have hok : ∃ v, unhexPairs s = .ok v := by
    induction s using unhexPairs.induct with
    | case1 c1 c2 cs top bot h2 h1 ih =>
      obtain ⟨v, hv⟩ := ih (by simp at he; omega) fun c hc => hs c (by simp [hc])
      exact ⟨_, by rw [unhexPairs, h1, h2, hv]; rfl⟩
    | case2 c1 c2 cs hne =>
      obtain ⟨top, -, h1, -⟩ := hexValue_of_mem c1 (hs c1 (by simp))
      obtain ⟨bot, -, h2, -⟩ := hexValue_of_mem c2 (hs c2 (by simp))
      exact absurd h2 (hne top bot h1)
    | case3 t hpair =>
      match t, hpair with
      | [], _ => exact ⟨[], rfl⟩
      | [_], _ => exact ⟨[], rfl⟩
      | c1 :: c2 :: cs, hpair => exact absurd rfl (hpair c1 c2 cs)
  obtain ⟨v, hv⟩ := hok
  exact ⟨v, (eq_of_unhexPairs hs he hv).trans (b16encode_eq v).symm⟩

theorem unhexPairs_error {s : List Char} {e : PyExc} (h : unhexPairs s = .error e) :
    e = .valueError "Non-hexadecimal digit found" := by
  induction s using unhexPairs.induct with
  | case1 c1 c2 cs top bot h2 h1 ih =>
    rw [unhexPairs, h1, h2] at h
    cases hcs : unhexPairs cs with
    | error e' => rw [hcs] at h; cases h; exact ih hcs
    | ok v => rw [hcs] at h; cases h
  | case2 c1 c2 cs hne =>
    rw [unhexPairs] at h
    split at h
    · rename_i top bot h1 h2
      exact absurd h2 (hne top bot h1)
    · cases h; rfl
  | case3 t hpair =>
    unfold unhexPairs at h
    split at h
    · exact absurd rfl (hpair _ _ _)
    · cases h

/-- `b16decode` raises only `ValueError`s (`binascii.Error` is one). -/
theorem b16decode_error {s : List Char} {e : PyExc} (h : b16decode s = .error e) :
    ∃ m, e = .valueError m := by
  simp only [b16decode, bind_eq_error] at h
  rcases h with h | ⟨a, -, h⟩
  · unfold bytesFromDecodeData at h; split at h <;> cases h; exact ⟨_, rfl⟩
  split at h
  · cases h; exact ⟨_, rfl⟩
  simp only [pure_bind, unhexlify] at h
  split at h
  · cases h; exact ⟨_, rfl⟩
  · exact ⟨_, unhexPairs_error h⟩

end Puya.Wtypes
