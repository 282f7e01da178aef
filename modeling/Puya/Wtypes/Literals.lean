import Puya.Wtypes.Base16

/-! # Encoded literals and addresses

    `valid_base32`, `valid_base16` and `valid_address` (`puya/awst/wtypes.py`),
    the checks of encoded `bytes` literals and of `account` literals. The
    first two share one body (`validEncoded`): decode, catch `ValueError`,
    and compare the length with the longest AVM byte string. `valid_address`
    pads a 58-character address with six `=`, decodes it, and compares the
    last four bytes with the end of the hash of the first 32; the hash
    (`sha512_256_hash`, outside the modelled sources) is a parameter.

    No validator raises: every exception inside them is a `ValueError`,
    which `valid_base32` catches (`validators_ok`, `validBase16_eq`).
    `valid_base32` accepts exactly the padded base32 texts of at most 4096
    bytes (`validBase32_iff`), among them the encoding of every byte string
    that fits (`validBase32_b32encode`); `valid_base16` accepts exactly the
    upper-case hexadecimal texts of even length and at most 8192 characters
    (`validBase16_eq`). `valid_address` accepts exactly the 58 digits
    of a key, its checksum and two free bits (`validAddress_iff`); with the
    free bits zero they are the unpadded `base64.b32encode` of key and
    checksum (`addressText_zero`), which is accepted
    (`validAddress_b32encode`), and so is each of its four spellings.
-/

namespace Puya.Wtypes

/-! ## Section 1: The validators -/

/-- `algo_constants.MAX_BYTES_LENGTH`, from the spec: the longest AVM byte
    string. -/
def maxBytesLength : Nat := 4096

/-- `algo_constants.ENCODED_ADDRESS_LENGTH`, from the spec. -/
def encodedAddressLength : Nat := 58

/-- `algo_constants.PUBLIC_KEY_HASH_LENGTH`, from the spec. -/
def publicKeyHashLength : Nat := 32

/-- `algo_constants.ADDRESS_CHECKSUM_LENGTH`, from the spec. -/
def addressChecksumLength : Nat := 4

/-- The body `valid_base32` and `valid_base16` share, for their decoder
    `decode`: the text decodes and the value fits in an AVM
    byte string. A `ValueError` gives `False`; any other exception
    propagates. -/
def validEncoded (decode : List Char → Except PyExc (List UInt8)) (s : List Char) :
    Except PyExc Bool :=
  match decode s with
  | .ok value => .ok (decide (value.length ≤ maxBytesLength))
  | .error (.valueError _) => .ok false
  | .error e => .error e

/-- `valid_base32(s)`. -/
def validBase32 (s : List Char) : Except PyExc Bool := validEncoded b32decode s

/-- `valid_base16(s)`. -/
def validBase16 (s : List Char) : Except PyExc Bool := validEncoded b16decode s

/-- `valid_address(address)`, with `sha512_256_hash` as the parameter
    `sha512_256Hash`; `h[-4:]` is the last four bytes of `h`, or all of a
    shorter `h`. -/
def validAddress (sha512_256Hash : List UInt8 → List UInt8) (address : List Char) :
    Except PyExc Bool := do
  let paddedAddress := address ++ List.replicate 6 '='
  let valid ← if address.length = encodedAddressLength then validBase32 paddedAddress
    else pure false
  if !valid then return false
  let addressBytes ← b32decode paddedAddress
  if addressBytes.length ≠ publicKeyHashLength + addressChecksumLength then return false
  let publicKeyHash := addressBytes.take publicKeyHashLength
  let checkSum := addressBytes.drop publicKeyHashLength
  let hash := sha512_256Hash publicKeyHash
  let verifiedCheckSum := hash.drop (hash.length - addressChecksumLength)
  return checkSum == verifiedCheckSum


/-! ## Section 2: What the encoded literals accept -/

/-- A validator is true exactly when the text decodes to at most 4096
    bytes. -/
theorem validEncoded_eq_ok_true {decode : List Char → Except PyExc (List UInt8)}
    {s : List Char} :
    validEncoded decode s = .ok true ↔
      ∃ v, decode s = .ok v ∧ v.length ≤ maxBytesLength := by
  unfold validEncoded
  split <;> rename_i h
  · simp [h]
  · simp [h]
  · simp [h]

/-- A validator whose decoder raises only `ValueError`s raises nothing: it is
    false exactly when the decoder raises. -/
theorem validEncoded_eq {decode : List Char → Except PyExc (List UInt8)} {s : List Char}
    (h : ∀ e, decode s = .error e → ∃ m, e = .valueError m) :
    validEncoded decode s =
      .ok (match decode s with
        | .ok value => decide (value.length ≤ maxBytesLength)
        | .error _ => false) := by
  unfold validEncoded
  split
  next hv => rw [hv]
  next hm => rw [hm]
  next e hne he =>
    obtain ⟨m, rfl⟩ := h e he
    exact absurd rfl (hne m)

theorem validBase32_total (s : List Char) : ∃ b, validBase32 s = .ok b :=
  ⟨_, validEncoded_eq fun _ => b32decode_error⟩

/-- Neither validator raises: `int.to_bytes` never overflows in the decoder,
    and `valid_base32` catches the `ValueError`s. -/
theorem validators_ok (sha512_256Hash : List UInt8 → List UInt8) (s : List Char) :
    (∃ b, validBase32 s = .ok b) ∧ ∃ b, validAddress sha512_256Hash s = .ok b := by
  refine ⟨validBase32_total s, ?_⟩
  unfold validAddress
  generalize s ++ List.replicate 6 '=' = t
  by_cases hlen : s.length = encodedAddressLength
  · obtain ⟨b, hb⟩ := validBase32_total t
    cases b
    · exact ⟨false, by simp [hlen, hb]⟩
    · obtain ⟨v, hv, -⟩ := validEncoded_eq_ok_true.1 hb
      simp only [hlen, hb, hv, if_true, except_ok_bind, Bool.not_true, Bool.false_eq_true,
        if_false, pure_bind]
      split <;> exact ⟨_, rfl⟩
  · exact ⟨false, by simp [hlen]⟩

/-- `valid_base32` accepts exactly the padded base32 texts of at most 4096
    bytes: `n` digits and an allowed number `p` of pad characters that fill
    whole quanta. -/
theorem validBase32_iff (s : List Char) :
    validBase32 s = .ok true ↔
      ∃ n p N, (n + p) % 8 = 0 ∧ p ∈ [0, 1, 3, 4, 6] ∧ N < 32 ^ n ∧
        5 * n / 8 ≤ maxBytesLength ∧
        s = (digitsBE 32 n N).map b32digit ++ List.replicate p '=' := by
  rw [validBase32, validEncoded_eq_ok_true]
  constructor
  · rintro ⟨v, hv, hlen⟩
    obtain ⟨n, p, N, hnp, hp, hN, rfl⟩ := b32decode_eq_ok hv
    rw [b32decode_digits hnp hp hN, Except.ok.injEq] at hv
    exact ⟨n, p, N, hnp, hp, hN, by simpa [← hv] using hlen, rfl⟩
  · rintro ⟨n, p, N, hnp, hp, hN, hlen, rfl⟩
    exact ⟨_, b32decode_digits hnp hp hN, by simpa using hlen⟩

/-- `valid_base32` accepts the encoding of every byte string that fits in an
    AVM byte string, and rejects the encoding of every longer one. -/
theorem validBase32_b32encode (bs : List UInt8) :
    validBase32 (b32encode bs) = .ok (decide (bs.length ≤ maxBytesLength)) := by
  rw [validBase32, validEncoded, b32decode_b32encode]

/-- `valid_base16` never raises, and accepts exactly the upper-case
    hexadecimal texts of even length and at most 8192 characters. -/
theorem validBase16_eq (s : List Char) :
    validBase16 s = .ok (decide (s.length % 2 = 0 ∧ (∀ c ∈ s, c ∈ b16alphabet) ∧
      s.length ≤ 2 * maxBytesLength)) := by
  rw [validBase16, validEncoded_eq fun _ => b16decode_error]
  by_cases h : s.length % 2 = 0 ∧ ∀ c ∈ s, c ∈ b16alphabet
  · obtain ⟨v, rfl⟩ := exists_b16encode h.1 h.2
    rw [b16decode_eq_ok_iff.2 rfl, b16encode_eq, length_flatMap_b16pair] at *
    simp only [h.1, true_and]
    exact congrArg _ (decide_eq_decide.2 ⟨fun hv => ⟨h.2, by omega⟩, fun hv => by omega⟩)
  · cases hd : b16decode s with
    | error e => rw [decide_eq_false fun hs => h ⟨hs.1, hs.2.1⟩]
    | ok v =>
      rw [b16decode_eq_ok_iff, b16encode_eq] at hd
      subst hd
      exact absurd ⟨by rw [length_flatMap_b16pair]; omega, mem_flatMap_b16pair⟩ h

/-! ## Section 3: What `valid_address` accepts -/

/-- `sha512_256_hash(public_key_hash)[-ADDRESS_CHECKSUM_LENGTH:]`: the last
    four bytes of the key's hash. -/
def checksum (sha512_256Hash : List UInt8 → List UInt8) (publicKeyHash : List UInt8) :
    List UInt8 :=
  let hash := sha512_256Hash publicKeyHash
  hash.drop (hash.length - addressChecksumLength)

/-- An address as text: the 58 base-32 digits of the 290-bit number whose
    first 288 bits are the key and its checksum and whose last two are
    `low`. -/
def addressText (sha512_256Hash : List UInt8 → List UInt8) (publicKeyHash : List UInt8)
    (low : Nat) : List Char :=
  (digitsBE 32 encodedAddressLength
    (fromBytes (publicKeyHash ++ checksum sha512_256Hash publicKeyHash) * 4 + low)).map b32digit

/-- `valid_address` is true exactly when the 58 characters decode to 36 bytes
    that end in the checksum of the first 32. -/
theorem validAddress_eq_ok_true {sha512_256Hash : List UInt8 → List UInt8}
    {address : List Char} :
    validAddress sha512_256Hash address = .ok true ↔
      address.length = encodedAddressLength ∧
        ∃ v, b32decode (address ++ List.replicate 6 '=') = .ok v ∧
          v.length = publicKeyHashLength + addressChecksumLength ∧
          v.drop publicKeyHashLength = checksum sha512_256Hash (v.take publicKeyHashLength) := by
  unfold validAddress
  generalize address ++ List.replicate 6 '=' = t
  by_cases hlen : address.length = encodedAddressLength
  · obtain ⟨b, hb⟩ := validBase32_total t
    cases b
    · simp only [hlen, hb, if_true, except_ok_bind, Bool.not_false, except_pure]
      refine ⟨fun h => (nomatch h), fun ⟨_, v, hv, h36, _⟩ => ?_⟩
      have h : validBase32 t = .ok true :=
        validEncoded_eq_ok_true.2 ⟨v, hv, by rw [h36]; decide⟩
      rw [hb] at h
      cases h
    · obtain ⟨v, hv, -⟩ := validEncoded_eq_ok_true.1 hb
      by_cases h36 : v.length = publicKeyHashLength + addressChecksumLength <;>
        simp [hlen, hb, hv, h36, checksum]
  · simp [hlen]

/-- 58 base-32 digits hold the 36 bytes of a key and its checksum, and two
    bits more. -/
theorem address_pow :
    4 * 256 ^ (publicKeyHashLength + addressChecksumLength) = 32 ^ encodedAddressLength := by
  norm_num [publicKeyHashLength, addressChecksumLength, encodedAddressLength]

/-- A padded address text decodes to the 36 bytes of its number without the
    two last bits. -/
theorem b32decode_address {N : Nat} (hN : N < 32 ^ encodedAddressLength) :
    b32decode ((digitsBE 32 encodedAddressLength N).map b32digit ++ List.replicate 6 '=') =
      .ok ((digitsBE 256 (publicKeyHashLength + addressChecksumLength) (N / 4)).map
        UInt8.ofNat) := by
  rw [b32decode_digits (by decide) (by simp) hN]
  rfl

/-- A 58-character text that decodes once padded with six `=` is 58 base-32
    digits: no `=` of its own, and no character outside the alphabet. -/
theorem eq_digits_of_b32decode {address : List Char} {v : List UInt8}
    (hlen : address.length = encodedAddressLength)
    (hv : b32decode (address ++ List.replicate 6 '=') = .ok v) :
    ∃ N, N < 32 ^ encodedAddressLength ∧
      address = (digitsBE 32 encodedAddressLength N).map b32digit := by
  obtain ⟨n, p, N, -, hp, hN, heq⟩ := b32decode_eq_ok hv
  have hnoPad : '=' ∉ (digitsBE 32 n N).map b32digit := fun h => by
    obtain ⟨d, -, hd⟩ := List.mem_map.1 h
    exact b32digit_ne_pad d hd
  have hcount := congrArg (List.count '=') heq
  simp only [List.count_append, List.count_replicate_self,
    List.count_eq_zero_of_not_mem hnoPad] at hcount
  obtain rfl : p = 6 := by
    simp only [List.mem_cons, List.mem_singleton, List.not_mem_nil, or_false] at hp
    omega
  obtain ⟨rfl, -⟩ := List.append_inj' heq rfl
  obtain rfl : n = encodedAddressLength := by simpa using hlen
  exact ⟨N, hN, rfl⟩

/-- What `valid_address` accepts is the text of a key and its checksum. -/
theorem addressText_of_validAddress {sha512_256Hash : List UInt8 → List UInt8}
    {address : List Char} (h : validAddress sha512_256Hash address = .ok true) :
    ∃ publicKeyHash low, publicKeyHash.length = publicKeyHashLength ∧
      (checksum sha512_256Hash publicKeyHash).length = addressChecksumLength ∧ low < 4 ∧
      address = addressText sha512_256Hash publicKeyHash low := by
  obtain ⟨hlen, v, hv, h36, hcs⟩ := validAddress_eq_ok_true.1 h
  obtain ⟨N, hN, hadd⟩ := eq_digits_of_b32decode hlen hv
  rw [hadd, b32decode_address hN, Except.ok.injEq] at hv
  have hN4 : N / 4 < 256 ^ (publicKeyHashLength + addressChecksumLength) := by
    rw [← address_pow] at hN
    exact Nat.div_lt_of_lt_mul hN
  refine ⟨v.take publicKeyHashLength, N % 4, by simp [h36], ?_, Nat.mod_lt _ (by norm_num), ?_⟩
  · rw [← hcs]; simp [h36]
  · rw [hadd, addressText, ← hcs, List.take_append_drop, ← hv, fromBytes_digitsBE hN4,
      Nat.div_add_mod']

/-- `valid_address` accepts the text of every key whose checksum is four
    bytes long, with anything in the two free bits. -/
theorem validAddress_addressText {sha512_256Hash : List UInt8 → List UInt8}
    {publicKeyHash : List UInt8} {low : Nat} (hpk : publicKeyHash.length = publicKeyHashLength)
    (hcs : (checksum sha512_256Hash publicKeyHash).length = addressChecksumLength)
    (hlow : low < 4) :
    validAddress sha512_256Hash (addressText sha512_256Hash publicKeyHash low) = .ok true := by
  have hbytes : (publicKeyHash ++ checksum sha512_256Hash publicKeyHash).length =
      publicKeyHashLength + addressChecksumLength := by simp [hpk, hcs]
  have hlt := fromBytes_lt (publicKeyHash ++ checksum sha512_256Hash publicKeyHash)
  have hN : fromBytes (publicKeyHash ++ checksum sha512_256Hash publicKeyHash) * 4 + low <
      32 ^ encodedAddressLength := by
    rw [hbytes] at hlt
    rw [← address_pow]
    generalize 256 ^ (publicKeyHashLength + addressChecksumLength) = P at hlt ⊢
    omega
  refine validAddress_eq_ok_true.2 ⟨by simp [addressText], _, b32decode_address hN, ?_⟩
  rw [show (fromBytes (publicKeyHash ++ checksum sha512_256Hash publicKeyHash) * 4 + low) / 4 =
    fromBytes (publicKeyHash ++ checksum sha512_256Hash publicKeyHash) by omega, ← hbytes,
    digitsBE_fromBytes]
  refine ⟨rfl, ?_⟩
  rw [← hpk, List.drop_left, List.take_left]

/-- `valid_address` accepts exactly the texts of a key and its four-byte
    checksum, with anything in the two bits of the last digit that encode no
    data: four spellings of each address. -/
theorem validAddress_iff (sha512_256Hash : List UInt8 → List UInt8) (address : List Char) :
    validAddress sha512_256Hash address = .ok true ↔
      ∃ publicKeyHash low, publicKeyHash.length = publicKeyHashLength ∧
        (checksum sha512_256Hash publicKeyHash).length = addressChecksumLength ∧ low < 4 ∧
        address = addressText sha512_256Hash publicKeyHash low :=
  ⟨addressText_of_validAddress, fun ⟨_, _, hpk, hcs, hlow, h⟩ =>
    h ▸ validAddress_addressText hpk hcs hlow⟩

/-- With the free bits zero, the text of a key is the unpadded
    `base64.b32encode` of the key followed by its checksum. -/
theorem addressText_zero {sha512_256Hash : List UInt8 → List UInt8}
    {publicKeyHash : List UInt8} (hpk : publicKeyHash.length = publicKeyHashLength)
    (hcs : (checksum sha512_256Hash publicKeyHash).length = addressChecksumLength) :
    addressText sha512_256Hash publicKeyHash 0 =
      (b32encode (publicKeyHash ++ checksum sha512_256Hash publicKeyHash)).rdropWhile
        (· == '=') := by
  rw [b32encode_eq, List.length_append, hpk, hcs, rdropWhile_pad]
  · rfl
  · intro h
    obtain ⟨d, -, hd⟩ := List.mem_map.1 (List.getLast_mem h)
    exact hd ▸ b32digit_ne_pad d

/-- `valid_address` accepts the unpadded `base64.b32encode` of every key
    followed by its four-byte checksum. -/
theorem validAddress_b32encode {sha512_256Hash : List UInt8 → List UInt8}
    {publicKeyHash : List UInt8} (hpk : publicKeyHash.length = publicKeyHashLength)
    (hcs : (checksum sha512_256Hash publicKeyHash).length = addressChecksumLength) :
    validAddress sha512_256Hash
      ((b32encode (publicKeyHash ++ checksum sha512_256Hash publicKeyHash)).rdropWhile
        (· == '=')) = .ok true := by
  rw [← addressText_zero hpk hcs]
  exact validAddress_addressText hpk hcs (by norm_num)

/-- The key of 32 zero bytes, under a hash that returns 32 zero bytes. -/
theorem validAddress_b32encode_zeroKey :
    (List.replicate 32 (0 : UInt8)).length = publicKeyHashLength ∧
      (checksum (fun _ => List.replicate 32 0) (List.replicate 32 0)).length =
        addressChecksumLength ∧
      validAddress (fun _ => List.replicate 32 0)
        ((b32encode (List.replicate 32 0 ++
          checksum (fun _ => List.replicate 32 0) (List.replicate 32 0))).rdropWhile
            (· == '=')) = .ok true :=
  ⟨rfl, rfl, validAddress_b32encode rfl rfl⟩

end Puya.Wtypes
