/-
The seed hash of game-core is SHA-256 (`seedFromString`, `utf8Encode`, `sha256Bytes`).

The hand-written encoder and hash are compared with `Lib/Unicode` and `Lib/Sha256`: the encoder piece by piece over the
shapes a code unit can have, the padding as bits, the schedule word by word, the rounds step by step and the blocks one
after the other.

- `utf8Encode_eq`: the encoder is UTF-8, a lone surrogate read as U+FFFD;
- `sha256Pad_bits`: the padding is the standard's at every length;
- `sha256Bytes_bits`: the hash of every byte list is its digest;
- `seedFromUnits_digest`: the seed is the little-endian number of the first four bytes of the digest.
-/
import Arena.GameCore.Prng
import Arena.Lib.Sha256
import Arena.Lib.Unicode

namespace Arena.GameCore

open Arena.Lib

/-! ## The encoder -/

/-- bits put below those of a multiple of their range are added to it -/
theorem shiftLeft_or_eq (a : ℕ) {b i : ℕ} (h : b < 2 ^ i) : a * 2 ^ i ||| b = a * 2 ^ i + b := by
  rw [← Nat.shiftLeft_eq]
  exact (Nat.shiftLeft_add_eq_or_of_lt h a).symm

/-- a byte that continues a character -/
theorem tail_byte (n : ℕ) : 0x80 ||| (n &&& 0x3f) = n % 0x40 + 0x80 := by
  have hmod : n &&& 0x3f = n % 0x40 := Nat.and_two_pow_sub_one_eq_mod n 6
  have hor : 0x80 ||| n % 0x40 = 0x80 + n % 0x40 := shiftLeft_or_eq 2 (i := 6) (Nat.mod_lt _ (by norm_num))
  rw [hmod]
  omega

theorem lead_byte2 {n : ℕ} (h : n < 0x800) : 0xc0 ||| (n >>> 6) = n / 64 % 0x20 + 0xc0 := by
  have hshift : n >>> 6 = n / 64 := Nat.shiftRight_eq_div_pow n 6
  have hor : 0xc0 ||| n / 64 = 0xc0 + n / 64 := shiftLeft_or_eq 6 (i := 5) (by norm_num; omega)
  rw [hshift]
  omega

theorem lead_byte3 {n : ℕ} (h : n < 0x10000) : 0xe0 ||| (n >>> 12) = n / 4096 % 0x10 + 0xe0 := by
  have hshift : n >>> 12 = n / 4096 := Nat.shiftRight_eq_div_pow n 12
  have hor : 0xe0 ||| n / 4096 = 0xe0 + n / 4096 := shiftLeft_or_eq 14 (i := 4) (by norm_num; omega)
  rw [hshift]
  omega

theorem lead_byte4 {n : ℕ} (h : n < 0x110000) : 0xf0 ||| (n >>> 18) = n / 262144 % 0x08 + 0xf0 := by
  have hshift : n >>> 18 = n / 262144 := Nat.shiftRight_eq_div_pow n 18
  have hor : 0xf0 ||| n / 262144 = 0xf0 + n / 262144 := shiftLeft_or_eq 30 (i := 3) (by norm_num; omega)
  rw [hshift]
  omega

theorem isHighSurrogate_iff (c : UInt16) : isHighSurrogate c = true ↔ IsLead c := by
  simp [isHighSurrogate, IsLead, UInt16.le_iff_toNat_le, UInt16.lt_iff_toNat_lt]

theorem isLowSurrogate_iff (c : UInt16) : isLowSurrogate c = true ↔ IsTrail c := by
  simp [isLowSurrogate, IsTrail, UInt16.le_iff_toNat_le, UInt16.lt_iff_toNat_lt]

/-- the code point computed from a pair -/
theorem pair_bits {c c2 : UInt16} (hc : IsLead c) (hc2 : IsTrail c2) :
    0x10000 + (((c.toNat &&& 0x3ff) <<< 10) ||| (c2.toNat &&& 0x3ff)) = pairPoint c c2 := by
  have h1 : c.toNat &&& 0x3ff = c.toNat % 0x400 := Nat.and_two_pow_sub_one_eq_mod _ 10
  have h2 : c2.toNat &&& 0x3ff = c2.toNat % 0x400 := Nat.and_two_pow_sub_one_eq_mod _ 10
  have hor := shiftLeft_or_eq (c.toNat % 0x400) (i := 10) (b := c2.toNat % 0x400) (Nat.mod_lt _ (by norm_num))
  simp only [IsLead, IsTrail] at hc hc2
  rw [h1, h2, Nat.shiftLeft_eq, hor]
  unfold pairPoint
  omega

/-- the bytes of a unit that stands alone -/
def unitBytes (n : ℕ) : List UInt8 :=
  if n < 0x80 then [UInt8.ofNat n]
  else if n < 0x800 then [UInt8.ofNat (0xc0 ||| (n >>> 6)), UInt8.ofNat (0x80 ||| (n &&& 0x3f))]
  else [UInt8.ofNat (0xe0 ||| (n >>> 12)), UInt8.ofNat (0x80 ||| ((n >>> 6) &&& 0x3f)),
    UInt8.ofNat (0x80 ||| (n &&& 0x3f))]

theorem unitBytes_eq {n : ℕ} (h : n < 0x10000) (hvalid : n.isValidChar) :
    unitBytes n = String.utf8EncodeChar (Char.ofNat n) := by
  have hval : (Char.ofNat n).val.toNat = n := toNat_ofNat hvalid
  have hshift : n >>> 6 = n / 64 := Nat.shiftRight_eq_div_pow n 6
  unfold unitBytes String.utf8EncodeChar
  simp only [hval]
  by_cases h1 : n < 0x80
  · rw [if_pos h1, if_pos (show n ≤ 0x7f by omega)]
  · rw [if_neg h1, if_neg (show ¬n ≤ 0x7f by omega)]
    by_cases h2 : n < 0x800
    · rw [if_pos h2, if_pos (show n ≤ 0x7ff by omega), lead_byte2 h2, tail_byte]
    · rw [if_neg h2, if_neg (show ¬n ≤ 0x7ff by omega), if_pos (show n ≤ 0xffff by omega), lead_byte3 h, tail_byte,
        tail_byte, hshift]

/-- the bytes of a surrogate pair -/
def pairBytes (p : ℕ) : List UInt8 :=
  [UInt8.ofNat (0xf0 ||| (p >>> 18)), UInt8.ofNat (0x80 ||| ((p >>> 12) &&& 0x3f)),
    UInt8.ofNat (0x80 ||| ((p >>> 6) &&& 0x3f)), UInt8.ofNat (0x80 ||| (p &&& 0x3f))]

theorem pairBytes_eq {p : ℕ} (hlow : 0x10000 ≤ p) (hvalid : p.isValidChar) :
    pairBytes p = String.utf8EncodeChar (Char.ofNat p) := by
  have hval : (Char.ofNat p).val.toNat = p := toNat_ofNat hvalid
  have hshift6 : p >>> 6 = p / 64 := Nat.shiftRight_eq_div_pow p 6
  have hshift12 : p >>> 12 = p / 4096 := Nat.shiftRight_eq_div_pow p 12
  have hhigh : p < 0x110000 := by
    unfold Nat.isValidChar at hvalid
    omega
  unfold pairBytes String.utf8EncodeChar
  simp only [hval]
  rw [if_neg (show ¬p ≤ 0x7f by omega), if_neg (show ¬p ≤ 0x7ff by omega), if_neg (show ¬p ≤ 0xffff by omega),
    lead_byte4 hhigh, tail_byte, tail_byte, tail_byte, hshift6, hshift12]

theorem replacementBytes_eq : replacementBytes = String.utf8EncodeChar replacementChar := by decide

/-! ## The encoder is UTF-8 -/

/-- one turn of the source's loop on a unit that is no surrogate -/
theorem utf8Encode_unit {c : UInt16} (rest : List UInt16) (h : ¬(IsLead c ∨ IsTrail c)) :
    utf8Encode (c :: rest) = unitBytes c.toNat ++ utf8Encode rest := by
  have hhigh : isHighSurrogate c = false := by
    rw [← Bool.not_eq_true, isHighSurrogate_iff]
    exact fun hc => h (Or.inl hc)
  have hlow : isLowSurrogate c = false := by
    rw [← Bool.not_eq_true, isLowSurrogate_iff]
    exact fun hc => h (Or.inr hc)
  rw [utf8Encode.eq_def]
  simp only [hhigh, hlow, Bool.false_eq_true, if_false, unitBytes]
  split_ifs <;> rfl

/-- one turn on a pair -/
theorem utf8Encode_pair {c c2 : UInt16} (rest : List UInt16) (hc : IsLead c) (hc2 : IsTrail c2) :
    utf8Encode (c :: c2 :: rest) = pairBytes (pairPoint c c2) ++ utf8Encode rest := by
  have hbig : ¬c.toNat < 0x80 ∧ ¬c.toNat < 0x800 := by
    simp only [IsLead] at hc
    omega
  rw [utf8Encode.eq_def]
  simp only [hbig.1, hbig.2, (isHighSurrogate_iff c).2 hc, (isLowSurrogate_iff c2).2 hc2, pair_bits hc hc2, if_true,
    if_false]
  rfl

/-- one turn on a surrogate without its other half -/
theorem utf8Encode_lone {c : UInt16} (rest : List UInt16) (hc : IsLead c ∨ IsTrail c)
    (h : IsLead c → ∀ v ∈ rest.head?, ¬IsTrail v) :
    utf8Encode (c :: rest) = replacementBytes ++ utf8Encode rest := by
  have hbig : ¬c.toNat < 0x80 ∧ ¬c.toNat < 0x800 := by
    simp only [IsLead, IsTrail] at hc
    omega
  rw [utf8Encode.eq_def]
  simp only [hbig.1, hbig.2, if_false]
  by_cases hl : IsLead c
  · rw [if_pos ((isHighSurrogate_iff c).2 hl)]
    cases rest with
    | nil => rfl
    | cons v rest =>
      have hv : ¬isLowSurrogate v = true := fun ht => h hl v rfl ((isLowSurrogate_iff v).1 ht)
      simp only [if_neg hv]
  · rw [if_neg fun hh => hl ((isHighSurrogate_iff c).1 hh), if_pos ((isLowSurrogate_iff c).2 (hc.resolve_left hl))]

/-- one turn on a unit that begins no pair -/
theorem utf8Encode_single {c : UInt16} (rest : List UInt16) (h : IsLead c → ∀ v ∈ rest.head?, ¬IsTrail v) :
    utf8Encode (c :: rest) = String.utf8EncodeChar (unitChar c) ++ utf8Encode rest := by
  by_cases hc : IsLead c ∨ IsTrail c
  · rw [utf8Encode_lone rest hc h, replacementBytes_eq, unitChar, if_pos hc]
  · rw [utf8Encode_unit rest hc, unitBytes_eq c.toNat_lt (isValidChar_unit hc), unitChar, if_neg hc]

/-- **The encoder is UTF-8** for every list of code units, a lone surrogate read as U+FFFD. -/
theorem utf8Encode_eq (units : List UInt16) : utf8Encode units = utf8 units := by
  -- along the reading of the units as scalar values
  induction units using scalars.induct with
  | case1 => rfl
  | case2 u =>
    rw [utf8Encode_single [] fun _ v hv => by cases hv]
    simp [utf8, scalars, utf8Encode]
  | case3 u v us hpair ih =>
    have hvalid := isValidChar_pairPoint hpair.1 hpair.2
    have hlow : 0x10000 ≤ pairPoint u v := by
      unfold pairPoint
      omega
    rw [utf8Encode_pair us hpair.1 hpair.2, pairBytes_eq hlow hvalid, ih, utf8, utf8, scalars, if_pos hpair]
    rfl
  | case4 u v us hpair ih =>
    have hsingle : IsLead u → ∀ w ∈ (v :: us).head?, ¬IsTrail w := by
      intro hu w hw ht
      obtain rfl : v = w := Option.some.inj hw
      exact hpair ⟨hu, ht⟩
    rw [utf8Encode_single (v :: us) hsingle, ih, utf8, utf8, scalars, if_neg hpair]
    rfl

/-! ## Words and bytes -/

open Sha256 (bytesToBits wordBits byteBits readBits)

/-- bit `i` of a byte cut out of a number -/
theorem byteBits_shift (n sh : ℕ) :
    byteBits (UInt8.ofNat ((n >>> sh) &&& 0xff)) = (List.range 8).map fun i => n.testBit (sh + (7 - i)) := by
  refine List.map_congr_left fun i hi => ?_
  have hi8 : i < 8 := List.mem_range.1 hi
  have hmask : (0xff : ℕ) = 2 ^ 8 - 1 := rfl
  rw [BitVec.getMsbD_eq_getLsbD, UInt8.toBitVec_ofNat', BitVec.getLsbD_ofNat, hmask, Nat.testBit_and,
    Nat.testBit_shiftRight, Nat.testBit_two_pow_sub_one]
  simp [hi8, show 7 - i < 8 by omega]

/-- the eight length bytes are the 64-bit length -/
theorem lengthBytes_bits (n : ℕ) :
    bytesToBits ([56, 48, 40, 32, 24, 16, 8, 0].map fun sh => UInt8.ofNat ((n >>> sh) &&& 0xff)) =
      wordBits (BitVec.ofNat 64 n) := by
  have hword : wordBits (BitVec.ofNat 64 n) = (List.range 64).map fun i => n.testBit (63 - i) := by
    refine List.map_congr_left fun i hi => ?_
    have hi64 : i < 64 := List.mem_range.1 hi
    rw [BitVec.getMsbD_eq_getLsbD, BitVec.getLsbD_ofNat]
    simp [hi64, show 63 - i < 64 by omega]
  simp only [bytesToBits, List.map_cons, List.map_nil, List.flatMap_cons, List.flatMap_nil, byteBits_shift, hword]
  rfl

/-- a word written as four bytes -/
theorem wordBytes_bits (w : UInt32) : bytesToBits (wordBytes w) = wordBits w.toBitVec := by
  have hbyte : ∀ sh : ℕ, byteBits (UInt8.ofNat (w.toNat >>> sh)) =
      (List.range 8).map fun i => w.toNat.testBit (sh + (7 - i)) := by
    intro sh
    rw [← byteBits_shift]
    congr 1
    apply UInt8.toNat.inj
    simp only [UInt8.toNat_ofNat']
    rw [Nat.and_two_pow_sub_one_eq_mod _ 8, Nat.mod_mod]
  have hword : wordBits w.toBitVec = (List.range 32).map fun i => w.toNat.testBit (31 - i) := by
    refine List.map_congr_left fun i hi => ?_
    have hi32 : i < 32 := List.mem_range.1 hi
    rw [BitVec.getMsbD_eq_getLsbD]
    simp [hi32, BitVec.getLsbD]
  have hbytes : wordBytes w = [UInt8.ofNat (w.toNat >>> 24), UInt8.ofNat (w.toNat >>> 16),
      UInt8.ofNat (w.toNat >>> 8), UInt8.ofNat (w.toNat >>> 0)] := by
    simp [wordBytes, ← UInt8.ofNat_uInt32ToNat]
  rw [hbytes, hword]
  simp only [bytesToBits, List.flatMap_cons, List.flatMap_nil, hbyte]
  rfl

theorem toUInt32_shiftLeft (b : UInt8) (sh : UInt32) (hlt : b.toNat * 2 ^ sh.toNat < 2 ^ 32) (hsh : sh.toNat < 32) :
    (b.toUInt32 <<< sh).toNat = b.toNat * 2 ^ sh.toNat := by
  rw [UInt32.toNat_shiftLeft, Nat.mod_eq_of_lt hsh, UInt8.toNat_toUInt32, Nat.shiftLeft_eq, Nat.mod_eq_of_lt hlt]

/-- a word read from four bytes -/
theorem word_of_bytes (b0 b1 b2 b3 : UInt8) :
    ((b0.toUInt32 <<< 24) ||| (b1.toUInt32 <<< 16) ||| (b2.toUInt32 <<< 8) ||| b3.toUInt32).toBitVec =
      BitVec.ofNat 32 (readBits (bytesToBits [b0, b1, b2, b3])) := by
  have h0 := b0.toNat_lt
  have h1 := b1.toNat_lt
  have h2 := b2.toNat_lt
  have h3 := b3.toNat_lt
  have hread : readBits (bytesToBits [b0, b1, b2, b3]) =
      ((b0.toNat * 2 ^ 8 + b1.toNat) * 2 ^ 8 + b2.toNat) * 2 ^ 8 + b3.toNat := by
    simp only [Sha256.readBits_bytes_cons, List.length_cons, List.length_nil]
    have hnil : readBits (bytesToBits []) = 0 := rfl
    rw [hnil]
    ring
  have hcat01 := shiftLeft_or_eq b0.toNat (i := 24) (b := b1.toNat * 2 ^ 16) (by omega)
  have hcat2 := shiftLeft_or_eq (b0.toNat * 2 ^ 8 + b1.toNat) (i := 16) (b := b2.toNat * 2 ^ 8) (by omega)
  have hcat3 := shiftLeft_or_eq ((b0.toNat * 2 ^ 8 + b1.toNat) * 2 ^ 8 + b2.toNat) (i := 8) (b := b3.toNat) h3
  have hjoin1 : b0.toNat * 2 ^ 24 + b1.toNat * 2 ^ 16 = (b0.toNat * 2 ^ 8 + b1.toNat) * 2 ^ 16 := by ring
  have hjoin2 : (b0.toNat * 2 ^ 8 + b1.toNat) * 2 ^ 16 + b2.toNat * 2 ^ 8 =
      ((b0.toNat * 2 ^ 8 + b1.toNat) * 2 ^ 8 + b2.toNat) * 2 ^ 8 := by ring
  apply BitVec.eq_of_toNat_eq
  rw [BitVec.toNat_ofNat, Nat.mod_eq_of_lt (by rw [hread]; omega), hread]
  show UInt32.toNat _ = _
  have h24 : UInt32.toNat 24 = 24 := rfl
  have h16 : UInt32.toNat 16 = 16 := rfl
  have h8 : UInt32.toNat 8 = 8 := rfl
  rw [UInt32.toNat_or, UInt32.toNat_or, UInt32.toNat_or, toUInt32_shiftLeft b0 24 (by rw [h24]; omega) (by decide),
    toUInt32_shiftLeft b1 16 (by rw [h16]; omega) (by decide), toUInt32_shiftLeft b2 8 (by rw [h8]; omega) (by decide),
    UInt8.toNat_toUInt32, h24, h16, h8, hcat01, hjoin1, hcat2, hjoin2, hcat3]

/-! ## Padding -/

theorem bytesToBits_zeros (n : ℕ) : bytesToBits (List.replicate n 0) = List.replicate (8 * n) false := by
  induction n with
  | zero => rfl
  | succ n ih =>
    have hcons : bytesToBits (List.replicate (n + 1) 0) = List.replicate 8 false ++ bytesToBits (List.replicate n 0) :=
      rfl
    rw [hcons, ih, List.replicate_append_replicate, Nat.mul_succ, Nat.add_comm]

/-- **The padding is the standard's at every length.** -/
theorem sha256Pad_bits (bytes : List UInt8) : bytesToBits (sha256Pad bytes) = Sha256.pad (bytesToBits bytes) := by
  have hlen := Sha256.length_bytesToBits bytes
  have hmark : bytesToBits [0x80] = [true] ++ List.replicate 7 false := by decide
  have hzeros : Sha256.zeros (8 * bytes.length) = 7 + 8 * ((64 - (bytes.length + 9) % 64) % 64) :=
    Sha256.zeros_eq (by omega) (by omega)
  unfold sha256Pad Sha256.pad
  simp only [Sha256.bytesToBits_append, hmark, bytesToBits_zeros, lengthBytes_bits, hlen, hzeros,
    ← List.replicate_append_replicate, List.append_assoc, Nat.mul_comm bytes.length 8]

theorem sha256Pad_length (bytes : List UInt8) :
    (Sha256.pad (bytesToBits bytes)).length = 8 * (sha256Pad bytes).length := by
  rw [← sha256Pad_bits, Sha256.length_bytesToBits]

/-! ## Blocks -/

theorem bytesToBits_drop (bytes : List UInt8) (n : ℕ) :
    (bytesToBits bytes).drop (8 * n) = bytesToBits (bytes.drop n) := by
  rcases le_total n bytes.length with hn | hn
  · have hsplit : bytesToBits bytes = bytesToBits (bytes.take n) ++ bytesToBits (bytes.drop n) := by
      rw [← Sha256.bytesToBits_append, List.take_append_drop]
    have htake : (bytesToBits (bytes.take n)).length = 8 * n := by
      rw [Sha256.length_bytesToBits, List.length_take_of_le hn]
    rw [hsplit, ← htake, List.drop_left]
  · rw [List.drop_eq_nil_of_le hn, List.drop_eq_nil_of_le (by rw [Sha256.length_bytesToBits]; omega)]
    rfl

theorem bytesToBits_take (bytes : List UInt8) (n : ℕ) :
    (bytesToBits bytes).take (8 * n) = bytesToBits (bytes.take n) := by
  rcases le_total n bytes.length with hn | hn
  · have hsplit : bytesToBits bytes = bytesToBits (bytes.take n) ++ bytesToBits (bytes.drop n) := by
      rw [← Sha256.bytesToBits_append, List.take_append_drop]
    have htake : (bytesToBits (bytes.take n)).length = 8 * n := by
      rw [Sha256.length_bytesToBits, List.length_take_of_le hn]
    rw [hsplit, ← htake, List.take_left]
  · rw [List.take_of_length_le hn, List.take_of_length_le (by rw [Sha256.length_bytesToBits]; omega)]

theorem take_four {bytes : List UInt8} {n : ℕ} (h : n + 4 ≤ bytes.length) :
    (bytes.drop n).take 4 = [bytes.getD n 0, bytes.getD (n + 1) 0, bytes.getD (n + 2) 0, bytes.getD (n + 3) 0] := by
  apply List.ext_getElem
  · simp
    omega
  · intro i h1 h2
    have hi : i < 4 := by simpa using h2
    interval_cases i <;> simp [List.getD_eq_getElem?_getD, show n < bytes.length by omega,
      show n + 1 < bytes.length by omega, show n + 2 < bytes.length by omega, show n + 3 < bytes.length by omega]

/-- word `j` of block `i`, read from the padded bytes -/
theorem blockWords_spec (buf : List UInt8) {i j : ℕ} (hi : 64 * i + 64 ≤ buf.length) (hj : j < 16) :
    ((sha256BlockWords ((buf.drop (i * 64)).take 64)).getD j 0).toBitVec = Sha256.blockWord (bytesToBits buf) i j := by
  have hget : ∀ k, k < 4 → ((buf.drop (i * 64)).take 64).getD (j * 4 + k) 0 = buf.getD (64 * i + 4 * j + k) 0 := by
    intro k hk
    have hin : j * 4 + k < 64 := by omega
    have hat : i * 64 + (j * 4 + k) = 64 * i + 4 * j + k := by ring
    rw [List.getD_eq_getElem?_getD, List.getD_eq_getElem?_getD, List.getElem?_take_of_lt hin, List.getElem?_drop, hat]
  have hbits : ((bytesToBits buf).drop (512 * i + 32 * j)).take 32 =
      bytesToBits ((buf.drop (64 * i + 4 * j)).take 4) := by
    rw [← bytesToBits_take, ← bytesToBits_drop]
    congr 2
    ring
  have hword : ∀ block : List UInt8, (sha256BlockWords block).getD j 0 =
      ((block.getD (j * 4 + 0) 0).toUInt32 <<< 24) ||| ((block.getD (j * 4 + 1) 0).toUInt32 <<< 16) |||
        ((block.getD (j * 4 + 2) 0).toUInt32 <<< 8) ||| (block.getD (j * 4 + 3) 0).toUInt32 := by
    intro block
    rw [sha256BlockWords, List.getD_eq_getElem?_getD, List.getElem?_map, List.getElem?_range hj]
    rfl
  rw [Sha256.blockWord, hbits, take_four (by omega), ← word_of_bytes, hword, hget 0 (by omega), hget 1 (by omega),
    hget 2 (by omega), hget 3 (by omega)]
  rfl

/-! ## The schedule -/

/-- a rotation by a number of places inside the word -/
theorem rotr_toBitVec (x n : UInt32) (h : n.toNat < 32) (h0 : 0 < n.toNat) :
    (rotr x n).toBitVec = x.toBitVec.rotateRight n.toNat := by
  have hleft : (32 - n).toNat = 32 - n.toNat := by
    rw [UInt32.toNat_sub_of_le _ _ (UInt32.le_iff_toNat_le.2 (by simpa using h.le))]
    rfl
  rw [BitVec.rotateRight_def, Nat.mod_eq_of_lt h, rotr, UInt32.toBitVec_or]
  apply BitVec.eq_of_toNat_eq
  rw [BitVec.toNat_or, BitVec.toNat_or, BitVec.toNat_ushiftRight, BitVec.toNat_shiftLeft]
  show (x >>> n).toNat ||| (x <<< (32 - n)).toNat = _
  rw [UInt32.toNat_shiftRight, UInt32.toNat_shiftLeft, hleft, Nat.mod_eq_of_lt h,
    Nat.mod_eq_of_lt (show 32 - n.toNat < 32 by omega)]
  rfl

/-- one turn of the loop that extends the schedule -/
def extendSchedule (w : List UInt32) (k : ℕ) : List UInt32 :=
  let i := k + 16
  let w15 := w.getD (i - 15) 0
  let w2 := w.getD (i - 2) 0
  let s0 := rotr w15 7 ^^^ rotr w15 18 ^^^ (w15 >>> 3)
  let s1 := rotr w2 17 ^^^ rotr w2 19 ^^^ (w2 >>> 10)
  w ++ [w.getD (i - 16) 0 + s0 + w.getD (i - 7) 0 + s1]

theorem sha256Schedule_eq (block : List UInt8) :
    sha256Schedule block = (List.range 48).foldl extendSchedule (sha256BlockWords block) := rfl

/-- the words of `w` are the first `n` of a function -/
def WordsOf (w : List UInt32) (n : ℕ) (f : ℕ → Sha256.Word) : Prop :=
  w.length = n ∧ ∀ t < n, (w.getD t 0).toBitVec = f t

theorem getD_append_left {w : List UInt32} {x : UInt32} {t : ℕ} (h : t < w.length) :
    (w ++ [x]).getD t 0 = w.getD t 0 := by
  rw [List.getD_eq_getElem?_getD, List.getD_eq_getElem?_getD, List.getElem?_append_left h]

theorem WordsOf.push {w : List UInt32} {n : ℕ} {f : ℕ → Sha256.Word} (h : WordsOf w n f) {x : UInt32}
    (hx : x.toBitVec = f n) : WordsOf (w ++ [x]) (n + 1) f := by
  obtain ⟨hlen, hget⟩ := h
  refine ⟨by rw [List.length_append, hlen, List.length_singleton], fun t ht => ?_⟩
  rcases Nat.lt_succ_iff_lt_or_eq.1 ht with hlt | rfl
  · rw [getD_append_left (by omega), hget t hlt]
  · rw [List.getD_eq_getElem?_getD, ← hlen, List.getElem?_concat_length, Option.getD_some, hx, hlen]

theorem smallSigma0_toBitVec (x : UInt32) :
    (rotr x 7 ^^^ rotr x 18 ^^^ (x >>> 3)).toBitVec = Sha256.smallSigma0 x.toBitVec := by
  rw [UInt32.toBitVec_xor, UInt32.toBitVec_xor, rotr_toBitVec x 7 (by decide) (by decide),
    rotr_toBitVec x 18 (by decide) (by decide)]
  rfl

theorem smallSigma1_toBitVec (x : UInt32) :
    (rotr x 17 ^^^ rotr x 19 ^^^ (x >>> 10)).toBitVec = Sha256.smallSigma1 x.toBitVec := by
  rw [UInt32.toBitVec_xor, UInt32.toBitVec_xor, rotr_toBitVec x 17 (by decide) (by decide),
    rotr_toBitVec x 19 (by decide) (by decide)]
  rfl

/-- a word of the schedule past the block, from the four before it -/
theorem schedule_later (block : ℕ → Sha256.Word) (k : ℕ) : Sha256.schedule block (16 + k) =
    Sha256.smallSigma1 (Sha256.schedule block (14 + k)) + Sha256.schedule block (9 + k) +
      Sha256.smallSigma0 (Sha256.schedule block (1 + k)) + Sha256.schedule block k := by
  rw [Sha256.schedule, if_neg (by omega), show 16 + k - 2 = 14 + k by omega, show 16 + k - 7 = 9 + k by omega,
    show 16 + k - 15 = 1 + k by omega, show 16 + k - 16 = k by omega]

theorem extendSchedule_spec {w : List UInt32} {block : ℕ → Sha256.Word} {k : ℕ}
    (h : WordsOf w (16 + k) (Sha256.schedule block)) :
    WordsOf (extendSchedule w k) (16 + (k + 1)) (Sha256.schedule block) := by
  refine h.push ?_
  rw [schedule_later, UInt32.toBitVec_add, UInt32.toBitVec_add, UInt32.toBitVec_add, smallSigma0_toBitVec,
    smallSigma1_toBitVec, show k + 16 - 15 = 1 + k by omega, show k + 16 - 2 = 14 + k by omega,
    show k + 16 - 16 = k by omega, show k + 16 - 7 = 9 + k by omega, h.2 (1 + k) (by omega), h.2 (14 + k) (by omega),
    h.2 k (by omega), h.2 (9 + k) (by omega)]
  ac_rfl

/-- **The schedule is the standard's**, from the words of the block. -/
theorem sha256Schedule_spec {bytes : List UInt8} {block : ℕ → Sha256.Word}
    (h : ∀ j < 16, ((sha256BlockWords bytes).getD j 0).toBitVec = block j) :
    WordsOf (sha256Schedule bytes) 64 (Sha256.schedule block) := by
  have hstart : WordsOf (sha256BlockWords bytes) 16 (Sha256.schedule block) := by
    refine ⟨by simp [sha256BlockWords], fun t ht => ?_⟩
    rw [h t ht, Sha256.schedule, if_pos ht]
  have hrun : ∀ n, WordsOf ((List.range n).foldl extendSchedule (sha256BlockWords bytes)) (16 + n)
      (Sha256.schedule block) := by
    intro n
    induction n with
    | zero => exact hstart
    | succ n ih =>
      rw [List.range_succ, List.foldl_append]
      exact extendSchedule_spec ih
  rw [sha256Schedule_eq]
  exact hrun 48

/-! ## The rounds -/

def Sha256Vars.toVars (v : Sha256Vars) : Sha256.Vars :=
  ⟨v.a.toBitVec, v.b.toBitVec, v.c.toBitVec, v.d.toBitVec, v.e.toBitVec, v.f.toBitVec, v.g.toBitVec, v.h.toBitVec⟩

theorem sha256K_constants : sha256K.map UInt32.toBitVec = Sha256.constants := by
  rw [Sha256.constants, Sha256.primes_eq]
  decide +kernel

theorem sha256Init_initial : sha256Init.toVars = Sha256.initial := by decide +kernel

theorem sha256Round_step (v : Sha256Vars) (k w : UInt32) :
    (sha256Round v (k, w)).toVars = Sha256.step k.toBitVec w.toBitVec v.toVars := by
  have h1 : ∀ x : UInt32, (rotr x 6 ^^^ rotr x 11 ^^^ rotr x 25).toBitVec = Sha256.bigSigma1 x.toBitVec := by
    intro x
    rw [UInt32.toBitVec_xor, UInt32.toBitVec_xor, rotr_toBitVec x 6 (by decide) (by decide),
      rotr_toBitVec x 11 (by decide) (by decide), rotr_toBitVec x 25 (by decide) (by decide)]
    rfl
  have h0 : ∀ x : UInt32, (rotr x 2 ^^^ rotr x 13 ^^^ rotr x 22).toBitVec = Sha256.bigSigma0 x.toBitVec := by
    intro x
    rw [UInt32.toBitVec_xor, UInt32.toBitVec_xor, rotr_toBitVec x 2 (by decide) (by decide),
      rotr_toBitVec x 13 (by decide) (by decide), rotr_toBitVec x 22 (by decide) (by decide)]
    rfl
  simp only [sha256Round, Sha256Vars.toVars, Sha256.step, Sha256.ch, Sha256.maj, UInt32.toBitVec_add, h0, h1,
    UInt32.toBitVec_xor, UInt32.toBitVec_and, UInt32.toBitVec_not]

/-- the loop over the first `n` constants and schedule words -/
theorem rounds_foldl {ks ws : List UInt32} {block : ℕ → Sha256.Word} (hk : ks.map UInt32.toBitVec = Sha256.constants)
    (hw : WordsOf ws 64 (Sha256.schedule block)) (v : Sha256Vars) (n : ℕ) (hn : n ≤ 64) :
    (((ks.zip ws).take n).foldl sha256Round v).toVars = Sha256.rounds block v.toVars n := by
  have hlen : ks.length = 64 := by
    rw [← List.length_map (f := UInt32.toBitVec), hk, Sha256.constants, Sha256.primes_eq]
    rfl
  induction n with
  | zero => rfl
  | succ n ih =>
    have hkn : n < ks.length := by omega
    have hwn : n < ws.length := by
      rw [hw.1]
      omega
    have hzip : n < (ks.zip ws).length := by
      rw [List.length_zip]
      omega
    have hconst : (ks[n]).toBitVec = Sha256.constants.getD n 0 := by
      rw [← hk, List.getD_eq_getElem?_getD, List.getElem?_map, List.getElem?_eq_getElem hkn]
      rfl
    have hword : (ws[n]).toBitVec = Sha256.schedule block n := by
      rw [← hw.2 n (by omega), List.getD_eq_getElem?_getD, List.getElem?_eq_getElem hwn]
      rfl
    rw [List.take_succ_eq_append_getElem hzip, List.foldl_append, List.getElem_zip, List.foldl_cons, List.foldl_nil,
      sha256Round_step, ih (by omega), hconst, hword]
    rfl

/-- **One block.** -/
theorem sha256Compress_spec (hv : Sha256Vars) {bytes : List UInt8} {block : ℕ → Sha256.Word}
    (h : ∀ j < 16, ((sha256BlockWords bytes).getD j 0).toBitVec = block j) :
    (sha256Compress hv bytes).toVars = Sha256.compress hv.toVars block := by
  have hlenK : sha256K.length = 64 := rfl
  have hsched := sha256Schedule_spec h
  have hall : (sha256K.zip (sha256Schedule bytes)).take 64 = sha256K.zip (sha256Schedule bytes) := by
    apply List.take_of_length_le
    rw [List.length_zip]
    omega
  have hrounds := rounds_foldl sha256K_constants hsched hv 64 le_rfl
  rw [hall] at hrounds
  rw [Sha256.compress, ← hrounds]
  simp only [sha256Compress, Sha256Vars.toVars, UInt32.toBitVec_add, BitVec.add_comm]

/-! ## The digest -/

/-- the hash value after `n` blocks of the padded message -/
theorem blocks_foldl (buf : List UInt8) (n : ℕ) (hn : 64 * n ≤ buf.length) :
    ((List.range n).foldl (fun hv i => sha256Compress hv ((buf.drop (i * 64)).take 64)) sha256Init).toVars =
      Sha256.hashAfter (bytesToBits buf) n := by
  induction n with
  | zero => exact sha256Init_initial
  | succ n ih =>
    rw [List.range_succ, List.foldl_append, List.foldl_cons, List.foldl_nil, Sha256.hashAfter, ← ih (by omega)]
    exact sha256Compress_spec _ fun j hj => blockWords_spec buf (by omega) hj

theorem toVars_bits (v : Sha256Vars) :
    bytesToBits ([v.a, v.b, v.c, v.d, v.e, v.f, v.g, v.h].flatMap wordBytes) = v.toVars.bits := by
  simp only [List.flatMap_cons, List.flatMap_nil, Sha256.bytesToBits_append, wordBytes_bits]
  rfl

/-- **The hash of every byte list is its SHA-256 digest.** -/
theorem sha256Bytes_bits (bytes : List UInt8) : bytesToBits (sha256Bytes bytes) = Sha256.digest (bytesToBits bytes) := by
  have hlen := sha256Pad_length bytes
  have hblocks : (Sha256.pad (bytesToBits bytes)).length / 512 = (sha256Pad bytes).length / 64 := by omega
  rw [Sha256.digest, hblocks, ← sha256Pad_bits, ← blocks_foldl _ _ (by omega), ← toVars_bits]
  rfl

theorem sha256Bytes_length (bytes : List UInt8) : (sha256Bytes bytes).length = 32 := by
  simp [sha256Bytes, wordBytes]

/-- byte `i` of the hash is byte `i` of the digest -/
theorem sha256Bytes_getD (bytes : List UInt8) {i : ℕ} (hi : i < 32) :
    ((sha256Bytes bytes).getD i 0).toNat = Sha256.digestByte (bytesToBits bytes) i := by
  have hlen := sha256Bytes_length bytes
  have hone : ((sha256Bytes bytes).drop i).take 1 = [(sha256Bytes bytes).getD i 0] := by
    rw [List.getD_eq_getElem?_getD, List.getElem?_eq_getElem (by omega), List.drop_eq_getElem_cons (by omega)]
    rfl
  rw [Sha256.digestByte, ← sha256Bytes_bits, bytesToBits_drop, ← Nat.mul_one 8, bytesToBits_take, hone]
  have hflat : bytesToBits [(sha256Bytes bytes).getD i 0] = byteBits ((sha256Bytes bytes).getD i 0) :=
    List.append_nil _
  rw [hflat, Sha256.readBits_byteBits]

/-! ## The seed -/

/-- four bytes read with the least significant first -/
theorem littleEndian_toNat (b0 b1 b2 b3 : UInt8) :
    (b0.toUInt32 ||| (b1.toUInt32 <<< 8) ||| (b2.toUInt32 <<< 16) ||| (b3.toUInt32 <<< 24)).toNat =
      b0.toNat + 2 ^ 8 * b1.toNat + 2 ^ 16 * b2.toNat + 2 ^ 24 * b3.toNat := by
  have h0 := b0.toNat_lt
  have h1 := b1.toNat_lt
  have h2 := b2.toNat_lt
  have h3 := b3.toNat_lt
  have hcat1 := shiftLeft_or_eq b1.toNat (i := 8) h0
  have hcat2 := shiftLeft_or_eq b2.toNat (i := 16) (b := b1.toNat * 2 ^ 8 + b0.toNat) (by omega)
  have hcat3 := shiftLeft_or_eq b3.toNat (i := 24) (b := b2.toNat * 2 ^ 16 + (b1.toNat * 2 ^ 8 + b0.toNat))
    (by omega)
  have h24 : UInt32.toNat 24 = 24 := rfl
  have h16 : UInt32.toNat 16 = 16 := rfl
  have h8 : UInt32.toNat 8 = 8 := rfl
  rw [UInt32.toNat_or, UInt32.toNat_or, UInt32.toNat_or, toUInt32_shiftLeft b1 8 (by rw [h8]; omega) (by decide),
    toUInt32_shiftLeft b2 16 (by rw [h16]; omega) (by decide),
    toUInt32_shiftLeft b3 24 (by rw [h24]; omega) (by decide), UInt8.toNat_toUInt32, h24, h16, h8,
    Nat.or_comm b0.toNat, hcat1, Nat.or_comm _ (b2.toNat * 2 ^ 16), hcat2, Nat.or_comm _ (b3.toNat * 2 ^ 24), hcat3]
  ring

/-- **The seed is SHA-256 of the string's UTF-8.** For every list of code units, paired or not, the seed is the
little-endian number of the first four bytes of the digest of their encoding; a string is hashed through its code units,
whose encoding is the string's own UTF-8. -/
theorem seedFromUnits_digest :
    (∀ units : List UInt16, (seedFromUnits units).toNat =
      Sha256.digestByte (bytesToBits (utf8 units)) 0 + 2 ^ 8 * Sha256.digestByte (bytesToBits (utf8 units)) 1 +
        2 ^ 16 * Sha256.digestByte (bytesToBits (utf8 units)) 2 +
        2 ^ 24 * Sha256.digestByte (bytesToBits (utf8 units)) 3) ∧
    ∀ s : String, seedFromString s = seedFromUnits (utf16 s) ∧ (utf8 (utf16 s)).toByteArray = s.toUTF8 := by
  refine ⟨fun units => ?_, fun s => ⟨rfl, utf8_utf16 s⟩⟩
  have hbyte : ∀ i < 32, ((sha256Bytes (utf8Encode units)).getD i 0).toNat =
      Sha256.digestByte (bytesToBits (utf8 units)) i := by
    intro i hi
    rw [utf8Encode_eq, sha256Bytes_getD _ hi]
  rw [seedFromUnits, littleEndian_toNat, hbyte 0 (by decide), hbyte 1 (by decide), hbyte 2 (by decide),
    hbyte 3 (by decide)]

example : seedFromString "abc" = 0xbf1678ba := by decide +kernel

end Arena.GameCore
