/-
SHA-256 over bit strings, as FIPS 180-4 states it.

Words are 32-bit vectors and messages are lists of bits, most significant first. The constants are not listed: they are
the first 32 bits of the fractional parts of the cube roots of the first 64 primes, and the initial hash value those of
the square roots of the first eight (`fractionWord`, `fractionWord_root`). The padding takes the least number of zeros
that makes the length fit.

- `pad_length`: the padded message is whole blocks;
- `fractionWord_root`: a constant is the fraction it is named for;
- `readBits_bytes`: the number that bytes write, most significant first.
-/
import Mathlib.Data.Nat.Find
import Mathlib.Data.Nat.Prime.Basic
import Mathlib.Tactic

namespace Arena.Lib.Sha256

abbrev Word := BitVec 32

/-! ## Bits and bytes -/

/-- the number a bit string writes -/
def readBits (bits : List Bool) : ℕ := bits.foldl (fun n b => 2 * n + b.toNat) 0

/-- the bits of a word -/
def wordBits {w : ℕ} (x : BitVec w) : List Bool := (List.range w).map x.getMsbD

def byteBits (b : UInt8) : List Bool := wordBits b.toBitVec

def bytesToBits (bytes : List UInt8) : List Bool := bytes.flatMap byteBits

/-! ## Functions -/

def ch (x y z : Word) : Word := (x &&& y) ^^^ (~~~x &&& z)

def maj (x y z : Word) : Word := (x &&& y) ^^^ (x &&& z) ^^^ (y &&& z)

def bigSigma0 (x : Word) : Word := x.rotateRight 2 ^^^ x.rotateRight 13 ^^^ x.rotateRight 22

def bigSigma1 (x : Word) : Word := x.rotateRight 6 ^^^ x.rotateRight 11 ^^^ x.rotateRight 25

def smallSigma0 (x : Word) : Word := x.rotateRight 7 ^^^ x.rotateRight 18 ^^^ (x >>> 3)

def smallSigma1 (x : Word) : Word := x.rotateRight 17 ^^^ x.rotateRight 19 ^^^ (x >>> 10)

/-! ## Constants -/

/-- the last `k` bits of the integer part of the `d`-th root of `n`, above the bits already found -/
def rootBits (d n : ℕ) : ℕ → ℕ → ℕ
  | 0, r => r
  | k + 1, r => rootBits d n k (if (r + 2 ^ k) ^ d ≤ n then r + 2 ^ k else r)

/-- the integer part of the `d`-th root of `p`, scaled by 2^32; four bits before the point are enough here -/
def scaledRoot (d p : ℕ) : ℕ := rootBits d (p * 2 ^ (32 * d)) 36 0

/-- the first 32 bits of the fractional part of the `d`-th root of `p` -/
def fractionWord (d p : ℕ) : Word := BitVec.ofNat 32 (scaledRoot d p)

/-- the primes below 312 -/
def primes : List ℕ := (List.range 312).filter fun n => 2 ≤ n && (List.range n).all fun m => n % m != 0 || m == 1

/-- `K` -/
def constants : List Word := primes.map (fractionWord 3)

/-- the eight working variables, or the eight words of a hash value -/
structure Vars where
  a : Word
  b : Word
  c : Word
  d : Word
  e : Word
  f : Word
  g : Word
  h : Word
deriving DecidableEq, Repr

/-- the initial hash value -/
def initial : Vars :=
  ⟨fractionWord 2 2, fractionWord 2 3, fractionWord 2 5, fractionWord 2 7, fractionWord 2 11, fractionWord 2 13,
    fractionWord 2 17, fractionWord 2 19⟩

/-! ## Padding -/

theorem zeros_exist (l : ℕ) : ∃ k, (l + 1 + k) % 512 = 448 := ⟨448 + 512 * (l + 1) - (l + 1), by omega⟩

/-- the least number of zero bits that leaves room for the length in the last block -/
def zeros (l : ℕ) : ℕ := Nat.find (zeros_exist l)

def pad (m : List Bool) : List Bool :=
  m ++ [true] ++ List.replicate (zeros m.length) false ++ wordBits (BitVec.ofNat 64 m.length)

/-! ## Computation -/

/-- word `j` of block `i` -/
def blockWord (p : List Bool) (i j : ℕ) : Word := BitVec.ofNat 32 (readBits ((p.drop (512 * i + 32 * j)).take 32))

/-- the message schedule -/
def schedule (block : ℕ → Word) (t : ℕ) : Word :=
  if t < 16 then block t
  else smallSigma1 (schedule block (t - 2)) + schedule block (t - 7) + smallSigma0 (schedule block (t - 15)) +
    schedule block (t - 16)
termination_by t
decreasing_by all_goals omega

def step (k w : Word) (v : Vars) : Vars :=
  let t1 := v.h + bigSigma1 v.e + ch v.e v.f v.g + k + w
  let t2 := bigSigma0 v.a + maj v.a v.b v.c
  ⟨t1 + t2, v.a, v.b, v.c, v.d + t1, v.e, v.f, v.g⟩

/-- the working variables after `t` steps -/
def rounds (block : ℕ → Word) (v : Vars) : ℕ → Vars
  | 0 => v
  | t + 1 => step (constants.getD t 0) (schedule block t) (rounds block v t)

/-- the intermediate hash value after a block -/
def compress (v : Vars) (block : ℕ → Word) : Vars :=
  let w := rounds block v 64
  ⟨w.a + v.a, w.b + v.b, w.c + v.c, w.d + v.d, w.e + v.e, w.f + v.f, w.g + v.g, w.h + v.h⟩

/-- the hash value after `i` blocks of a padded message -/
def hashAfter (p : List Bool) : ℕ → Vars
  | 0 => initial
  | i + 1 => compress (hashAfter p i) (blockWord p i)

def Vars.bits (v : Vars) : List Bool := [v.a, v.b, v.c, v.d, v.e, v.f, v.g, v.h].flatMap wordBits

/-- the digest of a message -/
def digest (m : List Bool) : List Bool := (hashAfter (pad m) ((pad m).length / 512)).bits

/-- byte `i` of the digest -/
def digestByte (m : List Bool) (i : ℕ) : ℕ := readBits (((digest m).drop (8 * i)).take 8)

/-! ## Reading bits -/

theorem length_wordBits {w : ℕ} (x : BitVec w) : (wordBits x).length = w := by simp [wordBits]

theorem length_byteBits (b : UInt8) : (byteBits b).length = 8 := length_wordBits _

theorem length_bytesToBits (bytes : List UInt8) : (bytesToBits bytes).length = 8 * bytes.length := by
  induction bytes with
  | nil => rfl
  | cons b bytes ih =>
    have hcons : bytesToBits (b :: bytes) = byteBits b ++ bytesToBits bytes := rfl
    rw [hcons, List.length_append, ih, length_byteBits, List.length_cons]
    ring

theorem bytesToBits_append (a b : List UInt8) : bytesToBits (a ++ b) = bytesToBits a ++ bytesToBits b :=
  List.flatMap_append

theorem readBits_foldl (bits : List Bool) (n : ℕ) :
    bits.foldl (fun n b => 2 * n + b.toNat) n = n * 2 ^ bits.length + readBits bits := by
  unfold readBits
  induction bits generalizing n with
  | nil => simp
  | cons b bits ih =>
    rw [List.foldl_cons, List.foldl_cons, ih, ih (2 * 0 + b.toNat), List.length_cons, pow_succ]
    ring

theorem readBits_append (a b : List Bool) : readBits (a ++ b) = readBits a * 2 ^ b.length + readBits b := by
  conv_lhs => rw [readBits, List.foldl_append, readBits_foldl]
  rfl

/-- a byte is the number its bits write -/
theorem readBits_byteBits (b : UInt8) : readBits (byteBits b) = b.toNat := by
  have hall : ∀ n : Fin 256, readBits (byteBits (UInt8.ofNat n)) = n := by decide +kernel
  have hb := hall ⟨b.toNat, b.toNat_lt⟩
  rwa [UInt8.ofNat_toNat] at hb

theorem readBits_bytes_cons (b : UInt8) (bytes : List UInt8) :
    readBits (bytesToBits (b :: bytes)) = b.toNat * 256 ^ bytes.length + readBits (bytesToBits bytes) := by
  have hcons : bytesToBits (b :: bytes) = byteBits b ++ bytesToBits bytes := rfl
  rw [hcons, readBits_append, readBits_byteBits, length_bytesToBits, pow_mul]
  norm_num

/-! ## Roots -/

/-- the digits found keep the root between them and one more in the last place -/
theorem rootBits_spec {d n k r : ℕ} (hlow : r ^ d ≤ n) (hhigh : n < (r + 2 ^ k) ^ d) :
    rootBits d n k r ^ d ≤ n ∧ n < (rootBits d n k r + 1) ^ d := by
  induction k generalizing r with
  | zero => exact ⟨hlow, by simpa [rootBits] using hhigh⟩
  | succ k ih =>
    rw [rootBits]
    split_ifs with hbit
    · refine ih hbit ?_
      rwa [add_assoc, ← two_mul, ← pow_succ']
    · exact ih hlow (not_le.1 hbit)

/-- **A constant is the fraction it is named for.** -/
theorem fractionWord_root {d p : ℕ} (hd : 0 < d) (hp : p < 2 ^ (4 * d)) :
    scaledRoot d p ^ d ≤ p * 2 ^ (32 * d) ∧ p * 2 ^ (32 * d) < (scaledRoot d p + 1) ^ d := by
  refine rootBits_spec (by rw [zero_pow hd.ne']; exact Nat.zero_le _) ?_
  calc p * 2 ^ (32 * d) < 2 ^ (4 * d) * 2 ^ (32 * d) := by gcongr
    _ = (0 + 2 ^ 36) ^ d := by rw [zero_add, ← pow_add, ← pow_mul]; congr 1; ring

theorem mem_primes {n : ℕ} : n ∈ primes ↔ n < 312 ∧ n.Prime := by
  rw [Nat.prime_def_lt]
  simp [primes, Nat.dvd_iff_mod_eq_zero, imp_iff_not_or]

theorem primes_eq : primes = [2, 3, 5, 7, 11, 13, 17, 19, 23, 29, 31, 37, 41, 43, 47, 53, 59, 61, 67, 71, 73, 79, 83,
    89, 97, 101, 103, 107, 109, 113, 127, 131, 137, 139, 149, 151, 157, 163, 167, 173, 179, 181, 191, 193, 197, 199,
    211, 223, 227, 229, 233, 239, 241, 251, 257, 263, 269, 271, 277, 281, 283, 293, 307, 311] := by
  decide +kernel

/-! ## Padding -/

theorem zeros_spec (l : ℕ) : (l + 1 + zeros l) % 512 = 448 := Nat.find_spec (zeros_exist l)

/-- the only solution below one block -/
theorem zeros_eq {l k : ℕ} (hk : k < 512) (h : (l + 1 + k) % 512 = 448) : zeros l = k := by
  have hspec := zeros_spec l
  have hle : zeros l ≤ k := Nat.find_min' (zeros_exist l) h
  omega

theorem pad_length (m : List Bool) : 512 ∣ (pad m).length := by
  have hspec := zeros_spec m.length
  simp only [pad, List.length_append, List.length_singleton, List.length_replicate, length_wordBits]
  omega

end Arena.Lib.Sha256
