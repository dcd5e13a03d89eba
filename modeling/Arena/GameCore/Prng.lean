/-
The deterministic random source of game-core (`prng.ts`): the FNV-1a hash of the tie-break, the in-house SHA-256 seed
derivation, and mulberry32.

Words are `UInt32`, so every `>>> 0`, `Math.imul` and `| 0` of the source is the arithmetic of the type. Strings are
read through their UTF-16 code units, as `charCodeAt` does. A generator is its 32-bit state; a draw returns the output
word and the next state, and the float of the source is that word over 2^32 (`unitFloat`).

The generator's state advances by an odd constant, so it runs through all 2^32 states: `state_reaches` says that from
any state every state is met within one period. The sampling loop of the card engine terminates by it.
-/
import Arena.Lib.JsArray

namespace Arena.GameCore

open Arena.Lib

/-! ## FNV-1a -/

def hashStringToSeed (s : String) : UInt32 :=
  (utf16 s).foldl (fun hash c => (hash ^^^ c.toUInt32) * 0x01000193) 0x811c9dc5

/-! ## SHA-256 -/

def sha256K : List UInt32 :=
  [0x428a2f98, 0x71374491, 0xb5c0fbcf, 0xe9b5dba5, 0x3956c25b, 0x59f111f1, 0x923f82a4, 0xab1c5ed5,
    0xd807aa98, 0x12835b01, 0x243185be, 0x550c7dc3, 0x72be5d74, 0x80deb1fe, 0x9bdc06a7, 0xc19bf174,
    0xe49b69c1, 0xefbe4786, 0x0fc19dc6, 0x240ca1cc, 0x2de92c6f, 0x4a7484aa, 0x5cb0a9dc, 0x76f988da,
    0x983e5152, 0xa831c66d, 0xb00327c8, 0xbf597fc7, 0xc6e00bf3, 0xd5a79147, 0x06ca6351, 0x14292967,
    0x27b70a85, 0x2e1b2138, 0x4d2c6dfc, 0x53380d13, 0x650a7354, 0x766a0abb, 0x81c2c92e, 0x92722c85,
    0xa2bfe8a1, 0xa81a664b, 0xc24b8b70, 0xc76c51a3, 0xd192e819, 0xd6990624, 0xf40e3585, 0x106aa070,
    0x19a4c116, 0x1e376c08, 0x2748774c, 0x34b0bcb5, 0x391c0cb3, 0x4ed8aa4a, 0x5b9cca4f, 0x682e6ff3,
    0x748f82ee, 0x78a5636f, 0x84c87814, 0x8cc70208, 0x90befffa, 0xa4506ceb, 0xbef9a3f7, 0xc67178f2]

/-- U+FFFD in UTF-8 -/
def replacementBytes : List UInt8 := [0xef, 0xbf, 0xbd]

def isHighSurrogate (c : UInt16) : Bool := 0xd800 ≤ c && c < 0xdc00

def isLowSurrogate (c : UInt16) : Bool := 0xdc00 ≤ c && c < 0xe000

/-- `utf8Encode` over code units; a lone surrogate becomes U+FFFD -/
def utf8Encode : List UInt16 → List UInt8
  | [] => []
  | c :: rest =>
    let n := c.toNat
    if n < 0x80 then UInt8.ofNat n :: utf8Encode rest
    else if n < 0x800 then UInt8.ofNat (0xc0 ||| (n >>> 6)) :: UInt8.ofNat (0x80 ||| (n &&& 0x3f)) :: utf8Encode rest
    else if isHighSurrogate c then
      match rest with
      | c2 :: rest' =>
        if isLowSurrogate c2 then
          let p := 0x10000 + (((n &&& 0x3ff) <<< 10) ||| (c2.toNat &&& 0x3ff))
          UInt8.ofNat (0xf0 ||| (p >>> 18)) :: UInt8.ofNat (0x80 ||| ((p >>> 12) &&& 0x3f)) ::
            UInt8.ofNat (0x80 ||| ((p >>> 6) &&& 0x3f)) :: UInt8.ofNat (0x80 ||| (p &&& 0x3f)) :: utf8Encode rest'
        else replacementBytes ++ utf8Encode (c2 :: rest')
      | [] => replacementBytes
    else if isLowSurrogate c then replacementBytes ++ utf8Encode rest
    else UInt8.ofNat (0xe0 ||| (n >>> 12)) :: UInt8.ofNat (0x80 ||| ((n >>> 6) &&& 0x3f)) ::
      UInt8.ofNat (0x80 ||| (n &&& 0x3f)) :: utf8Encode rest

def rotr (x n : UInt32) : UInt32 := (x >>> n) ||| (x <<< (32 - n))

/-- the padded message: message, 0x80, zeros, 64-bit big-endian bit length -/
def sha256Pad (bytes : List UInt8) : List UInt8 :=
  let len := bytes.length
  let padLen := (64 - ((len + 9) % 64)) % 64
  let bitLen := len * 8
  bytes ++ [(0x80 : UInt8)] ++ List.replicate padLen (0 : UInt8) ++
    [56, 48, 40, 32, 24, 16, 8, 0].map (fun sh => UInt8.ofNat ((bitLen >>> sh) &&& 0xff))

/-- the first 16 schedule words: big-endian 32-bit words of the block -/
def sha256BlockWords (block : List UInt8) : List UInt32 :=
  (List.range 16).map fun i =>
    let b := fun k => (block.getD (i * 4 + k) 0).toUInt32
    (b 0 <<< 24) ||| (b 1 <<< 16) ||| (b 2 <<< 8) ||| b 3

/-- the schedule extended to 64 words -/
def sha256Schedule (block : List UInt8) : List UInt32 :=
  (List.range 48).foldl (fun w k =>
    let i := k + 16
    let w15 := w.getD (i - 15) 0
    let w2 := w.getD (i - 2) 0
    let s0 := rotr w15 7 ^^^ rotr w15 18 ^^^ (w15 >>> 3)
    let s1 := rotr w2 17 ^^^ rotr w2 19 ^^^ (w2 >>> 10)
    w ++ [w.getD (i - 16) 0 + s0 + w.getD (i - 7) 0 + s1]) (sha256BlockWords block)

/-- the eight working variables -/
structure Sha256Vars where
  a : UInt32
  b : UInt32
  c : UInt32
  d : UInt32
  e : UInt32
  f : UInt32
  g : UInt32
  h : UInt32
deriving DecidableEq, Repr

def sha256Init : Sha256Vars :=
  ⟨0x6a09e667, 0xbb67ae85, 0x3c6ef372, 0xa54ff53a, 0x510e527f, 0x9b05688c, 0x1f83d9ab, 0x5be0cd19⟩

def sha256Round (v : Sha256Vars) (kw : UInt32 × UInt32) : Sha256Vars :=
  let s1 := rotr v.e 6 ^^^ rotr v.e 11 ^^^ rotr v.e 25
  let ch := (v.e &&& v.f) ^^^ (~~~v.e &&& v.g)
  let t1 := v.h + s1 + ch + kw.1 + kw.2
  let s0 := rotr v.a 2 ^^^ rotr v.a 13 ^^^ rotr v.a 22
  let maj := (v.a &&& v.b) ^^^ (v.a &&& v.c) ^^^ (v.b &&& v.c)
  let t2 := s0 + maj
  ⟨t1 + t2, v.a, v.b, v.c, v.d + t1, v.e, v.f, v.g⟩

def sha256Compress (hv : Sha256Vars) (block : List UInt8) : Sha256Vars :=
  let v := (sha256K.zip (sha256Schedule block)).foldl sha256Round hv
  ⟨hv.a + v.a, hv.b + v.b, hv.c + v.c, hv.d + v.d, hv.e + v.e, hv.f + v.f, hv.g + v.g, hv.h + v.h⟩

def wordBytes (w : UInt32) : List UInt8 :=
  [(w >>> 24).toUInt8, (w >>> 16).toUInt8, (w >>> 8).toUInt8, w.toUInt8]

def sha256Bytes (bytes : List UInt8) : List UInt8 :=
  let buf := sha256Pad bytes
  let hv := (List.range (buf.length / 64)).foldl
    (fun hv i => sha256Compress hv ((buf.drop (i * 64)).take 64)) sha256Init
  [hv.a, hv.b, hv.c, hv.d, hv.e, hv.f, hv.g, hv.h].flatMap wordBytes

/-- the little-endian word of the first four digest bytes -/
def seedFromUnits (units : List UInt16) : UInt32 :=
  let bytes := sha256Bytes (utf8Encode units)
  let b := fun k => (bytes.getD k 0).toUInt32
  b 0 ||| (b 1 <<< 8) ||| (b 2 <<< 16) ||| (b 3 <<< 24)

def seedFromString (s : String) : UInt32 := seedFromUnits (utf16 s)

def deriveSubstream (parentSeed label : String) : UInt32 := seedFromString (parentSeed ++ "|" ++ label)

/-! ## mulberry32 -/

def mulberry32Step : UInt32 := 0x6d2b79f5

/-- the output word computed from an advanced state -/
def mulberry32Out (a : UInt32) : UInt32 :=
  let t := (a ^^^ (a >>> 15)) * (a ||| 1)
  let t := t ^^^ (t + (t ^^^ (t >>> 7)) * (t ||| 61))
  t ^^^ (t >>> 14)

/-- one call of the generator: the output word and the next state -/
def mulberry32 (a : UInt32) : UInt32 × UInt32 := (mulberry32Out (a + mulberry32Step), a + mulberry32Step)

/-- the float of an output word, in [0, 1) -/
def unitFloat (w : UInt32) : ℚ := (w.toNat : ℚ) / 4294967296

/-- draw one word for each element of a list, in order -/
def drawEach {α : Type} (a : UInt32) : List α → List (α × ℚ)
  | [] => []
  | x :: xs => (x, unitFloat (mulberry32 a).1) :: drawEach (mulberry32 a).2 xs

theorem unitFloat_lt_one (w : UInt32) : unitFloat w < 1 := by
  have h : (w.toNat : ℚ) < 4294967296 := by exact_mod_cast w.toNat_lt
  unfold unitFloat
  rw [div_lt_one (by norm_num)]
  exact h

theorem unitFloat_nonneg (w : UInt32) : 0 ≤ unitFloat w := by
  unfold unitFloat
  positivity

/-- the state after `n` calls -/
def stateAfter (a : UInt32) (n : ℕ) : UInt32 := a + UInt32.ofNat n * mulberry32Step

theorem stateAfter_zero (a : UInt32) : stateAfter a 0 = a := by simp [stateAfter]

theorem stateAfter_succ (a : UInt32) (n : ℕ) : stateAfter (a + mulberry32Step) n = stateAfter a (n + 1) := by
  have h1 : UInt32.ofNat (n + 1) = UInt32.ofNat n + 1 := by rw [UInt32.ofNat_add]; rfl
  simp only [stateAfter, h1, UInt32.add_mul, UInt32.one_mul]
  rw [UInt32.add_assoc, UInt32.add_comm mulberry32Step]

/-- the inverse of the step constant modulo 2^32 -/
def mulberry32Inv : UInt32 := 0xdc58aa5d

/-- **Full period.** From any state every state is reached after at least one and at most 2^32 calls. -/
theorem state_reaches (a g : UInt32) : ∃ n, n < 4294967296 ∧ stateAfter a (n + 1) = g := by
  set k : UInt32 := (g - a) * mulberry32Inv - 1
  refine ⟨k.toNat, k.toNat_lt, ?_⟩
  have hinv : mulberry32Inv * mulberry32Step = 1 := by decide
  have hk : UInt32.ofNat (k.toNat + 1) = (g - a) * mulberry32Inv := by
    have h1 : UInt32.ofNat (k.toNat + 1) = k + 1 := by rw [UInt32.ofNat_add, UInt32.ofNat_toNat]; rfl
    rw [h1]
    exact UInt32.sub_add_cancel _ _
  unfold stateAfter
  rw [hk, UInt32.mul_assoc, hinv, UInt32.mul_one, UInt32.add_comm]
  exact UInt32.sub_add_cancel _ _

end Arena.GameCore
