/-
The two grammars of a tombstone: the reason gate of the requeue script, on bytes, and `parseTombstone`, on code units.

Lua finds the colon, matches a pattern, and compares texts of one length for the range; a byte order is taken for the
collation of digits. TypeScript tests a regular expression and converts with `Number`, which rounds to a double; past the
largest double it is `Infinity`, here `none`.

- `IsTombstone`: the texts that a finalization writes with a fence of the range 1 to 2^53 - 1;
- `luaReasonGate_iff`, `parseTombstone_iff`: each implementation accepts exactly these;
- `tombstone_grammars`: so they agree on every string of code units, and what is written is read back.
-/
import Arena.Lib.DigitText
import Arena.Lib.Doubles
import Arena.Lib.Unicode
import Arena.Redis.Lease

namespace Arena.Redis

open Arena.Lib

/-- `Number.MAX_SAFE_INTEGER` -/
def maxSafeInteger : ℕ := 9007199254740991

def Reason.all : List Reason := [.finished, .deadLetter, .cleaned]

/-! ## The script -/

/-- the bytes of a text in the script -/
def luaText (s : String) : List UInt8 := utf8 (utf16 s)

/-- `string.find(s, c, 1, true)`, counted from 1 -/
def luaFind (s : List UInt8) (c : UInt8) : Option ℕ := (s.findIdx? (· = c)).map (· + 1)

/-- `string.sub(s, i, j)` -/
def luaSub (s : List UInt8) (i j : ℕ) : List UInt8 := (s.take j).drop (i - 1)

/-- `a < b` on strings -/
def luaLt (a b : List UInt8) : Prop := a.map UInt8.toNat < b.map UInt8.toNat

instance (a b : List UInt8) : Decidable (luaLt a b) := inferInstanceAs (Decidable (_ < _))

/-- `string.match(s, '^[1-9][0-9]*$')` -/
def luaMatchesFence : List UInt8 → Bool
  | [] => false
  | c :: cs => decide (49 ≤ c ∧ c ≤ 57) && cs.all fun d => decide (48 ≤ d ∧ d ≤ 57)

/-- the reason gate: reason and fence of a tombstone, `none` for INVALID_TOMBSTONE -/
def luaReasonGate (tomb : List UInt8) : Option (Reason × List UInt8) :=
  match luaFind tomb 58 with
  | none => none
  | some sep =>
    if sep = 1 ∨ sep = tomb.length then none
    else
      let reason := luaSub tomb 1 (sep - 1)
      let fenceStr := luaSub tomb (sep + 1) tomb.length
      if !luaMatchesFence fenceStr then none
      else if 16 < fenceStr.length ∨ fenceStr.length = 16 ∧ luaLt (luaText "9007199254740991") fenceStr then none
      else (Reason.all.find? fun r => luaText r.text = reason).map fun r => (r, fenceStr)

/-! ## The store -/

/-- `value.indexOf(c)` -/
def indexOf (value : List UInt16) (c : UInt16) : ℤ :=
  match value.findIdx? (· = c) with
  | some i => i
  | none => -1

def jsSlice (value : List UInt16) (i j : ℕ) : List UInt16 := (value.take j).drop i

/-- `/^[1-9]\d*$/` -/
def fenceRegex : List UInt16 → Bool
  | [] => false
  | c :: cs => decide (49 ≤ c ∧ c ≤ 57) && cs.all fun d => decide (48 ≤ d ∧ d ≤ 57)

/-- `Number` of digits: from half a place past the largest double on it is `Infinity` -/
def jsNumber (raw : List UInt16) : Option ℚ :=
  let value := codeValue (raw.map UInt16.toNat)
  if 2 ^ 1024 - 2 ^ 970 ≤ value then none else some (roundDouble value)

def isSafeInteger : Option ℚ → Bool
  | none => false
  | some n => decide (n.den = 1 ∧ n.num.natAbs ≤ maxSafeInteger)

def isValidFinalizedFence (raw : List UInt16) : Bool :=
  fenceRegex raw && isSafeInteger (jsNumber raw) && (jsNumber raw).all (1 ≤ ·)

/-- `none` is null -/
def parseTombstone (value : List UInt16) : Option (Reason × ℚ) :=
  let sep := indexOf value 58
  if sep ≤ 0 ∨ sep = value.length - 1 then none
  else
    let reason := jsSlice value 0 sep.toNat
    let fenceStr := jsSlice value (sep.toNat + 1) value.length
    match Reason.all.find? fun r => utf16 r.text = reason with
    | none => none
    | some r => if !isValidFinalizedFence fenceStr then none else (jsNumber fenceStr).map fun n => (r, n)

/-! ## What a finalization writes -/

def reasonCodes (r : Reason) : List ℕ := r.text.toList.map Char.toNat

/-- the codes of `<reason>:<fence>` -/
def tombstoneCodes (r : Reason) (n : ℕ) : List ℕ := reasonCodes r ++ 58 :: digitCodes n

structure IsTombstone (codes : List ℕ) (r : Reason) (n : ℕ) : Prop where
  pos : 1 ≤ n
  safe : n ≤ maxSafeInteger
  text : codes = tombstoneCodes r n

theorem not_mem_reasonCodes (r : Reason) : 58 ∉ reasonCodes r := by cases r <;> decide

theorem reasonCodes_ne_nil (r : Reason) : reasonCodes r ≠ [] := by cases r <;> decide

theorem reasonCodes_injective : Function.Injective reasonCodes := by
  intro r r' h
  cases r <;> cases r' <;> first | rfl | exact absurd h (by decide)

theorem luaText_reason (r : Reason) : (luaText r.text).map UInt8.toNat = reasonCodes r := by cases r <;> decide

theorem utf16_reason (r : Reason) : (utf16 r.text).map UInt16.toNat = reasonCodes r := by cases r <;> decide

/-- a reason is found by its text, whatever texts are made of -/
theorem find_reason {γ : Type} [DecidableEq γ] (text : Reason → γ) (codes : γ → List ℕ)
    (hcodes : Function.Injective codes) (htext : ∀ r, codes (text r) = reasonCodes r) (x : γ) (r : Reason) :
    (Reason.all.find? fun r => text r = x) = some r ↔ codes x = reasonCodes r := by
  constructor
  · intro h
    have hr : text r = x := by simpa using List.find?_some h
    rw [← hr, htext]
  · intro h
    have hall : r ∈ Reason.all := by cases r <;> decide
    have hr : text r = x := hcodes ((htext r).trans h.symm)
    rcases hfind : Reason.all.find? (fun r => text r = x) with _ | r'
    · exact absurd (List.find?_eq_none.1 hfind r hall) (by simpa using hr)
    · have hr' : text r' = x := by simpa using List.find?_some hfind
      have hsame : reasonCodes r' = reasonCodes r := by rw [← htext r', hr', h]
      rw [reasonCodes_injective hsame]

/-! ## Fences -/

/-- the range guard on texts is the one on values -/
theorem range_guard {cs : List ℕ} (h : IsNumeral cs) :
    ¬(16 < cs.length ∨ cs.length = 16 ∧ digitCodes maxSafeInteger < cs) ↔ codeValue cs ≤ maxSafeInteger := by
  have htext := (numeral_iff.1 h).2
  have h15 : cs.length ≤ 15 ↔ codeValue cs < 10 ^ 15 := by
    conv_lhs => rw [htext]
    exact length_digitCodes_le (by decide)
  have h16 : cs.length ≤ 16 ↔ codeValue cs < 10 ^ 16 := by
    conv_lhs => rw [htext]
    exact length_digitCodes_le (by decide)
  have hmax : codeValue (digitCodes maxSafeInteger) = maxSafeInteger := (digitCodes_value (by decide)).1
  have hlex : cs.length = 16 → (digitCodes maxSafeInteger < cs ↔ maxSafeInteger < codeValue cs) := fun hlen => by
    rw [lex_iff_value (digitCodes_digits _) h.digits (by rw [hlen]; decide), hmax]
  simp only [maxSafeInteger] at hlex ⊢
  constructor
  · intro hguard
    rw [not_or, not_and] at hguard
    by_cases hlen : cs.length = 16
    · exact Nat.le_of_not_lt fun hlt => hguard.2 hlen ((hlex hlen).2 hlt)
    · have := h15.1 (by omega)
      omega
  · rintro hle (hlong | ⟨hlen, hlt⟩)
    · have := mt h16.2 (by omega)
      omega
    · exact absurd ((hlex hlen).1 hlt) (by omega)

theorem luaMatchesFence_iff (f : List UInt8) : luaMatchesFence f = true ↔ IsNumeral (f.map UInt8.toNat) := by
  cases f with
  | nil => exact ⟨fun h => by simp [luaMatchesFence] at h, fun h => absurd h not_isNumeral_nil⟩
  | cons c cs =>
    rw [List.map_cons, isNumeral_cons, List.forall_mem_map]
    simp only [luaMatchesFence, Bool.and_eq_true, decide_eq_true_eq, List.all_eq_true, UInt8.le_iff_toNat_le]
    exact Iff.rfl

theorem fenceRegex_iff (f : List UInt16) : fenceRegex f = true ↔ IsNumeral (f.map UInt16.toNat) := by
  cases f with
  | nil => exact ⟨fun h => by simp [fenceRegex] at h, fun h => absurd h not_isNumeral_nil⟩
  | cons c cs =>
    rw [List.map_cons, isNumeral_cons, List.forall_mem_map]
    simp only [fenceRegex, Bool.and_eq_true, decide_eq_true_eq, List.all_eq_true, UInt16.le_iff_toNat_le]
    exact Iff.rfl

/-- the numerals in range, by value -/
theorem numeral_in_range {cs : List ℕ} : IsNumeral cs ∧ codeValue cs ≤ maxSafeInteger ↔
    ∃ n, 1 ≤ n ∧ n ≤ maxSafeInteger ∧ cs = digitCodes n := by
  constructor
  · rintro ⟨h, hle⟩
    exact ⟨codeValue cs, (numeral_iff.1 h).1, hle, (numeral_iff.1 h).2⟩
  · rintro ⟨n, hpos, hle, rfl⟩
    exact ⟨isNumeral_digitCodes hpos, by rwa [(digitCodes_value hpos).1]⟩

/-- whole numbers below 2^53 are doubles, and the others round to no smaller one -/
theorem roundDouble_safe {n : ℕ} (h : n ≤ maxSafeInteger) : roundDouble n = n := by
  refine roundDouble_exact (Nat.cast_nonneg n) ⟨n, 0, ?_, by decide, by simp⟩
  rw [abs_of_nonneg (Int.natCast_nonneg n)]
  exact_mod_cast Nat.lt_succ_of_le h

theorem le_roundDouble {n : ℕ} (h : maxSafeInteger < n) : ((maxSafeInteger + 1 : ℕ) : ℚ) ≤ roundDouble n := by
  have hnear := (nearest_roundDouble (Nat.cast_nonneg (α := ℚ) n)).2 ((maxSafeInteger + 1 : ℕ) : ℚ)
    ⟨1, 53, by decide, by decide, by norm_num [maxSafeInteger]⟩
  have hle : ((maxSafeInteger + 1 : ℕ) : ℚ) ≤ n := by exact_mod_cast h
  rw [abs_sub_comm _ (n : ℚ), abs_sub_comm _ (n : ℚ), abs_of_nonneg (by linarith : (0 : ℚ) ≤ n - (maxSafeInteger + 1 : ℕ))]
    at hnear
  linarith [(abs_le.1 hnear).2]

theorem isSafeInteger_natCast (n : ℕ) : isSafeInteger (some (n : ℚ)) = true ↔ n ≤ maxSafeInteger := by
  simp [isSafeInteger]

theorem jsNumber_safe {raw : List UInt16} (h : codeValue (raw.map UInt16.toNat) ≤ maxSafeInteger) :
    jsNumber raw = some (codeValue (raw.map UInt16.toNat) : ℚ) := by
  have hbound : maxSafeInteger < 2 ^ 1024 - 2 ^ 970 := by decide +kernel
  rw [jsNumber, if_neg (by omega), roundDouble_safe h]

theorem jsNumber_beyond {raw : List UInt16} (h : maxSafeInteger < codeValue (raw.map UInt16.toNat)) :
    isSafeInteger (jsNumber raw) = false := by
  unfold jsNumber
  dsimp only
  split_ifs
  · rfl
  · rw [Bool.eq_false_iff]
    intro hsafe
    simp only [isSafeInteger, decide_eq_true_eq] at hsafe
    obtain ⟨hden, hnum⟩ := hsafe
    have hle := le_roundDouble h
    rw [← Rat.coe_int_num_of_den_eq_one hden] at hle
    have hle' : ((maxSafeInteger + 1 : ℕ) : ℤ) ≤ (roundDouble (codeValue (raw.map UInt16.toNat))).num := by
      exact_mod_cast hle
    omega

/-- the fences that the store accepts, and what `Number` makes of them -/
theorem isValidFinalizedFence_iff (raw : List UInt16) : isValidFinalizedFence raw = true ↔
    ∃ n, 1 ≤ n ∧ n ≤ maxSafeInteger ∧ raw.map UInt16.toNat = digitCodes n := by
  rw [← numeral_in_range, isValidFinalizedFence, Bool.and_eq_true, Bool.and_eq_true, fenceRegex_iff, and_assoc]
  refine and_congr_right fun hnum => ?_
  by_cases hle : codeValue (raw.map UInt16.toNat) ≤ maxSafeInteger
  · have hpos : (1 : ℚ) ≤ codeValue (raw.map UInt16.toNat) := by exact_mod_cast (numeral_iff.1 hnum).1
    rw [jsNumber_safe hle, isSafeInteger_natCast]
    simp [hle, hpos]
  · rw [jsNumber_beyond (Nat.lt_of_not_le hle)]
    simp [hle]

/-! ## Texts split at the first colon -/

theorem luaReasonGate_split {reason fenceStr : List UInt8} (h : 58 ∉ reason) :
    luaReasonGate (reason ++ 58 :: fenceStr) =
      if reason = [] ∨ fenceStr = [] then none
      else if !luaMatchesFence fenceStr then none
      else if 16 < fenceStr.length ∨ fenceStr.length = 16 ∧ luaLt (luaText "9007199254740991") fenceStr then none
      else (Reason.all.find? fun r => luaText r.text = reason).map fun r => (r, fenceStr) := by
  have hfind : luaFind (reason ++ 58 :: fenceStr) 58 = some (reason.length + 1) := by
    rw [luaFind, findIdx?_append_cons h, Option.map_some]
  have hends : (reason.length + 1 = 1 ∨ reason.length + 1 = (reason ++ 58 :: fenceStr).length) ↔
      (reason = [] ∨ fenceStr = []) := by
    rw [← List.length_eq_zero_iff, ← List.length_eq_zero_iff (l := fenceStr), List.length_append, List.length_cons]
    omega
  have hreason : luaSub (reason ++ 58 :: fenceStr) 1 (reason.length + 1 - 1) = reason := by
    simp [luaSub]
  have hfence : luaSub (reason ++ 58 :: fenceStr) (reason.length + 1 + 1) (reason ++ 58 :: fenceStr).length =
      fenceStr := by
    rw [luaSub, List.take_length, Nat.add_sub_cancel]
    exact List.drop_length_add_append 1
  rw [luaReasonGate, hfind]
  simp only [hends, hreason, hfence]

theorem parseTombstone_split {reason fenceStr : List UInt16} (h : 58 ∉ reason) :
    parseTombstone (reason ++ 58 :: fenceStr) =
      if reason = [] ∨ fenceStr = [] then none
      else
        match Reason.all.find? fun r => utf16 r.text = reason with
        | none => none
        | some r => if !isValidFinalizedFence fenceStr then none else (jsNumber fenceStr).map fun n => (r, n) := by
  have hfind : indexOf (reason ++ 58 :: fenceStr) 58 = reason.length := by
    rw [indexOf, findIdx?_append_cons h]
  have hends : ((reason.length : ℤ) ≤ 0 ∨ (reason.length : ℤ) = ((reason ++ 58 :: fenceStr).length : ℤ) - 1) ↔
      (reason = [] ∨ fenceStr = []) := by
    rw [← List.length_eq_zero_iff, ← List.length_eq_zero_iff (l := fenceStr), List.length_append, List.length_cons]
    push_cast
    omega
  have hreason : jsSlice (reason ++ 58 :: fenceStr) 0 reason.length = reason := by
    simp [jsSlice]
  have hfence : jsSlice (reason ++ 58 :: fenceStr) (reason.length + 1) (reason ++ 58 :: fenceStr).length = fenceStr := by
    rw [jsSlice, List.take_length]
    exact List.drop_length_add_append 1
  rw [parseTombstone, hfind]
  simp only [hends, Int.toNat_natCast, hreason, hfence]

/-- a text without a colon, and one split at its first colon -/
theorem codes_split {α : Type} (code : α → ℕ) (hcode : Function.Injective code) (c : α) (hc : code c = 58) {l : List α}
    {r : Reason} {n : ℕ} (h : l.map code = tombstoneCodes r n) :
    ∃ reason fenceStr, l = reason ++ c :: fenceStr ∧ c ∉ reason ∧ reason.map code = reasonCodes r ∧
      fenceStr.map code = digitCodes n := by
  obtain ⟨reason, rest, rfl, hreason, hrest⟩ := List.map_eq_append_iff.1 h
  obtain ⟨d, fenceStr, rfl, hd, hfence⟩ := List.map_eq_cons_iff.1 hrest
  obtain rfl : d = c := hcode (hd.trans hc.symm)
  refine ⟨reason, fenceStr, rfl, fun hin => ?_, hreason, hfence⟩
  refine not_mem_reasonCodes r ?_
  rw [← hreason, ← hc]
  exact List.mem_map_of_mem hin

/-- **The script's grammar.** -/
theorem luaReasonGate_iff (tomb : List UInt8) (r : Reason) (fenceStr : List UInt8) :
    luaReasonGate tomb = some (r, fenceStr) ↔
      ∃ n, IsTombstone (tomb.map UInt8.toNat) r n ∧ fenceStr.map UInt8.toNat = digitCodes n := by
  have hinj : Function.Injective (List.map UInt8.toNat) := List.map_injective_iff.2 fun x y h => UInt8.toNat.inj h
  have hmax : (luaText "9007199254740991").map UInt8.toNat = digitCodes maxSafeInteger := by decide +kernel
  have hfence : ∀ f : List UInt8, luaMatchesFence f = true ∧
      ¬(16 < f.length ∨ f.length = 16 ∧ luaLt (luaText "9007199254740991") f) ↔
        ∃ n, 1 ≤ n ∧ n ≤ maxSafeInteger ∧ f.map UInt8.toNat = digitCodes n := by
    intro f
    rw [← numeral_in_range, luaMatchesFence_iff]
    refine and_congr_right fun hnum => ?_
    rw [← range_guard hnum, List.length_map, luaLt, hmax]
  constructor
  · intro h
    rcases hfind : luaFind tomb 58 with _ | sep
    · simp [luaReasonGate, hfind] at h
    · obtain ⟨i, hi, rfl⟩ := Option.map_eq_some_iff.1 hfind
      obtain ⟨reason, fence, rfl, hnot, rfl⟩ := findIdx?_split hi
      rw [luaReasonGate_split hnot] at h
      split_ifs at h with hends hmatch hrange
      obtain ⟨r', hr', hpair⟩ := Option.map_eq_some_iff.1 h
      obtain ⟨rfl, rfl⟩ := Prod.mk.inj hpair
      have hreason := (find_reason (fun r => luaText r.text) _ hinj luaText_reason reason r').1 hr'
      obtain ⟨n, hpos, hle, htext⟩ := (hfence fence).1 ⟨by simpa using hmatch, hrange⟩
      refine ⟨n, ⟨hpos, hle, ?_⟩, htext⟩
      rw [List.map_append, List.map_cons, hreason, htext]
      rfl
  · rintro ⟨n, ⟨hpos, hle, htext⟩, hf⟩
    obtain ⟨reason, fence, rfl, hnot, hreason, hfenceText⟩ :=
      codes_split UInt8.toNat (fun x y h => UInt8.toNat.inj h) 58 rfl htext
    obtain rfl : fenceStr = fence := hinj (hf.trans hfenceText.symm)
    obtain ⟨hmatch, hrange⟩ := (hfence fenceStr).2 ⟨n, hpos, hle, hf⟩
    have hne : ¬(reason = [] ∨ fenceStr = []) := by
      rintro (rfl | rfl)
      · exact reasonCodes_ne_nil r hreason.symm
      · simp [luaMatchesFence] at hmatch
    have hfound := (find_reason (fun r => luaText r.text) _ hinj luaText_reason reason r).2 hreason
    rw [luaReasonGate_split hnot, if_neg hne, if_neg (by simp [hmatch]), if_neg hrange, hfound, Option.map_some]

/-- **The store's grammar.** -/
theorem parseTombstone_iff (value : List UInt16) (r : Reason) (q : ℚ) :
    parseTombstone value = some (r, q) ↔ ∃ n : ℕ, IsTombstone (value.map UInt16.toNat) r n ∧ q = n := by
  have hinj : Function.Injective (List.map UInt16.toNat) := List.map_injective_iff.2 fun x y h => UInt16.toNat.inj h
  have hnumber : ∀ {f : List UInt16} {n : ℕ}, 1 ≤ n → n ≤ maxSafeInteger → f.map UInt16.toNat = digitCodes n →
      jsNumber f = some (n : ℚ) := by
    intro f n hpos hle htext
    have hval : codeValue (f.map UInt16.toNat) = n := by rw [htext, (digitCodes_value hpos).1]
    rw [jsNumber_safe (by rwa [hval]), hval]
  constructor
  · intro h
    rcases hfind : value.findIdx? (· = 58) with _ | i
    · simp [parseTombstone, indexOf, hfind] at h
    · obtain ⟨reason, fence, rfl, hnot, -⟩ := findIdx?_split hfind
      rw [parseTombstone_split hnot] at h
      by_cases hends : reason = [] ∨ fence = []
      · rw [if_pos hends] at h
        cases h
      rw [if_neg hends] at h
      rcases hr : Reason.all.find? (fun r => utf16 r.text = reason) with _ | r'
      · rw [hr] at h
        cases h
      · rw [hr] at h
        dsimp only at h
        split_ifs at h with hvalid
        obtain ⟨n, hpos, hle, htext⟩ := (isValidFinalizedFence_iff fence).1 (by simpa using hvalid)
        rw [hnumber hpos hle htext, Option.map_some, Option.some_inj] at h
        obtain ⟨rfl, rfl⟩ := Prod.mk.inj h
        have hreason := (find_reason (fun r => utf16 r.text) _ hinj utf16_reason reason r').1 hr
        refine ⟨n, ⟨hpos, hle, ?_⟩, rfl⟩
        rw [List.map_append, List.map_cons, hreason, htext]
        rfl
  · rintro ⟨n, ⟨hpos, hle, htext⟩, rfl⟩
    obtain ⟨reason, fence, rfl, hnot, hreason, hfence⟩ :=
      codes_split UInt16.toNat (fun x y h => UInt16.toNat.inj h) 58 rfl htext
    have hvalid := (isValidFinalizedFence_iff fence).2 ⟨n, hpos, hle, hfence⟩
    have hne : ¬(reason = [] ∨ fence = []) := by
      rintro (rfl | rfl)
      · exact reasonCodes_ne_nil r hreason.symm
      · simp [isValidFinalizedFence, fenceRegex] at hvalid
    have hfound := (find_reason (fun r => utf16 r.text) _ hinj utf16_reason reason r).2 hreason
    rw [parseTombstone_split hnot, if_neg hne, hfound]
    simp [hvalid, hnumber hpos hle hfence]

/-! ## Agreement -/

theorem IsTombstone.ascii {codes : List ℕ} {r : Reason} {n : ℕ} (h : IsTombstone codes r n) : ∀ c ∈ codes, c < 128 := by
  intro c hc
  rw [h.text, tombstoneCodes, List.mem_append, List.mem_cons] at hc
  have hreason : ∀ r : Reason, ∀ d ∈ reasonCodes r, d < 128 := by
    intro r
    cases r <;> decide
  rcases hc with hc | rfl | hc
  · exact hreason r c hc
  · decide
  · have := (digitCodes_digits n c hc).2
    omega

/-- a tombstone in code units is one in bytes -/
theorem isTombstone_utf8 (value : List UInt16) (r : Reason) (n : ℕ) :
    IsTombstone ((utf8 value).map UInt8.toNat) r n ↔ IsTombstone (value.map UInt16.toNat) r n := by
  constructor
  · intro h
    exact ⟨h.pos, h.safe, (utf8_ascii_iff (fun c hc => h.ascii c (h.text ▸ hc)) value).1 h.text⟩
  · intro h
    exact ⟨h.pos, h.safe, (utf8_ascii_iff (fun c hc => h.ascii c (h.text ▸ hc)) value).2 h.text⟩

/-- the fence that a text of digits stands for -/
def fenceOf (fenceStr : List UInt8) : ℕ := codeValue (fenceStr.map UInt8.toNat)

/-- **The two grammars agree**, on acceptance, reason and fence. -/
theorem tombstone_grammars (value : List UInt16) :
    parseTombstone value = (luaReasonGate (utf8 value)).map fun g => (g.1, (fenceOf g.2 : ℚ)) := by
  refine Option.ext fun p => ?_
  obtain ⟨r, q⟩ := p
  rw [parseTombstone_iff, Option.map_eq_some_iff]
  constructor
  · rintro ⟨n, h, rfl⟩
    have hbytes := (isTombstone_utf8 value r n).2 h
    obtain ⟨reason, fenceStr, -, -, -, hfence⟩ :=
      codes_split UInt8.toNat (fun x y h => UInt8.toNat.inj h) 58 rfl hbytes.text
    refine ⟨(r, fenceStr), (luaReasonGate_iff _ _ _).2 ⟨n, hbytes, hfence⟩, ?_⟩
    rw [fenceOf, hfence, (digitCodes_value h.pos).1]
  · rintro ⟨⟨r', fenceStr⟩, hgate, hpair⟩
    obtain ⟨rfl, rfl⟩ := Prod.mk.inj hpair
    obtain ⟨n, h, hfence⟩ := (luaReasonGate_iff _ _ _).1 hgate
    refine ⟨n, (isTombstone_utf8 value r' n).1 h, ?_⟩
    rw [fenceOf, hfence, (digitCodes_value h.pos).1]

/-- **Round trip.** What a finalization writes is read back. -/
theorem parse_format (r : Reason) {n : ℕ} (hpos : 1 ≤ n) (hsafe : n ≤ maxSafeInteger) :
    parseTombstone (utf16 (joinColon r.text (decimal n))) = some (r, (n : ℚ)) := by
  have htext : (joinColon r.text (decimal n)).toList.map Char.toNat = tombstoneCodes r n := by
    rw [toList_joinColon, List.map_append, List.map_cons]
    rfl
  have h : IsTombstone (tombstoneCodes r n) r n := ⟨hpos, hsafe, rfl⟩
  exact (parseTombstone_iff _ _ _).2 ⟨n, ⟨hpos, hsafe, (utf16_ascii_iff h.ascii _).2 htext⟩, rfl⟩

/-! ## The reason gate on characters -/

theorem toNat_lt_iff (a b : List Char) : a < b ↔ a.map Char.toNat < b.map Char.toNat := by
  induction a generalizing b with
  | nil => cases b <;> simp
  | cons c a ih =>
    cases b with
    | nil => simp
    | cons d b =>
      have hcd : c = d ↔ c.toNat = d.toNat := ⟨fun h => by rw [h], Char.toNat_inj.1⟩
      rw [List.map_cons, List.map_cons, List.cons_lt_cons_iff, List.cons_lt_cons_iff, ih, hcd]
      exact Iff.rfl

theorem validFinalizedFence_iff (f : List Char) : Keys.validFinalizedFence f = true ↔
    ∃ n, 1 ≤ n ∧ n ≤ maxSafeInteger ∧ f.map Char.toNat = digitCodes n := by
  rw [← numeral_in_range]
  cases f with
  | nil => exact ⟨fun h => by simp [Keys.validFinalizedFence] at h, fun h => absurd h.1 not_isNumeral_nil⟩
  | cons c cs =>
    have hnum : (c ≠ '0' ∧ (c :: cs).all Char.isDigit = true) ↔ IsNumeral ((c :: cs).map Char.toNat) := by
      rw [List.map_cons, isNumeral_cons, List.forall_mem_map, List.all_cons, Bool.and_eq_true, List.all_eq_true]
      have hdigit : ∀ d : Char, d.isDigit = true ↔ 48 ≤ d.toNat ∧ d.toNat ≤ 57 := fun d => by
        rw [Char.isDigit, Bool.and_eq_true, decide_eq_true_eq, decide_eq_true_eq]
        exact Iff.rfl
      have hzero : c ≠ '0' ↔ c.toNat ≠ 48 := not_congr ⟨fun h => by rw [h]; rfl, fun h => Char.toNat_inj.1 h⟩
      simp only [hdigit, hzero]
      constructor
      · rintro ⟨hne, hc, hcs⟩
        exact ⟨by omega, hcs⟩
      · rintro ⟨hc, hcs⟩
        exact ⟨by omega, by omega, hcs⟩
    have hmax : "9007199254740991".toList.map Char.toNat = digitCodes maxSafeInteger := by decide +kernel
    have hlt : "9007199254740991" < String.ofList (c :: cs) ↔
        digitCodes maxSafeInteger < (c :: cs).map Char.toNat := by
      rw [String.lt_iff, toNat_lt_iff, hmax, String.toList_ofList]
    simp only [Keys.validFinalizedFence, Bool.and_eq_true, decide_eq_true_eq, Bool.not_eq_true', hlt]
    rw [hnum, and_assoc]
    refine and_congr_right fun h => ?_
    rw [← range_guard h, List.length_map]
    simp only [Bool.and_eq_false_iff, decide_eq_false_iff_not, not_or, not_and_or]
    rw [Nat.not_lt]

/-- the reason that the keys' model reads is that of the two grammars -/
theorem tombstoneReason_iff (t : String) (r : Reason) :
    Keys.tombstoneReason t = some r ↔ ∃ n, IsTombstone (t.toList.map Char.toNat) r n := by
  have hinj : Function.Injective (List.map Char.toNat) := List.map_injective_iff.2 fun x y h => Char.toNat_inj.1 h
  have hfind := find_reason (fun r => r.text.toList) _ hinj fun _ => rfl
  constructor
  · intro h
    have hsplit := List.takeWhile_append_dropWhile (p := (· ≠ ':')) (l := t.toList)
    unfold Keys.tombstoneReason at h
    rcases hdrop : t.toList.dropWhile (· ≠ ':') with _ | ⟨c, fenceStr⟩
    · rw [hdrop] at h
      cases h
    · rw [hdrop] at h
      dsimp only at h
      split_ifs at h with hends hvalid
      obtain ⟨n, hpos, hle, htext⟩ := (validFinalizedFence_iff fenceStr).1 (by simpa using hvalid)
      have hcolon : c = ':' := by
        have := List.head?_dropWhile_not (· ≠ ':') t.toList
        rw [hdrop] at this
        simpa using this
      refine ⟨n, hpos, hle, ?_⟩
      rw [← hsplit, hdrop, hcolon, List.map_append, List.map_cons, (hfind _ r).1 h, htext]
      rfl
  · rintro ⟨n, hpos, hle, htext⟩
    obtain ⟨reason, fenceStr, hlist, hnot, hreason, hfence⟩ :=
      codes_split Char.toNat (fun x y h => Char.toNat_inj.1 h) ':' rfl htext
    have hne : ∀ a ∈ reason, decide (a ≠ ':') = true := fun a ha => by
      rw [decide_eq_true_eq]
      rintro rfl
      exact hnot ha
    have htake : t.toList.takeWhile (· ≠ ':') = reason := by
      rw [hlist, List.takeWhile_append_of_pos hne]
      simp
    have hdrop : t.toList.dropWhile (· ≠ ':') = ':' :: fenceStr := by
      rw [hlist, List.dropWhile_append_of_pos hne]
      simp
    have hvalid := (validFinalizedFence_iff fenceStr).2 ⟨n, hpos, hle, hfence⟩
    have hends : ¬(reason = [] ∨ fenceStr = []) := by
      rintro (rfl | rfl)
      · exact reasonCodes_ne_nil r hreason.symm
      · simp [Keys.validFinalizedFence] at hvalid
    unfold Keys.tombstoneReason
    rw [hdrop, htake]
    dsimp only
    rw [if_neg hends, if_neg (by simp [hvalid])]
    exact (hfind reason r).2 hreason

/-- so a tombstone's reason is the one that the store parses -/
theorem tombstoneReason_parse (t : String) (r : Reason) :
    Keys.tombstoneReason t = some r ↔ ∃ n : ℕ, parseTombstone (utf16 t) = some (r, (n : ℚ)) := by
  rw [tombstoneReason_iff]
  constructor
  · rintro ⟨n, h⟩
    exact ⟨n, (parseTombstone_iff _ _ _).2 ⟨n, ⟨h.pos, h.safe, (utf16_ascii_iff (fun c hc => h.ascii c (h.text ▸ hc)) t).2
      h.text⟩, rfl⟩⟩
  · rintro ⟨_, hparse⟩
    obtain ⟨n, h, -⟩ := (parseTombstone_iff _ _ _).1 hparse
    exact ⟨n, h.pos, h.safe, (utf16_ascii_iff (fun c hc => h.ascii c (h.text ▸ hc)) t).1 h.text⟩

end Arena.Redis
