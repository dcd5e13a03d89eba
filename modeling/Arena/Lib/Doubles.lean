/-
Doubles as rationals: which numbers are doubles, and what rounding to nearest does to a product.

`IsDouble` leaves out infinities and the greatest exponent, so the format is that of binary64 below its overflow.
`Nearest x r` says that `r` is a double no farther from `x` than any other, and `roundDouble` computes one, ties to even.

- `nearest_roundDouble`: the rounding is to a nearest double;
- `product_lt`: a double in [0, 1) times a positive whole number rounds below the number, whatever the number is;
- `roundDouble_exact`: a double is left alone.
-/
import Mathlib.Algebra.Order.Floor.Ring
import Mathlib.Algebra.Order.Round
import Mathlib.Data.Int.Log
import Mathlib.Data.Rat.Floor
import Mathlib.Tactic

namespace Arena.Lib

/-! ## The format -/

def significandBits : ℕ := 53

def leastExponent : ℤ := -1074

def IsDouble (x : ℚ) : Prop := ∃ m e : ℤ, |m| < 2 ^ significandBits ∧ leastExponent ≤ e ∧ x = m * 2 ^ e

/-- `r` is `x` rounded to a nearest double -/
def Nearest (x r : ℚ) : Prop := IsDouble r ∧ ∀ y, IsDouble y → |r - x| ≤ |y - x|

theorem isDouble_zero : IsDouble 0 := ⟨0, 0, by decide, by decide, by simp⟩

/-- a double is its own rounding -/
theorem Nearest.eq {x r : ℚ} (h : Nearest x r) (hx : IsDouble x) : r = x := by
  have hdist := h.2 x hx
  rw [sub_self, abs_zero] at hdist
  exact sub_eq_zero.1 (abs_nonpos_iff.1 hdist)

theorem Nearest.nonneg {x r : ℚ} (h : Nearest x r) (hx : 0 ≤ x) : 0 ≤ r := by
  by_contra hr
  rw [not_le] at hr
  have hdist := h.2 0 isDouble_zero
  rw [zero_sub, abs_neg, abs_of_nonneg hx, abs_of_neg (by linarith)] at hdist
  linarith

/-- a double nearer to `x` than `n`, from below, keeps the rounding below `n` -/
theorem Nearest.lt_of_nearer {x r y n : ℚ} (h : Nearest x r) (hy : IsDouble y) (hx : x < n) (hnear : |y - x| < n - x) :
    r < n := by
  by_contra hr
  rw [not_lt] at hr
  have hdist := h.2 y hy
  rw [abs_of_pos (by linarith : 0 < r - x)] at hdist
  linarith

theorem isDouble_ratio {a k : ℕ} (ha : a < 2 ^ 53) (hk : k ≤ 1074) : IsDouble (a / 2 ^ k) := by
  refine ⟨a, -k, ?_, ?_, ?_⟩
  · rw [abs_of_nonneg (Int.natCast_nonneg a)]
    exact_mod_cast ha
  · have : leastExponent = -1074 := rfl
    omega
  · rw [zpow_neg, zpow_natCast, div_eq_mul_inv]
    rfl

/-! ## Rounding -/

/-- the nearest whole number, a half to the even one -/
def roundEven (z : ℚ) : ℤ :=
  if z - ⌊z⌋ < 1 / 2 then ⌊z⌋ else if 1 / 2 < z - ⌊z⌋ then ⌊z⌋ + 1 else if Even ⌊z⌋ then ⌊z⌋ else ⌊z⌋ + 1

/-- the exponent of the last place of the doubles around a positive number -/
def placeExponent (x : ℚ) : ℤ := max (Int.log 2 x - 52) leastExponent

/-- a number from zero up rounded to a double -/
def roundDouble (x : ℚ) : ℚ := if x ≤ 0 then 0 else roundEven (x / 2 ^ placeExponent x) * 2 ^ placeExponent x

theorem roundEven_dist (z : ℚ) : |(roundEven z : ℚ) - z| ≤ 1 / 2 := by
  have hfloor := Int.floor_le z
  have hlt := Int.lt_floor_add_one z
  unfold roundEven
  split_ifs <;> push_cast <;> rw [abs_le] <;> constructor <;> linarith

/-- no whole number is nearer -/
theorem roundEven_nearest (z : ℚ) (m : ℤ) : |(roundEven z : ℚ) - z| ≤ |(m : ℚ) - z| := by
  rcases eq_or_ne m (roundEven z) with rfl | hne
  · exact le_rfl
  · have hhalf := roundEven_dist z
    have hone : (1 : ℚ) ≤ |(m : ℚ) - roundEven z| := by
      have : (1 : ℤ) ≤ |m - roundEven z| := Int.one_le_abs (sub_ne_zero.2 hne)
      exact_mod_cast this
    have htri : |(m : ℚ) - roundEven z| ≤ |(m : ℚ) - z| + |(roundEven z : ℚ) - z| := by
      rw [abs_sub_comm (roundEven z : ℚ) z]
      exact abs_sub_le _ _ _
    linarith

theorem roundEven_le {z : ℚ} {m : ℤ} (h : z ≤ m) : roundEven z ≤ m := by
  have hnear := roundEven_nearest z m
  rw [abs_of_nonneg (by linarith : (0 : ℚ) ≤ m - z)] at hnear
  have hle := (abs_le.1 hnear).2
  exact_mod_cast (by linarith : (roundEven z : ℚ) ≤ m)

theorem le_roundEven {z : ℚ} {m : ℤ} (h : m ≤ z) : m ≤ roundEven z := by
  have hnear := roundEven_nearest z m
  rw [abs_of_nonpos (by linarith : (m : ℚ) - z ≤ 0)] at hnear
  have hle := (abs_le.1 hnear).1
  exact_mod_cast (by linarith : (m : ℚ) ≤ roundEven z)

/-- a multiple of a place with at most 53 bits -/
theorem isDouble_multiple {m e : ℤ} (h0 : 0 ≤ m) (hm : m ≤ 2 ^ 53) (he : leastExponent ≤ e) : IsDouble (m * 2 ^ e) := by
  rcases lt_or_eq_of_le hm with hlt | rfl
  · exact ⟨m, e, by rwa [abs_of_nonneg h0], he, rfl⟩
  · -- one bit too many is the next exponent
    refine ⟨2 ^ 52, e + 1, by decide, by omega, ?_⟩
    rw [zpow_add_one₀ two_ne_zero]
    push_cast
    ring

section Place

variable {x : ℚ}

theorem placed_lt : x / 2 ^ placeExponent x < 2 ^ 53 := by
  rw [div_lt_iff₀ (by positivity)]
  have hlog : x < 2 ^ (Int.log 2 x + 1) := Int.lt_zpow_succ_log_self one_lt_two x
  calc x < 2 ^ (Int.log 2 x + 1) := hlog
    _ ≤ 2 ^ (53 + placeExponent x) := by
      refine zpow_le_zpow_right₀ (by norm_num) ?_
      unfold placeExponent
      omega
    _ = 2 ^ 53 * 2 ^ placeExponent x := by
      rw [zpow_add₀ two_ne_zero]
      norm_num

theorem isDouble_roundDouble (x : ℚ) : IsDouble (roundDouble x) := by
  unfold roundDouble
  split_ifs with h
  · exact isDouble_zero
  · rw [not_le] at h
    refine isDouble_multiple (le_roundEven ?_) (roundEven_le ?_) (le_max_right _ _)
    · rw [Int.cast_zero]
      positivity
    · push_cast
      exact placed_lt.le

/-- multiples of the place of `x` are no nearer to `x` than its rounding -/
theorem roundDouble_multiple (h : 0 < x) (m : ℤ) : |roundDouble x - x| ≤ |m * 2 ^ placeExponent x - x| := by
  have hpos : (0 : ℚ) < 2 ^ placeExponent x := by positivity
  have hscale : ∀ k : ℤ, |(k : ℚ) * 2 ^ placeExponent x - x| =
      |(k : ℚ) - x / 2 ^ placeExponent x| * 2 ^ placeExponent x := by
    intro k
    have hfactor : (k : ℚ) * 2 ^ placeExponent x - x = (k - x / 2 ^ placeExponent x) * 2 ^ placeExponent x := by
      field_simp
    rw [hfactor, abs_mul, abs_of_pos hpos]
  rw [roundDouble, if_neg (not_le.2 h), hscale, hscale]
  exact mul_le_mul_of_nonneg_right (roundEven_nearest _ m) hpos.le

/-- **Rounding is to a nearest double.** -/
theorem nearest_roundDouble (h : 0 ≤ x) : Nearest x (roundDouble x) := by
  refine ⟨isDouble_roundDouble x, ?_⟩
  rintro y ⟨m, e, hm, he, rfl⟩
  rcases h.eq_or_lt with rfl | hx
  · rw [roundDouble, if_pos le_rfl, sub_self, abs_zero]
    exact abs_nonneg _
  · by_cases hplace : placeExponent x ≤ e
    · obtain ⟨k, hk⟩ := Int.le.dest hplace
      have hmul : (m : ℚ) * 2 ^ e = ((m * 2 ^ k : ℤ) : ℚ) * 2 ^ placeExponent x := by
        rw [← hk, zpow_add₀ two_ne_zero, zpow_natCast]
        push_cast
        ring
      rw [hmul]
      exact roundDouble_multiple hx _
    · -- a finer double stays below the power of two under `x`
      have hexp : placeExponent x = Int.log 2 x - 52 := by
        unfold placeExponent at hplace ⊢
        omega
      have hpower : (2 : ℚ) ^ Int.log 2 x ≤ x := Int.zpow_log_le_self one_lt_two hx
      have hbelow : (m : ℚ) * 2 ^ e ≤ 2 ^ Int.log 2 x := by
        have hmlt : (m : ℚ) ≤ 2 ^ (53 : ℤ) := by exact_mod_cast (lt_of_le_of_lt (le_abs_self m) hm).le
        calc (m : ℚ) * 2 ^ e ≤ 2 ^ (53 : ℤ) * 2 ^ e := by gcongr
          _ = 2 ^ (53 + e) := (zpow_add₀ two_ne_zero _ _).symm
          _ ≤ 2 ^ Int.log 2 x := zpow_le_zpow_right₀ (by norm_num) (by omega)
      have hmultiple : (2 : ℚ) ^ Int.log 2 x = ((2 ^ 52 : ℤ) : ℚ) * 2 ^ placeExponent x := by
        rw [hexp, zpow_sub₀ two_ne_zero]
        norm_num
        ring
      calc |roundDouble x - x| ≤ |((2 ^ 52 : ℤ) : ℚ) * 2 ^ placeExponent x - x| := roundDouble_multiple hx _
        _ = |2 ^ Int.log 2 x - x| := by rw [hmultiple]
        _ ≤ |(m : ℚ) * 2 ^ e - x| := by
          rw [abs_of_nonpos (by linarith), abs_of_nonpos (by linarith)]
          linarith

end Place

theorem roundDouble_exact {x : ℚ} (h0 : 0 ≤ x) (h : IsDouble x) : roundDouble x = x := (nearest_roundDouble h0).eq h

/-! ## Doubles below one -/

/-- the greatest double below one is one less its last place -/
theorem IsDouble.le_pred_one {u : ℚ} (h : IsDouble u) (h1 : u < 1) : u ≤ 1 - 2 ^ (-53 : ℤ) := by
  obtain ⟨m, e, hm, -, rfl⟩ := h
  have hpos : (0 : ℚ) < 2 ^ e := by positivity
  have hlast : (2 : ℚ) ^ (-53 : ℤ) ≤ 1 / 2 := by norm_num
  rcases le_or_gt (-53) e with he | he
  · -- the significand is a whole number below 2 ^ (-e)
    obtain ⟨k, rfl⟩ : ∃ k : ℕ, e = k - 53 := ⟨(e + 53).toNat, by omega⟩
    have hscale : (2 : ℚ) ^ ((k : ℤ) - 53) = 2 ^ (k : ℤ) * 2 ^ (-53 : ℤ) := by
      rw [← zpow_add₀ two_ne_zero, sub_eq_add_neg]
    have hlt : m * 2 ^ k < (2 ^ 53 : ℤ) := by
      have : (m : ℚ) * 2 ^ (k : ℤ) < 2 ^ (53 : ℕ) := by
        rw [hscale, ← mul_assoc] at h1
        norm_num at h1 ⊢
        linarith
      exact_mod_cast this
    have hle : (m : ℚ) * 2 ^ (k : ℤ) ≤ 2 ^ (53 : ℕ) - 1 := by exact_mod_cast Int.le_sub_one_of_lt hlt
    rw [hscale, ← mul_assoc]
    calc (m : ℚ) * 2 ^ (k : ℤ) * 2 ^ (-53 : ℤ) ≤ (2 ^ (53 : ℕ) - 1) * 2 ^ (-53 : ℤ) := by gcongr
      _ = 1 - 2 ^ (-53 : ℤ) := by norm_num
  · have hmlt : (m : ℚ) ≤ 2 ^ (53 : ℕ) := by exact_mod_cast (lt_of_le_of_lt (le_abs_self m) hm).le
    have hsmall : (2 : ℚ) ^ e ≤ 2 ^ (-54 : ℤ) := zpow_le_zpow_right₀ (by norm_num) (by omega)
    calc (m : ℚ) * 2 ^ e ≤ 2 ^ (53 : ℕ) * 2 ^ (-54 : ℤ) := by gcongr
      _ = 1 / 2 := by norm_num
      _ ≤ 1 - 2 ^ (-53 : ℤ) := by linarith

/-! ## Products -/

/-- the unit in the last place of a positive whole number -/
def lastPlace (n : ℕ) : ℚ := 2 ^ ((Nat.log 2 n : ℤ) - 52)

theorem lastPlace_pos (n : ℕ) : 0 < lastPlace n := by unfold lastPlace; positivity

theorem lastPlace_scale (n : ℕ) (c : ℤ) : lastPlace n * 2 ^ c = 2 ^ ((Nat.log 2 n : ℤ) - 52 + c) :=
  (zpow_add₀ two_ne_zero _ _).symm

/-- the greatest multiple of the last place of `n` below `n` -/
def predMultiple (n : ℕ) : ℚ := ((⌈(n : ℚ) / lastPlace n⌉ - 1 : ℤ) : ℚ) * lastPlace n

theorem predMultiple_lt (n : ℕ) : predMultiple n < n := by
  have hlt : ((⌈(n : ℚ) / lastPlace n⌉ - 1 : ℤ) : ℚ) < n / lastPlace n := by
    push_cast
    linarith [Int.ceil_lt_add_one ((n : ℚ) / lastPlace n)]
  exact (lt_div_iff₀ (lastPlace_pos n)).1 hlt

theorem le_predMultiple_add (n : ℕ) : n ≤ predMultiple n + lastPlace n := by
  have hle := (div_le_iff₀ (lastPlace_pos n)).1 (Int.le_ceil ((n : ℚ) / lastPlace n))
  have heq : predMultiple n + lastPlace n = (⌈(n : ℚ) / lastPlace n⌉ : ℚ) * lastPlace n := by
    unfold predMultiple
    push_cast
    ring
  rw [heq]
  exact hle

theorem isDouble_predMultiple {n : ℕ} (hn : 0 < n) : IsDouble (predMultiple n) := by
  refine ⟨⌈(n : ℚ) / lastPlace n⌉ - 1, (Nat.log 2 n : ℤ) - 52, ?_, ?_, rfl⟩
  · have hpos : 0 < ⌈(n : ℚ) / lastPlace n⌉ :=
      Int.ceil_pos.2 (div_pos (by exact_mod_cast hn) (lastPlace_pos n))
    have hlt : (n : ℚ) / lastPlace n ≤ ((2 ^ 53 : ℤ) : ℚ) := by
      rw [div_le_iff₀ (lastPlace_pos n)]
      have hlog : (n : ℚ) ≤ 2 ^ ((Nat.log 2 n : ℤ) + 1) := by
        exact_mod_cast (Nat.lt_pow_succ_log_self one_lt_two n).le
      calc (n : ℚ) ≤ 2 ^ ((Nat.log 2 n : ℤ) + 1) := hlog
        _ = lastPlace n * 2 ^ (53 : ℤ) := by rw [lastPlace_scale]; congr 1; ring
        _ = ((2 ^ 53 : ℤ) : ℚ) * lastPlace n := by rw [mul_comm]; norm_num
    have hceil := Int.ceil_le.2 hlt
    have hexp : (2 : ℤ) ^ significandBits = 2 ^ 53 := rfl
    rw [hexp, abs_of_nonneg (by omega)]
    omega
  · have : leastExponent = -1074 := rfl
    omega

/-- half a last place is what the greatest double below one leaves of `n` -/
theorem half_lastPlace_le {n : ℕ} (hn : 0 < n) : lastPlace n / 2 ≤ n * 2 ^ (-53 : ℤ) := by
  have hlog : (2 : ℚ) ^ (Nat.log 2 n : ℤ) ≤ n := by exact_mod_cast Nat.pow_log_le_self 2 hn.ne'
  calc lastPlace n / 2 = lastPlace n * 2 ^ (-1 : ℤ) := by norm_num; ring
    _ = 2 ^ (Nat.log 2 n : ℤ) * 2 ^ (-53 : ℤ) := by
      rw [lastPlace_scale, ← zpow_add₀ two_ne_zero]
      congr 1
      ring
    _ ≤ n * 2 ^ (-53 : ℤ) := by gcongr

/-- half a last place below a power of two stands a double -/
theorem isDouble_pred_power {n : ℕ} (h : lastPlace n / 2 = n * 2 ^ (-53 : ℤ)) : IsDouble (n - lastPlace n / 2) := by
  refine ⟨2 ^ 53 - 1, (Nat.log 2 n : ℤ) - 53, by decide, by have : leastExponent = -1074 := rfl; omega, ?_⟩
  have hscale : lastPlace n / 2 = 2 ^ ((Nat.log 2 n : ℤ) - 53) := by
    calc lastPlace n / 2 = lastPlace n * 2 ^ (-1 : ℤ) := by norm_num; ring
      _ = 2 ^ ((Nat.log 2 n : ℤ) - 53) := by rw [lastPlace_scale]; congr 1; ring
  have hn : (n : ℚ) = lastPlace n / 2 * 2 ^ (53 : ℕ) := by
    rw [h, mul_assoc]
    norm_num
  rw [← hscale]
  push_cast
  linarith

/-- **A double below one never rounds up to the whole number.** -/
theorem product_lt {u r : ℚ} {n : ℕ} (hu : IsDouble u) (h1 : u < 1) (hn : 0 < n) (hr : Nearest (u * n) r) : r < n := by
  have hnpos : (0 : ℚ) < n := by exact_mod_cast hn
  have hleft : n * 2 ^ (-53 : ℤ) ≤ n - u * n := by nlinarith [hu.le_pred_one h1]
  have hhalf := half_lastPlace_le hn
  have hpower := isDouble_pred_power (n := n)
  generalize (n : ℚ) * 2 ^ (-53 : ℤ) = gap at hleft hhalf hpower
  have hplace := lastPlace_pos n
  have hadd := le_predMultiple_add n
  have hpred := predMultiple_lt n
  have hx : u * n < n := by linarith
  by_cases hlow : u * n ≤ predMultiple n
  · refine hr.lt_of_nearer (isDouble_predMultiple hn) hx ?_
    rw [abs_of_nonneg (by linarith)]
    linarith
  · rw [not_le] at hlow
    by_cases htie : n - predMultiple n < 2 * (n - u * n)
    · refine hr.lt_of_nearer (isDouble_predMultiple hn) hx ?_
      rw [abs_of_neg (by linarith)]
      linarith
    · -- only the greatest double below one and a power of two are left, and there the product is exact
      rw [not_lt] at htie
      have heq : lastPlace n / 2 = gap := by linarith
      have hexact : u * n = n - lastPlace n / 2 := by linarith
      rw [hexact] at hr hx
      rw [hr.eq (hpower heq)]
      exact hx

/-- the index `Math.floor(u * n)` is inside a list of length `n` -/
theorem product_floor {u : ℚ} {n : ℕ} (hu : IsDouble u) (h0 : 0 ≤ u) (h1 : u < 1) (hn : 0 < n) :
    0 ≤ ⌊roundDouble (u * n)⌋ ∧ ⌊roundDouble (u * n)⌋ < n := by
  have hnear : Nearest (u * n) (roundDouble (u * n)) := nearest_roundDouble (by positivity)
  constructor
  · exact Int.floor_nonneg.2 (hnear.nonneg (by positivity))
  · rw [Int.floor_lt]
    exact_mod_cast product_lt hu h1 hn hnear

end Arena.Lib
