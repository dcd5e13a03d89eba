/-
Lua 5.1 `tostring` on a non-negative integer, and texts joined at a colon.

Lua numbers are doubles printed with `%.14g`: a number below 10^14 prints as its decimal digits, a larger one as a
mantissa of at most 14 digits and an exponent. Distinct large numbers may print alike, but never like a smaller one:
`luaTostring_eq_small`. `joinColon_inj` takes `a:b` apart at its last colon.
-/
import Mathlib.Tactic

namespace Arena.Lib

/-- decimal digits, `String(n)` of a safe integer -/
def decimal (n : ℕ) : String := toString n

/-- `n` rounded to 14 significant digits, ties to even: the digits and the decimal exponent of the first one -/
def significant (n : ℕ) : ℕ × ℕ :=
  let k := Nat.log 10 n
  let unit := 10 ^ (k - 13)
  let q := n / unit
  let r := n % unit
  let q' := if unit < 2 * r ∨ (2 * r = unit ∧ q % 2 = 1) then q + 1 else q
  if q' = 10 ^ 14 then (10 ^ 13, k + 1) else (q', k)

/-- the `%.14g` text of digits and exponent: trailing zeros dropped, the point after the first digit -/
def exponential (d : ℕ × ℕ) : String :=
  let digits := ((decimal d.1).toList.reverse.dropWhile (· = '0')).reverse
  let fraction := if digits.length ≤ 1 then [] else '.' :: digits.drop 1
  String.ofList (digits.take 1 ++ fraction ++ 'e' :: '+' :: (decimal d.2).toList)

def luaTostring (n : ℕ) : String := if n < 10 ^ 14 then decimal n else exponential (significant n)

/-- the number that reads the text back, `Number(tostring(n))` -/
def luaReadBack (n : ℕ) : ℕ :=
  if n < 10 ^ 14 then n else (significant n).1 * 10 ^ ((significant n).2 - 13)

example : luaTostring 42 = "42" ∧ luaTostring 100000000000000 = "1e+14" ∧
    luaTostring 123456789012345 = "1.2345678901234e+14" := by decide +kernel

/-! ## Decimal texts -/

theorem decimal_toList (n : ℕ) : (decimal n).toList = Nat.toDigits 10 n := Nat.toList_repr

theorem decimal_injective {m n : ℕ} (h : decimal m = decimal n) : m = n := by
  have hd : Nat.toDigits 10 m = Nat.toDigits 10 n := by rw [← decimal_toList, ← decimal_toList, h]
  calc m = Nat.ofDigitChars 10 (Nat.toDigits 10 m) 0 := Nat.ofDigitChars_ten_toDigits.symm
    _ = Nat.ofDigitChars 10 (Nat.toDigits 10 n) 0 := by rw [hd]
    _ = n := Nat.ofDigitChars_ten_toDigits

theorem isDigit_of_mem_decimal {n : ℕ} {c : Char} (h : c ∈ (decimal n).toList) : c.isDigit = true := by
  rw [decimal_toList] at h
  exact Nat.isDigit_of_mem_toDigits (by decide) (by decide) h

/-- a character that is no digit, point, `e` or plus sign stands in no printed number -/
theorem not_mem_exponential (d : ℕ × ℕ) {c : Char} (hc : c.isDigit = false) (h1 : c ≠ '.') (h2 : c ≠ 'e')
    (h3 : c ≠ '+') : c ∉ (exponential d).toList := by
  have digit : ∀ n, c ∉ (decimal n).toList := by
    intro n hm
    rw [isDigit_of_mem_decimal hm] at hc
    cases hc
  have stripped : c ∉ ((decimal d.1).toList.reverse.dropWhile (· = '0')).reverse := by
    intro hm
    exact digit d.1 (List.mem_reverse.1 ((List.dropWhile_suffix _).subset (List.mem_reverse.1 hm)))
  unfold exponential
  simp only [String.toList_ofList, List.mem_append, List.mem_cons, not_or]
  refine ⟨⟨fun hm => stripped (List.mem_of_mem_take hm), ?_⟩, h2, h3, digit d.2⟩
  split_ifs
  · simp
  · intro hm
    rcases List.mem_cons.1 hm with hm | hm
    · exact h1 hm
    · exact stripped (List.mem_of_mem_drop hm)

theorem luaTostring_no_colon (n : ℕ) : ':' ∉ (luaTostring n).toList := by
  unfold luaTostring
  split_ifs
  · intro hm
    have := isDigit_of_mem_decimal hm
    cases this
  · exact not_mem_exponential _ (by decide) (by decide) (by decide) (by decide)

/-- a large number prints with an exponent, unlike any decimal text -/
theorem luaTostring_ne_decimal {n : ℕ} (h : ¬ n < 10 ^ 14) (f : ℕ) : luaTostring n ≠ decimal f := by
  intro heq
  have he : 'e' ∈ (luaTostring n).toList := by
    rw [luaTostring, if_neg h]
    simp [exponential, String.toList_ofList]
  rw [heq] at he
  have := isDigit_of_mem_decimal he
  cases this

/-- **A small number prints like no other number.** -/
theorem luaTostring_eq_small {f n : ℕ} (hf : f < 10 ^ 14) (h : luaTostring n = luaTostring f) : n = f := by
  have hsmall : luaTostring f = decimal f := if_pos hf
  rw [hsmall] at h
  by_cases hn : n < 10 ^ 14
  · rw [luaTostring, if_pos hn] at h
    exact decimal_injective h
  · exact absurd h (luaTostring_ne_decimal hn f)

/-! ## Texts joined at a colon -/

def joinColon (a b : String) : String := a ++ ":" ++ b

theorem toList_joinColon (a b : String) : (joinColon a b).toList = a.toList ++ ':' :: b.toList := by
  simp [joinColon, String.toList_append]

/-- the first occurrence of a separator is unique -/
theorem append_cons_inj_first {α : Type} {c : α} {x y u v : List α} (hx : c ∉ x) (hy : c ∉ y)
    (h : x ++ c :: u = y ++ c :: v) : x = y ∧ u = v := by
  induction x generalizing y with
  | nil =>
    cases y with
    | nil => exact ⟨rfl, (List.cons.inj h).2⟩
    | cons z y =>
      have hz : c = z := (List.cons.inj h).1
      exact absurd (hz ▸ List.mem_cons_self) hy
  | cons w x ih =>
    cases y with
    | nil =>
      have hw : w = c := (List.cons.inj h).1
      exact absurd (hw ▸ List.mem_cons_self) hx
    | cons z y =>
      obtain ⟨hwz, hrest⟩ := List.cons.inj h
      obtain ⟨hxy, huv⟩ := ih (fun hm => hx (List.mem_cons_of_mem _ hm)) (fun hm => hy (List.mem_cons_of_mem _ hm)) hrest
      exact ⟨by rw [hwz, hxy], huv⟩

/-- the last colon separates the two parts -/
theorem joinColon_inj {a b c d : String} (hb : ':' ∉ b.toList) (hd : ':' ∉ d.toList)
    (h : joinColon a b = joinColon c d) : a = c ∧ b = d := by
  have hl : a.toList ++ ':' :: b.toList = c.toList ++ ':' :: d.toList := by
    rw [← toList_joinColon, ← toList_joinColon, h]
  have hrev : b.toList.reverse ++ ':' :: a.toList.reverse = d.toList.reverse ++ ':' :: c.toList.reverse := by
    have := congrArg List.reverse hl
    simpa using this
  obtain ⟨h1, h2⟩ := append_cons_inj_first (by simpa using hb) (by simpa using hd) hrev
  exact ⟨String.toList_inj.1 (List.reverse_injective h2), String.toList_inj.1 (List.reverse_injective h1)⟩

end Arena.Lib
