/-
The Gregorian calendar over day numbers, day 0 being 1970-01-01, with its dates written as `YYYY-MM-DD`.

Years are integers and the calendar is proleptic, as in the date algorithms of JavaScript. `ofDay` and `toDay` convert
between a day number and its date; `formatDate` and `parseDate` between a date and its text.

- `yearFromDay_spec`: the year of a day is the one whose first day is the last not after it;
- `toDay_ofDay`: no day is lost or met twice, whatever month, year or leap day it is next to;
- `parse_format`: the text of a date of a year with four digits reads back as the day;
- `RunLength`: how many days in a row, ending at a given one, have a property.
-/
import Mathlib.Tactic

namespace Arena.Lib

/-! ## Years -/

/-- the number of the first of January -/
def dayFromYear (y : ℤ) : ℤ := 365 * (y - 1970) + (y - 1969) / 4 - (y - 1901) / 100 + (y - 1601) / 400

def isLeapYear (y : ℤ) : Bool := y % 4 = 0 ∧ (y % 100 ≠ 0 ∨ y % 400 = 0)

/-- a year off by at most one -/
def yearGuess (n : ℤ) : ℤ := n * 400 / 146097 + 1970

def yearFromDay (n : ℤ) : ℤ :=
  if dayFromYear (yearGuess n + 1) ≤ n then yearGuess n + 1
  else if n < dayFromYear (yearGuess n) then yearGuess n - 1
  else yearGuess n

theorem dayFromYear_succ (y : ℤ) : dayFromYear (y + 1) = dayFromYear y + if isLeapYear y then 366 else 365 := by
  simp only [dayFromYear, isLeapYear, decide_eq_true_eq]
  split_ifs <;> omega

theorem dayFromYear_lt {y z : ℤ} (h : y < z) : dayFromYear y < dayFromYear z := by
  simp only [dayFromYear]
  omega

theorem yearGuess_close (n : ℤ) : dayFromYear (yearGuess n - 1) ≤ n ∧ n < dayFromYear (yearGuess n + 2) := by
  simp only [dayFromYear, yearGuess]
  omega

theorem yearFromDay_spec (n : ℤ) : dayFromYear (yearFromDay n) ≤ n ∧ n < dayFromYear (yearFromDay n + 1) := by
  have h := yearGuess_close n
  unfold yearFromDay
  split_ifs with h1 h2
  · exact ⟨h1, by rw [add_assoc]; exact h.2⟩
  · exact ⟨h.1, by rwa [sub_add_cancel]⟩
  · exact ⟨not_lt.1 h2, not_le.1 h1⟩

/-- the days of the years `a` to `b` are those of their span -/
theorem yearFromDay_mem {a b n : ℤ} (hlo : dayFromYear a ≤ n) (hhi : n < dayFromYear (b + 1)) :
    a ≤ yearFromDay n ∧ yearFromDay n ≤ b := by
  obtain ⟨h1, h2⟩ := yearFromDay_spec n
  constructor
  · by_contra hc
    have : dayFromYear (yearFromDay n + 1) ≤ dayFromYear a := by
      rcases lt_or_eq_of_le (show yearFromDay n + 1 ≤ a by omega) with h | h
      · exact (dayFromYear_lt h).le
      · rw [h]
    omega
  · by_contra hc
    have : dayFromYear (b + 1) ≤ dayFromYear (yearFromDay n) := by
      rcases lt_or_eq_of_le (show b + 1 ≤ yearFromDay n by omega) with h | h
      · exact (dayFromYear_lt h).le
      · rw [h]
    omega

/-! ## Months -/

def monthLengths (leap : Bool) : List ℕ := [31, if leap then 29 else 28, 31, 30, 31, 30, 31, 31, 30, 31, 30, 31]

/-- the month that holds day `d`, counting months from `m`, and the days of the month before it -/
def monthOf : List ℕ → ℕ → ℕ → ℕ × ℕ
  | [], m, d => (m, d)
  | n :: ns, m, d => if d < n then (m, d) else monthOf ns (m + 1) (d - n)

theorem monthOf_spec (lengths : List ℕ) (m d : ℕ) (h : d < lengths.sum) :
    ∃ i, i < lengths.length ∧ (monthOf lengths m d).1 = m + i ∧ (monthOf lengths m d).2 < lengths.getD i 0 ∧
      (lengths.take i).sum + (monthOf lengths m d).2 = d := by
  induction lengths generalizing m d with
  | nil => simp at h
  | cons n ns ih =>
    simp only [monthOf]
    split_ifs with hd
    · exact ⟨0, by simp, rfl, by simpa using hd, by simp⟩
    · rw [List.sum_cons] at h
      obtain ⟨i, hi, hm, hr, hs⟩ := ih (m + 1) (d - n) (by omega)
      refine ⟨i + 1, by simpa using hi, by rw [hm]; omega, by simpa using hr, ?_⟩
      rw [List.take_succ_cons, List.sum_cons]
      omega

theorem sum_monthLengths (leap : Bool) : (monthLengths leap).sum = if leap then 366 else 365 := by
  cases leap <;> rfl

/-! ## Dates -/

structure Date where
  year : ℤ
  /-- 1 to 12 -/
  month : ℕ
  /-- 1 to 31 -/
  day : ℕ
deriving DecidableEq, Repr

def ofDay (n : ℤ) : Date :=
  let y := yearFromDay n
  let md := monthOf (monthLengths (isLeapYear y)) 1 (n - dayFromYear y).toNat
  ⟨y, md.1, md.2 + 1⟩

def toDay (d : Date) : ℤ :=
  dayFromYear d.year + ((monthLengths (isLeapYear d.year)).take (d.month - 1)).sum + (d.day - 1 : ℕ)

/-- the parts of the date of a day, in range -/
theorem ofDay_spec (n : ℤ) : (ofDay n).year = yearFromDay n ∧ 1 ≤ (ofDay n).month ∧ (ofDay n).month ≤ 12 ∧
    1 ≤ (ofDay n).day ∧ (ofDay n).day ≤ 31 ∧ toDay (ofDay n) = n := by
  obtain ⟨hlo, hhi⟩ := yearFromDay_spec n
  have hlt : (n - dayFromYear (yearFromDay n)).toNat < (monthLengths (isLeapYear (yearFromDay n))).sum := by
    rw [dayFromYear_succ] at hhi
    rw [sum_monthLengths]
    split_ifs at hhi ⊢ <;> omega
  obtain ⟨i, hi, hm, hr, hs⟩ := monthOf_spec _ 1 _ hlt
  have hlen : (monthLengths (isLeapYear (yearFromDay n))).length = 12 := rfl
  have hmax : (monthLengths (isLeapYear (yearFromDay n))).getD i 0 ≤ 31 := by
    rw [hlen] at hi
    generalize isLeapYear (yearFromDay n) = leap
    interval_cases i <;> cases leap <;> decide
  refine ⟨rfl, ?_, ?_, ?_, ?_, ?_⟩
  · simp only [ofDay, hm]
    omega
  · simp only [ofDay, hm]
    omega
  · simp [ofDay]
  · simp only [ofDay]
    omega
  · simp only [ofDay, toDay, hm, Nat.add_sub_cancel_left, Nat.add_sub_cancel]
    omega

theorem toDay_ofDay (n : ℤ) : toDay (ofDay n) = n := (ofDay_spec n).2.2.2.2.2

/-! ## Text -/

/-- the last `w` decimal digits -/
def digitsOf : ℕ → ℕ → List Char
  | 0, _ => []
  | w + 1, n => digitsOf w (n / 10) ++ [Nat.digitChar (n % 10)]

/-- the number a list of digits writes -/
def numberOf (cs : List Char) : Option ℕ := if cs.all Char.isDigit then some (Nat.ofDigitChars 10 cs 0) else none

/-- four digits, or a sign and six outside the years 0 to 9999 -/
def yearText (y : ℤ) : List Char :=
  if 0 ≤ y ∧ y ≤ 9999 then digitsOf 4 y.toNat else (if y < 0 then '-' else '+') :: digitsOf 6 y.natAbs

def formatDate (d : Date) : List Char := yearText d.year ++ '-' :: digitsOf 2 d.month ++ '-' :: digitsOf 2 d.day

/-- the day of a text `YYYY-MM-DD`; a day the month does not have counts on into the next one -/
def parseDate (cs : List Char) : Option ℤ :=
  if cs.length = 10 ∧ cs[4]? = some '-' ∧ cs[7]? = some '-' then
    match numberOf (cs.take 4), numberOf ((cs.drop 5).take 2), numberOf (cs.drop 8) with
    | some y, some m, some d =>
      if (1 ≤ m ∧ m ≤ 12) ∧ 1 ≤ d ∧ d ≤ 31 then some (toDay ⟨y, m, d⟩) else none
    | _, _, _ => none
  else none

theorem length_digitsOf (w n : ℕ) : (digitsOf w n).length = w := by
  induction w generalizing n with
  | zero => rfl
  | succ w ih => simp [digitsOf, ih]

theorem ofDigitChars_digitsOf (w n : ℕ) : (digitsOf w n).all Char.isDigit = true ∧
    Nat.ofDigitChars 10 (digitsOf w n) 0 = n % 10 ^ w := by
  induction w generalizing n with
  | zero => simp [digitsOf, Nat.mod_one]
  | succ w ih =>
    have hlt : n % 10 < 10 := Nat.mod_lt n (by decide)
    obtain ⟨hall, hnum⟩ := ih (n / 10)
    constructor
    · simp [digitsOf, hall, Nat.isDigit_digitChar, hlt]
    · rw [digitsOf, Nat.ofDigitChars_append, hnum, Nat.ofDigitChars_cons_digitChar_of_lt_ten hlt,
        Nat.ofDigitChars_nil, pow_succ, Nat.mul_comm (10 ^ w) 10, Nat.mod_mul]
      omega

theorem numberOf_digitsOf {w n : ℕ} (h : n < 10 ^ w) : numberOf (digitsOf w n) = some n := by
  obtain ⟨hall, hnum⟩ := ofDigitChars_digitsOf w n
  rw [numberOf, if_pos hall, hnum, Nat.mod_eq_of_lt h]

/-- **A date reads back as its day**, for the years that take four digits. -/
theorem parse_format {n : ℤ} (h : 0 ≤ yearFromDay n ∧ yearFromDay n ≤ 9999) :
    (formatDate (ofDay n)).length = 10 ∧ parseDate (formatDate (ofDay n)) = some n := by
  obtain ⟨hy, hm1, hm2, hd1, hd2, hday⟩ := ofDay_spec n
  have htext : formatDate (ofDay n) =
      digitsOf 4 (ofDay n).year.toNat ++ '-' :: digitsOf 2 (ofDay n).month ++ '-' :: digitsOf 2 (ofDay n).day := by
    rw [formatDate, yearText, if_pos (by rwa [hy])]
  have hnum : ∀ w m, m < 10 ^ w → numberOf (digitsOf w m) = some m := fun _ _ => numberOf_digitsOf
  have hl : ∀ w m, (digitsOf w m).length = w := length_digitsOf
  have hyear : (((ofDay n).year.toNat : ℕ) : ℤ) = (ofDay n).year := Int.toNat_of_nonneg (by rw [hy]; exact h.1)
  have hlen : (formatDate (ofDay n)).length = 10 := by simp [htext, hl]
  refine ⟨hlen, ?_⟩
  have h4 : (formatDate (ofDay n))[4]? = some '-' := by simp [htext, hl]
  have h7 : (formatDate (ofDay n))[7]? = some '-' := by simp [htext, hl]
  have t1 : (formatDate (ofDay n)).take 4 = digitsOf 4 (ofDay n).year.toNat := by
    rw [htext, List.append_assoc]
    exact List.take_left' (hl 4 _)
  have t2 : ((formatDate (ofDay n)).drop 5).take 2 = digitsOf 2 (ofDay n).month := by
    simp [htext, List.drop_append, List.take_append, hl]
  have t3 : (formatDate (ofDay n)).drop 8 = digitsOf 2 (ofDay n).day := by
    have hnil : ∀ w k m, w ≤ k → (digitsOf w m).drop k = [] := fun w k m hk =>
      List.drop_eq_nil_of_le (by rw [hl]; exact hk)
    simp [htext, List.drop_append, hl, hnil]
  rw [parseDate, if_pos ⟨hlen, h4, h7⟩, t1, t2, t3, hnum 4 _ (by omega), hnum 2 _ (by omega), hnum 2 _ (by omega)]
  simp only [hyear]
  rw [if_pos ⟨⟨hm1, hm2⟩, hd1, hd2⟩, hday]

/-! ## Days in a row -/

/-- `n` is the number of days in a row, ending at `d`, that have `p` -/
def RunLength (p : ℤ → Prop) (d : ℤ) (n : ℕ) : Prop := (∀ k : ℕ, k < n → p (d - k)) ∧ ¬p (d - n)

variable {p : ℤ → Prop} {d : ℤ} {n : ℕ}

theorem runLength_zero : RunLength p d 0 ↔ ¬p d := by simp [RunLength]

theorem RunLength.next (hd : p d) (h : RunLength p (d - 1) n) : RunLength p d (n + 1) := by
  refine ⟨fun k hk => ?_, ?_⟩
  · cases k with
    | zero => simpa using hd
    | succ k =>
      have := h.1 k (by omega)
      rwa [sub_sub, add_comm 1 (k : ℤ), ← Nat.cast_succ] at this
  · have := h.2
    rwa [sub_sub, add_comm 1 (n : ℤ), ← Nat.cast_succ] at this

/-- no run that ends at the day is longer -/
theorem RunLength.longest (h : RunLength p d n) {m : ℕ} (hm : ∀ k : ℕ, k < m → p (d - k)) : m ≤ n := by
  by_contra hc
  exact h.2 (hm n (not_le.1 hc))

theorem RunLength.congr {q : ℤ → Prop} (h : RunLength p d n) (hpq : ∀ k : ℕ, p (d - k) ↔ q (d - k)) :
    RunLength q d n := ⟨fun k hk => (hpq k).1 (h.1 k hk), fun hq => h.2 ((hpq n).2 hq)⟩

end Arena.Lib
