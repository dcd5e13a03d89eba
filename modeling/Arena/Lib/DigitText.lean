/-
Decimal texts as lists of character codes.

A text is read as codes, whatever its encoding: bytes and code units give the same codes where they are ASCII. A numeral
is a non-empty list of digits without a leading zero.

- `numeral_iff`: the numerals are the decimal texts of the positive numbers;
- `length_digitCodes_le`: a number below 10^k has at most k digits;
- `lex_iff_value`: digit lists of one length are ordered as their values;
- `findIdx?_split`, `findIdx?_append_cons`: a list and the first occurrence of a separator in it.
-/
import Arena.Lib.LuaNumber

namespace Arena.Lib

/-! ## Digits -/

/-- the codes of `String(n)` -/
def digitCodes (n : ℕ) : List ℕ := (decimal n).toList.map Char.toNat

def IsDigitCode (c : ℕ) : Prop := 48 ≤ c ∧ c ≤ 57

instance (c : ℕ) : Decidable (IsDigitCode c) := inferInstanceAs (Decidable (_ ∧ _))

def codeValue : List ℕ → ℕ
  | [] => 0
  | c :: cs => (c - 48) * 10 ^ cs.length + codeValue cs

structure IsNumeral (cs : List ℕ) : Prop where
  digits : ∀ c ∈ cs, IsDigitCode c
  nonempty : cs ≠ []
  leading : cs.head? ≠ some 48

theorem not_isNumeral_nil : ¬IsNumeral [] := fun h => h.nonempty rfl

/-- the pattern `[1-9][0-9]*` -/
theorem isNumeral_cons {c : ℕ} {cs : List ℕ} :
    IsNumeral (c :: cs) ↔ (49 ≤ c ∧ c ≤ 57) ∧ ∀ d ∈ cs, 48 ≤ d ∧ d ≤ 57 := by
  constructor
  · intro h
    have hc := h.digits c List.mem_cons_self
    have hne : c ≠ 48 := fun h48 => h.leading (by rw [h48]; rfl)
    unfold IsDigitCode at hc
    exact ⟨by omega, fun d hd => h.digits d (List.mem_cons_of_mem c hd)⟩
  · rintro ⟨hc, hcs⟩
    refine ⟨fun d hd => ?_, List.cons_ne_nil _ _, fun hz => ?_⟩
    · rcases List.mem_cons.1 hd with rfl | hd
      · unfold IsDigitCode
        omega
      · exact hcs d hd
    · have := Option.some_inj.1 hz
      omega

theorem codeValue_append (cs : List ℕ) (c : ℕ) : codeValue (cs ++ [c]) = 10 * codeValue cs + (c - 48) := by
  induction cs with
  | nil => simp [codeValue]
  | cons d cs ih =>
    rw [List.cons_append, codeValue, ih, codeValue, List.length_append, List.length_singleton, pow_succ]
    ring

theorem codeValue_lt {cs : List ℕ} (h : ∀ c ∈ cs, IsDigitCode c) : codeValue cs < 10 ^ cs.length := by
  induction cs with
  | nil => exact Nat.one_pos
  | cons c cs ih =>
    have hrest := ih fun d hd => h d (List.mem_cons_of_mem c hd)
    have hc : c - 48 ≤ 9 := by
      have := (h c List.mem_cons_self).2
      omega
    calc codeValue (c :: cs)
        = (c - 48) * 10 ^ cs.length + codeValue cs := rfl
      _ ≤ 9 * 10 ^ cs.length + codeValue cs := Nat.add_le_add_right (Nat.mul_le_mul_right _ hc) _
      _ < 9 * 10 ^ cs.length + 10 ^ cs.length := Nat.add_lt_add_left hrest _
      _ = 10 ^ (c :: cs).length := by rw [List.length_cons, pow_succ]; ring

/-- **Digit lists of one length are ordered as their values.** -/
theorem lex_iff_value {as bs : List ℕ} (ha : ∀ c ∈ as, IsDigitCode c) (hb : ∀ c ∈ bs, IsDigitCode c)
    (hlen : as.length = bs.length) : as < bs ↔ codeValue as < codeValue bs := by
  induction as generalizing bs with
  | nil =>
    obtain rfl := List.length_eq_zero_iff.1 hlen.symm
    simp [codeValue]
  | cons a as ih =>
    cases bs with
    | nil => cases hlen
    | cons b bs =>
      have hlen' : as.length = bs.length := Nat.succ.inj hlen
      have ha' := fun c hc => ha c (List.mem_cons_of_mem a hc)
      have hb' := fun c hc => hb c (List.mem_cons_of_mem b hc)
      have hltA : codeValue as < 10 ^ bs.length := hlen' ▸ codeValue_lt ha'
      have hltB := codeValue_lt hb'
      have hda := ha a List.mem_cons_self
      have hdb := hb b List.mem_cons_self
      unfold IsDigitCode at hda hdb
      rw [List.cons_lt_cons_iff, ih ha' hb' hlen', codeValue, codeValue, hlen']
      -- a smaller first digit outweighs all the others
      have step : ∀ x y u v : ℕ, x < y → u < 10 ^ bs.length → x * 10 ^ bs.length + u < y * 10 ^ bs.length + v := by
        intro x y u v hxy hu
        calc x * 10 ^ bs.length + u < x * 10 ^ bs.length + 10 ^ bs.length := Nat.add_lt_add_left hu _
          _ = (x + 1) * 10 ^ bs.length := by ring
          _ ≤ y * 10 ^ bs.length := Nat.mul_le_mul_right _ hxy
          _ ≤ y * 10 ^ bs.length + v := Nat.le_add_right _ _
      constructor
      · rintro (hab | ⟨rfl, hrest⟩)
        · exact step _ _ _ _ (by omega) hltA
        · exact Nat.add_lt_add_left hrest _
      · intro hval
        rcases lt_trichotomy a b with hab | rfl | hab
        · exact .inl hab
        · exact .inr ⟨rfl, Nat.lt_of_add_lt_add_left hval⟩
        · exact absurd (step (b - 48) (a - 48) _ (codeValue as) (by omega) hltB) (Nat.lt_asymm hval)

/-! ## Numerals -/

theorem digitCodes_of_lt {d : ℕ} (h : d < 10) : digitCodes d = [48 + d] := by
  rw [digitCodes, decimal_toList, Nat.toDigits_of_lt_base h]
  interval_cases d <;> rfl

theorem digitCodes_append {n d : ℕ} (hn : 0 < n) (hd : d < 10) :
    digitCodes (10 * n + d) = digitCodes n ++ [48 + d] := by
  rw [← digitCodes_of_lt hd, digitCodes, digitCodes, digitCodes, decimal_toList, decimal_toList, decimal_toList,
    ← List.map_append, Nat.toDigits_append_toDigits (by decide) hn hd]

theorem digitCodes_digits (n : ℕ) : ∀ c ∈ digitCodes n, IsDigitCode c := by
  intro c hc
  obtain ⟨ch, hch, rfl⟩ := List.mem_map.1 hc
  have hdigit := isDigit_of_mem_decimal hch
  simp only [Char.isDigit, Bool.and_eq_true, decide_eq_true_eq] at hdigit
  exact hdigit

theorem length_digitCodes_le {n k : ℕ} (hk : 0 < k) : (digitCodes n).length ≤ k ↔ n < 10 ^ k := by
  rw [digitCodes, List.length_map, decimal_toList, Nat.length_toDigits_le_iff (by decide) hk]

/-- the value and the leading digit of a decimal text -/
theorem digitCodes_value {n : ℕ} (hn : 0 < n) : codeValue (digitCodes n) = n ∧ (digitCodes n).head? ≠ some 48 := by
  induction n using Nat.strong_induction_on with
  | _ n ih =>
    by_cases hlt : n < 10
    · rw [digitCodes_of_lt hlt]
      refine ⟨by simp [codeValue], ?_⟩
      simp only [List.head?_cons, ne_eq, Option.some_inj]
      omega
    · have hpos : 0 < n / 10 := Nat.div_pos (Nat.le_of_not_lt hlt) (by decide)
      obtain ⟨hval, hhead⟩ := ih (n / 10) (Nat.div_lt_self hn (by decide)) hpos
      have hsplit : n = 10 * (n / 10) + n % 10 := (Nat.div_add_mod n 10).symm
      have hne : digitCodes (n / 10) ≠ [] := by
        intro hnil
        rw [hnil] at hval
        simp only [codeValue] at hval
        omega
      rw [hsplit, digitCodes_append hpos (Nat.mod_lt n (by decide))]
      constructor
      · rw [codeValue_append, hval]
        omega
      · rwa [List.head?_append_of_ne_nil _ hne]

theorem isNumeral_digitCodes {n : ℕ} (hn : 0 < n) : IsNumeral (digitCodes n) where
  digits := digitCodes_digits n
  nonempty := by
    intro hnil
    have hval := (digitCodes_value hn).1
    rw [hnil] at hval
    simp only [codeValue] at hval
    omega
  leading := (digitCodes_value hn).2

/-- **The numerals are the decimal texts of the positive numbers.** -/
theorem numeral_iff {cs : List ℕ} : IsNumeral cs ↔ 0 < codeValue cs ∧ cs = digitCodes (codeValue cs) := by
  constructor
  · intro h
    induction cs using List.reverseRecOn with
    | nil => exact absurd rfl h.nonempty
    | append_singleton cs c ih =>
      have hc : IsDigitCode c := h.digits c (List.mem_append_right _ (List.mem_singleton_self c))
      unfold IsDigitCode at hc
      rw [codeValue_append]
      by_cases hnil : cs = []
      · subst hnil
        have hlead : c ≠ 48 := fun h48 => h.leading (by simp [h48])
        simp only [codeValue, List.nil_append]
        rw [Nat.mul_zero, Nat.zero_add, digitCodes_of_lt (by omega)]
        refine ⟨by omega, ?_⟩
        rw [Nat.add_sub_cancel' hc.1]
      · obtain ⟨hpos, htext⟩ := ih ⟨fun d hd => h.digits d (List.mem_append_left _ hd), hnil, fun hz => h.leading (by
          rwa [List.head?_append_of_ne_nil _ hnil])⟩
        rw [digitCodes_append hpos (by omega), ← htext, Nat.add_sub_cancel' hc.1]
        exact ⟨by omega, rfl⟩
  · rintro ⟨hpos, htext⟩
    rw [htext]
    exact isNumeral_digitCodes hpos

/-! ## The first separator -/

section Separator

variable {α : Type} [DecidableEq α]

theorem findIdx?_append_cons {before : List α} {c : α} (h : c ∉ before) (after : List α) :
    (before ++ c :: after).findIdx? (· = c) = some before.length := by
  induction before with
  | nil => simp [List.findIdx?_cons]
  | cons a before ih =>
    have ha : a ≠ c := fun hac => h (hac ▸ List.mem_cons_self)
    rw [List.cons_append, List.findIdx?_cons, ih fun hc => h (List.mem_cons_of_mem a hc)]
    simp [ha]

theorem findIdx?_split {l : List α} {c : α} {i : ℕ} (h : l.findIdx? (· = c) = some i) :
    ∃ before after, l = before ++ c :: after ∧ c ∉ before ∧ before.length = i := by
  induction l generalizing i with
  | nil => simp at h
  | cons a l ih =>
    rw [List.findIdx?_cons] at h
    by_cases ha : a = c
    · simp only [ha, decide_true, if_true, Option.some_inj] at h
      exact ⟨[], l, by rw [ha, List.nil_append], by simp, h⟩
    · simp only [ha, decide_false, Bool.false_eq_true, if_false, Option.map_eq_some_iff] at h
      obtain ⟨j, hj, rfl⟩ := h
      obtain ⟨before, after, rfl, hnot, rfl⟩ := ih hj
      refine ⟨a :: before, after, rfl, ?_, rfl⟩
      exact fun hc => (List.mem_cons.1 hc).elim (fun hca => ha hca.symm) hnot

end Separator

end Arena.Lib
