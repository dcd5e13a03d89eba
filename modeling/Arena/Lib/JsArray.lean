/-
JavaScript array and string order: `Array.prototype.sort` with a comparator, and `<` on strings.

- `jsSort cmp l`: the stable sort of `l` by a numeric comparator, `cmp a b ≤ 0` meaning that `a` may stand before `b`.
  For a comparator that is a total preorder the stable sort is unique, so any stable algorithm computes it.
- `utf16`: the code units of a string; `jsLt` compares strings by them, as `<` does (code points would order the
  surrogate range differently).
- `jsSort_head_le`: the first element of a sorted list has the least key;
- `jsSort_sorted`: for a total and transitive comparator, earlier elements compare at most 0 with later ones.
-/
import Mathlib.Data.List.Sort
import Mathlib.Tactic

namespace Arena.Lib

/-! ## Strings -/

/-- the UTF-16 code units of one code point -/
def utf16Char (c : Char) : List UInt16 :=
  let n := c.toNat
  if n < 0x10000 then [UInt16.ofNat n]
  else [UInt16.ofNat (0xD800 + (n - 0x10000) / 0x400), UInt16.ofNat (0xDC00 + (n - 0x10000) % 0x400)]

def utf16 (s : String) : List UInt16 := s.toList.flatMap utf16Char

/-- lexicographic order of code-unit lists -/
def unitsLt : List UInt16 → List UInt16 → Bool
  | [], [] => false
  | [], _ :: _ => true
  | _ :: _, [] => false
  | a :: as, b :: bs => if a < b then true else if b < a then false else unitsLt as bs

def jsLt (a b : String) : Bool := unitsLt (utf16 a) (utf16 b)

theorem unitsLt_iff (a b : List UInt16) : unitsLt a b = true ↔ a.map UInt16.toNat < b.map UInt16.toNat := by
  induction a generalizing b with
  | nil => cases b <;> simp [unitsLt]
  | cons x xs ih =>
    cases b with
    | nil => simp [unitsLt]
    | cons y ys =>
      simp only [unitsLt, List.map_cons, List.cons_lt_cons_iff, UInt16.lt_iff_toNat_lt]
      split_ifs with h1 h2
      · simp [h1]
      · simp only [false_iff]; omega
      · have : x.toNat = y.toNat := by omega
        simp [this, ih]

/-- the code units of a string as numbers: `jsLt` is their lexicographic order -/
def unitKey (s : String) : List ℕ := (utf16 s).map UInt16.toNat

theorem jsLt_iff (a b : String) : jsLt a b = true ↔ unitKey a < unitKey b := unitsLt_iff _ _

/-! ## Sorting -/

section Sorting

variable {α : Type}

def jsSort (cmp : α → α → ℚ) (l : List α) : List α := l.insertionSort (fun a b => cmp a b ≤ 0)

theorem jsSort_perm (cmp : α → α → ℚ) (l : List α) : (jsSort cmp l).Perm l := List.perm_insertionSort _ l

theorem mem_jsSort (cmp : α → α → ℚ) (l : List α) (a : α) : a ∈ jsSort cmp l ↔ a ∈ l := (jsSort_perm cmp l).mem_iff

theorem jsSort_sorted (cmp : α → α → ℚ) (htotal : ∀ a b, cmp a b ≤ 0 ∨ cmp b a ≤ 0)
    (htrans : ∀ a b c, cmp a b ≤ 0 → cmp b c ≤ 0 → cmp a c ≤ 0) (l : List α) :
    (jsSort cmp l).Pairwise fun a b => cmp a b ≤ 0 := by
  have htot : Std.Total (fun a b => cmp a b ≤ 0) := ⟨htotal⟩
  have htr : IsTrans α (fun a b => cmp a b ≤ 0) := ⟨htrans⟩
  exact List.pairwise_insertionSort (fun a b => cmp a b ≤ 0) l

/-- where equal rank means equal, the sorted list does not depend on the order sorted from -/
theorem jsSort_eq_of_perm {κ : Type} [LinearOrder κ] (rank : α → κ) (hinj : Function.Injective rank)
    (cmp : α → α → ℚ) (hcmp : ∀ a b, cmp a b ≤ 0 ↔ rank a ≤ rank b) {l l' : List α} (h : l.Perm l') :
    jsSort cmp l = jsSort cmp l' := by
  have hsorted : ∀ l : List α, (jsSort cmp l).Pairwise fun a b => cmp a b ≤ 0 :=
    jsSort_sorted cmp (fun a b => by simp only [hcmp]; exact le_total _ _)
      (fun a b c => by simp only [hcmp]; exact le_trans)
  refine List.Perm.eq_of_pairwise (fun a b _ _ hab hba => hinj ?_) (hsorted l) (hsorted l') ?_
  · exact le_antisymm ((hcmp a b).1 hab) ((hcmp b a).1 hba)
  · exact ((jsSort_perm cmp l).trans h).trans (jsSort_perm cmp l').symm

/-- the head of a list sorted by a key has the least key -/
theorem jsSort_head_le {κ : Type} [LinearOrder κ] (key : α → κ) (cmp : α → α → ℚ)
    (hcmp : ∀ a b, cmp a b ≤ 0 ↔ key a ≤ key b) (l : List α) {a : α} (h : (jsSort cmp l).head? = some a) :
    ∀ b ∈ l, key a ≤ key b := by
  have htot : Std.Total (fun a b => cmp a b ≤ 0) := ⟨fun a b => by simp only [hcmp]; exact le_total _ _⟩
  have htr : IsTrans α (fun a b => cmp a b ≤ 0) := ⟨fun a b c => by simp only [hcmp]; exact le_trans⟩
  have hs := List.pairwise_insertionSort (fun a b => cmp a b ≤ 0) l
  intro b hb
  have hb' : b ∈ jsSort cmp l := (mem_jsSort cmp l b).2 hb
  cases hl : jsSort cmp l with
  | nil => simp [hl] at hb'
  | cons x xs =>
    rw [hl] at h hb'
    simp only [List.head?_cons, Option.some.injEq] at h
    subst h
    rcases List.mem_cons.1 hb' with rfl | hb'
    · exact le_rfl
    · have : jsSort cmp l = l.insertionSort (fun a b => cmp a b ≤ 0) := rfl
      rw [← this, hl, List.pairwise_cons] at hs
      exact (hcmp _ _).1 (hs.1 b hb')

end Sorting

end Arena.Lib
