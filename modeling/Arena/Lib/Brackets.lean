/-
Openings and closings along a log.

`opens` and `closes` mark entries of a log; an entry that opens counts as no closing. `sinceOpen` counts the closings
since the last opening, `ClosedOnce` says that between any two consecutive openings there is exactly one closing.

- `sinceOpen_split`: the count is that of the entries behind the last opening;
- `ClosedOnce.append`, `ClosedOnce.open`: a log stays so when entries that do not open are appended, and when an opening
  is appended to a log whose last opening has been closed once.
-/
import Mathlib.Tactic

namespace Arena.Lib

variable {α : Type} (opens closes : α → Bool)

def countClose (n : Option ℕ) (e : α) : Option ℕ :=
  if opens e then some 0 else if closes e then n.map (· + 1) else n

/-- the closings since the last opening, `none` before the first one -/
def sinceOpen (log : List α) : Option ℕ := log.foldl (countClose opens closes) none

/-- between two consecutive openings there is exactly one closing -/
def ClosedOnce (log : List α) : Prop :=
  ∀ pre a mid b post, log = pre ++ a :: mid ++ b :: post → opens a = true → opens b = true →
    (∀ e ∈ mid, opens e = false) → mid.countP closes = 1

theorem closedOnce_nil : ClosedOnce opens closes ([] : List α) := by
  intro pre a mid b post h
  simp at h

variable {opens closes}

theorem foldl_countClose (es : List α) (h : ∀ e ∈ es, opens e = false) (n : Option ℕ) :
    es.foldl (countClose opens closes) n = n.map (· + es.countP closes) := by
  induction es generalizing n with
  | nil => simp
  | cons e es ih =>
    have he := h e List.mem_cons_self
    rw [List.foldl_cons, ih (fun x hx => h x (List.mem_cons_of_mem e hx)), List.countP_cons]
    cases hc : closes e with
    | true => cases n <;> simp [countClose, he, hc, Nat.add_comm, Nat.add_left_comm]
    | false => simp [countClose, he, hc]

theorem sinceOpen_append (log es : List α) (h : ∀ e ∈ es, opens e = false) :
    sinceOpen opens closes (log ++ es) = (sinceOpen opens closes log).map (· + es.countP closes) := by
  rw [sinceOpen, List.foldl_append]
  exact foldl_countClose es h _

theorem sinceOpen_open (log : List α) (a : α) (ha : opens a = true) :
    sinceOpen opens closes (log ++ [a]) = some 0 := by
  simp [sinceOpen, List.foldl_append, countClose, ha]

/-- entries that neither open nor close -/
theorem sinceOpen_quiet (log es : List α) (ho : ∀ e ∈ es, opens e = false) (hc : ∀ e ∈ es, closes e = false) :
    sinceOpen opens closes (log ++ es) = sinceOpen opens closes log := by
  have h0 : es.countP closes = 0 := by
    rw [List.countP_eq_zero]
    intro e he
    simp [hc e he]
  rw [sinceOpen_append log es ho, h0]
  cases sinceOpen opens closes log <;> rfl

/-- what has been closed stays closed until the next opening -/
theorem sinceOpen_settled (log es : List α) (h : ∀ e ∈ es, opens e = false) (hs : sinceOpen opens closes log ≠ some 0) :
    sinceOpen opens closes (log ++ es) ≠ some 0 := by
  rw [sinceOpen_append log es h]
  cases hn : sinceOpen opens closes log with
  | none => simp
  | some n =>
    intro hz
    have hn0 : n + es.countP closes = 0 := Option.some.inj hz
    obtain rfl : n = 0 := by omega
    exact hs hn

theorem sinceOpen_split (pre mid : List α) (a : α) (ha : opens a = true) (hm : ∀ e ∈ mid, opens e = false) :
    sinceOpen opens closes (pre ++ a :: mid) = some (mid.countP closes) := by
  have hl : pre ++ a :: mid = (pre ++ [a]) ++ mid := by simp
  rw [hl, sinceOpen_append _ mid hm, sinceOpen_open pre a ha]
  simp

theorem ClosedOnce.append {log : List α} (h : ClosedOnce opens closes log) (es : List α)
    (he : ∀ e ∈ es, opens e = false) : ClosedOnce opens closes (log ++ es) := by
  intro pre a mid b post hl ha hb hm
  rcases List.append_eq_append_iff.1 hl with ⟨x, hx, hes⟩ | ⟨x, hlog, hbp⟩
  · -- `b` would lie in the appended part
    have hmem : b ∈ es := by rw [hes]; simp
    rw [he b hmem] at hb
    cases hb
  · cases x with
    | nil =>
      have hmem : b ∈ es := by rw [List.nil_append] at hbp; rw [← hbp]; simp
      rw [he b hmem] at hb
      cases hb
    | cons c x =>
      obtain ⟨rfl, -⟩ := List.cons.inj hbp
      exact h pre a mid b x hlog ha hb hm

theorem ClosedOnce.open {log : List α} (h : ClosedOnce opens closes log) (e : α)
    (hs : sinceOpen opens closes log = none ∨ sinceOpen opens closes log = some 1) :
    ClosedOnce opens closes (log ++ [e]) := by
  intro pre a mid b post hl ha hb hm
  rcases List.eq_nil_or_concat post with rfl | ⟨post', c, rfl⟩
  · -- the appended entry is the second opening
    obtain ⟨hlog, -⟩ := List.append_inj' hl rfl
    have hsplit : sinceOpen opens closes log = some (mid.countP closes) := by
      rw [hlog]
      exact sinceOpen_split pre mid a ha hm
    rcases hs with hs | hs
    · rw [hs] at hsplit
      cases hsplit
    · rw [hs] at hsplit
      exact (Option.some.inj hsplit).symm
  · have hl' : log ++ [e] = (pre ++ a :: mid ++ b :: post') ++ [c] := by rw [hl]; simp
    obtain ⟨hlog, -⟩ := List.append_inj' hl' rfl
    exact h pre a mid b post' hlog ha hb hm

end Arena.Lib
