/-
Keys with a deadline.

A key holds a value until its deadline has passed; after that it reads as absent, whether or not it has been removed.

- `get_eq_some`: what a read returns is stored, and its deadline is not over;
- `get_outlived`: wherever a key is still read, so is one whose deadline is not earlier.
-/
import Mathlib.Tactic

namespace Arena.Lib

/-- a value with its deadline -/
structure Expiring (α : Type) where
  value : α
  expireAt : ℕ
deriving DecidableEq, Repr

namespace Expiring

variable {α β : Type}

/-- what a read returns at time `now` -/
def get (key : Option (Expiring α)) (now : ℕ) : Option α :=
  match key with
  | some e => if now ≤ e.expireAt then some e.value else none
  | none => none

@[simp] theorem get_none (now : ℕ) : get (none : Option (Expiring α)) now = none := rfl

theorem get_eq_some {key : Option (Expiring α)} {now : ℕ} {v : α} :
    get key now = some v ↔ ∃ e, key = some e ∧ now ≤ e.expireAt ∧ e.value = v := by
  cases key with
  | none => simp
  | some e => simp [get]

theorem get_of_live {e : Expiring α} {now : ℕ} (h : now ≤ e.expireAt) : get (some e) now = some e.value :=
  get_eq_some.2 ⟨e, rfl, h, rfl⟩

/-- a key whose deadline is not earlier is read wherever the other one is -/
theorem get_outlived {e : Expiring α} {g : Expiring β} {now : ℕ} (hle : e.expireAt ≤ g.expireAt)
    (he : get (some e) now ≠ none) : get (some g) now = some g.value := by
  obtain ⟨v, hv⟩ := Option.ne_none_iff_exists'.1 he
  obtain ⟨e', heq, hlive, -⟩ := get_eq_some.1 hv
  obtain rfl := Option.some.inj heq
  exact get_of_live (hlive.trans hle)

/-- a counter's next value and deadline; an expired counter restarts from zero -/
def incr (key : Option (Expiring ℕ)) (now ttl : ℕ) : Expiring ℕ := ⟨(get key now).getD 0 + 1, now + ttl⟩

end Expiring

end Arena.Lib
