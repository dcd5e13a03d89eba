/-
Systems that can only do so much.

A budget is a number that every step of work lowers, and that a call from outside raises by a bounded gift. So a run
does no more work than its first budget and the gifts allow.

- `run_budget`: the rule, for guarded runs from an invariant;
- `run_bounded`: the same for a bound that work need not lower.
-/
import Arena.Lib.Run

namespace Arena.Lib

variable {S O : Type}

/-- how many operations of a run satisfy `p` in the state they meet -/
def countAlong (step : S → O → S) (p : S → O → Prop) [∀ s o, Decidable (p s o)] : S → List O → ℕ
  | _, [] => 0
  | s, o :: ops => (if p s o then 1 else 0) + countAlong step p (step s o) ops

section Budget

variable (step : S → O → S) (guard works : S → O → Prop) [∀ s o, Decidable (works s o)] (Inv : S → Prop)
  (budget : S → ℕ) (outside : O → Bool) (gift : ℕ)

/-- **Budget rule.** The work of a run and what is left of the budget come out of the first budget and the gifts. -/
theorem run_budget (hinv : ∀ s o, guard s o → Inv s → Inv (step s o))
    (hstep : ∀ s o, guard s o → Inv s →
      budget (step s o) + (if works s o then 1 else 0) ≤ budget s + if outside o then gift else 0)
    (s : S) (ops : List O) (hg : Along step guard s ops) (h : Inv s) :
    countAlong step works s ops + budget (run step s ops) ≤ budget s + gift * ops.countP outside := by
  induction ops generalizing s with
  | nil => simp [countAlong, run]
  | cons o ops ih =>
    have hrest := ih (step s o) hg.2 (hinv s o hg.1 h)
    have hfirst := hstep s o hg.1 h
    rw [run_cons, countAlong, List.countP_cons, Nat.mul_add]
    have hgift : gift * (if outside o = true then 1 else 0) = if outside o = true then gift else 0 := by
      split_ifs <;> omega
    omega

end Budget

/-- a bound that only calls from outside raise -/
theorem run_bounded (step : S → O → S) (guard : S → O → Prop) (Inv : S → Prop) (bound : S → ℕ) (outside : O → Bool)
    (gift : ℕ) (hinv : ∀ s o, guard s o → Inv s → Inv (step s o))
    (hstep : ∀ s o, guard s o → Inv s → bound (step s o) ≤ bound s + if outside o then gift else 0)
    (s : S) (ops : List O) (hg : Along step guard s ops) (h : Inv s) :
    bound (run step s ops) ≤ bound s + gift * ops.countP outside := by
  have hrun := run_budget step guard (fun _ _ => False) Inv bound outside gift hinv
    (fun s o hs hi => by simpa using hstep s o hs hi) s ops hg h
  omega

end Arena.Lib
