/-
Guarded runs of a deterministic transition system, and the rules that turn a one-step fact into a fact about runs.

A system is a step function `step : S → O → S`; a run is a list of operations. `Along step guard s ops` says that every
operation of the run satisfies `guard` in the state it meets: a guard may be a discipline on callers (an operation is
only called in some phase), a condition under which a property is claimed, or a fact about each step that the run
theorem collects.

- `run_inv`: an invariant that every guarded step keeps holds at the end of every guarded run;
- `along_of_inv`: a fact that holds of every guarded step from an invariant state holds along the whole run;
- `run_iff`: a property that each step keeps exactly when it meets a guard holds at the end exactly of guarded runs;
- `run_split`: a run is good exactly as long as a guard is met, when breaking it is irreparable;
- `run_proj`, `along_proj`: a system with ghost components runs as the one it projects to.
-/
import Mathlib.Tactic

namespace Arena.Lib

variable {S T O : Type}

def run (step : S → O → S) (s : S) (ops : List O) : S := ops.foldl step s

/-- every operation of the run meets `guard` in the state it is applied to -/
def Along (step : S → O → S) (guard : S → O → Prop) : S → List O → Prop
  | _, [] => True
  | s, o :: ops => guard s o ∧ Along step guard (step s o) ops

theorem run_cons (step : S → O → S) (s : S) (o : O) (ops : List O) :
    run step s (o :: ops) = run step (step s o) ops := rfl

theorem run_append (step : S → O → S) (s : S) (a b : List O) :
    run step s (a ++ b) = run step (run step s a) b := by
  simp [run, List.foldl_append]

theorem along_append (step : S → O → S) (guard : S → O → Prop) (s : S) (a b : List O) :
    Along step guard s (a ++ b) ↔ Along step guard s a ∧ Along step guard (run step s a) b := by
  induction a generalizing s with
  | nil => simp [Along, run]
  | cons o a ih => simp only [List.cons_append, Along, ih, run_cons, and_assoc]

/-- a guard that ignores the state is a condition on each operation of the list -/
theorem along_const (step : S → O → S) (p : O → Prop) (s : S) (ops : List O) :
    Along step (fun _ o => p o) s ops ↔ ∀ o ∈ ops, p o := by
  induction ops generalizing s with
  | nil => simp [Along]
  | cons o ops ih => simp [Along, ih]

instance decidableAlong (step : S → O → S) (guard : S → O → Prop) [∀ s o, Decidable (guard s o)] :
    ∀ (s : S) (ops : List O), Decidable (Along step guard s ops)
  | _, [] => .isTrue trivial
  | s, o :: ops =>
    have := decidableAlong step guard (step s o) ops
    inferInstanceAs (Decidable (guard s o ∧ Along step guard (step s o) ops))

/-- **Invariant rule.** What every guarded step keeps, every guarded run keeps. -/
theorem run_inv (step : S → O → S) (guard : S → O → Prop) (Inv : S → Prop)
    (hstep : ∀ s o, guard s o → Inv s → Inv (step s o)) (s : S) (ops : List O)
    (hg : Along step guard s ops) (h : Inv s) : Inv (run step s ops) := by
  induction ops generalizing s with
  | nil => exact h
  | cons o ops ih => exact ih (step s o) hg.2 (hstep s o hg.1 h)

/-- **Step facts along a run.** A fact about guarded steps from invariant states holds at every step of the run. -/
theorem along_of_inv (step : S → O → S) (guard P : S → O → Prop) (Inv : S → Prop)
    (hstep : ∀ s o, guard s o → Inv s → Inv (step s o)) (hP : ∀ s o, guard s o → Inv s → P s o) (s : S) (ops : List O)
    (hg : Along step guard s ops) (h : Inv s) : Along step P s ops := by
  induction ops generalizing s with
  | nil => trivial
  | cons o ops ih => exact ⟨hP s o hg.1 h, ih (step s o) hg.2 (hstep s o hg.1 h)⟩

/-- guards that agree in invariant states agree along a run, when steps that meet the second keep the invariant -/
theorem along_congr (step : S → O → S) (env P Q : S → O → Prop) (Inv : S → Prop)
    (hstep : ∀ s o, env s o → Q s o → Inv s → Inv (step s o)) (hPQ : ∀ s o, env s o → Inv s → (P s o ↔ Q s o)) (s : S)
    (ops : List O) (he : Along step env s ops) (h : Inv s) : Along step P s ops ↔ Along step Q s ops := by
  induction ops generalizing s with
  | nil => exact Iff.rfl
  | cons o ops ih =>
    have hnow := hPQ s o he.1 h
    constructor
    · exact fun ⟨hp, hrest⟩ => ⟨hnow.1 hp, (ih _ he.2 (hstep s o he.1 (hnow.1 hp) h)).1 hrest⟩
    · exact fun ⟨hq, hrest⟩ => ⟨hnow.2 hq, (ih _ he.2 (hstep s o he.1 hq h)).2 hrest⟩

/-- a guard that the other operations do not touch holds along a run of distinct ones when it holds of each at first -/
theorem along_frame (step : S → O → S) (guard : S → O → Prop)
    (hframe : ∀ s o o', o ≠ o' → (guard (step s o) o' ↔ guard s o')) (s : S) (ops : List O) (hn : ops.Nodup) : Along step guard s ops ↔ ∀ o ∈ ops, guard s o := by
  induction ops generalizing s with
  | nil => simp [Along]
  | cons o ops ih =>
    obtain ⟨hnot, hrest⟩ := List.nodup_cons.1 hn
    rw [Along, ih (step s o) hrest, List.forall_mem_cons]
    refine and_congr_right fun _ => forall₂_congr fun o' ho' => hframe s o o' ?_
    rintro rfl
    exact hnot ho'

theorem along_true (step : S → O → S) (s : S) (ops : List O) : Along step (fun _ _ => True) s ops :=
  (along_const step (fun _ => True) s ops).2 fun _ _ => trivial

/-- two guards of a run hold together -/
theorem along_and (step : S → O → S) (g g' : S → O → Prop) (s : S) (ops : List O) (h : Along step g s ops)
    (h' : Along step g' s ops) : Along step (fun s o => g s o ∧ g' s o) s ops := by
  induction ops generalizing s with
  | nil => trivial
  | cons o ops ih => exact ⟨⟨h.1, h'.1⟩, ih (step s o) h.2 h'.2⟩

/-- **Exact step rule.** Where a step meets its guard exactly when it keeps the property, a run does. -/
theorem run_iff (step : S → O → S) (guard : S → O → Prop) (P : S → Prop)
    (hstep : ∀ s o, P (step s o) ↔ P s ∧ guard s o) (s : S) (ops : List O) :
    P (run step s ops) ↔ P s ∧ Along step guard s ops := by
  induction ops generalizing s with
  | nil => simp [run, Along]
  | cons o ops ih => rw [run_cons, ih, hstep, Along, and_assoc]

/-- **Exact condition rule.** While the guard is met the run stays good; a step that breaks it makes the run bad, and bad
for good. -/
theorem run_split (step : S → O → S) (env guard : S → O → Prop) (Good Bad : S → Prop)
    (hgood : ∀ s o, env s o → guard s o → Good s → Good (step s o))
    (hbad : ∀ s o, env s o → ¬guard s o → Good s → Bad (step s o))
    (hstay : ∀ s o, env s o → Bad s → Bad (step s o)) (s : S) (ops : List O) (he : Along step env s ops) (h : Good s) :
    (Along step guard s ops ∧ Good (run step s ops)) ∨ (¬Along step guard s ops ∧ Bad (run step s ops)) := by
  induction ops generalizing s with
  | nil => exact .inl ⟨trivial, h⟩
  | cons o ops ih =>
    by_cases hg : guard s o
    · rcases ih (step s o) he.2 (hgood s o he.1 hg h) with ⟨ha, hr⟩ | ⟨ha, hr⟩
      · exact .inl ⟨⟨hg, ha⟩, hr⟩
      · exact .inr ⟨fun hall => ha hall.2, hr⟩
    · refine .inr ⟨fun hall => hg hall.1, ?_⟩
      exact run_inv step env Bad hstay (step s o) ops he.2 (hbad s o he.1 hg h)

/-! ## A system with ghost components -/

/-- **Projection rule.** A system whose steps project to another's runs as the other does. -/
theorem run_proj (step : S → O → S) (step' : T → O → T) (f : T → S) (hf : ∀ t o, f (step' t o) = step (f t) o) (t : T)
    (ops : List O) : f (run step' t ops) = run step (f t) ops := by
  induction ops generalizing t with
  | nil => rfl
  | cons o ops ih => rw [run_cons, run_cons, ih, hf]

theorem along_proj (step : S → O → S) (step' : T → O → T) (guard : S → O → Prop) (f : T → S)
    (hf : ∀ t o, f (step' t o) = step (f t) o) (t : T) (ops : List O) (hg : Along step guard (f t) ops) :
    Along step' (fun t o => guard (f t) o) t ops := by
  induction ops generalizing t with
  | nil => trivial
  | cons o ops ih =>
    refine ⟨hg.1, ih (step' t o) ?_⟩
    rw [hf]
    exact hg.2

end Arena.Lib
