/-
The round a match has in each phase, over every run of the game loop: persists that fail and votings that are rolled
back included.

- `step_shaped`: every step keeps a round that fits the status;
- `Written.shape`: so does whatever a node decodes from a blob of an earlier owner.
-/
import Arena.Api.Stretch

namespace Arena.Api

open Arena.Lib Arena.Shared Arena.GameCore Arena.GameCore.Machine

/-! ## The round a phase goes with -/

/-- the status of the round in a phase -/
def RoundFits : MatchStatus → Option RoundStatus → Prop
  | .roundActive, r => r = none ∨ r = some .active
  | .roundEvaluating, r => r = some .completed
  | .roundResult, r => r = some .completed
  | .finished, _ => True
  | _, r => r = none

/-- a wire-ready machine whose round fits its status -/
structure Shape (m : Machine) : Prop where
  wire : WireInv m
  frozen : m.eliminatedFrozen = true → m.state.status = .finished
  round : RoundFits m.state.status (m.currentRound.map Round.status)

namespace Shape

variable {m m' : Machine}

theorem create (matchId roomId : String) (players : List PlayerInfo) (hd : (players.map PlayerInfo.id).Nodup) :
    Shape (Machine.create matchId roomId players) where
  wire := wireInv_create matchId roomId players hd
  frozen := fun h => by cases h
  round := rfl

/-- a call that stays in its phase -/
theorem same (h : Shape m) (hs : SamePhase m m') (hw : WireInv m')
    (hf : m'.eliminatedFrozen = true → m.eliminatedFrozen = true) : Shape m' where
  wire := hw
  frozen := fun hx => hs.status.trans (h.frozen (hf hx))
  round := by
    have hround : m'.currentRound.map Round.status = m.currentRound.map Round.status := by
      cases hr : m.currentRound with
      | none => rw [hs.idle hr]
      | some r =>
        obtain ⟨r', hr', hst, -⟩ := hs.round r hr
        rw [hr', Option.map_some, Option.map_some, hst]
    rw [hs.status, hround]
    exact h.round

theorem interim (h : Shape m) (J : StringOps) (o : Op) (ho : o.isInterim = true) : Shape (m.step J o) := by
  have hc := step_change J m o
  have hd : o.decidesWinner = false := by cases o <;> first | rfl | cases ho
  refine h.same (change_samePhase hc ho) (change_wireInv hc h.wire) ?_
  rw [change_unfrozen hc hd]
  exact id

theorem recovered (h : Shape m) : Shape m.recovered :=
  h.same (recovered_samePhase m) (recovered_wireInv m h.wire) fun hx => by cases hx

theorem decoded (h : Shape m) {J : StringOps} (hd : Machine.deserialize J (some m.serialize) = .ok m') : Shape m' := by
  rw [deserialize_eq h.wire hd]
  exact h.recovered

/-- what the round of a finished machine is does not matter -/
theorem ended (hw : WireInv m) (hs : m.state.status = .finished) : Shape m :=
  ⟨hw, fun _ => hs, by rw [hs]; trivial⟩

/-- a transition keeps the round but for ROUND_ACTIVE; ROUND_EVALUATING is left to `evaluate` -/
theorem enter (h : Shape m) {target : MatchStatus} (he : target ≠ .roundEvaluating) (now : Clock)
    (hv : target ∈ validTransitions m.state.status) :
    Shape ((m.logEvent (.stateTransition m.state.status target) (now 0)).enterStatus target now) := by
  have hw := change_wireInv (Change.transition (J := StringOps.ascii) target now hv) h.wire
  have hf : m.eliminatedFrozen = false := by
    cases hz : m.eliminatedFrozen with
    | false => rfl
    | true =>
      rw [h.frozen hz] at hv
      cases hv
  have hround := h.round
  cases target with
  | created => cases hs : m.state.status <;> simp [hs, validTransitions] at hv
  | topicVoting =>
    have hs : m.state.status = .created := by
      cases hs : m.state.status <;> simp [hs, validTransitions] at hv ⊢
    rw [hs] at hround
    exact ⟨hw, fun hx => absurd hx (by simp [enterStatus, hf]), hround⟩
  | countdown =>
    have hs : m.state.status = .created ∨ m.state.status = .topicVoting := by
      cases hs : m.state.status <;> simp [hs, validTransitions] at hv ⊢
    refine ⟨hw, fun hx => absurd hx (by simp [enterStatus, hf]), ?_⟩
    rcases hs with hs | hs
    · rw [hs] at hround
      exact hround
    · rw [hs] at hround
      exact hround
  | roundActive => exact ⟨hw, fun hx => absurd hx (by simp [enterStatus, hf]), .inl rfl⟩
  | roundEvaluating => exact absurd rfl he
  | roundResult =>
    have hs : m.state.status = .roundEvaluating := by
      cases hs : m.state.status <;> simp [hs, validTransitions] at hv ⊢
    rw [hs] at hround
    exact ⟨hw, fun hx => absurd hx (by simp [enterStatus, hf]), hround⟩
  | finished => exact ended hw rfl

theorem transition (h : Shape m) {target : MatchStatus} (he : target ≠ .roundEvaluating) (now : Clock) :
    Shape (m.transition target now).1 := by
  unfold Machine.transition canTransition
  split_ifs with hv
  · exact h.enter he now (by simpa using hv)
  · exact h

theorem unfrozen (h : Shape m) (hs : m.state.status ≠ .finished) : m.eliminatedFrozen = false := by
  cases hz : m.eliminatedFrozen with
  | false => rfl
  | true => exact absurd (h.frozen hz) hs

theorem startRound (h : Shape m) (q : QuestionInput) (d : Option Time) (now : Clock) :
    Shape (m.startRound q d now).1 := by
  have hw : WireInv (m.startRound q d now).1 :=
    change_wireInv (step_change StringOps.ascii m (.startRound q d now)) h.wire
  revert hw
  unfold Machine.startRound
  split_ifs with hs
  · exact fun _ => h
  · intro hw
    have hs' : m.state.status = .roundActive := not_not.1 hs
    refine ⟨hw, fun hx => absurd hx ?_, ?_⟩
    · have hf := h.unfrozen (by rw [hs']; decide)
      simp [beginRound, hf]
    · have hstatus : (m.beginRound q d now).state.status = .roundActive := hs'
      rw [hstatus]
      exact .inr rfl

theorem initTopicVoting (h : Shape m) (c : Option (List String)) (d : Option Time) (now : Clock) :
    Shape (m.initTopicVoting c d now).1 := by
  have hc := initTopicVoting_change StringOps.ascii m c d now
  have hw := change_wireInv hc h.wire
  generalize (m.initTopicVoting c d now).1 = m' at *
  cases hc with
  | same => exact h
  | initRejected _ _ _ _ => exact h.same (.of_round rfl rfl rfl rfl) hw id
  | initVoting _ _ _ hs =>
    have hround := h.round
    have hf := h.unfrozen (by rw [hs]; decide)
    rw [hs] at hround
    exact ⟨hw, fun hx => absurd hx (by simp [openVoting, enterStatus, resetTopics, hf]), hround⟩

/-- the round in play is evaluated, and the evaluation does not throw -/
theorem evaluate (h : Shape m) {r : Round} (now : Clock) (hs : m.state.status = .roundActive)
    (hr : m.currentRound = some r) :
    ∃ m1 m2 e, m.transition .roundEvaluating now = (m1, .ok ()) ∧ m1.evaluateRound now = (m2, .ok e) ∧
      m2.state.status = .roundEvaluating ∧ Shape m2 := by
  have hf := h.unfrozen (by rw [hs]; decide)
  have hv : m.canTransition .roundEvaluating = true := by simp [canTransition, hs, validTransitions]
  let m1 := (m.logEvent (.stateTransition m.state.status .roundEvaluating) (now 0)).enterStatus .roundEvaluating now
  have hc1 : Change StringOps.ascii m (.transition .roundEvaluating now) m1 :=
    .transition .roundEvaluating now (by simpa [canTransition] using hv)
  have hr1 : m1.currentRound = some r := hr
  have hc2 : Change StringOps.ascii m1 (.evaluateRound now) (m1.settle r now) := .evaluated r now hr1 hf
  have hevaluate : m1.evaluateRound now =
      (m1.settle r now, .ok ⟨m1.survivorsOf r, m1.losersOf r, r.correctAnswer⟩) := by
    rw [evaluateRound_eq, hr1]
    simp only [show m1.eliminatedFrozen = false from hf, Bool.false_eq_true, if_false]
  have hw := change_wireInv hc2 (change_wireInv hc1 h.wire)
  refine ⟨m1, m1.settle r now, _, by rw [Machine.transition, if_pos hv], hevaluate, rfl, hw, fun hx => ?_, rfl⟩
  have hz : (m1.settle r now).eliminatedFrozen = false := hf
  rw [hz] at hx
  cases hx

theorem finish (h : Shape m) (now : Clock) {m1 : Machine} (ht : m.transition .finished now = (m1, .ok ())) :
    (m1.finishMatch now).state.status = .finished ∧ Shape (m1.finishMatch now) := by
  have hstep : m.step StringOps.ascii (.transition .finished now) = m1 := congrArg Prod.fst ht
  have hs1 : m1.state.status = .finished := by
    unfold Machine.transition at ht
    split_ifs at ht
    · rw [← (Prod.mk.inj ht).1]
      rfl
    · cases (Prod.mk.inj ht).2
  have hw1 : WireInv m1 := by
    rw [← hstep]
    exact change_wireInv (step_change StringOps.ascii m _) h.wire
  have hc2 : Change StringOps.ascii m1 (.finishMatch now) (m1.finishMatch now) := .finish now
  have hs2 := change_finished hc2 hs1
  exact ⟨hs2, ended (change_wireInv hc2 hw1) hs2⟩

/-- **A stretch of the loop leaves a round that fits.** -/
theorem stretch (h : Shape m) {J : StringOps} {start : Bool} (hs : Runner.Stretch J start m m') : Shape m' := by
  cases hs with
  | same => exact h
  | interim o ho => exact h.interim J o ho
  | initTopicVoting now => exact h.initTopicVoting none none now
  | voted n now => exact (h.interim J (.resolveTopicVoting n now) rfl).transition (by decide) now
  | enter target now he => exact h.transition he now
  | startRound q now _ => exact h.startRound q none now
  | evaluated r now hs hr _ =>
    obtain ⟨m1, m2, e, ht, he, -, hm2⟩ := h.evaluate now hs hr
    rw [ht]
    rw [he]
    exact hm2
  | finished m1 now ht => exact (h.finish now ht).2

end Shape

/-! ## Blobs of any run -/

namespace Runner

/-- the machine, and every machine a voting callback would roll back to -/
structure Shaped (s : Runner) : Prop where
  machine : Shape s.machine
  rollback : ∀ m, .votingPersist m ∈ s.tasks → Shape m

/-- **Every step, failed or not, leaves a round that fits the status.** -/
theorem step_shaped (J : StringOps) (s : Runner) (o : RunnerOp) (h : Shaped s) : Shaped (s.step J o) := by
  constructor
  · cases hroll : s.rollsBack o with
    | false => exact h.machine.stretch (step_stretch J s o hroll)
    | true =>
      rcases step_rollsBack J hroll with hsame | ⟨m, hm, hd⟩
      · rw [hsame]
        exact h.machine
      · exact (h.rollback m hm).decoded hd
  · intro m hm
    rcases step_rollbacks J s o m hm with hold | rfl
    · exact h.rollback m hold
    · exact h.machine

/-- the machines a node decodes: a created match, or a blob of any state an earlier owner was in -/
inductive Written (J : StringOps) : Machine → Prop where
  | created (matchId roomId : String) (players : List PlayerInfo) (hd : (players.map PlayerInfo.id).Nodup) :
      Written J (Machine.create matchId roomId players)
  | stored (m m' : Machine) (clock : Time) (ops : List RunnerOp) (key : Option String) (h : Written J m)
      (hd : Machine.deserialize J (some (run (step J) (adopt m clock) ops).machine.serialize) = .ok m') :
      Written J (Cluster.rehydrated m' key)

theorem adopt_shaped {m : Machine} (h : Shape m) (clock : Time) : Shaped (adopt m clock) :=
  ⟨h, fun _ hm => by cases hm⟩

/-- **What a node decodes fits its status**, whatever failed before. -/
theorem Written.shape {J : StringOps} {m : Machine} (h : Written J m) : Shape m := by
  induction h with
  | created matchId roomId players hd => exact Shape.create matchId roomId players hd
  | stored m m' clock ops key _ hd ih =>
    have hrun : Shaped (run (step J) (adopt m clock) ops) :=
      run_inv (step J) (fun _ _ => True) Shaped (fun s o _ hs => step_shaped J s o hs) _ ops
        ((along_const _ _ _ _).2 fun _ _ => trivial) (adopt_shaped ih clock)
    have hdecoded := hrun.machine.decoded hd
    unfold Cluster.rehydrated
    split
    · rename_i key
      exact hdecoded.interim J (.attachCorrectAnswer key) rfl
    · exact hdecoded

end Runner

end Arena.Api
