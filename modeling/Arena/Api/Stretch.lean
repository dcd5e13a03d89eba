/-
What a step of the game loop does to the machine.

A step is one synchronous stretch, so it makes one call, or the few calls of one callback: `Stretch` lists them. The
only other way the machine moves is a voting callback whose persist is refused: it puts the machine back to the one it
started from. What holds of the machine along a run, failures included, is then proved once for each kind of stretch.

- `step_stretch`: a step that rolls nothing back is a stretch;
- `step_rollsBack`, `step_rollbacks`: a rollback decodes a machine the loop has had.
-/
import Arena.Api.RoundOrder

namespace Arena.Api

open Arena.Lib Arena.Shared Arena.GameCore Arena.GameCore.Machine

/-- an allowed transition -/
theorem transition_ok {m : Machine} {target : MatchStatus} (hv : target ∈ validTransitions m.state.status) (now : Clock) :
    ∃ m', m.transition target now = (m', .ok ()) ∧ m'.state.status = target ∧
      (target = .roundActive → m'.currentRound = none) := by
  refine ⟨(m.logEvent (.stateTransition m.state.status target) (now 0)).enterStatus target now, ?_, ?_, ?_⟩
  · rw [Machine.transition, if_pos (by simpa [canTransition] using hv)]
  · cases target <;> rfl
  · rintro rfl
    rfl

theorem transition_error {m : Machine} {target : MatchStatus} (hv : target ∉ validTransitions m.state.status)
    (now : Clock) : m.transition target now = (m, .error (.invalidTransition m.state.status target)) := by
  rw [Machine.transition, if_neg (by simpa [canTransition] using hv)]

namespace Runner

/-- the step starts a round -/
def startsRound (s : Runner) : RunnerOp → Bool
  | .resume i (.question _) => s.tasks[i]? = some .executeQuestion
  | _ => false

/-- the step puts the machine of a voting callback back -/
def rollsBack (s : Runner) : RunnerOp → Bool
  | .resume i .notApplied =>
    match s.tasks[i]? with
    | some (.votingPersist _) => true
    | _ => false
  | _ => false

/-- the calls of a step; a round is started only if `start` -/
inductive Stretch (J : StringOps) (start : Bool) (m : Machine) : Machine → Prop where
  | same : Stretch J start m m
  | interim (o : Op) (ho : o.isInterim = true) : Stretch J start m (m.step J o)
  | initTopicVoting (now : Clock) : Stretch J start m (m.initTopicVoting none none now).1
  | voted (n : ℕ) (now : Clock) : Stretch J start m ((m.resolveTopicVoting n now).1.transition .countdown now).1
  | enter (target : MatchStatus) (now : Clock) (he : target ≠ .roundEvaluating) :
      Stretch J start m (m.transition target now).1
  | startRound (q : QuestionInput) (now : Clock) (hs : start = true) : Stretch J start m (m.startRound q none now).1
  | evaluated (r : Round) (now : Clock) (hs : m.state.status = .roundActive) (hr : m.currentRound = some r)
      (ha : r.status = .active) : Stretch J start m ((m.transition .roundEvaluating now).1.evaluateRound now).1
  | finished (m1 : Machine) (now : Clock) (ht : m.transition .finished now = (m1, .ok ())) :
      Stretch J start m (m1.finishMatch now)

section Stretches

variable {J : StringOps} {start : Bool} {s : Runner}

theorem Stretch.of_eq {m m' : Machine} (h : m' = m) : Stretch J start m m' := by
  rw [h]
  exact .same

theorem endLook_stretch : Stretch J start s.machine s.endLook.machine := by
  unfold endLook
  split_ifs
  · exact .same
  split
  · exact .same
  rename_i r hr
  split
  · rename_i hs
    split_ifs with hopen
    · exact .same
    · have hvalid : MatchStatus.roundEvaluating ∈ validTransitions s.machine.state.status := by rw [hs]; decide
      obtain ⟨m1, ht, -⟩ := transition_ok hvalid s.now
      have hstretch : Stretch J start s.machine ((s.machine.transition .roundEvaluating s.now).1.evaluateRound s.now).1 :=
        .evaluated r s.now hs hr (not_not.1 hopen)
      unfold handleActiveRoundEnd
      rw [ht] at hstretch ⊢
      dsimp only
      rw [awaitAfter_machine s _ _ endEndRound fun _ => rfl]
      exact hstretch
  · split_ifs <;> exact .same
  · exact .same
  · exact .same

theorem finishLook_stretch : Stretch J start s.machine s.finishLook.machine := by
  unfold finishLook
  split_ifs
  · exact .same
  split
  · rename_i m e ht
    rw [show m = (s.machine.transition .finished s.now).1 from (congrArg Prod.fst ht).symm]
    exact .enter .finished s.now (by decide)
  · rename_i m a ht
    exact .finished m s.now ht

theorem votingLook_stretch : Stretch J start s.machine s.votingLook.machine := by
  unfold votingLook
  split_ifs
  · exact .same
  · exact .same
  · rw [awaitAfter_machine s _ _ id fun _ => rfl]
    exact .voted _ s.now

theorem startLook_stretch (isAllCategory : Bool) : Stretch J start s.machine (s.startLook isAllCategory).machine := by
  unfold startLook
  split_ifs
  · rw [awaitAfter_machine s _ _ id fun _ => rfl]
    exact .initTopicVoting s.now
  · rw [awaitAfter_machine s _ _ id fun _ => rfl]
    exact .enter .countdown s.now (by decide)

theorem continueTask_stretch {reply : Reply} {t : Task}
    (hstart : t = .executeQuestion → ∀ q, reply = .question q → start = true)
    (hroll : ∀ m, t = .votingPersist m → reply ≠ .notApplied) :
    Stretch J start s.machine (s.continueTask J reply t).machine := by
  cases t with
  | startMatchLoop b =>
    simp only [continueTask]
    split_ifs
    · exact startLook_stretch b
    · exact .same
  | startPersist b =>
    simp only [continueTask, startArm]
    split_ifs <;> exact .same
  | votingGet => exact votingLook_stretch
  | votingPersist m =>
    simp only [continueTask, votingArm]
    cases reply with
    | notApplied => exact absurd rfl (hroll m rfl)
    | _ => exact .same
  | countdownGet =>
    simp only [continueTask]
    split_ifs <;> exact .same
  | executeGet =>
    simp only [continueTask, executeLook]
    split_ifs
    · exact .same
    · rw [awaitAfter_machine s _ _ id fun _ => rfl]
      exact .enter .roundActive s.now (by decide)
  | executeQuestion =>
    simp only [continueTask, executeStart]
    split
    · rename_i q
      rw [awaitAfter_machine s _ _ id fun _ => rfl]
      exact .startRound q s.now (hstart rfl q rfl)
    · exact .of_eq (finishMatchLoop_machine s _)
  | executePersist k =>
    simp only [continueTask]
    split_ifs <;> exact .same
  | earlyGet => exact .of_eq (earlyLook_machine s)
  | endAssert k =>
    simp only [continueTask, beginEndRound]
    split_ifs <;> exact .same
  | endGet k => exact endLook_stretch
  | endEvaluated k =>
    simp only [continueTask]
    split_ifs <;> exact .same
  | endSave k =>
    simp only [continueTask]
    split_ifs <;> exact .same
  | endPersist k =>
    simp only [continueTask, endShow]
    split_ifs
    · rw [awaitAfter_machine s _ _ endEndRound fun _ => rfl]
      exact .enter .roundResult s.now (by decide)
    · exact .same
  | endResult k =>
    simp only [continueTask]
    split_ifs <;> exact .same
  | checkGet k => exact .of_eq (checkLook_machine s k)
  | finishGet k => exact finishLook_stretch
  | finishPersist =>
    simp only [continueTask]
    split_ifs <;> exact .same
  | finishDb =>
    simp only [continueTask]
    split_ifs <;> exact .same
  | _ => exact .same

/-- **A step that rolls nothing back is a stretch.** -/
theorem step_stretch (J : StringOps) (s : Runner) (o : RunnerOp) (hroll : s.rollsBack o = false) :
    Stretch J (s.startsRound o) s.machine (s.step J o).machine := by
  cases o with
  | tick ms => exact .same
  | startMatchLoop b => exact .same
  | resumeMatchLoop =>
    simp only [step, resumeMatchLoop]
    split <;> exact .same
  | cancelMatchLoop => exact .same
  | fire i =>
    simp only [step, fire]
    split
    · exact .same
    · split_ifs
      · unfold timerCallback
        split <;> exact .same
      · exact .same
  | resume i reply =>
    simp only [step, resume]
    cases ht : s.tasks[i]? with
    | none => exact .same
    | some t =>
      refine continueTask_stretch (s := { s with tasks := s.tasks.eraseIdx i }) ?_ ?_
      · rintro rfl q rfl
        simp [startsRound, ht]
      · rintro m rfl rfl
        simp [rollsBack, ht] at hroll
  | checkEarlyTermination =>
    simp only [step, checkEarlyTermination]
    split_ifs <;> exact .same
  | command o =>
    simp only [step]
    split_ifs with hc
    · exact .interim o (isInterim_of_isCommand hc)
    · exact .same

end Stretches

/-! ## Rollbacks -/

/-- a rollback decodes the machine its callback started from -/
theorem step_rollsBack (J : StringOps) {s : Runner} {o : RunnerOp} (h : s.rollsBack o = true) :
    (s.step J o).machine = s.machine ∨ ∃ m, .votingPersist m ∈ s.tasks ∧
      Machine.deserialize J (some m.serialize) = .ok (s.step J o).machine := by
  cases o with
  | resume i reply =>
    cases reply with
    | notApplied =>
      simp only [rollsBack] at h
      split at h
      · rename_i m ht
        simp only [step, resume, ht, continueTask, votingArm]
        split
        · rename_i canonical hd
          exact .inr ⟨m, List.mem_of_getElem? ht, hd⟩
        · exact .inl rfl
      · cases h
    | _ => cases h
  | _ => cases h

/-- no voting callback has begun -/
def NoVoting (s s' : Runner) : Prop := ∀ m, .votingPersist m ∈ s'.tasks → .votingPersist m ∈ s.tasks

section NoVoting

variable {s s' : Runner}

theorem NoVoting.same (h : s'.tasks = s.tasks) : NoVoting s s' := fun m hm => by rwa [h] at hm

theorem NoVoting.await {t : Task} (ht : ∀ m, t ≠ .votingPersist m) : NoVoting s (s.await t) := by
  intro m hm
  rcases List.mem_append.1 hm with hm | hm
  · exact hm
  · exact absurd (List.mem_singleton.1 hm).symm (ht m)

theorem NoVoting.awaitAfter {α : Type} {result : Outcome α} {t : α → Task} {throws : Runner → Runner}
    (hx : ∀ x, (throws x).tasks = x.tasks) (ht : ∀ a m, t a ≠ .votingPersist m) :
    NoVoting s (s.awaitAfter result t throws) := by
  obtain ⟨m, r⟩ := result
  cases r with
  | error e => exact NoVoting.same (hx _)
  | ok a => exact NoVoting.await (s := { s with machine := m }) (ht a)

theorem finishMatchLoop_noVoting (k : ℕ) : NoVoting s (s.finishMatchLoop k) := by
  unfold finishMatchLoop
  split_ifs
  · exact .same rfl
  · exact NoVoting.await (s := { s with finishing := true }) (by simp)

theorem earlyLook_noVoting : NoVoting s s.earlyLook := by
  unfold earlyLook
  split_ifs
  · exact .same rfl
  split
  · exact .same rfl
  split_ifs
  · exact NoVoting.await (s := s.clearTimers) (by simp)
  · exact .same rfl

theorem endLook_noVoting : NoVoting s s.endLook := by
  unfold endLook handleActiveRoundEnd
  split_ifs
  · exact .same rfl
  split
  · exact .same rfl
  split
  · split_ifs
    · exact .same rfl
    · split
      · exact .same rfl
      · exact .awaitAfter (fun _ => rfl) (by simp)
  · split_ifs
    · exact .same rfl
    · exact .await (by simp)
  · exact .same rfl
  · exact .same rfl

theorem finishLook_noVoting : NoVoting s s.finishLook := by
  unfold finishLook
  split_ifs
  · exact .same rfl
  split
  · exact .same rfl
  · rename_i m a _
    exact NoVoting.await (s := { s with machine := m.finishMatch s.now }) (by simp)

theorem continueTask_noVoting (J : StringOps) {reply : Reply} {t : Task} (ht : t ≠ .votingGet) :
    NoVoting s (s.continueTask J reply t) := by
  cases t with
  | startMatchLoop b =>
    simp only [continueTask, startLook]
    split_ifs
    · exact .awaitAfter (fun _ => rfl) (by simp)
    · exact .awaitAfter (fun _ => rfl) (by simp)
    · exact .same rfl
  | startPersist b =>
    simp only [continueTask, startArm]
    split_ifs <;> exact .same rfl
  | votingAssert => exact .await (by simp)
  | votingGet => exact absurd rfl ht
  | votingPersist m =>
    simp only [continueTask, votingArm]
    split
    · split <;> exact .same rfl
    · exact .same rfl
    · exact .same rfl
  | countdownGet =>
    simp only [continueTask]
    split_ifs
    · exact .await (by simp)
    · exact .same rfl
  | executeAssert => exact .await (by simp)
  | executeGet =>
    simp only [continueTask, executeLook]
    split_ifs
    · exact .same rfl
    · exact .awaitAfter (fun _ => rfl) (by simp)
  | executeQuestion =>
    simp only [continueTask, executeStart]
    split
    · exact .awaitAfter (fun _ => rfl) (by simp)
    · exact finishMatchLoop_noVoting _
  | executePersist k =>
    simp only [continueTask]
    split_ifs <;> exact .same rfl
  | earlyGet => exact earlyLook_noVoting
  | endAssert k =>
    simp only [continueTask, beginEndRound]
    split_ifs
    · exact .same rfl
    · exact NoVoting.await (s := { s with endingRound := true }) (by simp)
  | endGet k => exact endLook_noVoting
  | endRecover k => exact .await (by simp)
  | endPersist k =>
    simp only [continueTask, endShow]
    split_ifs
    · exact .awaitAfter (fun _ => rfl) (by simp)
    · exact .same rfl
  | endResult k =>
    simp only [continueTask]
    split_ifs <;> exact .same rfl
  | checkAssert k => exact .await (by simp)
  | checkGet k =>
    simp only [continueTask, checkLook]
    split_ifs
    · exact .same rfl
    · exact finishMatchLoop_noVoting k
    · exact .await (by simp)
  | finishAssert k => exact .await (by simp)
  | finishGet k => exact finishLook_noVoting
  | finishDb =>
    simp only [continueTask]
    split_ifs
    · exact NoVoting.await (s := { s with cached := false }.disposeMatch) (t := .finishRelease) (by simp)
    · exact .same rfl
  | finishRelease => exact .same rfl
  | _ =>
    simp only [continueTask]
    split_ifs
    · exact .await (by simp)
    · exact .same rfl

end NoVoting

/-- a voting callback begins with the machine it finds -/
theorem votingLook_rollbacks {s : Runner} {m : Machine} (hm : .votingPersist m ∈ s.votingLook.tasks) :
    .votingPersist m ∈ s.tasks ∨ m = s.machine := by
  unfold votingLook at hm
  split_ifs at hm
  · exact .inl hm
  · exact .inl hm
  · unfold awaitAfter at hm
    split at hm
    · exact .inl hm
    · rcases List.mem_append.1 hm with hm | hm
      · exact .inl hm
      · exact .inr (by simpa using hm)

/-- **What a callback may roll back to is a machine the loop has had.** -/
theorem step_rollbacks (J : StringOps) (s : Runner) (o : RunnerOp) (m : Machine)
    (hm : .votingPersist m ∈ (s.step J o).tasks) : .votingPersist m ∈ s.tasks ∨ m = s.machine := by
  cases o with
  | tick ms => exact .inl hm
  | startMatchLoop b => exact .inl (NoVoting.await (by simp) m hm)
  | resumeMatchLoop =>
    simp only [step, resumeMatchLoop] at hm
    split at hm
    case h_4 => exact .inl (NoVoting.await (by simp) m hm)
    all_goals exact .inl hm
  | cancelMatchLoop => exact .inl hm
  | fire i =>
    simp only [step, fire] at hm
    split at hm
    · exact .inl hm
    split_ifs at hm
    · unfold timerCallback at hm
      split at hm
      · exact .inl (NoVoting.await (t := .votingAssert) (by simp) m hm)
      · exact .inl (NoVoting.await (t := .countdownGet) (by simp) m hm)
      · exact .inl (NoVoting.await (t := .endAssert _) (by simp) m hm)
      · exact .inl (NoVoting.await (t := .checkAssert _) (by simp) m hm)
    · exact .inl hm
  | resume i reply =>
    simp only [step, resume] at hm
    cases ht : s.tasks[i]? with
    | none =>
      rw [ht] at hm
      exact .inl hm
    | some t =>
      rw [ht] at hm
      have hsub : s.tasks.eraseIdx i ⊆ s.tasks := List.eraseIdx_subset
      by_cases hv : t = .votingGet
      · subst hv
        exact (votingLook_rollbacks (s := { s with tasks := s.tasks.eraseIdx i }) hm).imp (fun h => hsub h) fun h => h
      · exact .inl (hsub (continueTask_noVoting (s := { s with tasks := s.tasks.eraseIdx i }) J hv m hm))
  | checkEarlyTermination =>
    simp only [step, checkEarlyTermination] at hm
    split_ifs at hm
    · exact .inl hm
    · exact .inl (NoVoting.await (by simp) m hm)
  | command o =>
    simp only [step] at hm
    split_ifs at hm <;> exact .inl hm

end Runner

end Arena.Api
