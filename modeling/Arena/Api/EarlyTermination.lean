/-
When `checkEarlyTermination` finds a round complete.

The test compares the answers of the round with a count that is kept apart from the machine, in the timer registry: it
is set when the persist of the round's start is APPLIED, or when the loop resumes in the round. From then on it is the
number of starting players, whatever happens; before, it is the count of another round, or none.

- `step_entrants`: a step of the loop, failed or not, keeps the entrants of the round;
- `early_termination_exact`: in every run of the loop only starting players have an answer, and once they are counted
  the test holds exactly when each of them has;
- `early_answers_uncounted`: the two players of a second round answer before its start is stored, and the test still
  waits for the three of the first.
-/
import Arena.GameCore.Entrants
import Arena.Api.Stall

namespace Arena.Api

open Arena.Lib Arena.Shared Arena.GameCore Arena.GameCore.Machine

namespace Runner

/-! ## Statement -/

/-- the step sets the count: the start of a round is stored, or the loop resumes in a round -/
def counts (s : Runner) : RunnerOp → Bool
  | .resume i reply =>
    match s.tasks[i]? with
    | some (.executePersist _) => reply.applied
    | _ => false
  | .resumeMatchLoop => s.machine.state.status = .roundActive
  | _ => false

/-- the step drops the runtime of the match -/
def disposes (s : Runner) : RunnerOp → Bool
  | .resume i reply => s.tasks[i]? = some .finishDb ∧ reply.applied
  | .resumeMatchLoop => s.machine.state.status = .finished ∨ s.machine.state.status = .created
  | .cancelMatchLoop => true
  | _ => false

/-- the step leaves the round in play, and the runtime of its match, in place -/
def staysCounted (s : Runner) (o : RunnerOp) : Bool := !s.startsRound o && !s.rollsBack o && !s.disposes o

/-- whether the players of the round in play are counted after a run -/
def counted (J : StringOps) : Runner → Bool → List RunnerOp → Bool
  | _, c, [] => c
  | s, c, o :: ops => counted J (s.step J o) (s.counts o || (c && s.staysCounted o)) ops

/-! ## Entrants -/

theorem Stretch.entrantInv {J : StringOps} {start : Bool} {m m' : Machine} (hs : Stretch J start m m')
    (h : EntrantInv m) : EntrantInv m' := by
  have call : ∀ (m : Machine) (o : Op), (∀ now, o ≠ .evaluateRound now) → EntrantInv m → EntrantInv (m.step J o) := by
    intro m o ho hm
    refine act_entrantInv J m (.call o) ?_ hm
    cases o with
    | evaluateRound now => exact absurd rfl (ho now)
    | _ => trivial
  cases hs with
  | same => exact h
  | interim o ho =>
    refine call m o ?_ h
    rintro now rfl
    cases ho
  | initTopicVoting now => exact call m (.initTopicVoting none none now) (by simp) h
  | voted n now =>
    exact call _ (.transition .countdown now) (by simp) (call m (.resolveTopicVoting n now) (by simp) h)
  | enter target now _ => exact call m (.transition target now) (by simp) h
  | startRound q now _ => exact call m (.startRound q none now) (by simp) h
  | evaluated r now hs hr ha =>
    have hmoved := call m (.transition .roundEvaluating now) (by simp) h
    refine act_entrantInv J _ (.call (.evaluateRound now)) ?_ hmoved
    intro x hx
    have hround : (m.transition .roundEvaluating now).1.currentRound = m.currentRound := by
      unfold Machine.transition
      split_ifs <;> rfl
    obtain rfl := Option.some.inj (hr.symm.trans (hround.symm.trans hx))
    exact ha
  | finished m1 now ht =>
    have hmoved := call m (.transition .finished now) (by simp) h
    rw [show m.step J (.transition .finished now) = m1 from congrArg Prod.fst ht] at hmoved
    exact call m1 (.finishMatch now) (by simp) hmoved

theorem decoded_entrantInv {J : StringOps} {m m' : Machine} (h : EntrantInv m)
    (hd : Machine.deserialize J (some m.serialize) = .ok m') : EntrantInv m' := by
  have hf : m.failover J = m' := by
    unfold failover
    rw [hd]
  rw [← hf]
  exact act_entrantInv J m .failover trivial h

/-- the machine, and every machine a voting callback would roll back to -/
structure Entered (s : Runner) : Prop where
  machine : EntrantInv s.machine
  rollback : ∀ m, .votingPersist m ∈ s.tasks → EntrantInv m

/-- **Every step of the loop, failed or not, keeps the entrants of the round.** -/
theorem step_entrants (J : StringOps) (s : Runner) (o : RunnerOp) (h : Entered s) : Entered (s.step J o) := by
  constructor
  · cases hroll : s.rollsBack o with
    | false => exact (step_stretch J s o hroll).entrantInv h.machine
    | true =>
      rcases step_rollsBack J hroll with hsame | ⟨m, hm, hd⟩
      · rw [hsame]
        exact h.machine
      · exact decoded_entrantInv (h.rollback m hm) hd
  · intro m hm
    rcases step_rollbacks J s o m hm with hold | rfl
    · exact h.rollback m hold
    · exact h.machine

theorem adopt_entered {m : Machine} (h : EntrantInv m) (clock : Time) : Entered (adopt m clock) :=
  ⟨h, fun _ hm => by cases hm⟩

theorem run_entered (J : StringOps) {s : Runner} (h : Entered s) (ops : List RunnerOp) : Entered (run (step J) s ops) :=
  run_inv (step J) (fun _ _ => True) Entered (fun s o _ hs => step_entrants J s o hs) s ops (along_true _ _ _) h

theorem Written.entrantInv {J : StringOps} {m : Machine} (h : Written J m) : EntrantInv m := by
  induction h with
  | created matchId roomId players hd => exact entrantInv_create matchId roomId players hd
  | stored m m' clock ops key _ hd ih =>
    have hdecoded := decoded_entrantInv (run_entered J (adopt_entered ih clock) ops).machine hd
    unfold Cluster.rehydrated
    split
    · rename_i key
      exact act_entrantInv J m' (.call (.attachCorrectAnswer key)) trivial hdecoded
    · exact hdecoded

/-! ## The count -/

/-- while the round is ACTIVE the count is that of the survivors -/
def CountExact (s : Runner) : Prop := ∀ r, s.machine.currentRound = some r → r.status = .active →
  s.expectedAnswers = some s.machine.state.survivingPlayerIds.length

/-- a stretch that starts no round leaves an ACTIVE round as it was -/
theorem Stretch.active {J : StringOps} {m m' : Machine} (hs : Stretch J false m m') {r' : Round}
    (hr' : m'.currentRound = some r') (ha : r'.status = .active) :
    (∃ r, m.currentRound = some r ∧ r.status = .active) ∧
      m'.state.survivingPlayerIds = m.state.survivingPlayerIds := by
  cases hs with
  | same => exact ⟨⟨r', hr', ha⟩, rfl⟩
  | interim o ho => exact change_active (step_change J m o) (by rintro q d now rfl; cases ho) hr' ha
  | initTopicVoting now => exact change_active (step_change J m (.initTopicVoting none none now)) (by simp) hr' ha
  | voted n now =>
    obtain ⟨⟨r, hr, hra⟩, hs⟩ :=
      change_active (step_change J (m.step J (.resolveTopicVoting n now)) (.transition .countdown now)) (by simp) hr' ha
    obtain ⟨hbefore, hs'⟩ := change_active (step_change J m (.resolveTopicVoting n now)) (by simp) hr hra
    exact ⟨hbefore, hs.trans hs'⟩
  | enter target now _ => exact change_active (step_change J m (.transition target now)) (by simp) hr' ha
  | startRound q now hs => cases hs
  | evaluated r now hs hr hra =>
    obtain ⟨⟨r1, hr1, hra1⟩, hs1⟩ :=
      change_active (step_change J (m.step J (.transition .roundEvaluating now)) (.evaluateRound now)) (by simp) hr' ha
    obtain ⟨hbefore, hs'⟩ := change_active (step_change J m (.transition .roundEvaluating now)) (by simp) hr1 hra1
    exact ⟨hbefore, hs1.trans hs'⟩
  | finished m1 now ht =>
    obtain rfl : m.step J (.transition .finished now) = m1 := congrArg Prod.fst ht
    obtain ⟨⟨r1, hr1, hra1⟩, hs1⟩ := change_active (step_change J _ (.finishMatch now)) (by simp) hr' ha
    obtain ⟨hbefore, hs'⟩ := change_active (step_change J m (.transition .finished now)) (by simp) hr1 hra1
    exact ⟨hbefore, hs1.trans hs'⟩

/-- a step sets the count to that of the survivors, or leaves it, unless it drops the runtime -/
theorem step_expected (J : StringOps) {s : Runner} {o : RunnerOp} (hd : s.disposes o = false) :
    (s.step J o).expectedAnswers = s.expectedAnswers ∨
      ((s.step J o).machine = s.machine ∧
        (s.step J o).expectedAnswers = some s.machine.state.survivingPlayerIds.length) := by
  have after : ∀ {α : Type} (x : Runner) (result : Outcome α) (t : α → Task) (throws : Runner → Runner),
      (∀ y, (throws y).expectedAnswers = y.expectedAnswers) →
        (x.awaitAfter result t throws).expectedAnswers = x.expectedAnswers := by
    intro α x result t throws hx
    obtain ⟨m, r⟩ := result
    cases r with
    | error e => exact hx _
    | ok a => rfl
  cases o with
  | resumeMatchLoop =>
    simp only [disposes, decide_eq_false_iff_not, not_or] at hd
    simp only [step, resumeMatchLoop]
    split
    case h_3 => exact .inr ⟨rfl, rfl⟩
    case h_6 hs => exact absurd hs hd.1
    case h_7 hs => exact absurd hs hd.2
    all_goals exact .inl rfl
  | cancelMatchLoop => cases hd
  | fire i =>
    left
    simp only [step, fire]
    split
    · rfl
    · split_ifs
      · unfold timerCallback
        split <;> rfl
      · rfl
  | resume i reply =>
    simp only [step, resume]
    cases ht : s.tasks[i]? with
    | none => exact .inl rfl
    | some t =>
      dsimp only
      cases t with
      | executePersist k =>
        simp only [continueTask]
        split_ifs
        · exact .inr ⟨rfl, rfl⟩
        · exact .inl rfl
      | finishDb =>
        simp only [disposes, ht, true_and, decide_eq_false_iff_not, Bool.not_eq_true] at hd
        simp only [continueTask, hd]
        exact .inl rfl
      | startMatchLoop b =>
        left
        simp only [continueTask, startLook]
        split_ifs
        · exact after _ _ _ _ fun _ => rfl
        · exact after _ _ _ _ fun _ => rfl
        · rfl
      | votingGet =>
        left
        simp only [continueTask, votingLook]
        split_ifs
        · rfl
        · rfl
        · exact after _ _ _ _ fun _ => rfl
      | votingPersist m =>
        left
        simp only [continueTask, votingArm]
        split
        · split <;> rfl
        · rfl
        · rfl
      | executeGet =>
        left
        simp only [continueTask, executeLook]
        split_ifs
        · rfl
        · exact after _ _ _ _ fun _ => rfl
      | executeQuestion =>
        left
        simp only [continueTask, executeStart, finishMatchLoop]
        split
        · exact after _ _ _ _ fun _ => rfl
        · split_ifs <;> rfl
      | earlyGet =>
        left
        simp only [continueTask, earlyLook]
        split_ifs
        · rfl
        · split
          · rfl
          · split_ifs <;> rfl
      | endGet k =>
        left
        simp only [continueTask, endLook, handleActiveRoundEnd]
        split_ifs
        · rfl
        split
        · rfl
        split
        · split_ifs
          · rfl
          · split
            · rfl
            · exact after _ _ _ _ fun _ => rfl
        · split_ifs <;> rfl
        · rfl
        · rfl
      | endPersist k =>
        left
        simp only [continueTask, endShow]
        split_ifs
        · exact after _ _ _ _ fun _ => rfl
        · rfl
      | finishGet k =>
        left
        simp only [continueTask, finishLook]
        split_ifs
        · rfl
        · split <;> rfl
      | checkGet k =>
        left
        simp only [continueTask, checkLook, finishMatchLoop]
        split_ifs <;> rfl
      | _ =>
        left
        simp only [continueTask, beginEndRound, startArm]
        repeat' split
        all_goals rfl
  | checkEarlyTermination =>
    left
    simp only [step, checkEarlyTermination]
    split_ifs <;> rfl
  | command o =>
    left
    simp only [step]
    split_ifs <;> rfl
  | _ => exact .inl rfl

/-- a step that counts leaves the machine, and the count is exact -/
theorem step_counts (J : StringOps) {s : Runner} {o : RunnerOp} (h : s.counts o = true) : CountExact (s.step J o) := by
  intro r _ _
  cases o with
  | resumeMatchLoop =>
    have hs : s.machine.state.status = .roundActive := by simpa [counts] using h
    simp only [step, resumeMatchLoop, hs]
    rfl
  | resume i reply =>
    simp only [counts] at h
    split at h
    · rename_i k ht
      simp only [step, resume, ht, continueTask, h, if_true]
      rfl
    · cases h
  | _ => cases h

/-- an exact count stays so while the round and the runtime stay -/
theorem step_countExact (J : StringOps) {s : Runner} {o : RunnerOp} (ho : s.staysCounted o = true)
    (h : CountExact s) : CountExact (s.step J o) := by
  simp only [staysCounted, Bool.and_eq_true, Bool.not_eq_true'] at ho
  obtain ⟨⟨hstart, hroll⟩, hdrop⟩ := ho
  have hstretch := step_stretch J s o hroll
  rw [hstart] at hstretch
  intro r hr ha
  obtain ⟨⟨r0, hr0, ha0⟩, hs⟩ := hstretch.active hr ha
  rw [hs]
  rcases step_expected J hdrop with he | ⟨-, he⟩
  · rw [he]
    exact h r0 hr0 ha0
  · exact he

theorem counted_exact (J : StringOps) (ops : List RunnerOp) (s : Runner) (c : Bool) (hc : c = true → CountExact s)
    (h : counted J s c ops = true) : CountExact (run (step J) s ops) := by
  induction ops generalizing s c with
  | nil => exact hc h
  | cons o ops ih =>
    refine ih (s.step J o) _ (fun hnow => ?_) h
    rcases Bool.or_eq_true_iff.1 hnow with hcounts | hstays
    · exact step_counts J hcounts
    · obtain ⟨hbefore, hstays⟩ := Bool.and_eq_true_iff.1 hstays
      exact step_countExact J hstays (hc hbefore)

/-- **Early termination is exact.** While a round is ACTIVE only its starting players have an answer; once they are
counted, the test of `checkEarlyTermination` holds exactly when each of them has. -/
theorem early_termination_exact (J : StringOps) (m : Machine) (clock : Time) (hm : Written J m) (ops : List RunnerOp)
    (r : Round) (hr : (run (step J) (adopt m clock) ops).machine.currentRound = some r) (ha : r.status = .active) :
    ∃ players, r.startingPlayers = some players ∧ r.answers.keys ⊆ players ∧
      (counted J (adopt m clock) false ops = true →
        (run (step J) (adopt m clock) ops).expectedAnswers = some players.length ∧
        ((run (step J) (adopt m clock) ops).getExpectedAnswers ≤ r.answers.size ↔
          ∀ p ∈ players, (r.answers.get p).isSome)) := by
  have hrun := (run_entered J (adopt_entered hm.entrantInv clock) ops).machine
  refine ⟨_, hrun.snapshot.round r hr ha, ?_, fun hc => ?_⟩
  · intro p hp
    obtain ⟨v, hv⟩ := (JsMap.mem_keys _ _).1 hp
    exact hrun.answered r hr ha p (by rw [hv]; rfl)
  · have hexact := counted_exact J ops (adopt m clock) false (by simp) hc r hr ha
    rw [getExpectedAnswers, hexact]
    exact ⟨rfl, hrun.full_iff hr ha⟩

/-- the first round of the duel is started and stored, and alice answers -/
def aliceAnswered : List RunnerOp :=
  [.startMatchLoop false] ++ go 0 2 ++ [.tick 5000, .fire 0] ++ go 0 3 ++ [ask 0 "q1"] ++ go 0 1 ++
    [.tick 1000, answer "alice" 6000]

theorem early_termination_exact_duel :
    ∃ r players, (run (step StringOps.ascii) duel aliceAnswered).machine.currentRound = some r ∧
      r.startingPlayers = some players ∧ r.answers.keys ⊆ players ∧
      (run (step StringOps.ascii) duel aliceAnswered).expectedAnswers = some players.length ∧
      ((run (step StringOps.ascii) duel aliceAnswered).getExpectedAnswers ≤ r.answers.size ↔
        ∀ p ∈ players, (r.answers.get p).isSome) := by
  have hstatus : (run (step StringOps.ascii) duel aliceAnswered).machine.currentRound.map Round.status =
      some .active := by decide +kernel
  obtain ⟨r, hr, ha⟩ := Option.map_eq_some_iff.1 hstatus
  obtain ⟨players, hstart, hsub, hcounted⟩ := early_termination_exact StringOps.ascii duel.machine 0
    (.created "m1" "r1" [freshPlayer "alice", freshPlayer "bob"] (by decide)) aliceAnswered r hr ha
  obtain ⟨hexpected, htest⟩ := hcounted (by decide +kernel)
  exact ⟨r, players, hr, hstart, hsub, hexpected, htest⟩

/-! ## Answers before the count -/

/-- three players in the lobby -/
def trio : Runner :=
  adopt (Machine.create "m1" "r1" [freshPlayer "alice", freshPlayer "bob", freshPlayer "carol"]) 0

/-- alice and bob survive the first round; they answer the second while its start is being stored, and it is checked -/
def answeredEarly : List RunnerOp :=
  [.startMatchLoop false] ++ go 0 2 ++ [.tick 5000, .fire 0] ++ go 0 3 ++ [ask 0 "q1"] ++ go 0 1 ++
    [.tick 1000, answer "alice" 6000, answer "bob" 6000, .tick 14000, .fire 0] ++ go 0 6 ++ [.tick 3000, .fire 0] ++
    go 0 4 ++ [ask 0 "q2"] ++ [answer "alice" 23000, answer "bob" 23000, .checkEarlyTermination, .resume 1 .done]

/-- **Before the start is stored the count is that of the round before.** All starting players of the second round have
answered, and the check waits for a third answer. -/
theorem early_answers_uncounted :
    Written StringOps.ascii trio.machine ∧
      (run (step StringOps.ascii) trio answeredEarly).tasks = [.executePersist 2] ∧
      (run (step StringOps.ascii) trio answeredEarly).expectedAnswers = some 3 ∧
      ∃ r ∈ (run (step StringOps.ascii) trio answeredEarly).machine.currentRound, r.status = .active ∧
        r.startingPlayers = some ["alice", "bob"] ∧ (∀ p ∈ ["alice", "bob"], (r.answers.get p).isSome = true) ∧
        ¬(run (step StringOps.ascii) trio answeredEarly).getExpectedAnswers ≤ r.answers.size := by
  refine ⟨.created "m1" "r1" [freshPlayer "alice", freshPlayer "bob", freshPlayer "carol"] (by decide), ?_⟩
  decide +kernel

end Runner

end Arena.Api
