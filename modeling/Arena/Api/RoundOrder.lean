/-
When rounds are evaluated and when a match finishes, over every interleaving of the game loop.

A callback carries no round number, so a late `endRound` evaluates whatever round it meets, and a late match-end check
finishes whatever round it meets. `InOwnRound` is the missing check: with a round in play, an `endRound` that looks at
the machine and a finish that closes the match were issued for that round.

- `step_runnerInv`: every step with its persist APPLIED keeps what the tasks and timers were issued for;
- `rounds_in_order`: in every run whose steps are in their own round, there is one evaluation between two starts, no
  round is evaluated before its deadline unless all its players have answered, and the match finishes only when the last
  started round has been evaluated;
- `late_calls_break_rounds`: two early-termination checks and a slow ownership check end the next round at once, and a
  slow `executeRound` starts a round under a pending finish.
-/
import Arena.Api.Runner
import Arena.GameCore.Phases

namespace Arena.Api

open Arena.Lib Arena.Shared Arena.GameCore Arena.GameCore.Machine

namespace Runner

/-! ## Statement -/

/-- the number of the round in play -/
def roundInPlay (m : Machine) : Option ℕ :=
  if m.state.status = .roundActive then m.currentRound.map Round.roundNo else none

/-- the round a task acts on was issued for, when it is about to end the round or the match -/
def issuedFor : Task → Option ℕ
  | .endGet forRound => some forRound
  | .finishGet forRound => some forRound
  | _ => none

/-- a step that ends the round in play, or the match during it, was issued for that round -/
def InOwnRound (s : Runner) : RunnerOp → Prop
  | .resume i _ => ∀ n ∈ roundInPlay s.machine, ∀ k ∈ s.tasks[i]?.bind issuedFor, k = n
  | _ => True

/-- every persist is APPLIED -/
def PersistsApplied (s : Runner) : RunnerOp → Prop
  | .resume i reply => (s.tasks[i]?.any Task.isPersist) = true → reply.applied = true
  | _ => True

/-- a step that logs ROUND_EVALUATED finds the deadline of its round passed, or all its players answered -/
def EvaluatesOnTime (J : StringOps) (s : Runner) (o : RunnerOp) : Prop :=
  (s.step J o).machine.eventLog.countP EventLogEntry.isRoundEvaluated ≠
      s.machine.eventLog.countP EventLogEntry.isRoundEvaluated →
    ∃ r ∈ s.machine.currentRound, r.endsAt ≤ s.clock ∨ ∀ p ∈ s.machine.roundPlayers r, (r.answers.get p).isSome

/-- a step that finishes the match finds the last started round evaluated -/
def FinishesEvaluated (J : StringOps) (s : Runner) (o : RunnerOp) : Prop :=
  s.machine.state.status ≠ .finished → (s.step J o).machine.state.status = .finished →
    sinceStart s.machine.eventLog ≠ some 0

instance (s : Runner) : (o : RunnerOp) → Decidable (InOwnRound s o)
  | .resume i _ =>
    inferInstanceAs (Decidable (∀ n ∈ roundInPlay s.machine, ∀ k ∈ s.tasks[i]?.bind issuedFor, k = n))
  | .tick _ => .isTrue trivial
  | .startMatchLoop _ => .isTrue trivial
  | .resumeMatchLoop => .isTrue trivial
  | .cancelMatchLoop => .isTrue trivial
  | .fire _ => .isTrue trivial
  | .checkEarlyTermination => .isTrue trivial
  | .command _ => .isTrue trivial

instance (s : Runner) : (o : RunnerOp) → Decidable (PersistsApplied s o)
  | .resume i reply => inferInstanceAs (Decidable (s.tasks[i]?.any Task.isPersist = true → reply.applied = true))
  | .tick _ => .isTrue trivial
  | .startMatchLoop _ => .isTrue trivial
  | .resumeMatchLoop => .isTrue trivial
  | .cancelMatchLoop => .isTrue trivial
  | .fire _ => .isTrue trivial
  | .checkEarlyTermination => .isTrue trivial
  | .command _ => .isTrue trivial

instance (J : StringOps) (s : Runner) (o : RunnerOp) : Decidable (EvaluatesOnTime J s o) :=
  inferInstanceAs (Decidable (_ → ∃ r ∈ s.machine.currentRound, _ ∨ ∀ p ∈ s.machine.roundPlayers r, _))

instance (J : StringOps) (s : Runner) (o : RunnerOp) : Decidable (FinishesEvaluated J s o) :=
  inferInstanceAs (Decidable (_ → _ → _))

/-- the machines a node starts from: a created match, or one decoded from a state an earlier owner was in -/
inductive Adopted (J : StringOps) : Machine → Time → Prop where
  | created (matchId roomId : String) (players : List PlayerInfo) (clock : Time)
      (hd : (players.map PlayerInfo.id).Nodup) (ha : ∀ p ∈ players, p.status = .active) :
      Adopted J (Machine.create matchId roomId players) clock
  | resumed (m m' : Machine) (clock clock' : Time) (ops : List RunnerOp) (key : Option String) (h : Adopted J m clock)
      (hp : Along (step J) PersistsApplied (adopt m clock) ops)
      (hd : Machine.deserialize J (some (run (step J) (adopt m clock) ops).machine.serialize) = .ok m')
      (hc : (run (step J) (adopt m clock) ops).clock ≤ clock') : Adopted J (Cluster.rehydrated m' key) clock'

/-! ## What tasks and timers were issued for -/

/-- issued for a round that is over, or for the current one with `P` -/
def Issued (m : Machine) (k : ℕ) (P : Prop) : Prop :=
  k ≤ m.state.currentRoundNo ∧ (k = m.state.currentRoundNo → P)

/-- the round in play may be evaluated -/
def Ripe (m : Machine) (clock : Time) : Prop :=
  m.state.status ≠ .finished → ∀ r, m.currentRound = some r → r.status = .active →
    r.endsAt ≤ clock ∨ ∃ ps, r.startingPlayers = some ps ∧ ∀ p ∈ ps, (r.answers.get p).isSome

/-- the last started round has been evaluated -/
def Settled (m : Machine) : Prop := sinceStart m.eventLog ≠ some 0

def TaskInv (m : Machine) (clock : Time) : Task → Prop
  | .executePersist k => Issued m k True
  | .endAssert k => Issued m k (Ripe m clock)
  | .endGet k => Issued m k (Ripe m clock)
  | .endEvaluated k => Issued m k (Settled m)
  | .endRecover k => Issued m k (Settled m)
  | .endSave k => Issued m k (Settled m)
  | .endPersist k => Issued m k (Settled m)
  | .endResult k => Issued m k (Settled m)
  | .checkAssert k => Issued m k (Settled m)
  | .checkGet k => Issued m k (Settled m)
  | .finishAssert k => Issued m k (Settled m)
  | .finishGet k => Issued m k (Settled m)
  | _ => True

def TimerInv (m : Machine) (t : Timer) : Prop :=
  match t.kind with
  | .roundEnd k => Issued m k (∀ r, m.currentRound = some r → r.status = .active → r.endsAt ≤ t.due)
  | .matchEndCheck k => Issued m k (Settled m)
  | _ => True

theorem Issued.now {m : Machine} {P : Prop} (h : P) : Issued m m.state.currentRoundNo P := ⟨le_rfl, fun _ => h⟩

theorem Issued.mono {m : Machine} {k : ℕ} {P Q : Prop} (h : Issued m k P) (hpq : P → Q) : Issued m k Q :=
  ⟨h.1, fun hk => hpq (h.2 hk)⟩

theorem Issued.onward {m m' : Machine} (ho : Onward m m') {k : ℕ} {P P' : Prop} (h : Issued m k P)
    (hp : m'.state.currentRoundNo = m.state.currentRoundNo → P → P') : Issued m' k P' := by
  have hle := ho.roundNo
  have hk := h.1
  refine ⟨hk.trans hle, ?_⟩
  intro he
  have hm : m'.state.currentRoundNo = m.state.currentRoundNo := by omega
  exact hp hm (h.2 (he.trans hm))

theorem Ripe.onward {m m' : Machine} (ho : Onward m m') {clock clock' : Time} (hc : clock ≤ clock')
    (hn : m'.state.currentRoundNo = m.state.currentRoundNo) (h : Ripe m clock) : Ripe m' clock' := by
  intro hf r' hr' ha'
  obtain ⟨r, hr, ha, hcont⟩ := ho.round hn r' hr' ha'
  have hf0 : m.state.status ≠ .finished := fun hs => hf (ho.finished hs)
  rcases h hf0 r hr ha with he | ⟨ps, hps, hall⟩
  · left
    rw [hcont.endsAt]
    exact he.trans hc
  · right
    exact ⟨ps, hcont.players.trans hps, fun p hp => hcont.answers p (hall p hp)⟩

/-- what a task was issued for stays true of later states -/
theorem TaskInv.onward {m m' : Machine} (ho : Onward m m') {clock clock' : Time} (hc : clock ≤ clock') {t : Task}
    (h : TaskInv m clock t) : TaskInv m' clock' t := by
  cases t with
  | executePersist k => exact Issued.onward ho h fun _ _ => trivial
  | endAssert k => exact Issued.onward ho h fun hn => Ripe.onward ho hc hn
  | endGet k => exact Issued.onward ho h fun hn => Ripe.onward ho hc hn
  | endEvaluated k => exact Issued.onward ho h ho.settled
  | endRecover k => exact Issued.onward ho h ho.settled
  | endSave k => exact Issued.onward ho h ho.settled
  | endPersist k => exact Issued.onward ho h ho.settled
  | endResult k => exact Issued.onward ho h ho.settled
  | checkAssert k => exact Issued.onward ho h ho.settled
  | checkGet k => exact Issued.onward ho h ho.settled
  | finishAssert k => exact Issued.onward ho h ho.settled
  | finishGet k => exact Issued.onward ho h ho.settled
  | _ => trivial

theorem TimerInv.onward {m m' : Machine} (ho : Onward m m') {t : Timer} (h : TimerInv m t) : TimerInv m' t := by
  unfold TimerInv at *
  split at h
  · refine Issued.onward ho h ?_
    intro hn hdue r' hr' ha'
    obtain ⟨r, hr, ha, hcont⟩ := ho.round hn r' hr' ha'
    rw [hcont.endsAt]
    exact hdue r hr ha
  · exact Issued.onward ho h ho.settled
  · trivial

/-! ## Invariant -/

structure RunnerInv (s : Runner) : Prop where
  machine : PhaseInv s.machine s.clock
  /-- early termination waits for at least the survivors -/
  expected : ∀ n, s.expectedAnswers = some n → s.machine.state.survivingPlayerIds.length ≤ n
  /-- one question is fetched at a time -/
  question : s.tasks.count .executeQuestion ≤ 1
  /-- while it is fetched no round is in play -/
  asking : .executeQuestion ∈ s.tasks → s.machine.state.status = .roundActive → s.machine.currentRound = none
  /-- and no other phase is entered but the end -/
  fetching : .executeQuestion ∈ s.tasks →
    s.machine.state.status = .roundActive ∨ s.machine.state.status = .finished
  settled : .executeQuestion ∈ s.tasks → Settled s.machine
  tasks : ∀ t ∈ s.tasks, TaskInv s.machine s.clock t
  timers : ∀ t ∈ s.timers, TimerInv s.machine t

theorem adopt_runnerInv {m : Machine} {clock : Time} (h : PhaseInv m clock) : RunnerInv (adopt m clock) where
  machine := h
  expected := fun n hn => by cases hn
  question := Nat.zero_le 1
  asking := fun hm => by cases hm
  fetching := fun hm => by cases hm
  settled := fun hm => by cases hm
  tasks := fun t ht => by cases ht
  timers := fun t ht => by cases ht

namespace RunnerInv

variable {s : Runner}

theorem flags (h : RunnerInv s) (ending finishing cached : Bool) :
    RunnerInv { s with endingRound := ending, finishing := finishing, cached := cached } :=
  ⟨h.machine, h.expected, h.question, h.asking, h.fetching, h.settled, h.tasks, h.timers⟩

theorem endEndRound (h : RunnerInv s) : RunnerInv s.endEndRound := h.flags false s.finishing s.cached

theorem endFinish (h : RunnerInv s) : RunnerInv s.endFinish := h.flags s.endingRound false s.cached

theorem await (h : RunnerInv s) {t : Task} (ht : TaskInv s.machine s.clock t) (hq : t ≠ .executeQuestion) :
    RunnerInv (s.await t) := by
  have hmem : .executeQuestion ∈ s.tasks ++ [t] → Task.executeQuestion ∈ s.tasks := by
    intro hm
    rcases List.mem_append.1 hm with hm | hm
    · exact hm
    · exact absurd (List.mem_singleton.1 hm).symm hq
  refine ⟨h.machine, h.expected, ?_, fun hm => h.asking (hmem hm), fun hm => h.fetching (hmem hm),
    fun hm => h.settled (hmem hm), ?_, h.timers⟩
  · have hcount : (s.tasks ++ [t]).count .executeQuestion = s.tasks.count .executeQuestion := by
      rw [List.count_append, List.count_singleton, beq_eq_false_iff_ne.2 hq]
      rfl
    exact hcount.trans_le h.question
  · intro x hx
    rcases List.mem_append.1 hx with hx | hx
    · exact h.tasks x hx
    · rw [List.mem_singleton.1 hx]
      exact ht

theorem arm (h : RunnerInv s) {kind : TimerKind} {remaining : Time}
    (ht : TimerInv s.machine ⟨kind, s.clock + remaining⟩) : RunnerInv (s.armPhaseTimer kind remaining) := by
  refine ⟨h.machine, h.expected, h.question, h.asking, h.fetching, h.settled, h.tasks, ?_⟩
  intro x hx
  rcases List.mem_append.1 hx with hx | hx
  · exact h.timers x hx
  · rw [List.mem_singleton.1 hx]
    exact ht

/-- fewer timers -/
theorem dropTimers (h : RunnerInv s) {timers : List Timer} (hsub : ∀ t ∈ timers, t ∈ s.timers) :
    RunnerInv { s with timers := timers } :=
  ⟨h.machine, h.expected, h.question, h.asking, h.fetching, h.settled, h.tasks, fun t ht => h.timers t (hsub t ht)⟩

theorem clearTimers (h : RunnerInv s) : RunnerInv s.clearTimers := h.dropTimers fun _ ht => (List.mem_filter.1 ht).1

theorem expect (h : RunnerInv s) {n : Option ℕ}
    (hn : ∀ k, n = some k → s.machine.state.survivingPlayerIds.length ≤ k) :
    RunnerInv { s with expectedAnswers := n } :=
  ⟨h.machine, hn, h.question, h.asking, h.fetching, h.settled, h.tasks, h.timers⟩

theorem disposeMatch (h : RunnerInv s) : RunnerInv s.disposeMatch := h.clearTimers.expect fun _ hk => by cases hk

theorem tick (h : RunnerInv s) {clock : Time} (hc : s.clock ≤ clock) : RunnerInv { s with clock := clock } where
  machine := h.machine.later hc
  expected := h.expected
  question := h.question
  asking := h.asking
  fetching := h.fetching
  settled := h.settled
  tasks := fun t ht => (h.tasks t ht).onward (Onward.refl _) hc
  timers := h.timers

/-- a task leaves the list -/
theorem erase (h : RunnerInv s) (i : ℕ) : RunnerInv { s with tasks := s.tasks.eraseIdx i } := by
  have hsub : List.Sublist (s.tasks.eraseIdx i) s.tasks := List.eraseIdx_sublist _ _
  exact ⟨h.machine, h.expected, (hsub.count_le _).trans h.question, fun hm => h.asking (hsub.subset hm),
    fun hm => h.fetching (hsub.subset hm), fun hm => h.settled (hsub.subset hm), fun t ht => h.tasks t (hsub.subset ht), h.timers⟩

/-- the machine moves; a question being fetched must still have no round before it -/
theorem move (h : RunnerInv s) {m : Machine} (hm : Moved s.machine m s.clock)
    (hq : .executeQuestion ∈ s.tasks →
      (m.state.status = .roundActive → m.currentRound = none) ∧
        (m.state.status = .roundActive ∨ m.state.status = .finished) ∧
        m.state.currentRoundNo = s.machine.state.currentRoundNo) : RunnerInv { s with machine := m } where
  machine := hm.inv
  expected := fun n hn => hm.survivors.trans (h.expected n hn)
  question := h.question
  asking := fun hx => (hq hx).1
  fetching := fun hx => (hq hx).2.1
  settled := fun hx => hm.onward.settled (hq hx).2.2 (h.settled hx)
  tasks := fun t ht => (h.tasks t ht).onward hm.onward le_rfl
  timers := fun t ht => (h.timers t ht).onward hm.onward

/-- while a question is fetched no waiting phase can be entered -/
theorem fetch_blocks (h : RunnerInv s) (hq : .executeQuestion ∈ s.tasks) (target : MatchStatus) (now : Clock)
    (he : target ≠ .roundEvaluating) (hf : target ≠ .finished) : (s.machine.transition target now).1 = s.machine := by
  have hv : s.machine.canTransition target = false := by
    rcases h.fetching hq with hs | hs
    · simp [canTransition, hs, validTransitions, he, hf]
    · simp [canTransition, hs, validTransitions]
  rw [transition, hv]
  rfl

theorem enter (h : RunnerInv s) (target : MatchStatus) (he : target ≠ .roundEvaluating) (hf : target ≠ .finished) :
    RunnerInv { s with machine := (s.machine.transition target s.now).1 } := by
  refine h.move (enter_moved h.machine target s.now he hf) ?_
  intro hq
  rw [h.fetch_blocks hq target s.now he hf]
  exact ⟨h.asking hq, h.fetching hq, rfl⟩

/-- a call within a phase -/
theorem interim (h : RunnerInv s) (J : StringOps) (o : Op) (ho : o.isInterim = true) :
    RunnerInv { s with machine := s.machine.step J o } := by
  have hc := step_change J s.machine o
  have hsame := change_samePhase hc ho
  refine h.move (interim_moved hc ho h.machine) ?_
  intro hq
  refine ⟨fun hs => hsame.idle (h.asking hq (hsame.status.symm.trans hs)), ?_, hsame.roundNo⟩
  rw [hsame.status]
  exact h.fetching hq

theorem awaitAfter {α : Type} {result : Outcome α} {t : α → Task} {throws : Runner → Runner}
    (h : RunnerInv { s with machine := result.1 }) (hthrow : ∀ x, RunnerInv x → RunnerInv (throws x))
    (ht : ∀ a, result.2 = .ok a → TaskInv result.1 s.clock (t a) ∧ t a ≠ .executeQuestion) :
    RunnerInv (s.awaitAfter result t throws) := by
  obtain ⟨m, r⟩ := result
  cases r with
  | error e => exact hthrow _ h
  | ok a => exact h.await (ht a rfl).1 (ht a rfl).2

/-! ## Stretches of the game loop -/

theorem startLook (h : RunnerInv s) (isAllCategory : Bool) : RunnerInv (s.startLook isAllCategory) := by
  unfold Runner.startLook
  split_ifs
  · refine RunnerInv.awaitAfter ?_ (fun _ hx => hx) fun _ _ => ⟨trivial, by decide⟩
    refine h.move (initTopicVoting_moved h.machine none none s.now) ?_
    intro hq
    -- voting opens from CREATED only, so the phase stays
    have hc := initTopicVoting_change StringOps.ascii s.machine none none s.now
    generalize (s.machine.initTopicVoting none none s.now).1 = m at hc
    cases hc with
    | same => exact ⟨h.asking hq, h.fetching hq, rfl⟩
    | initRejected => exact ⟨h.asking hq, h.fetching hq, rfl⟩
    | initVoting _ _ _ hs => rcases h.fetching hq with hs' | hs' <;> rw [hs] at hs' <;> cases hs'
  · exact RunnerInv.awaitAfter (h.enter .countdown (by decide) (by decide)) (fun _ hx => hx)
      fun _ _ => ⟨trivial, by decide⟩

theorem startArm (h : RunnerInv s) (isAllCategory : Bool) : RunnerInv (s.startArm isAllCategory) := by
  unfold Runner.startArm
  split_ifs
  · exact h.arm trivial
  · exact h.arm trivial

theorem votingLook (h : RunnerInv s) : RunnerInv s.votingLook := by
  unfold Runner.votingLook
  split_ifs with hc hs
  · exact h
  · exact h
  · have h1 := h.interim StringOps.ascii (.resolveTopicVoting GameConfig.topicVotingBannedCount s.now) rfl
    exact RunnerInv.awaitAfter (h1.enter .countdown (by decide) (by decide)) (fun _ hx => hx)
      fun _ _ => ⟨trivial, by simp⟩

theorem executeLook (h : RunnerInv s) : RunnerInv s.executeLook := by
  unfold Runner.executeLook
  split_ifs with hc
  · exact h
  · have h1 := h.enter .roundActive (by decide) (by decide)
    have hmoved : (s.machine.transition .roundActive s.now).2 = .ok () →
        (s.machine.transition .roundActive s.now).1.state.status = .roundActive ∧
          (s.machine.transition .roundActive s.now).1.currentRound = none ∧ .executeQuestion ∉ s.tasks := by
      intro hok
      unfold transition at hok ⊢
      split_ifs at hok ⊢ with hv
      refine ⟨rfl, rfl, ?_⟩
      intro hq
      rcases h.fetching hq with hs | hs <;> simp [canTransition, hs, validTransitions] at hv
    generalize s.machine.transition .roundActive s.now = result at h1 hmoved ⊢
    obtain ⟨m, r⟩ := result
    cases r with
    | error e => exact h1
    | ok a =>
      obtain ⟨hs, hr, hq⟩ := hmoved rfl
      have hset : Settled m := h1.machine.phase.settled (by rw [hs]; decide) fun _ => hr
      refine ⟨h1.machine, h1.expected, ?_, fun _ _ => hr, fun _ => .inl hs, fun _ => hset, ?_, h1.timers⟩
      · have hzero : s.tasks.count .executeQuestion = 0 := List.count_eq_zero.2 hq
        have hcount : (s.tasks ++ [Task.executeQuestion]).count .executeQuestion = 1 := by
          rw [List.count_append, hzero]
          rfl
        exact hcount.le
      · intro x hx
        rcases List.mem_append.1 hx with hx | hx
        · exact h1.tasks x hx
        · rw [List.mem_singleton.1 hx]
          trivial

theorem finishMatchLoop (h : RunnerInv s) {k : ℕ} (hk : Issued s.machine k (Settled s.machine)) :
    RunnerInv (s.finishMatchLoop k) := by
  unfold Runner.finishMatchLoop
  split_ifs
  · exact h
  · exact (h.flags s.endingRound true s.cached).await hk (by simp)

/-- the question arrives, with no other fetch left -/
theorem executeStart (h : RunnerInv s) (hq : .executeQuestion ∉ s.tasks)
    (hask : s.machine.state.status = .roundActive → s.machine.currentRound = none)
    (hset : Settled s.machine) (reply : Reply) : RunnerInv (s.executeStart reply) := by
  unfold Runner.executeStart
  split
  · rename_i q
    have h1 : RunnerInv { s with machine := (s.machine.startRound q none s.now).1 } :=
      h.move (startRound_moved h.machine hask q) fun hx => absurd hx hq
    refine RunnerInv.awaitAfter h1 (fun _ hx => hx) ?_
    intro a ha
    refine ⟨?_, by simp⟩
    unfold startRound at ha ⊢
    split_ifs at ha ⊢ with hs
    obtain rfl := Except.ok.inj ha
    have hnow : Issued (s.machine.beginRound q none s.now) (s.machine.beginRound q none s.now).state.currentRoundNo
        True := Issued.now trivial
    exact hnow
  · exact h.finishMatchLoop (Issued.now hset)

theorem executeArm (h : RunnerInv s) {k : ℕ} (hk : Issued s.machine k True) : RunnerInv (s.executeArm k) := by
  have h1 : RunnerInv { s with expectedAnswers := some s.machine.state.survivingPlayerIds.length } := by
    apply h.expect
    intro n hn
    rw [Option.some.inj hn]
  exact h1.arm (hk.mono fun _ => h.machine.due)

theorem earlyLook (h : RunnerInv s) : RunnerInv s.earlyLook := by
  unfold Runner.earlyLook
  split_ifs with hc
  · exact h
  split
  · exact h
  rename_i r hr
  split_ifs with hall
  · obtain ⟨hpos, hsize, ha⟩ := hall
    refine h.clearTimers.await (Issued.now ?_) (by simp)
    intro hf x hx _
    obtain rfl : r = x := Option.some.inj (hr.symm.trans hx)
    obtain ⟨n, hn, hn'⟩ : ∃ n, s.expectedAnswers = some n ∧ s.getExpectedAnswers = n := by
      cases he : s.expectedAnswers with
      | none => simp [getExpectedAnswers, he] at hpos
      | some n => exact ⟨n, rfl, by simp [getExpectedAnswers, he]⟩
    have hlen : s.machine.state.survivingPlayerIds.length ≤ r.answers.size :=
      (h.expected n hn).trans (hn' ▸ hsize)
    have hplayers := h.machine.live.snapshot.round r hr ha
    right
    exact ⟨_, hplayers, h.machine.live.all_answered hf hr ha hlen⟩
  · exact h

theorem beginEndRound (h : RunnerInv s) {k : ℕ} (hk : Issued s.machine k (Ripe s.machine s.clock)) :
    RunnerInv (s.beginEndRound k) := by
  unfold Runner.beginEndRound
  split_ifs
  · exact h
  · exact (h.flags true s.finishing s.cached).await hk (by simp)

/-- the round in play is evaluated and the call goes on with its number -/
theorem handleActiveRoundEnd (h : RunnerInv s) {r : Round} (hs : s.machine.state.status = .roundActive)
    (hr : s.machine.currentRound = some r) : RunnerInv s.handleActiveRoundEnd := by
  obtain ⟨m1, m2, e, ht, hev, hn1, hn2, -, hl, hmoved⟩ := evaluate_moved h.machine s.now hs hr
  unfold Runner.handleActiveRoundEnd
  rw [ht]
  simp only []
  have hq : .executeQuestion ∉ s.tasks := by
    intro hq
    rw [h.asking hq hs] at hr
    cases hr
  refine RunnerInv.awaitAfter ?_ (fun _ hx => hx.endEndRound) ?_
  · rw [hev]
    exact h.move hmoved fun hx => absurd hx hq
  · intro a ha
    rw [hev]
    refine ⟨?_, by simp⟩
    have hnow : Issued m2 m2.state.currentRoundNo (Settled m2) := by
      apply Issued.now
      rw [Settled, hl]
      decide
    rw [hn2, ← hn1] at hnow
    exact hnow

theorem scheduleMatchEndCheck (h : RunnerInv s) {k : ℕ} (hk : Issued s.machine k (Settled s.machine)) :
    RunnerInv (s.scheduleMatchEndCheck k) := h.arm hk

/-- in ROUND_EVALUATING and ROUND_RESULT the last round is evaluated -/
theorem settled_closed (h : RunnerInv s)
    (hs : s.machine.state.status = .roundEvaluating ∨ s.machine.state.status = .roundResult) : Settled s.machine := by
  apply h.machine.phase.settled
  · rcases hs with hs | hs <;> rw [hs] <;> decide
  · intro hs'
    rcases hs with hs | hs <;> rw [hs] at hs' <;> cases hs'

theorem endLook (h : RunnerInv s) : RunnerInv s.endLook := by
  unfold Runner.endLook
  split_ifs with hc
  · exact h.endEndRound
  split
  · exact h.endEndRound
  rename_i r hr
  split
  · rename_i hs
    split_ifs
    · exact h.endEndRound
    · exact h.handleActiveRoundEnd hs hr
  · rename_i hs
    split_ifs
    · exact h.endEndRound
    · exact h.await (Issued.now (h.settled_closed (.inl hs))) (by simp)
  · rename_i hs
    exact (h.scheduleMatchEndCheck (Issued.now (h.settled_closed (.inr hs)))).endEndRound
  · exact h.endEndRound

theorem endShow (h : RunnerInv s) {k : ℕ} (hk : Issued s.machine k (Settled s.machine)) : RunnerInv (s.endShow k) := by
  refine RunnerInv.awaitAfter (h.enter .roundResult (by decide) (by decide)) (fun _ hx => hx.endEndRound) ?_
  intro a _
  have honward := (enter_moved h.machine .roundResult s.now (by decide) (by decide)).onward
  exact ⟨Issued.onward honward hk honward.settled, by simp⟩

theorem checkLook (h : RunnerInv s) {k : ℕ} (hk : Issued s.machine k (Settled s.machine)) :
    RunnerInv (s.checkLook k) := by
  unfold Runner.checkLook
  split_ifs
  · exact h
  · exact h.finishMatchLoop hk
  · exact h.await trivial (by simp)

theorem finishLook (h : RunnerInv s) : RunnerInv s.finishLook := by
  unfold Runner.finishLook
  split_ifs with hc
  · exact h.endFinish
  by_cases hv : s.machine.canTransition .finished = true
  · obtain ⟨m1, ht, hmoved, hover, hn, -⟩ := finish_moved h.machine s.now hv
    rw [ht]
    refine RunnerInv.await (h.move hmoved ?_) trivial (by simp)
    intro _
    refine ⟨fun hs => ?_, .inr hover, hn⟩
    rw [hover] at hs
    cases hs
  · rw [transition, if_neg hv]
    exact h.endFinish

/-- the timers of a resumed phase -/
theorem resumeMatchLoop (h : RunnerInv s) : RunnerInv s.resumeMatchLoop := by
  unfold Runner.resumeMatchLoop
  split
  · exact h.arm trivial
  · exact h.arm trivial
  · rename_i hs
    have h1 : RunnerInv { s with expectedAnswers := some s.machine.state.survivingPlayerIds.length } := by
      apply h.expect
      intro n hn
      rw [Option.some.inj hn]
    refine h1.arm (Issued.now ?_)
    intro r hr ha
    -- the persisted deadline is the round's own
    have hdeadline : s.machine.state.phaseEndsAt = some r.endsAt := by
      rw [h.machine.live.wire.active hs, hr]
      rfl
    have hdue := h.machine.due r hr ha
    have hremaining : s.resumePhaseRemaining .roundActive GameConfig.roundDurationMs =
        min (max (r.endsAt - s.clock) 0) GameConfig.roundDurationMs := by
      simp only [resumePhaseRemaining, resolvePhaseDeadline, hdeadline]
    have hmin : r.endsAt - s.clock ≤ min (max (r.endsAt - s.clock) 0) GameConfig.roundDurationMs :=
      le_min (le_max_left _ _) (by linarith)
    have hgoal : r.endsAt ≤ s.clock + s.resumePhaseRemaining .roundActive GameConfig.roundDurationMs := by
      rw [hremaining]
      linarith
    exact hgoal
  · rename_i hs
    refine h.await (Issued.now ?_) (by simp)
    intro _ r hr ha
    cases h.machine.phase with
    | closed x _ hx hc _ =>
      obtain rfl : r = x := Option.some.inj (hr.symm.trans hx)
      rw [ha] at hc
      cases hc
    | lobby _ hx _ => rw [hr] at hx; cases hx
    | asking _ hx _ => rw [hr] at hx; cases hx
    | playing _ hs' _ _ _ _ => rw [hs] at hs'; cases hs'
    | ended hs' => rw [hs] at hs'; cases hs'
  · rename_i hs
    exact h.arm (Issued.now (h.settled_closed (.inr hs)))
  · exact h.disposeMatch
  · exact h.disposeMatch

theorem fire (h : RunnerInv s) (i : ℕ) : RunnerInv (s.fire i) := by
  unfold Runner.fire
  split
  · exact h
  rename_i t ht
  have htimer := h.timers t (List.mem_of_getElem? ht)
  have h1 : RunnerInv { s with timers := s.timers.eraseIdx i } :=
    h.dropTimers fun x hx => (List.eraseIdx_sublist _ _).subset hx
  split_ifs with hdue
  · unfold TimerInv at htimer
    unfold Runner.timerCallback
    cases hk : t.kind with
    | topicVoting => exact h1.await trivial (by simp)
    | countdown => exact h1.await trivial (by simp)
    | roundEnd k =>
      rw [hk] at htimer
      refine h1.await (Issued.mono htimer ?_) (by simp)
      intro he _ r hr ha
      exact .inl ((he r hr ha).trans hdue)
    | matchEndCheck k =>
      rw [hk] at htimer
      exact h1.await htimer (by simp)
  · exact h

/-- the list without the one task that fetches a question -/
theorem question_erased (h : RunnerInv s) {i : ℕ} (hi : s.tasks[i]? = some .executeQuestion) :
    .executeQuestion ∉ s.tasks.eraseIdx i := by
  obtain ⟨hlt, hget⟩ := List.getElem?_eq_some_iff.1 hi
  have hperm := List.getElem_cons_eraseIdx_perm hlt
  have hcount := hperm.count_eq Task.executeQuestion
  rw [hget, List.count_cons_self] at hcount
  have hle := h.question
  exact List.count_eq_zero.1 (by omega)

/-- **One task runs to its next await.** -/
theorem resume (J : StringOps) (h : RunnerInv s) (i : ℕ) (reply : Reply) (hp : PersistsApplied s (.resume i reply)) :
    RunnerInv (s.resume J i reply) := by
  unfold Runner.resume
  split
  · exact h
  rename_i t ht
  have htask := h.tasks t (List.mem_of_getElem? ht)
  have h1 := h.erase i
  have hpersist : t.isPersist = true → reply.applied = true := by
    intro hx
    apply hp
    rw [ht]
    exact hx
  cases t with
  | startMatchLoop b =>
    simp only [continueTask]
    split_ifs
    · exact h1.startLook b
    · exact h1
  | startPersist b =>
    simp only [continueTask, hpersist rfl, if_true]
    exact h1.startArm b
  | votingAssert => exact h1.await trivial (by simp)
  | votingGet => exact h1.votingLook
  | votingPersist m =>
    have happ := hpersist rfl
    simp only [continueTask, votingArm]
    cases reply with
    | failed => cases happ
    | notApplied => cases happ
    | done => exact h1.arm trivial
    | question q => exact h1.arm trivial
  | countdownGet =>
    simp only [continueTask]
    split_ifs
    · exact h1.await trivial (by simp)
    · exact h1
  | executeAssert => exact h1.await trivial (by simp)
  | executeGet => exact h1.executeLook
  | executeQuestion =>
    have hmem := List.mem_of_getElem? ht
    exact h1.executeStart (h.question_erased ht) (h.asking hmem) (h.settled hmem) reply
  | executePersist k =>
    simp only [continueTask, hpersist rfl, if_true]
    exact h1.executeArm htask
  | earlyGet => exact h1.earlyLook
  | endAssert k => exact h1.beginEndRound htask
  | endGet k => exact h1.endLook
  | endEvaluated k =>
    simp only [continueTask, hpersist rfl, if_true]
    exact h1.await htask (by simp)
  | endRecover k => exact h1.await htask (by simp)
  | endSave k =>
    simp only [continueTask]
    split_ifs
    · exact h1.await htask (by simp)
    · exact h1.endEndRound
  | endPersist k =>
    simp only [continueTask, hpersist rfl, if_true]
    exact h1.endShow htask
  | endResult k =>
    simp only [continueTask, hpersist rfl, if_true]
    exact (h1.scheduleMatchEndCheck htask).endEndRound
  | checkAssert k => exact h1.await htask (by simp)
  | checkGet k => exact h1.checkLook htask
  | finishAssert k => exact h1.await htask (by simp)
  | finishGet k => exact h1.finishLook
  | finishPersist =>
    simp only [continueTask, hpersist rfl, if_true]
    exact h1.await trivial (by simp)
  | finishDb =>
    simp only [continueTask]
    split_ifs
    · exact (h1.flags s.endingRound s.finishing false).disposeMatch.await trivial (by simp)
    · exact h1.endFinish
  | finishRelease => exact h1.endFinish

end RunnerInv

theorem isInterim_of_isCommand {o : Op} (h : isCommand o = true) : o.isInterim = true := by
  cases o <;> first | rfl | cases h

/-- **Every step of the game loop keeps the invariant.** -/
theorem step_runnerInv (J : StringOps) (s : Runner) (o : RunnerOp) (hp : PersistsApplied s o) (h : RunnerInv s) :
    RunnerInv (s.step J o) := by
  cases o with
  | tick ms =>
    apply h.tick
    have hms : 0 ≤ max ms 0 := le_max_right _ _
    linarith
  | startMatchLoop b => exact h.await trivial (by simp)
  | resumeMatchLoop => exact h.resumeMatchLoop
  | cancelMatchLoop => exact h.disposeMatch
  | fire i => exact h.fire i
  | resume i reply => exact h.resume J i reply hp
  | checkEarlyTermination =>
    unfold step checkEarlyTermination
    simp only []
    split_ifs
    · exact h
    · exact h.await trivial (by simp)
  | command o =>
    unfold step
    simp only []
    split_ifs with hc
    · exact h.interim J o (isInterim_of_isCommand hc)
    · exact h

/-! ## Steps that neither evaluate nor finish -/

structure Calm (m m' : Machine) : Prop where
  evaluations : m'.eventLog.countP EventLogEntry.isRoundEvaluated = m.eventLog.countP EventLogEntry.isRoundEvaluated
  finished : m'.state.status = .finished → m.state.status = .finished

theorem Calm.refl (m : Machine) : Calm m m := ⟨rfl, fun h => h⟩

theorem calm_enter (m : Machine) (target : MatchStatus) (now : Clock) (hf : target ≠ .finished) :
    Calm m (m.transition target now).1 := by
  unfold transition canTransition
  split_ifs with hv
  · have hv' : target ∈ validTransitions m.state.status := by simpa using hv
    have hc : Change StringOps.ascii m (.transition target now) _ := .transition target now hv'
    obtain ⟨es, hl⟩ := change_logs hc rfl
    refine ⟨hl.evaluations, ?_⟩
    intro hs
    have htarget : target = .finished := by cases target <;> first | rfl | cases hs
    exact absurd htarget hf
  · exact Calm.refl m

theorem calm_interim (J : StringOps) (m : Machine) (o : Op) (ho : o.isInterim = true) : Calm m (m.step J o) := by
  have hc := step_change J m o
  obtain ⟨es, hl⟩ := change_logs hc (by cases o <;> first | rfl | cases ho)
  exact ⟨hl.evaluations, fun hs => (change_samePhase hc ho).status.symm.trans hs⟩

theorem calm_initTopicVoting (m : Machine) (now : Clock) : Calm m (m.initTopicVoting none none now).1 := by
  have hc := initTopicVoting_change StringOps.ascii m none none now
  obtain ⟨es, hl⟩ := change_logs hc rfl
  refine ⟨hl.evaluations, ?_⟩
  generalize (m.initTopicVoting none none now).1 = m' at hc
  intro hs
  cases hc with
  | same => exact hs
  | initRejected => exact hs
  | initVoting => cases hs

theorem calm_startRound (m : Machine) (q : QuestionInput) (now : Clock) : Calm m (m.startRound q none now).1 := by
  unfold startRound
  split_ifs
  · exact Calm.refl m
  · refine ⟨?_, fun hs => hs⟩
    have hlog : (m.beginRound q none now).eventLog = m.eventLog ++ [_] := rfl
    rw [hlog, List.countP_append]
    rfl

/-- a call and the await behind it leave the machine of the call -/
theorem awaitAfter_machine {α : Type} (s : Runner) (result : Outcome α) (t : α → Task) (throws : Runner → Runner)
    (ht : ∀ x, (throws x).machine = x.machine) : (s.awaitAfter result t throws).machine = result.1 := by
  obtain ⟨m, r⟩ := result
  cases r with
  | error e => exact ht _
  | ok a => rfl

theorem startLook_calm (s : Runner) (b : Bool) : Calm s.machine (s.startLook b).machine := by
  unfold startLook
  split_ifs
  · rw [awaitAfter_machine s _ _ id fun _ => rfl]
    exact calm_initTopicVoting _ _
  · rw [awaitAfter_machine s _ _ id fun _ => rfl]
    exact calm_enter _ _ _ (by decide)

theorem votingLook_calm (s : Runner) : Calm s.machine s.votingLook.machine := by
  unfold votingLook
  split_ifs
  · exact Calm.refl _
  · exact Calm.refl _
  · rw [awaitAfter_machine s _ _ id fun _ => rfl]
    have h1 := calm_interim StringOps.ascii s.machine (.resolveTopicVoting GameConfig.topicVotingBannedCount s.now) rfl
    have h2 := calm_enter (s.machine.resolveTopicVoting GameConfig.topicVotingBannedCount s.now).1 .countdown s.now
      (by decide)
    exact ⟨h2.evaluations.trans h1.evaluations, fun hs => h1.finished (h2.finished hs)⟩

theorem executeLook_calm (s : Runner) : Calm s.machine s.executeLook.machine := by
  unfold executeLook
  split_ifs
  · exact Calm.refl _
  · rw [awaitAfter_machine s _ _ id fun _ => rfl]
    exact calm_enter _ _ _ (by decide)

theorem finishMatchLoop_machine (s : Runner) (k : ℕ) : (s.finishMatchLoop k).machine = s.machine := by
  unfold finishMatchLoop
  split_ifs <;> rfl

theorem executeStart_calm (s : Runner) (reply : Reply) : Calm s.machine (s.executeStart reply).machine := by
  unfold executeStart
  split
  · rw [awaitAfter_machine s _ _ id fun _ => rfl]
    exact calm_startRound _ _ _
  · rw [finishMatchLoop_machine]
    exact Calm.refl _

theorem earlyLook_machine (s : Runner) : s.earlyLook.machine = s.machine := by
  unfold earlyLook
  split_ifs
  · rfl
  split
  · rfl
  split_ifs <;> rfl

theorem checkLook_machine (s : Runner) (k : ℕ) : (s.checkLook k).machine = s.machine := by
  unfold checkLook
  split_ifs
  · rfl
  · exact finishMatchLoop_machine s k
  · rfl

theorem endShow_calm (s : Runner) (k : ℕ) : Calm s.machine (s.endShow k).machine := by
  unfold endShow
  rw [awaitAfter_machine s _ _ endEndRound fun _ => rfl]
  exact calm_enter _ _ _ (by decide)

/-- a task that is not about to end the round or the match -/
theorem continueTask_calm (J : StringOps) (s : Runner) (reply : Reply) (t : Task) (ht : issuedFor t = none)
    (hp : t.isPersist = true → reply.applied = true) : Calm s.machine (s.continueTask J reply t).machine := by
  have same : ∀ {x : Runner}, x.machine = s.machine → Calm s.machine x.machine := by
    intro x hx
    rw [hx]
    exact Calm.refl _
  cases t with
  | endGet k => cases ht
  | finishGet k => cases ht
  | startMatchLoop b =>
    simp only [continueTask]
    split_ifs
    · exact startLook_calm s b
    · exact Calm.refl _
  | startPersist b =>
    simp only [continueTask, startArm]
    split_ifs <;> exact same rfl
  | votingGet => exact votingLook_calm s
  | votingPersist m =>
    have happ := hp rfl
    simp only [continueTask, votingArm]
    cases reply with
    | failed => cases happ
    | notApplied => cases happ
    | done => exact same rfl
    | question q => exact same rfl
  | countdownGet =>
    simp only [continueTask]
    split_ifs <;> exact same rfl
  | executeGet => exact executeLook_calm s
  | executeQuestion => exact executeStart_calm s reply
  | executePersist k =>
    simp only [continueTask]
    split_ifs <;> exact same rfl
  | earlyGet => exact same (earlyLook_machine s)
  | endAssert k =>
    simp only [continueTask, beginEndRound]
    split_ifs <;> exact same rfl
  | endEvaluated k =>
    simp only [continueTask]
    split_ifs <;> exact same rfl
  | endSave k =>
    simp only [continueTask]
    split_ifs <;> exact same rfl
  | endPersist k =>
    simp only [continueTask]
    split_ifs
    · exact endShow_calm s k
    · exact same rfl
  | endResult k =>
    simp only [continueTask]
    split_ifs <;> exact same rfl
  | checkGet k => exact same (checkLook_machine s k)
  | finishPersist =>
    simp only [continueTask]
    split_ifs <;> exact same rfl
  | finishDb =>
    simp only [continueTask]
    split_ifs <;> exact same rfl
  | _ => exact same rfl

/-- **A step evaluates or finishes only as an `endRound` or a finish that looks at the machine.** -/
theorem step_cases (J : StringOps) (s : Runner) (o : RunnerOp) (hp : PersistsApplied s o) :
    Calm s.machine (s.step J o).machine ∨
      ∃ i reply k, o = .resume i reply ∧
        ((s.tasks[i]? = some (.endGet k) ∧ s.step J o = { s with tasks := s.tasks.eraseIdx i }.endLook) ∨
          (s.tasks[i]? = some (.finishGet k) ∧ s.step J o = { s with tasks := s.tasks.eraseIdx i }.finishLook)) := by
  cases o with
  | tick ms => exact .inl (Calm.refl _)
  | startMatchLoop b => exact .inl (Calm.refl _)
  | resumeMatchLoop =>
    left
    unfold step resumeMatchLoop
    simp only []
    split <;> exact Calm.refl _
  | cancelMatchLoop => exact .inl (Calm.refl _)
  | fire i =>
    left
    unfold step fire
    simp only []
    split
    · exact Calm.refl _
    split_ifs
    · unfold timerCallback
      split <;> exact Calm.refl _
    · exact Calm.refl _
  | resume i reply =>
    simp only [step, resume]
    cases ht : s.tasks[i]? with
    | none => exact .inl (Calm.refl _)
    | some t =>
      have hpersist : t.isPersist = true → reply.applied = true := by
        intro hx
        apply hp
        rw [ht]
        exact hx
      cases hi : issuedFor t with
      | none => exact .inl (continueTask_calm J { s with tasks := s.tasks.eraseIdx i } reply t hi hpersist)
      | some k =>
        right
        cases t <;> first | exact ⟨i, reply, _, rfl, .inl ⟨ht, rfl⟩⟩ | exact ⟨i, reply, _, rfl, .inr ⟨ht, rfl⟩⟩ | cases hi
  | checkEarlyTermination =>
    left
    unfold step checkEarlyTermination
    simp only []
    split_ifs <;> exact Calm.refl _
  | command o =>
    left
    unfold step
    simp only []
    split_ifs with hc
    · exact calm_interim J s.machine o (isInterim_of_isCommand hc)
    · exact Calm.refl _

/-- `endRound` touches the machine only to evaluate the round in play -/
theorem endLook_cases {s : Runner} (h : RunnerInv s) :
    s.endLook.machine = s.machine ∨
      ∃ r, s.machine.state.status = .roundActive ∧ s.machine.currentRound = some r ∧ r.status = .active ∧
        s.endLook.machine.state.status = .roundEvaluating := by
  unfold endLook
  split_ifs with hc
  · exact .inl rfl
  split
  · exact .inl rfl
  rename_i r hr
  split
  · rename_i hs
    split_ifs with ha
    · exact .inl rfl
    · right
      obtain ⟨m1, m2, e, ht, hev, -, -, hstatus, -⟩ := evaluate_moved h.machine s.now hs hr
      refine ⟨r, hs, hr, not_not.1 ha, ?_⟩
      unfold handleActiveRoundEnd
      rw [ht]
      simp only []
      rw [awaitAfter_machine s _ _ endEndRound fun _ => rfl, hev]
      exact hstatus
  · rename_i hs
    split_ifs
    · exact .inl rfl
    · exact .inl rfl
  · exact .inl rfl
  · exact .inl rfl

/-- a finish logs no evaluation -/
theorem finishLook_evaluations {s : Runner} (h : RunnerInv s) :
    s.finishLook.machine.eventLog.countP EventLogEntry.isRoundEvaluated =
      s.machine.eventLog.countP EventLogEntry.isRoundEvaluated := by
  unfold finishLook
  split_ifs with hc
  · rfl
  by_cases hv : s.machine.canTransition .finished = true
  · obtain ⟨m1, ht, -, -, -, es, hl⟩ := finish_moved h.machine s.now hv
    rw [ht]
    exact hl.evaluations
  · rw [transition, if_neg hv]
    rfl

/-! ## Rounds in order -/

theorem step_evaluatesOnTime (J : StringOps) (s : Runner) (o : RunnerOp) (hp : PersistsApplied s o)
    (hg : InOwnRound s o) (h : RunnerInv s) : EvaluatesOnTime J s o := by
  intro hne
  rcases step_cases J s o hp with hcalm | ⟨i, reply, k, rfl, ⟨ht, hstep⟩ | ⟨ht, hstep⟩⟩
  · exact absurd hcalm.evaluations hne
  · rw [hstep] at hne
    rcases endLook_cases (h.erase i) with hsame | ⟨r, hs, hr, ha, -⟩
    · rw [hsame] at hne
      exact absurd rfl hne
    · have hr' : s.machine.currentRound = some r := hr
      have hs' : s.machine.state.status = .roundActive := hs
      have hplay : roundInPlay s.machine = some r.roundNo := by
        rw [roundInPlay, if_pos hs', hr']
        rfl
      have hk : k = r.roundNo := by
        apply hg r.roundNo hplay k
        rw [ht]
        rfl
      have hn : r.roundNo = s.machine.state.currentRoundNo := by
        rcases h.machine.phase.active hs' with ⟨hx, -⟩ | ⟨x, hx, -, hn, -⟩
        · rw [hr'] at hx
          cases hx
        · obtain rfl : r = x := Option.some.inj (hr'.symm.trans hx)
          exact hn
      have hissued : Issued s.machine k (Ripe s.machine s.clock) := h.tasks _ (List.mem_of_getElem? ht)
      have hripe := hissued.2 (hk.trans hn) (by rw [hs']; decide) r hr' ha
      refine ⟨r, hr', ?_⟩
      rcases hripe with hdue | ⟨ps, hps, hall⟩
      · exact .inl hdue
      · right
        rw [roundPlayers, hps]
        exact hall
  · rw [hstep] at hne
    exact absurd (finishLook_evaluations (h.erase i)) hne

theorem step_finishesEvaluated (J : StringOps) (s : Runner) (o : RunnerOp) (hp : PersistsApplied s o)
    (hg : InOwnRound s o) (h : RunnerInv s) : FinishesEvaluated J s o := by
  intro hs hf
  rcases step_cases J s o hp with hcalm | ⟨i, reply, k, rfl, ⟨ht, hstep⟩ | ⟨ht, hstep⟩⟩
  · exact absurd (hcalm.finished hf) hs
  · rw [hstep] at hf
    rcases endLook_cases (h.erase i) with hsame | ⟨r, -, -, -, hstatus⟩
    · rw [hsame] at hf
      exact absurd hf hs
    · rw [hstatus] at hf
      cases hf
  · by_cases hplay : s.machine.state.status = .roundActive → s.machine.currentRound = none
    · exact h.machine.phase.settled hs hplay
    · -- a round is in play, so the finish was issued for it, and then it has been evaluated
      push Not at hplay
      obtain ⟨hactive, hround⟩ := hplay
      rcases h.machine.phase.active hactive with ⟨hx, -⟩ | ⟨r, hr, -, hn, -⟩
      · exact absurd hx hround
      · have hk : k = r.roundNo := by
          apply hg r.roundNo _ k
          · rw [ht]
            rfl
          · rw [roundInPlay, if_pos hactive, hr]
            rfl
        have hissued : Issued s.machine k (Settled s.machine) := h.tasks _ (List.mem_of_getElem? ht)
        exact hissued.2 (hk.trans hn)

theorem Adopted.phaseInv {J : StringOps} {m : Machine} {clock : Time} (h : Adopted J m clock) : PhaseInv m clock := by
  induction h with
  | created matchId roomId players clock hd ha => exact create_phaseInv matchId roomId players clock hd ha
  | resumed m m' clock clock' ops key _ hp hd hc ih =>
    have hrun : RunnerInv (run (step J) (adopt m clock) ops) :=
      run_inv (step J) PersistsApplied RunnerInv (step_runnerInv J) _ ops hp (adopt_runnerInv ih)
    have hdecoded := (deserialize_phaseInv hrun.machine hd).later hc
    unfold Cluster.rehydrated
    split
    · rename_i key
      exact (interim_moved (step_change J m' (.attachCorrectAnswer key)) rfl hdecoded).inv
    · exact hdecoded

/-- **Rounds in order.** On an owning node, over every interleaving with persists APPLIED in which no late call ends the
round in play or the match during it: between two ROUND_STARTED events there is exactly one ROUND_EVALUATED, a round is
evaluated before its deadline only when all its starting players have answered, and the match finishes only when the
last started round has been evaluated. -/
theorem rounds_in_order (J : StringOps) (m : Machine) (clock : Time) (ops : List RunnerOp) (hm : Adopted J m clock)
    (hg : Along (step J) (fun s o => PersistsApplied s o ∧ InOwnRound s o) (adopt m clock) ops) :
    EvaluatedOnce (run (step J) (adopt m clock) ops).machine.eventLog ∧
      Along (step J) (EvaluatesOnTime J) (adopt m clock) ops ∧
      Along (step J) (FinishesEvaluated J) (adopt m clock) ops := by
  have h0 : RunnerInv (adopt m clock) := adopt_runnerInv hm.phaseInv
  have hstep : ∀ s o, PersistsApplied s o ∧ InOwnRound s o → RunnerInv s → RunnerInv (s.step J o) :=
    fun s o ho => step_runnerInv J s o ho.1
  refine ⟨?_, ?_, ?_⟩
  · exact (run_inv (step J) _ RunnerInv hstep _ ops hg h0).machine.once
  · exact along_of_inv (step J) _ _ RunnerInv hstep (fun s o ho => step_evaluatesOnTime J s o ho.1 ho.2) _ ops hg h0
  · exact along_of_inv (step J) _ _ RunnerInv hstep (fun s o ho => step_finishesEvaluated J s o ho.1 ho.2) _ ops hg h0

/-! ## Schedules -/

/-- two players in the lobby -/
def duel : Runner := adopt (Machine.create "m1" "r1" [freshPlayer "alice", freshPlayer "bob"]) 0

theorem duel_adopted (J : StringOps) :
    Adopted J (Machine.create "m1" "r1" [freshPlayer "alice", freshPlayer "bob"]) 0 :=
  .created "m1" "r1" [freshPlayer "alice", freshPlayer "bob"] 0 (by decide) (by decide)

def ask (i : ℕ) (id : String) : RunnerOp := .resume i (.question ⟨id, "2 + 2?", ["3", "4", "5", "6"], "4", none⟩)

def answer (player : String) (t : Time) : RunnerOp := .command (.submitAnswer player "b" t none fun _ => t)

/-- the i-th task gets `n` replies in a row -/
def go (i n : ℕ) : List RunnerOp := List.replicate n (.resume i .done)

/-- launch, countdown and the first round with both answers in; two early-termination checks see them -/
def bothAnswered : List RunnerOp :=
  [.startMatchLoop false] ++ go 0 2 ++ [.tick 5000, .fire 0] ++ go 0 3 ++ [ask 0 "q1"] ++ go 0 1 ++
    [.tick 1000, answer "alice" 6000, answer "bob" 6000, .checkEarlyTermination, .checkEarlyTermination] ++ go 0 2

/-- the first of them ends the round, the second finds it ended -/
theorem rounds_in_order_duel :
    sinceStart (run (step StringOps.ascii) duel (bothAnswered ++ go 0 1 ++ go 1 5 ++ go 0 1)).machine.eventLog = some 1 ∧
      EvaluatedOnce (run (step StringOps.ascii) duel (bothAnswered ++ go 0 1 ++ go 1 5 ++ go 0 1)).machine.eventLog := by
  refine ⟨by decide +kernel, ?_⟩
  exact (rounds_in_order StringOps.ascii _ 0 (bothAnswered ++ go 0 1 ++ go 1 5 ++ go 0 1) (duel_adopted _)
    (by decide +kernel)).1

/-- one of the two calls ends the round; the other comes back from its ownership check in the next round -/
def earlyEnd : List RunnerOp :=
  bothAnswered ++ go 0 1 ++ go 1 5 ++ [.tick 3000, .fire 0] ++ go 1 4 ++ [ask 1 "q2"] ++ go 1 1 ++ go 0 2

/-- the other call schedules a second match-end check; of the two next rounds one waits, and starts under a finish -/
def lateFinish : List RunnerOp :=
  bothAnswered ++ go 0 1 ++ go 1 5 ++ go 0 2 ++ [.tick 3000, .fire 0, .fire 0] ++ go 0 1 ++ go 1 1 ++ go 0 1 ++ go 1 3 ++
    [ask 1 "q2"] ++ go 1 1 ++ [.tick 1000, answer "alice" 10000, .tick 14000, .fire 0] ++ go 1 7 ++
    [.tick 3000, .fire 0] ++ go 1 2 ++ go 0 1 ++ go 1 1 ++ [ask 1 "q3"] ++ go 0 1 ++ go 1 1

/-- **A late call ends the wrong round.** With every persist APPLIED, `earlyEnd` evaluates the second round at once,
unanswered, and `lateFinish` finishes the match in a round that is not evaluated. -/
theorem late_calls_break_rounds :
    (Along (step StringOps.ascii) PersistsApplied duel earlyEnd ∧
        ¬Along (step StringOps.ascii) (EvaluatesOnTime StringOps.ascii) duel earlyEnd) ∧
      Along (step StringOps.ascii) PersistsApplied duel lateFinish ∧
        ¬Along (step StringOps.ascii) (FinishesEvaluated StringOps.ascii) duel lateFinish := by
  refine ⟨⟨by decide +kernel, by decide +kernel⟩, by decide +kernel, by decide +kernel⟩

end Runner

end Arena.Api
