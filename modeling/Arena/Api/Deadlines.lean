/-
Phase deadlines: what the machine keeps, what the decoder accepts, and what a resumed phase is given.

A decoded time is `none` for null and a finite number otherwise; the tests of the source on sums (`Number.isFinite` of an
anchor plus a duration) never fail, as fifteen seconds do not take a finite double out of range. What is left to check is
that no other value gets through (`TimingChecked`).

- `DeadlineInv`: deadline and anchor of every status, kept by every call (`change_deadlineInv`) and every failover;
- `deserialize_timingChecked`: what an accepted blob, v1 or v2, may hold in its timing fields;
- `resume_within`: a resumed phase gets at most its full window, and never ends after its deadline;
- `phase_deadlines_consistent`: all of it.
-/
import Arena.Api.Runner
import Arena.GameCore.CardLog

namespace Arena.Api

open Arena.Lib Arena.Shared Arena.GameCore Arena.GameCore.Machine

/-! ## Statement -/

/-- deadline and anchor of a machine in each status -/
structure DeadlineInv (m : Machine) : Prop where
  active : m.state.status = .roundActive → m.state.phaseEndsAt = m.currentRound.map Round.endsAt
  idle : m.state.status = .roundEvaluating ∨ m.state.status = .finished → m.state.phaseEndsAt = none
  result : m.state.status = .roundResult → ∃ startedAt, m.state.roundResultStartedAt = some startedAt ∧
    m.state.phaseEndsAt = some (startedAt + GameConfig.resultDisplayMs)
  anchor : m.state.status ≠ .roundResult → m.state.roundResultStartedAt = none

/-- every timing field of the blob is missing, null or a finite number -/
def TimingChecked (b : WireMatch) : Prop :=
  (∀ st ∈ b.state, st.startedAt ≠ .invalid ∧ st.phaseEndsAt ≠ .invalid ∧ st.roundResultStartedAt ≠ .invalid) ∧
    ∀ r ∈ b.currentRound, r.startedAt ≠ .invalid ∧ r.endsAt ≠ .invalid

/-- a window of at most `phaseMax` that does not end after the deadline, unless the deadline is past; without a deadline
there is none -/
def ResumesWithin (s : Runner) (status : MatchStatus) (phaseMax : Time) : Prop :=
  0 ≤ s.resumePhaseRemaining status phaseMax ∧ s.resumePhaseRemaining status phaseMax ≤ phaseMax ∧
    match Runner.resolvePhaseDeadline s.machine status with
    | none => s.resumePhaseRemaining status phaseMax = 0
    | some deadline =>
      s.clock + s.resumePhaseRemaining status phaseMax ≤ deadline ∨
        (deadline < s.clock ∧ s.resumePhaseRemaining status phaseMax = 0)

/-- the timer of a resumed phase is not due after the deadline, unless that is past -/
def DueWithin (s : Runner) (t : Timer) : Prop :=
  s.clock ≤ t.due ∧
    match Runner.resolvePhaseDeadline s.machine s.machine.state.status with
    | none => t.due = s.clock
    | some deadline => t.due ≤ deadline ∨ (deadline < s.clock ∧ t.due = s.clock)

/-! ## Calls -/

/-- the fields `DeadlineInv` speaks of -/
def phase (m : Machine) : MatchStatus × Option Time × Option Time × Option Time :=
  (m.state.status, m.state.phaseEndsAt, m.state.roundResultStartedAt, m.currentRound.map Round.endsAt)

theorem DeadlineInv.of_phase {m m' : Machine} (h : DeadlineInv m) (hp : phase m' = phase m) : DeadlineInv m' := by
  simp only [phase, Prod.mk.injEq] at hp
  obtain ⟨hs, he, ha, hr⟩ := hp
  constructor
  · rw [hs, he, hr]
    exact h.active
  · rw [hs, he]
    exact h.idle
  · rw [hs, he, ha]
    exact h.result
  · rw [hs, ha]
    exact h.anchor

theorem deadlineInv_create (matchId roomId : String) (players : List PlayerInfo) :
    DeadlineInv (Machine.create matchId roomId players) := by
  constructor <;> simp [Machine.create]

theorem enterStatus_deadlineInv (m : Machine) (target : MatchStatus) (now : Clock)
    (ht : target ≠ .created) : DeadlineInv (m.enterStatus target now) := by
  cases target with
  | created => exact absurd rfl ht
  | _ => constructor <;> simp [enterStatus]

theorem transition_target {m : Machine} {target : MatchStatus} (ht : target ∈ validTransitions m.state.status) :
    target ≠ .created := by
  rintro rfl
  revert ht
  cases m.state.status <;> simp [validTransitions]

/-- **Every call keeps deadline and anchor.** -/
theorem change_deadlineInv {J : StringOps} {m m' : Machine} {o : Op} (hc : Change J m o m') (h : DeadlineInv m) :
    DeadlineInv m' := by
  cases hc with
  | same o => exact h
  | transition target now ht =>
    exact enterStatus_deadlineInv _ target now (transition_target ht)
  | startRound q d now hs => constructor <;> simp [beginRound, hs]
  | answer round p a ts sid retry now hr _ _ _ _ =>
    obtain ⟨hs, -⟩ := consumeChance_frame m round p retry (now 0)
    refine h.of_phase ?_
    simp [phase, recordAnswer, newAnswer, hs, hr]
  | evaluated round now hr _ => exact h.of_phase (by simp [phase, settle, hr])
  | evaluateStuck round now hr _ => exact h.of_phase (by simp [phase, settleStuck, hr])
  | winner now =>
    obtain ⟨hs, hr, -⟩ := determineWinner_frame m now
    exact h.of_phase (by simp [phase, hs, hr])
  | finish now =>
    obtain ⟨hs, hr, -⟩ := determineWinner_frame m now
    exact h.of_phase (by simp [phase, crown, hs, hr])
  | offline p player now _ => exact h.of_phase rfl
  | disconnect p player now _ _ => exact h.of_phase rfl
  | reconnect p player now _ => exact h.of_phase rfl
  | attach round key hr _ => exact h.of_phase (by simp [phase, hr])
  | initRejected c d now _ => exact h.of_phase rfl
  | initVoting c d now _ => constructor <;> simp [openVoting, enterStatus]
  | vote votes p t e now => exact h.of_phase rfl
  | resolveTopics n r now => exact h.of_phase rfl
  | classes ids s now => exact h.of_phase rfl
  | offer p r s cards now _ => exact h.of_phase rfl
  | pick p c hand r o e i now _ => exact h.of_phase rfl
  | play round p now hr _ _ =>
    obtain ⟨hs, hr'⟩ := applyPlay_frame (m.logEvent (.cardResolved (m.resolvedPayload round p)) (now 0)) round p
      (m.eventSeqCounter + 1) now
    exact h.of_phase (by simp [phase, hs, hr'])

/-! ## Accepted blobs -/

theorem deserialize_timingChecked {J : StringOps} {b : WireMatch} {m : Machine} (h : deserialize J (some b) = .ok m) :
    TimingChecked b := by
  obtain ⟨p, timing, hfrom⟩ := deserializeMatch_ok (deserialize_ok h).1
  refine ⟨?_, hfrom.timed.roundValid⟩
  intro state hstate
  obtain rfl : p.state = state := Option.some.inj (hfrom.parsed.state.symm.trans hstate)
  exact hfrom.timed.stateValid

/-! ## Failovers -/

/-- the timing fields of what the machine writes -/
theorem serialized_timing {state : MatchState} {round : Option WireRound} {timing : ValidatedTimingFields}
    (h : TimingFrom (encodeState state) round .v2 timing) :
    timing.phaseEndsAt = some state.phaseEndsAt ∧ timing.roundResultStartedAt = some state.roundResultStartedAt := by
  rw [h.fields]
  exact ⟨wireTiming_wireTime _, wireTiming_wireTime _⟩

theorem failover_deadlineInv (J : StringOps) {m : Machine} (h : DeadlineInv m) : DeadlineInv (m.failover J) := by
  unfold failover
  cases hd : deserialize J (some m.serialize) with
  | error e => exact h
  | ok m' =>
    obtain ⟨p, timing, hfrom⟩ := deserializeMatch_ok (deserialize_ok hd).1
    have hv : p.version = .v2 := by
      have hversion := hfrom.parsed.version
      simp only [serialize, serializeMatch, supportedStateVersion] at hversion
      norm_num at hversion
      exact hversion.symm
    have hs : p.state = encodeState m.state := (Option.some.inj hfrom.parsed.state).symm
    obtain ⟨hp, ha⟩ := serialized_timing (hs ▸ hv ▸ hfrom.timed)
    have hstate : m'.state = decodeMatchState (encodeState m.state) p.players .v2 timing := by
      rw [← hs, ← hv]
      exact hfrom.state
    have hstatus : m'.state.status = m.state.status := by rw [hstate]; rfl
    have hanchor : m'.state.roundResultStartedAt =
        if m.state.status = .roundResult then m.state.roundResultStartedAt else none := by
      rw [hstate]
      simp [decodeMatchState, ha, encodeState]
    have hends : m'.state.phaseEndsAt = if m.state.status = .roundResult then
        m'.state.roundResultStartedAt.map (· + GameConfig.resultDisplayMs) else m.state.phaseEndsAt := by
      rw [hanchor, hstate]
      by_cases hres : m.state.status = .roundResult <;> simp [decodeMatchState, hp, ha, encodeState, hres]
    constructor
    · intro hactive
      rw [hstatus] at hactive
      rw [hends, if_neg (by simp [hactive]), h.active hactive]
      cases hx : p.round with
      | none =>
        have hb : m.currentRound.map encodeRound = none := by
          have hbround := hfrom.parsed.round
          rw [hx] at hbround
          exact hbround.symm
        have hr : m'.currentRound = none := hfrom.noRound hx
        rw [hr, Option.map_eq_none_iff.1 hb]
      | some x =>
        obtain ⟨r, hdec, hr⟩ := hfrom.round x hx
        have htimes := (decodeCurrentRound_timing hdec).2.2 hv (hstatus.trans hactive)
        rw [hp, h.active hactive] at htimes
        have hr' : m'.currentRound = some r := hr
        rw [Option.some.inj htimes, hr']
        rfl
    · intro hidle
      rw [hstatus] at hidle
      have hne : m.state.status ≠ .roundResult := by rcases hidle with hi | hi <;> simp [hi]
      rw [hends, if_neg hne]
      exact h.idle hidle
    · intro hresult
      rw [hstatus] at hresult
      obtain ⟨startedAt, hstarted, -⟩ := h.result hresult
      rw [hends, if_pos hresult, hanchor, if_pos hresult, hstarted]
      exact ⟨startedAt, rfl, rfl⟩
    · intro hne
      rw [hstatus] at hne
      rw [hanchor, if_neg hne]

theorem reach_deadlineInv (J : StringOps) (matchId roomId : String) (players : List PlayerInfo) (acts : List Action) :
    DeadlineInv (reach J matchId roomId players acts) := by
  refine run_inv (act J) (fun _ _ => True) DeadlineInv ?_ _ acts ((along_const _ _ _ _).2 fun _ _ => trivial)
    (deadlineInv_create matchId roomId players)
  intro m a _ h
  cases a with
  | call o => exact change_deadlineInv (step_change J m o) h
  | failover => exact failover_deadlineInv J h

/-! ## Resumed phases -/

theorem resume_within (s : Runner) (status : MatchStatus) (phaseMax : Time) (hmax : 0 ≤ phaseMax) :
    ResumesWithin s status phaseMax := by
  unfold ResumesWithin Runner.resumePhaseRemaining
  cases Runner.resolvePhaseDeadline s.machine status with
  | none => exact ⟨le_rfl, hmax, rfl⟩
  | some deadline =>
    simp only
    refine ⟨le_min (le_max_right _ _) hmax, min_le_right _ _, ?_⟩
    rcases lt_or_ge deadline s.clock with hpast | hahead
    · right
      have hzero : max (deadline - s.clock) 0 = 0 := max_eq_right (by linarith)
      rw [hzero, min_eq_left hmax]
      exact ⟨hpast, rfl⟩
    · left
      have hle : min (max (deadline - s.clock) 0) phaseMax ≤ deadline - s.clock := by
        rw [max_eq_left (by linarith)]
        exact min_le_left _ _
      linarith

/-- **The timer of a resumed phase** is due within its deadline. -/
theorem resume_timer (s : Runner) : ∀ t ∈ s.resumeMatchLoop.timers, t ∈ s.timers ∨ DueWithin s t := by
  have harmed : ∀ (s' : Runner) (kind : TimerKind) (status : MatchStatus) (phaseMax : Time), s'.timers = s.timers →
      s'.clock = s.clock → 0 ≤ phaseMax → s.machine.state.status = status →
      ∀ t ∈ (s'.armPhaseTimer kind (s.resumePhaseRemaining status phaseMax)).timers, t ∈ s.timers ∨ DueWithin s t := by
    intro s' kind status phaseMax htimers hclock hmax hstatus t ht
    obtain ⟨h0, -, hd⟩ := resume_within s status phaseMax hmax
    simp only [Runner.armPhaseTimer, htimers, hclock, List.mem_append, List.mem_singleton] at ht
    rcases ht with ht | rfl
    · exact .inl ht
    · refine .inr ⟨by simpa using h0, ?_⟩
      rw [hstatus]
      cases hdl : Runner.resolvePhaseDeadline s.machine status with
      | none =>
        rw [hdl] at hd
        simpa using hd
      | some deadline =>
        rw [hdl] at hd
        simp only at hd ⊢
        rcases hd with hd | ⟨hpast, hzero⟩
        · exact .inl hd
        · exact .inr ⟨hpast, by rw [hzero, add_zero]⟩
  have hdisposed : ∀ t ∈ s.disposeMatch.timers, t ∈ s.timers := fun t ht => List.mem_of_mem_filter ht
  intro t ht
  unfold Runner.resumeMatchLoop at ht
  cases hstatus : s.machine.state.status with
  | topicVoting =>
    rw [hstatus] at ht
    exact harmed s _ _ _ rfl rfl (by norm_num [GameConfig.topicVotingDurationMs]) hstatus t ht
  | countdown =>
    rw [hstatus] at ht
    exact harmed s _ _ _ rfl rfl (by norm_num [GameConfig.countdownDurationMs]) hstatus t ht
  | roundActive =>
    rw [hstatus] at ht
    exact harmed _ _ _ _ rfl rfl (by norm_num [GameConfig.roundDurationMs]) hstatus t ht
  | roundResult =>
    rw [hstatus] at ht
    exact harmed s _ _ _ rfl rfl (by norm_num [GameConfig.resultDisplayMs]) hstatus t ht
  | roundEvaluating =>
    rw [hstatus] at ht
    exact .inl ht
  | finished =>
    rw [hstatus] at ht
    exact .inl (hdisposed t ht)
  | created =>
    rw [hstatus] at ht
    exact .inl (hdisposed t ht)

/-- **Phase deadlines are consistent, and a resume never extends them.** Every reachable machine has the deadline and the
anchor of its status. Every blob the decoder accepts, v1 or v2, has only timing fields that are missing, null or finite
numbers, its round does not end before it starts, and on a node at any clock reading a resumed phase of the decoded
machine gets a window in [0, phaseMax] that does not end after the deadline, unless that is past; so is the timer it is armed
with. -/
theorem phase_deadlines_consistent (J : StringOps) :
    (∀ matchId roomId players acts, DeadlineInv (reach J matchId roomId players acts)) ∧
      ∀ b m, deserialize J (some b) = .ok m →
        TimingChecked b ∧ (∀ r ∈ m.currentRound, r.startedAt ≤ r.endsAt) ∧
          ∀ s : Runner, s.machine = m → (∀ status phaseMax, 0 ≤ phaseMax → ResumesWithin s status phaseMax) ∧
            ∀ t ∈ s.resumeMatchLoop.timers, t ∈ s.timers ∨ DueWithin s t := by
  refine ⟨reach_deadlineInv J, fun b m h => ⟨deserialize_timingChecked h, ?_, ?_⟩⟩
  · intro r hr
    obtain ⟨p, timing, hfrom⟩ := deserializeMatch_ok (deserialize_ok h).1
    obtain ⟨x, -, hdec⟩ := hfrom.of_round hr
    exact (decodeCurrentRound_timing hdec).2.1
  · intro s _
    exact ⟨resume_within s, resume_timer s⟩

end Arena.Api
