/-
The phase of a match against its event log, and what later states keep of a round.

`Phase` ties the status, the current round and the events logged since the last ROUND_STARTED together, as they stand
when the machine is driven one phase at a time: a round is evaluated on the way from ROUND_ACTIVE to ROUND_EVALUATING
and never elsewhere, and the next round starts from ROUND_ACTIVE with the previous round dropped.

- `change_logs`: only `startRound` logs ROUND_STARTED and only `evaluateRound` logs ROUND_EVALUATED;
- `Onward`, `change_onward`: while the round number stays, an evaluated round stays evaluated, and an ACTIVE round keeps
  its deadline, its players and the answers it has;
- `enter_phaseInv`, `startRound_phaseInv`, `evaluate_phaseInv`, `finish_phaseInv`, `quiet_phaseInv`: the phase after
  each move of the game loop and each call in between.
-/
import Arena.GameCore.SecondChance
import Arena.GameCore.Roster
import Arena.Lib.Brackets

namespace Arena.GameCore

open Arena.Lib Arena.Shared

def EventLogEntry.isRoundEvaluated (e : EventLogEntry) : Bool :=
  match e.event with
  | .roundEvaluated .. => true
  | _ => false

/-- the calls that decide a winner -/
def Op.decidesWinner : Op → Bool
  | .determineWinner _ => true
  | .finishMatch _ => true
  | _ => false

/-- the calls made within a phase -/
def Op.isInterim : Op → Bool
  | .submitAnswer .. => true
  | .disconnectPlayer .. => true
  | .reconnectPlayer .. => true
  | .attachCorrectAnswer .. => true
  | .voteBanTopic .. => true
  | .resolveTopicVoting .. => true
  | .classAssignment .. => true
  | .pickOffer .. => true
  | .pickCard .. => true
  | .playCard .. => true
  | _ => false

/-- the calls that neither start nor evaluate a round -/
def Op.keepsRound : Op → Bool
  | .startRound .. => false
  | .evaluateRound .. => false
  | _ => true

namespace Machine

/-! ## Rounds in the log -/

/-- ROUND_EVALUATED events since the last ROUND_STARTED -/
abbrev sinceStart (log : List EventLogEntry) : Option ℕ :=
  sinceOpen EventLogEntry.isRoundStarted EventLogEntry.isRoundEvaluated log

/-- between two ROUND_STARTED events there is exactly one ROUND_EVALUATED -/
abbrev EvaluatedOnce (log : List EventLogEntry) : Prop :=
  ClosedOnce EventLogEntry.isRoundStarted EventLogEntry.isRoundEvaluated log

/-- the log grew by entries of neither kind -/
structure LogsNoRound (m m' : Machine) (es : List EventLogEntry) : Prop where
  log : m'.eventLog = m.eventLog ++ es
  started : ∀ e ∈ es, e.isRoundStarted = false
  evaluated : ∀ e ∈ es, e.isRoundEvaluated = false

theorem isRoundStarted_of_quiet {e : EventLogEntry} (h : e.event.isRoundEvent = false) : e.isRoundStarted = false := by
  cases e with
  | mk event t n => cases event <;> first | rfl | cases h

theorem isRoundEvaluated_of_quiet {e : EventLogEntry} (h : e.event.isRoundEvent = false) :
    e.isRoundEvaluated = false := by
  cases e with
  | mk event t n => cases event <;> first | rfl | cases h

theorem AppendsQuiet.logsNoRound {m m' : Machine} (h : AppendsQuiet m m') : ∃ es, LogsNoRound m m' es := by
  obtain ⟨es, hl, hq⟩ := h
  exact ⟨es, hl, fun e he => isRoundStarted_of_quiet (hq e he), fun e he => isRoundEvaluated_of_quiet (hq e he)⟩

theorem answerEntries_noRound (m : Machine) (round : Round) (a : AnswerState) (retry : Bool) (now : Clock) :
    ∀ e ∈ m.answerEntries round a retry now, e.isRoundStarted = false ∧ e.isRoundEvaluated = false := by
  intro e he
  rcases List.mem_append.1 he with he | he
  · split_ifs at he
    · rw [List.mem_singleton.1 he]; exact ⟨rfl, rfl⟩
    · cases he
  · rw [List.mem_singleton.1 he]; exact ⟨rfl, rfl⟩

theorem playEntries_noRound (m : Machine) (round : Round) (p : PlayInput) (now : Clock) :
    ∀ e ∈ m.playEntries round p now, e.isRoundStarted = false ∧ e.isRoundEvaluated = false := by
  intro e he
  rcases List.mem_cons.1 he with rfl | he
  · exact ⟨rfl, rfl⟩
  · split_ifs at he
    · rw [List.mem_singleton.1 he]; exact ⟨rfl, rfl⟩
    · cases he

/-- **Only `startRound` and `evaluateRound` log the start and the evaluation of a round.** -/
theorem change_logs {J : StringOps} {m m' : Machine} {o : Op} (hc : Change J m o m') (hk : o.keepsRound = true) :
    ∃ es, LogsNoRound m m' es := by
  by_cases hq : o.isQuiet = true
  · exact (change_quiet hc hq).logsNoRound
  · cases hc with
    | same o => exact (AppendsQuiet.refl m).logsNoRound
    | startRound => cases hk
    | evaluated => cases hk
    | evaluateStuck => cases hk
    | answer round p a ts sid retry now _ _ _ _ _ =>
      have h := answerEntries_noRound m round (newAnswer J round p a ts sid) retry now
      exact ⟨_, recordAnswer_eventLog m round _ retry now, fun e he => (h e he).1, fun e he => (h e he).2⟩
    | play round p now _ _ _ =>
      have h := playEntries_noRound m round p now
      exact ⟨_, play_eventLog m round p _ now, fun e he => (h e he).1, fun e he => (h e he).2⟩
    | _ => exact absurd rfl hq

theorem LogsNoRound.trans {a b c : Machine} {es fs : List EventLogEntry} (h : LogsNoRound a b es)
    (k : LogsNoRound b c fs) : LogsNoRound a c (es ++ fs) where
  log := by rw [k.log, h.log, List.append_assoc]
  started := fun e he => (List.mem_append.1 he).elim (h.started e) (k.started e)
  evaluated := fun e he => (List.mem_append.1 he).elim (h.evaluated e) (k.evaluated e)

/-- the number of evaluations logged stays -/
theorem LogsNoRound.evaluations {m m' : Machine} {es : List EventLogEntry} (h : LogsNoRound m m' es) :
    m'.eventLog.countP EventLogEntry.isRoundEvaluated = m.eventLog.countP EventLogEntry.isRoundEvaluated := by
  have hzero : es.countP EventLogEntry.isRoundEvaluated = 0 := by
    rw [List.countP_eq_zero]
    intro e he
    simp [h.evaluated e he]
  rw [h.log, List.countP_append, hzero, Nat.add_zero]

theorem LogsNoRound.sinceStart {m m' : Machine} {es : List EventLogEntry} (h : LogsNoRound m m' es) :
    sinceStart m'.eventLog = sinceStart m.eventLog := by
  rw [h.log]
  exact sinceOpen_quiet m.eventLog es h.started h.evaluated

theorem LogsNoRound.evaluatedOnce {m m' : Machine} {es : List EventLogEntry} (h : LogsNoRound m m' es)
    (ho : EvaluatedOnce m.eventLog) : EvaluatedOnce m'.eventLog := by
  rw [h.log]
  exact ho.append es h.started

/-! ## Later states of one round -/

/-- FINISHED is final -/
theorem change_finished {J : StringOps} {m m' : Machine} {o : Op} (hc : Change J m o m')
    (h : m.state.status = .finished) : m'.state.status = .finished := by
  cases hc with
  | transition target now hv =>
    rw [h] at hv
    cases hv
  | answer round p a ts sid retry now _ _ _ _ _ =>
    have hst := (consumeChance_frame m round p retry (now 0)).1
    exact (congrArg MatchState.status hst).trans h
  | winner now => rw [(determineWinner_frame m now).1]; exact h
  | finish now =>
    have hst : (m.determineWinner now).1.state.status = .finished := by rw [(determineWinner_frame m now).1]; exact h
    exact hst
  | initVoting c d now hs =>
    rw [h] at hs
    cases hs
  | play round p now _ _ _ =>
    have hst := (applyPlay_frame (m.logEvent (.cardResolved (m.resolvedPayload round p)) (now 0)) round p
      (m.eventSeqCounter + 1) now).1
    exact (congrArg MatchState.status hst).trans h
  | _ => exact h

/-- `r'` is a later state of the ACTIVE round `r` -/
structure Continues (r r' : Round) : Prop where
  endsAt : r'.endsAt = r.endsAt
  players : r'.startingPlayers = r.startingPlayers
  answers : ∀ p, (r.answers.get p).isSome → (r'.answers.get p).isSome

theorem Continues.refl (r : Round) : Continues r r := ⟨rfl, rfl, fun _ h => h⟩

theorem Continues.trans {a b c : Round} (h : Continues a b) (k : Continues b c) : Continues a c :=
  ⟨k.endsAt.trans h.endsAt, k.players.trans h.players, fun p hp => k.answers p (h.answers p hp)⟩

/-- `m'` comes after `m`: rounds only advance, and within one round nothing it has is taken back -/
structure Onward (m m' : Machine) : Prop where
  roundNo : m.state.currentRoundNo ≤ m'.state.currentRoundNo
  settled : m'.state.currentRoundNo = m.state.currentRoundNo → sinceStart m.eventLog ≠ some 0 →
    sinceStart m'.eventLog ≠ some 0
  round : m'.state.currentRoundNo = m.state.currentRoundNo → ∀ r', m'.currentRound = some r' → r'.status = .active →
    ∃ r, m.currentRound = some r ∧ r.status = .active ∧ Continues r r'
  finished : m.state.status = .finished → m'.state.status = .finished

theorem Onward.refl (m : Machine) : Onward m m :=
  ⟨le_rfl, fun _ h => h, fun _ r hr ha => ⟨r, hr, ha, Continues.refl r⟩, fun h => h⟩

theorem Onward.trans {a b c : Machine} (h : Onward a b) (k : Onward b c) : Onward a c := by
  have split : c.state.currentRoundNo = a.state.currentRoundNo →
      b.state.currentRoundNo = a.state.currentRoundNo ∧ c.state.currentRoundNo = b.state.currentRoundNo := by
    intro he
    have h1 := h.roundNo
    have h2 := k.roundNo
    omega
  refine ⟨h.roundNo.trans k.roundNo, ?_, ?_, fun hs => k.finished (h.finished hs)⟩
  · intro he hs
    obtain ⟨h1, h2⟩ := split he
    exact k.settled h2 (h.settled h1 hs)
  · intro he r' hr' ha'
    obtain ⟨h1, h2⟩ := split he
    obtain ⟨r, hr, ha, hc⟩ := k.round h2 r' hr' ha'
    obtain ⟨r0, hr0, ha0, hc0⟩ := h.round h1 r hr ha
    exact ⟨r0, hr0, ha0, hc0.trans hc⟩

/-- a call that starts no round, by what it makes of the round it found -/
theorem Onward.of_round {m m' : Machine} (es : List EventLogEntry)
    (hn : m'.state.currentRoundNo = m.state.currentRoundNo) (hl : m'.eventLog = m.eventLog ++ es)
    (hs : ∀ e ∈ es, e.isRoundStarted = false) (hf : m.state.status = .finished → m'.state.status = .finished)
    (hr : ∀ r', m'.currentRound = some r' → r'.status = .active →
      ∃ r, m.currentRound = some r ∧ r.status = .active ∧ Continues r r') : Onward m m' := by
  refine ⟨hn.ge, ?_, fun _ => hr, hf⟩
  intro _ h
  rw [hl]
  exact sinceOpen_settled m.eventLog es hs h

/-- a call that leaves the round alone -/
theorem Onward.of_same {m m' : Machine} {es : List EventLogEntry} (hl : LogsNoRound m m' es)
    (hf : m.state.status = .finished → m'.state.status = .finished) (hn : m'.state.currentRoundNo = m.state.currentRoundNo) (hr : m'.currentRound = m.currentRound) : Onward m m' := by
  refine Onward.of_round es hn hl.log hl.started hf ?_
  intro r' hr' ha
  rw [hr] at hr'
  exact ⟨r', hr', ha, Continues.refl r'⟩

/-- **Every call moves onward.** -/
theorem change_onward {J : StringOps} {m m' : Machine} {o : Op} (hc : Change J m o m') : Onward m m' := by
  have hf := change_finished hc
  by_cases hk : o.keepsRound = true
  · obtain ⟨es, hl⟩ := change_logs hc hk
    cases hc with
    | startRound => cases hk
    | evaluated => cases hk
    | evaluateStuck => cases hk
    | transition target now _ =>
      cases target with
      | roundActive =>
        refine Onward.of_round es rfl hl.log hl.started hf ?_
        intro r' hr'
        cases hr'
      | _ => exact Onward.of_same hl hf rfl rfl
    | answer round p a ts sid retry now hr ha _ _ _ =>
      have hst := (consumeChance_frame m round p retry (now 0)).1
      refine Onward.of_round es (congrArg MatchState.currentRoundNo hst) hl.log hl.started hf ?_
      intro r' hr' _
      obtain rfl := Option.some.inj hr'
      refine ⟨round, hr, ha, rfl, rfl, ?_⟩
      intro q hq
      rw [JsMap.get_set]
      split_ifs
      · rfl
      · exact hq
    | winner now =>
      obtain ⟨hs, hr, -⟩ := determineWinner_frame m now
      exact Onward.of_same hl hf (by rw [hs]) hr
    | finish now =>
      obtain ⟨hs, hr, -⟩ := determineWinner_frame m now
      have hn : (m.determineWinner now).1.state.currentRoundNo = m.state.currentRoundNo := by rw [hs]
      exact Onward.of_same hl hf hn hr
    | attach round key hr ha =>
      refine Onward.of_round es rfl hl.log hl.started hf ?_
      intro r' hr' _
      obtain rfl := Option.some.inj hr'
      exact ⟨round, hr, ha, rfl, rfl, fun _ h => h⟩
    | play round p now _ _ _ =>
      obtain ⟨hs, hr⟩ := applyPlay_frame (m.logEvent (.cardResolved (m.resolvedPayload round p)) (now 0)) round p
        (m.eventSeqCounter + 1) now
      exact Onward.of_same hl hf (congrArg MatchState.currentRoundNo hs) hr
    | _ => exact Onward.of_same hl hf rfl rfl
  · cases hc with
    | same o => exact Onward.refl m
    | startRound q d now _ =>
      -- the round number goes up, so nothing is promised of the old round
      have hlt : (m.beginRound q d now).state.currentRoundNo ≠ m.state.currentRoundNo := Nat.succ_ne_self _
      exact ⟨Nat.le_succ _, fun he => absurd he hlt, fun he => absurd he hlt, hf⟩
    | evaluated round now hr _ =>
      refine Onward.of_round [_] rfl rfl (by simp [EventLogEntry.isRoundStarted]) hf ?_
      intro r' hr' ha
      obtain rfl := Option.some.inj hr'
      cases ha
    | evaluateStuck round now hr _ =>
      refine Onward.of_round [] rfl (List.append_nil _).symm (by simp) hf ?_
      intro r' hr' ha
      obtain rfl := Option.some.inj hr'
      cases ha
    | _ => exact absurd rfl hk

/-! ## The roster of a driven match -/

/-- the elimination list is frozen by the winner decision only -/
theorem change_unfrozen {J : StringOps} {m m' : Machine} {o : Op} (hc : Change J m o m')
    (ho : o.decidesWinner = false) : m'.eliminatedFrozen = m.eliminatedFrozen := by
  cases hc with
  | winner => cases ho
  | finish => cases ho
  | transition target now _ => cases target <;> rfl
  | answer round p a ts sid retry now _ _ _ _ _ =>
    simp only [recordAnswer, consumeChance]
    split_ifs <;> rfl
  | play round p now _ _ _ =>
    simp only [applyPlay]
    split_ifs <;> rfl
  | _ => rfl

theorem RosterInv.active_survives {m : Machine} (h : RosterInv m) {p : String}
    (hp : (m.state.players.get p).map PlayerInfo.status = some .active) : p ∈ m.state.survivingPlayerIds := by
  obtain ⟨i, hi, hst⟩ := Option.map_eq_some_iff.1 hp
  rcases (h.covers p).1 ((JsMap.mem_keys _ _).2 ⟨i, hi⟩) with hs | he
  · exact hs
  · rw [h.eliminated p he i hi] at hst
    cases hst

/-- who plays, survives and answers in a match that is not over -/
structure LiveInv (m : Machine) : Prop where
  wire : WireInv m
  snapshot : SnapshotInv m
  roster : m.state.status ≠ .finished → RosterInv m
  frozen : m.eliminatedFrozen = true → m.state.status = .finished
  answered : m.state.status ≠ .finished → ∀ r, m.currentRound = some r → r.status = .active →
    ∀ p, (r.answers.get p).isSome → p ∈ m.state.survivingPlayerIds

/-- only survivors answer -/
theorem change_answered {J : StringOps} {m m' : Machine} {o : Op} (hc : Change J m o m')
    (hactive : ∀ p, (m.state.players.get p).map PlayerInfo.status = some .active → p ∈ m.state.survivingPlayerIds)
    (h : ∀ r, m.currentRound = some r → r.status = .active → ∀ p, (r.answers.get p).isSome →
      p ∈ m.state.survivingPlayerIds) (r' : Round) (hr' : m'.currentRound = some r') (ha : r'.status = .active)
    (p : String) (hp : (r'.answers.get p).isSome) : p ∈ m'.state.survivingPlayerIds := by
  cases hc with
  | transition target now _ =>
    cases target with
    | roundActive => cases hr'
    | _ => exact h r' hr' ha p hp
  | startRound q d now _ =>
    obtain rfl := Option.some.inj hr'
    cases hp
  | answer round q text ts sid retry now hround hopen _ hq _ =>
    have hst := (consumeChance_frame m round q retry (now 0)).1
    have hs : (m.recordAnswer round (newAnswer J round q text ts sid) retry now).state.survivingPlayerIds =
        m.state.survivingPlayerIds := congrArg MatchState.survivingPlayerIds hst
    rw [hs]
    obtain rfl := Option.some.inj hr'
    simp only [JsMap.get_set] at hp
    split_ifs at hp with hpq
    · subst hpq
      exact hactive q hq
    · exact h round hround hopen p hp
  | evaluated round now _ _ =>
    obtain rfl := Option.some.inj hr'
    cases ha
  | evaluateStuck round now _ _ =>
    obtain rfl := Option.some.inj hr'
    cases ha
  | winner now =>
    obtain ⟨hs, hround, -⟩ := determineWinner_frame m now
    rw [hs]
    exact h r' (hround ▸ hr') ha p hp
  | finish now =>
    obtain ⟨hs, hround, -⟩ := determineWinner_frame m now
    have hsurv : (m.determineWinner now).1.state.survivingPlayerIds = m.state.survivingPlayerIds := by rw [hs]
    have hmem := h r' (hround ▸ hr') ha p hp
    rw [← hsurv] at hmem
    exact hmem
  | attach round key hround hopen =>
    obtain rfl := Option.some.inj hr'
    exact h round hround hopen p hp
  | play round i now _ _ _ =>
    obtain ⟨hs, hround⟩ := applyPlay_frame (m.logEvent (.cardResolved (m.resolvedPayload round i)) (now 0)) round i
      (m.eventSeqCounter + 1) now
    rw [hs]
    exact h r' (hround ▸ hr') ha p hp
  | _ => exact h r' hr' ha p hp

theorem change_liveInv {J : StringOps} {m m' : Machine} {o : Op} (hc : Change J m o m')
    (hg : RunnerOrder m (.call o)) (ho : o.decidesWinner = false) (h : LiveInv m) : LiveInv m' where
  wire := change_wireInv hc h.wire
  snapshot := change_snapshotInv hc hg.1 h.snapshot
  roster := by
    intro hs'
    have hs : m.state.status ≠ .finished := fun hs => hs' (change_finished hc hs)
    exact change_rosterInv hc hg h.snapshot (h.roster hs)
  frozen := by
    intro hf
    rw [change_unfrozen hc ho] at hf
    exact change_finished hc (h.frozen hf)
  answered := by
    intro hs'
    have hs : m.state.status ≠ .finished := fun hs => hs' (change_finished hc hs)
    exact change_answered hc (fun p hp => (h.roster hs).active_survives hp) (h.answered hs)

/-- **Players' answers.** Where only these players answer, as many answers as players are an answer of each. -/
theorem answers_full_iff {answers : JsMap String AnswerState} {ids : List String} (hn : ids.Nodup)
    (honly : ∀ p, (answers.get p).isSome → p ∈ ids) :
    ids.length ≤ answers.size ↔ ∀ p ∈ ids, (answers.get p).isSome := by
  have hsize : answers.size = answers.keys.length := (List.length_map _).symm
  have hkeys : ∀ p, p ∈ answers.keys ↔ (answers.get p).isSome := fun p => by
    rw [JsMap.mem_keys, Option.isSome_iff_exists]
  have hsub : answers.keys ⊆ ids := fun p hp => honly p ((hkeys p).1 hp)
  rw [hsize]
  constructor
  · intro hlen p hp
    have heq := (List.subperm_of_subset answers.keys_nodup hsub).perm_of_length_le hlen
    exact (hkeys p).1 (heq.mem_iff.2 hp)
  · intro hall
    exact (List.subperm_of_subset hn fun p hp => (hkeys p).2 (hall p hp)).length_le

/-- a round with as many answers as survivors is answered by all its players -/
theorem LiveInv.all_answered {m : Machine} (h : LiveInv m) (hs : m.state.status ≠ .finished) {r : Round}
    (hr : m.currentRound = some r) (ha : r.status = .active)
    (hn : m.state.survivingPlayerIds.length ≤ r.answers.size) :
    ∀ p ∈ m.state.survivingPlayerIds, (r.answers.get p).isSome :=
  (answers_full_iff h.wire.surviving (h.answered hs r hr ha)).1 hn

/-! ## Phases -/

/-- status, round and log of a match that is driven one phase at a time -/
inductive Phase (m : Machine) : Prop where
  | lobby (hs : m.state.status = .created ∨ m.state.status = .topicVoting ∨ m.state.status = .countdown)
      (hr : m.currentRound = none) (hl : sinceStart m.eventLog = none)
  /-- ROUND_ACTIVE, the question still to come -/
  | asking (hs : m.state.status = .roundActive) (hr : m.currentRound = none)
      (hl : sinceStart m.eventLog = none ∨ sinceStart m.eventLog = some 1)
  | playing (r : Round) (hs : m.state.status = .roundActive) (hr : m.currentRound = some r) (ha : r.status = .active)
      (hn : r.roundNo = m.state.currentRoundNo) (hl : sinceStart m.eventLog = some 0)
  | closed (r : Round) (hs : m.state.status = .roundEvaluating ∨ m.state.status = .roundResult)
      (hr : m.currentRound = some r) (hc : r.status = .completed) (hl : sinceStart m.eventLog = some 1)
  | ended (hs : m.state.status = .finished)

/-- outside a round in play every started round has been evaluated -/
theorem Phase.settled {m : Machine} (h : Phase m) (hf : m.state.status ≠ .finished)
    (hp : m.state.status = .roundActive → m.currentRound = none) : sinceStart m.eventLog ≠ some 0 := by
  cases h with
  | lobby hs hr hl => rw [hl]; decide
  | asking hs hr hl => rcases hl with hl | hl <;> rw [hl] <;> decide
  | playing r hs hr ha hn hl =>
    rw [hp hs] at hr
    cases hr
  | closed r hs hr hc hl => rw [hl]; decide
  | ended hs => exact absurd hs hf

/-- ROUND_ACTIVE either waits for its question or has a round in play -/
theorem Phase.active {m : Machine} (h : Phase m) (hs : m.state.status = .roundActive) :
    (m.currentRound = none ∧ (sinceStart m.eventLog = none ∨ sinceStart m.eventLog = some 1)) ∨
      ∃ r, m.currentRound = some r ∧ r.status = .active ∧ r.roundNo = m.state.currentRoundNo ∧
        sinceStart m.eventLog = some 0 := by
  cases h with
  | asking _ hr hl => exact .inl ⟨hr, hl⟩
  | playing r _ hr ha hn hl => exact .inr ⟨r, hr, ha, hn, hl⟩
  | lobby hs0 _ _ => rcases hs0 with hs0 | hs0 | hs0 <;> rw [hs] at hs0 <;> cases hs0
  | closed x hs0 _ _ _ => rcases hs0 with hs0 | hs0 <;> rw [hs] at hs0 <;> cases hs0
  | ended hs0 =>
    rw [hs] at hs0
    cases hs0

structure PhaseInv (m : Machine) (clock : Time) : Prop where
  phase : Phase m
  once : EvaluatedOnce m.eventLog
  live : LiveInv m
  /-- a round ends at most one round duration from now -/
  due : ∀ r, m.currentRound = some r → r.status = .active → r.endsAt ≤ clock + GameConfig.roundDurationMs

theorem PhaseInv.later {m : Machine} {clock clock' : Time} (h : PhaseInv m clock) (hc : clock ≤ clock') :
    PhaseInv m clock' := by
  refine ⟨h.phase, h.once, h.live, ?_⟩
  intro r hr ha
  have hd := h.due r hr ha
  linarith

/-- the deadline within one round -/
theorem PhaseInv.due_onward {m m' : Machine} {clock : Time} (h : PhaseInv m clock) (ho : Onward m m')
    (hn : m'.state.currentRoundNo = m.state.currentRoundNo) :
    ∀ r, m'.currentRound = some r → r.status = .active → r.endsAt ≤ clock + GameConfig.roundDurationMs := by
  intro r' hr' ha'
  obtain ⟨r, hr, ha, hcont⟩ := ho.round hn r' hr' ha'
  rw [hcont.endsAt]
  exact h.due r hr ha

/-- one move of a driven match -/
structure Moved (m m' : Machine) (clock : Time) : Prop where
  inv : PhaseInv m' clock
  onward : Onward m m'
  survivors : m'.state.survivingPlayerIds.length ≤ m.state.survivingPlayerIds.length

theorem Moved.refl {m : Machine} {clock : Time} (h : PhaseInv m clock) : Moved m m clock := ⟨h, Onward.refl m, le_rfl⟩

/-- **A transition into a waiting phase**, or into ROUND_ACTIVE before its question. -/
theorem enter_moved {m : Machine} {clock : Time} (h : PhaseInv m clock) (target : MatchStatus) (now : Clock)
    (he : target ≠ .roundEvaluating) (hf : target ≠ .finished) : Moved m (m.transition target now).1 clock := by
  unfold transition canTransition
  split_ifs with hv
  · have hv' : target ∈ validTransitions m.state.status := by simpa using hv
    have hc : Change StringOps.ascii m (.transition target now) _ := .transition target now hv'
    obtain ⟨es, hl⟩ := change_logs hc rfl
    have hlog := hl.sinceStart
    have hn : ((m.logEvent (.stateTransition m.state.status target) (now 0)).enterStatus target
        now).state.currentRoundNo = m.state.currentRoundNo := by cases target <;> rfl
    refine ⟨⟨?_, hl.evaluatedOnce h.once, change_liveInv hc ⟨trivial, rfl⟩ rfl h.live,
      h.due_onward (change_onward hc) hn⟩, change_onward hc, ?_⟩
    · cases h.phase with
      | lobby hs hr hl0 =>
        rw [hl0] at hlog
        cases target with
        | created => rcases hs with hs | hs | hs <;> rw [hs] at hv' <;> simp [validTransitions] at hv'
        | topicVoting => exact .lobby (.inr (.inl rfl)) hr hlog
        | countdown => exact .lobby (.inr (.inr rfl)) hr hlog
        | roundActive => exact .asking rfl rfl (.inl hlog)
        | roundEvaluating => exact absurd rfl he
        | roundResult => rcases hs with hs | hs | hs <;> rw [hs] at hv' <;> simp [validTransitions] at hv'
        | finished => exact absurd rfl hf
      | asking hs hr hl0 =>
        rw [hs] at hv'
        simp [validTransitions, he, hf] at hv'
      | playing r hs hr ha _ hl0 =>
        rw [hs] at hv'
        simp [validTransitions, he, hf] at hv'
      | closed r hs hr hcp hl0 =>
        rw [hl0] at hlog
        rcases hs with hs | hs
        · rw [hs] at hv'
          obtain rfl : target = .roundResult := by simpa [validTransitions, hf] using hv'
          exact .closed r (.inr rfl) hr hcp hlog
        · rw [hs] at hv'
          obtain rfl : target = .roundActive := by simpa [validTransitions, hf] using hv'
          exact .asking rfl rfl (.inr hlog)
      | ended hs =>
        rw [hs] at hv'
        cases hv'
    · cases target <;> exact le_rfl
  · exact Moved.refl h

/-- **The question arrives**: the round starts unless the match is over. -/
theorem startRound_moved {m : Machine} {clock : Time} (h : PhaseInv m clock)
    (hask : m.state.status = .roundActive → m.currentRound = none) (q : QuestionInput) :
    Moved m (m.startRound q none fun _ => clock).1 clock := by
  unfold startRound
  split_ifs with hs
  · exact Moved.refl h
  · have hs' : m.state.status = .roundActive := not_not.1 hs
    have hc : Change StringOps.ascii m (.startRound q none fun _ => clock) _ := .startRound q none _ hs'
    have hopen : sinceStart m.eventLog = none ∨ sinceStart m.eventLog = some 1 := by
      rcases h.phase.active hs' with ⟨-, hl⟩ | ⟨r, hr, -⟩
      · exact hl
      · rw [hask hs'] at hr
        cases hr
    refine ⟨⟨.playing _ hs' rfl rfl rfl (sinceOpen_open _ _ rfl), h.once.open _ hopen,
      change_liveInv hc ⟨trivial, rfl⟩ rfl h.live, ?_⟩, change_onward hc, le_rfl⟩
    intro r hr _
    obtain rfl := Option.some.inj hr
    exact le_rfl

/-- **The round in play is evaluated**: one ROUND_EVALUATED, and the evaluation does not throw. -/
theorem evaluate_moved {m : Machine} {clock : Time} (h : PhaseInv m clock) {r : Round} (now : Clock)
    (hs : m.state.status = .roundActive) (hr : m.currentRound = some r) :
    ∃ m1 m2 e, m.transition .roundEvaluating now = (m1, .ok ()) ∧ m1.evaluateRound now = (m2, .ok e) ∧
      m1.state.currentRoundNo = m.state.currentRoundNo ∧ m2.state.currentRoundNo = m.state.currentRoundNo ∧
      m2.state.status = .roundEvaluating ∧ sinceStart m2.eventLog = some 1 ∧ Moved m m2 clock := by
  obtain ⟨ha, hl0⟩ : r.status = .active ∧ sinceStart m.eventLog = some 0 := by
    rcases h.phase.active hs with ⟨hx, -⟩ | ⟨x, hx, ha, -, hl⟩
    · rw [hr] at hx
      cases hx
    · obtain rfl : r = x := Option.some.inj (hr.symm.trans hx)
      exact ⟨ha, hl⟩
  have hf : m.eliminatedFrozen = false := by
    cases hfz : m.eliminatedFrozen with
    | false => rfl
    | true =>
      have hover := h.live.frozen hfz
      rw [hs] at hover
      cases hover
  have hv : m.canTransition .roundEvaluating = true := by simp [canTransition, hs, validTransitions]
  let m1 := (m.logEvent (.stateTransition m.state.status .roundEvaluating) (now 0)).enterStatus .roundEvaluating now
  have hc1 : Change StringOps.ascii m (.transition .roundEvaluating now) m1 :=
    .transition .roundEvaluating now (by simpa [canTransition] using hv)
  have hr1 : m1.currentRound = some r := hr
  have hc2 : Change StringOps.ascii m1 (.evaluateRound now) (m1.settle r now) := .evaluated r now hr1 hf
  have hg2 : RunnerOrder m1 (.call (.evaluateRound now)) := by
    refine ⟨?_, rfl⟩
    intro x hx
    obtain rfl : r = x := Option.some.inj (hr1.symm.trans hx)
    exact ha
  have hlive1 := change_liveInv hc1 ⟨trivial, rfl⟩ rfl h.live
  obtain ⟨es, hlog1⟩ := change_logs hc1 rfl
  have hsince : sinceStart (m1.settle r now).eventLog = some 1 := by
    have hstep : sinceStart (m1.settle r now).eventLog = (sinceStart m1.eventLog).map (· + 1) :=
      sinceOpen_append m1.eventLog [_] (by simp [EventLogEntry.isRoundStarted])
    rw [hstep, hlog1.sinceStart, hl0]
    rfl
  have hevaluate : m1.evaluateRound now =
      (m1.settle r now, .ok ⟨m1.survivorsOf r, m1.losersOf r, r.correctAnswer⟩) := by
    rw [evaluateRound_eq, hr1]
    simp only [show m1.eliminatedFrozen = false from hf, Bool.false_eq_true, if_false]
  have honward := (change_onward hc1).trans (change_onward hc2)
  refine ⟨m1, m1.settle r now, _, by rw [transition, if_pos hv], hevaluate, rfl, rfl, rfl, hsince,
    ⟨?_, ?_, change_liveInv hc2 hg2 rfl hlive1, h.due_onward honward rfl⟩, honward, ?_⟩
  · exact .closed _ (.inl rfl) rfl rfl hsince
  · exact (hlog1.evaluatedOnce h.once).append [_] (by simp [EventLogEntry.isRoundStarted])
  · have hplayers : m1.roundPlayers r = m.state.survivingPlayerIds := hlive1.snapshot.roundPlayers hg2.1 hr1
    have hsurv : (m1.settle r now).state.survivingPlayerIds = m1.survivorsOf r := rfl
    rw [hsurv, survivorsOf, hplayers]
    exact List.length_filter_le _ _

/-- **The match finishes**, from any phase. -/
theorem finish_moved {m : Machine} {clock : Time} (h : PhaseInv m clock) (now : Clock)
    (hv : m.canTransition .finished = true) :
    ∃ m1, m.transition .finished now = (m1, .ok ()) ∧ Moved m (m1.finishMatch now) clock ∧
      (m1.finishMatch now).state.status = .finished ∧
      (m1.finishMatch now).state.currentRoundNo = m.state.currentRoundNo ∧
      ∃ es, LogsNoRound m (m1.finishMatch now) es := by
  let m1 := (m.logEvent (.stateTransition m.state.status .finished) (now 0)).enterStatus .finished now
  have hc1 : Change StringOps.ascii m (.transition .finished now) m1 :=
    .transition .finished now (by simpa [canTransition] using hv)
  have hc2 : Change StringOps.ascii m1 (.finishMatch now) (m1.finishMatch now) := .finish now
  have hover : (m1.finishMatch now).state.status = .finished := change_finished hc2 rfl
  obtain ⟨es, hlog1⟩ := change_logs hc1 rfl
  obtain ⟨es', hlog2⟩ := change_logs hc2 rfl
  have hlive : LiveInv (m1.finishMatch now) :=
    { wire := change_wireInv hc2 (change_wireInv hc1 h.live.wire)
      snapshot := change_snapshotInv hc2 trivial (change_snapshotInv hc1 trivial h.live.snapshot)
      roster := fun hs => absurd hover hs
      frozen := fun _ => hover
      answered := fun hs => absurd hover hs }
  have hstate := (determineWinner_frame m1 now).1
  have honward := (change_onward hc1).trans (change_onward hc2)
  have hn : (m1.finishMatch now).state.currentRoundNo = m.state.currentRoundNo := by
    calc (m1.finishMatch now).state.currentRoundNo
        = (m1.determineWinner now).1.state.currentRoundNo := rfl
      _ = m1.state.currentRoundNo := by rw [hstate]
      _ = m.state.currentRoundNo := rfl
  refine ⟨m1, by rw [transition, if_pos hv],
    ⟨⟨.ended hover, ?_, hlive, h.due_onward honward hn⟩, honward, ?_⟩, hover, hn, _, hlog1.trans hlog2⟩
  · exact hlog2.evaluatedOnce (hlog1.evaluatedOnce h.once)
  · have hsurv : (m1.finishMatch now).state.survivingPlayerIds = m.state.survivingPlayerIds := (finish_lists m1 now).1
    rw [hsurv]

/-! ## Calls within a phase -/

/-- what a call within a phase leaves alone -/
structure SamePhase (m m' : Machine) : Prop where
  status : m'.state.status = m.state.status
  roundNo : m'.state.currentRoundNo = m.state.currentRoundNo
  survivors : m'.state.survivingPlayerIds = m.state.survivingPlayerIds
  idle : m.currentRound = none → m'.currentRound = none
  round : ∀ r, m.currentRound = some r → ∃ r', m'.currentRound = some r' ∧ r'.status = r.status ∧
    r'.roundNo = r.roundNo

theorem SamePhase.of_round {m m' : Machine} (hs : m'.state.status = m.state.status)
    (hn : m'.state.currentRoundNo = m.state.currentRoundNo)
    (hv : m'.state.survivingPlayerIds = m.state.survivingPlayerIds) (hr : m'.currentRound = m.currentRound) :
    SamePhase m m' :=
  ⟨hs, hn, hv, fun h => hr.trans h, fun r h => ⟨r, hr.trans h, rfl, rfl⟩⟩

theorem SamePhase.of_some {m m' : Machine} (hs : m'.state = m.state) {r r' : Round} (hr : m.currentRound = some r)
    (hr' : m'.currentRound = some r') (he : r'.status = r.status ∧ r'.roundNo = r.roundNo) :
    SamePhase m m' := by
  refine ⟨by rw [hs], by rw [hs], by rw [hs], ?_, ?_⟩
  · intro h
    rw [hr] at h
    cases h
  · intro x hx
    obtain rfl : r = x := Option.some.inj (hr.symm.trans hx)
    exact ⟨r', hr', he⟩

theorem change_samePhase {J : StringOps} {m m' : Machine} {o : Op} (hc : Change J m o m') (ho : o.isInterim = true) :
    SamePhase m m' := by
  cases hc with
  | transition => cases ho
  | startRound => cases ho
  | evaluated => cases ho
  | evaluateStuck => cases ho
  | winner => cases ho
  | finish => cases ho
  | initRejected => cases ho
  | initVoting => cases ho
  | answer round p a ts sid retry now hr _ _ _ _ =>
    exact .of_some (consumeChance_frame m round p retry (now 0)).1 hr rfl ⟨rfl, rfl⟩
  | attach round key hr _ => exact .of_some rfl hr rfl ⟨rfl, rfl⟩
  | play round p now hr _ _ =>
    obtain ⟨hs, hr'⟩ := applyPlay_frame (m.logEvent (.cardResolved (m.resolvedPayload round p)) (now 0)) round p
      (m.eventSeqCounter + 1) now
    exact .of_some hs hr (hr'.trans hr) ⟨rfl, rfl⟩
  | _ => exact .of_round rfl rfl rfl rfl

theorem SamePhase.phase {m m' : Machine} (h : SamePhase m m')
    (hl : sinceStart m'.eventLog = sinceStart m.eventLog) (hp : Phase m) : Phase m' := by
  have hst := h.status
  cases hp with
  | lobby hs hr hl0 => exact .lobby (by rw [hst]; exact hs) (h.idle hr) (hl.trans hl0)
  | asking hs hr hl0 => exact .asking (hst.trans hs) (h.idle hr) (by rw [hl]; exact hl0)
  | playing r hs hr ha hn hl0 =>
    obtain ⟨r', hr', ha', hn'⟩ := h.round r hr
    exact .playing r' (hst.trans hs) hr' (ha'.trans ha) ((hn'.trans hn).trans h.roundNo.symm) (hl.trans hl0)
  | closed r hs hr hc hl0 =>
    obtain ⟨r', hr', hc', -⟩ := h.round r hr
    exact .closed r' (by rw [hst]; exact hs) hr' (hc'.trans hc) (hl.trans hl0)
  | ended hs => exact .ended (hst.trans hs)

/-- **A call within a phase.** -/
theorem interim_moved {J : StringOps} {m m' : Machine} {o : Op} (hc : Change J m o m') (ho : o.isInterim = true)
    {clock : Time} (h : PhaseInv m clock) : Moved m m' clock := by
  have hk : o.keepsRound = true ∧ o.decidesWinner = false ∧ RunnerOrder m (.call o) := by
    cases o <;> first | exact ⟨rfl, rfl, trivial, rfl⟩ | cases ho
  obtain ⟨es, hl⟩ := change_logs hc hk.1
  have hsame := change_samePhase hc ho
  exact
    { inv :=
        { phase := hsame.phase hl.sinceStart h.phase
          once := hl.evaluatedOnce h.once
          live := change_liveInv hc hk.2.2 hk.2.1 h.live
          due := h.due_onward (change_onward hc) hsame.roundNo }
      onward := change_onward hc
      survivors := by rw [hsame.survivors] }

/-- **Topic voting opens**, or is refused and only rewrites the topics. -/
theorem initTopicVoting_moved {m : Machine} {clock : Time} (h : PhaseInv m clock) (c : Option (List String))
    (d : Option Time) (now : Clock) : Moved m (m.initTopicVoting c d now).1 clock := by
  have hc := initTopicVoting_change StringOps.ascii m c d now
  obtain ⟨es, hl⟩ := change_logs hc rfl
  have hlive := change_liveInv hc ⟨trivial, rfl⟩ rfl h.live
  have hlog := hl.sinceStart
  generalize (m.initTopicVoting c d now).1 = m' at *
  have honce := hl.evaluatedOnce h.once
  have honward := change_onward hc
  cases hc with
  | same => exact Moved.refl h
  | initRejected _ _ _ hs =>
    have hsame : SamePhase m (m.resetTopics (m.candidatesFor c)) := .of_round rfl rfl rfl rfl
    exact ⟨⟨hsame.phase hlog h.phase, honce, hlive, h.due_onward honward rfl⟩, honward, le_rfl⟩
  | initVoting _ _ _ hs =>
    refine ⟨⟨?_, honce, hlive, h.due_onward honward rfl⟩, honward, le_rfl⟩
    cases h.phase with
    | lobby _ hr hl0 => exact .lobby (.inr (.inl rfl)) hr (hlog.trans hl0)
    | asking hs0 _ _ => rw [hs] at hs0; cases hs0
    | playing r hs0 _ _ _ _ => rw [hs] at hs0; cases hs0
    | closed r hs0 _ _ _ => rcases hs0 with hs0 | hs0 <;> rw [hs] at hs0 <;> cases hs0
    | ended hs0 => rw [hs] at hs0; cases hs0

/-! ## The machine a node takes over -/

theorem create_phaseInv (matchId roomId : String) (players : List PlayerInfo) (clock : Time)
    (hd : (players.map PlayerInfo.id).Nodup) (ha : ∀ p ∈ players, p.status = .active) :
    PhaseInv (Machine.create matchId roomId players) clock where
  phase := .lobby (.inl rfl) rfl rfl
  once := closedOnce_nil _ _
  live :=
    { wire := wireInv_create matchId roomId players hd
      snapshot := snapshotInv_create matchId roomId players
      roster := fun _ => rosterInv_create matchId roomId players hd ha
      frozen := fun h => by cases h
      answered := fun _ r hr => by cases hr }
  due := fun r hr => by cases hr

/-- a decoded machine is in the phase its blob was taken in -/
theorem recovered_samePhase (m : Machine) : SamePhase m m.recovered := by
  refine ⟨rfl, rfl, rfl, ?_, ?_⟩
  · intro hr
    simp [recovered, hr]
  · intro r hr
    exact ⟨withoutKey r, by simp [recovered, hr], rfl, rfl⟩

theorem recovered_phaseInv {m : Machine} {clock : Time} (h : PhaseInv m clock) : PhaseInv m.recovered clock where
  phase := (recovered_samePhase m).phase rfl h.phase
  once := h.once
  live :=
    { wire := recovered_wireInv m h.live.wire
      snapshot := recovered_snapshotInv h.live.snapshot
      roster := fun hs => (h.live.roster hs).of_eq rfl rfl rfl
      frozen := fun hf => by cases hf
      answered := by
        intro hs r hr ha p hp
        obtain ⟨x, hx, rfl⟩ := Option.map_eq_some_iff.1 hr
        exact h.live.answered hs x hx ha p hp }
  due := by
    intro r hr ha
    obtain ⟨x, hx, rfl⟩ := Option.map_eq_some_iff.1 hr
    exact h.due x hx ha

theorem deserialize_phaseInv {J : StringOps} {m m' : Machine} {clock : Time} (h : PhaseInv m clock)
    (hd : Machine.deserialize J (some m.serialize) = .ok m') : PhaseInv m' clock := by
  rw [deserialize_eq h.live.wire hd]
  exact recovered_phaseInv h

end Machine

end Arena.GameCore
