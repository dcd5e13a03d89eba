/-
The rounds of a match as its event log tells them.

ROUND_STARTED opens a round with its number and its question; an ANSWER_SUBMITTED replaces the player's answer before it;
ROUND_EVALUATED closes the round. The machine holds the round beside its log.

- `act_recorded`: every call and every failover keeps that round in step with the log, and numbers the closed rounds
  upwards;
- `act_closed`, `change_closed`: closed rounds stay, and only an evaluation closes one.
-/
import Arena.GameCore.CardLog
import Arena.GameCore.Roster

namespace Arena.Lib

variable {K V W : Type}

/-- the map with each value changed, keys and order kept -/
def JsMap.mapValues (f : V → W) (m : JsMap K V) : JsMap K W where
  entries := m.entries.map fun e => (e.1, f e.2)
  nodup := by
    rw [List.map_map]
    exact m.nodup

theorem map_setEntry [DecidableEq K] (f : V → W) (k : K) (v : V) (l : List (K × V)) :
    (setEntry k v l).map (fun e => (e.1, f e.2)) = setEntry k (f v) (l.map fun e => (e.1, f e.2)) := by
  induction l with
  | nil => rfl
  | cons e l ih =>
    simp only [setEntry, List.map_cons]
    split_ifs
    · rfl
    · rw [List.map_cons, ih]

theorem JsMap.mapValues_set [DecidableEq K] (f : V → W) (m : JsMap K V) (k : K) (v : V) :
    (m.set k v).mapValues f = (m.mapValues f).set k (f v) := JsMap.ext (map_setEntry f k v m.entries)

end Arena.Lib

namespace Arena.GameCore

open Arena.Lib Arena.Shared

/-! ## History -/

structure LoggedAnswer where
  isCorrect : Bool
  responseTimeMs : Time
deriving DecidableEq, Repr

structure LoggedRound where
  roundNo : ℕ
  questionId : String
  answers : JsMap String LoggedAnswer
deriving DecidableEq

structure RoundHistory where
  closed : List LoggedRound
  /-- the last round that was opened -/
  latest : Option LoggedRound
deriving DecidableEq

namespace RoundHistory

def empty : RoundHistory := ⟨[], none⟩

def log (h : RoundHistory) (e : EventLogEntry) : RoundHistory :=
  match e.event with
  | .roundStarted roundNo questionId _ _ => { h with latest := some ⟨roundNo, questionId, JsMap.empty⟩ }
  | .answerSubmitted playerId isCorrect responseTimeMs =>
    { h with
      latest := h.latest.map fun r => { r with answers := r.answers.set playerId ⟨isCorrect, responseTimeMs⟩ } }
  | .roundEvaluated .. => { h with closed := h.closed ++ h.latest.toList }
  | _ => h

def replay (log : List EventLogEntry) : RoundHistory := log.foldl RoundHistory.log empty

theorem replay_append (log es : List EventLogEntry) : replay (log ++ es) = es.foldl RoundHistory.log (replay log) :=
  List.foldl_append

theorem log_quiet (h : RoundHistory) {e : EventLogEntry} (hq : e.event.isRoundEvent = false) : h.log e = h := by
  unfold log
  split
  · simp_all [MatchEvent.isRoundEvent]
  · simp_all [MatchEvent.isRoundEvent]
  · simp_all [MatchEvent.isRoundEvent]
  · rfl

theorem foldl_quiet (h : RoundHistory) {es : List EventLogEntry} (hq : ∀ e ∈ es, e.event.isRoundEvent = false) :
    es.foldl log h = h := by
  induction es with
  | nil => rfl
  | cons e es ih =>
    rw [List.foldl_cons, log_quiet h (hq e List.mem_cons_self)]
    exact ih fun x hx => hq x (List.mem_cons_of_mem e hx)

end RoundHistory

/-! ## The round of the machine -/

def loggedAnswer (a : AnswerState) : LoggedAnswer := ⟨a.isCorrect, a.responseTimeMs⟩

/-- what a round says of itself -/
def loggedRound (r : Round) : LoggedRound := ⟨r.roundNo, r.question.id, r.answers.mapValues loggedAnswer⟩

namespace Machine

/-- what the log tells of the rounds is what the machine holds -/
structure Recorded (m : Machine) : Prop where
  latest : ∀ r, m.currentRound = some r → (RoundHistory.replay m.eventLog).latest = some (loggedRound r)
  number : ∀ r, m.currentRound = some r → r.roundNo = m.state.currentRoundNo
  done : ∀ r, m.currentRound = some r → r.status = .completed →
    loggedRound r ∈ (RoundHistory.replay m.eventLog).closed
  ascending : ((RoundHistory.replay m.eventLog).closed.map LoggedRound.roundNo).Pairwise (· < ·)
  past : ∀ c ∈ (RoundHistory.replay m.eventLog).closed, c.roundNo ≤ m.state.currentRoundNo
  /-- a round in play is not closed yet -/
  playing : ∀ r, m.currentRound = some r → r.status = .active →
    ∀ c ∈ (RoundHistory.replay m.eventLog).closed, c.roundNo < r.roundNo

theorem recorded_create (matchId roomId : String) (players : List PlayerInfo) :
    Recorded (Machine.create matchId roomId players) where
  latest r hr := by cases hr
  number r hr := by cases hr
  done r hr := by cases hr
  ascending := List.Pairwise.nil
  past c hc := by cases hc
  playing r hr := by cases hr

variable {m m' : Machine}

/-- a change that logs no event of a round, and keeps or drops the round -/
theorem Recorded.quiet (h : Recorded m)
    (hlog : RoundHistory.replay m'.eventLog = RoundHistory.replay m.eventLog)
    (hn : m'.state.currentRoundNo = m.state.currentRoundNo)
    (hr : ∀ r', m'.currentRound = some r' → ∃ r, m.currentRound = some r ∧ loggedRound r' = loggedRound r ∧
      (r'.status = r.status ∨ r'.status = .evaluating)) : Recorded m' where
  latest r' hr' := by
    obtain ⟨r, hcur, hsame, -⟩ := hr r' hr'
    rw [hlog, hsame]
    exact h.latest r hcur
  number r' hr' := by
    obtain ⟨r, hcur, hsame, -⟩ := hr r' hr'
    rw [hn, ← h.number r hcur]
    exact congrArg LoggedRound.roundNo hsame
  done r' hr' hs := by
    obtain ⟨r, hcur, hsame, hst⟩ := hr r' hr'
    rw [hlog, hsame]
    rcases hst with hst | hst
    · exact h.done r hcur (hst ▸ hs)
    · rw [hst] at hs
      cases hs
  ascending := by
    rw [hlog]
    exact h.ascending
  past c hc := by
    rw [hlog] at hc
    rw [hn]
    exact h.past c hc
  playing r' hr' hs c hc := by
    obtain ⟨r, hcur, hsame, hst⟩ := hr r' hr'
    rw [hlog] at hc
    have hno : r'.roundNo = r.roundNo := congrArg LoggedRound.roundNo hsame
    rw [hno]
    rcases hst with hst | hst
    · exact h.playing r hcur (hst ▸ hs) c hc
    · rw [hst] at hs
      cases hs

/-- a round is opened: its number is past all that are closed -/
theorem beginRound_recorded (h : Recorded m) (q : QuestionInput) (d : Option Time) (now : Clock) :
    Recorded (m.beginRound q d now) := by
  have hlog : RoundHistory.replay (m.beginRound q d now).eventLog =
      { RoundHistory.replay m.eventLog with latest := some (loggedRound (m.newRound q d now)) } := by
    rw [beginRound, logEvent_eventLog, RoundHistory.replay_append]
    rfl
  have hclosed : (RoundHistory.replay (m.beginRound q d now).eventLog).closed =
      (RoundHistory.replay m.eventLog).closed := by rw [hlog]
  have hn : (m.beginRound q d now).state.currentRoundNo = m.state.currentRoundNo + 1 := rfl
  refine ⟨?_, ?_, ?_, ?_, ?_, ?_⟩
  · intro r hr
    obtain rfl := Option.some.inj hr
    rw [hlog]
  · intro r hr
    obtain rfl := Option.some.inj hr
    rfl
  · intro r hr hs
    obtain rfl := Option.some.inj hr
    cases hs
  · rw [hclosed]
    exact h.ascending
  · intro c hc
    rw [hclosed] at hc
    rw [hn]
    exact (h.past c hc).trans (Nat.le_succ _)
  · intro r hr _ c hc
    obtain rfl := Option.some.inj hr
    rw [hclosed] at hc
    exact Nat.lt_succ_of_le (h.past c hc)

/-- an answer replaces the player's answer before it, in the round and in the log's -/
theorem recordAnswer_recorded (h : Recorded m) {round : Round} (hr : m.currentRound = some round)
    (hactive : round.status = .active) (a : AnswerState) (retry : Bool) (now : Clock) :
    Recorded (m.recordAnswer round a retry now) := by
  have hst := (consumeChance_frame m round a.playerId retry (now 0)).1
  have hlog : RoundHistory.replay (m.recordAnswer round a retry now).eventLog =
      { RoundHistory.replay m.eventLog with
        latest := some (loggedRound { round with answers := round.answers.set a.playerId a }) } := by
    have hmap : (round.answers.set a.playerId a).mapValues loggedAnswer =
        (round.answers.mapValues loggedAnswer).set a.playerId ⟨a.isCorrect, a.responseTimeMs⟩ :=
      JsMap.mapValues_set loggedAnswer round.answers a.playerId a
    have hfold : ∀ g : RoundHistory, (answerEntries m round a retry now).foldl RoundHistory.log g =
        { g with latest := g.latest.map fun r =>
          { r with answers := r.answers.set a.playerId ⟨a.isCorrect, a.responseTimeMs⟩ } } := by
      intro g
      unfold answerEntries
      cases retry <;> rfl
    rw [recordAnswer_eventLog, RoundHistory.replay_append, hfold, h.latest round hr]
    simp only [loggedRound, Option.map_some, hmap]
  have hclosed : (RoundHistory.replay (m.recordAnswer round a retry now).eventLog).closed =
      (RoundHistory.replay m.eventLog).closed := by rw [hlog]
  have hn : (m.recordAnswer round a retry now).state.currentRoundNo = m.state.currentRoundNo :=
    congrArg MatchState.currentRoundNo hst
  refine ⟨?_, ?_, ?_, ?_, ?_, ?_⟩
  · intro r' hr'
    obtain rfl := Option.some.inj hr'
    rw [hlog]
  · intro r' hr'
    obtain rfl := Option.some.inj hr'
    rw [hn]
    exact h.number round hr
  · intro r' hr' hs
    obtain rfl := Option.some.inj hr'
    have hcompleted : round.status = .completed := hs
    rw [hactive] at hcompleted
    cases hcompleted
  · rw [hclosed]
    exact h.ascending
  · intro c hc
    rw [hclosed] at hc
    rw [hn]
    exact h.past c hc
  · intro r' hr' _ c hc
    obtain rfl := Option.some.inj hr'
    rw [hclosed] at hc
    exact h.playing round hr hactive c hc

theorem settle_replay (h : Recorded m) {round : Round} (hr : m.currentRound = some round) (now : Clock) :
    RoundHistory.replay (m.settle round now).eventLog =
      { RoundHistory.replay m.eventLog with
        closed := (RoundHistory.replay m.eventLog).closed ++ [loggedRound round] } := by
  have hlatest := h.latest round hr
  rw [settle, logEvent_eventLog, RoundHistory.replay_append]
  simp only [List.foldl_cons, List.foldl_nil, RoundHistory.log, hlatest, Option.toList_some]

/-- an evaluation closes the round in play -/
theorem settle_recorded (h : Recorded m) {round : Round} (hr : m.currentRound = some round)
    (hactive : round.status = .active) (now : Clock) : Recorded (m.settle round now) := by
  have hlog := settle_replay h hr now
  have hno := h.number round hr
  refine ⟨?_, ?_, ?_, ?_, ?_, ?_⟩
  · intro r' hr'
    obtain rfl := Option.some.inj hr'
    rw [hlog]
    exact h.latest round hr
  · intro r' hr'
    obtain rfl := Option.some.inj hr'
    exact hno
  · intro r' hr' _
    obtain rfl := Option.some.inj hr'
    rw [hlog]
    exact List.mem_append_right _ (List.mem_singleton.2 rfl)
  · rw [hlog, List.map_append, List.pairwise_append]
    refine ⟨h.ascending, List.pairwise_singleton _ _, ?_⟩
    intro a ha b hb
    obtain ⟨c, hc, rfl⟩ := List.mem_map.1 ha
    rw [List.mem_singleton.1 hb]
    exact h.playing round hr hactive c hc
  · intro c hc
    rw [hlog] at hc
    rcases List.mem_append.1 hc with hc | hc
    · exact h.past c hc
    · rw [List.mem_singleton.1 hc]
      exact hno.le
  · intro r' hr' hs
    obtain rfl := Option.some.inj hr'
    cases hs

/-- no call but `startRound` counts a round -/
theorem change_roundNo {J : StringOps} {o : Op} (hc : Change J m o m') (ho : ∀ q d now, o ≠ .startRound q d now) :
    m'.state.currentRoundNo = m.state.currentRoundNo := by
  cases hc with
  | transition target now _ => cases target <;> rfl
  | startRound q d now _ => exact absurd rfl (ho q d now)
  | answer round p a ts sid retry now _ _ _ _ _ =>
    exact congrArg MatchState.currentRoundNo (consumeChance_frame m round p retry (now 0)).1
  | winner now => exact congrArg MatchState.currentRoundNo (determineWinner_frame m now).1
  | finish now =>
    have hn : (m.determineWinner now).1.state.currentRoundNo = m.state.currentRoundNo := by
      rw [(determineWinner_frame m now).1]
    exact hn
  | play round p now _ _ _ => exact congrArg MatchState.currentRoundNo (applyPlay_frame _ round p _ now).1
  | _ => rfl

theorem change_recorded {J : StringOps} {o : Op} (hc : Change J m o m') (hg : EvalOnce m (.call o))
    (h : Recorded m) : Recorded m' := by
  by_cases hq : o.isQuiet = true
  · have ho : ∀ q d now, o ≠ .startRound q d now := by
      rintro q d now rfl
      cases hq
    obtain ⟨es, hl, hes⟩ := change_quiet hc hq
    refine h.quiet ?_ (change_roundNo hc ho) ?_
    · rw [hl, RoundHistory.replay_append, RoundHistory.foldl_quiet _ hes]
    · intro r' hr'
      obtain ⟨r, hr, key, rfl⟩ := change_quiet_round hc hq r' hr'
      exact ⟨r, hr, rfl, .inl rfl⟩
  · cases hc with
    | same o => exact h
    | startRound q d now _ => exact beginRound_recorded h q d now
    | answer round p a ts sid retry now hr hactive _ _ _ => exact recordAnswer_recorded h hr hactive _ retry now
    | evaluated round now hr _ => exact settle_recorded h hr (hg round hr) now
    | evaluateStuck round now hr hf =>
      refine h.quiet rfl rfl ?_
      intro r' hr'
      obtain rfl := Option.some.inj hr'
      exact ⟨round, hr, rfl, .inr rfl⟩
    | play round p now hr _ _ =>
      obtain ⟨hst, hround⟩ := applyPlay_frame (m.logEvent (.cardResolved (m.resolvedPayload round p)) (now 0)) round p
        (m.eventSeqCounter + 1) now
      refine h.quiet ?_ (congrArg MatchState.currentRoundNo hst) ?_
      · rw [play_eventLog, RoundHistory.replay_append, playEntries]
        split_ifs <;> rfl
      · intro r' hr'
        rw [hround] at hr'
        exact ⟨r', hr', rfl, .inl rfl⟩
    | _ => exact absurd rfl hq

/-- **The rounds are the log's**: every call in the runner's order and every failover keeps them so. -/
theorem act_recorded (J : StringOps) (m : Machine) (a : Action) (hg : EvalOnce m a) (hw : WireInv m)
    (h : Recorded m) : Recorded (m.act J a) := by
  cases a with
  | call o => exact change_recorded (step_change J m o) hg h
  | failover =>
    rcases failover_cases J m hw with hf | hf
    · rw [act, hf]
      refine h.quiet rfl rfl ?_
      intro r' hr'
      obtain ⟨r, hr, rfl⟩ := Option.map_eq_some_iff.1 hr'
      exact ⟨r, hr, rfl, .inl rfl⟩
    · rw [act, hf]
      exact h

/-- rounds that are closed stay closed -/
theorem act_closed (J : StringOps) (m : Machine) (a : Action) :
    (RoundHistory.replay m.eventLog).closed <+: (RoundHistory.replay (m.act J a).eventLog).closed := by
  have hgrow : ∀ es : List EventLogEntry, ∀ h : RoundHistory, h.closed <+: (es.foldl RoundHistory.log h).closed := by
    intro es
    induction es with
    | nil => exact fun h => List.prefix_refl _
    | cons e es ih =>
      intro h
      refine List.IsPrefix.trans ?_ (ih (h.log e))
      unfold RoundHistory.log
      split
      · exact List.prefix_refl _
      · exact List.prefix_refl _
      · exact List.prefix_append _ _
      · exact List.prefix_refl _
  cases a with
  | call o =>
    obtain ⟨es, hl, -⟩ := change_appends (step_change J m o)
    have hlog : (m.act J (.call o)).eventLog = m.eventLog ++ es := hl
    rw [hlog, RoundHistory.replay_append]
    exact hgrow es _
  | failover =>
    rw [act, failover_eventLog]

/-- only an evaluation closes a round -/
theorem change_closed {J : StringOps} {o : Op} (hc : Change J m o m') (ho : ∀ now, o ≠ .evaluateRound now) :
    (RoundHistory.replay m'.eventLog).closed = (RoundHistory.replay m.eventLog).closed := by
  by_cases hq : o.isQuiet = true
  · obtain ⟨es, hl, hes⟩ := change_quiet hc hq
    rw [hl, RoundHistory.replay_append, RoundHistory.foldl_quiet _ hes]
  · cases hc with
    | same o => rfl
    | startRound q d now _ =>
      rw [beginRound, logEvent_eventLog, RoundHistory.replay_append]
      rfl
    | answer round p a ts sid retry now _ _ _ _ _ =>
      rw [recordAnswer_eventLog, RoundHistory.replay_append, answerEntries]
      cases retry <;> rfl
    | evaluated round now _ _ => exact absurd rfl (ho now)
    | evaluateStuck round now _ _ => exact absurd rfl (ho now)
    | play round p now _ _ _ =>
      rw [play_eventLog, RoundHistory.replay_append, playEntries]
      split_ifs <;> rfl
    | _ => exact absurd rfl hq

end Machine

end Arena.GameCore
