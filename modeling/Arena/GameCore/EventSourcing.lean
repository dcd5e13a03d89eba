/-
The roster is a function of the event log.

Read as a knockout, the log opens a round at ROUND_STARTED, takes each player's last ANSWER_SUBMITTED, and closes the
round at ROUND_EVALUATED. The machine keeps its lists beside the log and evaluates from the answers map; the replay uses
neither, nor the elimination lists that ROUND_EVALUATED carries.

- `change_replayed`: every call keeps the lists and the answers in step with the replay;
- `roster_is_replayed`: over every run in the runner's order, failovers and the finish included.
-/
import Arena.Lib.Knockout
import Arena.GameCore.Roster

namespace Arena.GameCore

open Arena.Lib Arena.Shared

/-- what an entry of the log means for the knockout -/
def knockoutEvent (e : EventLogEntry) : Option (KnockoutEvent String) :=
  match e.event with
  | .roundStarted .. => some .start
  | .answerSubmitted playerId isCorrect _ => some (.answer playerId isCorrect)
  | .roundEvaluated .. => some .close
  | _ => none

theorem knockoutEvent_quiet {e : EventLogEntry} (h : e.event.isRoundEvent = false) : knockoutEvent e = none := by
  unfold knockoutEvent
  split
  · simp_all [MatchEvent.isRoundEvent]
  · simp_all [MatchEvent.isRoundEvent]
  · simp_all [MatchEvent.isRoundEvent]
  · rfl

/-- the knockout that the log tells -/
def replayLog (entrants : List String) (log : List EventLogEntry) : Knockout String :=
  Knockout.replay entrants (log.filterMap knockoutEvent)

theorem replayLog_append (entrants : List String) (log es : List EventLogEntry) :
    replayLog entrants (log ++ es) = (es.filterMap knockoutEvent).foldl Knockout.step (replayLog entrants log) := by
  rw [replayLog, List.filterMap_append, Knockout.replay_append]
  rfl

namespace Machine

/-- the lists of the machine, and the answers of its round, are the replay's -/
structure Replayed (entrants : List String) (m : Machine) : Prop where
  alive : m.state.survivingPlayerIds = (replayLog entrants m.eventLog).alive
  out : m.state.eliminatedPlayerIds = (replayLog entrants m.eventLog).out
  passing : ∀ r, m.currentRound = some r → ∀ p,
    answeredRight r.answers p = (replayLog entrants m.eventLog).passing p

theorem replayed_create (matchId roomId : String) (players : List PlayerInfo) :
    Replayed (players.map PlayerInfo.id) (Machine.create matchId roomId players) where
  alive := rfl
  out := rfl
  passing := by
    intro r hr
    cases hr

theorem AppendsQuiet.replayLog {m m' : Machine} (h : AppendsQuiet m m') (entrants : List String) :
    replayLog entrants m'.eventLog = GameCore.replayLog entrants m.eventLog := by
  obtain ⟨es, hl, hq⟩ := h
  have hnone : es.filterMap knockoutEvent = [] := by
    rw [List.filterMap_eq_nil_iff]
    exact fun e he => knockoutEvent_quiet (hq e he)
  rw [hl, replayLog_append, hnone]
  rfl

/-- a change that logs no event of a round and leaves the lists and the answers -/
theorem Replayed.quiet {entrants : List String} {m m' : Machine} (h : Replayed entrants m)
    (hlog : replayLog entrants m'.eventLog = replayLog entrants m.eventLog)
    (hs : m'.state.survivingPlayerIds = m.state.survivingPlayerIds)
    (he : m'.state.eliminatedPlayerIds = m.state.eliminatedPlayerIds)
    (hr : ∀ r', m'.currentRound = some r' → ∃ r, m.currentRound = some r ∧ r'.answers = r.answers) :
    Replayed entrants m' := by
  refine ⟨by rw [hs, hlog]; exact h.alive, by rw [he, hlog]; exact h.out, ?_⟩
  intro r' hr' p
  obtain ⟨r, hcur, hans⟩ := hr r' hr'
  rw [hans, hlog]
  exact h.passing r hcur p

/-- no call but an evaluation moves a player -/
theorem change_lists {J : StringOps} {m m' : Machine} {o : Op} (hc : Change J m o m')
    (ho : ∀ now, o ≠ .evaluateRound now) : m'.state.survivingPlayerIds = m.state.survivingPlayerIds ∧
      m'.state.eliminatedPlayerIds = m.state.eliminatedPlayerIds := by
  cases hc with
  | transition target now _ => cases target <;> exact ⟨rfl, rfl⟩
  | answer round p a ts sid retry now _ _ _ _ _ =>
    have hst := (consumeChance_frame m round p retry (now 0)).1
    exact ⟨congrArg MatchState.survivingPlayerIds hst, congrArg MatchState.eliminatedPlayerIds hst⟩
  | evaluated round now _ _ => exact absurd rfl (ho now)
  | evaluateStuck round now _ _ => exact absurd rfl (ho now)
  | winner now =>
    have hst := (determineWinner_frame m now).1
    exact ⟨congrArg MatchState.survivingPlayerIds hst, congrArg MatchState.eliminatedPlayerIds hst⟩
  | finish now =>
    have hst := (determineWinner_frame m now).1
    have hs : (m.determineWinner now).1.state.survivingPlayerIds = m.state.survivingPlayerIds := by rw [hst]
    have he : (m.determineWinner now).1.state.eliminatedPlayerIds = m.state.eliminatedPlayerIds := by rw [hst]
    exact ⟨hs, he⟩
  | play round p now _ _ _ =>
    have hst := (applyPlay_frame (m.logEvent (.cardResolved (m.resolvedPayload round p)) (now 0)) round p
      (m.eventSeqCounter + 1) now).1
    exact ⟨congrArg MatchState.survivingPlayerIds hst, congrArg MatchState.eliminatedPlayerIds hst⟩
  | _ => exact ⟨rfl, rfl⟩

/-- an answer replaces the player's answer before it, in the round and in the replay -/
theorem answer_replayed {entrants : List String} {m : Machine} (h : Replayed entrants m) {round : Round}
    (hr : m.currentRound = some round) (a : AnswerState) (retry : Bool) (now : Clock) :
    Replayed entrants (m.recordAnswer round a retry now) := by
  have hst := (consumeChance_frame m round a.playerId retry (now 0)).1
  have hlog : replayLog entrants (m.recordAnswer round a retry now).eventLog =
      (replayLog entrants m.eventLog).step (.answer a.playerId a.isCorrect) := by
    rw [recordAnswer_eventLog, replayLog_append, answerEntries]
    cases retry <;> rfl
  refine ⟨?_, ?_, ?_⟩
  · rw [hlog]
    exact (congrArg MatchState.survivingPlayerIds hst).trans h.alive
  · rw [hlog]
    exact (congrArg MatchState.eliminatedPlayerIds hst).trans h.out
  · intro r' hr' p
    obtain rfl := Option.some.inj hr'
    rw [hlog]
    show ((round.answers.set a.playerId a).get p).any AnswerState.isCorrect =
      Function.update (replayLog entrants m.eventLog).passing a.playerId a.isCorrect p
    rw [JsMap.get_set, Function.update_apply]
    by_cases hp : a.playerId = p
    · rw [if_pos hp, if_pos hp.symm]
      rfl
    · rw [if_neg hp, if_neg (Ne.symm hp)]
      exact h.passing round hr p

/-- an evaluation closes the round of the survivors -/
theorem settle_replayed {entrants : List String} {m : Machine} (h : Replayed entrants m) {round : Round}
    (hr : m.currentRound = some round) (hp : m.roundPlayers round = m.state.survivingPlayerIds) (now : Clock) :
    Replayed entrants (m.settle round now) := by
  have hlog : replayLog entrants (m.settle round now).eventLog = (replayLog entrants m.eventLog).step .close := by
    rw [settle, logEvent_eventLog, replayLog_append]
    rfl
  have hpass : ∀ p, answeredRight round.answers p = (replayLog entrants m.eventLog).passing p := h.passing round hr
  refine ⟨?_, ?_, ?_⟩
  · rw [hlog]
    show m.survivorsOf round = (replayLog entrants m.eventLog).alive.filter _
    rw [survivorsOf, hp, ← h.alive]
    exact List.filter_congr fun p _ => hpass p
  · rw [hlog]
    show m.state.eliminatedPlayerIds ++ m.losersOf round = (replayLog entrants m.eventLog).out ++ _
    rw [losersOf, hp, h.out, ← h.alive]
    congr 1
    exact List.filter_congr fun p _ => by rw [hpass p]
  · intro r' hr' p
    obtain rfl := Option.some.inj hr'
    rw [hlog]
    exact hpass p

theorem change_replayed {J : StringOps} {entrants : List String} {m m' : Machine} {o : Op} (hc : Change J m o m')
    (hg : EvalOnce m (.call o)) (hs : SnapshotInv m) (h : Replayed entrants m) : Replayed entrants m' := by
  by_cases hq : o.isQuiet = true
  · have ho : ∀ now, o ≠ .evaluateRound now := by
      rintro now rfl
      cases hq
    obtain ⟨hsurv, helim⟩ := change_lists hc ho
    refine h.quiet ((change_quiet hc hq).replayLog entrants) hsurv helim ?_
    intro r' hr'
    obtain ⟨r, hr, key, rfl⟩ := change_quiet_round hc hq r' hr'
    exact ⟨r, hr, rfl⟩
  · cases hc with
    | same o => exact h
    | startRound q d now _ =>
      have hlog : replayLog entrants (m.beginRound q d now).eventLog = (replayLog entrants m.eventLog).step .start := by
        rw [beginRound, logEvent_eventLog, replayLog_append]
        rfl
      refine ⟨by rw [hlog]; exact h.alive, by rw [hlog]; exact h.out, ?_⟩
      intro r hr p
      obtain rfl := Option.some.inj hr
      rw [hlog]
      rfl
    | answer round p a ts sid retry now hr _ _ _ _ => exact answer_replayed h hr _ retry now
    | evaluated round now hr _ => exact settle_replayed h hr (hs.roundPlayers hg hr) now
    | evaluateStuck round now hr hf =>
      have hnil : m.survivorsOf round = m.state.survivingPlayerIds := by
        rw [survivorsOf, hs.stuck_round hg hr hf, hs.frozen hf]
        rfl
      refine h.quiet rfl hnil rfl ?_
      intro r' hr'
      obtain rfl := Option.some.inj hr'
      exact ⟨round, hr, rfl⟩
    | play round p now hr _ _ =>
      obtain ⟨hst, hround⟩ := applyPlay_frame (m.logEvent (.cardResolved (m.resolvedPayload round p)) (now 0)) round p
        (m.eventSeqCounter + 1) now
      refine h.quiet ?_ (congrArg MatchState.survivingPlayerIds hst) (congrArg MatchState.eliminatedPlayerIds hst) ?_
      · rw [play_eventLog, replayLog_append, playEntries]
        split_ifs <;> rfl
      · intro r' hr'
        rw [hround] at hr'
        exact ⟨r', hr', rfl⟩
    | _ => exact absurd rfl hq

theorem recovered_replayed {entrants : List String} {m : Machine} (h : Replayed entrants m) :
    Replayed entrants m.recovered := by
  refine ⟨h.alive, h.out, ?_⟩
  intro r hr p
  obtain ⟨x, hx, rfl⟩ := Option.map_eq_some_iff.1 hr
  exact h.passing x hx p

theorem act_replayed (J : StringOps) {entrants : List String} (m : Machine) (a : Action) (hg : EvalOnce m a)
    (hw : WireInv m) (hs : SnapshotInv m) (h : Replayed entrants m) : Replayed entrants (m.act J a) := by
  cases a with
  | call o => exact change_replayed (step_change J m o) hg hs h
  | failover =>
    rcases failover_cases J m hw with hf | hf
    · rw [act, hf]
      exact recovered_replayed h
    · rw [act, hf]
      exact h

/-- what a run carries -/
structure ReplayInv (entrants : List String) (m : Machine) : Prop where
  wire : WireInv m
  snapshot : SnapshotInv m
  replayed : Replayed entrants m

/-- **The roster is replayed from the log.** In the runner's order, over every run and its finish: survivors and
eliminated players, each in their order, are those of the knockout that the event log tells; a player is a survivor
exactly when its last logged answer in every evaluated round is correct, and eliminated exactly when in some evaluated
round it is not, or there is none. -/
theorem roster_is_replayed (J : StringOps) (matchId roomId : String) (players : List PlayerInfo) (acts : List Action)
    (hd : (players.map PlayerInfo.id).Nodup)
    (hg : Along (act J) RunnerOrder (Machine.create matchId roomId players) acts) :
    let m := reach J matchId roomId players acts
    let k := replayLog (players.map PlayerInfo.id) m.eventLog
    m.state.survivingPlayerIds = k.alive ∧ m.state.eliminatedPlayerIds = k.out ∧
      (∀ p, p ∈ m.state.survivingPlayerIds ↔
        p ∈ players.map PlayerInfo.id ∧ ∀ round ∈ k.closed, round p = true) ∧
      (∀ p, p ∈ m.state.eliminatedPlayerIds ↔
        p ∈ players.map PlayerInfo.id ∧ ∃ round ∈ k.closed, round p = false) ∧
      ∀ now, (m.finishMatch now).state.survivingPlayerIds = k.alive ∧
        (m.finishMatch now).state.eliminatedPlayerIds = k.out := by
  intro m k
  have hinv : ReplayInv (players.map PlayerInfo.id) m := by
    refine run_inv (act J) RunnerOrder (ReplayInv _) ?_ _ acts hg ⟨wireInv_create matchId roomId players hd,
      snapshotInv_create matchId roomId players, replayed_create matchId roomId players⟩
    intro s a ha hi
    exact ⟨act_wireInv J s a hi.wire, act_snapshotInv J s a ha.1 hi.wire hi.snapshot,
      act_replayed J s a ha.1 hi.wire hi.snapshot hi.replayed⟩
  have halive : m.state.survivingPlayerIds = k.alive := hinv.replayed.alive
  refine ⟨halive, hinv.replayed.out, ?_, ?_, ?_⟩
  · intro p
    have hk : k.alive = _ := Knockout.replay_alive _ _
    rw [halive, hk, List.mem_filter, List.all_eq_true]
    rfl
  · intro p
    rw [hinv.replayed.out]
    exact Knockout.mem_out hd _ p
  · intro now
    have hfin := change_lists (J := J) (.finish now : Change J m (.finishMatch now) _) (by simp)
    exact ⟨hfin.1.trans halive, hfin.2.trans hinv.replayed.out⟩

/-- two rounds with a failover in the second: bob is out after the first, alice after the second -/
theorem roster_is_replayed_two_rounds :
    let acts : List Action := [.call (.transition .countdown fun _ => 0), .call (.transition .roundActive fun _ => 0),
      .call (.startRound ⟨"q1", "2 + 2?", ["3", "4", "5", "6"], "4", none⟩ none fun _ => 0),
      .call (.submitAnswer "alice" "b" 100 none fun _ => 100), .call (.submitAnswer "carol" "b" 100 none fun _ => 100),
      .call (.transition .roundEvaluating fun _ => 15000), .call (.evaluateRound fun _ => 15000),
      .call (.transition .roundResult fun _ => 15000), .call (.transition .roundActive fun _ => 18000),
      .call (.startRound ⟨"q2", "2 + 3?", ["3", "4", "5", "6"], "5", none⟩ none fun _ => 18000),
      .call (.submitAnswer "carol" "c" 18100 none fun _ => 18100), .failover,
      .call (.transition .roundEvaluating fun _ => 33000), .call (.evaluateRound fun _ => 33000)]
    let m := reach StringOps.ascii "m1" "r1" [freshPlayer "alice", freshPlayer "bob", freshPlayer "carol"] acts
    m.state.survivingPlayerIds = ["carol"] ∧
      (replayLog ["alice", "bob", "carol"] m.eventLog).out = ["bob", "alice"] := by
  intro acts m
  have hg : Along (act StringOps.ascii) RunnerOrder
      (Machine.create "m1" "r1" [freshPlayer "alice", freshPlayer "bob", freshPlayer "carol"]) acts := by
    decide +kernel
  have hall := roster_is_replayed StringOps.ascii "m1" "r1"
    [freshPlayer "alice", freshPlayer "bob", freshPlayer "carol"] acts (by decide) hg
  exact ⟨by decide +kernel, hall.2.1.symm.trans (by decide +kernel)⟩

end Machine

end Arena.GameCore
