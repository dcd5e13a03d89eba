/-
What a snapshot shows of the match, as a fold over the event log.

`View` is the part of a snapshot that every client keeps: status, round number, question, deadline and the eliminated
players. `View.log` is what one event means for it on the server, whatever the call that logged it: entering
ROUND_ACTIVE takes the question away, an evaluation leaves it, the winner of a finished match is no longer ELIMINATED.

- `change_sourced`: a call appends the events that its change of the view amounts to;
- `run_sourced`: so the view after a run is the fold of what the run has logged.
-/
import Arena.GameCore.Winner
import Arena.GameCore.CardLog

namespace Arena.GameCore

open Arena.Lib Arena.Shared

structure View where
  id : String
  status : MatchStatus
  currentRoundNo : ℕ
  roster : List String
  /-- the question and the deadline of the current round -/
  round : Option (QuestionState × Time)
  eliminated : Set String

/-- what an event means on the server -/
def View.log (w : View) : MatchEvent → View
  | .stateTransition _ target =>
    { w with status := target, round := if target = .roundActive then none else w.round }
  | .roundStarted roundNo _ question endsAt =>
    { w with status := .roundActive, currentRoundNo := roundNo, round := some (question, endsAt) }
  | .roundEvaluated _ _ _ _ eliminatedIds =>
    { w with eliminated := {p | p ∈ w.eliminated ∨ p ∈ eliminatedIds ∧ p ∈ w.roster} }
  | .matchFinished winnerId _ => { w with eliminated := {p | p ∈ w.eliminated ∧ winnerId ≠ some p} }
  | _ => w

/-- the events that change no view -/
def MatchEvent.isSilent : MatchEvent → Bool
  | .stateTransition .. => false
  | .roundStarted .. => false
  | .roundEvaluated .. => false
  | .matchFinished .. => false
  | _ => true

theorem View.log_silent (w : View) {e : MatchEvent} (h : e.isSilent = true) : w.log e = w := by
  cases e <;> first | rfl | cases h

def View.replay (w : View) (es : List EventLogEntry) : View := es.foldl (fun w e => w.log e.event) w

theorem View.replay_append (w : View) (es fs : List EventLogEntry) :
    w.replay (es ++ fs) = (w.replay es).replay fs := List.foldl_append

theorem View.replay_silent (w : View) (es : List EventLogEntry) (h : ∀ e ∈ es, e.event.isSilent = true) :
    w.replay es = w := by
  induction es with
  | nil => rfl
  | cons e es ih =>
    rw [View.replay, List.foldl_cons, View.log_silent w (h e List.mem_cons_self)]
    exact ih fun x hx => h x (List.mem_cons_of_mem e hx)

/-- no event moves the match or its roster -/
theorem View.replay_frame (w : View) (es : List EventLogEntry) :
    (w.replay es).id = w.id ∧ (w.replay es).roster = w.roster := by
  induction es generalizing w with
  | nil => exact ⟨rfl, rfl⟩
  | cons e es ih =>
    obtain ⟨hid, hroster⟩ := ih (w.log e.event)
    have hlog : (w.log e.event).id = w.id ∧ (w.log e.event).roster = w.roster := by
      cases e.event <;> exact ⟨rfl, rfl⟩
    exact ⟨hid.trans hlog.1, hroster.trans hlog.2⟩

namespace Machine

def isEliminated (m : Machine) (p : String) : Prop :=
  ∃ i, m.state.players.get p = some i ∧ i.status = .eliminated

def view (m : Machine) : View where
  id := m.state.id
  status := m.state.status
  currentRoundNo := m.state.currentRoundNo
  roster := m.state.players.keys
  round := m.currentRound.map fun r => (r.question, r.endsAt)
  eliminated := {p | m.isEliminated p}

/-- players are filed under their ids -/
def Keyed (m : Machine) : Prop := ∀ p i, m.state.players.get p = some i → i.id = p

/-- the step logs what it does to the view -/
structure Sourced (m m' : Machine) : Prop where
  logged : ∃ es, m'.eventLog = m.eventLog ++ es ∧ m'.view = m.view.replay es
  keyed : Keyed m → Keyed m'

theorem Sourced.refl (m : Machine) : Sourced m m := ⟨⟨[], (List.append_nil _).symm, rfl⟩, id⟩

theorem Sourced.trans {a b c : Machine} (h : Sourced a b) (k : Sourced b c) : Sourced a c := by
  obtain ⟨es, hlog, hview⟩ := h.logged
  obtain ⟨fs, klog, kview⟩ := k.logged
  refine ⟨⟨es ++ fs, ?_, ?_⟩, fun hk => k.keyed (h.keyed hk)⟩
  · rw [klog, hlog, List.append_assoc]
  · rw [kview, hview, View.replay_append]

/-- silent entries, and nothing of the view rewritten -/
theorem Sourced.of_silent {m m' : Machine} (es : List EventLogEntry) (hlog : m'.eventLog = m.eventLog ++ es)
    (hes : ∀ e ∈ es, e.event.isSilent = true) (hview : m'.view = m.view)
    (hp : m'.state.players = m.state.players) : Sourced m m' where
  logged := ⟨es, hlog, by rw [View.replay_silent _ es hes, hview]⟩
  keyed hk p i hi := hk p i (hp ▸ hi)

theorem Sourced.of_log {m m' : Machine} (e : EventLogEntry) (hlog : m'.eventLog = m.eventLog ++ [e])
    (hview : m'.view = m.view.log e.event) (hk : Keyed m → Keyed m') : Sourced m m' := ⟨⟨[e], hlog, hview⟩, hk⟩

/-! ## One player rewritten -/

theorem view_modify {m m' : Machine} {id : String} {f : PlayerInfo → PlayerInfo} (hid : m'.state.id = m.state.id)
    (hs : m'.state.status = m.state.status) (hn : m'.state.currentRoundNo = m.state.currentRoundNo)
    (hp : m'.state.players = m.state.players.modify id f) (hr : m'.currentRound = m.currentRound)
    (hf : ∀ i, m.state.players.get id = some i → ((f i).status = .eliminated ↔ i.status = .eliminated)) :
    m'.view = m.view := by
  have hout : ∀ p, m'.isEliminated p ↔ m.isEliminated p := by
    intro p
    unfold isEliminated
    rw [hp, JsMap.get_modify]
    split_ifs with hq
    · subst hq
      cases hg : m.state.players.get id with
      | none => simp
      | some i => simpa using hf i hg
    · exact Iff.rfl
  simp only [view, hid, hs, hn, hp, hr, JsMap.keys_modify, hout]

theorem Keyed.modify {m m' : Machine} {id : String} {f : PlayerInfo → PlayerInfo}
    (hp : m'.state.players = m.state.players.modify id f) (hf : ∀ i, (f i).id = i.id) (h : Keyed m) : Keyed m' := by
  intro p j hj
  rw [hp, JsMap.get_modify] at hj
  split_ifs at hj with hq
  · subst hq
    obtain ⟨i, hi, rfl⟩ := Option.map_eq_some_iff.1 hj
    exact (hf i).trans (h id i hi)
  · exact h p j hj

/-! ## Evaluation -/

theorem settleInfo_id (answers : JsMap String AnswerState) (p : String) (i : PlayerInfo) :
    (settleInfo answers p i).id = i.id := by
  unfold settleInfo
  split
  · split_ifs <;> rfl
  · rfl

/-- the evaluation marks the losers that are on the roster -/
theorem settle_eliminated {m : Machine} (hw : WireInv m) {round : Round} (hr : m.currentRound = some round)
    (now : Clock) (p : String) : (m.settle round now).isEliminated p ↔
      m.isEliminated p ∨ p ∈ m.losersOf round ∧ p ∈ m.state.players.keys := by
  have hget : (m.settle round now).state.players.get p =
      if p ∈ m.roundPlayers round then (m.state.players.get p).map (settleInfo round.answers p)
      else m.state.players.get p := foldl_settle_get round.answers _ (nodup_roundPlayers hw hr) p m.state.players
  unfold isEliminated
  rw [hget, JsMap.mem_keys, losersOf, List.mem_filter, Bool.not_eq_true']
  by_cases hmem : p ∈ m.roundPlayers round
  · cases hg : m.state.players.get p with
    | none => simp
    | some i =>
      have hstatus := settleInfo_status round.answers p i
      cases hright : answeredRight round.answers p with
      | true => simp [hmem, hstatus, hright]
      | false => simp [hmem, hstatus, hright]
  · simp [hmem]

theorem settle_keyed {m : Machine} (hw : WireInv m) {round : Round} (hr : m.currentRound = some round) (now : Clock)
    (h : Keyed m) : Keyed (m.settle round now) := by
  intro p j hj
  have hget : (m.settle round now).state.players.get p =
      if p ∈ m.roundPlayers round then (m.state.players.get p).map (settleInfo round.answers p)
      else m.state.players.get p := foldl_settle_get round.answers _ (nodup_roundPlayers hw hr) p m.state.players
  rw [hget] at hj
  split_ifs at hj
  · obtain ⟨i, hi, rfl⟩ := Option.map_eq_some_iff.1 hj
    rw [settleInfo_id]
    exact h p i hi
  · exact h p j hj

theorem settle_sourced {m : Machine} (hw : WireInv m) {round : Round} (hr : m.currentRound = some round)
    (now : Clock) : Sourced m (m.settle round now) := by
  refine .of_log _ rfl ?_ (settle_keyed hw hr now)
  have hround : (m.settle round now).currentRound = some { round with status := .completed } := rfl
  have hkeys : (m.settle round now).state.players.keys = m.state.players.keys := foldl_settle_keys _ _ _
  simp only [view, View.log, hround, hr, hkeys, settle_eliminated hw hr]
  rfl

/-! ## The end of the match -/

theorem determineWinner_sourced (m : Machine) (now : Clock) : Sourced m (m.determineWinner now).1 := by
  obtain ⟨hs, hr, -⟩ := determineWinner_frame m now
  have hview : (m.determineWinner now).1.view = m.view := by simp only [view, isEliminated, hs, hr]
  have hlog : ∃ es, (m.determineWinner now).1.eventLog = m.eventLog ++ es ∧ ∀ e ∈ es, e.event.isSilent = true := by
    unfold determineWinner
    split
    · exact ⟨[], by simp⟩
    · split_ifs with h
      · exact ⟨[], by simp⟩
      · simp only [tieBreak, h, if_false]
        exact ⟨[_], rfl, by simp [MatchEvent.isSilent]⟩
    · simp only [tieBreak]
      split_ifs
      · exact ⟨[], by simp⟩
      · exact ⟨[_], rfl, by simp [MatchEvent.isSilent]⟩
  obtain ⟨es, hes, hsilent⟩ := hlog
  exact .of_silent es hes hsilent hview (by rw [hs])

theorem crown_sourced (m : Machine) (winnerId : Option String) (now : Clock) : Sourced m (m.crown winnerId now) := by
  cases winnerId with
  | none =>
    refine .of_log _ rfl ?_ fun h => h
    simp only [view, View.log, crown, isEliminated, logEvent_state, logEvent_currentRound]
    simp
  | some w =>
    refine .of_log _ rfl ?_ (Keyed.modify rfl fun _ => rfl)
    have hout : ∀ p, (m.crown (some w) now).isEliminated p ↔ m.isEliminated p ∧ some w ≠ some p := by
      intro p
      simp only [isEliminated, crown, logEvent_state, JsMap.get_modify]
      split_ifs with hp
      · subst hp
        simp
      · simp [hp]
    have hround : (m.crown (some w) now).currentRound = m.currentRound := rfl
    have hkeys : (m.crown (some w) now).state.players.keys = m.state.players.keys := JsMap.keys_modify _ _ _
    simp only [view, View.log, hout, hround, hkeys]
    rfl

/-! ## One step -/

/-- **A call logs what it does to the view.** -/
theorem change_sourced {J : StringOps} {m m' : Machine} {o : Op} (hc : Change J m o m') (hg : EvalOnce m (.call o))
    (hw : WireInv m) (hsn : SnapshotInv m) : Sourced m m' := by
  cases hc with
  | same o => exact .refl m
  | transition target now _ =>
    refine .of_log _ (enterStatus_eventLog _ target now).1 ?_ fun h p i hi => h p i ?_
    · cases target <;> rfl
    · cases target <;> exact hi
  | startRound q d now hs =>
    refine .of_log _ rfl ?_ fun h => h
    simp only [view, View.log, beginRound, isEliminated, logEvent_state, logEvent_currentRound, hs]
    rfl
  | answer round p a ts sid retry now hr _ _ _ _ =>
    obtain ⟨hs, -⟩ := consumeChance_frame m round p retry (now 0)
    refine .of_silent _ (recordAnswer_eventLog m round _ retry now) ?_ ?_ (congrArg MatchState.players hs)
    · intro e he
      simp only [answerEntries] at he
      rcases List.mem_append.1 he with he | he
      · split_ifs at he
        · rw [List.mem_singleton.1 he]; rfl
        · cases he
      · rw [List.mem_singleton.1 he]; rfl
    · simp only [view, isEliminated, recordAnswer, logEvent_state, logEvent_currentRound, hr]
      rw [show (newAnswer J round p a ts sid).playerId = p from rfl, hs]
      rfl
  | evaluated round now hr _ => exact settle_sourced hw hr now
  | evaluateStuck round now hr hf =>
    -- a frozen elimination list has no round players left
    have hnone : m.roundPlayers round = [] := hsn.stuck_round hg hr hf
    have hp : (m.settleStuck round).state.players = m.state.players := by
      simp only [settleStuck, settledPlayers, hnone]
      rfl
    refine .of_silent [] (List.append_nil _).symm (by simp) ?_ hp
    simp only [view, isEliminated, hp]
    simp only [settleStuck, hr]
    rfl
  | winner now => exact determineWinner_sourced m now
  | finish now => exact (determineWinner_sourced m now).trans (crown_sourced _ _ now)
  | offline p player now hp =>
    exact ⟨⟨[], (List.append_nil _).symm, view_modify rfl rfl rfl rfl rfl fun _ _ => Iff.rfl⟩,
      Keyed.modify rfl fun _ => rfl⟩
  | disconnect p player now hp hs =>
    refine .of_log _ rfl ?_ (Keyed.modify rfl fun _ => rfl)
    refine view_modify rfl rfl rfl rfl rfl fun i hi => ?_
    obtain rfl := Option.some.inj (hp.symm.trans hi)
    simp [hs]
  | reconnect p player now hp =>
    refine .of_log _ rfl ?_ (Keyed.modify rfl fun _ => rfl)
    refine view_modify rfl rfl rfl rfl rfl fun i _ => ?_
    by_cases hs : i.status = .disconnected
    · simp [hs]
    · simp [hs]
  | attach round key hr _ =>
    refine .of_silent [] (List.append_nil _).symm (by simp) ?_ rfl
    simp only [view, isEliminated, hr]
    rfl
  | initRejected c d now _ => exact .of_silent [] (List.append_nil _).symm (by simp) rfl rfl
  | initVoting c d now _ =>
    have hfirst : Sourced m (((m.resetTopics (m.candidatesFor c)).logEvent
        (.stateTransition m.state.status .topicVoting) (now 0)).enterStatus .topicVoting now) :=
      .of_log _ rfl rfl fun h => h
    exact hfirst.trans (.of_silent [_] rfl (by simp [MatchEvent.isSilent]) rfl rfl)
  | play round p now _ _ _ =>
    obtain ⟨hs, hr⟩ := applyPlay_frame (m.logEvent (.cardResolved (m.resolvedPayload round p)) (now 0)) round p
      (m.eventSeqCounter + 1) now
    refine .of_silent _ (play_eventLog m round p _ now) ?_ ?_ (congrArg MatchState.players hs)
    · intro e he
      simp only [playEntries] at he
      rcases List.mem_cons.1 he with rfl | he
      · rfl
      · split_ifs at he
        · rw [List.mem_singleton.1 he]; rfl
        · cases he
    · simp only [view, isEliminated, hs, hr, logEvent_state, logEvent_currentRound]
  | _ => exact .of_silent [_] rfl (by simp [MatchEvent.isSilent]) rfl rfl

theorem act_sourced (J : StringOps) (m : Machine) (a : Action) (hg : EvalOnce m a) (hw : WireInv m)
    (hsn : SnapshotInv m) : Sourced m (m.act J a) := by
  cases a with
  | call o => exact change_sourced (step_change J m o) hg hw hsn
  | failover =>
    rcases failover_cases J m hw with hf | hf
    · rw [act, hf]
      refine .of_silent [] (List.append_nil _).symm (by simp) ?_ rfl
      simp only [view, recovered, Option.map_map]
      rfl
    · rw [act, hf]
      exact .refl m

/-! ## Runs -/

/-- what a run in the callers' order keeps -/
structure ViewInv (m : Machine) : Prop where
  wire : WireInv m
  snapshot : SnapshotInv m
  keyed : Keyed m

theorem viewInv_create (matchId roomId : String) (players : List PlayerInfo) (hd : (players.map PlayerInfo.id).Nodup) :
    ViewInv (Machine.create matchId roomId players) :=
  ⟨wireInv_create matchId roomId players hd, snapshotInv_create matchId roomId players,
    fun _ _ hi => (create_player hi).2⟩

theorem act_viewInv (J : StringOps) (m : Machine) (a : Action) (hg : EvalOnce m a) (h : ViewInv m) :
    ViewInv (m.act J a) :=
  ⟨act_wireInv J m a h.wire, act_snapshotInv J m a hg h.wire h.snapshot,
    (act_sourced J m a hg h.wire h.snapshot).keyed h.keyed⟩

theorem run_viewInv (J : StringOps) (m : Machine) (acts : List Action) (hg : Along (act J) EvalOnce m acts)
    (h : ViewInv m) : ViewInv (run (act J) m acts) :=
  run_inv (act J) EvalOnce ViewInv (fun m a hg h => act_viewInv J m a hg h) m acts hg h

/-- **The view is a fold over the log.** A run in the callers' order logs exactly what it does to the view. -/
theorem run_sourced (J : StringOps) (m : Machine) (acts : List Action) (hg : Along (act J) EvalOnce m acts)
    (h : ViewInv m) : Sourced m (run (act J) m acts) := by
  induction acts generalizing m with
  | nil => exact .refl m
  | cons a acts ih =>
    have hstep := act_sourced J m a hg.1 h.wire h.snapshot
    exact hstep.trans (ih (m.act J a) hg.2 (act_viewInv J m a hg.1 h))

/-- every machine reached is the match it was made for -/
theorem reach_id (J : StringOps) (matchId roomId : String) (players : List PlayerInfo) (acts : List Action)
    (hd : (players.map PlayerInfo.id).Nodup)
    (hg : Along (act J) EvalOnce (Machine.create matchId roomId players) acts) :
    (reach J matchId roomId players acts).state.id = matchId := by
  obtain ⟨es, -, hview⟩ := (run_sourced J _ acts hg (viewInv_create matchId roomId players hd)).logged
  exact (congrArg View.id hview).trans (View.replay_frame _ es).1

end Machine

end Arena.GameCore
