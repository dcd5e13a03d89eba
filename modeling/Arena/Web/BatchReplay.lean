/-
A batch replayed on a snapshot, against the snapshot at the batch's end.

Both sides are folds over the same events: the server's view (`View.log`) and the client's match (`replayMatch`, the
fold of `applyEventBatchState` with the parsing done). They part where the client follows the live updaters: the end of
a round and of the match implies a status and ends the deadline (`impliedStatus`, `isClosed`); where it keeps a question
the server has dropped until the next ROUND_STARTED (`awaitsStart`); and where it does not look at the winner
(`winnersOf`).

- `Follows`, `follows_log`: how the two stand after any events, one event at a time;
- `applyEventBatchState_match`: the batch fold of the client is `replayMatch`;
- `replay_follows_snapshot`: the agreement after every run, split and viewer;
- `replay_parts_from_snapshot`: a run on which status, deadline, question and eliminations differ.
-/
import Arena.GameCore.Sourced
import Arena.Web.MatchUpdaters
import Mathlib.Data.List.TakeWhile

namespace Arena.Web

open Arena.Lib Arena.Shared Arena.GameCore

/-! ## The client's fold -/

/-- the players named are marked ELIMINATED -/
def markEliminated (ids : List String) (p : Player) : Player :=
  if p.id ∈ ids then { p with status := .eliminated } else p

/-- what the client makes of an evaluation -/
def endRound (m : Match) (eliminatedIds : List String) : Match :=
  { m with status := .roundResult, players := m.players.map (markEliminated eliminatedIds), roundEndTime := none }

/-- what a parsed event means for the client's match -/
def foldMatch (m : Match) : ReplayEvent → Match
  | .stateTransition _ target => { m with status := target }
  | .roundStarted roundNo _ question endsAt =>
    { m with
      status := .roundActive, currentRoundNo := roundNo, currentQuestion := some question, roundEndTime := some endsAt }
  | .roundEvaluated _ _ _ _ eliminatedIds => endRound m eliminatedIds
  | .matchFinished _ _ => { m with status := .finished, roundEndTime := none }
  | _ => m

def replayMatch (m : Match) (e : MatchEvent) : Match :=
  match parseReplayEvent e with
  | some r => foldMatch m r
  | none => m

/-- the status that the last of the events implies beside the machine's own -/
def impliedStatus (events : List MatchEvent) : Option MatchStatus :=
  events.foldl (fun implied e =>
    match e with
    | .stateTransition .. => none
    | .roundStarted .. => none
    | .roundEvaluated .. => some .roundResult
    | .matchFinished .. => some .finished
    | _ => implied) none

/-- the match has entered ROUND_ACTIVE, and its round has not started -/
def awaitsStart (events : List MatchEvent) : Bool :=
  events.foldl (fun awaits e =>
    match e with
    | .stateTransition _ target => awaits || decide (target = .roundActive)
    | .roundStarted .. => false
    | _ => awaits) false

/-- a round or the match has ended, and no round has started since -/
def isClosed (events : List MatchEvent) : Bool :=
  events.foldl (fun closed e =>
    match e with
    | .roundStarted .. => false
    | .roundEvaluated .. => true
    | .matchFinished .. => true
    | _ => closed) false

/-- the winners of the finished matches -/
def winnersOf (events : List MatchEvent) : List String :=
  events.filterMap fun e =>
    match e with
    | .matchFinished winnerId _ => winnerId
    | _ => none

def Match.isEliminated (m : Match) (p : String) : Prop :=
  ∃ player ∈ m.players, player.id = p ∧ player.status = .eliminated

/-- the client's match after some events, beside the server's view after the same ones -/
structure Follows (events : List MatchEvent) (m : Match) (w : View) : Prop where
  id : m.id = w.id
  currentRoundNo : m.currentRoundNo = w.currentRoundNo
  status : m.status = (impliedStatus events).getD w.status
  currentQuestion : awaitsStart events = false → m.currentQuestion = w.round.map Prod.fst
  roundEndTime : awaitsStart events = false → isClosed events = false → m.roundEndTime = w.round.map Prod.snd
  closed : isClosed events = true → m.roundEndTime = none
  roster : m.players.map Player.id = w.roster
  marked : ∀ p ∈ w.eliminated, m.isEliminated p
  unmarked : ∀ p, m.isEliminated p → p ∈ w.eliminated ∨ p ∈ winnersOf events

/-- the client's schema accepts the event, where the client folds events of its type -/
def Accepted (e : MatchEvent) : Prop := e.isSilent = false → (parseReplayEvent e).isSome = true

instance : DecidablePred Accepted := fun _ => inferInstanceAs (Decidable (_ → _))

theorem replayMatch_silent (m : Match) {e : MatchEvent} (h : e.isSilent = true) : replayMatch m e = m := by
  cases e with
  | stateTransition => cases h
  | roundStarted => cases h
  | roundEvaluated => cases h
  | matchFinished => cases h
  | answerSubmitted playerId isCorrect responseTimeMs => simp only [replayMatch, parseReplayEvent]; split_ifs <;> rfl
  | tieBreak winnerId tiedPlayerIds => simp only [replayMatch, parseReplayEvent]; split_ifs <;> rfl
  | playerDisconnected playerId => simp only [replayMatch, parseReplayEvent]; split_ifs <;> rfl
  | playerReconnected playerId => simp only [replayMatch, parseReplayEvent]; split_ifs <;> rfl
  | _ => rfl

/-! ### The accepted events -/

theorem replayMatch_roundStarted (m : Match) {roundNo : ℕ} {questionId : String} {question : QuestionState}
    {endsAt : Time} (h : Accepted (.roundStarted roundNo questionId question endsAt)) :
    replayMatch m (.roundStarted roundNo questionId question endsAt) =
      { m with status := .roundActive, currentRoundNo := roundNo, currentQuestion := some question,
               roundEndTime := some endsAt } := by
  have hsome := h rfl
  simp only [replayMatch, parseReplayEvent] at hsome ⊢
  split_ifs at hsome ⊢
  · rfl
  · cases hsome

theorem replayMatch_roundEvaluated (m : Match) {roundNo survivingCount eliminatedCount : ℕ} {key : Option String}
    {ids : List String} (h : Accepted (.roundEvaluated roundNo key survivingCount eliminatedCount ids)) :
    replayMatch m (.roundEvaluated roundNo key survivingCount eliminatedCount ids) = endRound m ids := by
  have hsome := h rfl
  simp only [replayMatch, parseReplayEvent] at hsome ⊢
  split_ifs at hsome ⊢
  · cases key with
    | none => cases hsome
    | some answer => rfl
  · cases hsome

theorem replayMatch_matchFinished (m : Match) {winnerId : Option String} {totalRounds : ℕ}
    (h : Accepted (.matchFinished winnerId totalRounds)) :
    replayMatch m (.matchFinished winnerId totalRounds) = { m with status := .finished, roundEndTime := none } := by
  have hsome := h rfl
  simp only [replayMatch, parseReplayEvent] at hsome ⊢
  split_ifs at hsome ⊢
  · rfl
  · cases hsome

theorem endRound_isEliminated (m : Match) (ids : List String) (p : String) :
    (endRound m ids).isEliminated p ↔ m.isEliminated p ∨ p ∈ ids ∧ p ∈ m.players.map Player.id := by
  unfold Match.isEliminated endRound
  constructor
  · rintro ⟨x, hx, rfl, hs⟩
    obtain ⟨player, hmem, rfl⟩ := List.mem_map.1 hx
    by_cases hin : player.id ∈ ids
    · right
      simp only [markEliminated, if_pos hin]
      exact ⟨hin, List.mem_map_of_mem hmem⟩
    · left
      simp only [markEliminated, if_neg hin] at hs ⊢
      exact ⟨player, hmem, rfl, hs⟩
  · rintro (⟨player, hmem, rfl, hs⟩ | ⟨hin, hroster⟩)
    · refine ⟨_, List.mem_map_of_mem hmem, ?_, ?_⟩
      · unfold markEliminated
        split_ifs <;> rfl
      · unfold markEliminated
        split_ifs
        · rfl
        · exact hs
    · obtain ⟨player, hmem, rfl⟩ := List.mem_map.1 hroster
      exact ⟨_, List.mem_map_of_mem hmem, by simp [markEliminated, hin], by simp [markEliminated, hin]⟩

theorem markEliminated_ids (ids : List String) (players : List Player) :
    (players.map (markEliminated ids)).map Player.id = players.map Player.id := by
  rw [List.map_map]
  refine List.map_congr_left fun p _ => ?_
  simp only [Function.comp_apply, markEliminated]
  split_ifs <;> rfl

section Step

variable {events : List MatchEvent} {m : Match} {w : View}

/-- **One more event.** -/
theorem follows_log (h : Follows events m w) {e : MatchEvent} (hp : Accepted e) :
    Follows (events ++ [e]) (replayMatch m e) (w.log e) := by
  cases e with
  | stateTransition source target =>
    have hw : winnersOf (events ++ [.stateTransition source target]) = winnersOf events := by
      simp [winnersOf]
    refine ⟨h.id, h.currentRoundNo, by simp [impliedStatus, replayMatch, parseReplayEvent, foldMatch, View.log],
      ?_, ?_, ?_, h.roster, h.marked, by rw [hw]; exact h.unmarked⟩
    · intro ha
      simp only [awaitsStart, List.foldl_append, List.foldl_cons, List.foldl_nil, Bool.or_eq_false_iff,
        decide_eq_false_iff_not] at ha
      simp only [View.log, if_neg ha.2]
      exact h.currentQuestion ha.1
    · intro ha hc
      simp only [awaitsStart, List.foldl_append, List.foldl_cons, List.foldl_nil, Bool.or_eq_false_iff,
        decide_eq_false_iff_not] at ha
      simp only [isClosed, List.foldl_append, List.foldl_cons, List.foldl_nil] at hc
      simp only [View.log, if_neg ha.2]
      exact h.roundEndTime ha.1 hc
    · intro hc
      simp only [isClosed, List.foldl_append, List.foldl_cons, List.foldl_nil] at hc
      exact h.closed hc
  | roundStarted roundNo questionId question endsAt =>
    rw [replayMatch_roundStarted m hp]
    have hw : winnersOf (events ++ [.roundStarted roundNo questionId question endsAt]) = winnersOf events := by
      simp [winnersOf]
    refine ⟨h.id, rfl, by simp [impliedStatus, View.log], fun _ => rfl, fun _ _ => rfl, ?_, h.roster, h.marked,
      by rw [hw]; exact h.unmarked⟩
    intro hc
    simp [isClosed] at hc
  | roundEvaluated roundNo key survivingCount eliminatedCount ids =>
    rw [replayMatch_roundEvaluated m hp]
    have hw : winnersOf (events ++ [.roundEvaluated roundNo key survivingCount eliminatedCount ids]) =
        winnersOf events := by simp [winnersOf]
    refine ⟨h.id, h.currentRoundNo, by simp [impliedStatus, endRound], ?_, ?_, fun _ => rfl, ?_, ?_, ?_⟩
    · intro ha
      simp only [awaitsStart, List.foldl_append, List.foldl_cons, List.foldl_nil] at ha
      exact h.currentQuestion ha
    · intro _ hc
      simp [isClosed] at hc
    · exact (markEliminated_ids ids m.players).trans h.roster
    · rintro p (hpin | ⟨hin, hroster⟩)
      · exact (endRound_isEliminated m ids p).2 (.inl (h.marked p hpin))
      · exact (endRound_isEliminated m ids p).2 (.inr ⟨hin, h.roster ▸ hroster⟩)
    · intro p hpout
      rw [hw]
      rcases (endRound_isEliminated m ids p).1 hpout with hold | ⟨hin, hroster⟩
      · exact (h.unmarked p hold).imp_left .inl
      · exact .inl (.inr ⟨hin, h.roster ▸ hroster⟩)
  | matchFinished winnerId totalRounds =>
    rw [replayMatch_matchFinished m hp]
    refine ⟨h.id, h.currentRoundNo, by simp [impliedStatus], ?_, ?_, fun _ => rfl, h.roster, ?_, ?_⟩
    · intro ha
      simp only [awaitsStart, List.foldl_append, List.foldl_cons, List.foldl_nil] at ha
      exact h.currentQuestion ha
    · intro _ hc
      simp [isClosed] at hc
    · exact fun p hpin => h.marked p hpin.1
    · intro p hpout
      simp only [winnersOf, List.filterMap_append, List.mem_append]
      rcases h.unmarked p hpout with hpin | hwon
      · by_cases hwin : winnerId = some p
        · exact .inr (.inr (by simp [hwin]))
        · exact .inl ⟨hpin, hwin⟩
      · exact .inr (.inl hwon)
  | _ =>
    rw [replayMatch_silent m rfl, View.log_silent w rfl]
    refine ⟨h.id, h.currentRoundNo, ?_, ?_, ?_, ?_, h.roster, h.marked, ?_⟩
    · simpa [impliedStatus] using h.status
    · simpa [awaitsStart] using h.currentQuestion
    · simpa [awaitsStart, isClosed] using h.roundEndTime
    · simpa [isClosed] using h.closed
    · simpa [winnersOf] using h.unmarked

/-- any number of events -/
theorem follows_replay (h : Follows events m w) (es : List EventLogEntry) (hp : ∀ e ∈ es, Accepted e.event) :
    Follows (events ++ es.map EventLogEntry.event) (es.foldl (fun m e => replayMatch m e.event) m) (w.replay es) := by
  induction es generalizing events m w with
  | nil => simpa [View.replay] using h
  | cons e es ih =>
    have hnext := ih (follows_log h (hp e List.mem_cons_self)) fun x hx => hp x (List.mem_cons_of_mem e hx)
    rwa [List.append_assoc] at hnext

end Step

/-! ## The batch fold -/

/-- the accumulator is about the match named, and so is its room if it has a match -/
structure Onto (matchId : String) (m : Match) (room : Option Room) : Prop where
  match_id : m.id = matchId
  room_match : ∀ id, room.bind Room.currentMatchId = some id → id = matchId

section Fold

variable {matchId : String}

theorem Onto.active {s : SocketState} {m : Match} (h : Onto matchId m s.room) (hm : s.currentMatch = some m) :
    s.activeMatchId = some matchId := by
  unfold SocketState.activeMatchId
  split
  · rename_i id hid
    rw [h.room_match id hid]
  · rw [hm, Option.map_some, h.match_id]

theorem Onto.own {s : SocketState} {m : Match} (h : Onto matchId m s.room) (hm : s.currentMatch = some m) :
    s.ownMatch matchId = some m := by
  simp [SocketState.ownMatch, hm, Option.filter, h.match_id]

theorem mark_eq (roundNo : ℕ) (key : String) (ids : List String) (count : Option ℕ) :
    RoundEnded.mark ⟨matchId, roundNo, key, ids, count, none⟩ = markEliminated ids := by
  funext p
  simp only [RoundEnded.mark, markEliminated]

/-- the live updaters leave the match that the fold names, and the room on it -/
theorem foldReplayEvent_match (acc : ReplayAccumulator) (h : Onto matchId acc.currentMatch acc.room)
    (e : ReplayEvent) : (acc.foldReplayEvent matchId e).currentMatch = foldMatch acc.currentMatch e ∧
      Onto matchId (acc.foldReplayEvent matchId e).currentMatch (acc.foldReplayEvent matchId e).room := by
  have hactive : acc.synthState.activeMatchId = some matchId := h.active rfl
  have hown : acc.synthState.ownMatch matchId = some acc.currentMatch := h.own rfl
  have hbase : acc.synthState.basePlayers matchId = acc.currentMatch.players := by
    simp only [SocketState.basePlayers, hown]
  cases e with
  | stateTransition source target => exact ⟨rfl, h.match_id, h.room_match⟩
  | roundStarted roundNo questionId question endsAt =>
    have hnot : ¬acc.synthState.activeMatchId ≠ some matchId := not_not.2 hactive
    simp only [ReplayAccumulator.foldReplayEvent, ReplayAccumulator.mergeAccumulator, applyRoundStartedState,
      if_neg hnot, hbase, Option.getD_some, foldMatch]
    exact ⟨by rw [← h.match_id], rfl, h.room_match⟩
  | roundEvaluated roundNo key survivingCount eliminatedCount ids =>
    have hnot : ¬acc.synthState.activeMatchId ≠ some matchId := not_not.2 hactive
    simp only [ReplayAccumulator.foldReplayEvent, ReplayAccumulator.mergeAccumulator, applyRoundEndedState,
      if_neg hnot, hbase, hown, mark_eq, Option.getD_some, foldMatch, endRound]
    exact ⟨by rw [← h.match_id], rfl, h.room_match⟩
  | matchFinished winnerId totalRounds =>
    have hnot : ¬acc.synthState.activeMatchId ≠ some matchId := not_not.2 hactive
    simp only [ReplayAccumulator.foldReplayEvent, ReplayAccumulator.mergeAccumulator, applyMatchFinishedState,
      if_neg hnot, hown, Option.getD_some, foldMatch]
    refine ⟨by rw [← h.match_id], rfl, fun id hid => h.room_match id ?_⟩
    cases hr : acc.room with
    | none => simp [ReplayAccumulator.synthState, hr] at hid
    | some r => simpa [ReplayAccumulator.synthState, hr] using hid
  | _ => exact ⟨rfl, h⟩

/-- consecutive events behind the cursor are all folded -/
theorem foldl_foldBatchEvent (events : List DeltaEvent) (acc : ReplayAccumulator) (cursor : ℕ)
    (h : Onto matchId acc.currentMatch acc.room)
    (hs : events.map DeltaEvent.seqNo = List.range' (cursor + 1) events.length) :
    let last := events.foldl (foldBatchEvent matchId) (acc, cursor)
    last.1.currentMatch = events.foldl (fun m e => replayMatch m e.event) acc.currentMatch ∧
      last.2 = cursor + events.length ∧ Onto matchId last.1.currentMatch last.1.room := by
  induction events generalizing acc cursor with
  | nil => exact ⟨rfl, rfl, h⟩
  | cons e es ih =>
    rw [List.map_cons, List.length_cons, List.range'_succ] at hs
    obtain ⟨he, hes⟩ := List.cons.inj hs
    have hnew : ¬e.seqNo ≤ cursor := by omega
    rw [List.foldl_cons, List.foldl_cons, List.length_cons]
    cases hparse : parseReplayEvent e.event with
    | none =>
      have hstep : foldBatchEvent matchId (acc, cursor) e = (acc, cursor + 1) := by
        simp only [foldBatchEvent, if_neg hnew, hparse]
        rw [he]
      have hmatch : replayMatch acc.currentMatch e.event = acc.currentMatch := by simp only [replayMatch, hparse]
      obtain ⟨h1, h2, h3⟩ := ih acc (cursor + 1) h hes
      rw [hstep, hmatch]
      exact ⟨h1, by omega, h3⟩
    | some r =>
      obtain ⟨hfold, honto⟩ := foldReplayEvent_match acc h r
      have hstep : foldBatchEvent matchId (acc, cursor) e = (acc.foldReplayEvent matchId r, cursor + 1) := by
        simp only [foldBatchEvent, if_neg hnew, hparse]
        rw [he]
      have hmatch : replayMatch acc.currentMatch e.event = foldMatch acc.currentMatch r := by
        simp only [replayMatch, hparse]
      obtain ⟨h1, h2, h3⟩ := ih (acc.foldReplayEvent matchId r) (cursor + 1) honto hes
      rw [hstep, hmatch, ← hfold]
      exact ⟨h1, by omega, h3⟩

/-- events that the cursor has passed are skipped -/
theorem foldl_passed (events : List DeltaEvent) (current : ReplayAccumulator × ℕ)
    (h : ∀ e ∈ events, e.seqNo ≤ current.2) : events.foldl (foldBatchEvent matchId) current = current := by
  induction events with
  | nil => rfl
  | cons e es ih =>
    have hskip : foldBatchEvent matchId current e = current := if_pos (h e List.mem_cons_self)
    rw [List.foldl_cons, hskip]
    exact ih fun x hx => h x (List.mem_cons_of_mem e hx)

end Fold

/-! ## A hydrated client -/

theorem normalizeMatchStatus_text (status : MatchStatus) : normalizeMatchStatus status.text = some status := by
  cases status <;> decide

theorem normalizePlayerStatus_text (status : PlayerStatus) :
    normalizePlayerStatus (playerStatusText status) = some status := by
  cases status <;> decide

/-- a player of the server as the client keeps it -/
def clientPlayer (p : PlayerInfo) : Player := ⟨p.id, p.name, p.status, p.score, p.isOnline⟩

theorem hydratePlayer_snapshot (p : PlayerInfo) : hydratePlayer (snapshotPlayer p) = some (clientPlayer p) := by
  simp only [hydratePlayer, snapshotPlayer, normalizePlayerStatus_text]
  rfl

theorem hydratePlayers_snapshot (l : List PlayerInfo) :
    (l.map snapshotPlayer).mapM hydratePlayer = some (l.map clientPlayer) := by
  induction l with
  | nil => rfl
  | cons p l ih => simp [hydratePlayer_snapshot, ih]

/-- the match of a client that has just applied a snapshot -/
def clientMatch (m : Machine) : Match where
  id := m.state.id
  status := m.state.status
  currentRoundNo := m.state.currentRoundNo
  players := (m.state.players.entries.map Prod.snd).map clientPlayer
  currentQuestion := m.currentRound.map Round.question
  roundEndTime := m.currentRound.map Round.endsAt

/-- the client is marked eliminated in the match -/
def selfEliminated (userId : Option String) (m : Match) : Bool :=
  match userId with
  | some id => (m.players.find? fun p => p.id = id).any fun p => p.status = .eliminated
  | none => false

/-- the store after a snapshot at the head -/
def hydrate (s : SocketState) (m : Machine) : SocketState :=
  applySnapshotState s (snapshotPayload (m.getSnapshot m.getHeadSeqNo))

structure Hydrated (s : SocketState) (m : Machine) (h : SocketState) : Prop where
  userId : h.userId = s.userId
  currentMatch : h.currentMatch = some (clientMatch m)
  room : ∀ id, h.room.bind Room.currentMatchId = some id → id = m.state.id
  isEliminated : h.isEliminated = selfEliminated s.localUserId (clientMatch m)
  lastSeenSeqNo : h.lastSeenSeqNo = m.getHeadSeqNo

theorem hydrate_hydrated (s : SocketState) (m : Machine) : Hydrated s m (hydrate s m) := by
  have hstatus : normalizeMatchStatus (snapshotPayload (m.getSnapshot m.getHeadSeqNo)).status =
      some m.state.status := normalizeMatchStatus_text m.state.status
  have hplayers : (snapshotPayload (m.getSnapshot m.getHeadSeqNo)).players.mapM hydratePlayer =
      some (clientMatch m).players := hydratePlayers_snapshot _
  unfold hydrate applySnapshotState
  rw [hstatus, hplayers]
  refine ⟨rfl, rfl, fun id hid => ?_, rfl, rfl⟩
  cases hr : s.room with
  | none => simp [hr] at hid
  | some r =>
    simp only [hr, Option.map_some, Option.bind_some, Option.some.injEq] at hid
    exact hid.symm

/-! ## The flag of the local player -/

theorem selfEliminated_iff (m : Match) (hn : (m.players.map Player.id).Nodup) (u : String) :
    selfEliminated (some u) m = true ↔ m.isEliminated u := by
  simp only [selfEliminated, Match.isEliminated, Option.any_eq_true, decide_eq_true_eq]
  constructor
  · rintro ⟨p, hp, hs⟩
    exact ⟨p, List.mem_of_find?_eq_some hp, by simpa using List.find?_some hp, hs⟩
  · rintro ⟨p, hmem, hid, hs⟩
    obtain ⟨q, hq⟩ : ∃ q, m.players.find? (fun p => p.id = u) = some q := by
      rw [← Option.isSome_iff_exists, List.find?_isSome]
      exact ⟨p, hmem, by simpa using hid⟩
    have hqid : q.id = u := by simpa using List.find?_some hq
    obtain rfl : q = p := List.inj_on_of_nodup_map hn (List.mem_of_find?_eq_some hq) hmem (hqid.trans hid.symm)
    exact ⟨q, hq, hs⟩

/-- on an unchanged roster the batch recomputes what a snapshot would say -/
theorem computeIsEliminated_self (userId : Option String) (m m' : Match)
    (h : m'.players.map Player.id = m.players.map Player.id) :
    computeIsEliminated userId m' (selfEliminated userId m) = selfEliminated userId m' := by
  cases userId with
  | none => rfl
  | some u =>
    simp only [computeIsEliminated, selfEliminated]
    cases hf : m'.players.find? fun p => p.id = u with
    | some p => rfl
    | none =>
      have hout : u ∉ m'.players.map Player.id := by
        intro hmem
        obtain ⟨p, hp, hid⟩ := List.mem_map.1 hmem
        simpa [hid] using List.find?_eq_none.1 hf p hp
      have hnone : m.players.find? (fun p => p.id = u) = none := by
        refine List.find?_eq_none.2 fun p hp hid => hout ?_
        rw [h]
        exact List.mem_map.2 ⟨p, hp, by simpa using hid⟩
      rw [hnone]

theorem computeIsEliminated_idem (userId : Option String) (m : Match) (fallback : Bool) :
    computeIsEliminated userId m (computeIsEliminated userId m fallback) = computeIsEliminated userId m fallback := by
  cases userId with
  | none => rfl
  | some u =>
    simp only [computeIsEliminated]
    cases m.players.find? fun p => p.id = u with
    | none => rfl
    | some p => rfl

/-! ## A batch -/

section Batch

variable {s : SocketState} {m : Match} {matchId : String}

/-- **The batch fold.** Consecutive events behind the cursor move the match as `replayMatch` does. -/
theorem applyEventBatchState_match (hid : matchId ≠ "") (hm : s.currentMatch = some m) (ho : Onto matchId m s.room)
    (events : List DeltaEvent) (hs : events.map DeltaEvent.seqNo = List.range' (s.lastSeenSeqNo + 1) events.length) :
    let r := applyEventBatchState s matchId events
    let m' := events.foldl (fun m e => replayMatch m e.event) m
    r.userId = s.userId ∧ r.currentMatch = some m' ∧ Onto matchId m' r.room ∧
      r.isEliminated = computeIsEliminated s.localUserId m' s.isEliminated ∧
      r.lastSeenSeqNo = s.lastSeenSeqNo + events.length := by
  have hguard : ¬(matchId = "" ∨ s.activeMatchId ≠ some matchId) :=
    not_or.2 ⟨hid, not_not.2 (ho.active hm)⟩
  have hown : ¬m.id ≠ matchId := not_not.2 ho.match_id
  obtain ⟨hmatch, hcursor, honto⟩ := foldl_foldBatchEvent events (.ofState s m) s.lastSeenSeqNo ho hs
  have heq : applyEventBatchState s matchId events =
      s.replayed (events.foldl (foldBatchEvent matchId) (.ofState s m, s.lastSeenSeqNo)).1
        (events.foldl (foldBatchEvent matchId) (.ofState s m, s.lastSeenSeqNo)).2 := by
    simp only [applyEventBatchState, if_neg hguard, hm, if_neg hown]
  have hstart : (ReplayAccumulator.ofState s m).currentMatch = m := rfl
  rw [hstart] at hmatch
  rw [heq]
  refine ⟨rfl, congrArg some hmatch, hmatch ▸ honto, ?_, hcursor⟩
  rw [← hmatch]
  rfl

/-- a batch whose first events have been applied is its rest -/
theorem applyEventBatchState_passed (matchId : String) (old new : List DeltaEvent)
    (h : ∀ e ∈ old, e.seqNo ≤ s.lastSeenSeqNo) :
    applyEventBatchState s matchId (old ++ new) = applyEventBatchState s matchId new := by
  have hfold : ∀ acc : ReplayAccumulator, (old ++ new).foldl (foldBatchEvent matchId) (acc, s.lastSeenSeqNo) =
      new.foldl (foldBatchEvent matchId) (acc, s.lastSeenSeqNo) := by
    intro acc
    rw [List.foldl_append, foldl_passed old (acc, s.lastSeenSeqNo) h]
  unfold applyEventBatchState
  simp only [hfold]

/-- **Overlapping deltas.** What a delta of any machine repeats is skipped. -/
theorem applyEventBatchState_overlap {d : Machine} (hseq : d.SeqInv) (matchId : String) {c : ℕ}
    (hc : c ≤ s.lastSeenSeqNo) : applyEventBatchState s matchId (d.getDelta c) =
      applyEventBatchState s matchId (d.getDelta s.lastSeenSeqNo) := by
  rw [Machine.getDelta_split hseq hc]
  refine applyEventBatchState_passed matchId _ _ fun e he => ?_
  simpa using List.mem_takeWhile_imp he

/-- with nothing new the store stays, once its flag is the one the match says -/
theorem applyEventBatchState_nil (hm : s.currentMatch = some m)
    (hself : computeIsEliminated s.localUserId m s.isEliminated = s.isEliminated) :
    applyEventBatchState s matchId [] = s := by
  unfold applyEventBatchState
  split_ifs
  · rfl
  · rw [hm]
    simp only [List.foldl_nil]
    split_ifs
    · rfl
    · simp only [SocketState.replayed, ReplayAccumulator.ofState, hself, ← hm]

end Batch

/-! ## Agreement -/

/-- a replayed match beside the match of the snapshot at its end -/
structure MatchAgrees (events : List MatchEvent) (m w : Match) : Prop where
  currentRoundNo : m.currentRoundNo = w.currentRoundNo
  status : m.status = (impliedStatus events).getD w.status
  currentQuestion : awaitsStart events = false → m.currentQuestion = w.currentQuestion
  roundEndTime : awaitsStart events = false → isClosed events = false → m.roundEndTime = w.roundEndTime
  closed : isClosed events = true → m.roundEndTime = none
  marked : ∀ p, w.isEliminated p → m.isEliminated p
  unmarked : ∀ p, m.isEliminated p → w.isEliminated p ∨ p ∈ winnersOf events

/-- a store after a batch beside the store after the snapshot at its end -/
structure Agrees (viewer : Option String) (events : List MatchEvent) (got want : SocketState) : Prop where
  currentMatch : ∃ m w, got.currentMatch = some m ∧ want.currentMatch = some w ∧ MatchAgrees events m w
  lastSeenSeqNo : got.lastSeenSeqNo = want.lastSeenSeqNo
  isEliminated : (∀ u, viewer = some u → u ∉ winnersOf events) → got.isEliminated = want.isEliminated

theorem clientMatch_ids {m : Machine} (hk : m.Keyed) :
    (clientMatch m).players.map Player.id = m.state.players.keys := by
  simp only [clientMatch, List.map_map, JsMap.keys]
  refine List.map_congr_left fun e he => ?_
  exact hk e.1 e.2 (JsMap.get_of_mem he)

theorem clientMatch_isEliminated {m : Machine} (hk : m.Keyed) (p : String) :
    (clientMatch m).isEliminated p ↔ m.isEliminated p := by
  constructor
  · rintro ⟨player, hmem, rfl, hs⟩
    simp only [clientMatch, List.map_map] at hmem
    obtain ⟨e, he, rfl⟩ := List.mem_map.1 hmem
    have hget : m.state.players.get e.1 = some e.2 := JsMap.get_of_mem he
    refine ⟨e.2, ?_, hs⟩
    have hid : e.2.id = e.1 := hk e.1 e.2 hget
    exact (congrArg m.state.players.get hid).trans hget
  · rintro ⟨i, hi, hs⟩
    refine ⟨clientPlayer i, ?_, hk p i hi, hs⟩
    simp only [clientMatch, List.map_map]
    exact List.mem_map.2 ⟨(p, i), JsMap.mem_of_get hi, rfl⟩

/-- a client that has applied a snapshot stands where the server does -/
theorem follows_hydrated {m : Machine} (hk : m.Keyed) : Follows [] (clientMatch m) m.view where
  id := rfl
  currentRoundNo := rfl
  status := rfl
  currentQuestion _ := by
    simp only [clientMatch, Machine.view, Option.map_map]
    rfl
  roundEndTime _ _ := by
    simp only [clientMatch, Machine.view, Option.map_map]
    rfl
  closed h := absurd h Bool.false_ne_true
  roster := clientMatch_ids hk
  marked p hp := (clientMatch_isEliminated hk p).2 hp
  unmarked p hp := .inl ((clientMatch_isEliminated hk p).1 hp)

/-- where the fold stands beside the server's view, it stands beside the snapshot -/
theorem Follows.agrees {events : List MatchEvent} {m : Match} {b : Machine} (hk : b.Keyed)
    (h : Follows events m b.view) : MatchAgrees events m (clientMatch b) where
  currentRoundNo := h.currentRoundNo
  status := h.status
  currentQuestion ha := by
    rw [h.currentQuestion ha]
    simp only [clientMatch, Machine.view, Option.map_map]
    rfl
  roundEndTime ha hc := by
    rw [h.roundEndTime ha hc]
    simp only [clientMatch, Machine.view, Option.map_map]
    rfl
  closed := h.closed
  marked p hp := h.marked p ((clientMatch_isEliminated hk p).1 hp)
  unmarked p hp := (h.unmarked p hp).imp_left (clientMatch_isEliminated hk p).2

/-- **Replay after a snapshot.** In every run in the callers' order, at every split and for every viewer: a client that
has applied the snapshot of the split and then the delta behind it, whose events its schema accepts, agrees with the
snapshot at the end as `Agrees` says; what it has applied, and what a later delta repeats, changes nothing. -/
theorem replay_follows_snapshot (J : StringOps) (matchId roomId : String) (players : List PlayerInfo)
    (before after : List Machine.Action) (s : SocketState) (hid : matchId ≠ "")
    (hd : (players.map PlayerInfo.id).Nodup)
    (hg : Along (Machine.act J) Machine.EvalOnce (Machine.create matchId roomId players) (before ++ after))
    (hp : ∀ e ∈ (Machine.reach J matchId roomId players (before ++ after)).getDelta
      (Machine.reach J matchId roomId players before).getHeadSeqNo, Accepted e.event) :
    let a := Machine.reach J matchId roomId players before
    let b := Machine.reach J matchId roomId players (before ++ after)
    let delta := b.getDelta a.getHeadSeqNo
    let got := applyEventBatchState (hydrate s a) matchId delta
    Agrees s.localUserId (delta.map DeltaEvent.event) got (hydrate s b) ∧
      (∀ c ≤ b.getHeadSeqNo, applyEventBatchState got matchId (b.getDelta c) = got) ∧
      ∀ (later : List Machine.Action) (c : ℕ), c ≤ b.getHeadSeqNo →
        let d := Machine.reach J matchId roomId players (before ++ after ++ later)
        applyEventBatchState got matchId (d.getDelta c) =
          applyEventBatchState got matchId (d.getDelta b.getHeadSeqNo) := by
  intro a b delta got
  obtain ⟨hga, hgb⟩ := (along_append _ _ _ before after).1 hg
  have hinva : Machine.ViewInv a :=
    Machine.run_viewInv J _ before hga (Machine.viewInv_create matchId roomId players hd)
  have hrun : b = run (Machine.act J) a after := run_append _ _ before after
  have hinvb : Machine.ViewInv b := hrun ▸ Machine.run_viewInv J a after hgb hinva
  have hseqa : a.SeqInv := (Machine.reach_logInv J matchId roomId players before).seq
  have hseqb : b.SeqInv := (Machine.reach_logInv J matchId roomId players (before ++ after)).seq
  obtain ⟨es, hlog, hview⟩ : ∃ es, b.eventLog = a.eventLog ++ es ∧ b.view = a.view.replay es :=
    hrun ▸ (Machine.run_sourced J a after hgb hinva).logged
  -- the delta carries exactly the entries logged after the split
  have hentries : delta.map DeltaEvent.entry = es := by
    rw [Machine.getDelta_entries hseqb, hseqa.head, hlog, List.drop_left]
  have hevents : delta.map DeltaEvent.event = es.map EventLogEntry.event := by
    rw [← hentries, List.map_map]
    rfl
  have hnumbers : delta.map DeltaEvent.seqNo = List.range' ((hydrate s a).lastSeenSeqNo + 1) delta.length := by
    have hlen : delta.length = b.eventLog.length - a.eventLog.length := by
      rw [← List.length_map DeltaEvent.entry, hentries, hlog, List.length_append, Nat.add_sub_cancel_left]
    rw [Machine.getDelta_seqNos hseqb, hlen, (hydrate_hydrated s a).lastSeenSeqNo, hseqa.head]
  -- the two folds
  have hhyd := hydrate_hydrated s a
  have hwant := hydrate_hydrated s b
  have hida : a.state.id = matchId := Machine.reach_id J matchId roomId players before hd hga
  obtain ⟨huser, hmatch, -, hself, hcursor⟩ := applyEventBatchState_match hid hhyd.currentMatch
    ⟨hida, fun id h => (hhyd.room id h).trans hida⟩ delta hnumbers
  have hfold : delta.foldl (fun m e => replayMatch m e.event) (clientMatch a) =
      es.foldl (fun m e => replayMatch m e.event) (clientMatch a) := by
    rw [← hentries, List.foldl_map]
    rfl
  have hfollows : Follows (es.map EventLogEntry.event) (es.foldl (fun m e => replayMatch m e.event) (clientMatch a))
      b.view := by
    rw [hview]
    refine follows_replay (follows_hydrated hinva.keyed) es fun e he => ?_
    rw [← hentries] at he
    obtain ⟨x, hx, rfl⟩ := List.mem_map.1 he
    exact hp x hx
  rw [hfold] at hmatch hself
  generalize hm' : es.foldl (fun m e => replayMatch m e.event) (clientMatch a) = m' at hmatch hself hfollows
  have hagrees := hfollows.agrees hinvb.keyed
  have hroster : m'.players.map Player.id = (clientMatch a).players.map Player.id := by
    rw [hfollows.roster, hview, (View.replay_frame _ es).2]
    exact (clientMatch_ids hinva.keyed).symm
  have hlocal : (hydrate s a).localUserId = s.localUserId := by
    simp only [SocketState.localUserId, hhyd.userId]
  have hgot : got.lastSeenSeqNo = b.getHeadSeqNo := by
    have hlen : delta.length = b.eventLog.length - a.eventLog.length := by
      rw [← List.length_map DeltaEvent.entry, hentries, hlog, List.length_append, Nat.add_sub_cancel_left]
    rw [hcursor, hhyd.lastSeenSeqNo, hseqa.head, hseqb.head, hlen, hlog, List.length_append]
    omega
  have hflag : got.isEliminated = selfEliminated s.localUserId m' := by
    rw [hself, hlocal, hhyd.isEliminated]
    exact computeIsEliminated_self _ _ _ hroster
  refine ⟨⟨⟨m', clientMatch b, hmatch, hwant.currentMatch, hevents ▸ hagrees⟩, ?_, ?_⟩, ?_, ?_⟩
  · rw [hgot, hwant.lastSeenSeqNo]
  · intro hviewer
    rw [hflag, hwant.isEliminated]
    cases hu : s.localUserId with
    | none => rfl
    | some u =>
      have hna : (m'.players.map Player.id).Nodup := by
        rw [hfollows.roster]
        exact JsMap.keys_nodup _
      have hnb : ((clientMatch b).players.map Player.id).Nodup := by
        rw [clientMatch_ids hinvb.keyed]
        exact JsMap.keys_nodup _
      rw [Bool.eq_iff_iff, selfEliminated_iff m' hna, selfEliminated_iff (clientMatch b) hnb]
      refine ⟨fun h => (hagrees.unmarked u h).resolve_right ?_, hagrees.marked u⟩
      rw [← hevents]
      exact hviewer u hu
  · intro c hc
    have hnothing : b.getDelta b.getHeadSeqNo = [] := by
      rw [Machine.getDelta_eq_drop hseqb, hseqb.head, List.drop_length, List.map_nil]
    rw [applyEventBatchState_overlap hseqb matchId (hgot ▸ hc), hgot, hnothing]
    refine applyEventBatchState_nil hmatch ?_
    have hsame : got.localUserId = (hydrate s a).localUserId := by simp only [SocketState.localUserId, huser, got]
    rw [hsame, hself]
    exact computeIsEliminated_idem _ _ _
  · intro later c hc d
    rw [applyEventBatchState_overlap (Machine.reach_logInv J matchId roomId players _).seq matchId (hgot ▸ hc), hgot]

/-- the store of `bob` before his first snapshot -/
def joinedStore : SocketState where
  userId := some "bob"
  room := some ⟨.countdown, none, some 0, []⟩
  currentMatch := none
  topicVoting := none
  cardState := createInitialCardState
  lastAnswerResult := none
  pendingAnswer := none
  remainingCount := none
  lastSeenSeqNo := 0
  isEliminated := false
  eliminationReason := none

/-- two players in their first round -/
def openingRun : List Machine.Action :=
  [.call (.transition .countdown fun _ => 0), .call (.transition .roundActive fun _ => 5000),
   .call (.startRound ⟨"q1", "2 + 2?", ["3", "4", "5", "6"], "4", none⟩ (some 15000) fun _ => 5000)]

/-- a snapshot in the first round, and the rest of the round behind it -/
theorem replay_follows_first_round :
    let reach := Machine.reach StringOps.ascii "m1" "r1" [freshPlayer "alice", freshPlayer "bob"]
    let a := reach openingRun
    let b := reach (openingRun ++ [.call (.submitAnswer "alice" "b" 7000 none fun _ => 7000),
      .call (.transition .roundEvaluating fun _ => 20000), .call (.evaluateRound fun _ => 20000),
      .call (.transition .roundResult fun _ => 20001)])
    Agrees (some "bob") ((b.getDelta a.getHeadSeqNo).map DeltaEvent.event)
      (applyEventBatchState (hydrate joinedStore a) "m1" (b.getDelta a.getHeadSeqNo)) (hydrate joinedStore b) :=
  (replay_follows_snapshot StringOps.ascii "m1" "r1" _ openingRun _ joinedStore (by decide) (by decide)
    (by decide +kernel) (by decide +kernel)).1

/-- A snapshot in the first round, two wrong answers, and the delta behind it. After the evaluation the client shows the
result and no deadline where the snapshot shows the evaluation and the deadline; before the second round starts it keeps
the first question; a winner by tie-break stays ELIMINATED; and an evaluation logged after a failover has lost the
answer key eliminates nobody. -/
theorem replay_parts_from_snapshot :
    let reach := Machine.reach StringOps.ascii "m1" "r1" [freshPlayer "alice", freshPlayer "bob"]
    let a := reach openingRun
    let wrong : List Machine.Action := [.call (.submitAnswer "alice" "A" 8500 none fun _ => 8500),
      .call (.submitAnswer "bob" "A" 8000 none fun _ => 8000)]
    let judged : List Machine.Action :=
      [.call (.transition .roundEvaluating fun _ => 20000), .call (.evaluateRound fun _ => 20000)]
    let settled := judged ++ [.call (.transition .roundResult fun _ => 20001)]
    let got (acts : List Machine.Action) : SocketState :=
      applyEventBatchState (hydrate joinedStore a) "m1" ((reach (openingRun ++ acts)).getDelta a.getHeadSeqNo)
    let want (acts : List Machine.Action) : SocketState := hydrate joinedStore (reach (openingRun ++ acts))
    (got (wrong ++ judged)).currentMatch.map Match.status = some .roundResult ∧
      (want (wrong ++ judged)).currentMatch.map Match.status = some .roundEvaluating ∧
      (got (wrong ++ settled)).currentMatch.bind Match.roundEndTime = none ∧
      (want (wrong ++ settled)).currentMatch.bind Match.roundEndTime = some 20000 ∧
      (let next := wrong ++ settled ++ [.call (.transition .roundActive fun _ => 25000)]
       ((got next).currentMatch.bind Match.currentQuestion).map QuestionState.id = some "q1" ∧
         (want next).currentMatch.bind Match.currentQuestion = none) ∧
      (let done := wrong ++ settled ++ [.call (.transition .finished fun _ => 25000),
         .call (.finishMatch fun _ => 25000)]
       (got done).isEliminated = true ∧ (want done).isEliminated = false) ∧
      (let lost := .failover :: wrong ++ judged
       (got lost).isEliminated = false ∧ (want lost).isEliminated = true) := by
  decide +kernel

end Arena.Web
