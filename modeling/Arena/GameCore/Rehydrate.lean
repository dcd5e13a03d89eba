/-
Rebuilding the card mirrors from the event log (`rehydrateCardStateFromEventLog`).

The live operations write the seven mirrors and the log side by side; a recovery folds `rehydrateEvent` over the log.
`MirrorInv` says the two agree, insertion orders included, and `change_mirrorInv` that every call keeps it, provided the
player ids of answers and plays are not empty: the replay skips the second chance of an empty id.
-/
import Arena.GameCore.Steps

namespace Arena.GameCore

open Arena.Lib Arena.Shared

/-- the player ids the second chance is keyed by are not empty -/
def Op.namesPlayers : Op → Prop
  | .submitAnswer playerId .. => playerId ≠ ""
  | .playCard input _ => input.playedByPlayerId ≠ ""
  | _ => True

instance : DecidablePred Op.namesPlayers := fun o => by
  unfold Op.namesPlayers
  split <;> infer_instance

namespace Machine

/-! ## Model -/

def rehydrateClassAssigned (c : CardMirrors) (assignments : List (String × ClassId)) : CardMirrors :=
  { c with playerClasses := assignments.foldl (fun cs a => cs.set a.1 a.2) c.playerClasses }

def rehydrateCardOffer (c : CardMirrors) (playerId : String) (ids : List CardId) : CardMirrors :=
  if ids.length = 3 then
    { c with
      playerHands := c.playerHands.set playerId ids
      playerPickedCards := c.playerPickedCards.delete playerId }
  else c

def rehydrateCardPicked (c : CardMirrors) (playerId : String) (cardId : CardId) : CardMirrors :=
  let hand := (c.playerHands.get playerId).getD []
  { c with
    playerHands := c.playerHands.set playerId (hand.filter fun x => x ≠ cardId)
    playerPickedCards := addCard c.playerPickedCards playerId cardId }

def rehydrateCardResolved (c : CardMirrors) (seqNo : ℕ) (p : CardResolved) : CardMirrors :=
  { c with
    playerPlayedCards := addCard c.playerPlayedCards p.playedByPlayerId p.cardId
    playerPickedCards := c.playerPickedCards.modify p.playedByPlayerId (·.delete p.cardId)
    activeEffects :=
      if p.resolution = .temporary then
        pushEffect c.activeEffects p.playedByPlayerId
          ⟨seqNo, p.effect, p.expiresAtServer.getD 0, getDurationMs p.effect⟩
      else c.activeEffects
    aoeCountByRound :=
      if 1 < p.targetPlayerIds.length then countAoe c.aoeCountByRound p.roundNo else c.aoeCountByRound }

def rehydrateEvent (c : CardMirrors) (e : EventLogEntry) : CardMirrors :=
  match e.event with
  | .roundStarted .. => { c with secondChancePlayers := JsSet.empty }
  | .secondChanceGranted playerId _ =>
    if playerId ≠ "" then { c with secondChancePlayers := c.secondChancePlayers.add playerId } else c
  | .secondChanceConsumed playerId _ =>
    if playerId ≠ "" then { c with secondChancePlayers := c.secondChancePlayers.delete playerId } else c
  | .classAssigned _ assignments _ => rehydrateClassAssigned c assignments
  | .cardOffer _ playerId ids _ => rehydrateCardOffer c playerId ids
  | .cardPicked _ playerId cardId _ _ _ => rehydrateCardPicked c playerId cardId
  | .cardResolved p => rehydrateCardResolved c e.seqNo p
  | _ => c

def rehydrateCardStateFromEventLog (log : List EventLogEntry) : CardMirrors :=
  log.foldl rehydrateEvent CardMirrors.empty

/-! ## Live mirrors agree with the replay -/

/-- the mirrors are the replay of the log -/
def MirrorInv (m : Machine) : Prop := m.cards = rehydrateCardStateFromEventLog m.eventLog

theorem rehydrate_append (log : List EventLogEntry) (es : List EventLogEntry) :
    rehydrateCardStateFromEventLog (log ++ es) = es.foldl rehydrateEvent (rehydrateCardStateFromEventLog log) := by
  simp [rehydrateCardStateFromEventLog, List.foldl_append]

/-- one more entry, mirrored by the same reducer step -/
theorem MirrorInv.of_log {m m' : Machine} (h : MirrorInv m) (e : EventLogEntry)
    (hl : m'.eventLog = m.eventLog ++ [e]) (hc : m'.cards = rehydrateEvent m.cards e) : MirrorInv m' := by
  unfold MirrorInv at *
  rw [hl, rehydrate_append, hc, h]
  rfl

theorem MirrorInv.of_quiet {m m' : Machine} (h : MirrorInv m) (hl : m'.eventLog = m.eventLog)
    (hc : m'.cards = m.cards) : MirrorInv m' := by
  unfold MirrorInv at *
  rw [hl, hc, h]

theorem determineWinner_mirrorInv {m : Machine} (h : MirrorInv m) (now : Clock) :
    MirrorInv (m.determineWinner now).1 := by
  unfold determineWinner
  split
  · exact h
  · split_ifs with he
    · exact h
    · simp only [tieBreak, he, if_false]
      exact h.of_log _ rfl rfl
  · simp only [tieBreak]
    split_ifs
    · exact h
    · exact h.of_log _ rfl rfl

theorem consumeChance_mirrorInv {m : Machine} (h : MirrorInv m) (round : Round) {p : String} (hp : p ≠ "")
    (retry : Bool) (now : Time) : MirrorInv (m.consumeChance round p retry now) := by
  unfold consumeChance
  split_ifs
  · exact h.of_log _ rfl (by simp [rehydrateEvent, hp])
  · exact h

/-- a play and its replay write the same mirrors -/
theorem play_mirrorInv {m : Machine} (h : MirrorInv m) (round : Round) (p : PlayInput)
    (hp : p.playedByPlayerId ≠ "") (now : Clock) :
    MirrorInv ((m.logEvent (.cardResolved (m.resolvedPayload round p)) (now 0)).applyPlay round p
      (m.eventSeqCounter + 1) now) := by
  -- the replay of CARD_RESOLVED alone
  let m1 : Machine :=
    { m.logEvent (.cardResolved (m.resolvedPayload round p)) (now 0) with
      cards := rehydrateCardResolved m.cards (m.eventSeqCounter + 1) (m.resolvedPayload round p) }
  have h1 : MirrorInv m1 := h.of_log _ rfl rfl
  by_cases hs : p.resolvedEffect = .secondChance
  · have ht : isTemporaryEffectKind p.resolvedEffect = false := by rw [hs]; rfl
    refine h1.of_log ⟨.secondChanceGranted p.playedByPlayerId round.roundNo, now 1, m.eventSeqCounter + 1 + 1⟩ ?_ ?_
    · simp [applyPlay, hs, m1, isTemporaryEffectKind, temporaryDuration]
    · simp [applyPlay, hs, m1, isTemporaryEffectKind, temporaryDuration, rehydrateEvent, hp, rehydrateCardResolved,
        resolvedPayload]
  · by_cases ht : isTemporaryEffectKind p.resolvedEffect = true
    · exact h1.of_quiet (by simp [applyPlay, hs, ht, m1])
        (by simp [applyPlay, hs, ht, m1, rehydrateCardResolved, resolvedPayload])
    · exact h1.of_quiet (by simp [applyPlay, hs, ht, m1])
        (by simp [applyPlay, hs, ht, m1, rehydrateCardResolved, resolvedPayload])

/-- **A call keeps the mirrors equal to the replay of the log.** -/
theorem change_mirrorInv {J : StringOps} {m m' : Machine} {o : Op} (hc : Change J m o m') (hn : o.namesPlayers)
    (h : MirrorInv m) : MirrorInv m' := by
  cases hc with
  | same o => exact h
  | transition target now _ =>
    have h1 : MirrorInv (m.logEvent (.stateTransition m.state.status target) (now 0)) := h.of_log _ rfl rfl
    cases target <;> exact h1.of_quiet rfl rfl
  | startRound q d now _ => exact h.of_log _ rfl rfl
  | answer round p a ts sid retry now _ _ _ _ _ =>
    have h1 := consumeChance_mirrorInv h round hn retry (now 0)
    exact h1.of_log _ rfl rfl
  | evaluated round now _ _ => exact h.of_log _ rfl rfl
  | evaluateStuck round now _ _ => exact h.of_quiet rfl rfl
  | winner now => exact determineWinner_mirrorInv h now
  | finish now => exact (determineWinner_mirrorInv h now).of_log _ rfl rfl
  | offline p player now _ => exact h.of_quiet rfl rfl
  | disconnect p player now _ _ => exact h.of_log _ rfl rfl
  | reconnect p player now _ => exact h.of_log _ rfl rfl
  | attach round key _ _ => exact h.of_quiet rfl rfl
  | initRejected c d now _ => exact h.of_quiet rfl rfl
  | initVoting c d now _ =>
    have h1 : MirrorInv ((m.resetTopics (m.candidatesFor c)).logEvent
        (.stateTransition m.state.status .topicVoting) (now 0)) := h.of_log _ rfl rfl
    exact h1.of_log _ rfl rfl
  | vote votes p t e now => exact h.of_log _ rfl rfl
  | resolveTopics n r now => exact h.of_log _ rfl rfl
  | classes ids s now => exact h.of_log _ rfl rfl
  | offer p r s cards now hl => exact h.of_log _ rfl (by simp [rehydrateEvent, rehydrateCardOffer, hl])
  | pick p c hand r o e i now hh => exact h.of_log _ rfl (by simp [rehydrateEvent, rehydrateCardPicked, hh])
  | play round p now _ _ _ => exact play_mirrorInv h round p hn now

theorem mirrorInv_create (matchId roomId : String) (players : List PlayerInfo) :
    MirrorInv (Machine.create matchId roomId players) := rfl

end Machine

end Arena.GameCore
