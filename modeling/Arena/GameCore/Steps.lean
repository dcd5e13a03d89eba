/-
What one call of the machine can do.

`Change J m o m'` lists every way the call `o` moves the machine, with the guards under which it does and the
machine it leaves; `step_change` says that every call makes one of these changes. Invariants of the machine are proved
against `Change`, once per way.

- `evaluateRound_eq`: `evaluateRound` in closed form. Its loop never meets a surviving player without an answer, so the
  only error past the first guard is the push on a frozen elimination list.
- `change_quiet`, `change_quiet_round`: the calls that neither log an event of a round nor touch its answers;
- `change_appends`: a call appends to the event log and never rewrites it, and `Appends.seqInv`: sequence numbers stay
  the positions in the log.
-/
import Arena.GameCore.Machine
import Arena.Lib.Run

namespace Arena.GameCore

open Arena.Lib Arena.Shared

/-! ## Events of a round -/

/-- the events that open, answer, re-open and close a round -/
def MatchEvent.isRoundEvent : MatchEvent → Bool
  | .roundStarted .. => true
  | .answerSubmitted .. => true
  | .roundEvaluated .. => true
  | .secondChanceGranted .. => true
  | .secondChanceConsumed .. => true
  | _ => false

/-- the calls that log no event of a round -/
def Op.isQuiet : Op → Bool
  | .startRound .. => false
  | .submitAnswer .. => false
  | .evaluateRound .. => false
  | .playCard .. => false
  | _ => true

namespace Machine

/-! ## Round evaluation in closed form -/

/-- the player has a correct answer on record -/
def answeredRight (answers : JsMap String AnswerState) (playerId : String) : Bool :=
  (answers.get playerId).any AnswerState.isCorrect

/-- what evaluation makes of one starting player -/
def settleInfo (answers : JsMap String AnswerState) (playerId : String) (player : PlayerInfo) : PlayerInfo :=
  match answers.get playerId with
  | some answer => if answer.isCorrect then award answer.responseTimeMs player else { player with status := .eliminated }
  | none => { player with status := .eliminated }

theorem settleInfo_right {answers : JsMap String AnswerState} {p : String} {a : AnswerState}
    (ha : answers.get p = some a) (hc : a.isCorrect = true) : settleInfo answers p = award a.responseTimeMs := by
  funext i
  simp [settleInfo, ha, hc]

theorem settleInfo_wrong {answers : JsMap String AnswerState} {p : String} (h : answeredRight answers p = false) :
    settleInfo answers p = fun i => { i with status := .eliminated } := by
  funext i
  unfold settleInfo
  cases ha : answers.get p with
  | none => rfl
  | some a =>
    have hc : a.isCorrect = false := by simpa [answeredRight, ha] using h
    simp [hc]

def settlePlayer (answers : JsMap String AnswerState) (players : JsMap String PlayerInfo) (playerId : String) :
    JsMap String PlayerInfo := players.modify playerId (settleInfo answers playerId)

/-- the players evaluated: the snapshot of the round, or the survivors when it is unavailable -/
def roundPlayers (m : Machine) (round : Round) : List String := round.startingPlayers.getD m.state.survivingPlayerIds

def survivorsOf (m : Machine) (round : Round) : List String :=
  (m.roundPlayers round).filter fun p => answeredRight round.answers p

def losersOf (m : Machine) (round : Round) : List String :=
  (m.roundPlayers round).filter fun p => !answeredRight round.answers p

def settledPlayers (m : Machine) (round : Round) : JsMap String PlayerInfo :=
  (m.roundPlayers round).foldl (settlePlayer round.answers) m.state.players

/-- the machine after a completed evaluation -/
def settle (m : Machine) (round : Round) (now : Clock) : Machine :=
  { m with
    state := { m.state with
      players := m.settledPlayers round
      survivingPlayerIds := m.survivorsOf round
      eliminatedPlayerIds := m.state.eliminatedPlayerIds ++ m.losersOf round }
    currentRound := some { round with status := .completed } }.logEvent
    (.roundEvaluated round.roundNo round.correctAnswer (m.survivorsOf round).length (m.losersOf round).length
      (m.losersOf round)) (now 0)

/-- the machine an evaluation leaves when the push on the frozen list throws -/
def settleStuck (m : Machine) (round : Round) : Machine :=
  { m with
    state := { m.state with
      players := m.settledPlayers round
      survivingPlayerIds := m.survivorsOf round }
    currentRound := some { round with status := .evaluating } }

theorem eliminationsForRound_eq (l : List String) (answers : JsMap String AnswerState) :
    eliminationsForRound l answers = l.filter fun p => !answeredRight answers p := by
  unfold eliminationsForRound answeredRight
  congr 1
  funext p
  cases answers.get p <;> rfl

theorem evaluatePlayers_eq (answers : JsMap String AnswerState) (starting : List String) :
    ∀ (l : List String) (players : JsMap String PlayerInfo) (survivingIds : List String), (∀ p ∈ l, p ∈ starting) →
      evaluatePlayers answers (eliminationsForRound starting answers) l players survivingIds =
        (l.foldl (settlePlayer answers) players,
          .ok (survivingIds ++ l.filter fun p => answeredRight answers p)) := by
  intro l
  induction l with
  | nil => intro players survivingIds _; simp [evaluatePlayers]
  | cons p l ih =>
    intro players survivingIds hl
    have hp : p ∈ starting := hl p (by simp)
    have hrest : ∀ q ∈ l, q ∈ starting := fun q hq => hl q (by simp [hq])
    have hmem : p ∈ eliminationsForRound starting answers ↔ answeredRight answers p = false := by
      rw [eliminationsForRound_eq]; simp [hp]
    simp only [evaluatePlayers, hmem]
    cases ha : answers.get p with
    | none =>
      have hr : answeredRight answers p = false := by simp [answeredRight, ha]
      simp [hr, ih _ _ hrest, settlePlayer, settleInfo_wrong hr]
    | some a =>
      cases hc : a.isCorrect with
      | false =>
        have hr : answeredRight answers p = false := by simp [answeredRight, ha, hc]
        simp [hr, ih _ _ hrest, settlePlayer, settleInfo_wrong hr]
      | true =>
        have hr : answeredRight answers p = true := by simp [answeredRight, ha, hc]
        have hs : settleInfo answers p = award a.responseTimeMs := settleInfo_right ha hc
        cases hg : players.get p with
        | none => simp [hr, ih _ _ hrest, settlePlayer, hs, JsMap.modify_absent _ hg]
        | some q => simp [hr, ih _ _ hrest, settlePlayer, hs]

/-- evaluation reaches each starting player once -/
theorem foldl_settle_get (answers : JsMap String AnswerState) (l : List String) (hn : l.Nodup) (p : String) :
    ∀ players : JsMap String PlayerInfo, (l.foldl (settlePlayer answers) players).get p =
      if p ∈ l then (players.get p).map (settleInfo answers p) else players.get p := by
  induction l with
  | nil => intro players; simp
  | cons q l ih =>
    intro players
    rw [List.nodup_cons] at hn
    rw [List.foldl_cons, ih hn.2]
    by_cases hq : q = p
    · subst hq
      simp [hn.1, settlePlayer]
    · simp [settlePlayer, hq, Ne.symm hq]

theorem foldl_settle_keys (answers : JsMap String AnswerState) (l : List String) :
    ∀ players : JsMap String PlayerInfo, (l.foldl (settlePlayer answers) players).keys = players.keys := by
  induction l with
  | nil => intro players; rfl
  | cons q l ih =>
    intro players
    rw [List.foldl_cons, ih]
    exact JsMap.keys_modify players q _

/-- **`evaluateRound` in closed form.** It never dereferences a missing answer; it throws without a round, or on the
push to a frozen elimination list. -/
theorem evaluateRound_eq (m : Machine) (now : Clock) :
    m.evaluateRound now =
      match m.currentRound with
      | none => (m, .error .noActiveRound)
      | some round =>
        if m.eliminatedFrozen then (m.settleStuck round, .error .frozenArray)
        else (m.settle round now, .ok ⟨m.survivorsOf round, m.losersOf round, round.correctAnswer⟩) := by
  unfold evaluateRound
  cases m.currentRound with
  | none => rfl
  | some round =>
    have h := evaluatePlayers_eq round.answers (round.startingPlayers.getD m.state.survivingPlayerIds)
      (round.startingPlayers.getD m.state.survivingPlayerIds) m.state.players [] (fun _ hp => hp)
    simp only [h, List.nil_append]
    rw [eliminationsForRound_eq]
    rfl

/-! ## The initial roster -/

theorem create_player {matchId roomId : String} {players : List PlayerInfo} {p : String} {i : PlayerInfo}
    (h : (Machine.create matchId roomId players).state.players.get p = some i) : i ∈ players ∧ i.id = p := by
  have hm : (p, i) ∈ players.map fun q => (q.id, q) := JsMap.mem_ofEntries (JsMap.mem_of_get h)
  rw [List.mem_map] at hm
  obtain ⟨q, hq, he⟩ := hm
  obtain rfl : q = i := congrArg Prod.snd he
  exact ⟨hq, congrArg Prod.fst he⟩

theorem create_keys (matchId roomId : String) (players : List PlayerInfo) (hd : (players.map PlayerInfo.id).Nodup) :
    (Machine.create matchId roomId players).state.players.keys = players.map PlayerInfo.id := by
  have hentries : (JsMap.ofEntries (players.map fun p => (p.id, p))).entries = players.map fun p => (p.id, p) := by
    have h := JsMap.foldl_set_entries (players.map fun p => (p.id, p)) JsMap.empty
      (by rw [List.map_map]; exact hd) (by simp)
    simpa [JsMap.ofEntries, JsMap.empty] using h
  simp only [Machine.create, JsMap.keys, hentries, List.map_map]
  rfl

/-! ## Inversion of one call -/

def withPlayers (m : Machine) (players : JsMap String PlayerInfo) : Machine :=
  { m with state := { m.state with players := players } }

/-- the ways a call moves the machine -/
inductive Change (J : StringOps) (m : Machine) : Op → Machine → Prop where
  | same (o : Op) : Change J m o m
  | transition (target : MatchStatus) (now : Clock) (h : target ∈ validTransitions m.state.status) :
      Change J m (.transition target now)
        ((m.logEvent (.stateTransition m.state.status target) (now 0)).enterStatus target now)
  | startRound (q : QuestionInput) (d : Option Time) (now : Clock) (h : m.state.status = .roundActive) :
      Change J m (.startRound q d now) (m.beginRound q d now)
  | answer (round : Round) (playerId text : String) (ts : Time) (sid : Option String) (retry : Bool) (now : Clock)
      (hr : m.currentRound = some round) (hactive : round.status = .active) (hts : ts ≤ round.endsAt)
      (hp : (m.state.players.get playerId).map PlayerInfo.status = some .active)
      (hretry : (retry = true ∧ (round.answers.get playerId).isSome ∧ m.cards.secondChancePlayers.has playerId) ∨
        (retry = false ∧ round.answers.get playerId = none)) :
      Change J m (.submitAnswer playerId text ts sid now)
        (m.recordAnswer round (newAnswer J round playerId text ts sid) retry now)
  | evaluated (round : Round) (now : Clock) (hr : m.currentRound = some round) (hf : m.eliminatedFrozen = false) :
      Change J m (.evaluateRound now) (m.settle round now)
  | evaluateStuck (round : Round) (now : Clock) (hr : m.currentRound = some round) (hf : m.eliminatedFrozen = true) :
      Change J m (.evaluateRound now) (m.settleStuck round)
  | winner (now : Clock) : Change J m (.determineWinner now) (m.determineWinner now).1
  | finish (now : Clock) :
      Change J m (.finishMatch now) ((m.determineWinner now).1.crown (m.determineWinner now).2 now)
  | offline (playerId : String) (player : PlayerInfo) (now : Clock)
      (hg : m.state.players.get playerId = some player) :
      Change J m (.disconnectPlayer playerId now)
        (m.withPlayers (m.state.players.modify playerId fun p => { p with isOnline := false }))
  | disconnect (playerId : String) (player : PlayerInfo) (now : Clock)
      (hg : m.state.players.get playerId = some player) (hs : player.status = .active) :
      Change J m (.disconnectPlayer playerId now)
        ((m.withPlayers (m.state.players.modify playerId fun p =>
          { p with isOnline := false, status := .disconnected })).logEvent (.playerDisconnected playerId) (now 0))
  | reconnect (playerId : String) (player : PlayerInfo) (now : Clock)
      (hg : m.state.players.get playerId = some player) :
      Change J m (.reconnectPlayer playerId now)
        ((m.withPlayers (m.state.players.modify playerId fun p =>
          { p with
            isOnline := true
            status := if p.status = PlayerStatus.disconnected then .active else p.status })).logEvent
          (.playerReconnected playerId) (now 0))
  | attach (round : Round) (key : String) (hr : m.currentRound = some round) (hactive : round.status = .active) :
      Change J m (.attachCorrectAnswer key) { m with currentRound := some { round with correctAnswer := some key } }
  | initRejected (c : Option (List String)) (d : Option Time) (now : Clock) (h : m.state.status ≠ .created) :
      Change J m (.initTopicVoting c d now) (m.resetTopics (m.candidatesFor c))
  | initVoting (c : Option (List String)) (d : Option Time) (now : Clock) (h : m.state.status = .created) :
      Change J m (.initTopicVoting c d now)
        ((((m.resetTopics (m.candidatesFor c)).logEvent (.stateTransition m.state.status .topicVoting)
          (now 0)).enterStatus .topicVoting now).openVoting (m.candidatesFor c)
            (d.getD GameConfig.topicVotingDurationMs) now)
  | vote (votes : JsMap String String) (playerId topic : String) (eventId : Option String) (now : Clock) :
      Change J m (.voteBanTopic playerId topic eventId now)
        ({ m with state := { m.state with topicVotes := some votes } }.logEvent
          (.topicVoteSubmitted m.state.id playerId topic (truthy eventId)) (now 1))
  | resolveTopics (n : ℕ) (r : TopicVotingResult) (now : Clock) :
      Change J m (.resolveTopicVoting n now)
        ({ m with state := { m.state with
            bannedTopics := some r.bannedTopics, activeTopics := some r.activeTopics } }.logEvent
          (.topicVotingFinished m.state.id r.bannedTopics r.activeTopics r.voteCounts) (now 0))
  | classes (ids : List String) (seed : String) (now : Clock) :
      Change J m (.classAssignment ids seed now) (m.classAssignment ids seed now).1
  | offer (playerId : String) (roundNo : ℕ) (seed : String) (cards : List CardId) (now : Clock)
      (hl : cards.length = 3) :
      Change J m (.pickOffer playerId roundNo seed now)
        { m.logEvent (.cardOffer roundNo playerId cards seed) (now 0) with
          cards := { m.cards with
            playerHands := m.cards.playerHands.set playerId cards
            playerPickedCards := m.cards.playerPickedCards.delete playerId } }
  | pick (playerId : String) (cardId : CardId) (hand : List CardId) (roundNo offerSeqNo : ℕ)
      (eventId commandId : Option String) (now : Clock) (hh : m.cards.playerHands.get playerId = some hand) :
      Change J m (.pickCard playerId cardId offerSeqNo eventId commandId now)
        { m.logEvent (.cardPicked roundNo playerId cardId offerSeqNo (truthy eventId) (truthy commandId)) (now 0) with
          cards := { m.cards with
            playerHands := m.cards.playerHands.set playerId (hand.filter fun c => c ≠ cardId)
            playerPickedCards := addCard m.cards.playerPickedCards playerId cardId } }
  | play (round : Round) (p : PlayInput) (now : Clock) (hr : m.currentRound = some round)
      (hs : m.state.status = .roundActive) (hactive : round.status = .active) :
      Change J m (.playCard p now) ((m.logEvent (.cardResolved (m.resolvedPayload round p)) (now 0)).applyPlay round p
        (m.eventSeqCounter + 1) now)

theorem submitAnswer_change (J : StringOps) (m : Machine) (p a : String) (ts : Time) (sid : Option String)
    (now : Clock) : Change J m (.submitAnswer p a ts sid now) (m.submitAnswer J p a ts sid now).1 := by
  unfold submitAnswer
  cases hr : m.currentRound with
  | none => exact .same _
  | some round =>
    have guarded : ∀ retry, ((retry = true ∧ (round.answers.get p).isSome ∧ m.cards.secondChancePlayers.has p) ∨
        (retry = false ∧ round.answers.get p = none)) →
        Change J m (.submitAnswer p a ts sid now) (m.submitGuarded J round p a ts sid retry now).1 := by
      intro retry hretry
      simp only [submitGuarded]
      split_ifs with h1 h2 h3
      · exact .same _
      · exact .same _
      · exact .same _
      · exact .answer round p a ts sid retry now hr (not_not.1 h1) (not_lt.1 h2) (not_not.1 h3) hretry
    simp only []
    cases ha : round.answers.get p with
    | none => exact guarded false (.inr ⟨rfl, ha⟩)
    | some existing =>
      simp only []
      split_ifs with h1 h2
      · exact .same _
      · exact guarded true (.inl ⟨rfl, by simp [ha], h2⟩)
      · exact .same _

theorem evaluateRound_change (J : StringOps) (m : Machine) (now : Clock) :
    Change J m (.evaluateRound now) (m.evaluateRound now).1 := by
  rw [evaluateRound_eq]
  cases hr : m.currentRound with
  | none => exact .same _
  | some round =>
    cases hf : m.eliminatedFrozen with
    | true => exact .evaluateStuck round now hr hf
    | false => exact .evaluated round now hr hf

theorem initTopicVoting_change (J : StringOps) (m : Machine) (c : Option (List String)) (d : Option Time)
    (now : Clock) : Change J m (.initTopicVoting c d now) (m.initTopicVoting c d now).1 := by
  have hs : (m.resetTopics (m.candidatesFor c)).state.status = m.state.status := rfl
  simp only [initTopicVoting, Machine.transition, canTransition, hs]
  by_cases h : m.state.status = .created
  · have hv : (validTransitions m.state.status).contains .topicVoting = true := by rw [h]; rfl
    rw [if_pos hv]
    exact .initVoting c d now h
  · have hv : (validTransitions m.state.status).contains .topicVoting = false := by
      cases hs : m.state.status <;> simp_all [validTransitions]
    rw [if_neg (by rw [hv]; decide)]
    exact .initRejected c d now h

theorem voteBanTopic_change (J : StringOps) (m : Machine) (p t : String) (e : Option String) (now : Clock) :
    Change J m (.voteBanTopic p t e now) (m.voteBanTopic p t e now).1 := by
  unfold voteBanTopic
  split_ifs with h1 h2 h3
  · exact .same _
  · exact .same _
  · exact .same _
  · simp only []
    split_ifs with h4
    · -- a repeated vote: the record exists already
      cases hv : m.state.topicVotes with
      | none => simp [hv, JsMap.get, JsMap.empty, getEntry] at h4
      | some votes =>
        have : ({ m with state := { m.state with topicVotes := some votes } } : Machine) = m := by
          rw [← hv]
        simp only [Option.getD_some, this]
        exact .same _
    · exact .vote _ p t e now

theorem pickOffer_change (J : StringOps) (m : Machine) (p : String) (r : ℕ) (s : String) (now : Clock) :
    Change J m (.pickOffer p r s now) (m.pickOffer p r s now).1 := by
  unfold pickOffer
  split
  · exact .same _
  · simp only []
    split
    · exact .same _
    · split_ifs with hl
      · exact .same _
      · exact .offer p r s _ now (not_not.1 hl)

theorem pickCard_change (J : StringOps) (m : Machine) (p : String) (c : CardId) (o : ℕ) (e i : Option String)
    (now : Clock) : Change J m (.pickCard p c o e i now) (m.pickCard p c o e i now).1 := by
  unfold pickCard
  split
  · exact .same _
  · rename_i hand hh
    split_ifs
    · exact .same _
    · exact .pick p c hand _ o e i now hh

/-- the sequence number `playCard` writes into its payload is the one `logEvent` allocates -/
theorem playCard_eq (m : Machine) (p : PlayInput) (now : Clock) :
    m.playCard p now =
      match m.currentRound with
      | none => (m, .error (.room .roundNotActive))
      | some round =>
        if m.state.status ≠ .roundActive ∨ round.status ≠ .active then (m, .error (.room .roundNotActive))
        else
          let payload := m.resolvedPayload round p
          ((m.logEvent (.cardResolved payload) (now 0)).applyPlay round p (m.eventSeqCounter + 1) now,
            .ok ⟨m.eventSeqCounter + 1, payload.expiresAtServer, payload.remainingMs⟩) := by
  unfold playCard
  cases m.currentRound with
  | none => rfl
  | some round =>
    simp only []
    split_ifs with h1 h2
    · rfl
    · exact absurd rfl h2
    · rfl

theorem playCard_change (J : StringOps) (m : Machine) (p : PlayInput) (now : Clock) :
    Change J m (.playCard p now) (m.playCard p now).1 := by
  rw [playCard_eq]
  cases hr : m.currentRound with
  | none => exact .same _
  | some round =>
    simp only []
    split_ifs with h1
    · exact .same _
    · simp only [not_or, not_not] at h1
      exact .play round p now hr h1.1 h1.2

theorem disconnectPlayer_change (J : StringOps) (m : Machine) (p : String) (now : Clock) :
    Change J m (.disconnectPlayer p now) (m.disconnectPlayer p now) := by
  unfold disconnectPlayer
  split
  · exact .same _
  · rename_i player hg
    split_ifs with h
    · exact .offline p player now hg
    · simp only [not_or] at h
      refine .disconnect p player now hg ?_
      cases hs : player.status <;> simp_all

theorem reconnectPlayer_change (J : StringOps) (m : Machine) (p : String) (now : Clock) :
    Change J m (.reconnectPlayer p now) (m.reconnectPlayer p now) := by
  unfold reconnectPlayer
  split
  · exact .same _
  · rename_i player hg
    split_ifs
    · exact .reconnect p player now hg
    · exact .same _

/-- **Every call makes one of the listed changes**, whether it returns or throws. -/
theorem step_change (J : StringOps) (m : Machine) (o : Op) : Change J m o (m.step J o) := by
  cases o with
  | transition target now =>
    simp only [step, exec, Outcome.wrap_fst, Machine.transition]
    split_ifs with h
    · exact .transition target now (by simpa [canTransition] using h)
    · exact .same _
  | startRound q d now =>
    simp only [step, exec, Outcome.wrap_fst, Machine.startRound]
    split_ifs with h
    · exact .same _
    · exact .startRound q d now (not_not.1 h)
  | submitAnswer p a t s now => exact submitAnswer_change J m p a t s now
  | evaluateRound now => exact evaluateRound_change J m now
  | determineWinner now => exact .winner now
  | finishMatch now => exact .finish now
  | disconnectPlayer p now => exact disconnectPlayer_change J m p now
  | reconnectPlayer p now => exact reconnectPlayer_change J m p now
  | attachCorrectAnswer key =>
    simp only [step, exec, attachCorrectAnswer]
    split
    · exact .same _
    · rename_i round hr
      split_ifs with h
      · exact .same _
      · exact .attach round key hr (not_not.1 h)
  | initTopicVoting c d now => exact initTopicVoting_change J m c d now
  | voteBanTopic p t e now => exact voteBanTopic_change J m p t e now
  | resolveTopicVoting n now => exact .resolveTopics n _ now
  | classAssignment ids s now => exact .classes ids s now
  | pickOffer p r s now => exact pickOffer_change J m p r s now
  | pickCard p c o e i now => exact pickCard_change J m p c o e i now
  | playCard input now => exact playCard_change J m input now
  | getActiveEffects p t => exact .same _
  | getAoeCountForRound n => exact .same _

/-! ## What composite operations leave alone -/

/-- the winner decision touches the log and the frozen flag only -/
theorem determineWinner_frame (m : Machine) (now : Clock) :
    (m.determineWinner now).1.state = m.state ∧ (m.determineWinner now).1.currentRound = m.currentRound ∧
      (m.determineWinner now).1.cards = m.cards := by
  unfold determineWinner
  split
  · exact ⟨rfl, rfl, rfl⟩
  · split_ifs with h
    · exact ⟨rfl, rfl, rfl⟩
    · simp only [tieBreak, h, if_false]; exact ⟨rfl, rfl, rfl⟩
  · simp only [tieBreak]
    split_ifs
    · exact ⟨rfl, rfl, rfl⟩
    · exact ⟨rfl, rfl, rfl⟩

theorem consumeChance_frame (m : Machine) (round : Round) (p : String) (retry : Bool) (now : Time) :
    (m.consumeChance round p retry now).state = m.state ∧
      (m.consumeChance round p retry now).currentRound = m.currentRound := by
  unfold consumeChance
  split_ifs <;> exact ⟨rfl, rfl⟩

theorem applyPlay_frame (m : Machine) (round : Round) (p : PlayInput) (seqNo : ℕ) (now : Clock) :
    (m.applyPlay round p seqNo now).state = m.state ∧
      (m.applyPlay round p seqNo now).currentRound = m.currentRound := by
  unfold applyPlay
  by_cases hs : p.resolvedEffect = .secondChance
  · simp only [hs, if_true]
    exact ⟨rfl, rfl⟩
  · simp only [hs, if_false]
    split_ifs <;> exact ⟨rfl, rfl⟩

theorem consumeChance_eventLog (m : Machine) (round : Round) (p : String) (retry : Bool) (now : Time) :
    (m.consumeChance round p retry now).eventLog = m.eventLog ++
      if retry then [⟨.secondChanceConsumed p round.roundNo, now, m.eventSeqCounter + 1⟩] else [] := by
  unfold consumeChance
  split_ifs
  · rfl
  · rw [List.append_nil]

theorem applyPlay_eventLog (m : Machine) (round : Round) (p : PlayInput) (seqNo : ℕ) (now : Clock) :
    (m.applyPlay round p seqNo now).eventLog = m.eventLog ++
      if p.resolvedEffect = .secondChance then
        [⟨.secondChanceGranted p.playedByPlayerId round.roundNo, now 1, m.eventSeqCounter + 1⟩]
      else [] := by
  unfold applyPlay
  by_cases hs : p.resolvedEffect = .secondChance
  · simp only [hs, if_true]
    rfl
  · simp only [hs, if_false, List.append_nil]
    split_ifs <;> rfl

/-- the entries a recorded answer appends -/
def answerEntries (m : Machine) (round : Round) (a : AnswerState) (retry : Bool) (now : Clock) : List EventLogEntry :=
  (if retry then [⟨.secondChanceConsumed a.playerId round.roundNo, now 0, m.eventSeqCounter + 1⟩] else []) ++
    [⟨.answerSubmitted a.playerId a.isCorrect a.responseTimeMs, now 1,
      (m.consumeChance round a.playerId retry (now 0)).eventSeqCounter + 1⟩]

theorem recordAnswer_eventLog (m : Machine) (round : Round) (a : AnswerState) (retry : Bool) (now : Clock) :
    (m.recordAnswer round a retry now).eventLog = m.eventLog ++ m.answerEntries round a retry now := by
  simp only [recordAnswer, logEvent_eventLog, consumeChance_eventLog, answerEntries, List.append_assoc]

/-- the entries a played card appends -/
def playEntries (m : Machine) (round : Round) (p : PlayInput) (now : Clock) : List EventLogEntry :=
  ⟨.cardResolved (m.resolvedPayload round p), now 0, m.eventSeqCounter + 1⟩ ::
    if p.resolvedEffect = .secondChance then
      [⟨.secondChanceGranted p.playedByPlayerId round.roundNo, now 1, m.eventSeqCounter + 1 + 1⟩]
    else []

theorem play_eventLog (m : Machine) (round : Round) (p : PlayInput) (n : ℕ) (now : Clock) :
    ((m.logEvent (.cardResolved (m.resolvedPayload round p)) (now 0)).applyPlay round p n now).eventLog =
      m.eventLog ++ m.playEntries round p now := by
  simp only [applyPlay_eventLog, logEvent_eventLog, logEvent_eventSeqCounter, playEntries, List.append_assoc,
    List.singleton_append]

/-! ## The event log only grows -/

/-- `m'` has the log of `m` extended by entries numbered on from its counter -/
def Appends (m m' : Machine) : Prop :=
  ∃ es : List EventLogEntry, m'.eventLog = m.eventLog ++ es ∧
    es.map EventLogEntry.seqNo = List.range' (m.eventSeqCounter + 1) es.length ∧
    m'.eventSeqCounter = m.eventSeqCounter + es.length

theorem Appends.refl (m : Machine) : Appends m m := ⟨[], by simp⟩

theorem Appends.trans {a b c : Machine} (hab : Appends a b) (hbc : Appends b c) : Appends a c := by
  obtain ⟨es, h1, h2, h3⟩ := hab
  obtain ⟨fs, k1, k2, k3⟩ := hbc
  refine ⟨es ++ fs, by rw [k1, h1, List.append_assoc], ?_, by rw [k3, h3, List.length_append, Nat.add_assoc]⟩
  rw [List.map_append, h2, k2, h3, List.length_append, ← List.range'_append_1]
  congr 2
  omega

/-- one logged event, whatever else changes -/
theorem Appends.of_log {m m' : Machine} (e : MatchEvent) (t : Time)
    (hl : m'.eventLog = m.eventLog ++ [⟨e, t, m.eventSeqCounter + 1⟩])
    (hc : m'.eventSeqCounter = m.eventSeqCounter + 1) : Appends m m' :=
  ⟨[⟨e, t, m.eventSeqCounter + 1⟩], hl, by simp, hc⟩

/-- no event logged, whatever else changes -/
theorem Appends.of_quiet {m m' : Machine} (hl : m'.eventLog = m.eventLog)
    (hc : m'.eventSeqCounter = m.eventSeqCounter) : Appends m m' := ⟨[], by simp [hl], by simp, by simp [hc]⟩

theorem enterStatus_eventLog (m : Machine) (target : MatchStatus) (now : Clock) :
    (m.enterStatus target now).eventLog = m.eventLog ∧
      (m.enterStatus target now).eventSeqCounter = m.eventSeqCounter := by
  cases target <;> exact ⟨rfl, rfl⟩

theorem determineWinner_appends (m : Machine) (now : Clock) : Appends m (m.determineWinner now).1 := by
  unfold determineWinner
  split
  · exact .refl m
  · split_ifs with h
    · exact .refl m
    · simp only [tieBreak, h, if_false]
      exact .of_log _ _ rfl rfl
  · simp only [tieBreak]
    split_ifs
    · exact .refl m
    · exact .of_log _ _ rfl rfl

theorem recordAnswer_appends (m : Machine) (round : Round) (a : AnswerState) (retry : Bool) (now : Clock) :
    Appends m (m.recordAnswer round a retry now) := by
  have h1 : Appends m (m.consumeChance round a.playerId retry (now 0)) := by
    unfold consumeChance
    split_ifs
    · exact .of_log _ _ rfl rfl
    · exact .refl m
  exact h1.trans (.of_log _ _ rfl rfl)

theorem applyPlay_appends (m : Machine) (round : Round) (p : PlayInput) (seqNo : ℕ) (now : Clock) :
    Appends m (m.applyPlay round p seqNo now) := by
  unfold applyPlay
  by_cases hs : p.resolvedEffect = .secondChance
  · simp only [hs, if_true]
    exact .of_log _ _ rfl rfl
  · simp only [hs, if_false]
    split_ifs <;> exact .of_quiet rfl rfl

/-- **A call only appends to the event log**, with the next sequence numbers. -/
theorem change_appends {J : StringOps} {m m' : Machine} {o : Op} (h : Change J m o m') : Appends m m' := by
  cases h with
  | same o => exact .refl m
  | transition target now _ =>
    have he := enterStatus_eventLog (m.logEvent (.stateTransition m.state.status target) (now 0)) target now
    exact .of_log _ _ he.1 he.2
  | startRound q d now _ => exact .of_log _ _ rfl rfl
  | answer round p a ts sid retry now _ _ _ _ _ => exact recordAnswer_appends m round _ retry now
  | evaluated round now _ _ => exact .of_log _ _ rfl rfl
  | evaluateStuck round now _ _ => exact .of_quiet rfl rfl
  | winner now => exact determineWinner_appends m now
  | finish now => exact (determineWinner_appends m now).trans (.of_log _ _ rfl rfl)
  | offline p player now _ => exact .of_quiet rfl rfl
  | disconnect p player now _ _ => exact .of_log _ _ rfl rfl
  | reconnect p player now _ => exact .of_log _ _ rfl rfl
  | attach round key _ _ => exact .of_quiet rfl rfl
  | initRejected c d now _ => exact .of_quiet rfl rfl
  | initVoting c d now _ =>
    have h1 : Appends m ((m.resetTopics (m.candidatesFor c)).logEvent
        (.stateTransition m.state.status .topicVoting) (now 0)) :=
      .of_log _ _ rfl rfl
    exact h1.trans (.of_log _ _ rfl rfl)
  | vote votes p t e now => exact .of_log _ _ rfl rfl
  | resolveTopics n r now => exact .of_log _ _ rfl rfl
  | classes ids s now => exact .of_log _ _ rfl rfl
  | offer p r s cards now _ => exact .of_log _ _ rfl rfl
  | pick p c hand r o e i now _ => exact .of_log _ _ rfl rfl
  | play round p now _ _ _ =>
    have h1 : Appends m (m.logEvent (.cardResolved (m.resolvedPayload round p)) (now 0)) := .of_log _ _ rfl rfl
    exact h1.trans (applyPlay_appends _ round p _ now)

/-- sequence numbers are the positions in the log -/
def SeqInv (m : Machine) : Prop := m.eventLog.map EventLogEntry.seqNo = List.range' 1 m.eventSeqCounter

theorem Appends.seqInv {m m' : Machine} (h : Appends m m') (hi : SeqInv m) : SeqInv m' := by
  obtain ⟨es, h1, h2, h3⟩ := h
  unfold SeqInv at *
  rw [h1, List.map_append, hi, h2, h3, ← List.range'_append_1]
  congr 2
  omega

/-! ## Quiet calls -/

/-- the log grows by entries that are no event of a round -/
def AppendsQuiet (m m' : Machine) : Prop :=
  ∃ es : List EventLogEntry, m'.eventLog = m.eventLog ++ es ∧ ∀ e ∈ es, e.event.isRoundEvent = false

theorem AppendsQuiet.refl (m : Machine) : AppendsQuiet m m := ⟨[], by simp, by simp⟩

theorem AppendsQuiet.of_eq {m m' : Machine} (h : m'.eventLog = m.eventLog) : AppendsQuiet m m' := ⟨[], by simp [h], by simp⟩

theorem AppendsQuiet.of_log {m m' : Machine} (e : EventLogEntry) (hq : e.event.isRoundEvent = false)
    (h : m'.eventLog = m.eventLog ++ [e]) : AppendsQuiet m m' := by
  refine ⟨[e], h, ?_⟩
  intro x hx
  rw [List.mem_singleton] at hx
  rw [hx]
  exact hq

theorem AppendsQuiet.trans {a b c : Machine} (h : AppendsQuiet a b) (k : AppendsQuiet b c) : AppendsQuiet a c := by
  obtain ⟨es, h1, h2⟩ := h
  obtain ⟨fs, k1, k2⟩ := k
  refine ⟨es ++ fs, by rw [k1, h1, List.append_assoc], ?_⟩
  intro e he
  rcases List.mem_append.1 he with he | he
  · exact h2 e he
  · exact k2 e he

theorem determineWinner_quiet (m : Machine) (now : Clock) : AppendsQuiet m (m.determineWinner now).1 := by
  unfold determineWinner
  split
  · exact .refl m
  · split_ifs with h
    · exact .refl m
    · simp only [tieBreak, h, if_false]
      exact .of_log _ rfl rfl
  · simp only [tieBreak]
    split_ifs
    · exact .refl m
    · exact .of_log _ rfl rfl

/-- **A quiet call logs no event of a round.** -/
theorem change_quiet {J : StringOps} {m m' : Machine} {o : Op} (h : Change J m o m') (hq : o.isQuiet = true) :
    AppendsQuiet m m' := by
  cases h with
  | same o => exact .refl m
  | transition target now _ =>
    exact .of_log _ rfl (enterStatus_eventLog (m.logEvent (.stateTransition m.state.status target) (now 0)) target now).1
  | startRound => cases hq
  | answer => cases hq
  | evaluated => cases hq
  | evaluateStuck => cases hq
  | play => cases hq
  | winner now => exact determineWinner_quiet m now
  | finish now => exact (determineWinner_quiet m now).trans (.of_log _ rfl rfl)
  | offline p player now _ => exact .of_eq rfl
  | disconnect p player now _ _ => exact .of_log _ rfl rfl
  | reconnect p player now _ => exact .of_log _ rfl rfl
  | attach round key _ _ => exact .of_eq rfl
  | initRejected c d now _ => exact .of_eq rfl
  | initVoting c d now _ =>
    have h1 : AppendsQuiet m ((m.resetTopics (m.candidatesFor c)).logEvent
        (.stateTransition m.state.status .topicVoting) (now 0)) := .of_log _ rfl rfl
    exact h1.trans (.of_log _ rfl rfl)
  | vote votes p t e now => exact .of_log _ rfl rfl
  | resolveTopics n r now => exact .of_log _ rfl rfl
  | classes ids s now => exact .of_log _ rfl rfl
  | offer p r s cards now _ => exact .of_log _ rfl rfl
  | pick p c hand r o e i now _ => exact .of_log _ rfl rfl

/-- a quiet call drops the round or leaves it but for its answer key -/
theorem change_quiet_round {J : StringOps} {m m' : Machine} {o : Op} (h : Change J m o m') (hq : o.isQuiet = true) :
    ∀ r', m'.currentRound = some r' → ∃ r, m.currentRound = some r ∧ ∃ key, r' = { r with correctAnswer := key } := by
  have keep : ∀ r', m.currentRound = some r' →
      ∃ r, m.currentRound = some r ∧ ∃ key, r' = { r with correctAnswer := key } := by
    intro r' hr'
    exact ⟨r', hr', r'.correctAnswer, rfl⟩
  cases h with
  | startRound => cases hq
  | answer => cases hq
  | evaluated => cases hq
  | evaluateStuck => cases hq
  | play => cases hq
  | transition target now _ =>
    cases target with
    | roundActive => exact fun r' hr' => nomatch hr'
    | _ => exact keep
  | winner now =>
    rw [(determineWinner_frame m now).2.1]
    exact keep
  | finish now =>
    intro r' hr'
    exact keep r' ((determineWinner_frame m now).2.1 ▸ hr')
  | attach round key hr _ =>
    intro r' hr'
    exact ⟨round, hr, some key, (Option.some.inj hr').symm⟩
  | _ => exact keep

end Machine

end Arena.GameCore
