/-
The match state machine (`match-state-machine.ts`): its data, and every public operation that writes it.

An operation takes the machine and returns the machine it leaves behind together with its result or the error it throws
(`Outcome`): a throw does not undo the writes made before it. `now i` is the clock reading `Date.now()` returns at the
i-th program point of one call; nothing relates the readings to each other.

Events are a sum type, one constructor for each `type` string with the fields of its payload. Of the objects the event
log shares with the state only one is written later: `logEvent` deep-freezes the payload, and `TIE_BREAK` carries the
live `eliminatedPlayerIds` array, after which the `push` of `evaluateRound` throws. `eliminatedFrozen` is that flag.

Reads used by the reconnect path (`getSnapshot`, `getDelta`, the deep-cloning accessors) are not modelled here.
-/
import Arena.GameCore.Engines
import Arena.GameCore.CardEngine

namespace Arena.GameCore

open Arena.Lib Arena.Shared

/-! ## Events -/

inductive Resolution where
  | temporary
  | mutation
deriving DecidableEq, Repr

structure CardResolved where
  seqNo : ℕ
  matchId : String
  roundNo : ℕ
  targetRoundNo : ℕ
  cardId : CardId
  offerSeqNo : ℕ
  playedByPlayerId : String
  targetPlayerIds : List String
  effect : CardEffect
  resolution : Resolution
  serverTimestamp : Time
  expiresAtServer : Option Time
  remainingMs : Option Time
  eventId : Option String
  commandId : Option String
deriving DecidableEq, Repr

inductive MatchEvent where
  | stateTransition (fromStatus toStatus : MatchStatus)
  | roundStarted (roundNo : ℕ) (questionId : String) (question : QuestionState) (endsAt : Time)
  | answerSubmitted (playerId : String) (isCorrect : Bool) (responseTimeMs : Time)
  | roundEvaluated (roundNo : ℕ) (correctAnswer : Option String) (survivingCount eliminatedCount : ℕ)
      (eliminatedIds : List String)
  | tieBreak (winnerId : Option String) (tiedPlayerIds : List String)
  | matchFinished (winnerId : Option String) (totalRounds : ℕ)
  | playerDisconnected (playerId : String)
  | playerReconnected (playerId : String)
  | topicVotingStarted (matchId : String) (candidateTopics : List String) (durationMs endsAt : Time)
  | topicVoteSubmitted (matchId playerId topic : String) (eventId : Option String)
  | topicVotingFinished (matchId : String) (bannedTopics activeTopics : List String) (voteCounts : JsMap String ℕ)
  | classAssigned (matchId : String) (assignments : List (String × ClassId)) (seedUsed : String)
  | cardOffer (roundNo : ℕ) (playerId : String) (offeredCardIds : List CardId) (seedUsed : String)
  | cardPicked (roundNo : ℕ) (playerId : String) (selectedCardId : CardId) (offerSeqNo : ℕ)
      (eventId commandId : Option String)
  | cardResolved (payload : CardResolved)
  | secondChanceGranted (playerId : String) (roundNo : ℕ)
  | secondChanceConsumed (playerId : String) (roundNo : ℕ)
deriving DecidableEq

structure EventLogEntry where
  event : MatchEvent
  timestamp : Time
  seqNo : ℕ
deriving DecidableEq

/-! ## State -/

/-- the in-memory round; `startingPlayers = none` is the `UNAVAILABLE` symbol of a recovered round -/
structure Round where
  matchId : String
  roundNo : ℕ
  question : QuestionState
  startedAt : Time
  endsAt : Time
  answers : JsMap String AnswerState
  status : RoundStatus
  startingPlayers : Option (List String)
  correctAnswer : Option String
deriving DecidableEq

structure ActiveEffect where
  sourceSeqNo : ℕ
  effect : CardEffect
  expiresAtServer : Time
  persistedDurationMs : Time
deriving DecidableEq, Repr

/-- the seven class and card mirrors of the event log -/
structure CardMirrors where
  playerClasses : JsMap String ClassId
  playerHands : JsMap String (List CardId)
  activeEffects : JsMap String (List ActiveEffect)
  playerPlayedCards : JsMap String (JsSet CardId)
  playerPickedCards : JsMap String (JsSet CardId)
  aoeCountByRound : JsMap ℕ ℕ
  secondChancePlayers : JsSet String
deriving DecidableEq

def CardMirrors.empty : CardMirrors :=
  ⟨JsMap.empty, JsMap.empty, JsMap.empty, JsMap.empty, JsMap.empty, JsMap.empty, JsSet.empty⟩

structure Machine where
  state : MatchState
  currentRound : Option Round
  eventLog : List EventLogEntry
  eventSeqCounter : ℕ
  cards : CardMirrors
  /-- `eliminatedPlayerIds` is the frozen array of a logged `TIE_BREAK` -/
  eliminatedFrozen : Bool
deriving DecidableEq

inductive MatchError where
  | room (code : ErrorCode)
  | invalidTransition (fromStatus toStatus : MatchStatus)
  | roundNotActive
  | noActiveRound
  | cardEngine (e : CardEngineError)
  | offerSize (n : ℕ)
  | seqNoDrift (here logEvent : ℕ)
  /-- TypeError of `push` on a frozen array -/
  | frozenArray
  /-- TypeError of `answer!.responseTimeMs` without an answer -/
  | missingAnswer
deriving DecidableEq, Repr

def MatchError.message : MatchError → String
  | .room code => code.text
  | .invalidTransition f t => "Invalid transition: " ++ f.text ++ " -> " ++ t.text
  | .roundNotActive => "Cannot start round: match is not in ROUND_ACTIVE state"
  | .noActiveRound => "No active round to evaluate"
  | .cardEngine (.tierListEmpty _) => "card-engine invariant: list empty after TIER pick"
  | .cardEngine .rngExhausted => "card-engine: generator exhausted"
  | .offerSize n => "card-engine invariant: expected 3 cards, got " ++ toString n
  | .seqNoDrift l e =>
    "match-state-machine: seqNo drift in playCard (local=" ++ toString l ++ ", logEvent=" ++ toString e ++ ")"
  | .frozenArray => "TypeError: Cannot add property, object is not extensible"
  | .missingAnswer => "TypeError: Cannot read properties of undefined (reading responseTimeMs)"

/-- the machine a call leaves behind, and its result or the error thrown -/
abbrev Outcome (α : Type) := Machine × Except MatchError α

/-- the clock readings of one call -/
abbrev Clock := ℕ → Time

/-- `new MatchStateMachine(matchId, roomId, players)` -/
def Machine.create (matchId roomId : String) (players : List PlayerInfo) : Machine where
  state :=
    { id := matchId
      roomId := roomId
      status := .created
      currentRoundNo := 0
      totalRounds := 0
      players := JsMap.ofEntries (players.map fun p => (p.id, p))
      survivingPlayerIds := players.map PlayerInfo.id
      eliminatedPlayerIds := []
      winnerId := none
      startedAt := some 0
      endedAt := none
      phaseEndsAt := none
      roundResultStartedAt := none
      candidateTopics := none
      topicVotes := none
      bannedTopics := none
      activeTopics := none }
  currentRound := none
  eventLog := []
  eventSeqCounter := 0
  cards := CardMirrors.empty
  eliminatedFrozen := false

/-- a player as the lobby hands it over -/
def freshPlayer (id : String) : PlayerInfo := ⟨id, id, .active, 0, 0, 0, true⟩

namespace Machine

/-! ## Event log -/

def logEvent (m : Machine) (event : MatchEvent) (now : Time) : Machine :=
  { m with
    eventSeqCounter := m.eventSeqCounter + 1
    eventLog := m.eventLog ++ [⟨event, now, m.eventSeqCounter + 1⟩] }

@[simp] theorem logEvent_state (m : Machine) (e : MatchEvent) (t : Time) : (m.logEvent e t).state = m.state := rfl
@[simp] theorem logEvent_currentRound (m : Machine) (e : MatchEvent) (t : Time) :
    (m.logEvent e t).currentRound = m.currentRound := rfl
@[simp] theorem logEvent_cards (m : Machine) (e : MatchEvent) (t : Time) : (m.logEvent e t).cards = m.cards := rfl
@[simp] theorem logEvent_eliminatedFrozen (m : Machine) (e : MatchEvent) (t : Time) :
    (m.logEvent e t).eliminatedFrozen = m.eliminatedFrozen := rfl
@[simp] theorem logEvent_eventSeqCounter (m : Machine) (e : MatchEvent) (t : Time) :
    (m.logEvent e t).eventSeqCounter = m.eventSeqCounter + 1 := rfl
@[simp] theorem logEvent_eventLog (m : Machine) (e : MatchEvent) (t : Time) :
    (m.logEvent e t).eventLog = m.eventLog ++ [⟨e, t, m.eventSeqCounter + 1⟩] := rfl

/-! ## Transitions -/

/-- `VALID_TRANSITIONS` -/
def validTransitions : MatchStatus → List MatchStatus
  | .created => [.countdown, .topicVoting]
  | .topicVoting => [.countdown, .finished]
  | .countdown => [.roundActive, .finished]
  | .roundActive => [.roundEvaluating, .finished]
  | .roundEvaluating => [.roundResult, .finished]
  | .roundResult => [.roundActive, .finished]
  | .finished => []

def canTransition (m : Machine) (target : MatchStatus) : Bool := (validTransitions m.state.status).contains target

/-- the timing fields written on entry of each status; entering ROUND_ACTIVE drops the previous round -/
def enterStatus (m : Machine) (target : MatchStatus) (now : Clock) : Machine :=
  match target with
  | .created => { m with state := { m.state with status := .created } }
  | .topicVoting =>
    { m with state := { m.state with
        status := .topicVoting
        startedAt := some (now 1)
        phaseEndsAt := some (now 2 + GameConfig.topicVotingDurationMs)
        roundResultStartedAt := none } }
  | .countdown =>
    { m with state := { m.state with
        status := .countdown
        startedAt := some (now 1)
        phaseEndsAt := some (now 2 + GameConfig.countdownDurationMs)
        roundResultStartedAt := none } }
  | .roundResult =>
    { m with state := { m.state with
        status := .roundResult
        roundResultStartedAt := some (now 1)
        phaseEndsAt := some (now 1 + GameConfig.resultDisplayMs) } }
  | .finished =>
    { m with state := { m.state with
        status := .finished
        endedAt := some (now 1)
        phaseEndsAt := none
        roundResultStartedAt := none } }
  | .roundEvaluating =>
    { m with state := { m.state with
        status := .roundEvaluating
        phaseEndsAt := none
        roundResultStartedAt := none } }
  | .roundActive =>
    { m with
      state := { m.state with
        status := .roundActive
        phaseEndsAt := none
        roundResultStartedAt := none }
      currentRound := none }

def transition (m : Machine) (target : MatchStatus) (now : Clock) : Outcome Unit :=
  if m.canTransition target then
    ((m.logEvent (.stateTransition m.state.status target) (now 0)).enterStatus target now, .ok ())
  else (m, .error (.invalidTransition m.state.status target))

/-! ## Rounds -/

/-- the argument of `startRound` -/
structure QuestionInput where
  id : String
  content : String
  options : List String
  correctAnswer : String
  difficulty : Option Difficulty
deriving DecidableEq, Repr

/-- the client-safe copy of the question: no correct answer, MEDIUM by default -/
def QuestionInput.client (q : QuestionInput) : QuestionState :=
  ⟨q.id, q.content, q.options, some (q.difficulty.getD .medium)⟩

/-- the round `startRound` installs -/
def newRound (m : Machine) (question : QuestionInput) (roundDurationMs : Option Time) (now : Clock) : Round where
  matchId := m.state.id
  roundNo := m.state.currentRoundNo + 1
  question := question.client
  startedAt := now 0
  endsAt := now 0 + roundDurationMs.getD GameConfig.roundDurationMs
  answers := JsMap.empty
  status := .active
  startingPlayers := some m.state.survivingPlayerIds
  correctAnswer := some question.correctAnswer

/-- the machine with the new round installed -/
def beginRound (m : Machine) (question : QuestionInput) (roundDurationMs : Option Time) (now : Clock) : Machine :=
  let round := m.newRound question roundDurationMs now
  { m with
    state := { m.state with
      currentRoundNo := m.state.currentRoundNo + 1
      totalRounds := max m.state.totalRounds (m.state.currentRoundNo + 1)
      phaseEndsAt := some round.endsAt
      roundResultStartedAt := none }
    currentRound := some round
    cards := { m.cards with secondChancePlayers := JsSet.empty } }.logEvent
    (.roundStarted round.roundNo question.id question.client round.endsAt) (now 1)

def startRound (m : Machine) (question : QuestionInput) (roundDurationMs : Option Time) (now : Clock) :
    Outcome Round :=
  if m.state.status ≠ .roundActive then (m, .error .roundNotActive)
  else (m.beginRound question roundDurationMs now, .ok (m.newRound question roundDurationMs now))

/-- the answer `submitAnswer` records -/
def newAnswer (J : StringOps) (round : Round) (playerId answer : String) (serverTimestamp : Time)
    (submissionId : Option String) : AnswerState where
  playerId := playerId
  answer := answer
  submissionId := submissionId.getD ("legacy-" ++ playerId ++ "-" ++ J.numberText serverTimestamp)
  isCorrect := isAnswerMatch J (some answer) round.correctAnswer round.question.options
  responseTimeMs := max 0 (serverTimestamp - round.startedAt)
  submittedAt := serverTimestamp

@[simp] theorem newAnswer_playerId (J : StringOps) (round : Round) (playerId answer : String) (ts : Time)
    (sid : Option String) : (newAnswer J round playerId answer ts sid).playerId = playerId := rfl

/-- the second chance of a retry is spent and logged -/
def consumeChance (m : Machine) (round : Round) (playerId : String) (isSecondChanceRetry : Bool) (now : Time) :
    Machine :=
  if isSecondChanceRetry then
    { m with cards := { m.cards with secondChancePlayers := m.cards.secondChancePlayers.delete playerId } }.logEvent
      (.secondChanceConsumed playerId round.roundNo) now
  else m

/-- what `submitAnswer` does once its guards have passed -/
def recordAnswer (m : Machine) (round : Round) (answer : AnswerState) (isSecondChanceRetry : Bool) (now : Clock) :
    Machine :=
  { m.consumeChance round answer.playerId isSecondChanceRetry (now 0) with
    currentRound := some { round with answers := round.answers.set answer.playerId answer } }.logEvent
    (.answerSubmitted answer.playerId answer.isCorrect answer.responseTimeMs) (now 1)

/-- the guards of `submitAnswer` after the duplicate check -/
def submitGuarded (J : StringOps) (m : Machine) (round : Round) (playerId answer : String) (serverTimestamp : Time)
    (submissionId : Option String) (isSecondChanceRetry : Bool) (now : Clock) : Outcome AnswerState :=
  if round.status ≠ .active then (m, .error (.room .roundNotActive))
  else if round.endsAt < serverTimestamp then (m, .error (.room .answerSubmissionClosed))
  else if (m.state.players.get playerId).map PlayerInfo.status ≠ some .active then
    (m, .error (.room .playerNotInRoom))
  else
    let answerState := newAnswer J round playerId answer serverTimestamp submissionId
    (m.recordAnswer round answerState isSecondChanceRetry now, .ok answerState)

/-- `submissionId && existingAnswer.submissionId === submissionId` -/
def isResend (existing : AnswerState) (submissionId : Option String) : Bool :=
  match submissionId with
  | some s => s ≠ "" && existing.submissionId = s
  | none => false

def submitAnswer (J : StringOps) (m : Machine) (playerId answer : String) (serverTimestamp : Time)
    (submissionId : Option String) (now : Clock) : Outcome AnswerState :=
  match m.currentRound with
  | none => (m, .error (.room .roundNotActive))
  | some round =>
    match round.answers.get playerId with
    | some existingAnswer =>
      if isResend existingAnswer submissionId then (m, .ok existingAnswer)
      else if m.cards.secondChancePlayers.has playerId then
        m.submitGuarded J round playerId answer serverTimestamp submissionId true now
      else (m, .error (.room .alreadyAnswered))
    | none => m.submitGuarded J round playerId answer serverTimestamp submissionId false now

/-- a surviving player's gain for one answer -/
def award (responseTimeMs : Time) (player : PlayerInfo) : PlayerInfo :=
  { player with
    correctAnswers := player.correctAnswers + 1
    totalResponseTimeMs := player.totalResponseTimeMs + responseTimeMs
    score := player.score + (computeRoundScore responseTimeMs).total.floor }

/-- the loop of `evaluateRound` over the starting players: the players map it leaves, and the surviving ids pushed -/
def evaluatePlayers (answers : JsMap String AnswerState) (eliminatedIds : List String) :
    List String → JsMap String PlayerInfo → List String → JsMap String PlayerInfo × Except MatchError (List String)
  | [], players, survivingIds => (players, .ok survivingIds)
  | playerId :: rest, players, survivingIds =>
    if playerId ∈ eliminatedIds then
      evaluatePlayers answers eliminatedIds rest
        (players.modify playerId fun p => { p with status := .eliminated }) survivingIds
    else
      match players.get playerId, answers.get playerId with
      | none, _ => evaluatePlayers answers eliminatedIds rest players (survivingIds ++ [playerId])
      | some _, none =>
        (players.modify playerId fun p => { p with correctAnswers := p.correctAnswers + 1 }, .error .missingAnswer)
      | some _, some answer =>
        evaluatePlayers answers eliminatedIds rest (players.modify playerId (award answer.responseTimeMs))
          (survivingIds ++ [playerId])

structure Evaluation where
  survivingIds : List String
  eliminatedIds : List String
  correctAnswer : Option String
deriving DecidableEq, Repr

def evaluateRound (m : Machine) (now : Clock) : Outcome Evaluation :=
  match m.currentRound with
  | none => (m, .error .noActiveRound)
  | some round =>
    let startingPlayers := round.startingPlayers.getD m.state.survivingPlayerIds
    let eliminatedIds := eliminationsForRound startingPlayers round.answers
    match evaluatePlayers round.answers eliminatedIds startingPlayers m.state.players [] with
    | (players, .error e) =>
      ({ m with
          state := { m.state with players := players }
          currentRound := some { round with status := .evaluating } }, .error e)
    | (players, .ok survivingIds) =>
      if m.eliminatedFrozen then
        ({ m with
            state := { m.state with players := players, survivingPlayerIds := survivingIds }
            currentRound := some { round with status := .evaluating } }, .error .frozenArray)
      else
        let m1 : Machine :=
          { m with
            state := { m.state with
              players := players
              survivingPlayerIds := survivingIds
              eliminatedPlayerIds := m.state.eliminatedPlayerIds ++ eliminatedIds }
            currentRound := some { round with status := .completed } }
        (m1.logEvent (.roundEvaluated round.roundNo round.correctAnswer survivingIds.length eliminatedIds.length
            eliminatedIds) (now 0),
          .ok ⟨survivingIds, eliminatedIds, round.correctAnswer⟩)

def shouldEndMatch (m : Machine) (maxRounds : Option ℕ) : Bool :=
  decide (m.state.survivingPlayerIds.length ≤ 1) ||
    match maxRounds with
    | some n => decide (n ≤ m.state.currentRoundNo)
    | none => false

/-! ## Winner -/

def tieBreak (m : Machine) (playerIds : List String) (now : Time) : Machine × Option String :=
  if playerIds.length = 0 then (m, none)
  else
    let winnerId := resolveTieBreak playerIds m.state.players m.state.id
    (m.logEvent (.tieBreak winnerId playerIds) now, winnerId)

def determineWinner (m : Machine) (now : Clock) : Machine × Option String :=
  match m.state.survivingPlayerIds with
  | [winner] => (m, some winner)
  | [] =>
    if m.state.eliminatedPlayerIds.length = 0 then (m, none)
    else
      let (m1, winnerId) := m.tieBreak m.state.eliminatedPlayerIds (now 0)
      ({ m1 with eliminatedFrozen := true }, winnerId)
  | survivors => m.tieBreak survivors (now 0)

/-- what `finishMatch` writes once the winner is known -/
def crown (m : Machine) (winnerId : Option String) (now : Clock) : Machine :=
  let players := match winnerId with
    | some w => m.state.players.modify w fun p => { p with status := .winner }
    | none => m.state.players
  { m with state := { m.state with players := players, winnerId := winnerId, endedAt := some (now 1) } }.logEvent
    (.matchFinished winnerId m.state.totalRounds) (now 2)

def finishMatch (m : Machine) (now : Clock) : Machine := (m.determineWinner now).1.crown (m.determineWinner now).2 now

/-! ## Connections -/

def disconnectPlayer (m : Machine) (playerId : String) (now : Clock) : Machine :=
  match m.state.players.get playerId with
  | none => m
  | some player =>
    if player.status = .eliminated ∨ player.status = .winner ∨ player.status = .disconnected then
      { m with state := { m.state with
          players := m.state.players.modify playerId fun p => { p with isOnline := false } } }
    else
      { m with state := { m.state with
          players := m.state.players.modify playerId fun p =>
            { p with isOnline := false, status := .disconnected } } }.logEvent (.playerDisconnected playerId) (now 0)

def reconnectPlayer (m : Machine) (playerId : String) (now : Clock) : Machine :=
  match m.state.players.get playerId with
  | none => m
  | some player =>
    if player.status = .disconnected ∨ player.isOnline = false then
      { m with state := { m.state with
          players := m.state.players.modify playerId fun p =>
            { p with
              isOnline := true
              status := if p.status = PlayerStatus.disconnected then .active else p.status } } }.logEvent
        (.playerReconnected playerId) (now 0)
    else m

/-- attach the answer key to a recovered ACTIVE round -/
def attachCorrectAnswer (m : Machine) (correctAnswer : String) : Machine :=
  match m.currentRound with
  | none => m
  | some round =>
    if round.status ≠ .active then m
    else { m with currentRound := some { round with correctAnswer := some correctAnswer } }

/-! ## Topic voting -/

/-- the given candidates, or the seeded selection -/
def candidatesFor (m : Machine) (candidateTopics : Option (List String)) : List String :=
  match candidateTopics with
  | some (c :: cs) => c :: cs
  | _ => selectCandidateTopics m.state.id

/-- the four fields `initTopicVoting` overwrites before its transition -/
def resetTopics (m : Machine) (candidates : List String) : Machine :=
  { m with state := { m.state with
      candidateTopics := some candidates
      topicVotes := some JsMap.empty
      bannedTopics := some []
      activeTopics := some [] } }

/-- the deadline and the event of `initTopicVoting`, after its transition -/
def openVoting (m : Machine) (candidates : List String) (duration : Time) (now : Clock) : Machine :=
  let endsAt := m.state.startedAt.getD (now 3) + duration
  { m with state := { m.state with phaseEndsAt := some endsAt } }.logEvent
    (.topicVotingStarted m.state.id candidates duration endsAt) (now 4)

def initTopicVoting (m : Machine) (candidateTopics : Option (List String)) (durationMs : Option Time) (now : Clock) :
    Outcome (List String) :=
  let candidates := m.candidatesFor candidateTopics
  let duration := durationMs.getD GameConfig.topicVotingDurationMs
  match (m.resetTopics candidates).transition .topicVoting now with
  | (m1, .error e) => (m1, .error e)
  | (m1, .ok _) => (m1.openVoting candidates duration now, .ok candidates)

/-- an optional text that is stamped on a payload only when it is not empty -/
def truthy (s : Option String) : Option String := s.filter (· ≠ "")

def voteBanTopic (m : Machine) (playerId topic : String) (eventId : Option String) (now : Clock) : Outcome Bool :=
  if m.state.status ≠ .topicVoting ∨ m.state.phaseEndsAt.any (fun e => e ≤ now 0) then
    (m, .error (.room .topicVotingClosed))
  else if (m.state.players.get playerId).map PlayerInfo.status ≠ some .active then
    (m, .error (.room .playerNotInRoom))
  else if !(m.state.candidateTopics.getD []).contains topic then (m, .error (.room .invalidTopic))
  else
    let votes := m.state.topicVotes.getD JsMap.empty
    if votes.get playerId = some topic then
      ({ m with state := { m.state with topicVotes := some votes } }, .ok true)
    else
      ({ m with state := { m.state with topicVotes := some (recordSet votes playerId topic) } }.logEvent
        (.topicVoteSubmitted m.state.id playerId topic (truthy eventId)) (now 1), .ok true)

def resolveTopicVoting (m : Machine) (bannedCount : ℕ) (now : Clock) : Machine × TopicVotingResult :=
  let result := resolveBannedTopics (m.state.candidateTopics.getD []) (m.state.topicVotes.getD JsMap.empty) m.state.id
    bannedCount
  ({ m with state := { m.state with
      bannedTopics := some result.bannedTopics
      activeTopics := some result.activeTopics } }.logEvent
    (.topicVotingFinished m.state.id result.bannedTopics result.activeTopics result.voteCounts) (now 0), result)

/-! ## Classes and cards -/

/-- add a card to a player's set of a per-player cache -/
def addCard (sets : JsMap String (JsSet CardId)) (playerId : String) (cardId : CardId) : JsMap String (JsSet CardId) :=
  sets.set playerId (((sets.get playerId).getD JsSet.empty).add cardId)

def classAssignment (m : Machine) (playerIds : List String) (seedUsed : String) (now : Clock) :
    Machine × List (String × ClassId) :=
  let assignments := assignClasses playerIds seedUsed
  let m1 := m.logEvent (.classAssigned m.state.id assignments seedUsed) (now 0)
  ({ m1 with cards := { m1.cards with
      playerClasses := assignments.foldl (fun c a => c.set a.1 a.2) m1.cards.playerClasses } }, assignments)

def getPlayedCards (m : Machine) (playerId : String) : JsSet CardId :=
  (m.cards.playerPlayedCards.get playerId).getD JsSet.empty

def pickOffer (m : Machine) (playerId : String) (roundNo : ℕ) (seedUsed : String) (now : Clock) :
    Outcome (List CardId) :=
  match m.cards.playerClasses.get playerId with
  | none => (m, .error (.room .playerNotInRoom))
  | some classId =>
    let picked := (m.cards.playerPickedCards.get playerId).getD JsSet.empty
    let played := m.getPlayedCards playerId
    let availablePool := (getClassPool classId).filter fun id => !(picked.has id || played.has id)
    match sampleOffer classId seedUsed (some availablePool) with
    | .error e => (m, .error (.cardEngine e))
    | .ok sampled =>
      if sampled.cards.length ≠ 3 then (m, .error (.offerSize sampled.cards.length))
      else
        let m1 := m.logEvent (.cardOffer roundNo playerId sampled.cards seedUsed) (now 0)
        ({ m1 with cards := { m1.cards with
            playerHands := m1.cards.playerHands.set playerId sampled.cards
            playerPickedCards := m1.cards.playerPickedCards.delete playerId } }, .ok sampled.cards)

def pickCard (m : Machine) (pickedByPlayerId : String) (cardId : CardId) (offerSeqNo : ℕ)
    (eventId commandId : Option String) (now : Clock) : Outcome Unit :=
  match m.cards.playerHands.get pickedByPlayerId with
  | none => (m, .error (.room .cardNotInHand))
  | some hand =>
    if !hand.contains cardId then (m, .error (.room .cardNotInHand))
    else
      let roundNo := (m.currentRound.map Round.roundNo).getD 0
      let m1 := m.logEvent
        (.cardPicked roundNo pickedByPlayerId cardId offerSeqNo (truthy eventId) (truthy commandId)) (now 0)
      ({ m1 with cards := { m1.cards with
          playerHands := m1.cards.playerHands.set pickedByPlayerId (hand.filter fun c => c ≠ cardId)
          playerPickedCards := addCard m1.cards.playerPickedCards pickedByPlayerId cardId } }, .ok ())

/-- `durationMs` of a temporary effect -/
def temporaryDuration : CardEffect → Option Time
  | .optionDisable _ _ _ d => some d
  | .optionFake _ d => some d
  | .optionLock d => some d
  | .visualOverlay _ d => some d
  | .semanticFlip d => some d
  | _ => none

def isTemporaryEffectKind (effect : CardEffect) : Bool := (temporaryDuration effect).isSome

def getDurationMs (effect : CardEffect) : Time := (temporaryDuration effect).getD 0

structure PlayResult where
  seqNo : ℕ
  expiresAtServer : Option Time
  remainingMs : Option Time
deriving DecidableEq, Repr

/-- the arguments of `playCard` but the clock -/
structure PlayInput where
  playedByPlayerId : String
  cardId : CardId
  offerSeqNo : ℕ
  resolvedEffect : CardEffect
  targetPlayerIds : List String
  serverNow : Time
  eventId : Option String
  commandId : Option String
deriving DecidableEq, Repr

/-- the `CARD_RESOLVED` payload -/
def resolvedPayload (m : Machine) (round : Round) (p : PlayInput) : CardResolved :=
  let isTemporary := isTemporaryEffectKind p.resolvedEffect
  let expiresAtServer := p.serverNow + getDurationMs p.resolvedEffect
  { seqNo := m.eventSeqCounter + 1
    matchId := m.state.id
    roundNo := round.roundNo
    targetRoundNo := match p.resolvedEffect with
      | .shield expiresAtRound => expiresAtRound
      | _ => round.roundNo
    cardId := p.cardId
    offerSeqNo := p.offerSeqNo
    playedByPlayerId := p.playedByPlayerId
    targetPlayerIds := p.targetPlayerIds
    effect := p.resolvedEffect
    resolution := if isTemporary then .temporary else .mutation
    serverTimestamp := p.serverNow
    expiresAtServer := if isTemporary then some expiresAtServer else none
    remainingMs := if isTemporary then some (expiresAtServer - p.serverNow) else none
    eventId := truthy p.eventId
    commandId := truthy p.commandId }

/-- append a temporary effect to a player's list -/
def pushEffect (effects : JsMap String (List ActiveEffect)) (playerId : String) (e : ActiveEffect) :
    JsMap String (List ActiveEffect) :=
  effects.set playerId ((effects.get playerId).getD [] ++ [e])

/-- one more AOE resolution in a round -/
def countAoe (counts : JsMap ℕ ℕ) (roundNo : ℕ) : JsMap ℕ ℕ := counts.set roundNo ((counts.get roundNo).getD 0 + 1)

/-- what `playCard` writes after `CARD_RESOLVED` is logged -/
def applyPlay (m : Machine) (round : Round) (p : PlayInput) (seqNo : ℕ) (now : Clock) : Machine :=
  let m1 : Machine :=
    if isTemporaryEffectKind p.resolvedEffect then
      { m with cards := { m.cards with
          activeEffects := pushEffect m.cards.activeEffects p.playedByPlayerId
            ⟨seqNo, p.resolvedEffect, p.serverNow + getDurationMs p.resolvedEffect,
              getDurationMs p.resolvedEffect⟩ } }
    else m
  let m2 : Machine :=
    if p.resolvedEffect = .secondChance then
      { m1 with cards := { m1.cards with
          secondChancePlayers := m1.cards.secondChancePlayers.add p.playedByPlayerId } }.logEvent
        (.secondChanceGranted p.playedByPlayerId round.roundNo) (now 1)
    else m1
  let aoe := if 1 < p.targetPlayerIds.length then countAoe m2.cards.aoeCountByRound round.roundNo
    else m2.cards.aoeCountByRound
  { m2 with cards := { m2.cards with
      aoeCountByRound := aoe
      playerPlayedCards := addCard m2.cards.playerPlayedCards p.playedByPlayerId p.cardId
      playerPickedCards := m2.cards.playerPickedCards.modify p.playedByPlayerId (·.delete p.cardId) } }

def playCard (m : Machine) (p : PlayInput) (now : Clock) : Outcome PlayResult :=
  match m.currentRound with
  | none => (m, .error (.room .roundNotActive))
  | some round =>
    if m.state.status ≠ .roundActive ∨ round.status ≠ .active then (m, .error (.room .roundNotActive))
    else
      let payload := m.resolvedPayload round p
      let m1 := m.logEvent (.cardResolved payload) (now 0)
      if m1.eventSeqCounter ≠ payload.seqNo then (m1, .error (.seqNoDrift payload.seqNo m1.eventSeqCounter))
      else (m1.applyPlay round p payload.seqNo now, .ok ⟨payload.seqNo, payload.expiresAtServer, payload.remainingMs⟩)

/-! ## Reads of the card state -/

def getAoeCountForRound (m : Machine) (roundNo : ℕ) : ℕ := (m.cards.aoeCountByRound.get roundNo).getD 0

structure ActiveEffectSnapshot where
  sourceSeqNo : ℕ
  effect : CardEffect
  remainingMs : Time
  persistedDurationMs : Time
  expiresAtServer : Time
deriving DecidableEq, Repr

def getActiveEffects (m : Machine) (playerId : String) (serverNow : Time) : List ActiveEffectSnapshot :=
  (((m.cards.activeEffects.get playerId).getD []).map fun e =>
    ⟨e.sourceSeqNo, e.effect, max 0 (e.expiresAtServer - serverNow), e.persistedDurationMs, e.expiresAtServer⟩).filter
    fun e => 0 < e.remainingMs

end Machine

/-! ## Calls -/

/-- one call of a public operation with its arguments and clock -/
inductive Op where
  | transition (target : MatchStatus) (now : Clock)
  | startRound (question : Machine.QuestionInput) (roundDurationMs : Option Time) (now : Clock)
  | submitAnswer (playerId answer : String) (serverTimestamp : Time) (submissionId : Option String) (now : Clock)
  | evaluateRound (now : Clock)
  | determineWinner (now : Clock)
  | finishMatch (now : Clock)
  | disconnectPlayer (playerId : String) (now : Clock)
  | reconnectPlayer (playerId : String) (now : Clock)
  | attachCorrectAnswer (correctAnswer : String)
  | initTopicVoting (candidateTopics : Option (List String)) (durationMs : Option Time) (now : Clock)
  | voteBanTopic (playerId topic : String) (eventId : Option String) (now : Clock)
  | resolveTopicVoting (bannedCount : ℕ) (now : Clock)
  | classAssignment (playerIds : List String) (seedUsed : String) (now : Clock)
  | pickOffer (playerId : String) (roundNo : ℕ) (seedUsed : String) (now : Clock)
  | pickCard (pickedByPlayerId : String) (cardId : CardId) (offerSeqNo : ℕ) (eventId commandId : Option String)
      (now : Clock)
  | playCard (input : Machine.PlayInput) (now : Clock)
  | getActiveEffects (playerId : String) (serverNow : Time)
  | getAoeCountForRound (roundNo : ℕ)

inductive Result where
  | unit
  | round (r : Round)
  | answer (a : AnswerState)
  | evaluation (e : Machine.Evaluation)
  | winner (w : Option String)
  | topics (l : List String)
  | voted (b : Bool)
  | topicResult (r : TopicVotingResult)
  | classes (l : List (String × ClassId))
  | cards (l : List CardId)
  | played (r : Machine.PlayResult)
  | effects (l : List Machine.ActiveEffectSnapshot)
  | count (n : ℕ)
deriving DecidableEq

def Outcome.wrap {α : Type} (f : α → Result) (o : Outcome α) : Outcome Result := (o.1, o.2.map f)

@[simp] theorem Outcome.wrap_fst {α : Type} (f : α → Result) (o : Outcome α) : (Outcome.wrap f o).1 = o.1 := rfl

def Machine.exec (J : StringOps) (m : Machine) : Op → Outcome Result
  | .transition target now => Outcome.wrap (fun _ => .unit) (m.transition target now)
  | .startRound q d now => Outcome.wrap .round (m.startRound q d now)
  | .submitAnswer p a t s now => Outcome.wrap .answer (m.submitAnswer J p a t s now)
  | .evaluateRound now => Outcome.wrap .evaluation (m.evaluateRound now)
  | .determineWinner now => ((m.determineWinner now).1, .ok (.winner (m.determineWinner now).2))
  | .finishMatch now => (m.finishMatch now, .ok .unit)
  | .disconnectPlayer p now => (m.disconnectPlayer p now, .ok .unit)
  | .reconnectPlayer p now => (m.reconnectPlayer p now, .ok .unit)
  | .attachCorrectAnswer a => (m.attachCorrectAnswer a, .ok .unit)
  | .initTopicVoting c d now => Outcome.wrap .topics (m.initTopicVoting c d now)
  | .voteBanTopic p t e now => Outcome.wrap .voted (m.voteBanTopic p t e now)
  | .resolveTopicVoting n now => ((m.resolveTopicVoting n now).1, .ok (.topicResult (m.resolveTopicVoting n now).2))
  | .classAssignment ids s now => ((m.classAssignment ids s now).1, .ok (.classes (m.classAssignment ids s now).2))
  | .pickOffer p r s now => Outcome.wrap .cards (m.pickOffer p r s now)
  | .pickCard p c o e i now => Outcome.wrap (fun _ => .unit) (m.pickCard p c o e i now)
  | .playCard input now => Outcome.wrap .played (m.playCard input now)
  | .getActiveEffects p t => (m, .ok (.effects (m.getActiveEffects p t)))
  | .getAoeCountForRound n => (m, .ok (.count (m.getAoeCountForRound n)))

/-- the machine after a call, whether it returned or threw -/
def Machine.step (J : StringOps) (m : Machine) (o : Op) : Machine := (m.exec J o).1

end Arena.GameCore
