/-
The client's match state and its updaters (`match.updaters.ts`, the store types, and `ReplayEventSchema`).

An updater returns the store it leaves; the `Partial<SocketState>` of the source is what differs. A store keeps the
fields that the updaters here read or write. The fold of a batch runs the live updaters on a store made of the
accumulator (`ReplayAccumulator.synthState`), whose other fields they never return to it.

A replayed event is parsed from the typed entry of the server's log: what the schema can refuse there is an empty id, a
time that is no whole number, a missing answer key, or an event type it does not list. Clock readings that an updater
ignores (`startedAt`, `finishedAt`) are left out.
-/
import Arena.Api.Lobby
import Arena.GameCore.Delta

namespace Arena.Web

open Arena.Lib Arena.Shared Arena.GameCore
open Arena.Api (RoomStatus)

/-! ## Store -/

structure Player where
  id : String
  name : String
  status : PlayerStatus
  score : ℤ
  isOnline : Bool
deriving DecidableEq

structure Room where
  status : RoomStatus
  currentMatchId : Option String
  countdownEndsAt : Option Time
  players : List Player
deriving DecidableEq

structure Match where
  id : String
  status : MatchStatus
  currentRoundNo : ℕ
  players : List Player
  currentQuestion : Option QuestionState
  roundEndTime : Option Time
deriving DecidableEq

structure LastAnswerResult where
  matchId : String
  roundNo : ℕ
  submissionId : Option String
  isCorrect : Option Bool
  responseTimeMs : Option Time
  correctAnswer : Option String
  submittedAnswer : Option String
deriving DecidableEq

structure PendingAnswer where
  matchId : String
  roundNo : ℕ
  answer : String
  submissionId : String
deriving DecidableEq

structure TopicVotingState where
  matchId : String
  candidateTopics : List String
  endsAt : Time
  durationMs : Time
  myVotedTopic : Option String
  voteCounts : JsMap String ℕ
  totalVotes : ℕ
  bannedTopics : List String
  activeTopics : List String
  isFinished : Bool
deriving DecidableEq

structure CardEffectEvent where
  matchId : String
  roundNo : ℕ
  targetRoundNo : Option ℕ
  cardId : CardId
  offerSeqNo : ℕ
  playedByPlayerId : String
  targetPlayerIds : List String
  effect : CardEffect
  serverTimestamp : Time
  expiresAtServer : Option Time
  remainingMs : Option Time
  eventId : Option String
  commandId : Option String
deriving DecidableEq

structure CardOfferState where
  matchId : String
  roundNo : ℕ
  offeredCardIds : List CardId
  offerSeqNo : ℕ
  seedUsed : String
  expiresAt : Time
deriving DecidableEq

structure CardState where
  classId : Option ClassId
  hand : List CardId
  playedCardIds : List CardId
  offerSeqNoByCardId : JsMap CardId ℕ
  currentOffer : Option CardOfferState
  lastResolvedEffect : Option CardEffectEvent
  pendingNextRoundEffects : List CardEffectEvent
  activeRoundEffects : List CardEffectEvent
  consumedEffectIds : List String
deriving DecidableEq

def createInitialCardState : CardState := ⟨none, [], [], JsMap.empty, none, none, [], [], []⟩

inductive EliminationReason where
  | wrongAnswer
  | timeout
  | afk
deriving DecidableEq

structure SocketState where
  userId : Option String
  room : Option Room
  currentMatch : Option Match
  topicVoting : Option TopicVotingState
  cardState : CardState
  lastAnswerResult : Option LastAnswerResult
  pendingAnswer : Option PendingAnswer
  remainingCount : Option ℕ
  lastSeenSeqNo : ℕ
  isEliminated : Bool
  eliminationReason : Option EliminationReason
deriving DecidableEq

namespace SocketState

/-- `state.room?.currentMatchId ?? state.match?.id ?? null` -/
def activeMatchId (s : SocketState) : Option String :=
  match s.room.bind Room.currentMatchId with
  | some id => some id
  | none => s.currentMatch.map Match.id

/-- the match, if it is the one named -/
def ownMatch (s : SocketState) (matchId : String) : Option Match := s.currentMatch.filter fun m => m.id = matchId

def basePlayers (s : SocketState) (matchId : String) : List Player :=
  match s.ownMatch matchId with
  | some m => m.players
  | none => (s.room.map Room.players).getD []

/-- `state.userId`, where the empty text counts as none -/
def localUserId (s : SocketState) : Option String := s.userId.filter (· ≠ "")

end SocketState

/-! ## Live updaters -/

structure RoundStarted where
  matchId : String
  roundNo : ℕ
  question : QuestionState
  endsAt : Time

/-- the round an effect is for: `e.targetRoundNo ?? e.roundNo + 1` -/
def CardEffectEvent.activatesIn (e : CardEffectEvent) : ℕ := e.targetRoundNo.getD (e.roundNo + 1)

def applyRoundStartedState (s : SocketState) (data : RoundStarted) : SocketState :=
  if s.activeMatchId ≠ some data.matchId then s
  else
    let pendingEffects := s.cardState.pendingNextRoundEffects
    { s with
      currentMatch := some
        { id := data.matchId
          status := .roundActive
          currentRoundNo := data.roundNo
          players := s.basePlayers data.matchId
          currentQuestion := some data.question
          roundEndTime := some data.endsAt }
      cardState :=
        { s.cardState with
          activeRoundEffects := pendingEffects.filter fun e => e.activatesIn ≤ data.roundNo
          pendingNextRoundEffects := pendingEffects.filter fun e => data.roundNo < e.activatesIn }
      topicVoting := none
      lastAnswerResult := none
      pendingAnswer := none }

structure RoundEnded where
  matchId : String
  roundNo : ℕ
  correctAnswer : String
  eliminatedPlayerIds : List String
  survivingCount : Option ℕ
  survivingPlayerIds : Option (List String)

/-- what the end of a round makes of one player -/
def RoundEnded.mark (data : RoundEnded) (player : Player) : Player :=
  if player.id ∈ data.eliminatedPlayerIds then { player with status := .eliminated }
  else
    match data.survivingPlayerIds with
    | none => player
    | some surviving =>
      if player.id ∉ surviving then { player with status := .eliminated }
      else if player.status = .eliminated then { player with status := .active }
      else player

def selfEliminatedAtRoundEnd (s : SocketState) (data : RoundEnded) (updatedPlayers : List Player) : Bool :=
  match s.localUserId with
  | none => s.isEliminated
  | some userId =>
    if userId ∈ data.eliminatedPlayerIds then true
    else if data.survivingPlayerIds.any fun surviving => userId ∈ surviving then false
    else
      match updatedPlayers.find? fun p => p.id = userId with
      | some localPlayer => localPlayer.status = .eliminated
      | none => s.isEliminated

def applyRoundEndedState (s : SocketState) (data : RoundEnded) (prior : Option LastAnswerResult) : SocketState :=
  if s.activeMatchId ≠ some data.matchId then s
  else
    let updatedPlayers := (s.basePlayers data.matchId).map data.mark
    let isEliminated := selfEliminatedAtRoundEnd s data updatedPlayers
    { s with
      currentMatch := some
        (match s.ownMatch data.matchId with
        | some m =>
          { m with id := data.matchId, players := updatedPlayers, status := .roundResult, roundEndTime := none }
        | none => ⟨data.matchId, .roundResult, data.roundNo, updatedPlayers, none, none⟩)
      lastAnswerResult := some
        { matchId := data.matchId
          roundNo := data.roundNo
          submissionId := prior.bind LastAnswerResult.submissionId
          submittedAnswer := prior.bind LastAnswerResult.submittedAnswer
          isCorrect := prior.bind LastAnswerResult.isCorrect
          responseTimeMs := prior.bind LastAnswerResult.responseTimeMs
          correctAnswer := some data.correctAnswer }
      remainingCount := data.survivingCount.or (data.survivingPlayerIds.map fun l => l.dedup.length)
      isEliminated := isEliminated
      eliminationReason := if isEliminated then s.eliminationReason else none
      pendingAnswer := s.pendingAnswer.filter fun p => !(p.matchId = data.matchId && p.roundNo = data.roundNo) }

/-- of the payload only the match id is read -/
def applyMatchFinishedState (s : SocketState) (matchId : String) : SocketState :=
  if s.activeMatchId ≠ some matchId then s
  else
    { s with
      cardState := createInitialCardState
      room := s.room.map fun r => { r with status := .finished, countdownEndsAt := none }
      currentMatch := some
        (match s.ownMatch matchId with
        | some m => { m with id := matchId, status := .finished, roundEndTime := none }
        | none => ⟨matchId, .finished, 0, (s.room.map Room.players).getD [], none, none⟩) }

/-! ## Snapshots -/

structure SnapshotPlayer where
  id : String
  name : String
  status : String
  score : ℤ
  isOnline : Option Bool
deriving DecidableEq

structure SnapshotPayload where
  matchId : String
  status : String
  currentRoundNo : ℕ
  players : List SnapshotPlayer
  currentQuestion : Option QuestionState
  roundEndTime : Option Time
  lastEventSeqNo : ℕ
  candidateTopics : Option (List String)
  voteCounts : Option (JsMap String ℕ)
  phaseEndsAt : Option Time
  bannedTopics : Option (List String)
  activeTopics : Option (List String)

def playerStatusText : PlayerStatus → String
  | .active => "ACTIVE"
  | .eliminated => "ELIMINATED"
  | .disconnected => "DISCONNECTED"
  | .winner => "WINNER"

/-- a player as the server sends it -/
def snapshotPlayer (p : PlayerInfo) : SnapshotPlayer :=
  ⟨p.id, p.name, playerStatusText p.status, p.score, some p.isOnline⟩

/-- a snapshot as the server sends it -/
def snapshotPayload (s : MatchSnapshot) : SnapshotPayload where
  matchId := s.matchId
  status := s.status.text
  currentRoundNo := s.currentRoundNo
  players := s.players.map snapshotPlayer
  currentQuestion := s.currentQuestion
  roundEndTime := s.roundEndTime
  lastEventSeqNo := s.lastEventSeqNo
  candidateTopics := s.candidateTopics
  voteCounts := s.voteCounts
  phaseEndsAt := s.phaseEndsAt
  bannedTopics := s.bannedTopics
  activeTopics := s.activeTopics

def normalizePlayerStatus (status : String) : Option PlayerStatus :=
  [.active, .eliminated, .disconnected, .winner].find? fun s => playerStatusText s = status

def normalizeMatchStatus (status : String) : Option MatchStatus :=
  [.created, .topicVoting, .countdown, .roundActive, .roundEvaluating, .roundResult, .finished].find? fun s =>
    s.text = status

def hydratePlayer (p : SnapshotPlayer) : Option Player :=
  (normalizePlayerStatus p.status).map fun status => ⟨p.id, p.name, status, p.score, p.isOnline.getD true⟩

/-- `field !== undefined ? field : known`, and no list for none -/
def topicsOr (field known : Option (List String)) : List String := (field.or known).getD []

def resolveSnapshotTopicVoting (s : SocketState) (data : SnapshotPayload) : Option TopicVotingState :=
  match normalizeMatchStatus data.status with
  | none => s.topicVoting
  | some status =>
    if status ≠ .topicVoting ∧ status ≠ .countdown then none
    else
      let known := s.topicVoting.filter fun v => v.matchId = data.matchId
      let totalVotes := (data.voteCounts.map fun counts => (counts.entries.map Prod.snd).sum).getD 0
      let fresh (myVotedTopic : Option String) (bannedTopics activeTopics : List String) : TopicVotingState :=
        { matchId := data.matchId
          candidateTopics := data.candidateTopics.getD []
          endsAt := (data.phaseEndsAt.or data.roundEndTime).getD 0
          durationMs := GameConfig.topicVotingDurationMs
          myVotedTopic := myVotedTopic
          voteCounts := data.voteCounts.getD JsMap.empty
          totalVotes := totalVotes
          bannedTopics := bannedTopics
          activeTopics := activeTopics
          isFinished := decide (status ≠ .topicVoting) }
      if data.candidateTopics.any fun l => l ≠ [] then
        some (fresh (known.bind TopicVotingState.myVotedTopic)
          (topicsOr data.bannedTopics (known.map TopicVotingState.bannedTopics))
          (topicsOr data.activeTopics (known.map TopicVotingState.activeTopics)))
      else
        match known with
        | some v =>
          some { v with
            bannedTopics := topicsOr data.bannedTopics (some v.bannedTopics)
            activeTopics := topicsOr data.activeTopics (some v.activeTopics)
            isFinished := if status ≠ .topicVoting then true else v.isFinished }
        | none =>
          if (data.bannedTopics.any fun l => l ≠ []) || (data.activeTopics.any fun l => l ≠ []) then
            some (fresh none (data.bannedTopics.getD []) (data.activeTopics.getD []))
          else none

/-- a snapshot with a status it does not know is dropped -/
def applySnapshotState (s : SocketState) (data : SnapshotPayload) : SocketState :=
  match normalizeMatchStatus data.status, data.players.mapM hydratePlayer with
  | some status, some players =>
    { s with
      room := s.room.map fun r =>
        { r with status := .inGame, currentMatchId := some data.matchId, countdownEndsAt := none }
      currentMatch := some ⟨data.matchId, status, data.currentRoundNo, players, data.currentQuestion, data.roundEndTime⟩
      isEliminated :=
        match s.localUserId with
        | some userId => (players.find? fun p => p.id = userId).any fun p => p.status = .eliminated
        | none => false
      eliminationReason := none
      remainingCount := none
      lastAnswerResult := none
      pendingAnswer := none
      lastSeenSeqNo := data.lastEventSeqNo
      topicVoting := resolveSnapshotTopicVoting s data }
  | _, _ => s

/-! ## Batches -/

/-- the events of `ReplayEventSchema` -/
inductive ReplayEvent where
  | stateTransition (fromStatus toStatus : MatchStatus)
  | roundStarted (roundNo : ℕ) (questionId : String) (question : QuestionState) (endsAt : Time)
  | answerSubmitted (playerId : String) (isCorrect : Bool) (responseTimeMs : Time)
  | roundEvaluated (roundNo : ℕ) (correctAnswer : String) (survivingCount eliminatedCount : ℕ)
      (eliminatedIds : List String)
  | tieBreak (winnerId : Option String) (tiedPlayerIds : List String)
  | matchFinished (winnerId : Option String) (totalRounds : ℕ)
  | playerDisconnected (playerId : String)
  | playerReconnected (playerId : String)
deriving DecidableEq

/-- `z.number().int().nonnegative()` -/
def isWholeTime (t : Time) : Bool := t.isInt && decide (0 ≤ t)

/-- `z.string().min(1).nullable()` -/
def isIdOrNull (id : Option String) : Bool := id.all fun s => s ≠ ""

/-- `ReplayEventSchema.safeParse` -/
def parseReplayEvent : MatchEvent → Option ReplayEvent
  | .stateTransition source target => some (.stateTransition source target)
  | .roundStarted roundNo questionId question endsAt =>
    if 0 < roundNo && questionId ≠ "" && question.id ≠ "" && isWholeTime endsAt then
      some (.roundStarted roundNo questionId question endsAt)
    else none
  | .answerSubmitted playerId isCorrect responseTimeMs =>
    if playerId ≠ "" && isWholeTime responseTimeMs then some (.answerSubmitted playerId isCorrect responseTimeMs)
    else none
  | .roundEvaluated roundNo correctAnswer survivingCount eliminatedCount eliminatedIds =>
    if 0 < roundNo then
      correctAnswer.map fun key => .roundEvaluated roundNo key survivingCount eliminatedCount eliminatedIds
    else none
  | .tieBreak winnerId tiedPlayerIds => if isIdOrNull winnerId then some (.tieBreak winnerId tiedPlayerIds) else none
  | .matchFinished winnerId totalRounds =>
    if isIdOrNull winnerId then some (.matchFinished winnerId totalRounds) else none
  | .playerDisconnected playerId => if playerId ≠ "" then some (.playerDisconnected playerId) else none
  | .playerReconnected playerId => if playerId ≠ "" then some (.playerReconnected playerId) else none
  | _ => none

structure ReplayAccumulator where
  currentMatch : Match
  room : Option Room
  remainingCount : Option ℕ
  lastAnswerResult : Option LastAnswerResult
  pendingAnswer : Option PendingAnswer
  topicVoting : Option TopicVotingState
  cardState : CardState
deriving DecidableEq

namespace ReplayAccumulator

/-- the store the live updaters run on -/
def synthState (acc : ReplayAccumulator) : SocketState where
  userId := none
  room := acc.room
  currentMatch := some acc.currentMatch
  topicVoting := acc.topicVoting
  cardState := acc.cardState
  lastAnswerResult := acc.lastAnswerResult
  pendingAnswer := acc.pendingAnswer
  remainingCount := acc.remainingCount
  lastSeenSeqNo := 0
  isEliminated := false
  eliminationReason := none

def mergeAccumulator (acc : ReplayAccumulator) (res : SocketState) : ReplayAccumulator where
  currentMatch := res.currentMatch.getD acc.currentMatch
  room := res.room
  remainingCount := res.remainingCount
  lastAnswerResult := res.lastAnswerResult
  pendingAnswer := res.pendingAnswer
  topicVoting := res.topicVoting
  cardState := res.cardState

def foldReplayEvent (acc : ReplayAccumulator) (matchId : String) : ReplayEvent → ReplayAccumulator
  | .stateTransition _ target => { acc with currentMatch := { acc.currentMatch with status := target } }
  | .roundStarted roundNo _ question endsAt =>
    acc.mergeAccumulator (applyRoundStartedState acc.synthState ⟨matchId, roundNo, question, endsAt⟩)
  | .roundEvaluated roundNo correctAnswer survivingCount _ eliminatedIds =>
    acc.mergeAccumulator (applyRoundEndedState acc.synthState
      ⟨matchId, roundNo, correctAnswer, eliminatedIds, some survivingCount, none⟩ acc.lastAnswerResult)
  | .matchFinished _ _ => acc.mergeAccumulator (applyMatchFinishedState acc.synthState matchId)
  | _ => acc

/-- the accumulator of a store whose match is `m` -/
def ofState (s : SocketState) (m : Match) : ReplayAccumulator :=
  ⟨m, s.room, s.remainingCount, s.lastAnswerResult, s.pendingAnswer, s.topicVoting, s.cardState⟩

end ReplayAccumulator

/-- one event of a batch: what the cursor has passed, and what does not parse, is skipped -/
def foldBatchEvent (matchId : String) (current : ReplayAccumulator × ℕ) (rawEvent : DeltaEvent) :
    ReplayAccumulator × ℕ :=
  if rawEvent.seqNo ≤ current.2 then current
  else
    match parseReplayEvent rawEvent.event with
    | some event => (current.1.foldReplayEvent matchId event, rawEvent.seqNo)
    | none => (current.1, rawEvent.seqNo)

def computeIsEliminated (userId : Option String) (m : Match) (fallback : Bool) : Bool :=
  match userId with
  | none => fallback
  | some id =>
    match m.players.find? fun p => p.id = id with
    | none => fallback
    | some player => player.status = .eliminated

/-- the store after a batch: `{ ...current, isEliminated, lastSeenSeqNo }` -/
def SocketState.replayed (s : SocketState) (current : ReplayAccumulator) (cursor : ℕ) : SocketState :=
  { s with
    currentMatch := some current.currentMatch
    room := current.room
    remainingCount := current.remainingCount
    lastAnswerResult := current.lastAnswerResult
    pendingAnswer := current.pendingAnswer
    topicVoting := current.topicVoting
    cardState := current.cardState
    isEliminated := computeIsEliminated s.localUserId current.currentMatch s.isEliminated
    lastSeenSeqNo := cursor }

def applyEventBatchState (s : SocketState) (matchId : String) (events : List DeltaEvent) : SocketState :=
  -- an empty match id counts as none
  if matchId = "" ∨ s.activeMatchId ≠ some matchId then s
  else
    match s.currentMatch with
    | none => s
    | some m =>
      if m.id ≠ matchId then s
      else
        let last := events.foldl (foldBatchEvent matchId) (.ofState s m, s.lastSeenSeqNo)
        s.replayed last.1 last.2

end Arena.Web
