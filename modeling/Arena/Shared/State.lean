/-
The shared data model of the match server (`packages/shared/src`: `state.ts`, `game-config.ts`, `error-codes.ts`).

Numbers. JavaScript numbers that measure time (clock readings, deadlines, response times) are exact rationals: every
finite double is one, and the arithmetic on them is exact here. Counters and positions are naturals. `null` is `none`;
an optional field that is `undefined` is `none` too, and the two never occur on one field of this model.

The records keep the fields of the source. `topicVotes` is a plain object of the source, not a `Map`: `recordSet`
writes one key of it.
-/
import Arena.Lib.JsMap

namespace Arena.Shared

open Arena.Lib

abbrev Time := ℚ

/-! ## Configuration (`GAME_CONFIG`) -/

namespace GameConfig

def roundDurationMs : Time := 15000
def countdownDurationMs : Time := 5000
def resultDisplayMs : Time := 3000
def maxRounds : ℕ := 50
def scoreBaseCorrect : ℚ := 100
def scoreSpeedBonusWindowMs : Time := 10000
def scoreSpeedBonusDivisor : ℚ := 200
def topicVotingDurationMs : Time := 10000
def topicVotingBannedCount : ℕ := 2
def topicVotingCandidatePool : List String :=
  ["SCIENCE", "HISTORY", "GEOGRAPHY", "TECHNOLOGY", "SPORTS", "CULTURE", "LOGIC"]

end GameConfig

def answerCodes : List String := ["A", "B", "C", "D"]

/-! ## Statuses -/

inductive MatchStatus where
  | created
  | topicVoting
  | countdown
  | roundActive
  | roundEvaluating
  | roundResult
  | finished
deriving DecidableEq, Repr

def MatchStatus.text : MatchStatus → String
  | .created => "CREATED"
  | .topicVoting => "TOPIC_VOTING"
  | .countdown => "COUNTDOWN"
  | .roundActive => "ROUND_ACTIVE"
  | .roundEvaluating => "ROUND_EVALUATING"
  | .roundResult => "ROUND_RESULT"
  | .finished => "FINISHED"

inductive PlayerStatus where
  | active
  | eliminated
  | disconnected
  | winner
deriving DecidableEq, Repr

inductive RoundStatus where
  | pending
  | active
  | evaluating
  | completed
deriving DecidableEq, Repr

inductive Difficulty where
  | easy
  | medium
  | hard
deriving DecidableEq, Repr

/-! ## Records -/

structure PlayerInfo where
  id : String
  name : String
  status : PlayerStatus
  score : ℤ
  totalResponseTimeMs : Time
  correctAnswers : ℕ
  isOnline : Bool
deriving DecidableEq, Repr

/-- the client-safe question: no correct answer -/
structure QuestionState where
  id : String
  content : String
  options : List String
  difficulty : Option Difficulty
deriving DecidableEq, Repr

structure AnswerState where
  playerId : String
  answer : String
  submissionId : String
  isCorrect : Bool
  responseTimeMs : Time
  submittedAt : Time
deriving DecidableEq, Repr

structure MatchState where
  id : String
  roomId : String
  status : MatchStatus
  currentRoundNo : ℕ
  totalRounds : ℕ
  players : JsMap String PlayerInfo
  survivingPlayerIds : List String
  eliminatedPlayerIds : List String
  winnerId : Option String
  startedAt : Option Time
  endedAt : Option Time
  phaseEndsAt : Option Time
  roundResultStartedAt : Option Time
  candidateTopics : Option (List String)
  topicVotes : Option (JsMap String String)
  bannedTopics : Option (List String)
  activeTopics : Option (List String)
deriving DecidableEq

/-- assignment `record[key] = value` of a string to a plain object: the key `__proto__` names the prototype setter, which
ignores a string, so that assignment stores nothing -/
def recordSet (r : JsMap String String) (key value : String) : JsMap String String :=
  if key = "__proto__" then r else r.set key value

/-! ## Errors -/

/-- the members of `ErrorCode` the match state machine raises as a `RoomError` -/
inductive ErrorCode where
  | playerNotInRoom
  | roundNotActive
  | alreadyAnswered
  | answerSubmissionClosed
  | cardNotInHand
  | topicVotingClosed
  | invalidTopic
deriving DecidableEq, Repr

def ErrorCode.text : ErrorCode → String
  | .playerNotInRoom => "PLAYER_NOT_IN_ROOM"
  | .roundNotActive => "ROUND_NOT_ACTIVE"
  | .alreadyAnswered => "ALREADY_ANSWERED"
  | .answerSubmissionClosed => "ANSWER_SUBMISSION_CLOSED"
  | .cardNotInHand => "CARD_NOT_IN_HAND"
  | .topicVotingClosed => "TOPIC_VOTING_CLOSED"
  | .invalidTopic => "INVALID_TOPIC"

end Arena.Shared
