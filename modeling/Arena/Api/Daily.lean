/-
The daily challenge (`daily.service.ts`): date keys, and `submit` up to the row it commits.

Instants are milliseconds since the epoch. `submit` runs in two steps. The first one checks the session token, loads the
question set the token pins, grades the answers and reads yesterday's row; it ends in the row to be created
(`prepareAttempt`). The second one creates it: `@@unique([dateKey, userId])` lets the first of two rows of a day in and
refuses the other. Any number of submits of any users may stand between their two steps (`DailyStore`).

The token is taken as `verifyDailySession` leaves it. `Date.parse` is read on the form `previousDateKey` builds; the
unlock of card variants that follows the commit is not part of this module.
-/
import Arena.GameCore.Engines
import Arena.Lib.Calendar
import Arena.Lib.Run

namespace Arena.Api

open Arena.Lib Arena.Shared Arena.GameCore

/-! ## Dates -/

def msPerDay : ℤ := 24 * 60 * 60 * 1000

/-- `new Date(t).toISOString()` -/
def toISOString (t : ℤ) : List Char :=
  let ms := (t % msPerDay).toNat
  formatDate (ofDay (t / msPerDay)) ++ 'T' :: digitsOf 2 (ms / 3600000) ++ ':' :: digitsOf 2 (ms / 60000 % 60) ++
    ':' :: digitsOf 2 (ms / 1000 % 60) ++ '.' :: digitsOf 3 (ms % 1000) ++ ['Z']

/-- `toISOString().slice(0, 10)` -/
def toDateKey (t : ℤ) : String := String.ofList ((toISOString t).take 10)

/-- `Date.parse` of a date followed by midnight -/
def dateParse (cs : List Char) : Option ℤ :=
  if cs.drop 10 = "T00:00:00.000Z".toList then (parseDate (cs.take 10)).map (· * msPerDay) else none

/-- the key of the day before; `none` is the RangeError of an invalid date -/
def previousDateKey (dateKey : String) : Option String :=
  (dateParse (dateKey.toList ++ "T00:00:00.000Z".toList)).map fun parsed => toDateKey (parsed - msPerDay)

/-! ## Question sets and sessions -/

structure StoredDailyQuestion where
  correctAnswer : String
  explanation : Option String
deriving DecidableEq, Repr

/-- a `daily_questions` row; `questions = none` is JSON the schema refuses -/
structure DailyQuestion where
  id : String
  version : ℕ
  dateKey : String
  questions : Option (List StoredDailyQuestion)
deriving DecidableEq, Repr

structure DailySessionClaims where
  sub : String
  dateKey : String
  dailyQuestionId : String
  startedAtMs : Option ℤ
deriving DecidableEq, Repr

/-- what `verifySessionToken` makes of the token -/
inductive SessionToken where
  | invalid
  | malformed
  | claims (c : DailySessionClaims)
deriving DecidableEq, Repr

inductive DailyError where
  | invalidToken
  | malformedToken
  | differentDay
  | differentUser
  | noChallenge
  | unavailable (dateKey : String)
  | answerCount (expected received : ℕ)
  | invalidTime
  | alreadySubmitted (dateKey : String)
deriving DecidableEq, Repr

def DailyError.message : DailyError → String
  | .invalidToken => "Invalid or expired session token"
  | .malformedToken => "Malformed session token"
  | .differentDay => "Session token was issued for a different day"
  | .differentUser => "Session token was issued for a different user"
  | .noChallenge => "Session token does not match an available daily challenge"
  | .unavailable dateKey => "Daily challenge for " ++ dateKey ++ " is unavailable"
  | .answerCount expected received =>
    "Expected " ++ toString expected ++ " answers, received " ++ toString received
  | .invalidTime => "Invalid time value"
  | .alreadySubmitted dateKey => "Daily challenge for " ++ dateKey ++ " has already been submitted"

/-! ## Attempts -/

structure AttemptAnswer where
  answer : String
  isCorrect : Bool
  responseTimeMs : Time
deriving DecidableEq, Repr

/-- a `daily_attempts` row -/
structure DailyAttempt where
  dateKey : String
  userId : String
  dailyQuestionId : String
  answers : List AttemptAnswer
  score : ℤ
  correctCount : ℕ
  elapsedMs : Option ℤ
  streakBefore : ℕ
  streakAfter : ℕ
deriving DecidableEq, Repr

def DailyAttempt.allCorrect (a : DailyAttempt) : Bool := a.answers.all AttemptAnswer.isCorrect

structure DailySubmitInput where
  sessionToken : SessionToken
  /-- answer and response time of each question -/
  answers : List (String × Time)
deriving DecidableEq, Repr

def dailyAnswerCorrect (J : StringOps) (question : StoredDailyQuestion) (answer : String) : Bool :=
  J.toLowerCase (jsTrim answer) = J.toLowerCase (jsTrim question.correctAnswer)

def gradeDaily (J : StringOps) (questions : List StoredDailyQuestion) (answers : List (String × Time)) :
    List AttemptAnswer :=
  (questions.zip answers).map fun qa => ⟨qa.2.1, dailyAnswerCorrect J qa.1 qa.2.1, qa.2.2⟩

def computeDailyScore (correctCount : ℕ) (elapsedMs : Option ℤ) (allCorrect : Bool) (streakAfter : ℕ) : ℤ :=
  let answerScore : ℤ := correctCount * 100
  let speedBonus : ℤ :=
    match elapsedMs with
    | some elapsed => if 0 < correctCount then max 0 (75000 - max 0 elapsed) / 100 else 0
    | none => 0
  if allCorrect then answerScore + speedBonus + min (streakAfter * 50 : ℤ) 500 else answerScore + speedBonus

/-- the row of a user and day -/
def findAttempt (rows : List DailyAttempt) (dateKey userId : String) : Option DailyAttempt :=
  rows.find? fun r => r.dateKey = dateKey ∧ r.userId = userId

/-- `resolveStreakBefore` -/
def resolveStreakBefore (rows : List DailyAttempt) (userId dateKey : String) : Option ℕ :=
  (previousDateKey dateKey).map fun previous =>
    match findAttempt rows previous userId with
    | some row => row.streakAfter
    | none => 0

/-- `loadQuestionSetById` -/
def loadQuestionSetById (sets : List DailyQuestion) (dateKey id : String) :
    Except DailyError (DailyQuestion × List StoredDailyQuestion) :=
  match sets.find? (fun r => r.id = id) with
  | none => .error .noChallenge
  | some record =>
    if record.dateKey ≠ dateKey then .error .noChallenge
    else
      match record.questions with
      | none => .error (.unavailable dateKey)
      | some questions => .ok (record, questions)

/-- the row that a graded submission asks for -/
def attemptRow (userId dateKey : String) (record : DailyQuestion) (results : List AttemptAnswer) (questionCount : ℕ)
    (elapsedMs : Option ℤ) (streakBefore : ℕ) : DailyAttempt :=
  let correctCount := results.countP AttemptAnswer.isCorrect
  let allCorrect := correctCount = questionCount
  let streakAfter := if allCorrect then streakBefore + 1 else 0
  { dateKey := dateKey
    userId := userId
    dailyQuestionId := record.id
    answers := results
    score := computeDailyScore correctCount elapsedMs allCorrect streakAfter
    correctCount := correctCount
    elapsedMs := elapsedMs
    streakBefore := streakBefore
    streakAfter := streakAfter }

/-- `submit` up to the row it asks for -/
def prepareAttempt (J : StringOps) (rows : List DailyAttempt) (sets : List DailyQuestion) (userId : String) (now : ℤ)
    (input : DailySubmitInput) : Except DailyError DailyAttempt :=
  let dateKey := toDateKey now
  match input.sessionToken with
  | .invalid => .error .invalidToken
  | .malformed => .error .malformedToken
  | .claims claims =>
    if claims.dateKey ≠ dateKey then .error .differentDay
    else if claims.sub ≠ "anon" ∧ claims.sub ≠ userId then .error .differentUser
    else
      match loadQuestionSetById sets dateKey claims.dailyQuestionId with
      | .error e => .error e
      | .ok (record, questions) =>
        let elapsedMs := claims.startedAtMs.map fun startedAtMs => max 0 (now - startedAtMs)
        if input.answers.length ≠ questions.length then
          .error (.answerCount questions.length input.answers.length)
        else
          match resolveStreakBefore rows userId dateKey with
          | none => .error .invalidTime
          | some streakBefore =>
            .ok (attemptRow userId dateKey record (gradeDaily J questions input.answers) questions.length elapsedMs
              streakBefore)

/-! ## Submits in flight -/

/-- the rows of the table, and the rows that submits are about to create -/
structure DailyStore where
  rows : List DailyAttempt
  inFlight : List DailyAttempt
deriving DecidableEq, Repr

/-- `dailyAttempt.create` -/
def createAttempt (rows : List DailyAttempt) (row : DailyAttempt) : Except DailyError (List DailyAttempt) :=
  if (findAttempt rows row.dateKey row.userId).isSome then .error (.alreadySubmitted row.dateKey)
  else .ok (rows ++ [row])

inductive DailyOp where
  /-- a submit up to its row -/
  | submit (sets : List DailyQuestion) (userId : String) (now : ℤ) (input : DailySubmitInput)
  /-- the transaction of the `i`-th submit in flight -/
  | create (i : ℕ)
  /-- its transaction fails -/
  | fail (i : ℕ)

namespace DailyStore

def init : DailyStore := ⟨[], []⟩

def step (J : StringOps) (s : DailyStore) : DailyOp → DailyStore
  | .submit sets userId now input =>
    match prepareAttempt J s.rows sets userId now input with
    | .ok row => { s with inFlight := s.inFlight ++ [row] }
    | .error _ => s
  | .create i =>
    match s.inFlight[i]? with
    | none => s
    | some row =>
      match createAttempt s.rows row with
      | .ok rows => ⟨rows, s.inFlight.eraseIdx i⟩
      | .error _ => { s with inFlight := s.inFlight.eraseIdx i }
  | .fail i => { s with inFlight := s.inFlight.eraseIdx i }

end DailyStore

end Arena.Api
