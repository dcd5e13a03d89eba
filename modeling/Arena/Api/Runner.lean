/-
The game loop of one match on its owning node (`match-round-runner.ts`, `match-timer.registry.ts`).

A call that suspends is a `Task`, named by the `await` it waits at; `resume` runs one task up to its next `await`. Timers
fire at any time from their deadline on, tasks resume in any order, and commands come in between: a run is a list of
such steps, so a result over every run is a result over every interleaving at the awaits. A synchronous stretch takes
no time, and the clock of the node never goes back.

The node owns the match throughout: `assertOwnership` answers true. A question fetch or a database write may fail, and a
persist of the loop may be refused (RETRY, BLIND) or throw. Player commands and the callbacks of bots reach the machine
as a command at any time, with their own persist APPLIED. The match's machine is one object: it leaves the cache when
the finished match is stored, and calls that hold it keep it; the voting callback, which evicts and rolls back, leaves
the decoded blob it started from in its place.

`forRound` and `roundNo` in timers and tasks are the round a callback was issued for. The source keeps no such number.
-/
import Arena.Api.Cluster

namespace Arena.Api

open Arena.Lib Arena.Shared Arena.GameCore

/-! ## State -/

/-- the callback of a phase timer -/
inductive TimerKind where
  | topicVoting
  | countdown
  | roundEnd (forRound : ℕ)
  | matchEndCheck (forRound : ℕ)
deriving DecidableEq

structure Timer where
  kind : TimerKind
  due : Time
deriving DecidableEq

/-- a suspended call, by the `await` it waits at -/
inductive Task where
  /-- the room of a launch is being read and updated -/
  | startMatchLoop (isAllCategory : Bool)
  | startPersist (isAllCategory : Bool)
  | votingAssert
  | votingGet
  /-- with the machine it would roll back to -/
  | votingPersist (serialized : Machine)
  | countdownGet
  | executeAssert
  | executeGet
  /-- `getRandom`, with the machine in ROUND_ACTIVE and no round yet -/
  | executeQuestion
  | executePersist (roundNo : ℕ)
  | earlyGet
  | endAssert (forRound : ℕ)
  /-- from here on the call holds the round-end guard -/
  | endGet (forRound : ℕ)
  | endEvaluated (roundNo : ℕ)
  | endRecover (roundNo : ℕ)
  | endSave (roundNo : ℕ)
  | endPersist (roundNo : ℕ)
  | endResult (roundNo : ℕ)
  | checkAssert (forRound : ℕ)
  | checkGet (forRound : ℕ)
  | finishAssert (forRound : ℕ)
  | finishGet (forRound : ℕ)
  | finishPersist
  | finishDb
  | finishRelease
deriving DecidableEq

/-- the task waits for a persist of the loop -/
def Task.isPersist : Task → Bool
  | .startPersist _ => true
  | .votingPersist _ => true
  | .executePersist _ => true
  | .endEvaluated _ => true
  | .endPersist _ => true
  | .endResult _ => true
  | .finishPersist => true
  | _ => false

structure Runner where
  machine : Machine
  /-- `stateMachines` holds the match -/
  cached : Bool
  clock : Time
  timers : List Timer
  expectedAnswers : Option ℕ
  /-- `endingRounds` holds the match -/
  endingRound : Bool
  /-- `finishingMatches` holds the match -/
  finishing : Bool
  tasks : List Task
deriving DecidableEq

namespace Runner

/-- the runtime of a node that has just taken the match -/
def adopt (m : Machine) (clock : Time) : Runner := ⟨m, true, clock, [], none, false, false, []⟩

/-- every reading of a synchronous stretch -/
def now (s : Runner) : Clock := fun _ => s.clock

def await (s : Runner) (t : Task) : Runner := { s with tasks := s.tasks ++ [t] }

/-! ## Timer registry -/

def armPhaseTimer (s : Runner) (kind : TimerKind) (remaining : Time) : Runner :=
  { s with timers := s.timers ++ [⟨kind, s.clock + remaining⟩] }

/-- `clearTimeout` does not cancel a callback that is already queued -/
def clearTimers (s : Runner) : Runner := { s with timers := s.timers.filter fun t => t.due ≤ s.clock }

def getExpectedAnswers (s : Runner) : ℕ := s.expectedAnswers.getD 0

def endEndRound (s : Runner) : Runner := { s with endingRound := false }

def endFinish (s : Runner) : Runner := { s with finishing := false }

def disposeMatch (s : Runner) : Runner := { s.clearTimers with expectedAnswers := none }

/-! ## Deadlines of a resumed phase -/

def resolvePhaseDeadline (m : Machine) (status : MatchStatus) : Option Time :=
  match m.state.phaseEndsAt with
  | some deadline => some deadline
  | none =>
    match status with
    | .roundActive => m.currentRound.map Round.endsAt
    | .topicVoting => m.state.startedAt.map (· + GameConfig.topicVotingDurationMs)
    | .countdown => m.state.startedAt.map (· + GameConfig.countdownDurationMs)
    | .roundResult => m.state.roundResultStartedAt.map (· + GameConfig.resultDisplayMs)
    | _ => none

def resumePhaseRemaining (s : Runner) (status : MatchStatus) (phaseMax : Time) : Time :=
  match resolvePhaseDeadline s.machine status with
  | none => 0
  | some deadline => min (max (deadline - s.clock) 0) phaseMax

/-! ## Calls, up to their first await -/

def executeRound (s : Runner) : Runner := s.await .executeAssert

def endRound (s : Runner) (forRound : ℕ) : Runner := s.await (.endAssert forRound)

def scheduleMatchEndCheck (s : Runner) (forRound : ℕ) : Runner :=
  s.armPhaseTimer (.matchEndCheck forRound) GameConfig.resultDisplayMs

/-- a second caller is a no-op -/
def finishMatchLoop (s : Runner) (forRound : ℕ) : Runner :=
  if s.finishing then s else { s with finishing := true }.await (.finishAssert forRound)

/-- backs off while a round end is in flight -/
def checkEarlyTermination (s : Runner) : Runner := if s.endingRound then s else s.await .earlyGet

def resumeMatchLoop (s : Runner) : Runner :=
  match s.machine.state.status with
  | .topicVoting =>
    s.armPhaseTimer .topicVoting (s.resumePhaseRemaining .topicVoting GameConfig.topicVotingDurationMs)
  | .countdown => s.armPhaseTimer .countdown (s.resumePhaseRemaining .countdown GameConfig.countdownDurationMs)
  | .roundActive =>
    { s with expectedAnswers := some s.machine.state.survivingPlayerIds.length }.armPhaseTimer
      (.roundEnd s.machine.state.currentRoundNo) (s.resumePhaseRemaining .roundActive GameConfig.roundDurationMs)
  | .roundEvaluating => s.endRound s.machine.state.currentRoundNo
  | .roundResult =>
    s.armPhaseTimer (.matchEndCheck s.machine.state.currentRoundNo)
      (s.resumePhaseRemaining .roundResult GameConfig.resultDisplayMs)
  | .finished => s.disposeMatch
  | .created => s.disposeMatch

/-! ## Stretches between awaits -/

/-- the result of an awaited call; a persist that is APPLIED is `done` -/
inductive Reply where
  | done
  | question (q : Machine.QuestionInput)
  /-- the call throws -/
  | failed
  /-- the persist returns RETRY or BLIND -/
  | notApplied

def Reply.applied : Reply → Bool
  | .failed => false
  | .notApplied => false
  | _ => true

/-- after a call of the machine: a throw leaves through `throws`, a return waits at `t` -/
def awaitAfter {α : Type} (s : Runner) (result : Outcome α) (t : α → Task) (throws : Runner → Runner) : Runner :=
  match result with
  | (m, .error _) => throws { s with machine := m }
  | (m, .ok a) => { s with machine := m }.await (t a)

/-- the voting path, or straight into the countdown -/
def startLook (s : Runner) (isAllCategory : Bool) : Runner :=
  if isAllCategory then s.awaitAfter (s.machine.initTopicVoting none none s.now) (fun _ => .startPersist true) id
  else s.awaitAfter (s.machine.transition .countdown s.now) (fun _ => .startPersist false) id

def startArm (s : Runner) (isAllCategory : Bool) : Runner :=
  if isAllCategory then
    s.armPhaseTimer .topicVoting (s.resumePhaseRemaining .topicVoting GameConfig.topicVotingDurationMs)
  else s.armPhaseTimer .countdown GameConfig.countdownDurationMs

def votingLook (s : Runner) : Runner :=
  if !s.cached then s
  else if s.machine.state.status ≠ .topicVoting then s
  else
    s.awaitAfter
      ((s.machine.resolveTopicVoting GameConfig.topicVotingBannedCount s.now).1.transition .countdown s.now)
      (fun _ => .votingPersist s.machine) id

/-- a refused persist puts the machine back to the blob taken before the callback -/
def votingArm (J : StringOps) (s : Runner) (serialized : Machine) (reply : Reply) : Runner :=
  match reply with
  | .notApplied =>
    match Machine.deserialize J (some serialized.serialize) with
    | .ok canonical => { s with machine := canonical }
    | .error _ => s
  | .failed => s
  | _ => s.armPhaseTimer .countdown GameConfig.countdownDurationMs

/-- a transition that is not allowed throws, and the timer callback logs it -/
def executeLook (s : Runner) : Runner :=
  if !s.cached then s
  else s.awaitAfter (s.machine.transition .roundActive s.now) (fun _ => .executeQuestion) id

/-- without a question the match ends -/
def executeStart (s : Runner) (reply : Reply) : Runner :=
  match reply with
  | .question q => s.awaitAfter (s.machine.startRound q none s.now) (fun round => .executePersist round.roundNo) id
  | _ => s.finishMatchLoop s.machine.state.currentRoundNo

/-- the count of survivors and the round timer follow the persist -/
def executeArm (s : Runner) (roundNo : ℕ) : Runner :=
  { s with expectedAnswers := some s.machine.state.survivingPlayerIds.length }.armPhaseTimer (.roundEnd roundNo)
    GameConfig.roundDurationMs

def earlyLook (s : Runner) : Runner :=
  if !s.cached then s
  else
    match s.machine.currentRound with
    | none => s
    | some round =>
      if 0 < s.getExpectedAnswers ∧ s.getExpectedAnswers ≤ round.answers.size ∧ round.status = .active then
        s.clearTimers.endRound s.machine.state.currentRoundNo
      else s

def beginEndRound (s : Runner) (forRound : ℕ) : Runner :=
  if s.endingRound then s else { s with endingRound := true }.await (.endGet forRound)

def handleActiveRoundEnd (s : Runner) : Runner :=
  match s.machine.transition .roundEvaluating s.now with
  | (m, .error _) => { s with machine := m }.endEndRound
  | (m, .ok _) => s.awaitAfter (m.evaluateRound s.now) (fun _ => .endEvaluated m.state.currentRoundNo) endEndRound

/-- the switch of `endRound`: it looks at the phase, not at the round the call was issued for -/
def endLook (s : Runner) : Runner :=
  if !s.cached then s.endEndRound
  else
    match s.machine.currentRound with
    | none => s.endEndRound
    | some round =>
      match s.machine.state.status with
      | .roundActive => if round.status ≠ .active then s.endEndRound else s.handleActiveRoundEnd
      | .roundEvaluating =>
        if round.status ≠ .completed then s.endEndRound else s.await (.endRecover s.machine.state.currentRoundNo)
      | .roundResult => (s.scheduleMatchEndCheck s.machine.state.currentRoundNo).endEndRound
      | _ => s.endEndRound

/-- the round is shown only after its rows and its evaluation are stored -/
def endShow (s : Runner) (roundNo : ℕ) : Runner :=
  s.awaitAfter (s.machine.transition .roundResult s.now) (fun _ => .endResult roundNo) endEndRound

def checkLook (s : Runner) (forRound : ℕ) : Runner :=
  if !s.cached then s
  else if s.machine.shouldEndMatch (some GameConfig.maxRounds) then s.finishMatchLoop forRound
  else s.executeRound

def finishLook (s : Runner) : Runner :=
  if !s.cached then s.endFinish
  else
    match s.machine.transition .finished s.now with
    | (m, .error _) => { s with machine := m }.endFinish
    | (m, .ok _) => { s with machine := m.finishMatch s.now }.await .finishPersist

/-- the finished match is stored: it leaves the cache and its runtime goes -/
def finishStored (s : Runner) : Runner := { s with cached := false }.disposeMatch.await .finishRelease

/-- what a task does from its await to the next one -/
def continueTask (J : StringOps) (s : Runner) (reply : Reply) : Task → Runner
  | .startMatchLoop isAllCategory => if s.cached && reply.applied then s.startLook isAllCategory else s
  | .startPersist isAllCategory => if reply.applied then s.startArm isAllCategory else s
  | .votingAssert => s.await .votingGet
  | .votingGet => s.votingLook
  | .votingPersist serialized => s.votingArm J serialized reply
  | .countdownGet => if s.cached then s.executeRound else s
  | .executeAssert => s.await .executeGet
  | .executeGet => s.executeLook
  | .executeQuestion => s.executeStart reply
  | .executePersist roundNo => if reply.applied then s.executeArm roundNo else s
  | .earlyGet => s.earlyLook
  | .endAssert forRound => s.beginEndRound forRound
  | .endGet _ => s.endLook
  | .endEvaluated roundNo => if reply.applied then s.await (.endSave roundNo) else s.endEndRound
  | .endRecover roundNo => s.await (.endSave roundNo)
  | .endSave roundNo => if reply.applied then s.await (.endPersist roundNo) else s.endEndRound
  | .endPersist roundNo => if reply.applied then s.endShow roundNo else s.endEndRound
  | .endResult roundNo =>
    if reply.applied then (s.scheduleMatchEndCheck roundNo).endEndRound else s.endEndRound
  | .checkAssert forRound => s.await (.checkGet forRound)
  | .checkGet forRound => s.checkLook forRound
  | .finishAssert forRound => s.await (.finishGet forRound)
  | .finishGet _ => s.finishLook
  | .finishPersist => if reply.applied then s.await .finishDb else s.endFinish
  | .finishDb => if reply.applied then s.finishStored else s.endFinish
  | .finishRelease => s.endFinish

def timerCallback (s : Runner) : TimerKind → Runner
  | .topicVoting => s.await .votingAssert
  | .countdown => s.await .countdownGet
  | .roundEnd forRound => s.endRound forRound
  | .matchEndCheck forRound => s.await (.checkAssert forRound)

/-! ## Steps -/

inductive RunnerOp where
  | tick (ms : Time)
  | startMatchLoop (isAllCategory : Bool)
  | resumeMatchLoop
  | cancelMatchLoop
  /-- the i-th timer, if it is due -/
  | fire (i : ℕ)
  /-- the i-th suspended call gets its reply -/
  | resume (i : ℕ) (reply : Reply)
  | checkEarlyTermination
  | command (o : Op)

/-- the calls of player commands, bots and card offers -/
def isCommand : Op → Bool
  | .submitAnswer .. => true
  | .disconnectPlayer .. => true
  | .reconnectPlayer .. => true
  | .voteBanTopic .. => true
  | .classAssignment .. => true
  | .pickOffer .. => true
  | .pickCard .. => true
  | .playCard .. => true
  | _ => false

def fire (s : Runner) (i : ℕ) : Runner :=
  match s.timers[i]? with
  | none => s
  | some t =>
    if t.due ≤ s.clock then { s with timers := s.timers.eraseIdx i }.timerCallback t.kind else s

def resume (J : StringOps) (s : Runner) (i : ℕ) (reply : Reply) : Runner :=
  match s.tasks[i]? with
  | none => s
  | some t => { s with tasks := s.tasks.eraseIdx i }.continueTask J reply t

def step (J : StringOps) (s : Runner) : RunnerOp → Runner
  | .tick ms => { s with clock := s.clock + max ms 0 }
  | .startMatchLoop isAllCategory => s.await (.startMatchLoop isAllCategory)
  | .resumeMatchLoop => s.resumeMatchLoop
  | .cancelMatchLoop => s.disposeMatch
  | .fire i => s.fire i
  | .resume i reply => s.resume J i reply
  | .checkEarlyTermination => s.checkEarlyTermination
  | .command o => if isCommand o then { s with machine := s.machine.step J o } else s

end Runner

end Arena.Api
