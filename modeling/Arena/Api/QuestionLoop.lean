/-
The question loop of a match over failovers (`match-round-runner.ts`, `match-timer.registry.ts`, `attemptRecovery` of
`match-ownership.service.ts`).

The nodes, their leases, caches and persists are those of `Cluster`, persists whose calls fail included. Beside them a
node keeps the used questions of the match, its armed phase timers, and the calls that wait at an `await`. A machine
object that leaves the cache stays with the calls that hold it; what they write to it reaches neither the cache nor the
store, so of such a call only that is kept, and of a recovery the machine it will resume from.

A timer fires at any time once one is armed, and any number of times. A recovery that fails before its resume waits for
its next attempt at the same await. The database and the room take no part.
-/
import Arena.Api.LossyCluster

namespace Arena.Api

open Arena.Lib Arena.Shared Arena.GameCore Arena.Redis

/-! ## State -/

/-- a suspended call of a node, by the `await` it waits at -/
inductive LoopCall where
  /-- `launchRoomMatch` owns the match; `startMatchLoop` has not reset the used questions yet -/
  | launching (entry : OwnedEntry)
  /-- `attemptRecovery`, with the answer of `acquireMatchLease` on its way -/
  | acquired (entry : OwnedEntry)
  /-- `attemptRecovery` waits for `getStateMachine` -/
  | hydrating (entry : OwnedEntry)
  /-- it has a machine, the cached one unless that has left the cache, and renews its lease before the resume -/
  | revalidating (entry : OwnedEntry) (hydratedSm : Option Machine) (stillOwner : Bool)
  /-- `resumeMatchLoop` of an evaluation waits for `endRound` -/
  | resuming (entry : OwnedEntry)
  /-- a timer callback, or another call of the loop that is neither of these -/
  | callback
  /-- `executeRound`, its ownership asserted, waits for `getStateMachine` -/
  | executeRound
  /-- `executeRound` waits for `getRandom`; its machine is still the cached one or not -/
  | getRandom (cached : Bool) (excludeIds : List String)
deriving DecidableEq

namespace LoopCall

/-- the lease of a launch or a recovery -/
def entry : LoopCall → Option OwnedEntry
  | .launching e => some e
  | .acquired e => some e
  | .hydrating e => some e
  | .revalidating e _ _ => some e
  | .resuming e => some e
  | _ => none

/-- the questions that the pending fetch leaves out -/
def excludeIds : LoopCall → List String
  | .getRandom _ ids => ids
  | _ => []

/-- a fetch for the cached machine -/
def isFetch : LoopCall → Bool
  | .getRandom true _ => true
  | _ => false

/-- the machine object leaves the cache -/
def leaveCache (machine : Option Machine) : LoopCall → LoopCall
  | .revalidating e none stillOwner => .revalidating e machine stillOwner
  | .getRandom _ ids => .getRandom false ids
  | c => c

end LoopCall

/-- `MatchTimerRegistry` of one match, and the suspended calls of the node -/
structure Runtime where
  usedQuestionIds : Option (JsSet String)
  /-- `activeTimers` holds a timer of the match -/
  activeTimers : Bool
  calls : List LoopCall

def Runtime.idle : Runtime := ⟨none, false, []⟩

structure QuestionLoop where
  cluster : Cluster
  runtime : String → Runtime

/-- the question ids of the ROUND_STARTED entries -/
def askedQuestions (eventLog : List EventLogEntry) : List String :=
  eventLog.filterMap fun entry =>
    match entry.event with
    | .roundStarted _ questionId _ _ => some questionId
    | _ => none

namespace QuestionLoop

def setRuntime (s : QuestionLoop) (n : String) (r : Runtime) : QuestionLoop :=
  { s with runtime := Function.update s.runtime n r }

def withCluster (s : QuestionLoop) (c : Cluster) : QuestionLoop := { s with cluster := c }

/-- `launchRoomMatch` on `creator`: the match is created and its lease granted -/
def init (creator : String) (m : Machine) : QuestionLoop where
  cluster := ((Cluster.init creator m).acquire creator).own creator (1, leaseValue creator 1)
  runtime := Function.update (fun _ => Runtime.idle) creator
    { Runtime.idle with calls := [.launching (1, leaseValue creator 1)] }

def machine (s : QuestionLoop) (n : String) : Option Machine := (s.cluster.nodes n).machine

/-- the call waits at its next await -/
def await (s : QuestionLoop) (n : String) (c : LoopCall) : QuestionLoop :=
  s.setRuntime n { s.runtime n with calls := (s.runtime n).calls ++ [c] }

/-- the i-th call goes on, and so does not wait any longer -/
def take (s : QuestionLoop) (n : String) (i : ℕ) : QuestionLoop :=
  s.setRuntime n { s.runtime n with calls := (s.runtime n).calls.eraseIdx i }

/-- the cached object leaves the cache -/
def detach (s : QuestionLoop) (n : String) : QuestionLoop :=
  s.setRuntime n { s.runtime n with calls := (s.runtime n).calls.map (.leaveCache (s.machine n)) }

/-! ## Timer registry -/

def initUsedQuestions (s : QuestionLoop) (n : String) : QuestionLoop :=
  s.setRuntime n { s.runtime n with usedQuestionIds := some JsSet.empty }

/-- the set is made when there is none -/
def markQuestionUsed (s : QuestionLoop) (n : String) (questionId : String) : QuestionLoop :=
  s.setRuntime n { s.runtime n with
    usedQuestionIds := some (((s.runtime n).usedQuestionIds.getD JsSet.empty).add questionId) }

def setTimers (s : QuestionLoop) (n : String) (armed : Bool) : QuestionLoop :=
  s.setRuntime n { s.runtime n with activeTimers := armed }

def disposeMatch (s : QuestionLoop) (n : String) : QuestionLoop :=
  s.setRuntime n { s.runtime n with usedQuestionIds := none, activeTimers := false }

/-- no set counts as the empty one -/
def excludeIds (s : QuestionLoop) (n : String) : List String :=
  ((s.runtime n).usedQuestionIds.getD JsSet.empty).elems

/-! ## Steps -/

/-- the calls of the machine that `executeRound` and `endRound` do not make -/
def isOtherCall : Op → Bool
  | .startRound .. => false
  | .evaluateRound .. => false
  | .transition .roundActive _ => false
  | .transition .roundEvaluating _ => false
  | _ => true

/-- the steps of the cluster that touch neither the cache nor an ownership entry -/
def isBackground : Cluster.LossyOp → Bool
  | .loseReply _ => true
  | .failCall _ => true
  | .op (.redis _) => true
  | .op (.getStateMachine _) => true
  | .op (.readState _) => true
  | .op (.dropCorrupt _) => true
  | .op (.persistStateMachine _) => true
  | .op (.readPersistedRevision ..) => true
  | .op (.fencedStateSet _) => true
  | _ => false

inductive LoopOp where
  | background (o : Cluster.LossyOp)
  | command (n : String) (o : Op)
  | evictStateMachine (n : String)
  | install (n : String) (i : ℕ) (correctAnswer : Option String)
  /-- `acquireMatchLease` by a recovery -/
  | acquireForRecovery (n : String)
  /-- its answer arrives -/
  | recordOwnership (n : String) (i : ℕ)
  | hydrateRecoveryState (n : String) (i : ℕ)
  | revalidateOwnership (n : String) (i : ℕ)
  | resumeMatchLoop (n : String) (i : ℕ)
  /-- `endRound` threw; the recovery is tried again -/
  | retryRecovery (n : String) (i : ℕ)
  | startMatchLoop (n : String) (i : ℕ)
  /-- `relinquish` and the teardowns, which drop the ownership entry with the loop -/
  | cancelMatchLoop (n : String)
  | fire (n : String)
  | armPhaseTimer (n : String) (i : ℕ)
  /-- the i-th call returns or throws -/
  | finishCall (n : String) (i : ℕ)
  | assertOwnership (n : String) (i : ℕ)
  | executeRound (n : String) (i : ℕ) (now : Clock)
  | startRound (n : String) (i : ℕ) (question : Machine.QuestionInput) (now : Clock)
  | endRound (n : String) (now : Clock)

def evictStateMachine (s : QuestionLoop) (n : String) : QuestionLoop :=
  (s.detach n).withCluster (s.cluster.evictStateMachine n)

/-- a hydration that ends replaces whatever is cached -/
def install (s : QuestionLoop) (n : String) (i : ℕ) (correctAnswer : Option String) : QuestionLoop :=
  match (s.cluster.nodes n).hydrations[i]? with
  | none => s
  | some _ => (s.detach n).withCluster (s.cluster.install n i correctAnswer)

def acquireForRecovery (s : QuestionLoop) (n : String) : QuestionLoop :=
  match (s.cluster.keys.acquireMatchLease n).2 with
  | .acquired fence lease => (s.withCluster (s.cluster.acquire n)).await n (.acquired (fence, lease))
  | _ => s.withCluster (s.cluster.acquire n)

def recordOwnership (s : QuestionLoop) (n : String) (i : ℕ) : QuestionLoop :=
  match (s.runtime n).calls[i]? with
  | some (.acquired e) => ((s.take n i).withCluster (s.cluster.own n e)).await n (.hydrating e)
  | _ => s

def hydrateRecoveryState (s : QuestionLoop) (n : String) (i : ℕ) : QuestionLoop :=
  match (s.runtime n).calls[i]?, s.machine n with
  | some (.hydrating e), some _ => (s.take n i).await n (.revalidating e none false)
  | _, _ => s

/-- `renewLease`; without the lease the recovery stops -/
def revalidateOwnership (s : QuestionLoop) (n : String) (i : ℕ) : QuestionLoop :=
  match (s.runtime n).calls[i]? with
  | some (.revalidating e hydratedSm _) =>
    if s.cluster.keys.owner = some e.2 then (s.take n i).await n (.revalidating e hydratedSm true)
    else (s.take n i).withCluster (s.cluster.relinquish n)
  | _ => s

/-- the used questions are rebuilt from the log of the machine handed over; a match that is over is released -/
def resumeWith (s : QuestionLoop) (n : String) (e : OwnedEntry) (hydratedSm : Machine) : QuestionLoop :=
  let s := (askedQuestions hydratedSm.eventLog).foldl (fun s q => s.markQuestionUsed n q) (s.initUsedQuestions n)
  match hydratedSm.state.status with
  | .finished => (s.disposeMatch n).withCluster (s.cluster.relinquish n)
  | .created => (s.disposeMatch n).withCluster (s.cluster.own n e)
  | .roundEvaluating => (s.withCluster (s.cluster.own n e)).await n (.resuming e)
  | _ => (s.withCluster (s.cluster.own n e)).setTimers n true

def resumeMatchLoop (s : QuestionLoop) (n : String) (i : ℕ) : QuestionLoop :=
  match (s.runtime n).calls[i]? with
  | some (.revalidating e hydratedSm true) =>
    match hydratedSm.or (s.machine n) with
    | some m => (s.take n i).resumeWith n e m
    | none => s
  | _ => s

/-- the next attempt goes on with the ownership entry, if it is still there -/
def retryRecovery (s : QuestionLoop) (n : String) (i : ℕ) : QuestionLoop :=
  match (s.runtime n).calls[i]? with
  | some (.resuming e) =>
    if (s.cluster.nodes n).owned = some e then (s.take n i).await n (.hydrating e) else s.take n i
  | _ => s

def startMatchLoop (s : QuestionLoop) (n : String) (i : ℕ) : QuestionLoop :=
  match (s.runtime n).calls[i]? with
  | some (.launching _) => ((s.take n i).initUsedQuestions n).await n .callback
  | _ => s

def cancelMatchLoop (s : QuestionLoop) (n : String) : QuestionLoop :=
  (s.disposeMatch n).withCluster (s.cluster.relinquish n)

def fire (s : QuestionLoop) (n : String) : QuestionLoop :=
  if (s.runtime n).activeTimers then s.await n .callback else s

/-- arming is the last that `endRound` does for a resume; another call may go on -/
def armPhaseTimer (s : QuestionLoop) (n : String) (i : ℕ) : QuestionLoop :=
  match (s.runtime n).calls[i]? with
  | some .callback => s.setTimers n true
  | some (.resuming _) => (s.take n i).setTimers n true
  | _ => s

def assertOwnership (s : QuestionLoop) (n : String) (i : ℕ) : QuestionLoop :=
  match (s.runtime n).calls[i]?, (s.cluster.nodes n).owned with
  | some .callback, some e =>
    if s.cluster.keys.owner = some e.2 then (s.take n i).await n .executeRound else s
  | _, _ => s

/-- the transition, and the ids taken for the fetch; a transition that is not allowed throws -/
def executeRound (J : StringOps) (s : QuestionLoop) (n : String) (i : ℕ) (now : Clock) : QuestionLoop :=
  match (s.runtime n).calls[i]?, s.machine n with
  | some .executeRound, some m =>
    match (m.transition .roundActive now).2 with
    | .error _ => s.take n i
    | .ok _ =>
      ((s.take n i).withCluster (s.cluster.mutate J n (.transition .roundActive now))).await n
        (.getRandom true (s.excludeIds n))
  | _, _ => s

/-- the question is marked and the round started on the machine that the call holds -/
def startRound (J : StringOps) (s : QuestionLoop) (n : String) (i : ℕ) (question : Machine.QuestionInput)
    (now : Clock) : QuestionLoop :=
  match (s.runtime n).calls[i]? with
  | some (.getRandom cached _) =>
    let s' := ((s.take n i).markQuestionUsed n question.id).await n .callback
    if cached then s'.withCluster (s.cluster.mutate J n (.startRound question none now)) else s'
  | _ => s

/-- the calls of `handleActiveRoundEnd`, behind the checks of `endRound` -/
def endRound (J : StringOps) (s : QuestionLoop) (n : String) (now : Clock) : QuestionLoop :=
  match s.machine n with
  | some m =>
    if m.state.status = .roundActive ∧ (m.currentRound.map Round.status) = some .active then
      s.withCluster ((s.cluster.mutate J n (.transition .roundEvaluating now)).mutate J n (.evaluateRound now))
    else s
  | none => s

def step (J : StringOps) (s : QuestionLoop) : LoopOp → QuestionLoop
  | .background o => if isBackground o then s.withCluster (s.cluster.lossyStep J o) else s
  | .command n o => if isOtherCall o then s.withCluster (s.cluster.mutate J n o) else s
  | .evictStateMachine n => s.evictStateMachine n
  | .install n i key => s.install n i key
  | .acquireForRecovery n => s.acquireForRecovery n
  | .recordOwnership n i => s.recordOwnership n i
  | .hydrateRecoveryState n i => s.hydrateRecoveryState n i
  | .revalidateOwnership n i => s.revalidateOwnership n i
  | .resumeMatchLoop n i => s.resumeMatchLoop n i
  | .retryRecovery n i => s.retryRecovery n i
  | .startMatchLoop n i => s.startMatchLoop n i
  | .cancelMatchLoop n => s.cancelMatchLoop n
  | .fire n => s.fire n
  | .armPhaseTimer n i => s.armPhaseTimer n i
  | .finishCall n i => s.take n i
  | .assertOwnership n i => s.assertOwnership n i
  | .executeRound n i now => s.executeRound J n i now
  | .startRound n i question now => s.startRound J n i question now
  | .endRound n now => s.endRound J n now

/-! ## Statement -/

/-- no question stands twice in the stored log -/
def AskedOnce (s : QuestionLoop) : Prop :=
  ∀ b ∈ s.cluster.keys.state, (askedQuestions (Cluster.eventLogOf b)).Nodup

instance (s : QuestionLoop) : Decidable s.AskedOnce :=
  inferInstanceAs (Decidable (∀ b ∈ s.cluster.keys.state, (askedQuestions (Cluster.eventLogOf b)).Nodup))

/-- the question service leaves out what it is asked to -/
def Excludes (s : QuestionLoop) : LoopOp → Prop
  | .startRound n i question _ => ∀ c ∈ (s.runtime n).calls[i]?, question.id ∉ c.excludeIds
  | _ => True

/-- nothing is left of the match on a node that gets the lease: no other copy, no timer, no suspended call -/
structure Afresh (s : QuestionLoop) (n : String) : Prop where
  cached : ∀ m ∈ s.machine n, s.cluster.keys.state.map Cluster.eventLogOf = some m.eventLog
  hydrations : ∀ m ∈ (s.cluster.nodes n).hydrations, s.cluster.keys.state.map Cluster.eventLogOf = some m.eventLog
  timers : (s.runtime n).activeTimers = false
  calls : (s.runtime n).calls = []

def isGrant : AcquireReply → Bool
  | .acquired .. => true
  | _ => false

/-- a lease goes to a node that takes the match afresh -/
def TakesAfresh (s : QuestionLoop) : LoopOp → Prop
  | .acquireForRecovery n => isGrant (s.cluster.keys.acquireMatchLease n).2 = true → s.Afresh n
  | _ => True

instance (s : QuestionLoop) (o : LoopOp) : Decidable (s.Excludes o) :=
  match o with
  | .startRound n i question _ =>
    inferInstanceAs (Decidable (∀ c ∈ (s.runtime n).calls[i]?, question.id ∉ c.excludeIds))
  | .background _ | .command .. | .evictStateMachine _ | .install .. | .acquireForRecovery _ | .recordOwnership ..
  | .hydrateRecoveryState .. | .revalidateOwnership .. | .resumeMatchLoop .. | .retryRecovery .. | .startMatchLoop ..
  | .cancelMatchLoop _ | .fire _ | .armPhaseTimer .. | .finishCall .. | .assertOwnership .. | .executeRound ..
  | .endRound .. => .isTrue trivial

instance (s : QuestionLoop) (n : String) : Decidable (s.Afresh n) :=
  decidable_of_iff ((∀ m ∈ s.machine n, s.cluster.keys.state.map Cluster.eventLogOf = some m.eventLog) ∧
      (∀ m ∈ (s.cluster.nodes n).hydrations, s.cluster.keys.state.map Cluster.eventLogOf = some m.eventLog) ∧
      (s.runtime n).activeTimers = false ∧ (s.runtime n).calls = [])
    ⟨fun h => ⟨h.1, h.2.1, h.2.2.1, h.2.2.2⟩, fun h => ⟨h.cached, h.hydrations, h.timers, h.calls⟩⟩

instance (s : QuestionLoop) (o : LoopOp) : Decidable (s.TakesAfresh o) :=
  match o with
  | .acquireForRecovery n =>
    inferInstanceAs (Decidable (isGrant (s.cluster.keys.acquireMatchLease n).2 = true → s.Afresh n))
  | .background _ | .command .. | .evictStateMachine _ | .install .. | .recordOwnership .. | .hydrateRecoveryState ..
  | .revalidateOwnership .. | .resumeMatchLoop .. | .retryRecovery .. | .startMatchLoop .. | .cancelMatchLoop _
  | .fire _ | .armPhaseTimer .. | .finishCall .. | .assertOwnership .. | .executeRound .. | .startRound ..
  | .endRound .. => .isTrue trivial

end QuestionLoop

end Arena.Api
