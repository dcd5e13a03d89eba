/-
The command stream of one match (`match-command.service.ts`, `match-command-authoritative.ts`,
`match-card-command-authoritative.ts`, `match-player-lifecycle.ts`).

A handler on any node appends a command to the stream; the consumer of the owner takes entries one at a time, applies
them to its cached machine, persists it under its fence and acknowledges the entry. An entry stays pending until it is
acknowledged, and any node may be handed a pending entry again. Every `await` is a step boundary: the SISMEMBER of the
applied set, `getStateMachine`, the blob taken by the persist and its reply, the SADD and the XACK. Between two of
them anything may happen on any node: other calls write and persist the machine, evict it or load it again.

Whether the fenced CAS of a persist is APPLIED is left open, and so is whether a Redis call that throws has written. A
machine is its value here, not an object; what two machine objects of one node do to each other is the subject of
`MatchService`. Every machine and every stored blob carries its `trace`: what was applied to it, in order. The trace is
not part of the program's state, and no step reads it.
-/
import Arena.Api.CardCommands
import Arena.Api.MatchService
import Arena.GameCore.Atomicity

namespace Arena.Api

open Arena.Lib Arena.Shared Arena.GameCore

/-! ## Envelopes -/

inductive CommandBody where
  | submitAnswer (answer submissionId commandId : String) (clientTs : Time)
  | playerDisconnect
  | cardPick (commandId cardId : String) (offerSeqNo : ℕ)
  | cardPlay (commandId cardId : String) (offerSeqNo : ℕ) (targetPlayerId : Option String)
  | voteBanTopic (topic : String) (commandId : Option String)
deriving DecidableEq

/-- an envelope that passes `parseAndValidate`; every body has a `userId` -/
structure CommandEnvelope where
  eventId : String
  matchId : String
  emittedByNodeId : String
  emittedAt : Time
  userId : String
  body : CommandBody
  eventId_ne : eventId ≠ ""
  userId_ne : userId ≠ ""
deriving DecidableEq

/-- an entry of the stream -/
structure StreamEntry where
  id : ℕ
  envelope : CommandEnvelope
  /-- the `roundNo` of the payload the handler was given; the envelope does not carry it -/
  roundNo : Option ℕ
deriving DecidableEq

inductive CommandOutcome where
  | applied
  | duplicateEvent
  | duplicateSubmission
  | retry
deriving DecidableEq

/-- what follows on the synchronous part of an apply -/
inductive Verdict where
  /-- the machine was written and is persisted next -/
  | persist
  /-- the effect is found in the machine -/
  | recover
  /-- nothing to do for a disconnect: marked as applied and acknowledged -/
  | noop
  | reject (error : CommandError)
deriving DecidableEq

/-! ## The synchronous part of each apply -/

/-- the readings after the first -/
def laterClock (now : Clock) : Clock := fun i => now (i + 1)

def applyAnswerCommand (J : StringOps) (m : Machine) (userId answer submissionId : String) (now : Clock) :
    Machine × Verdict :=
  if ((m.currentRound.bind fun r => r.answers.get userId).map AnswerState.submissionId) = some submissionId then
    (m, .recover)
  else
    match m.submitAnswer J userId answer (now 0) (some submissionId) (laterClock now) with
    | (m', .error e) => (m', .reject (.ofMatch e))
    | (m', .ok _) => (m', .persist)

/-- a player who may not use cards -/
def cardBarrier (m : Machine) (userId : String) : Option CommandError :=
  match m.state.players.get userId with
  | none => some .spectatorCannotAnswer
  | some player =>
    if player.status = .disconnected then some .playerDisconnected
    else if player.status = .eliminated ∨ player.status = .winner then some .spectatorCannotAnswer
    else none

/-- the three calls inside the `try` of a pick -/
def tryPick (m : Machine) (env : CommandEnvelope) (commandId cardId : String) (offerSeqNo : ℕ) (now : Clock) :
    Machine × Except CommandError Unit :=
  match assertCardId cardId with
  | .error e => (m, .error e)
  | .ok id =>
    match validateOfferCorrelation id ((getCardOfferForPlayer m env.userId offerSeqNo).getD []) with
    | .error e => (m, .error e)
    | .ok _ =>
      match m.pickCard env.userId id offerSeqNo (some env.eventId) (some commandId) now with
      | (m', .error e) => (m', .error (.ofMatch e))
      | (m', .ok _) => (m', .ok ())

def applyCardPickCommand (m : Machine) (env : CommandEnvelope) (commandId cardId : String) (offerSeqNo : ℕ)
    (now : Clock) : Machine × Verdict :=
  match cardBarrier m env.userId with
  | some e => (m, .reject e)
  | none =>
    match tryPick m env commandId cardId offerSeqNo now with
    | (m', .ok _) => (m', .persist)
    | (m', .error e) =>
      if (findCard cardId).any fun id => (getPickedCards m' env.userId).has id then (m', .recover)
      else (m', .reject e)

/-- the card is legal: its effect is resolved and played -/
def resolveAndPlay (m : Machine) (env : CommandEnvelope) (round : Round) (id : CardId) (commandId : String)
    (offerSeqNo : ℕ) (targetPlayerId : Option String) (now : Clock) : Machine × Verdict :=
  let targetPlayerIds := expandCardTargets env.matchId id env.userId targetPlayerId round.roundNo offerSeqNo m
  match targetPlayerIds with
  | [] => (m, .reject .playerDisconnected)
  | target :: _ =>
    let rng := makeCardResolveRng env.matchId env.userId round.roundNo offerSeqNo id
    match resolveCardEffect id rng ⟨getHand m target, some round.question.options, round.correctAnswer, round.roundNo⟩
      with
    | .error _ => (m, .reject .plain)
    | .ok resolved =>
      match m.playCard ⟨env.userId, id, offerSeqNo, resolved, targetPlayerIds, now 0, some env.eventId,
        some commandId⟩ (laterClock now) with
      | (m', .ok _) => (m', .persist)
      | (m', .error e) => if (m'.getPlayedCards env.userId).has id then (m', .recover) else (m', .reject (.ofMatch e))

def applyCardPlayCommand (m : Machine) (env : CommandEnvelope) (commandId cardId : String) (offerSeqNo : ℕ)
    (targetPlayerId : Option String) (now : Clock) : Machine × Verdict :=
  match cardBarrier m env.userId with
  | some e => (m, .reject e)
  | none =>
    if (findCard cardId).any fun id => (m.getPlayedCards env.userId).has id then (m, .recover)
    else
      match m.currentRound with
      | none => (m, .reject (.room .roundNotActive))
      | some round =>
        if m.state.status ≠ .roundActive ∨ round.status ≠ .active then (m, .reject (.room .roundNotActive))
        else
          match validateCardCommand cardId ((getCardOfferForPlayer m env.userId offerSeqNo).getD []) targetPlayerId
            m.state.players.keys (m.getAoeCountForRound round.roundNo) (m.getPlayedCards env.userId)
            (getPickedCards m env.userId) env.userId with
          | .error e => (m, .reject e)
          | .ok id => resolveAndPlay m env round id commandId offerSeqNo targetPlayerId now

def isTopicVotingClosed (m : Machine) (now : Time) : Bool :=
  m.state.status ≠ .topicVoting || m.state.phaseEndsAt.any fun e => e ≤ now

/-- a TOPIC_VOTE_SUBMITTED with this stamp is in the log -/
def hasVoteEvent (m : Machine) (eventId : String) : Bool :=
  m.eventLog.reverse.any fun e =>
    match e.event with
    | .topicVoteSubmitted _ _ _ stamp => stamp = some eventId
    | _ => false

def applyVoteBanTopic (m : Machine) (env : CommandEnvelope) (topic : String) (now : Clock) : Machine × Verdict :=
  if isTopicVotingClosed m (now 0) then (m, .reject (.room .topicVotingClosed))
  else if hasVoteEvent m env.eventId then (m, .recover)
  else
    match m.voteBanTopic env.userId topic (some env.eventId) (laterClock now) with
    | (m', .error e) => (m', .reject (.ofMatch e))
    | (m', .ok _) => (m', .persist)

def disconnectMatchPlayer (m : Machine) (userId : String) (now : Clock) : Machine × Verdict :=
  match m.state.players.get userId with
  | none => (m, .noop)
  | some _ => (m.disconnectPlayer userId now, .persist)

/-- `dispatchBuiltin`, once the machine is at hand -/
def dispatchBuiltin (J : StringOps) (m : Machine) (env : CommandEnvelope) (now : Clock) : Machine × Verdict :=
  match env.body with
  | .submitAnswer answer submissionId _ _ => applyAnswerCommand J m env.userId answer submissionId now
  | .playerDisconnect => disconnectMatchPlayer m env.userId now
  | .cardPick commandId cardId offerSeqNo => applyCardPickCommand m env commandId cardId offerSeqNo now
  | .cardPlay commandId cardId offerSeqNo target => applyCardPlayCommand m env commandId cardId offerSeqNo target now
  | .voteBanTopic topic _ => applyVoteBanTopic m env topic now

/-- what an apply can do: it leaves the machine as it is, or makes one call that returns and goes on to persist -/
inductive Applies (J : StringOps) (m : Machine) (env : CommandEnvelope) (now : Clock) : Machine × Verdict → Prop where
  | nothing (v : Verdict) (hv : v ≠ .persist) : Applies J m env now (m, v)
  | answer (answer submissionId commandId : String) (ts : Time)
      (hb : env.body = .submitAnswer answer submissionId commandId ts)
      (hnew : ((m.currentRound.bind fun r => r.answers.get env.userId).map AnswerState.submissionId) ≠
        some submissionId) :
      Applies J m env now
        (m.step J (.submitAnswer env.userId answer (now 0) (some submissionId) (laterClock now)), .persist)
  | disconnect (hb : env.body = .playerDisconnect) :
      Applies J m env now (m.step J (.disconnectPlayer env.userId now), .persist)
  | pick (commandId cardId : String) (offerSeqNo : ℕ) (id : CardId) (hb : env.body = .cardPick commandId cardId offerSeqNo)
      (hc : findCard cardId = some id) :
      Applies J m env now
        (m.step J (.pickCard env.userId id offerSeqNo (some env.eventId) (some commandId) now), .persist)
  | play (commandId cardId : String) (offerSeqNo : ℕ) (target : Option String) (input : Machine.PlayInput)
      (hb : env.body = .cardPlay commandId cardId offerSeqNo target) (hc : findCard cardId = some input.cardId)
      (hp : input.playedByPlayerId = env.userId)
      (hnew : (m.getPlayedCards env.userId).has input.cardId = false) :
      Applies J m env now (m.step J (.playCard input (laterClock now)), .persist)
  | vote (topic : String) (commandId : Option String) (hb : env.body = .voteBanTopic topic commandId)
      (hnew : hasVoteEvent m env.eventId = false) :
      Applies J m env now
        (m.step J (.voteBanTopic env.userId topic (some env.eventId) (laterClock now)), .persist)

section Applies

variable {J : StringOps} {m : Machine} {env : CommandEnvelope} {now : Clock}

theorem applyAnswerCommand_applies {answer submissionId commandId : String} {ts : Time}
    (hb : env.body = .submitAnswer answer submissionId commandId ts) :
    Applies J m env now (applyAnswerCommand J m env.userId answer submissionId now) := by
  unfold applyAnswerCommand
  split_ifs with hnew
  · exact .nothing _ (by simp)
  · split
    · rename_i m' e hx
      have hm : m' = m := by
        have h := Machine.submitAnswer_rejected J m env.userId answer (now 0) (some submissionId) (laterClock now) e
        rw [hx] at h
        exact h rfl
      rw [hm]
      exact .nothing _ (by simp)
    · rename_i m' a hx
      have hm : m' = m.step J (.submitAnswer env.userId answer (now 0) (some submissionId) (laterClock now)) :=
        (congrArg Prod.fst hx).symm
      rw [hm]
      exact .answer answer submissionId commandId ts hb hnew

theorem tryPick_cases (J : StringOps) (m : Machine) (env : CommandEnvelope) (now : Clock) (commandId cardId : String)
    (offerSeqNo : ℕ) :
    (∃ e, tryPick m env commandId cardId offerSeqNo now = (m, .error e)) ∨
      ∃ id, findCard cardId = some id ∧ tryPick m env commandId cardId offerSeqNo now =
        (m.step J (.pickCard env.userId id offerSeqNo (some env.eventId) (some commandId) now), .ok ()) := by
  unfold tryPick assertCardId
  cases hc : findCard cardId with
  | none => exact .inl ⟨_, rfl⟩
  | some id =>
    simp only []
    split
    · exact .inl ⟨_, rfl⟩
    · split
      · rename_i m' e hx
        have hm : m' = m := by
          have h := Machine.pickCard_rejected m env.userId id offerSeqNo (some env.eventId) (some commandId) now e
          rw [hx] at h
          exact h rfl
        exact .inl ⟨_, by rw [hm]⟩
      · rename_i m' _ hx
        refine .inr ⟨id, rfl, ?_⟩
        rw [show m' = m.step J (.pickCard env.userId id offerSeqNo (some env.eventId) (some commandId) now) from
          (congrArg Prod.fst hx).symm]

theorem applyCardPickCommand_applies {commandId cardId : String} {offerSeqNo : ℕ}
    (hb : env.body = .cardPick commandId cardId offerSeqNo) :
    Applies J m env now (applyCardPickCommand m env commandId cardId offerSeqNo now) := by
  unfold applyCardPickCommand
  split
  · exact .nothing _ (by simp)
  · rcases tryPick_cases J m env now commandId cardId offerSeqNo with ⟨e, hx⟩ | ⟨id, hc, hx⟩
    · rw [hx]
      simp only []
      split_ifs
      · exact .nothing _ (by simp)
      · exact .nothing _ (by simp)
    · rw [hx]
      exact .pick commandId cardId offerSeqNo id hb hc

theorem assertCardId_ok {cardId : String} {id : CardId} (h : assertCardId cardId = .ok id) :
    findCard cardId = some id := by
  unfold assertCardId at h
  split at h
  · rename_i id' hc
    rw [hc, Except.ok.inj h]
  · cases h

theorem validateCardCommand_ok {cardId : String} {offered : List CardId} {target : Option String} {roster : List String}
    {aoe : ℕ} {played picked : JsSet CardId} {userId : String} {id : CardId}
    (h : validateCardCommand cardId offered target roster aoe played picked userId = .ok id) :
    findCard cardId = some id := by
  unfold validateCardCommand at h
  cases hc : assertCardId cardId with
  | error e =>
    rw [hc] at h
    cases h
  | ok id' =>
    -- the five checks after the lookup return the same id or throw
    rw [hc] at h
    obtain rfl : id' = id := by
      simp only [bind, Except.bind, pure, Except.pure, throw, throwThe, MonadExceptOf.throw] at h
      repeat' split at h
      all_goals first | exact Except.ok.inj h | cases h
    exact assertCardId_ok hc

theorem resolveAndPlay_applies {commandId cardId : String} {offerSeqNo : ℕ} {target : Option String} {round : Round}
    {id : CardId} (hb : env.body = .cardPlay commandId cardId offerSeqNo target) (hc : findCard cardId = some id)
    (hnew : (m.getPlayedCards env.userId).has id = false) :
    Applies J m env now (resolveAndPlay m env round id commandId offerSeqNo target now) := by
  unfold resolveAndPlay
  simp only []
  split
  · exact .nothing _ (by simp)
  · split
    · exact .nothing _ (by simp)
    · split
      · rename_i m' r hx
        rw [show m' = m.step J (.playCard _ (laterClock now)) from (congrArg Prod.fst hx).symm]
        exact .play commandId cardId offerSeqNo target _ hb hc rfl hnew
      · rename_i m' e hx
        have hm : m' = m := by
          have h := Machine.playCard_rejected m _ _ e (congrArg Prod.snd hx)
          rw [hx] at h
          exact h
        rw [hm]
        split_ifs
        · exact .nothing _ (by simp)
        · exact .nothing _ (by simp)

theorem applyCardPlayCommand_applies {commandId cardId : String} {offerSeqNo : ℕ} {target : Option String}
    (hb : env.body = .cardPlay commandId cardId offerSeqNo target) :
    Applies J m env now (applyCardPlayCommand m env commandId cardId offerSeqNo target now) := by
  unfold applyCardPlayCommand
  split
  · exact .nothing _ (by simp)
  · split_ifs with hplayed
    · exact .nothing _ (by simp)
    · split
      · exact .nothing _ (by simp)
      · split_ifs
        · exact .nothing _ (by simp)
        · split
          · exact .nothing _ (by simp)
          · rename_i id hid
            have hc := validateCardCommand_ok hid
            refine resolveAndPlay_applies hb hc ?_
            rw [hc] at hplayed
            simpa using hplayed

theorem applyVoteBanTopic_applies {topic : String} {commandId : Option String}
    (hb : env.body = .voteBanTopic topic commandId) : Applies J m env now (applyVoteBanTopic m env topic now) := by
  unfold applyVoteBanTopic
  split_ifs with hclosed hnew
  · exact .nothing _ (by simp)
  · exact .nothing _ (by simp)
  · split
    · rename_i m' e hx
      have hm : m' = m := by
        have h := Machine.voteBanTopic_rejected m env.userId topic (some env.eventId) (laterClock now) e
        rw [hx] at h
        exact h rfl
      rw [hm]
      exact .nothing _ (by simp)
    · rename_i m' b hx
      rw [show m' = m.step J (.voteBanTopic env.userId topic (some env.eventId) (laterClock now)) from
        (congrArg Prod.fst hx).symm]
      exact .vote topic commandId hb (by simpa using hnew)

theorem disconnectMatchPlayer_applies (hb : env.body = .playerDisconnect) :
    Applies J m env now (disconnectMatchPlayer m env.userId now) := by
  unfold disconnectMatchPlayer
  split
  · exact .nothing _ (by simp)
  · exact .disconnect hb

theorem dispatchBuiltin_applies (J : StringOps) (m : Machine) (env : CommandEnvelope) (now : Clock) :
    Applies J m env now (dispatchBuiltin J m env now) := by
  unfold dispatchBuiltin
  split
  · rename_i hb
    exact applyAnswerCommand_applies hb
  · rename_i hb
    exact disconnectMatchPlayer_applies hb
  · rename_i hb
    exact applyCardPickCommand_applies hb
  · rename_i hb
    exact applyCardPlayCommand_applies hb
  · rename_i hb
    exact applyVoteBanTopic_applies hb

/-- an apply that does not persist has changed nothing -/
theorem dispatchBuiltin_unchanged (h : (dispatchBuiltin J m env now).2 ≠ .persist) :
    (dispatchBuiltin J m env now).1 = m := by
  have ha := dispatchBuiltin_applies J m env now
  generalize dispatchBuiltin J m env now = r at ha h
  cases ha with
  | nothing => rfl
  | answer => exact absurd rfl h
  | disconnect => exact absurd rfl h
  | pick => exact absurd rfl h
  | play => exact absurd rfl h
  | vote => exact absurd rfl h

end Applies

/-- the outcome of the recovery of a duplicate while the lease is held -/
def recoverDuplicate (m : Machine) (env : CommandEnvelope) : CommandOutcome × Option CommandError :=
  let verified := fun (stamps : Option (Option String × Option String)) (commandId : String) =>
    match stamps with
    | none => (CommandOutcome.duplicateEvent, none)
    | some s =>
      if s = (some env.eventId, some commandId) then (.duplicateEvent, none)
      else (.duplicateSubmission, some CommandError.commandIdConflict)
  match env.body with
  | .cardPick commandId cardId offerSeqNo => verified (findCardPicked m env.userId cardId offerSeqNo) commandId
  | .cardPlay commandId cardId offerSeqNo _ => verified (findCardResolved m env.userId cardId offerSeqNo) commandId
  | _ => (.duplicateEvent, none)

/-! ## State -/

/-- an answer simulated for a bot, armed as a timer in the round `roundNo` -/
structure BotAnswer where
  roundNo : ℕ
  userId : String
  answer : String
  submissionId : String
deriving DecidableEq

/-- who wrote to a machine -/
inductive Cause where
  | command (e : StreamEntry)
  | botAnswer (sim : BotAnswer)
  | startRound
  | pickOffer (playerId : String)
  /-- with the entries that had been delivered by then -/
  | reconnect (playerId : String) (delivered : List ℕ)
  | answer (playerId : String)
  | other
deriving DecidableEq

/-- one write that changed a machine: the events it logged stand in the log from `start` on -/
structure Effect where
  cause : Cause
  start : ℕ
  logged : List EventLogEntry
deriving DecidableEq

/-- a machine, cached or written as a blob, with what was applied to it -/
structure Copy where
  machine : Machine
  trace : List Effect
deriving DecidableEq

/-- the copy after a call that left `m` -/
def Copy.write (c : Copy) (cause : Cause) (m : Machine) : Copy :=
  if m = c.machine then c
  else ⟨m, c.trace ++ [⟨cause, c.machine.eventLog.length, m.eventLog.drop c.machine.eventLog.length⟩]⟩

/-- the commands whose effect a copy holds -/
def Copy.commands (c : Copy) : List StreamEntry :=
  c.trace.filterMap fun x =>
    match x.cause with
    | .command e => some e
    | _ => none

inductive Stage where
  /-- SISMEMBER of the applied set -/
  | checking
  /-- `getStateMachine` -/
  | fetching
  /-- the persist waits for its turn -/
  | queued
  | writing (blob : Copy)
  | settled (outcome : PersistOutcome)
  | recovering
  /-- the side effects, and the SADD of the applied marker -/
  | marking
  | acking (outcome : CommandOutcome) (error : Option CommandError)
deriving DecidableEq

/-- where the apply goes on -/
def Verdict.stage : Verdict → Stage
  | .persist => .queued
  | .recover => .recovering
  | .noop => .marking
  | .reject e => .acking .duplicateSubmission (some e)

/-- the stages a throw leaves without touching the machine; a persist that throws is a reply -/
def Stage.canAbort : Stage → Bool
  | .queued => false
  | .writing _ => false
  | .settled _ => false
  | _ => true

/-- an entry in the hands of a consumer -/
structure Delivery where
  entry : StreamEntry
  /-- the apply has changed the machine -/
  changed : Bool
  stage : Stage
deriving DecidableEq

structure Consumer where
  /-- the entry of `stateMachines` -/
  machine : Option Copy
  /-- `inFlight` lets a node process one entry of the match at a time -/
  delivery : Option Delivery
  /-- blobs taken by the persists of other calls -/
  writes : List Copy
  /-- GETs of calls that missed the cache -/
  reads : ℕ
  /-- decoded machines whose answer key is being looked up -/
  hydrations : List Copy
deriving DecidableEq

def Consumer.idle : Consumer := ⟨none, none, [], 0, []⟩

structure Commands where
  /-- `match:cmd`; `none` is an entry that does not validate -/
  stream : List (Option StreamEntry)
  acked : List ℕ
  /-- the applied set -/
  applied : List String
  /-- every entry handed to a consumer so far -/
  delivered : List ℕ
  /-- `match:state` is the serialized machine of this copy -/
  state : Option Copy
  /-- every command whose effect was in a stored blob at some time -/
  stored : List StreamEntry
  nodes : String → Consumer

namespace Commands

/-- as `createMatch` leaves it -/
def init (creator : String) (m : Machine) : Commands where
  stream := []
  acked := []
  applied := []
  delivered := []
  state := some ⟨m, []⟩
  stored := []
  nodes := Function.update (fun _ => Consumer.idle) creator { Consumer.idle with machine := some ⟨m, []⟩ }

def setNode (s : Commands) (n : String) (node : Consumer) : Commands :=
  { s with nodes := Function.update s.nodes n node }

/-- the reply of a persist -/
def store (s : Commands) (blob : Copy) (outcome : PersistOutcome) : Commands :=
  if outcome.written then { s with state := some blob, stored := blob.commands ++ s.stored } else s

/-- the delivery of a node goes on -/
def setStage (s : Commands) (n : String) (d : Delivery) (stage : Stage) : Commands :=
  s.setNode n { s.nodes n with delivery := some { d with stage := stage } }

/-- the delivery ends; the entry is acknowledged by `xack` only -/
def endDelivery (s : Commands) (n : String) : Commands := s.setNode n { s.nodes n with delivery := none }

/-! ## Steps -/

structure SubmitAnswerPayload where
  matchId : String
  roundNo : ℕ
  answer : String
  submissionId : String
deriving DecidableEq

inductive CommandOp where
  /-- SUBMIT_ANSWER of a client of node `n` -/
  | handleSubmitAnswer (n userId : String) (payload : SubmitAnswerPayload) (eventId : String) (now : Time)
  /-- the other producers -/
  | forward (env : CommandEnvelope)
  | forwardInvalid
  | deadLetter (id : ℕ)
  /-- XREADGROUP or XAUTOCLAIM -/
  | deliver (n : String) (id : ℕ)
  | sismember (n : String)
  /-- `getStateMachine` finds no blob, or one that does not decode -/
  | missing (n : String)
  | look (n : String) (now : Clock)
  | takeBlob (n : String)
  | reply (n : String) (outcome : PersistOutcome)
  | finish (n : String)
  | sadd (n : String) (ok : Bool)
  | recover (n : String) (held : Bool)
  | xack (n : String)
  /-- a Redis or database call throws, or the lease is found lost -/
  | abort (n : String)
  | crash (n : String)
  /-- the round loop, a timer or another handler calls the cached machine -/
  | call (n : String) (o : Op)
  /-- the callback of an armed bot answer -/
  | botAnswer (n : String) (sim : BotAnswer) (now : Clock)
  /-- another call persists: its blob is taken, and the reply comes -/
  | persist (n : String)
  | persisted (n : String) (i : ℕ) (outcome : PersistOutcome)
  | evictStateMachine (n : String)
  | getStateMachine (n : String)
  | readState (n : String)
  | install (n : String) (i : ℕ) (correctAnswer : Option String)
  /-- the blob expires or is deleted -/
  | expire

/-- `randomUUID` gives an id that no entry has -/
def isFresh (s : Commands) (eventId : String) : Bool :=
  s.stream.all fun e => e.all fun e => e.envelope.eventId ≠ eventId

def append (s : Commands) (env : CommandEnvelope) (roundNo : Option ℕ) : Commands :=
  if s.isFresh env.eventId then { s with stream := s.stream ++ [some ⟨s.stream.length, env, roundNo⟩] } else s

/-- the player must be in the match and online; `roundNo` goes no further than here -/
def handleSubmitAnswer (s : Commands) (n userId : String) (payload : SubmitAnswerPayload) (eventId : String)
    (now : Time) : Commands :=
  match ((s.nodes n).machine.bind fun c => c.machine.state.players.get userId) with
  | none => s
  | some player =>
    if player.status = .disconnected then s
    else if h : eventId ≠ "" ∧ userId ≠ "" then
      s.append ⟨eventId, payload.matchId, n, now, userId,
        .submitAnswer payload.answer payload.submissionId payload.submissionId now, h.1, h.2⟩ (some payload.roundNo)
    else s

/-- answers come through `handleSubmitAnswer` only -/
def forward (s : Commands) (env : CommandEnvelope) : Commands :=
  match env.body with
  | .submitAnswer .. => s
  | _ => s.append env none

/-- an entry that does not validate is kept aside and acknowledged -/
def deadLetter (s : Commands) (id : ℕ) : Commands :=
  match s.stream[id]? with
  | some none => { s with acked := id :: s.acked }
  | _ => s

def deliver (s : Commands) (n : String) (id : ℕ) : Commands :=
  match s.stream[id]?, (s.nodes n).delivery with
  | some (some e), none =>
    if id ∈ s.acked then s
    else { s with delivered := id :: s.delivered }.setNode n
      { s.nodes n with delivery := some ⟨e, false, .checking⟩ }
  | _, _ => s

def sismember (s : Commands) (n : String) : Commands :=
  match (s.nodes n).delivery with
  | some d =>
    match d.stage with
    | .checking =>
      if d.entry.envelope.eventId ∈ s.applied then
        match d.entry.envelope.body with
        | .playerDisconnect => s.setStage n d (.acking .applied none)
        | _ => s.setStage n d .recovering
      else s.setStage n d .fetching
    | _ => s
  | none => s

/-- what an apply does when there is no machine -/
def withoutMachine (s : Commands) (n : String) : Commands :=
  match (s.nodes n).delivery with
  | some d =>
    match d.stage, d.entry.envelope.body with
    | .fetching, .playerDisconnect => s.setStage n d .marking
    | .fetching, _ => s.endDelivery n
    | .recovering, .cardPick .. => s.endDelivery n
    | .recovering, .cardPlay .. => s.endDelivery n
    | .recovering, _ => s.setStage n d (.acking .duplicateEvent none)
    | _, _ => s
  | none => s

def missing (J : StringOps) (s : Commands) (n : String) : Commands :=
  match (s.nodes n).machine, s.state.map fun c => Machine.deserialize J (some c.machine.serialize) with
  | some _, _ => s
  | _, some (.ok _) => s
  | none, _ => { s with state := none }.withoutMachine n

/-- the synchronous part of the apply -/
def look (J : StringOps) (s : Commands) (n : String) (now : Clock) : Commands :=
  match (s.nodes n).delivery, (s.nodes n).machine with
  | some d, some c =>
    match d.stage with
    | .fetching =>
      let r := dispatchBuiltin J c.machine d.entry.envelope now
      s.setNode n { s.nodes n with
        machine := some (c.write (.command d.entry) r.1)
        delivery := some ⟨d.entry, r.1 ≠ c.machine, r.2.stage⟩ }
    | _ => s
  | _, _ => s

def takeBlob (s : Commands) (n : String) : Commands :=
  match (s.nodes n).delivery with
  | some d =>
    match d.stage with
    | .queued =>
      match (s.nodes n).machine with
      | none => s.setStage n d (.settled .blind)
      | some c => s.setStage n d (.writing c)
    | _ => s
  | none => s

def reply (s : Commands) (n : String) (outcome : PersistOutcome) : Commands :=
  match (s.nodes n).delivery with
  | some d =>
    match d.stage with
    | .writing blob => (s.store blob outcome).setStage n d (.settled outcome)
    | _ => s
  | none => s

/-- a persist that was refused evicts the machine; one that throws does not -/
def finish (s : Commands) (n : String) : Commands :=
  match (s.nodes n).delivery with
  | some d =>
    match d.stage with
    | .settled .applied => s.setStage n d .marking
    | .settled (.threw _) => s.endDelivery n
    | .settled _ => s.setNode n { s.nodes n with machine := none, delivery := none }
    | _ => s
  | none => s

def sadd (s : Commands) (n : String) (ok : Bool) : Commands :=
  match (s.nodes n).delivery with
  | some d =>
    match d.stage with
    | .marking =>
      { s with applied := if ok then d.entry.envelope.eventId :: s.applied else s.applied }.setStage n d
        (.acking .applied none)
    | _ => s
  | none => s

def recover (s : Commands) (n : String) (held : Bool) : Commands :=
  match (s.nodes n).delivery, (s.nodes n).machine with
  | some d, some c =>
    match d.stage with
    | .recovering =>
      if held then
        s.setStage n d (.acking (recoverDuplicate c.machine d.entry.envelope).1
          (recoverDuplicate c.machine d.entry.envelope).2)
      else s.endDelivery n
    | _ => s
  | _, _ => s

def xack (s : Commands) (n : String) : Commands :=
  match (s.nodes n).delivery with
  | some d =>
    match d.stage with
    | .acking .. => { s with acked := d.entry.id :: s.acked }.endDelivery n
    | _ => s
  | none => s

def abort (s : Commands) (n : String) : Commands :=
  match (s.nodes n).delivery with
  | some d => if d.stage.canAbort then s.endDelivery n else s
  | none => s

def causeOf (delivered : List ℕ) : Op → Cause
  | .startRound .. => .startRound
  | .pickOffer p .. => .pickOffer p
  | .reconnectPlayer p _ => .reconnect p delivered
  | .submitAnswer p .. => .answer p
  | _ => .other

def call (J : StringOps) (s : Commands) (n : String) (o : Op) : Commands :=
  match (s.nodes n).machine with
  | some c =>
    if MatchService.isWrite o then
      s.setNode n { s.nodes n with machine := some (c.write (causeOf s.delivered o) (c.machine.step J o)) }
    else s
  | none => s

/-- the callback asks for an open round, not for the one it was armed in -/
def botAnswer (J : StringOps) (s : Commands) (n : String) (sim : BotAnswer) (now : Clock) : Commands :=
  match (s.nodes n).machine with
  | some c =>
    match c.machine.currentRound with
    | none => s
    | some round =>
      if c.machine.state.status ≠ .roundActive ∨ round.endsAt ≤ now 0 then s
      else s.setNode n { s.nodes n with
        machine := some (c.write (.botAnswer sim)
          (c.machine.step J (.submitAnswer sim.userId sim.answer (now 0) (some sim.submissionId) (laterClock now)))) }
  | none => s

def persist (s : Commands) (n : String) : Commands :=
  match (s.nodes n).machine with
  | some c => s.setNode n { s.nodes n with writes := (s.nodes n).writes ++ [c] }
  | none => s

def persisted (s : Commands) (n : String) (i : ℕ) (outcome : PersistOutcome) : Commands :=
  match (s.nodes n).writes[i]? with
  | some blob =>
    (s.store blob outcome).setNode n { s.nodes n with writes := (s.nodes n).writes.eraseIdx i }
  | none => s

def evictStateMachine (s : Commands) (n : String) : Commands := s.setNode n { s.nodes n with machine := none }

def getStateMachine (s : Commands) (n : String) : Commands :=
  match (s.nodes n).machine with
  | some _ => s
  | none => s.setNode n { s.nodes n with reads := (s.nodes n).reads + 1 }

def readState (J : StringOps) (s : Commands) (n : String) : Commands :=
  if (s.nodes n).reads = 0 then s
  else
    let node := { s.nodes n with reads := (s.nodes n).reads - 1 }
    match s.state with
    | none => s.setNode n node
    | some c =>
      match Machine.deserialize J (some c.machine.serialize) with
      | .error _ => { s with state := none }.setNode n node
      | .ok m => s.setNode n { node with hydrations := node.hydrations ++ [⟨m, c.trace⟩] }

def install (s : Commands) (n : String) (i : ℕ) (correctAnswer : Option String) : Commands :=
  match (s.nodes n).hydrations[i]? with
  | none => s
  | some c =>
    s.setNode n { s.nodes n with
      machine := some ⟨Cluster.rehydrated c.machine correctAnswer, c.trace⟩
      hydrations := (s.nodes n).hydrations.eraseIdx i }

def step (J : StringOps) (s : Commands) : CommandOp → Commands
  | .handleSubmitAnswer n userId payload eventId now => s.handleSubmitAnswer n userId payload eventId now
  | .forward env => s.forward env
  | .forwardInvalid => { s with stream := s.stream ++ [none] }
  | .deadLetter id => s.deadLetter id
  | .deliver n id => s.deliver n id
  | .sismember n => s.sismember n
  | .missing n => s.missing J n
  | .look n now => s.look J n now
  | .takeBlob n => s.takeBlob n
  | .reply n outcome => s.reply n outcome
  | .finish n => s.finish n
  | .sadd n ok => s.sadd n ok
  | .recover n held => s.recover n held
  | .xack n => s.xack n
  | .abort n => s.abort n
  | .crash n => s.setNode n Consumer.idle
  | .call n o => s.call J n o
  | .botAnswer n sim now => s.botAnswer J n sim now
  | .persist n => s.persist n
  | .persisted n i outcome => s.persisted n i outcome
  | .evictStateMachine n => s.evictStateMachine n
  | .getStateMachine n => s.getStateMachine n
  | .readState n => s.readState J n
  | .install n i key => s.install n i key
  | .expire => { s with state := none }

/-! ## Parts of schedules -/

def clockAt (t : Time) : Clock := fun _ => t

def twoPlayers : Machine := Machine.create "m1" "r1" [freshPlayer "alice", freshPlayer "bob"]

/-- node `n` starts a round -/
def asks (n question : String) (t : Time) : List CommandOp :=
  [.call n (.transition .roundActive (clockAt t)),
    .call n (.startRound ⟨question, "2 + 2?", ["3", "4", "5", "6"], "4", none⟩ none (clockAt t))]

/-- node `n` ends the round -/
def evaluates (n : String) (t : Time) : List CommandOp :=
  [.call n (.transition .roundEvaluating (clockAt t)), .call n (.evaluateRound (clockAt t)),
    .call n (.transition .roundResult (clockAt t))]

/-- from the creation of the match to its first round, on node `n` -/
def opens (n : String) : List CommandOp := .call n (.transition .countdown (clockAt 0)) :: asks n "q1" 0

/-- another call of node `n` stores the machine -/
def stores (n : String) : List CommandOp := [.persist n, .persisted n 0 .applied]

/-- a client of node `n` answers with the right option -/
def submits (n user submissionId eventId : String) (roundNo : ℕ) (t : Time) : CommandOp :=
  .handleSubmitAnswer n user ⟨"m1", roundNo, "b", submissionId⟩ eventId t

/-- node `n` is handed an entry that is not marked, and applies it -/
def takes (n : String) (id : ℕ) (t : Time) : List CommandOp := [.deliver n id, .sismember n, .look n (clockAt t)]

/-- the persist of the entry -/
def writes (n : String) (outcome : PersistOutcome) : List CommandOp := [.takeBlob n, .reply n outcome, .finish n]

end Commands

end Arena.Api
