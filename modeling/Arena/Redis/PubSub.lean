/-
Subscriptions of the pub/sub connection (`redis.pubsub.ts`, with `ensureSubscriber` and `removeHandler` of
`redis.service.ts`).

A step runs one party, an operation or the reset, from one await to the next. An operation is the number of its call; a
connection is the number of its `duplicate()`; a reset is the number of resets that ended before it. The promise chain
of a channel is the list of its operations that have not settled. The marker of an operation is its number, with
`detached` for the promise that `detach` resolves.

A Redis call is kept where it is awaited, with its connection and its place in the order of issue. A connection answers
in that order; a call that never reaches it may be rejected at any time. The effect of a call on its connection stands
in the step of its reply.

The rebuild iterates over the live handler map: an entry set while it runs is still visited, a deleted one that is set
again is a new entry (`Reset.forget`).
-/
import Arena.Lib.JsMap
import Arena.Lib.Run

namespace Arena.Redis.PubSub

open Arena.Lib

/-! ## Model -/

/-- `RECONCILE_RETRIES` -/
def reconcileRetries : ℕ := 3

inductive Kind where
  | subscribe
  | unsubscribe
deriving DecidableEq, Repr

/-- how a Redis call settles: resolved, or rejected before or after it took effect -/
inductive Reply where
  | ok
  | failedBefore
  | failedAfter
deriving DecidableEq, Repr

structure Call where
  conn : ℕ
  ticket : ℕ
deriving DecidableEq, Repr

/-- the await at which an operation stands -/
inductive Phase where
  /-- in `awaitResetBarrier`, on a reset -/
  | atBarrier (reset : ℕ)
  /-- past the barrier, before `chain` -/
  | admitted
  /-- behind the operations of its channel -/
  | queued
  | subscribing (call : Call)
  /-- in `reconcileAfterFailedSubscribe`, on the UNSUBSCRIBE of an attempt -/
  | reconciling (call : Call) (attempt : ℕ)
  | unsubscribing (call : Call)
  /-- on `resetSubscriber(ctx, self)` -/
  | handedOff (reset : ℕ)
  | settled
deriving DecidableEq, Repr

/-- `fn` of the chain is under way -/
def Phase.isRunning : Phase → Bool
  | .subscribing _ => true
  | .reconciling _ _ => true
  | .unsubscribing _ => true
  | .handedOff _ => true
  | _ => false

/-- the operation is in the chain of its channel -/
def Phase.isChained (p : Phase) : Bool := p = .queued || p.isRunning

/-- the reset it waits for -/
def Phase.awaited : Phase → Option ℕ
  | .atBarrier r => some r
  | .handedOff r => some r
  | _ => none

def Phase.call : Phase → Option Call
  | .subscribing c => some c
  | .reconciling c _ => some c
  | .unsubscribing c => some c
  | _ => none

structure Op (H : Type) where
  kind : Kind
  channel : String
  handler : H
  phase : Phase
  detached : Bool
deriving DecidableEq, Repr

inductive Reset where
  /-- waits for the operations that were in flight at its start -/
  | draining (ops : List ℕ)
  /-- the iterator has passed `visited`, and the SUBSCRIBE of `channel` is out -/
  | rebuilding (visited : List String) (channel : String) (call : Call)
deriving DecidableEq, Repr

/-- the entry of a channel is deleted under the iterator -/
def Reset.forget (channel : String) : Reset → Reset
  | .draining ops => .draining ops
  | .rebuilding visited current call => .rebuilding (visited.filter (· ≠ channel)) current call

def Reset.call : Reset → Option Call
  | .draining _ => none
  | .rebuilding _ _ c => some c

/-- who awaits something -/
inductive Party where
  | op (i : ℕ)
  | reset
deriving DecidableEq, Repr

structure State (H : Type) where
  handlers : JsMap String (List H)
  subscriber : Option ℕ
  /-- connections duplicated so far -/
  minted : ℕ
  /-- the channels a connection is subscribed to -/
  subscribed : ℕ → String → Bool
  /-- Redis calls issued so far -/
  issued : ℕ
  ops : List (Op H)
  chains : String → List ℕ
  inFlight : JsSet ℕ
  reset : Option Reset
  resetPending : Bool
  /-- for each ended reset, whether its barrier resolved -/
  outcomes : List Bool

inductive Event (H : Type) where
  | call (kind : Kind) (channel : String) (handler : H)
  /-- what a party awaits has come, and it goes on -/
  | run (x : Party)
  | reply (x : Party) (r : Reply)

section Model

variable {H : Type} [DecidableEq H]

namespace State

def init : State H := ⟨JsMap.empty, none, 0, fun _ _ => false, 0, [], fun _ => [], JsSet.empty, none, false, []⟩

/-- the channel is subscribed on the current connection -/
def isLive (s : State H) (channel : String) : Bool := s.subscriber.any fun k => s.subscribed k channel

/-- `(ctx.handlers.get(channel)?.length ?? 0) > 0` -/
def hasHandlers (s : State H) (channel : String) : Bool := (s.handlers.get channel).any fun l => 0 < l.length

def setPhase (s : State H) (i : ℕ) (p : Phase) : State H :=
  { s with ops := s.ops.modify i fun o => { o with phase := p } }

/-- operation `i` awaits a Redis call on `conn` -/
def issue (s : State H) (i conn : ℕ) (p : Call → Phase) : State H :=
  { s with issued := s.issued + 1 }.setPhase i (p ⟨conn, s.issued⟩)

/-- `fn` has settled: the marker goes, and the chain passes on -/
def finish (s : State H) (i : ℕ) (o : Op H) : State H :=
  { s with
    inFlight := s.inFlight.delete i
    chains := Function.update s.chains o.channel (s.chains o.channel).tail }.setPhase i .settled

/-- `this.client.duplicate()`, a connection without subscriptions -/
def mint (s : State H) : State H :=
  { s with
    subscriber := some s.minted
    minted := s.minted + 1
    subscribed := Function.update s.subscribed s.minted fun _ => false }

def ensureSubscriber (s : State H) : State H × ℕ :=
  match s.subscriber with
  | some k => (s, k)
  | none => (s.mint, s.minted)

/-- the entry of a channel is deleted from the map, and under the iterator -/
def dropEntry (s : State H) (channel : String) : State H :=
  { s with handlers := s.handlers.delete channel, reset := s.reset.map (Reset.forget channel) }

def removeHandler (s : State H) (channel : String) (handler : H) : State H × Bool :=
  match s.handlers.get channel with
  | none => (s, false)
  | some list =>
    if handler ∈ list then
      if (list.erase handler).length = 0 then (s.dropEntry channel, true)
      else ({ s with handlers := s.handlers.set channel (list.erase handler) }, true)
    else (s, false)

/-! ### Reset -/

/-- the iterator goes to the next entry, or the rebuild is over -/
def visitNext (s : State H) (visited : List String) (sub : ℕ) : State H :=
  match s.handlers.entries.find? fun e => e.1 ∉ visited ∧ 0 < e.2.length with
  | some e =>
    { s with issued := s.issued + 1, reset := some (.rebuilding (visited ++ [e.1]) e.1 ⟨sub, s.issued⟩) }
  | none => { s with reset := none, outcomes := s.outcomes ++ [true] }

def failReset (s : State H) : State H :=
  { s with resetPending := true, reset := none, outcomes := s.outcomes ++ [false] }

/-- the markers that a drain waits for are settled or detached -/
def drained (s : State H) (ops : List ℕ) : Bool :=
  ops.all fun i => s.ops[i]?.all fun o => o.detached || o.phase = .settled

/-- the drain is over: the connection is replaced and the rebuild begins -/
def rebuild (s : State H) : State H := s.mint.visitNext [] s.minted

/-- `self.detach?.()` -/
def detach (s : State H) (i : ℕ) : State H :=
  { s with ops := s.ops.modify i fun o => { o with detached := true } }

/-- `resetSubscriber` up to its first await -/
def resetSubscriber (s : State H) (self : Option ℕ) : State H :=
  match s.reset, self with
  | some _, some i => s.detach i
  | some _, none => s
  | none, some i =>
    { s with
      resetPending := false
      inFlight := s.inFlight.delete i
      reset := some (.draining (s.inFlight.delete i).elems) }
  | none, none => { s with resetPending := false, reset := some (.draining s.inFlight.elems) }

/-- the loop of `awaitResetBarrier` up to its next await -/
def awaitResetBarrier (s : State H) (i : ℕ) : State H :=
  if s.reset.isSome then s.setPhase i (.atBarrier s.outcomes.length)
  else if s.resetPending then (s.resetSubscriber none).setPhase i (.atBarrier s.outcomes.length)
  else s.setPhase i .admitted

/-- `await resetSubscriber(ctx, self)` -/
def handOff (s : State H) (i : ℕ) : State H :=
  (s.resetSubscriber (some i)).setPhase i (.handedOff s.outcomes.length)

/-! ### Operations -/

def chain (s : State H) (i : ℕ) (o : Op H) : State H :=
  { s with chains := Function.update s.chains o.channel (s.chains o.channel ++ [i]) }.setPhase i .queued

def doSubscribe (s : State H) (i : ℕ) (o : Op H) : State H :=
  let (s1, sub) := s.ensureSubscriber
  let list := (s1.handlers.get o.channel).getD []
  let s2 := { s1 with handlers := s1.handlers.set o.channel (list ++ [o.handler]) }
  if 0 < list.length then s2.finish i o else s2.issue i sub .subscribing

def doUnsubscribe (s : State H) (i : ℕ) (o : Op H) : State H :=
  let (s1, removed) := s.removeHandler o.channel o.handler
  -- the list that the removal empties is no longer in the map
  if !removed || s1.hasHandlers o.channel then s1.finish i o
  else
    match s1.subscriber with
    | none => s1.finish i o
    | some sub => s1.issue i sub .unsubscribing

def runInFlight (s : State H) (i : ℕ) (o : Op H) : State H :=
  let s1 := { s with inFlight := s.inFlight.add i }
  match o.kind with
  | .subscribe => s1.doSubscribe i o
  | .unsubscribe => s1.doUnsubscribe i o

def reconcileAfterFailedSubscribe (s : State H) (i : ℕ) (o : Op H) : State H :=
  if s.hasHandlers o.channel then s.finish i o
  else
    match s.subscriber with
    | none => s.finish i o
    | some sub => s.issue i sub (.reconciling · 0)

/-- what a call leaves on its connection -/
def takeEffect (s : State H) (conn : ℕ) (channel : String) (on : Bool) (r : Reply) : State H :=
  if r = .failedBefore then s
  else { s with subscribed := Function.update s.subscribed conn (Function.update (s.subscribed conn) channel on) }

/-- operation `i` goes on after the reply to its call -/
def replied (s : State H) (i : ℕ) (o : Op H) (r : Reply) : State H :=
  match o.phase with
  | .subscribing c =>
    let s1 := s.takeEffect c.conn o.channel true r
    if r = .ok then s1.finish i o
    else (s1.removeHandler o.channel o.handler).1.reconcileAfterFailedSubscribe i o
  | .reconciling c attempt =>
    let s1 := s.takeEffect c.conn o.channel false r
    if r = .ok then s1.finish i o
    else if attempt + 1 < reconcileRetries then s1.issue i c.conn (.reconciling · (attempt + 1))
    else s1.handOff i
  | .unsubscribing c =>
    let s1 := s.takeEffect c.conn o.channel false r
    if r = .ok || s1.hasHandlers o.channel then s1.finish i o else s1.handOff i
  | _ => s

/-! ### Steps -/

/-- the reset is over -/
def ended (s : State H) (reset : ℕ) : Bool := decide (reset < s.outcomes.length)

/-- what the party awaits, other than a Redis call, has come -/
def canRun (s : State H) : Party → Bool
  | .op i =>
    match s.ops[i]? with
    | none => false
    | some o =>
      match o.phase with
      | .atBarrier r => s.ended r
      | .admitted => true
      | .queued => (s.chains o.channel).head? = some i
      | .handedOff r => s.ended r
      | _ => false
  | .reset =>
    match s.reset with
    | some (.draining ops) => s.drained ops
    | _ => false

/-- an operation goes on after an await that is no Redis call -/
def resume (s : State H) (i : ℕ) (o : Op H) : State H :=
  match o.phase with
  | .atBarrier r => if s.outcomes[r]? = some true then s.awaitResetBarrier i else s.setPhase i .settled
  | .admitted => s.chain i o
  | .queued => s.runInFlight i o
  | .handedOff _ => s.finish i o
  | _ => s

/-- the Redis calls that have not settled -/
def calls (s : State H) : List Call := s.ops.filterMap (fun o => o.phase.call) ++ (s.reset.bind Reset.call).toList

/-- the connection has answered everything issued on it before -/
def firstInLine (s : State H) (c : Call) : Bool := s.calls.all fun d => d.conn ≠ c.conn || c.ticket ≤ d.ticket

/-- a reply to this call can come now -/
def arrives (s : State H) (c : Call) (r : Reply) : Bool := r = .failedBefore || s.firstInLine c

/-- `subscribe(channel, handler)` or `unsubscribe(channel, handler)` up to its first await -/
def enter (s : State H) (kind : Kind) (channel : String) (handler : H) : State H :=
  { s with ops := s.ops ++ [Op.mk kind channel handler .admitted false] }.awaitResetBarrier s.ops.length

def step (s : State H) : Event H → State H
  | .call kind channel handler => s.enter kind channel handler
  | .run x =>
    if s.canRun x then
      match x with
      | .op i =>
        match s.ops[i]? with
        | some o => s.resume i o
        | none => s
      | .reset => s.rebuild
    else s
  | .reply (.op i) r =>
    match s.ops[i]? with
    | some o => if o.phase.call.any fun c => s.arrives c r then s.replied i o r else s
    | none => s
  | .reply .reset r =>
    match s.reset with
    | some (.rebuilding visited channel c) =>
      if s.arrives c r then
        let s1 := s.takeEffect c.conn channel true r
        if r = .ok then s1.visitNext visited c.conn else s1.failReset
      else s
    | _ => s

/-- no operation and no reset is in flight, and none is owed -/
def Quiescent (s : State H) : Prop := (∀ o ∈ s.ops, o.phase = .settled) ∧ s.reset = none ∧ s.resetPending = false

instance (s : State H) : Decidable s.Quiescent := inferInstanceAs (Decidable (_ ∧ _ ∧ _))

end State

end Model

/-! ## What an effect leaves alone -/

namespace State

variable {H : Type} (s : State H) (conn : ℕ) (channel : String) (on : Bool) (r : Reply)

@[simp] theorem takeEffect_handlers : (s.takeEffect conn channel on r).handlers = s.handlers := by
  unfold takeEffect; split_ifs <;> rfl

@[simp] theorem takeEffect_subscriber : (s.takeEffect conn channel on r).subscriber = s.subscriber := by
  unfold takeEffect; split_ifs <;> rfl

@[simp] theorem takeEffect_issued : (s.takeEffect conn channel on r).issued = s.issued := by
  unfold takeEffect; split_ifs <;> rfl

@[simp] theorem takeEffect_ops : (s.takeEffect conn channel on r).ops = s.ops := by
  unfold takeEffect; split_ifs <;> rfl

@[simp] theorem takeEffect_chains : (s.takeEffect conn channel on r).chains = s.chains := by
  unfold takeEffect; split_ifs <;> rfl

@[simp] theorem takeEffect_inFlight : (s.takeEffect conn channel on r).inFlight = s.inFlight := by
  unfold takeEffect; split_ifs <;> rfl

@[simp] theorem takeEffect_reset : (s.takeEffect conn channel on r).reset = s.reset := by
  unfold takeEffect; split_ifs <;> rfl

@[simp] theorem takeEffect_resetPending : (s.takeEffect conn channel on r).resetPending = s.resetPending := by
  unfold takeEffect; split_ifs <;> rfl

@[simp] theorem takeEffect_outcomes : (s.takeEffect conn channel on r).outcomes = s.outcomes := by
  unfold takeEffect; split_ifs <;> rfl

end State

end Arena.Redis.PubSub
