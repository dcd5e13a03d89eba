/-
Disconnects, voluntary leaves and reconnects of match players on any node (`match-player-lifecycle.ts`, the callers in
`auth.handler.ts` and `room.handler.ts`, and `routeInGameDisconnect` of `presence.service.ts`).

Each node is a `MatchService` (its machine objects, the entry of its map, its calls and its persist chain) over the
shared Redis keys, with an ownership entry and a cached revision of its own. A persist without an ownership entry is
refused; with one it runs the fenced CAS. The handlers call the machine of their own node, whether it owns the match or
not; only the presence sweep asks, and forwards to the owner's command stream. The applies of the owner's consumer, the
rounds and every other call of a node are `service` steps. The sites of `MatchService` say how a refused persist is
cleaned up. Nodes do not crash.

`changes` records every change received and `stored` every blob that was APPLIED; no step reads them.
-/
import Arena.Api.CanonicalLog
import Arena.Api.Coherence

namespace Arena.Api

open Arena.Lib Arena.Shared Arena.GameCore Arena.Redis

/-! ## State -/

inductive ChangeKind where
  | disconnect
  | leave
  | reconnect
deriving DecidableEq

def ChangeKind.site : ChangeKind → PersistSite
  | .disconnect => .disconnectMatchPlayer
  | .leave => .leaveMatchPlayer
  | .reconnect => .reconnectPlayer

/-- the call on the machine -/
def ChangeKind.op (kind : ChangeKind) (userId : String) (now : Clock) : Op :=
  match kind with
  | .disconnect => .disconnectPlayer userId now
  | .leave => .disconnectPlayer userId now
  | .reconnect => .reconnectPlayer userId now

/-- the event by which the player takes the change back -/
def ChangeKind.opposite (kind : ChangeKind) (userId : String) : MatchEvent :=
  match kind with
  | .disconnect => .playerReconnected userId
  | .leave => .playerReconnected userId
  | .reconnect => .playerDisconnected userId

/-- what has become of a change -/
inductive Fate where
  /-- its call has no machine yet -/
  | pending
  /-- no player to change -/
  | noop
  /-- made on a machine: the events it logged, and the counter after it -/
  | made (logged : List EventLogEntry) (seqNo : ℕ)
  /-- appended to the command stream -/
  | forwarded
  /-- a call threw before the machine was there, or the append did -/
  | failed
deriving DecidableEq

structure LifecycleChange where
  node : String
  /-- its call on the node; none when it was forwarded -/
  call : Option ℕ
  kind : ChangeKind
  userId : String
  fate : Fate
deriving DecidableEq

structure ApiNode where
  service : MatchService
  owned : Option OwnedEntry
  /-- fence and revision -/
  revision : Option (ℕ × ℕ)
  /-- ownership snapshot of the persist in flight, and the revision it expects once that is known -/
  snapshot : Option (OwnedEntry × Option ℕ)
  granted : List OwnedEntry

structure Lifecycle where
  keys : Keys WireMatch
  nodes : String → ApiNode
  changes : List LifecycleChange
  stored : List WireMatch

namespace Lifecycle

/-- `createMatch` on `creator`, with its bootstrap write -/
def init (creator matchId roomId : String) (players : List PlayerInfo) : Lifecycle where
  keys := { (Keys.empty : Keys WireMatch) with state := some (Machine.create matchId roomId players).serialize }
  nodes := Function.update (fun _ => ⟨.idle none, none, none, none, []⟩) creator
    ⟨.createMatch matchId roomId players, none, none, none, []⟩
  changes := []
  stored := []

/-- the node's view of the match -/
def service (s : Lifecycle) (n : String) : MatchService := { (s.nodes n).service with state := s.keys.state }

def setNode (s : Lifecycle) (n : String) (node : ApiNode) : Lifecycle :=
  { s with nodes := Function.update s.nodes n node }

/-- after a step of the node's service -/
def setService (s : Lifecycle) (n : String) (service : MatchService) : Lifecycle :=
  { s with keys := { s.keys with state := service.state } }.setNode n { s.nodes n with service := service }

/-- the call belongs to a lifecycle change -/
def isChange (s : Lifecycle) (n : String) (i : ℕ) : Bool := s.changes.any fun c => c.node = n ∧ c.call = some i

/-- the change whose call waits for its machine -/
def pendingAt (s : Lifecycle) (n : String) (i : ℕ) : Option LifecycleChange :=
  s.changes.find? fun c => c.node = n ∧ c.call = some i ∧ c.fate = .pending

def setFate (s : Lifecycle) (c : LifecycleChange) (fate : Fate) : Lifecycle :=
  { s with changes := s.changes.map fun x => if x = c then { x with fate := fate } else x }

/-! ## Changes -/

/-- a handler of the node is called: `getStateMachine` -/
def receive (s : Lifecycle) (n : String) (kind : ChangeKind) (userId : String) : Lifecycle :=
  { s.setService n ((s.service n).getStateMachine kind.site) with
    changes := s.changes ++ [⟨n, some (s.service n).calls.length, kind, userId, .pending⟩] }

/-- the presence sweep applies it as the owner, and forwards it otherwise -/
def routeInGameDisconnect (s : Lifecycle) (n : String) (userId : String) (appended : Bool) : Lifecycle :=
  if (s.nodes n).owned.isSome then s.receive n .disconnect userId
  else
    { s with changes := s.changes ++ [⟨n, none, .disconnect, userId, if appended then .forwarded else .failed⟩] }

/-- `disconnectMatchPlayer`, `leaveMatchPlayer` and `syncReconnection` once they have the machine, up to the persist -/
def applyChange (J : StringOps) (s : Lifecycle) (n : String) (i : ℕ) (now : Clock) : Lifecycle :=
  match s.pendingAt n i, (s.service n).callAt i with
  | some c, some (.holding w) =>
    match (s.service n).heap[w.ref]? with
    | none => s
    | some m =>
      -- a reconnect does not ask whether the player is there
      if c.kind ≠ .reconnect ∧ m.state.players.has c.userId = false then
        (s.setService n ((s.service n).setCall i .done)).setFate c .noop
      else
        let m' := m.step J (c.kind.op c.userId now)
        (s.setService n (((s.service n).mutate J i (c.kind.op c.userId now)).persistStateMachine i)).setFate c
          (.made (m'.eventLog.drop m.eventLog.length) m'.eventSeqCounter)
  | _, _ => s

/-- a call throws before it has a machine -/
def failCall (s : Lifecycle) (n : String) (i : ℕ) : Lifecycle :=
  match (s.service n).callAt i with
  | some .reading | some .dropping | some (.hydrating _ _) =>
    let s1 := s.setService n ((s.service n).setCall i .done)
    match s.pendingAt n i with
    | some c => s1.setFate c .failed
    | none => s1
  | _ => s

/-! ## Persists -/

/-- the next persist of the chain takes its blob and the ownership snapshot; without one it is refused -/
def serialize (s : Lifecycle) (n : String) : Lifecycle :=
  match (s.service n).persistChain.head?.bind (s.service n).callAt with
  | some (.queued _) =>
    if (s.service n).stateMachine = none then s.setService n (s.service n).serialize
    else
      match (s.nodes n).owned with
      | none => s.setService n ((s.service n).serialize.reply .retry)
      | some entry =>
        let expected := match (s.nodes n).revision with
          | some (fence, revision) => if fence = entry.1 then some revision else none
          | none => none
        (s.setService n (s.service n).serialize).setNode n
          { s.nodes n with service := (s.service n).serialize, snapshot := some (entry, expected) }
  | _ => s

/-- a failed read counts as the initial revision -/
def readPersistedRevision (s : Lifecycle) (n : String) (failed : Bool) : Lifecycle :=
  match (s.nodes n).snapshot with
  | some (entry, none) =>
    s.setNode n { s.nodes n with snapshot := some (entry, some (if failed then 0 else s.keys.revision.getD 0)) }
  | _ => s

/-- the CAS of the persist in flight: the blob, the expected revision, the new keys and the reply -/
def cas (s : Lifecycle) (n : String) : Option (WireMatch × ℕ × Keys WireMatch × Bool) :=
  match (s.service n).persistChain.head?.bind (s.service n).callAt, (s.nodes n).snapshot with
  | some (.writing _ blob), some (entry, some expected) =>
    some (blob, expected, s.keys.fencedStateSet entry.2 entry.1 blob expected (expected + 1))
  | _, _ => none

/-- the CAS runs, and its reply arrives or is lost -/
def reply (s : Lifecycle) (n : String) (arrives : Bool) : Lifecycle :=
  match s.cas n, (s.nodes n).snapshot with
  | some (blob, expected, keys, applied), some (entry, _) =>
    let outcome := if arrives then (if applied then .applied else .retry) else .threw applied
    { s with keys := keys, stored := if applied then s.stored ++ [blob] else s.stored }.setNode n
      { s.nodes n with
        service := (s.service n).reply outcome
        snapshot := none
        revision := if arrives && applied then some (entry.1, expected + 1) else (s.nodes n).revision }
  | _, _ => s

/-- the persist throws before its CAS -/
def failPersist (s : Lifecycle) (n : String) : Lifecycle :=
  match (s.nodes n).snapshot with
  | some _ => s.setNode n { s.nodes n with service := (s.service n).reply (.threw false), snapshot := none }
  | none => s

/-! ## Steps -/

inductive LifecycleOp where
  | receive (n : String) (kind : ChangeKind) (userId : String)
  | routeInGameDisconnect (n userId : String) (appended : Bool)
  | applyChange (n : String) (i : ℕ) (now : Clock)
  | failCall (n : String) (i : ℕ)
  /-- any other step of a node's service -/
  | service (n : String) (o : MatchService.ServiceOp)
  | serialize (n : String)
  | readPersistedRevision (n : String) (failed : Bool)
  | reply (n : String) (arrives : Bool)
  | failPersist (n : String)
  /-- leases and ownership entries, as in `Cluster` -/
  | acquire (n : String)
  | own (n : String) (entry : OwnedEntry)
  | relinquish (n : String)
  | redis (c : Call WireMatch)

/-- the steps of the service that are not steps of this model: persists, and the calls of a lifecycle change -/
def isForeign (s : Lifecycle) (n : String) : MatchService.ServiceOp → Bool
  | .serialize => false
  | .reply _ => false
  | .otherWrite _ => false
  | .mutate i _ => !s.isChange n i
  | .persistStateMachine i => !s.isChange n i
  | .proceed i _ => !s.isChange n i
  | _ => true

def acquire (s : Lifecycle) (n : String) : Lifecycle :=
  let (keys, answer) := s.keys.acquireMatchLease n
  match answer with
  | .acquired fence lease =>
    { s with keys := keys }.setNode n { s.nodes n with granted := (s.nodes n).granted ++ [(fence, lease)] }
  | _ => { s with keys := keys }

def step (J : StringOps) (s : Lifecycle) : LifecycleOp → Lifecycle
  | .receive n kind userId => s.receive n kind userId
  | .routeInGameDisconnect n userId appended => s.routeInGameDisconnect n userId appended
  | .applyChange n i now => s.applyChange J n i now
  | .failCall n i => s.failCall n i
  | .service n o => if s.isForeign n o then s.setService n ((s.service n).step J o) else s
  | .serialize n => s.serialize n
  | .readPersistedRevision n failed => s.readPersistedRevision n failed
  | .reply n arrives => s.reply n arrives
  | .failPersist n => s.failPersist n
  | .acquire n => s.acquire n
  | .own n entry =>
    if (s.nodes n).granted.any (· = entry) then s.setNode n { s.nodes n with owned := some entry } else s
  | .relinquish n => s.setNode n { s.nodes n with owned := none }
  | .redis c => if Cluster.isOtherScript c then { s with keys := s.keys.step c } else s

end Lifecycle

end Arena.Api
