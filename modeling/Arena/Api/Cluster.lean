/-
The API nodes of one match over shared Redis (`match.service.ts`, `match-ownership.service.ts`).

A node keeps the cached state machine (`stateMachines`), its ownership entry (`owned`) and the revision it last applied,
bound to the fence it was applied under (`revisions`). Every `await` is a step boundary: `getStateMachine` misses the
cache, has its GET answered and installs the decoded machine in three steps, with anything in between, and several such
calls may be in flight; `persistStateMachine` takes the blob and the ownership snapshot, reads the revision when its
cached one belongs to another fence, and then runs the fenced CAS. Persists of one node are serialized
(`runPersistExclusive`), so a node has at most one in flight.

Ownership entries are set from any lease the node was granted, at any later time: recovery records the entry when the
script answers and again before it resumes the loop. All other scripts and all expiries run with any arguments at any
time. The match starts as `createMatch` leaves it: cached on the creating node, its blob stored, no lease yet.
-/
import Arena.Redis.Fencing
import Arena.GameCore.Codec

namespace Arena.Api

open Arena.Lib Arena.Shared Arena.GameCore Arena.Redis

/-! ## State -/

/-- fence and lease value of an ownership entry -/
abbrev OwnedEntry := ℕ × String

/-- a `persistStateMachineInner` in flight; the revision is not known while it is being read -/
structure Persist where
  snapshot : OwnedEntry
  blob : WireMatch
  expectedRevision : Option ℕ

structure Node where
  machine : Option Machine
  owned : Option OwnedEntry
  /-- fence and revision -/
  revision : Option (ℕ × ℕ)
  /-- every lease the node was granted -/
  granted : List OwnedEntry
  /-- `getStateMachine` calls that missed the cache and wait for their GET -/
  reads : ℕ
  /-- decoded machines whose answer key is being looked up -/
  hydrations : List Machine
  /-- undecodable blobs seen, whose DEL is still to run -/
  corrupt : ℕ
  persist : Option Persist

def Node.idle : Node := ⟨none, none, none, [], 0, [], 0, none⟩

structure Cluster where
  keys : Keys WireMatch
  nodes : String → Node

namespace Cluster

/-- `createMatch` on `creator`, with its bootstrap write -/
def init (creator : String) (m : Machine) : Cluster where
  keys := { (Keys.empty : Keys WireMatch) with state := some m.serialize }
  nodes := Function.update (fun _ => Node.idle) creator { Node.idle with machine := some m }

def setNode (s : Cluster) (n : String) (node : Node) : Cluster := { s with nodes := Function.update s.nodes n node }

/-! ## Steps -/

inductive ClusterOp where
  /-- `acquireMatchLease` by a launch or a recovery attempt -/
  | acquire (n : String)
  /-- `owned.set` with a granted lease -/
  | own (n : String) (entry : OwnedEntry)
  | relinquish (n : String)
  /-- any other script, or an expiry -/
  | redis (c : Call WireMatch)
  | getStateMachine (n : String)
  | readState (n : String)
  /-- the i-th hydration in flight gets its answer key and is cached -/
  | install (n : String) (i : ℕ) (correctAnswer : Option String)
  | dropCorrupt (n : String)
  | evictStateMachine (n : String)
  /-- a command or timer calls the cached machine -/
  | mutate (n : String) (o : Op)
  | persistStateMachine (n : String)
  /-- a failed read counts as the initial revision -/
  | readPersistedRevision (n : String) (failed : Bool)
  | fencedStateSet (n : String)

def acquire (s : Cluster) (n : String) : Cluster :=
  let (keys, reply) := s.keys.acquireMatchLease n
  match reply with
  | .acquired fence lease =>
    { s with keys := keys }.setNode n { s.nodes n with granted := (s.nodes n).granted ++ [(fence, lease)] }
  | _ => { s with keys := keys }

def own (s : Cluster) (n : String) (entry : OwnedEntry) : Cluster :=
  if entry ∈ (s.nodes n).granted then s.setNode n { s.nodes n with owned := some entry } else s

/-- the ownership entry goes, the cached machine stays -/
def relinquish (s : Cluster) (n : String) : Cluster := s.setNode n { s.nodes n with owned := none }

/-- the scripts that neither grant a lease nor write a blob -/
def isOtherScript : Call WireMatch → Bool
  | .acquireMatchLease _ => false
  | .fencedStateSet .. => false
  | _ => true

def redis (s : Cluster) (c : Call WireMatch) : Cluster :=
  if isOtherScript c then { s with keys := s.keys.step c } else s

/-- a cached machine is returned at once; a miss asks Redis -/
def getStateMachine (s : Cluster) (n : String) : Cluster :=
  match (s.nodes n).machine with
  | some _ => s
  | none => s.setNode n { s.nodes n with reads := (s.nodes n).reads + 1 }

def readState (J : StringOps) (s : Cluster) (n : String) : Cluster :=
  if (s.nodes n).reads = 0 then s
  else
    let node := { s.nodes n with reads := (s.nodes n).reads - 1 }
    match s.keys.state with
    | none => s.setNode n node
    | some blob =>
      match Machine.deserialize J (some blob) with
      | .error _ => s.setNode n { node with corrupt := node.corrupt + 1 }
      | .ok m => s.setNode n { node with hydrations := node.hydrations ++ [m] }

/-- `rehydrateCorrectAnswer`: nothing is attached when the lookup finds no question or fails -/
def rehydrated (m : Machine) (correctAnswer : Option String) : Machine :=
  match correctAnswer with
  | some key => m.attachCorrectAnswer key
  | none => m

/-- a hydration logs nothing -/
theorem rehydrated_eventLog (m : Machine) (key : Option String) : (rehydrated m key).eventLog = m.eventLog := by
  unfold rehydrated
  split
  · unfold Machine.attachCorrectAnswer
    split
    · rfl
    · split_ifs <;> rfl
  · rfl

def install (s : Cluster) (n : String) (i : ℕ) (correctAnswer : Option String) : Cluster :=
  match (s.nodes n).hydrations[i]? with
  | none => s
  | some m =>
    s.setNode n { s.nodes n with
      machine := some (rehydrated m correctAnswer)
      hydrations := (s.nodes n).hydrations.eraseIdx i }

def dropCorrupt (s : Cluster) (n : String) : Cluster :=
  if (s.nodes n).corrupt = 0 then s
  else { s with keys := { s.keys with state := none } }.setNode n
    { s.nodes n with corrupt := (s.nodes n).corrupt - 1 }

def evictStateMachine (s : Cluster) (n : String) : Cluster := s.setNode n { s.nodes n with machine := none }

def mutate (J : StringOps) (s : Cluster) (n : String) (o : Op) : Cluster :=
  match (s.nodes n).machine with
  | none => s
  | some m => s.setNode n { s.nodes n with machine := some (m.step J o) }

/-- blob and snapshot are taken together; the cached revision counts only under the snapshot's fence -/
def persistStateMachine (s : Cluster) (n : String) : Cluster :=
  match (s.nodes n).persist, (s.nodes n).machine, (s.nodes n).owned with
  | none, some m, some snapshot =>
    let expected := match (s.nodes n).revision with
      | some (fence, revision) => if fence = snapshot.1 then some revision else none
      | none => none
    s.setNode n { s.nodes n with persist := some ⟨snapshot, m.serialize, expected⟩ }
  | _, _, _ => s

def readPersistedRevision (s : Cluster) (n : String) (failed : Bool) : Cluster :=
  match (s.nodes n).persist with
  | some p =>
    if p.expectedRevision.isSome then s
    else
      let revision := if failed then 0 else s.keys.revision.getD 0
      s.setNode n { s.nodes n with persist := some { p with expectedRevision := some revision } }
  | none => s

/-- the reply of the CAS of a persist in flight -/
def casReply (s : Cluster) (p : Persist) (expectedRevision : ℕ) : Keys WireMatch × Bool :=
  s.keys.fencedStateSet p.snapshot.2 p.snapshot.1 p.blob expectedRevision (expectedRevision + 1)

def fencedStateSet (s : Cluster) (n : String) : Cluster :=
  match (s.nodes n).persist with
  | some p =>
    match p.expectedRevision with
    | none => s
    | some expectedRevision =>
      let (keys, applied) := s.casReply p expectedRevision
      { s with keys := keys }.setNode n
        { s.nodes n with
          persist := none
          revision := if applied then some (p.snapshot.1, expectedRevision + 1) else (s.nodes n).revision }
  | none => s

def step (J : StringOps) (s : Cluster) : ClusterOp → Cluster
  | .acquire n => s.acquire n
  | .own n entry => s.own n entry
  | .relinquish n => s.relinquish n
  | .redis c => s.redis c
  | .getStateMachine n => s.getStateMachine n
  | .readState n => s.readState J n
  | .install n i key => s.install n i key
  | .dropCorrupt n => s.dropCorrupt n
  | .evictStateMachine n => s.evictStateMachine n
  | .mutate n o => s.mutate J n o
  | .persistStateMachine n => s.persistStateMachine n
  | .readPersistedRevision n failed => s.readPersistedRevision n failed
  | .fencedStateSet n => s.fencedStateSet n

theorem setNode_nodes (s : Cluster) (n k : String) (node : Node) :
    (s.setNode n node).nodes k = if k = n then node else s.nodes k := by
  simp [setNode, Function.update_apply]

end Cluster

end Arena.Api
