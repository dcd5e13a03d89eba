/-
The ownership entries of all nodes for one match, over the Redis keys (`match-ownership.service.ts`).

Launches, boundaries (`assertOwnership`), heartbeats, releases, recovery attempts and dead-letterings of any number of
nodes run side by side, statement by statement. A statement may fail, or be executed with its reply lost; other scripts
and expiries come in between, and a node may crash. A recovery attempt reads the stored state and the room as it likes.
Heartbeats may overlap here, which `isBeating` excludes.

- `dead_step`: a lease that is not current never becomes current again;
- `resume_grants`: a node holds no lease that it was not granted;
- `beat_step`, `assert_step`: only the entry that was renewed is dropped, and only when its lease is lost or unproven;
- `launch_step`: what `acquireOnLaunch` has reconciled when it returns;
- `entries_are_safe`: all of it, in every reachable state.
-/
import Arena.Redis.Fencing

namespace Arena.Api.Owners

open Arena.Lib Arena.Redis

/-! ## Model -/

def assertRenewAttempts : ℕ := 3

structure Grant where
  fence : ℕ
  lease : String
deriving DecidableEq, Repr

/-- an `OwnedEntry` object -/
structure Entry where
  id : ℕ
  grant : Grant
deriving DecidableEq, Repr

/-- how `acquireOnLaunch` ends; it returns true for the first -/
inductive LaunchResult where
  | owned (entry : Entry)
  | refused
  | lostLease (grant : Grant)
  | released (grant : Grant)
  | handedOff (indexed : Bool)
deriving DecidableEq, Repr

inductive LaunchStage where
  | acquireMatchLease
  | addActiveMatch (attempt : ℕ) (grant : Grant)
  | renewLease (attempt : ℕ) (grant : Grant)
  /-- `compensateLaunchFailure` -/
  | releaseLeaseAndIndex (attempt : ℕ) (grant : Grant)
  | readOwner (attempt : ℕ) (grant : Grant)
  | recoveryHandoff (compensates : Bool)
  | returned (result : LaunchResult)
deriving DecidableEq, Repr

inductive FinalizeStage where
  | finalizeMatchTombstone (entry : Entry)
  | releaseLease (entry : Entry)
  | returned
deriving DecidableEq, Repr

inductive RecoveryStage where
  | reverify (entry : Entry)
  /-- `acquireForRecovery`; `stale` when an entry's lease was lost -/
  | acquireMatchLease (stale : Bool)
  | removeActiveIfTombstoned (stale : Bool)
  /-- `acquireForRecovery` has returned "acquired" -/
  | acquired
  | getStateMachine (entry : Entry)
  | revalidate (entry : Entry)
  | getRoomIdByMatchId (entry : Entry)
  | resumeMatchLoop
  | finalize (stage : FinalizeStage)
  | returned
deriving DecidableEq, Repr

/-- the statement a call waits for -/
inductive Stage where
  | launch (stage : LaunchStage)
  | assertRenew (attempt : ℕ) (entry : Entry)
  | asserted (held : Bool)
  | beat (entry : Entry)
  | beaten
  | release (attempt : ℕ) (entry : Entry)
  | released
  | recovery (stage : RecoveryStage)
  | deadLetter (stage : FinalizeStage)
deriving DecidableEq, Repr

/-- the entry of the match in `owned`, and its membership in `recovering` -/
structure Owner where
  owned : Option Entry
  nextId : ℕ
  recovering : Bool
deriving DecidableEq, Repr

structure OwnerNode where
  owner : Owner
  calls : List Stage

structure System (β : Type) where
  store : Store β
  nodes : String → OwnerNode

inductive Statement where
  | acquireMatchLease
  | addActiveMatch
  | renewLease (lease : String)
  | releaseLeaseAndIndex (lease : String)
  | readOwner
  | removeActiveIfTombstoned
  | finalizeMatchTombstone (grant : Grant) (reason : Reason)
  | releaseLease (lease : String)
  /-- something that is not one of these keys -/
  | other

inductive Answer where
  | granted (grant : Grant)
  | terminal
  | yes
  | no
  | value (owner : Option String)

inductive OwnerReply where
  | ok
  /-- `getStateMachine` finds no state -/
  | absent
  | fails
  /-- the statement is executed, and the caller gets an error -/
  | lost
deriving DecidableEq, Repr

inductive OwnerOp (β : Type) where
  | acquireOnLaunch (node : String)
  | assertOwnership (node : String)
  | heartbeat (node : String)
  | release (node : String)
  | attemptRecovery (node : String)
  /-- `finalizeTerminal` of an exhausted retry -/
  | deadLetter (node : String)
  | next (node : String) (i : ℕ) (reply : OwnerReply)
  | crash (node : String)
  /-- any other script, or an expiry -/
  | script (call : Call β)

variable {β : Type}

def yesNo (b : Bool) : Answer := if b then .yes else .no

/-- a statement, executed; no answer is a thrown error -/
def Statement.exec (node : String) (s : Store β) : Statement → Store β × Option Answer
  | .acquireMatchLease =>
    (s.step (.acquireMatchLease node),
      match (s.keys.acquireMatchLease node).2 with
      | .acquired fence lease => some (.granted ⟨fence, lease⟩)
      | .liveOwner => some .no
      | .terminal => some .terminal
      | .inconsistent | .scriptError => none)
  | .addActiveMatch => ({ s with keys := { s.keys with active := true } }, some .yes)
  | .renewLease lease => (s.step (.renewLease lease), some (yesNo (s.keys.renewLease lease).2))
  | .releaseLeaseAndIndex lease =>
    (s.step (.releaseLeaseAndIndex lease), some (yesNo (s.keys.releaseLeaseAndIndex lease).2))
  | .readOwner => (s, some (.value s.keys.owner))
  | .removeActiveIfTombstoned => (s.step .removeActiveIfTombstoned, some .yes)
  | .finalizeMatchTombstone g reason =>
    (s.step (.finalizeMatchTombstone g.lease g.fence reason),
      some (yesNo (s.keys.finalizeMatchTombstone g.lease g.fence reason).2))
  | .releaseLease lease => (s.step (.releaseLease lease), some .yes)
  | .other => (s, some .yes)

def LaunchStage.statement : LaunchStage → Statement
  | .acquireMatchLease => .acquireMatchLease
  | .addActiveMatch _ _ => .addActiveMatch
  | .renewLease _ g => .renewLease g.lease
  | .releaseLeaseAndIndex _ g => .releaseLeaseAndIndex g.lease
  | .readOwner _ _ => .readOwner
  | .recoveryHandoff _ => .addActiveMatch
  | .returned _ => .other

def FinalizeStage.statement (reason : Reason) : FinalizeStage → Statement
  | .finalizeMatchTombstone e => .finalizeMatchTombstone e.grant reason
  | .releaseLease e => .releaseLease e.grant.lease
  | .returned => .other

def RecoveryStage.statement : RecoveryStage → Statement
  | .reverify e => .renewLease e.grant.lease
  | .acquireMatchLease _ => .acquireMatchLease
  | .removeActiveIfTombstoned _ => .removeActiveIfTombstoned
  | .revalidate e => .renewLease e.grant.lease
  | .finalize stage => stage.statement .cleaned
  | .acquired | .getStateMachine _ | .getRoomIdByMatchId _ | .resumeMatchLoop | .returned => .other

def Stage.statement : Stage → Statement
  | .launch stage => stage.statement
  | .assertRenew _ e => .renewLease e.grant.lease
  | .beat e => .renewLease e.grant.lease
  | .release _ e => .releaseLeaseAndIndex e.grant.lease
  | .recovery stage => stage.statement
  | .deadLetter stage => stage.statement .deadLetter
  | .asserted _ | .beaten | .released => .other

namespace Owner

def set (n : Owner) (grant : Grant) : Owner := { n with owned := some ⟨n.nextId, grant⟩, nextId := n.nextId + 1 }

/-- `this.owned.delete(matchId)` -/
def drop (n : Owner) : Owner := { n with owned := none }

/-- the timers of the match are cancelled, too -/
def relinquish (n : Owner) : Owner := n.drop

/-- after a failed attempt of `indexActiveAndRevalidate` -/
def retryIndex (attempt : ℕ) (g : Grant) : LaunchStage :=
  if attempt + 1 < 3 then .addActiveMatch (attempt + 1) g else .releaseLeaseAndIndex 0 g

/-- after an attempt of `compensateLaunchFailure` that did not prove the release -/
def retryRelease (attempt : ℕ) (g : Grant) : LaunchStage :=
  if attempt + 1 < 3 then .releaseLeaseAndIndex (attempt + 1) g else .recoveryHandoff true

def resumeLaunch (n : Owner) : LaunchStage → Option Answer → Owner × LaunchStage
  | .acquireMatchLease, some (.granted g) => (n, .addActiveMatch 0 g)
  | .acquireMatchLease, some _ => (n, .returned .refused)
  | .acquireMatchLease, none => (n, .recoveryHandoff false)
  | .addActiveMatch attempt g, some _ => (n, .renewLease attempt g)
  | .addActiveMatch attempt g, none => (n, retryIndex attempt g)
  | .renewLease _ g, some .yes => (n.set g, .returned (.owned ⟨n.nextId, g⟩))
  | .renewLease _ g, some _ => (n, .returned (.lostLease g))
  | .renewLease attempt g, none => (n, retryIndex attempt g)
  | .releaseLeaseAndIndex _ g, some .yes => (n.drop, .returned (.released g))
  | .releaseLeaseAndIndex attempt g, some _ => (n, .readOwner attempt g)
  | .releaseLeaseAndIndex attempt g, none => (n, retryRelease attempt g)
  | .readOwner attempt g, some (.value cur) =>
    if cur ≠ some g.lease then (n.drop, .returned (.released g)) else (n, retryRelease attempt g)
  | .readOwner attempt g, _ => (n, retryRelease attempt g)
  | .recoveryHandoff compensates, answer =>
    (if compensates then n.drop else n, .returned (.handedOff answer.isSome))
  | .returned result, _ => (n, .returned result)

def resumeAssert (n : Owner) (attempt : ℕ) (e : Entry) : Option Answer → Owner × Stage
  | some .yes => (n, .asserted (n.owned = some e))
  | some _ => (if n.owned = some e then n.relinquish else n, .asserted false)
  | none =>
    if n.owned ≠ some e then (n, .asserted false)
    else if attempt + 1 < assertRenewAttempts then (n, .assertRenew (attempt + 1) e)
    else (n.relinquish, .asserted false)

def resumeBeat (n : Owner) (e : Entry) : Option Answer → Owner
  | some .no => if n.owned = some e then n.relinquish else n
  | _ => n

def resumeFinalize (n : Owner) : FinalizeStage → Option Answer → Owner × FinalizeStage
  | .finalizeMatchTombstone e, some .yes => (n, .releaseLease e)
  | .finalizeMatchTombstone _, _ => (n.drop, .returned)
  | .releaseLease _, _ => (n.drop, .returned)
  | .returned, _ => (n, .returned)

/-- `finally` of `attemptRecovery` -/
def endAttempt (n : Owner) : Owner × RecoveryStage := ({ n with recovering := false }, .returned)

def endStale (n : Owner) (stale : Bool) : Owner × RecoveryStage := (if stale then n.drop else n).endAttempt

def resumeRecovery (n : Owner) : RecoveryStage → Option Answer → Owner × RecoveryStage
  | .reverify e, some .yes => (n, .getStateMachine e)
  | .reverify _, some _ => (n, .acquireMatchLease true)
  | .reverify _, none => n.endAttempt
  | .acquireMatchLease _, some (.granted g) => (n.set g, .acquired)
  | .acquireMatchLease stale, some .terminal => (n, .removeActiveIfTombstoned stale)
  | .acquireMatchLease stale, _ => n.endStale stale
  | .removeActiveIfTombstoned stale, _ => n.endStale stale
  | .acquired, _ =>
    match n.owned with
    | some e => (n, .getStateMachine e)
    | none => n.endAttempt
  | .getStateMachine e, some .yes => (n, .revalidate e)
  | .getStateMachine _, some _ =>
    match n.owned with
    | some e => (n, .finalize (.finalizeMatchTombstone e))
    | none => n.endAttempt
  | .getStateMachine _, none => n.endAttempt
  | .revalidate e, some .yes => (n, .getRoomIdByMatchId e)
  | .revalidate _, some _ => n.drop.endAttempt
  | .revalidate _, none => n.endAttempt
  | .getRoomIdByMatchId e, some _ => (n.set e.grant, .resumeMatchLoop)
  | .getRoomIdByMatchId _, none => n.endAttempt
  | .resumeMatchLoop, _ => n.endAttempt
  | .finalize stage, answer =>
    match n.resumeFinalize stage answer with
    | (n, .returned) => n.endAttempt
    | (n, stage) => (n, .finalize stage)
  | .returned, _ => (n, .returned)

/-- the call goes on after its statement -/
def resume (n : Owner) : Stage → Option Answer → Owner × Stage
  | .launch stage, answer => ((n.resumeLaunch stage answer).1, .launch (n.resumeLaunch stage answer).2)
  | .assertRenew attempt e, answer => n.resumeAssert attempt e answer
  | .beat e, answer => (n.resumeBeat e answer, .beaten)
  | .release attempt e, none => (n, if attempt + 1 < 3 then .release (attempt + 1) e else .released)
  | .release _ _, some _ => (n, .released)
  | .recovery stage, answer => ((n.resumeRecovery stage answer).1, .recovery (n.resumeRecovery stage answer).2)
  | .deadLetter stage, answer => ((n.resumeFinalize stage answer).1, .deadLetter (n.resumeFinalize stage answer).2)
  | .asserted held, _ => (n, .asserted held)
  | .beaten, _ => (n, .beaten)
  | .released, _ => (n, .released)

end Owner

def Stage.answer (stage : Stage) (reply : OwnerReply) (answer : Option Answer) : Option Answer :=
  match stage, reply with
  | .recovery (.getStateMachine _), .absent => some .no
  | _, .ok | _, .absent => answer
  | _, .fails | _, .lost => none

def OwnerReply.store (reply : OwnerReply) (before after : Store β) : Store β :=
  match reply with
  | .fails => before
  | _ => after

namespace System

def init : System β := ⟨Store.init, fun _ => ⟨⟨none, 0, false⟩, []⟩⟩

def setNode (s : System β) (node : String) (n : OwnerNode) : System β :=
  { s with nodes := Function.update s.nodes node n }

def begin (s : System β) (node : String) (owner : Owner) (stage : Stage) : System β :=
  s.setNode node ⟨owner, (s.nodes node).calls ++ [stage]⟩

def next (s : System β) (node : String) (i : ℕ) (reply : OwnerReply) (stage : Stage) : System β :=
  let executed := stage.statement.exec node s.store
  let resumed := (s.nodes node).owner.resume stage (stage.answer reply executed.2)
  { store := reply.store s.store executed.1
    nodes := Function.update s.nodes node ⟨resumed.1, (s.nodes node).calls.set i resumed.2⟩ }

def step (s : System β) : OwnerOp β → System β
  | .acquireOnLaunch node => s.begin node (s.nodes node).owner (.launch .acquireMatchLease)
  | .assertOwnership node =>
    match (s.nodes node).owner.owned with
    | none => s.begin node (s.nodes node).owner (.asserted false)
    | some e => s.begin node (s.nodes node).owner (.assertRenew 0 e)
  | .heartbeat node =>
    match (s.nodes node).owner.owned with
    | none => s
    | some e => s.begin node (s.nodes node).owner (.beat e)
  | .release node =>
    match (s.nodes node).owner.owned with
    | none => s
    | some e => s.begin node (s.nodes node).owner.drop (.release 0 e)
  | .attemptRecovery node =>
    let n := (s.nodes node).owner
    if n.recovering then s
    else
      match n.owned with
      | some e => s.begin node { n with recovering := true } (.recovery (.reverify e))
      | none => s.begin node { n with recovering := true } (.recovery (.acquireMatchLease false))
  | .deadLetter node =>
    match (s.nodes node).owner.owned with
    | none => s
    | some e => s.begin node (s.nodes node).owner (.deadLetter (.finalizeMatchTombstone e))
  | .next node i reply =>
    match (s.nodes node).calls[i]? with
    | some stage => s.next node i reply stage
    | none => s
  | .crash node => s.setNode node ⟨⟨none, 0, false⟩, []⟩
  | .script call => { s with store := s.store.step call }

end System

/-! ## Statements -/

/-- the lease was granted to the node -/
structure Granted (s : Store β) (node : String) (g : Grant) : Prop where
  small : g.fence < 10 ^ 14
  lease : g.lease = leaseValue node g.fence
  issued : (node, g.fence) ∈ s.issued

/-- the lease stands in Redis -/
def Current (k : Keys β) (g : Grant) : Prop := k.owner = some g.lease ∧ k.fence = some g.fence

/-- the lease does not stand, and a later fence will be higher -/
structure Dead (s : Store β) (g : Grant) : Prop where
  fence : g.fence ≤ s.keys.fence.getD 0
  owner : s.keys.owner ≠ some g.lease

/-- the lease never stands again -/
def Lost (s : System β) (g : Grant) : Prop := ∀ more, ¬ Current (run System.step s more).store.keys g

/-- what `acquireOnLaunch` has made sure of when it returns -/
def Settled (s : System β) (node : String) : LaunchResult → Prop
  | .owned e => (s.nodes node).owner.owned = some e ∧ Granted s.store node e.grant ∧ Current s.store.keys e.grant
  | .refused => True
  | .lostLease g | .released g => Lost s g
  | .handedOff indexed => indexed = true → s.store.keys.active = true

/-- a renewal changes the entry of the match only when it drops the renewed one, whose lease is lost or `unproven` -/
def DropsRenewed (s t : System β) (node : String) (e : Entry) (unproven : Prop) : Prop :=
  (t.nodes node).owner = (s.nodes node).owner ∨
    ((s.nodes node).owner.owned = some e ∧ (t.nodes node).owner.owned = none ∧ (Lost t e.grant ∨ unproven))

def Owner.grants (n : Owner) : List Grant := (n.owned.map Entry.grant).toList

def LaunchResult.grants : LaunchResult → List Grant
  | .owned e => [e.grant]
  | .lostLease g | .released g => [g]
  | .refused | .handedOff _ => []

def LaunchStage.grants : LaunchStage → List Grant
  | .addActiveMatch _ g | .renewLease _ g | .releaseLeaseAndIndex _ g | .readOwner _ g => [g]
  | .acquireMatchLease | .recoveryHandoff _ => []
  | .returned result => result.grants

def FinalizeStage.grants : FinalizeStage → List Grant
  | .finalizeMatchTombstone e | .releaseLease e => [e.grant]
  | .returned => []

def RecoveryStage.grants : RecoveryStage → List Grant
  | .reverify e | .getStateMachine e | .revalidate e | .getRoomIdByMatchId e => [e.grant]
  | .finalize stage => stage.grants
  | .acquireMatchLease _ | .removeActiveIfTombstoned _ | .acquired | .resumeMatchLoop | .returned => []

/-- the leases that a call knows of -/
def Stage.grants : Stage → List Grant
  | .launch stage => stage.grants
  | .assertRenew _ e | .beat e | .release _ e => [e.grant]
  | .recovery stage => stage.grants
  | .deadLetter stage => stage.grants
  | .asserted _ | .beaten | .released => []

structure System.OwnersInv (s : System β) : Prop where
  fences : Store.FenceInv s.store
  entries : ∀ node, ∀ g ∈ (s.nodes node).owner.grants, Granted s.store node g
  calls : ∀ node, ∀ stage ∈ (s.nodes node).calls, ∀ g ∈ stage.grants, Granted s.store node g

/-! ## Leases -/

variable {s s' : Store β} {node : String} {g : Grant}

theorem Granted.mono (h : Granted s node g) (hc : Store.OwnerChange s s') : Granted s' node g := by
  refine ⟨h.small, h.lease, ?_⟩
  cases hc with
  | kept k ho hf => exact h.issued
  | claimed k node' f hn ho hf => exact List.mem_append_left _ h.issued
  | fencedOut k f hn ho hf => exact h.issued

theorem Granted.current (h : Granted s node g) (hf : Store.FenceInv s) (ho : s.keys.owner = some g.lease) :
    Current s.keys g :=
  ⟨ho, Store.lease_names_fence hf h.small h.lease ho⟩

theorem Granted.dead (h : Granted s node g) (hf : Store.FenceInv s) (ho : s.keys.owner ≠ some g.lease) : Dead s g :=
  ⟨hf.bounded _ h.issued, ho⟩

/-- a lease that is not current never becomes current again: later claims have higher fences -/
theorem dead_step (h : Granted s node g) (hc : Store.OwnerChange s s') (hd : Dead s g) : Dead s' g := by
  cases hc with
  | kept k ho hf =>
    refine ⟨by rw [hf]; exact hd.fence, fun hk => ?_⟩
    rcases ho with ho | ho
    · exact hd.owner (ho ▸ hk)
    · rw [ho] at hk
      cases hk
  | claimed k node' f hn ho hf =>
    refine ⟨by rw [hf]; exact hd.fence.trans hn.le, fun hk => ?_⟩
    rw [ho, h.lease] at hk
    obtain ⟨-, htext⟩ := joinColon_inj (luaTostring_no_colon f) (luaTostring_no_colon g.fence) (Option.some.inj hk)
    have heq := luaTostring_eq_small h.small htext
    have hle := hd.fence
    omega
  | fencedOut k f hn ho hf =>
    refine ⟨by rw [hf]; exact hd.fence.trans hn.le, fun hk => ?_⟩
    rw [ho] at hk
    cases hk

/-! ## Executed statements -/

theorem exec_change (node : String) (s : Store β) (statement : Statement) :
    Store.OwnerChange s (statement.exec node s).1 := by
  cases statement with
  | addActiveMatch => exact .kept _ (.inl rfl) rfl
  | readOwner => exact .kept s.keys (.inl rfl) rfl
  | other => exact .kept s.keys (.inl rfl) rfl
  | _ => exact Store.step_ownerChange s _

theorem exec_granted {statement : Statement} (h : (statement.exec node s).2 = some (.granted g)) :
    Granted (statement.exec node s).1 node g := by
  cases statement with
  | acquireMatchLease =>
    simp only [Statement.exec] at h ⊢
    split at h
    · rename_i fence lease hr
      obtain rfl := Answer.granted.inj (Option.some.inj h)
      obtain ⟨hsmall, hlease⟩ := Keys.acquired_small hr
      refine ⟨hsmall, hlease, ?_⟩
      rcases s.keys.acquire_cases node with ⟨-, hno⟩ | ⟨f, hlt, hk, hreply⟩
      · exact absurd hr (hno fence lease)
      · rw [hr] at hreply
        split_ifs at hreply
        obtain ⟨rfl, -⟩ := AcquireReply.acquired.inj hreply
        have hk' : s.keys.step (.acquireMatchLease node) =
            { s.keys with owner := some (leaseValue node fence), fence := some fence } := hk
        have hne : some fence ≠ s.keys.fence := by
          intro he
          rw [← he] at hlt
          exact absurd hlt (Nat.lt_irrefl fence)
        simp [Store.step, Store.issuedBy, hk', hne]
    · cases h
    · cases h
    · cases h
    · cases h
  | renewLease lease =>
    simp only [Statement.exec, yesNo] at h
    split_ifs at h <;> cases h
  | releaseLeaseAndIndex lease =>
    simp only [Statement.exec, yesNo] at h
    split_ifs at h <;> cases h
  | finalizeMatchTombstone g' reason =>
    simp only [Statement.exec, yesNo] at h
    split_ifs at h <;> cases h
  | _ => cases h

theorem exec_renew_yes {lease : String} (h : ((Statement.renewLease lease).exec node s).2 = some .yes) :
    s.keys.owner = some lease := by
  by_contra ho
  simp [Statement.exec, Keys.renewLease, ho, yesNo] at h

theorem exec_renew_no {lease : String} {a : Answer} (h : ((Statement.renewLease lease).exec node s).2 = some a)
    (ha : a ≠ .yes) : s.keys.owner ≠ some lease := by
  intro ho
  simp [Statement.exec, Keys.renewLease, ho, yesNo] at h
  exact ha h.symm

theorem exec_release_yes {lease : String} (h : ((Statement.releaseLeaseAndIndex lease).exec node s).2 = some .yes) :
    ((Statement.releaseLeaseAndIndex lease).exec node s).1.keys.owner = none := by
  by_cases ho : s.keys.owner = some lease
  · simp [Statement.exec, Store.step, Keys.step, Keys.exec, Keys.releaseLeaseAndIndex, ho]
  · simp [Statement.exec, Keys.releaseLeaseAndIndex, ho, yesNo] at h

/-! ## What a node knows -/

variable {n : Owner}

@[simp] theorem grants_set (n : Owner) (g : Grant) : (n.set g).grants = [g] := rfl

@[simp] theorem grants_drop (n : Owner) : n.drop.grants = [] := rfl

@[simp] theorem grants_relinquish (n : Owner) : n.relinquish.grants = [] := rfl

@[simp] theorem grants_endAttempt (n : Owner) : n.endAttempt.1.grants = n.grants ∧ n.endAttempt.2.grants = [] :=
  ⟨rfl, rfl⟩

theorem mem_ite_drop {p : Prop} [Decidable p] (h : g ∈ (if p then n.drop else n).grants) : g ∈ n.grants := by
  split_ifs at h
  · cases h
  · exact h

theorem mem_retryIndex {attempt : ℕ} {g' : Grant} (h : g ∈ (Owner.retryIndex attempt g').grants) : g ∈ [g'] := by
  unfold Owner.retryIndex at h
  split_ifs at h <;> exact h

theorem mem_retryRelease {attempt : ℕ} {g' : Grant} (h : g ∈ (Owner.retryRelease attempt g').grants) :
    g ∈ [g'] := by
  unfold Owner.retryRelease at h
  split_ifs at h
  · exact h
  · cases h

theorem mem_endStale {stale : Bool} (h : g ∈ (n.endStale stale).1.grants ∨ g ∈ (n.endStale stale).2.grants) :
    g ∈ n.grants :=
  h.elim mem_ite_drop fun h => by cases h

theorem owned_grants {e : Entry} (h : n.owned = some e) : e.grant ∈ n.grants := by
  simp [Owner.grants, h]

/-- what a call knows after its statement is what it knew, what its node knew, or what it was granted -/
theorem resumeLaunch_grants {stage : LaunchStage} {answer : Option Answer}
    (h : g ∈ (n.resumeLaunch stage answer).1.grants ∨ g ∈ (n.resumeLaunch stage answer).2.grants) :
    g ∈ n.grants ∨ g ∈ stage.grants ∨ answer = some (.granted g) := by
  unfold Owner.resumeLaunch at h
  split at h
  · exact h.imp_right fun h => .inr (by rw [List.mem_singleton.1 h])
  · exact h.imp_right fun h => .inl h
  · exact h.imp_right fun h => .inl h
  · exact h.imp_right fun h => .inl h
  · exact h.imp_right fun h => .inl (mem_retryIndex h)
  · exact .inr (.inl (h.elim id id))
  · exact h.imp_right fun h => .inl h
  · exact h.imp_right fun h => .inl (mem_retryIndex h)
  · exact .inr (.inl (h.resolve_left (by simp)))
  · exact h.imp_right fun h => .inl h
  · exact h.imp_right fun h => .inl (mem_retryRelease h)
  · split_ifs at h
    · exact .inr (.inl (h.resolve_left (by simp)))
    · exact h.imp_right fun h => .inl (mem_retryRelease h)
  · exact h.imp_right fun h => .inl (mem_retryRelease h)
  · exact h.elim (fun h => .inl (mem_ite_drop h)) (fun h => by cases h)
  · exact h.imp_right fun h => .inl h

theorem resumeFinalize_grants {stage : FinalizeStage} {answer : Option Answer}
    (h : g ∈ (n.resumeFinalize stage answer).1.grants ∨ g ∈ (n.resumeFinalize stage answer).2.grants) :
    g ∈ n.grants ∨ g ∈ stage.grants := by
  unfold Owner.resumeFinalize at h
  split at h
  · exact h
  · simp [FinalizeStage.grants] at h
  · simp [FinalizeStage.grants] at h
  · exact h

theorem resumeRecovery_grants {stage : RecoveryStage} {answer : Option Answer}
    (h : g ∈ (n.resumeRecovery stage answer).1.grants ∨ g ∈ (n.resumeRecovery stage answer).2.grants) :
    g ∈ n.grants ∨ g ∈ stage.grants ∨ answer = some (.granted g) := by
  unfold Owner.resumeRecovery at h
  split at h
  · exact h.imp_right fun h => .inl h
  · exact h.imp_right fun h => by cases h
  · exact h.imp_right fun h => by cases h
  · exact .inr (.inr (h.elim (fun h => by rw [List.mem_singleton.1 h]) fun h => by cases h))
  · exact h.imp_right fun h => by cases h
  · exact .inl (mem_endStale h)
  · exact .inl (mem_endStale h)
  · split at h
    · rename_i e he
      exact .inl (h.elim id fun h => by rw [List.mem_singleton.1 h]; exact owned_grants he)
    · exact h.imp_right fun h => by cases h
  · exact h.imp_right fun h => .inl h
  · split at h
    · rename_i e he
      exact .inl (h.elim id fun h => by rw [List.mem_singleton.1 h]; exact owned_grants he)
    · exact h.imp_right fun h => by cases h
  · exact h.imp_right fun h => by cases h
  · exact h.imp_right fun h => .inl h
  · exact .inl (h.elim (fun h => by cases h) fun h => by cases h)
  · exact h.imp_right fun h => by cases h
  · exact .inr (.inl (h.elim id fun h => by cases h))
  · exact h.imp_right fun h => by cases h
  · exact h.imp_right fun h => by cases h
  · rename_i stage
    have hf := @resumeFinalize_grants g n stage answer
    split at h
    · rename_i n' heq
      rw [heq] at hf
      exact (hf (.inl (h.elim id fun h => by cases h))).imp_right .inl
    · rename_i n' stage' hne heq
      rw [heq] at hf
      exact (hf h).imp_right .inl
  · exact h.imp_right fun h => by cases h

theorem resume_grants {stage : Stage} {answer : Option Answer}
    (h : g ∈ (n.resume stage answer).1.grants ∨ g ∈ (n.resume stage answer).2.grants) :
    g ∈ n.grants ∨ g ∈ stage.grants ∨ answer = some (.granted g) := by
  unfold Owner.resume at h
  split at h
  · exact resumeLaunch_grants h
  · rename_i attempt e answer
    unfold Owner.resumeAssert at h
    split at h
    · exact h.imp_right fun h => by cases h
    · exact h.elim (fun h => .inl (mem_ite_drop h)) fun h => by cases h
    · split_ifs at h
      · exact h.imp_right fun h => by cases h
      · exact h.imp_right fun h => .inl h
      · exact h.elim (fun h => by cases h) fun h => by cases h
  · rename_i e answer
    refine h.elim (fun h => .inl ?_) fun h => by cases h
    unfold Owner.resumeBeat at h
    split at h
    · exact mem_ite_drop h
    · exact h
  · split_ifs at h
    · exact h.imp_right fun h => .inl h
    · exact h.imp_right fun h => by cases h
  · exact h.imp_right fun h => by cases h
  · exact resumeRecovery_grants h
  · exact (resumeFinalize_grants h).imp_right .inl
  · exact h.imp_right fun h => by cases h
  · exact h.imp_right fun h => by cases h
  · exact h.imp_right fun h => by cases h

/-! ## Runs -/

namespace System

variable {s s' : System β} {i : ℕ} {stage : Stage}

theorem ownersInv_init : OwnersInv (init : System β) where
  fences := Store.fenceInv_init
  entries node g hg := by cases hg
  calls node stage hs := by cases hs

/-- the reply of a statement that is not executed says nothing, and the others tell of the store after it -/
theorem answer_some {reply : OwnerReply} {answer : Option Answer} {a : Answer}
    (h : stage.answer reply answer = some a) :
    reply ≠ .fails ∧ reply ≠ .lost ∧ (answer = some a ∨ ∃ e, stage = .recovery (.getStateMachine e) ∧ a = .no) := by
  unfold Stage.answer at h
  split at h
  · rename_i e
    exact ⟨nofun, nofun, .inr ⟨e, rfl, (Option.some.inj h).symm⟩⟩
  · exact ⟨nofun, nofun, .inl h⟩
  · exact ⟨nofun, nofun, .inl h⟩
  · cases h
  · cases h

theorem answer_none {reply : OwnerReply} {answer : Option Answer} (h : stage.answer reply answer = none) :
    answer = none ∨ reply = .fails ∨ reply = .lost := by
  cases reply with
  | fails => exact .inr (.inl rfl)
  | lost => exact .inr (.inr rfl)
  | ok => exact .inl (by simpa [Stage.answer] using h)
  | absent =>
    unfold Stage.answer at h
    split at h
    · cases h
    · rename_i heq
      cases heq
    · exact .inl h
    · rename_i heq
      cases heq
    · rename_i heq
      cases heq

theorem reply_change (node : String) (s : Store β) (statement : Statement) (reply : OwnerReply) :
    Store.OwnerChange s (reply.store s (statement.exec node s).1) := by
  cases reply with
  | fails => exact .kept s.keys (.inl rfl) rfl
  | _ => exact exec_change node s statement

/-- every step moves owner, fence and issued leases as a script does -/
theorem step_change (s : System β) (o : OwnerOp β) : Store.OwnerChange s.store (s.step o).store := by
  have same : Store.OwnerChange s.store s.store := .kept s.store.keys (.inl rfl) rfl
  cases o with
  | script call => exact Store.step_ownerChange s.store call
  | next node i reply =>
    simp only [step]
    split
    · rename_i stage _
      exact reply_change node s.store stage.statement reply
    · exact same
  | acquireOnLaunch node => exact same
  | crash node => exact same
  | assertOwnership node =>
    simp only [step]
    split <;> exact same
  | heartbeat node =>
    simp only [step]
    split <;> exact same
  | release node =>
    simp only [step]
    split <;> exact same
  | deadLetter node =>
    simp only [step]
    split <;> exact same
  | attemptRecovery node =>
    simp only [step]
    split_ifs
    · exact same
    · split <;> exact same

/-- one node changes, and knows only leases it was granted -/
theorem OwnersInv.setNode (h : OwnersInv s) {store : Store β} (hc : Store.OwnerChange s.store store) (node : String)
    {n : OwnerNode} (ho : ∀ g ∈ n.owner.grants, Granted store node g)
    (hcalls : ∀ stage ∈ n.calls, ∀ g ∈ stage.grants, Granted store node g) :
    OwnersInv ⟨store, Function.update s.nodes node n⟩ := by
  refine ⟨Store.change_fenceInv hc h.fences, fun m g hg => ?_, fun m stage hs g hg => ?_⟩
  · by_cases hm : m = node
    · subst hm
      simp only [Function.update_self] at hg
      exact ho g hg
    · simp only [Function.update_of_ne hm] at hg
      exact (h.entries m g hg).mono hc
  · by_cases hm : m = node
    · subst hm
      simp only [Function.update_self] at hs
      exact hcalls stage hs g hg
    · simp only [Function.update_of_ne hm] at hs
      exact (h.calls m stage hs g hg).mono hc

theorem OwnersInv.begin (h : OwnersInv s) (node : String) {owner : Owner} {stage : Stage}
    (ho : ∀ g ∈ owner.grants, g ∈ (s.nodes node).owner.grants)
    (hs : ∀ g ∈ stage.grants, g ∈ (s.nodes node).owner.grants) : OwnersInv (s.begin node owner stage) := by
  refine h.setNode (.kept s.store.keys (.inl rfl) rfl) node (fun g hg => h.entries node g (ho g hg)) ?_
  intro stage' hs' g hg
  rcases List.mem_append.1 hs' with hs' | hs'
  · exact h.calls node stage' hs' g hg
  · rw [List.mem_singleton.1 hs'] at hg
    exact h.entries node g (hs g hg)

theorem next_ownersInv (h : OwnersInv s) {node : String} (hi : (s.nodes node).calls[i]? = some stage)
    (reply : OwnerReply) : OwnersInv (s.next node i reply stage) := by
  have hc := reply_change node s.store stage.statement reply
  have hmem := List.mem_of_getElem? hi
  -- the leases of the resumed call and of its node
  have hknown : ∀ g, g ∈ ((s.nodes node).owner.resume stage
      (stage.answer reply (stage.statement.exec node s.store).2)).1.grants ∨
        g ∈ ((s.nodes node).owner.resume stage (stage.answer reply (stage.statement.exec node s.store).2)).2.grants →
      Granted (reply.store s.store (stage.statement.exec node s.store).1) node g := by
    intro g hg
    rcases resume_grants hg with hg | hg | hg
    · exact (h.entries node g hg).mono hc
    · exact (h.calls node stage hmem g hg).mono hc
    · obtain ⟨hfails, -, hexec | ⟨e, -, ha⟩⟩ := answer_some hg
      · have hgranted := exec_granted hexec
        cases reply with
        | fails => exact absurd rfl hfails
        | _ => exact hgranted
      · cases ha
  refine h.setNode hc node (fun g hg => hknown g (.inl hg)) fun stage' hs g hg => ?_
  rcases List.mem_or_eq_of_mem_set hs with hs | rfl
  · exact (h.calls node stage' hs g hg).mono hc
  · exact hknown g (.inr hg)

theorem step_ownersInv (o : OwnerOp β) (h : OwnersInv s) : OwnersInv (s.step o) := by
  have hentry : ∀ (node : String) (e : Entry), (s.nodes node).owner.owned = some e →
      ∀ g ∈ [e.grant], g ∈ (s.nodes node).owner.grants := by
    intro node e he g hg
    rw [List.mem_singleton.1 hg]
    exact owned_grants he
  cases o with
  | script call =>
    have hc := Store.step_ownerChange s.store call
    exact ⟨Store.change_fenceInv hc h.fences, fun node g hg => (h.entries node g hg).mono hc,
      fun node stage hs g hg => (h.calls node stage hs g hg).mono hc⟩
  | next node i reply =>
    simp only [step]
    split
    · rename_i stage hi
      exact next_ownersInv h hi reply
    · exact h
  | acquireOnLaunch node => exact h.begin node (fun g hg => hg) fun g hg => by cases hg
  | crash node =>
    exact h.setNode (.kept s.store.keys (.inl rfl) rfl) node (fun g hg => by cases hg) fun stage hs => by cases hs
  | assertOwnership node =>
    simp only [step]
    split
    · exact h.begin node (fun g hg => hg) fun g hg => by cases hg
    · rename_i e he
      exact h.begin node (fun g hg => hg) (hentry node e he)
  | heartbeat node =>
    simp only [step]
    split
    · exact h
    · rename_i e he
      exact h.begin node (fun g hg => hg) (hentry node e he)
  | release node =>
    simp only [step]
    split
    · exact h
    · rename_i e he
      exact h.begin node (fun g hg => by cases hg) (hentry node e he)
  | deadLetter node =>
    simp only [step]
    split
    · exact h
    · rename_i e he
      exact h.begin node (fun g hg => hg) (hentry node e he)
  | attemptRecovery node =>
    simp only [step]
    split_ifs
    · exact h
    · split
      · rename_i e he
        exact h.begin node (fun g hg => hg) (hentry node e he)
      · exact h.begin node (fun g hg => hg) fun g hg => by cases hg

theorem run_ownersInv (ops : List (OwnerOp β)) : OwnersInv (run step (init : System β) ops) :=
  run_inv step (fun _ _ => True) OwnersInv (fun _ o _ h => step_ownersInv o h) init ops (along_true _ _ _)
    ownersInv_init

/-- a dead lease is lost -/
theorem lost_of_dead {node : String} {g : Grant} (hg : Granted s.store node g) (hd : Dead s.store g) : Lost s g := by
  intro more hcur
  have hend := run_inv step (fun _ _ => True) (fun t => Granted t.store node g ∧ Dead t.store g)
    (fun t o _ ht => ⟨ht.1.mono (step_change t o), dead_step ht.1 (step_change t o) ht.2⟩) s more (along_true _ _ _)
    ⟨hg, hd⟩
  exact hend.2.owner hcur.1

/-- a lease that does not stand when a step begins is lost after it -/
theorem OwnersInv.lost (h : OwnersInv s) {node : String} {g : Grant} (hg : Granted s.store node g)
    (ho : s.store.keys.owner ≠ some g.lease) (hc : Store.OwnerChange s.store s'.store) : Lost s' g :=
  lost_of_dead (hg.mono hc) (dead_step hg hc (hg.dead h.fences ho))

theorem next_node (s : System β) (node : String) (i : ℕ) (reply : OwnerReply) (stage : Stage) :
    (s.next node i reply stage).nodes node =
      ⟨((s.nodes node).owner.resume stage (stage.answer reply (stage.statement.exec node s.store).2)).1,
        (s.nodes node).calls.set i
          ((s.nodes node).owner.resume stage (stage.answer reply (stage.statement.exec node s.store).2)).2⟩ := by
  simp only [next, Function.update_self]

/-- a stale "lost" of the heartbeat drops no newer entry, and a lease whose entry it drops never stands again -/
theorem beat_step (h : OwnersInv s) {node : String} {e : Entry} (hi : (s.nodes node).calls[i]? = some (.beat e))
    (reply : OwnerReply) : DropsRenewed s (s.next node i reply (.beat e)) node e False := by
  rw [DropsRenewed, next_node]
  have hgrant := h.calls node _ (List.mem_of_getElem? hi) e.grant (List.mem_singleton.2 rfl)
  simp only [Owner.resume]
  unfold Owner.resumeBeat
  split
  · rename_i hno
    split_ifs with howned
    · obtain ⟨-, -, hexec | ⟨e', he', -⟩⟩ := answer_some hno
      · exact .inr ⟨howned, rfl, .inl (h.lost hgrant (exec_renew_no hexec nofun) (reply_change node s.store _ reply))⟩
      · cases he'
    · exact .inl rfl
  · exact .inl rfl

/-- a boundary drops only the entry it renewed, when the lease is lost or three renewals failed; it passes only while
the entry stands and Redis has its lease -/
theorem assert_step (h : OwnersInv s) {node : String} {e : Entry} {attempt : ℕ}
    (hi : (s.nodes node).calls[i]? = some (.assertRenew attempt e)) (reply : OwnerReply) :
    DropsRenewed s (s.next node i reply (.assertRenew attempt e)) node e
        (assertRenewAttempts ≤ attempt + 1 ∧ (reply = .fails ∨ reply = .lost)) ∧
      (((s.next node i reply (.assertRenew attempt e)).nodes node).calls[i]? = some (.asserted true) →
        (s.nodes node).owner.owned = some e ∧ Current s.store.keys e.grant) := by
  rw [DropsRenewed, next_node]
  have hgrant := h.calls node _ (List.mem_of_getElem? hi) e.grant (List.mem_singleton.2 rfl)
  have hlt := (List.getElem?_eq_some_iff.1 hi).1
  simp only [Owner.resume, List.getElem?_set_self hlt]
  unfold Owner.resumeAssert
  split
  · rename_i hyes
    refine ⟨.inl rfl, fun hs => ?_⟩
    obtain ⟨-, -, hexec | ⟨e', he', -⟩⟩ := answer_some hyes
    · have howned : (s.nodes node).owner.owned = some e := by simpa using hs
      exact ⟨howned, hgrant.current h.fences (exec_renew_yes hexec)⟩
    · cases he'
  · rename_i a hne hsome
    obtain ⟨-, -, hexec | ⟨e', he', -⟩⟩ := answer_some hsome
    · refine ⟨?_, fun hs => by cases hs⟩
      split_ifs with howned
      · refine .inr ⟨howned, rfl, .inl (h.lost hgrant (exec_renew_no hexec ?_) (reply_change node s.store _ reply))⟩
        rintro rfl
        exact hne rfl
      · exact .inl rfl
    · cases he'
  · rename_i hnone
    have hreply : reply = .fails ∨ reply = .lost :=
      (answer_none hnone).resolve_left (by simp [Stage.statement, Statement.exec])
    split_ifs with hne hlast
    · exact ⟨.inl rfl, fun hs => by cases hs⟩
    · exact ⟨.inl rfl, fun hs => by cases hs⟩
    · exact ⟨.inr ⟨not_not.1 hne, rfl, .inr ⟨not_lt.1 hlast, hreply⟩⟩, fun hs => by cases hs⟩

/-- what `acquireOnLaunch` has made sure of when it returns -/
theorem launch_step (h : OwnersInv s) {node : String} {stage : LaunchStage}
    (hi : (s.nodes node).calls[i]? = some (.launch stage)) (hr : ∀ result, stage ≠ .returned result)
    (reply : OwnerReply) {result : LaunchResult}
    (hend : ((s.next node i reply (.launch stage)).nodes node).calls[i]? = some (.launch (.returned result))) :
    Settled (s.next node i reply (.launch stage)) node result := by
  have hlt := (List.getElem?_eq_some_iff.1 hi).1
  have hgrant := h.calls node _ (List.mem_of_getElem? hi)
  have hc := reply_change node s.store stage.statement reply
  have hnode := next_node s node i reply (.launch stage)
  rw [hnode] at hend
  simp only [Owner.resume, List.getElem?_set_self hlt] at hend hnode
  have hstage := Stage.launch.inj (Option.some.inj hend)
  generalize ha : (Stage.launch stage).answer reply ((Stage.launch stage).statement.exec node s.store).2 = answer
    at hstage hnode
  have hexec : ∀ a, answer = some a → reply ≠ .fails ∧ (stage.statement.exec node s.store).2 = some a := by
    rintro a rfl
    obtain ⟨hfails, -, hexec | ⟨e, he, -⟩⟩ := answer_some ha
    · exact ⟨hfails, hexec⟩
    · cases he
  -- the store after a statement that has been executed
  have hstore : reply ≠ .fails →
      (s.next node i reply (.launch stage)).store = (stage.statement.exec node s.store).1 := by
    intro hfails
    cases reply with
    | fails => exact absurd rfl hfails
    | _ => rfl
  have hretryIndex : ∀ attempt g, Owner.retryIndex attempt g ≠ .returned result := by
    intro attempt g
    unfold Owner.retryIndex
    split_ifs <;> nofun
  have hretryRelease : ∀ attempt g, Owner.retryRelease attempt g ≠ .returned result := by
    intro attempt g
    unfold Owner.retryRelease
    split_ifs <;> nofun
  unfold Owner.resumeLaunch at hstage hnode
  split at hstage
  · cases hstage
  · obtain rfl := LaunchStage.returned.inj hstage
    trivial
  · cases hstage
  · cases hstage
  · exact absurd hstage (hretryIndex _ _)
  · rename_i attempt g
    obtain rfl := LaunchStage.returned.inj hstage
    obtain ⟨hfails, hyes⟩ := hexec _ rfl
    have hg := hgrant g (List.mem_singleton.2 rfl)
    refine ⟨by rw [hnode]; rfl, hg.mono hc, ?_⟩
    rw [hstore hfails]
    exact hg.current h.fences (exec_renew_yes hyes)
  · rename_i attempt g a hne
    obtain rfl := LaunchStage.returned.inj hstage
    obtain ⟨-, hno⟩ := hexec _ rfl
    refine h.lost (hgrant g (List.mem_singleton.2 rfl)) (exec_renew_no hno ?_) hc
    rintro rfl
    exact hne rfl
  · exact absurd hstage (hretryIndex _ _)
  · rename_i attempt g
    obtain rfl := LaunchStage.returned.inj hstage
    obtain ⟨hfails, hyes⟩ := hexec _ rfl
    have hg := hgrant g (List.mem_singleton.2 rfl)
    have hgone : (s.next node i reply (.launch (.releaseLeaseAndIndex attempt g))).store.keys.owner = none := by
      rw [hstore hfails]
      exact exec_release_yes hyes
    refine lost_of_dead (hg.mono hc) ⟨(Store.change_fenceInv hc h.fences).bounded _ (hg.mono hc).issued, ?_⟩
    rw [hgone]
    nofun
  · cases hstage
  · exact absurd hstage (hretryRelease _ _)
  · rename_i attempt g cur
    split_ifs at hstage with hcur
    · obtain rfl := LaunchStage.returned.inj hstage
      obtain ⟨-, hread⟩ := hexec _ rfl
      obtain rfl := Answer.value.inj (Option.some.inj hread)
      exact h.lost (hgrant g (List.mem_singleton.2 rfl)) hcur hc
    · exact absurd hstage (hretryRelease _ _)
  · exact absurd hstage (hretryRelease _ _)
  · rename_i compensates answer
    obtain rfl := LaunchStage.returned.inj hstage
    intro hsome
    obtain ⟨a, ha'⟩ := Option.isSome_iff_exists.1 hsome
    rw [hstore (hexec a ha').1]
    rfl
  · rename_i result'
    exact absurd rfl (hr result')

/-- two entries whose leases stand are one node's -/
theorem OwnersInv.one_current (h : OwnersInv s) {node node' : String} {e e' : Entry}
    (ho : (s.nodes node).owner.owned = some e) (ho' : (s.nodes node').owner.owned = some e')
    (hc : Current s.store.keys e.grant) (hc' : Current s.store.keys e'.grant) :
    node = node' ∧ e.grant = e'.grant := by
  have hg := h.entries node _ (owned_grants ho)
  have hg' := h.entries node' _ (owned_grants ho')
  have hlease : e.grant.lease = e'.grant.lease := Option.some.inj (hc.1.symm.trans hc'.1)
  have hfence : e.grant.fence = e'.grant.fence := Option.some.inj (hc.2.symm.trans hc'.2)
  have htext := hlease
  rw [hg.lease, hg'.lease] at htext
  refine ⟨(joinColon_inj (luaTostring_no_colon _) (luaTostring_no_colon _) htext).1, ?_⟩
  cases hx : e.grant
  cases hy : e'.grant
  simp only [hx, hy] at hlease hfence
  rw [hlease, hfence]

/-- **Ownership entries are safe.** In every interleaving, with failing statements, lost replies, crashes and expiries:
an entry of a node is a lease it was granted, and of all entries of all nodes at most one grant stands in Redis. A
heartbeat or a boundary drops only the entry it renewed, and only when that lease never stands again or, at a boundary,
when three renewals failed; a boundary passes only with its entry in place and its lease in Redis. `acquireOnLaunch`
returns true only with its entry recorded and its lease in Redis; when it returns false its lease never stands again, or
the match has just been indexed for recovery, or that last write failed, too. -/
theorem entries_are_safe (ops : List (OwnerOp β)) :
    let s := run step (init : System β) ops
    (∀ node e, (s.nodes node).owner.owned = some e → Granted s.store node e.grant) ∧
      (∀ node node' e e', (s.nodes node).owner.owned = some e → (s.nodes node').owner.owned = some e' →
        Current s.store.keys e.grant → Current s.store.keys e'.grant → node = node' ∧ e.grant = e'.grant) ∧
      ∀ node i stage reply, (s.nodes node).calls[i]? = some stage →
        let t := s.step (.next node i reply)
        (∀ e, stage = .beat e → DropsRenewed s t node e False) ∧
          (∀ attempt e, stage = .assertRenew attempt e →
            DropsRenewed s t node e (assertRenewAttempts ≤ attempt + 1 ∧ (reply = .fails ∨ reply = .lost)) ∧
              ((t.nodes node).calls[i]? = some (.asserted true) →
                (s.nodes node).owner.owned = some e ∧ Current s.store.keys e.grant)) ∧
          ∀ launch, stage = .launch launch → (∀ result, launch ≠ .returned result) → ∀ result,
            (t.nodes node).calls[i]? = some (.launch (.returned result)) → Settled t node result := by
  intro s
  have h : OwnersInv s := run_ownersInv ops
  refine ⟨fun node e ho => h.entries node _ (owned_grants ho),
    fun node node' e e' ho ho' hc hc' => h.one_current ho ho' hc hc', ?_⟩
  intro node i stage reply hi
  have hstep : s.step (.next node i reply) = s.next node i reply stage := by
    simp only [step, hi]
  intro t
  have ht : t = s.next node i reply stage := hstep
  rw [ht]
  refine ⟨?_, ?_, ?_⟩
  · rintro e rfl
    exact beat_step h hi reply
  · rintro attempt e rfl
    exact assert_step h hi reply
  · rintro launch rfl hr result hend
    exact launch_step h hi hr reply hend

/-- the lease expires while a heartbeat renews it, and a recovery takes the match over once more -/
example :
    let ops : List (OwnerOp Unit) := [.acquireOnLaunch "a", .next "a" 0 .ok, .next "a" 0 .ok, .next "a" 0 .ok,
      .heartbeat "a", .script (.expire .owner), .attemptRecovery "a", .next "a" 2 .ok, .next "a" 2 .ok,
      .next "a" 1 .ok]
    ((run step init ops).nodes "a").owner.owned = some ⟨1, 2, "a:2"⟩ := by
  decide +kernel

end System

end Arena.Api.Owners
