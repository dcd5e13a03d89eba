/-
The Redis keys of one match and the Lua scripts over them (`redis.lease.ts`).

Each script is one atomic function on the keys. The match blob is a type parameter: the scripts store it and never read
it. A TTL is not kept with its key; a key that has one may expire at any time (`Call.expire`), so a renewal changes no
key. Fences and revisions are naturals (the scripts compare their decimal texts), the fence as `INCR` counts it, up to
the last 64-bit integer.

A lease value is the text `<node>:<tostring(fence)>`. `acquireMatchLease` also has the check its caller makes on the
reply: a fence that Lua does not print in decimal is thrown as inconsistent, after the script has stored the lease.
-/
import Arena.Lib.LuaNumber

namespace Arena.Redis

open Arena.Lib

/-- the keys of one match; `active` and `deadLetter` are its membership in the two sets -/
structure Keys (β : Type) where
  owner : Option String
  fence : Option ℕ
  state : Option β
  revision : Option ℕ
  tombstone : Option String
  active : Bool
  deadLetter : Bool
deriving DecidableEq

def Keys.empty {β : Type} : Keys β := ⟨none, none, none, none, none, false, false⟩

/-- `node .. ":" .. tostring(fence)` -/
def leaseValue (node : String) (fence : ℕ) : String := joinColon node (luaTostring fence)

/-- `INCR`: an absent counter counts as 0, and the last 64-bit integer is an error -/
def incr (counter : Option ℕ) : Option ℕ :=
  if counter.getD 0 < 2 ^ 63 - 1 then some (counter.getD 0 + 1) else none

inductive AcquireReply where
  | acquired (fence : ℕ) (leaseValue : String)
  | liveOwner
  | terminal
  /-- thrown by the caller on a payload whose texts disagree -/
  | inconsistent
  | scriptError
deriving DecidableEq, Repr

/-- why a match is final -/
inductive Reason where
  | finished
  | deadLetter
  | cleaned
deriving DecidableEq, Repr

def Reason.text : Reason → String
  | .finished => "finished"
  | .deadLetter => "dead-letter"
  | .cleaned => "cleaned"

inductive RequeueReply where
  | requeued
  | notTerminal
  | invalidTombstone
  | finalized
  | noState
  | conflict
  | scriptError
deriving DecidableEq, Repr

namespace Keys

variable {β : Type}

/-- a present owner that is not the empty text -/
def ownerLive (k : Keys β) : Bool := k.owner.any (· ≠ "")

/-! ## Leases -/

def acquireMatchLease (k : Keys β) (nodeId : String) : Keys β × AcquireReply :=
  if k.tombstone.isSome then (k, .terminal)
  else if k.ownerLive then (k, .liveOwner)
  else
    match incr k.fence with
    | none => (k, .scriptError)
    | some newFence =>
      let lease := leaseValue nodeId newFence
      let fence := luaReadBack newFence
      ({ k with owner := some lease, fence := some newFence },
        if lease ≠ joinColon nodeId (decimal fence) then .inconsistent else .acquired fence lease)

def renewLease (k : Keys β) (expected : String) : Keys β × Bool := (k, k.owner = some expected)

def releaseLease (k : Keys β) (expected : String) : Keys β × Bool :=
  if k.owner = some expected then ({ k with owner := none }, true) else (k, false)

def releaseLeaseAndIndex (k : Keys β) (expected : String) : Keys β × Bool :=
  if k.owner = some expected then ({ k with owner := none, active := false }, true) else (k, false)

/-! ## Fenced writes -/

/-- the stored revision is the expected one; an absent key stands for the initial revision -/
def revisionIs (k : Keys β) (expectedRevision : ℕ) : Bool :=
  match k.revision with
  | none => expectedRevision = 0
  | some currentRevision => currentRevision = expectedRevision

/-- `true` is APPLIED, `false` is RETRY -/
def fencedStateSet (k : Keys β) (leaseValue : String) (expectedFence : ℕ) (blob : β)
    (expectedRevision nextRevision : ℕ) : Keys β × Bool :=
  if k.owner ≠ some leaseValue then (k, false)
  else if k.fence ≠ some expectedFence then (k, false)
  else if !k.revisionIs expectedRevision then (k, false)
  else if nextRevision ≠ expectedRevision + 1 then (k, false)
  else ({ k with state := some blob, revision := some nextRevision }, true)

def fencedStateDelete (k : Keys β) (leaseValue : String) (expectedFence : ℕ) : Keys β × Bool :=
  if k.owner ≠ some leaseValue then (k, false)
  else if k.fence ≠ some expectedFence then (k, false)
  else ({ k with state := none, revision := none }, true)

/-- `true` is FINALIZED, `false` is STALE -/
def finalizeMatchTombstone (k : Keys β) (leaseValue : String) (expectedFence : ℕ) (reason : Reason) : Keys β × Bool :=
  if k.owner ≠ some leaseValue then (k, false)
  else if k.fence ≠ some expectedFence then (k, false)
  else
    ({ k with
        tombstone := some (joinColon reason.text (decimal expectedFence))
        active := false
        deadLetter := k.deadLetter || decide (reason = .deadLetter) }, true)

/-! ## Requeue and index cleanup -/

/-- `^[1-9][0-9]*$`, at most 9007199254740991 -/
def validFinalizedFence (fenceStr : List Char) : Bool :=
  match fenceStr with
  | [] => false
  | c :: _ =>
    c ≠ '0' && fenceStr.all Char.isDigit && decide (fenceStr.length ≤ 16) &&
      !(decide (fenceStr.length = 16) && decide ("9007199254740991" < String.ofList fenceStr))

/-- the reason of a well-formed tombstone -/
def tombstoneReason (tombstone : String) : Option Reason :=
  let reason := tombstone.toList.takeWhile (· ≠ ':')
  match tombstone.toList.dropWhile (· ≠ ':') with
  | [] => none
  | _ :: fenceStr =>
    if reason = [] ∨ fenceStr = [] then none
    else if !validFinalizedFence fenceStr then none
    else [Reason.finished, .deadLetter, .cleaned].find? fun r => r.text.toList = reason

/-- the gates read only; the owner is deleted before the fence moves, and a failed `INCR` does not bring it back -/
def requeueDeadLetter (k : Keys β) (force : Bool) : Keys β × RequeueReply :=
  match k.tombstone with
  | none => (k, .notTerminal)
  | some tomb =>
    match tombstoneReason tomb with
    | none => (k, .invalidTombstone)
    | some .finished => (k, .finalized)
    | some .cleaned => (k, .finalized)
    | some .deadLetter =>
      if k.state.isNone then (k, .noState)
      else if k.ownerLive then
        if !force then (k, .conflict)
        else
          match incr k.fence with
          | none => ({ k with owner := none }, .scriptError)
          | some newFence =>
            ({ k with owner := none, fence := some newFence, tombstone := none, active := true, deadLetter := false },
              .requeued)
      else ({ k with tombstone := none, active := true, deadLetter := false }, .requeued)

/-- `true` is REMOVED -/
def removeActiveIfStateAbsent (k : Keys β) : Keys β × Bool :=
  if k.state.isSome then (k, false) else ({ k with active := false }, true)

/-- `true` is REMOVED -/
def removeActiveIfTombstoned (k : Keys β) : Keys β × Bool :=
  if k.tombstone.isNone then (k, false) else ({ k with active := false }, true)

end Keys

/-! ## Calls -/

/-- the keys with a TTL -/
inductive ExpiringKey where
  | owner
  | state
  | revision
  | tombstone
deriving DecidableEq, Repr

def Keys.expire {β : Type} (k : Keys β) : ExpiringKey → Keys β
  | .owner => { k with owner := none }
  | .state => { k with state := none }
  | .revision => { k with revision := none }
  | .tombstone => { k with tombstone := none }

/-- one script run with its arguments, or an expiry; nothing relates the arguments to the caller -/
inductive Call (β : Type) where
  | acquireMatchLease (nodeId : String)
  | renewLease (expected : String)
  | releaseLease (expected : String)
  | releaseLeaseAndIndex (expected : String)
  | fencedStateSet (leaseValue : String) (expectedFence : ℕ) (blob : β) (expectedRevision nextRevision : ℕ)
  | fencedStateDelete (leaseValue : String) (expectedFence : ℕ)
  | finalizeMatchTombstone (leaseValue : String) (expectedFence : ℕ) (reason : Reason)
  | requeueDeadLetter (force : Bool)
  | removeActiveIfStateAbsent
  | removeActiveIfTombstoned
  | expire (key : ExpiringKey)

inductive Reply where
  | acquire (r : AcquireReply)
  | done (b : Bool)
  | requeue (r : RequeueReply)
  | expired
deriving DecidableEq, Repr

variable {β : Type}

def Keys.exec (k : Keys β) : Call β → Keys β × Reply
  | .acquireMatchLease nodeId => ((k.acquireMatchLease nodeId).1, .acquire (k.acquireMatchLease nodeId).2)
  | .renewLease e => ((k.renewLease e).1, .done (k.renewLease e).2)
  | .releaseLease e => ((k.releaseLease e).1, .done (k.releaseLease e).2)
  | .releaseLeaseAndIndex e => ((k.releaseLeaseAndIndex e).1, .done (k.releaseLeaseAndIndex e).2)
  | .fencedStateSet l f b e n => ((k.fencedStateSet l f b e n).1, .done (k.fencedStateSet l f b e n).2)
  | .fencedStateDelete l f => ((k.fencedStateDelete l f).1, .done (k.fencedStateDelete l f).2)
  | .finalizeMatchTombstone l f r => ((k.finalizeMatchTombstone l f r).1, .done (k.finalizeMatchTombstone l f r).2)
  | .requeueDeadLetter force => ((k.requeueDeadLetter force).1, .requeue (k.requeueDeadLetter force).2)
  | .removeActiveIfStateAbsent => (k.removeActiveIfStateAbsent.1, .done k.removeActiveIfStateAbsent.2)
  | .removeActiveIfTombstoned => (k.removeActiveIfTombstoned.1, .done k.removeActiveIfTombstoned.2)
  | .expire key => (k.expire key, .expired)

def Keys.step (k : Keys β) (c : Call β) : Keys β := (k.exec c).1

/-! ## Acquisition -/

theorem lt_incr {counter : Option ℕ} {n : ℕ} (h : incr counter = some n) : counter.getD 0 < n := by
  unfold incr at h
  split_ifs at h
  rw [← Option.some.inj h]
  exact Nat.lt_succ_self _

/-- the caller accepts the payload of a fence that prints in decimal, and no other -/
theorem acquire_payload (node : String) (n : ℕ) :
    leaseValue node n = joinColon node (decimal (luaReadBack n)) ↔ n < 10 ^ 14 := by
  constructor
  · intro h
    by_contra hlt
    have hcolon : ':' ∉ (decimal (luaReadBack n)).toList := by
      intro hm
      have := isDigit_of_mem_decimal hm
      cases this
    obtain ⟨-, heq⟩ := joinColon_inj (luaTostring_no_colon n) hcolon h
    exact luaTostring_ne_decimal hlt _ heq
  · intro hlt
    rw [leaseValue, luaTostring, luaReadBack, if_pos hlt, if_pos hlt]

/-- **Acquisition** changes nothing, or claims the owner key under a higher fence; the caller then has the lease, or
rejects the payload -/
theorem Keys.acquire_cases (k : Keys β) (node : String) :
    ((k.acquireMatchLease node).1 = k ∧ ∀ f l, (k.acquireMatchLease node).2 ≠ .acquired f l) ∨
      ∃ f, k.fence.getD 0 < f ∧
        (k.acquireMatchLease node).1 = { k with owner := some (leaseValue node f), fence := some f } ∧
        (k.acquireMatchLease node).2 = if f < 10 ^ 14 then .acquired f (leaseValue node f) else .inconsistent := by
  unfold acquireMatchLease
  split_ifs
  · exact .inl ⟨rfl, nofun⟩
  · exact .inl ⟨rfl, nofun⟩
  · cases hf : incr k.fence with
    | none => exact .inl ⟨rfl, nofun⟩
    | some n =>
      refine .inr ⟨n, lt_incr hf, rfl, ?_⟩
      simp only [ne_eq, ite_not, acquire_payload]
      split_ifs with hlt
      · rw [luaReadBack, if_pos hlt]
      · rfl

/-- a granted lease prints its fence in decimal -/
theorem Keys.acquired_small {k : Keys β} {node lease : String} {f : ℕ}
    (h : (k.acquireMatchLease node).2 = .acquired f lease) : f < 10 ^ 14 ∧ lease = leaseValue node f := by
  rcases k.acquire_cases node with ⟨-, hno⟩ | ⟨n, -, -, hr⟩
  · exact absurd h (hno f lease)
  · rw [hr] at h
    split_ifs at h with hlt
    obtain ⟨rfl, rfl⟩ := AcquireReply.acquired.inj h
    exact ⟨hlt, rfl⟩

/-! ## One spec lemma per fenced script -/

/-- APPLIED: the caller owns the match, the fence is current and the revision is the expected one -/
theorem Keys.fencedStateSet_applied {k : Keys β} {lease : String} {fence e n : ℕ} {blob : β}
    (h : (k.fencedStateSet lease fence blob e n).2 = true) :
    k.owner = some lease ∧ k.fence = some fence ∧ k.revision.getD 0 = e ∧ n = e + 1 ∧
      (k.fencedStateSet lease fence blob e n).1 = { k with state := some blob, revision := some (e + 1) } := by
  unfold fencedStateSet at h ⊢
  split_ifs at h ⊢ with h1 h2 h3 h4
  refine ⟨not_not.1 h1, not_not.1 h2, ?_, not_not.1 h4, by rw [not_not.1 h4]⟩
  unfold revisionIs at h3
  cases hr : k.revision with
  | none =>
    have he : e = 0 := by simpa [hr] using h3
    rw [he]
    rfl
  | some r => simpa [hr] using h3

/-- RETRY writes nothing -/
theorem Keys.fencedStateSet_retry {k : Keys β} {lease : String} {fence e n : ℕ} {blob : β}
    (h : (k.fencedStateSet lease fence blob e n).2 = false) : (k.fencedStateSet lease fence blob e n).1 = k := by
  unfold fencedStateSet at h ⊢
  split_ifs at h ⊢ <;> rfl

theorem Keys.fencedStateDelete_done {k : Keys β} {lease : String} {fence : ℕ}
    (h : (k.fencedStateDelete lease fence).2 = true) : k.owner = some lease ∧ k.fence = some fence := by
  unfold fencedStateDelete at h
  split_ifs at h with h1 h2
  exact ⟨not_not.1 h1, not_not.1 h2⟩

theorem Keys.fencedStateDelete_rejected {k : Keys β} {lease : String} {fence : ℕ}
    (h : (k.fencedStateDelete lease fence).2 = false) : (k.fencedStateDelete lease fence).1 = k := by
  unfold fencedStateDelete at h ⊢
  split_ifs at h ⊢ <;> rfl

theorem Keys.finalize_done {k : Keys β} {lease : String} {fence : ℕ} {reason : Reason}
    (h : (k.finalizeMatchTombstone lease fence reason).2 = true) : k.owner = some lease ∧ k.fence = some fence := by
  unfold finalizeMatchTombstone at h
  split_ifs at h with h1 h2
  exact ⟨not_not.1 h1, not_not.1 h2⟩

theorem Keys.finalize_stale {k : Keys β} {lease : String} {fence : ℕ} {reason : Reason}
    (h : (k.finalizeMatchTombstone lease fence reason).2 = false) :
    (k.finalizeMatchTombstone lease fence reason).1 = k := by
  unfold finalizeMatchTombstone at h ⊢
  split_ifs at h ⊢ <;> rfl

end Arena.Redis
