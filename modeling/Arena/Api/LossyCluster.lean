/-
The cluster with persists whose calls fail, and the leases it grants.

A call of `persistStateMachine` may throw before the CAS has run, or the CAS runs and its reply is lost; the persist then
throws, and the cached revision is what it was.

- `GrantInv`: a lease belongs to one node, its fence is at most the counter, and ownership entries, snapshots and cached
  revisions come from granted leases;
- `step_grantInv`, `step_granted`: it holds in every run, whichever calls fail, and a granted lease stays granted.
-/
import Arena.Api.CanonicalLog

namespace Arena.Api

open Arena.Lib Arena.Shared Arena.GameCore Arena.Redis

namespace Cluster

/-! ## Persists whose calls fail -/

inductive LossyOp where
  | op (o : ClusterOp)
  /-- the CAS of the persist in flight runs, its reply does not arrive, and the persist throws -/
  | loseReply (n : String)
  /-- a call of the persist in flight throws before the CAS has run -/
  | failCall (n : String)

def loseReply (s : Cluster) (n : String) : Cluster :=
  match (s.nodes n).persist with
  | some p =>
    match p.expectedRevision with
    | none => s
    | some expectedRevision =>
      { s with keys := (s.casReply p expectedRevision).1 }.setNode n { s.nodes n with persist := none }
  | none => s

def failCall (s : Cluster) (n : String) : Cluster := s.setNode n { s.nodes n with persist := none }

def lossyStep (J : StringOps) (s : Cluster) : LossyOp → Cluster
  | .op o => s.step J o
  | .loseReply n => s.loseReply n
  | .failCall n => s.failCall n

/-! ## Grants -/

/-- leases, ownership entry, revision and persist of a node -/
def ledger (node : Node) : List OwnedEntry × Option OwnedEntry × Option (ℕ × ℕ) × Option Persist :=
  (node.granted, node.owned, node.revision, node.persist)

structure GrantInv (s : Cluster) : Prop where
  bounded : ∀ n, ∀ e ∈ (s.nodes n).granted, e.1 ≤ s.keys.fence.getD 0
  unique : ∀ n k, ∀ e ∈ (s.nodes n).granted, e ∈ (s.nodes k).granted → n = k
  owned : ∀ n, ∀ e ∈ (s.nodes n).owned, e ∈ (s.nodes n).granted
  snapshot : ∀ n, ∀ p ∈ (s.nodes n).persist, p.snapshot ∈ (s.nodes n).granted
  revision : ∀ n, ∀ c ∈ (s.nodes n).revision, c.1 ≤ s.keys.fence.getD 0

theorem grantInv_init (creator : String) (m : Machine) : GrantInv (init creator m) := by
  have hidle : ∀ n, ledger ((init creator m).nodes n) = ([], none, none, none) := by
    intro n
    rw [init_node]
    split_ifs <;> rfl
  simp only [ledger, Prod.mk.injEq] at hidle
  constructor <;> simp [hidle]

theorem GrantInv.of_keys {s : Cluster} (h : GrantInv s) (k : Keys WireMatch)
    (hf : s.keys.fence.getD 0 ≤ k.fence.getD 0) : GrantInv { s with keys := k } where
  bounded := fun n e he => (h.bounded n e he).trans hf
  unique := h.unique
  owned := h.owned
  snapshot := h.snapshot
  revision := fun n c hc => (h.revision n c hc).trans hf

theorem GrantInv.setNode {s : Cluster} (h : GrantInv s) (n : String) (node : Node)
    (hg : node.granted = (s.nodes n).granted) (ho : ∀ e ∈ node.owned, e ∈ (s.nodes n).granted)
    (hp : ∀ p ∈ node.persist, p.snapshot ∈ (s.nodes n).granted)
    (hr : ∀ c ∈ node.revision, c.1 ≤ s.keys.fence.getD 0) : GrantInv (s.setNode n node) := by
  have hgranted : ∀ k, ((s.setNode n node).nodes k).granted = (s.nodes k).granted := by
    intro k
    rw [setNode_nodes]
    split_ifs with hk
    · rw [hg, hk]
    · rfl
  constructor
  · intro k e he
    exact h.bounded k e (hgranted k ▸ he)
  · intro k j e hk hj
    exact h.unique k j e (hgranted k ▸ hk) (hgranted j ▸ hj)
  · intro k
    rw [hgranted, setNode_nodes]
    split_ifs with hk
    · exact hk ▸ ho
    · exact h.owned k
  · intro k
    rw [hgranted, setNode_nodes]
    split_ifs with hk
    · exact hk ▸ hp
    · exact h.snapshot k
  · intro k
    rw [setNode_nodes]
    split_ifs with hk
    · exact hr
    · exact h.revision k

theorem acquire_grantInv {s : Cluster} (h : GrantInv s) (n : String) : GrantInv (s.acquire n) := by
  unfold acquire
  rcases s.keys.acquire_cases n with ⟨hk, hno⟩ | ⟨f, hlt, hk, hr⟩
  · simp only [hk]
    exact h
  · have hkeys : GrantInv { s with keys := { s.keys with owner := some (leaseValue n f), fence := some f } } :=
      h.of_keys _ hlt.le
    split_ifs at hr
    · -- granted: the fence is above every earlier one
      simp only [hk, hr]
      have hnew : ∀ k, ∀ e ∈ (s.nodes k).granted, e ≠ (f, leaseValue n f) := by
        intro k e he hef
        have := h.bounded k e he
        rw [hef] at this
        exact absurd hlt (Nat.not_lt.2 this)
      constructor <;> simp only [setNode_nodes]
      · intro k
        split_ifs with hk
        · intro e he
          rcases List.mem_append.1 he with he | he
          · exact hkeys.bounded n e he
          · rw [List.mem_singleton.1 he]
            exact Nat.le_refl f
        · exact hkeys.bounded k
      · intro k j e
        split_ifs with hk hj hj
        · rw [hk, hj]
          exact fun _ _ => rfl
        · intro he hej
          rcases List.mem_append.1 he with he | he
          · exact hk ▸ h.unique n j e he hej
          · exact absurd (List.mem_singleton.1 he) (hnew j e hej)
        · intro hek he
          rcases List.mem_append.1 he with he | he
          · exact hj ▸ h.unique k n e hek he
          · exact absurd (List.mem_singleton.1 he) (hnew k e hek)
        · exact h.unique k j e
      · intro k
        split_ifs with hk
        · exact fun e he => List.mem_append_left _ (h.owned n e he)
        · exact h.owned k
      · intro k
        split_ifs with hk
        · exact fun p hp => List.mem_append_left _ (h.snapshot n p hp)
        · exact h.snapshot k
      · intro k
        split_ifs with hk
        · exact hkeys.revision n
        · exact hkeys.revision k
    · simp only [hk, hr]
      exact hkeys

theorem redis_grantInv {s : Cluster} (h : GrantInv s) (c : Call WireMatch) : GrantInv (s.redis c) := by
  unfold redis
  split_ifs
  · refine h.of_keys _ ?_
    have hch := Store.step_ownerChange ⟨s.keys, []⟩ c
    generalize hs' : Store.step ⟨s.keys, []⟩ c = s' at hch
    have hkeys : s.keys.step c = s'.keys := congrArg Store.keys hs'
    rw [hkeys]
    cases hch with
    | kept k _ hf => exact hf.symm ▸ le_rfl
    | claimed k _ f hn _ hf => exact hf.symm ▸ hn.le
    | fencedOut k f hn _ hf => exact hf.symm ▸ hn.le
  · exact h

/-- a CAS keeps owner and fence -/
theorem casReply_keys (s : Cluster) (p : Persist) (e : ℕ) :
    (s.casReply p e).1.owner = s.keys.owner ∧ (s.casReply p e).1.fence = s.keys.fence := by
  unfold casReply Keys.fencedStateSet
  split_ifs <;> exact ⟨rfl, rfl⟩

/-- the persist in flight ends; the cached revision is kept, or bound to the fence of the persist -/
theorem GrantInv.endPersist {s : Cluster} (h : GrantInv s) (n : String) (k : Keys WireMatch)
    (hf : k.fence = s.keys.fence) (revision : Option (ℕ × ℕ))
    (hr : ∀ c ∈ revision, c ∈ (s.nodes n).revision ∨ ∃ p ∈ (s.nodes n).persist, c.1 = p.snapshot.1) :
    GrantInv (Cluster.setNode { s with keys := k } n { s.nodes n with persist := none, revision := revision }) := by
  have hk : GrantInv { s with keys := k } := h.of_keys k (hf ▸ le_rfl)
  refine hk.setNode n _ rfl (h.owned n) ?_ ?_
  · intro p hp
    cases hp
  · intro c hc
    rcases hr c hc with hold | ⟨p, hp, hcp⟩
    · exact hk.revision n c hold
    · rw [hcp]
      exact hk.bounded n p.snapshot (h.snapshot n p hp)

theorem persist_grantInv {s : Cluster} (h : GrantInv s) (n : String) : GrantInv (s.persistStateMachine n) := by
  unfold persistStateMachine
  split
  · rename_i snapshot _ _ ho
    refine h.setNode n _ rfl (h.owned n) ?_ (h.revision n)
    intro p hp
    obtain rfl := Option.some.inj hp
    exact h.owned n snapshot ho
  · exact h

theorem read_grantInv {s : Cluster} (h : GrantInv s) (n : String) (failed : Bool) :
    GrantInv (s.readPersistedRevision n failed) := by
  unfold readPersistedRevision
  split
  · rename_i p hp
    split_ifs
    · exact h
    all_goals
      refine h.setNode n _ rfl (h.owned n) ?_ (h.revision n)
      intro q hq
      obtain rfl := Option.some.inj hq
      exact h.snapshot n p hp
  · exact h

/-- a step on the machines of a node -/
def MachineStep (s s' : Cluster) : Prop :=
  s'.keys.fence = s.keys.fence ∧ s'.keys.revision = s.keys.revision ∧ ∀ k, ledger (s'.nodes k) = ledger (s.nodes k)

theorem MachineStep.refl (s : Cluster) : MachineStep s s := ⟨rfl, rfl, fun _ => rfl⟩

theorem machineStep_setNode {s t : Cluster} (n : String) (node : Node) (hf : t.keys.fence = s.keys.fence)
    (hr : t.keys.revision = s.keys.revision) (ht : t.nodes = s.nodes) (hl : ledger node = ledger (s.nodes n)) :
    MachineStep s (t.setNode n node) := by
  refine ⟨hf, hr, fun k => ?_⟩
  rw [setNode_nodes, ht]
  split_ifs with hk
  · rw [hl, hk]
  · rfl

theorem MachineStep.grantInv {s s' : Cluster} (hm : MachineStep s s') (h : GrantInv s) : GrantInv s' := by
  obtain ⟨hf, -, hl⟩ := hm
  simp only [ledger, Prod.mk.injEq] at hl
  constructor
  · intro n
    rw [(hl n).1, hf]
    exact h.bounded n
  · intro n k
    rw [(hl n).1, (hl k).1]
    exact h.unique n k
  · intro n
    rw [(hl n).1, (hl n).2.1]
    exact h.owned n
  · intro n
    rw [(hl n).1, (hl n).2.2.2]
    exact h.snapshot n
  · intro n
    rw [(hl n).2.2.1, hf]
    exact h.revision n

/-- the steps that load, change, evict or drop a machine -/
def OnMachine : ClusterOp → Prop
  | .getStateMachine _ => True
  | .readState _ => True
  | .install .. => True
  | .dropCorrupt _ => True
  | .evictStateMachine _ => True
  | .mutate .. => True
  | _ => False

theorem machineStep (J : StringOps) (s : Cluster) (o : ClusterOp) (ho : OnMachine o) : MachineStep s (s.step J o) := by
  have same : ∀ n node, ledger node = ledger (s.nodes n) → MachineStep s (s.setNode n node) :=
    fun n node hl => machineStep_setNode n node rfl rfl rfl hl
  cases o with
  | getStateMachine n =>
    simp only [step, getStateMachine]
    split
    · exact .refl s
    · exact same n _ rfl
  | readState n =>
    simp only [step, readState]
    split_ifs
    · exact .refl s
    · split
      · exact same n _ rfl
      · split <;> exact same n _ rfl
  | install n i key =>
    simp only [step, install]
    split
    · exact .refl s
    · exact same n _ rfl
  | dropCorrupt n =>
    simp only [step, dropCorrupt]
    split_ifs
    · exact .refl s
    · exact machineStep_setNode n _ rfl rfl rfl rfl
  | evictStateMachine n => exact same n _ rfl
  | mutate n o =>
    simp only [step, mutate]
    split
    · exact .refl s
    · exact same n _ rfl
  | _ => exact ho.elim

theorem step_grantInv (J : StringOps) {s : Cluster} (h : GrantInv s) (o : LossyOp) : GrantInv (lossyStep J s o) := by
  cases o with
  | failCall n =>
    exact h.endPersist n s.keys rfl _ fun _ hc => .inl hc
  | loseReply n =>
    simp only [lossyStep, loseReply]
    split
    · split
      · exact h
      · exact h.endPersist n _ (casReply_keys s _ _).2 _ fun _ hc => .inl hc
    · exact h
  | op o =>
    by_cases ho : OnMachine o
    · exact (machineStep J s o ho).grantInv h
    cases o with
    | acquire n => exact acquire_grantInv h n
    | own n entry =>
      simp only [lossyStep, step, own]
      split_ifs with hg
      · refine h.setNode n _ rfl ?_ (h.snapshot n) (h.revision n)
        intro e he
        obtain rfl := Option.some.inj he
        exact hg
      · exact h
    | relinquish n =>
      refine h.setNode n _ rfl ?_ (h.snapshot n) (h.revision n)
      intro e he
      cases he
    | redis c => exact redis_grantInv h c
    | persistStateMachine n => exact persist_grantInv h n
    | readPersistedRevision n failed => exact read_grantInv h n failed
    | fencedStateSet n =>
      simp only [lossyStep, step, fencedStateSet]
      split
      · rename_i p hp
        split
        · exact h
        · refine h.endPersist n _ (casReply_keys s _ _).2 _ ?_
          intro c hc
          split_ifs at hc
          · obtain rfl := Option.some.inj hc
            exact .inr ⟨p, hp, rfl⟩
          · exact .inl hc
      · exact h
    | _ => exact absurd trivial ho

/-- a lease that was granted stays granted -/
theorem step_granted (J : StringOps) {s : Cluster} {n : String} {entry : OwnedEntry}
    (he : entry ∈ (s.nodes n).granted) (o : LossyOp) : entry ∈ ((lossyStep J s o).nodes n).granted := by
  have hset : ∀ (t : Cluster) (k : String) (node : Node), t.nodes = s.nodes →
      (s.nodes k).granted ⊆ node.granted → entry ∈ ((t.setNode k node).nodes n).granted := by
    intro t k node ht hsub
    rw [setNode_nodes, ht]
    split_ifs with hk
    · exact hsub (hk ▸ he)
    · exact he
  cases o with
  | failCall k => exact hset s k _ rfl fun _ h => h
  | loseReply k =>
    simp only [lossyStep, loseReply]
    repeat' split
    all_goals first | exact he | exact hset _ k _ rfl fun _ h => h
  | op o =>
    by_cases ho : OnMachine o
    · have hl := (machineStep J s o ho).2.2 n
      simp only [ledger, Prod.mk.injEq] at hl
      exact hl.1.symm ▸ he
    cases o with
    | acquire k =>
      simp only [lossyStep, step, acquire]
      split
      · exact hset _ k _ rfl (List.subset_append_left _ _)
      · exact he
    | redis c =>
      simp only [lossyStep, step, redis]
      split_ifs <;> exact he
    | relinquish k => exact hset s k _ rfl fun _ h => h
    | own k e =>
      simp only [lossyStep, step, own]
      split_ifs
      · exact hset s k _ rfl fun _ h => h
      · exact he
    | persistStateMachine k =>
      simp only [lossyStep, step, persistStateMachine]
      split
      · exact hset s k _ rfl fun _ h => h
      · exact he
    | readPersistedRevision k failed =>
      simp only [lossyStep, step, readPersistedRevision]
      repeat' split
      all_goals first | exact he | exact hset _ k _ rfl fun _ h => h
    | fencedStateSet k =>
      simp only [lossyStep, step, fencedStateSet]
      repeat' split
      all_goals first | exact he | exact hset _ k _ rfl fun _ h => h
    | _ => exact absurd trivial ho

end Cluster

end Arena.Api
