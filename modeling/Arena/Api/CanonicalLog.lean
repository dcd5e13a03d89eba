/-
The canonical event log and stale caches.

The fenced CAS guards the revision number, not the content. The holder of the current lease writes whatever its cache
holds: a node that lost its lease keeps its machine, and when it gets the lease again it reloads the revision and not the
state; a hydration that was in flight may replace the live machine by an older one. `FreshStep` is the condition on the
steps that bring a machine and a current lease together.

- `CanonInv`: the current holder's machine, and its persist in flight, extend the stored log;
- `canonical_log_extends`: in every run whose steps are fresh, an APPLIED write extends the stored log;
- `stale_cache_regresses`: two nodes, one lost and regained lease, and a canonical event is gone.
-/
import Arena.Api.Cluster

namespace Arena.Api

open Arena.Lib Arena.Shared Arena.GameCore Arena.Redis

namespace Cluster

/-! ## Statement -/

/-- the event log inside a blob -/
def eventLogOf (b : WireMatch) : List EventLogEntry := backfillEventSequence (b.eventLog.getD [])

theorem eventLogOf_serialize (m : Machine) : eventLogOf m.serialize = m.eventLog :=
  Machine.backfill_encode m.eventLog

/-- node `n` was granted the lease that is the current one -/
def Holds (s : Cluster) (n : String) (entry : OwnedEntry) : Prop :=
  entry ∈ (s.nodes n).granted ∧ s.keys.owner = some entry.2 ∧ s.keys.fence = some entry.1

/-- the machine's log extends the stored log -/
def ExtendsStored (s : Cluster) (m : Machine) : Prop := ∀ b, s.keys.state = some b → eventLogOf b <+: m.eventLog

/-- the machine's log extends the blob of the node's persist in flight -/
def ExtendsPersist (s : Cluster) (n : String) (m : Machine) : Prop :=
  ∀ p, (s.nodes n).persist = some p → eventLogOf p.blob <+: m.eventLog

/-- a lease goes to a node without a machine or with one that extends the stored log; a hydration that ends on the
holder of the lease brings a machine that extends the stored log and the persist in flight -/
def FreshStep (s : Cluster) : ClusterOp → Prop
  | .acquire n => ∀ f l, (s.keys.acquireMatchLease n).2 = .acquired f l →
      ∀ m, (s.nodes n).machine = some m → s.ExtendsStored m
  | .install n i _ => ∀ entry, s.Holds n entry → ∀ m, (s.nodes n).hydrations[i]? = some m →
      s.ExtendsStored m ∧ s.ExtendsPersist n m
  | _ => True

/-- an APPLIED CAS stores a blob whose log extends the log stored before -/
def AppliedExtends (s : Cluster) : ClusterOp → Prop
  | .fencedStateSet n => ∀ p e, (s.nodes n).persist = some p → p.expectedRevision = some e →
      (s.casReply p e).2 = true → ∀ b b', s.keys.state = some b → (s.casReply p e).1.state = some b' →
      eventLogOf b <+: eventLogOf b'
  | _ => True

/-! ## Invariant -/

structure CanonInv (s : Cluster) : Prop where
  bounded : ∀ n, ∀ e ∈ (s.nodes n).granted, e.1 ≤ s.keys.fence.getD 0
  unique : ∀ n k, ∀ e ∈ (s.nodes n).granted, e ∈ (s.nodes k).granted → n = k
  owned : ∀ n e, (s.nodes n).owned = some e → e ∈ (s.nodes n).granted
  snapshot : ∀ n p, (s.nodes n).persist = some p → p.snapshot ∈ (s.nodes n).granted
  cached : ∀ n e, s.Holds n e → ∀ m, (s.nodes n).machine = some m → s.ExtendsStored m
  stored : ∀ n e, s.Holds n e → ∀ p, (s.nodes n).persist = some p → p.snapshot = e →
    ∀ b, s.keys.state = some b → eventLogOf b <+: eventLogOf p.blob
  ahead : ∀ n e, s.Holds n e → ∀ p, (s.nodes n).persist = some p → p.snapshot = e →
    ∀ m, (s.nodes n).machine = some m → eventLogOf p.blob <+: m.eventLog

theorem init_node (creator : String) (m : Machine) (n : String) :
    (init creator m).nodes n = if n = creator then { Node.idle with machine := some m } else Node.idle := by
  simp [init, Function.update_apply]

theorem canonInv_init (creator : String) (m : Machine) : CanonInv (init creator m) := by
  have hgranted : ∀ n, ((init creator m).nodes n).granted = [] := by
    intro n
    rw [init_node]
    split_ifs <;> rfl
  have hempty : ∀ n e, e ∉ ((init creator m).nodes n).granted := by
    intro n e he
    rw [hgranted] at he
    cases he
  have howned : ∀ n, ((init creator m).nodes n).owned = none := by
    intro n
    rw [init_node]
    split_ifs <;> rfl
  have hpersist : ∀ n, ((init creator m).nodes n).persist = none := by
    intro n
    rw [init_node]
    split_ifs <;> rfl
  refine ⟨?_, ?_, ?_, ?_, ?_, ?_, ?_⟩
  · intro n e he
    exact absurd he (hempty n e)
  · intro n k e he
    exact absurd he (hempty n e)
  · intro n e he
    rw [howned] at he
    cases he
  · intro n p hp
    rw [hpersist] at hp
    cases hp
  · intro n e he
    exact absurd he.1 (hempty n e)
  · intro n e he
    exact absurd he.1 (hempty n e)
  · intro n e he
    exact absurd he.1 (hempty n e)

/-! ## Changes of the keys and of one node -/

/-- a fence above the counter was granted to nobody -/
theorem CanonInv.not_granted {s : Cluster} (h : CanonInv s) {n : String} {e : OwnedEntry}
    (he : e ∈ (s.nodes n).granted) (hlt : s.keys.fence.getD 0 < e.1) : False :=
  absurd (h.bounded n e he) (Nat.not_le.2 hlt)

/-- the keys change, the stored blob at most goes, and nobody gets the lease -/
theorem CanonInv.of_keys {s : Cluster} (h : CanonInv s) (k : Keys WireMatch)
    (hf : s.keys.fence.getD 0 ≤ k.fence.getD 0) (hs : ∀ b, k.state = some b → s.keys.state = some b)
    (ho : ∀ n e, Holds { s with keys := k } n e → s.Holds n e) : CanonInv { s with keys := k } where
  bounded := fun n e he => (h.bounded n e he).trans hf
  unique := h.unique
  owned := h.owned
  snapshot := h.snapshot
  cached := fun n e he m hm b hb => h.cached n e (ho n e he) m hm b (hs b hb)
  stored := fun n e he p hp hsnap b hb => h.stored n e (ho n e he) p hp hsnap b (hs b hb)
  ahead := fun n e he => h.ahead n e (ho n e he)

/-- one node changes, its grants apart; what has to hold of its machine and persist if it holds the lease -/
theorem CanonInv.setNode {s : Cluster} (h : CanonInv s) (n : String) (node : Node)
    (hg : node.granted = (s.nodes n).granted) (ho : ∀ e, node.owned = some e → e ∈ (s.nodes n).granted)
    (hsnap : ∀ p, node.persist = some p → p.snapshot ∈ (s.nodes n).granted)
    (hc : ∀ e, s.Holds n e → ∀ m, node.machine = some m → s.ExtendsStored m)
    (hs : ∀ e, s.Holds n e → ∀ p, node.persist = some p → p.snapshot = e →
      ∀ b, s.keys.state = some b → eventLogOf b <+: eventLogOf p.blob)
    (ha : ∀ e, s.Holds n e → ∀ p, node.persist = some p → p.snapshot = e →
      ∀ m, node.machine = some m → eventLogOf p.blob <+: m.eventLog) : CanonInv (s.setNode n node) := by
  have hgranted : ∀ k, ((s.setNode n node).nodes k).granted = (s.nodes k).granted := by
    intro k
    rw [setNode_nodes]
    split_ifs with hk
    · rw [hg, hk]
    · rfl
  have hholds : ∀ k e, (s.setNode n node).Holds k e → s.Holds k e := fun k e he => ⟨hgranted k ▸ he.1, he.2⟩
  refine ⟨?_, ?_, ?_, ?_, ?_, ?_, ?_⟩
  · intro k e he
    exact h.bounded k e (hgranted k ▸ he)
  · intro k j e hk hj
    exact h.unique k j e (hgranted k ▸ hk) (hgranted j ▸ hj)
  · intro k e he
    rw [hgranted]
    rw [setNode_nodes] at he
    split_ifs at he with hk
    · exact hk ▸ ho e he
    · exact h.owned k e he
  · intro k p hp
    rw [hgranted]
    rw [setNode_nodes] at hp
    split_ifs at hp with hk
    · exact hk ▸ hsnap p hp
    · exact h.snapshot k p hp
  · intro k e he m hm
    rw [setNode_nodes] at hm
    split_ifs at hm with hk
    · exact hc e (hk ▸ hholds k e he) m hm
    · exact h.cached k e (hholds k e he) m hm
  · intro k e he p hp
    rw [setNode_nodes] at hp
    split_ifs at hp with hk
    · exact hs e (hk ▸ hholds k e he) p hp
    · exact h.stored k e (hholds k e he) p hp
  · intro k e he p hp hsn m hm
    rw [setNode_nodes] at hp hm
    split_ifs at hp hm with hk
    · exact ha e (hk ▸ hholds k e he) p hp hsn m hm
    · exact h.ahead k e (hholds k e he) p hp hsn m hm

/-- a change of ownership entry, revision or hydrations only -/
theorem CanonInv.setNode_same {s : Cluster} (h : CanonInv s) (n : String) (node : Node)
    (hg : node.granted = (s.nodes n).granted) (ho : ∀ e, node.owned = some e → e ∈ (s.nodes n).granted)
    (hp : node.persist = (s.nodes n).persist) (hm : node.machine = (s.nodes n).machine) :
    CanonInv (s.setNode n node) := by
  refine h.setNode n node hg ho ?_ ?_ ?_ ?_
  · rw [hp]
    exact h.snapshot n
  · rw [hm]
    exact h.cached n
  · rw [hp]
    exact h.stored n
  · rw [hp, hm]
    exact h.ahead n

/-! ## One lemma per step -/

/-- the stored blob and its revision are kept or removed -/
theorem otherScript_stored {k : Keys WireMatch} {c : Call WireMatch} (hc : isOtherScript c = true) :
    ((k.step c).state = k.state ∨ (k.step c).state = none) ∧
      ((k.step c).revision = k.revision ∨ (k.step c).revision = none) := by
  cases c with
  | acquireMatchLease node => cases hc
  | fencedStateSet l f b e n => cases hc
  | renewLease e => exact ⟨.inl rfl, .inl rfl⟩
  | releaseLease e =>
    simp only [Keys.step, Keys.exec, Keys.releaseLease]
    split_ifs <;> exact ⟨.inl rfl, .inl rfl⟩
  | releaseLeaseAndIndex e =>
    simp only [Keys.step, Keys.exec, Keys.releaseLeaseAndIndex]
    split_ifs <;> exact ⟨.inl rfl, .inl rfl⟩
  | fencedStateDelete l f =>
    simp only [Keys.step, Keys.exec, Keys.fencedStateDelete]
    split_ifs
    · exact ⟨.inl rfl, .inl rfl⟩
    · exact ⟨.inl rfl, .inl rfl⟩
    · exact ⟨.inr rfl, .inr rfl⟩
  | finalizeMatchTombstone l f r =>
    simp only [Keys.step, Keys.exec, Keys.finalizeMatchTombstone]
    split_ifs <;> exact ⟨.inl rfl, .inl rfl⟩
  | requeueDeadLetter force =>
    simp only [Keys.step, Keys.exec, Keys.requeueDeadLetter]
    split
    · exact ⟨.inl rfl, .inl rfl⟩
    · split
      · exact ⟨.inl rfl, .inl rfl⟩
      · exact ⟨.inl rfl, .inl rfl⟩
      · exact ⟨.inl rfl, .inl rfl⟩
      · split_ifs
        · exact ⟨.inl rfl, .inl rfl⟩
        · exact ⟨.inl rfl, .inl rfl⟩
        · split <;> exact ⟨.inl rfl, .inl rfl⟩
        · exact ⟨.inl rfl, .inl rfl⟩
  | removeActiveIfStateAbsent =>
    simp only [Keys.step, Keys.exec, Keys.removeActiveIfStateAbsent]
    split_ifs <;> exact ⟨.inl rfl, .inl rfl⟩
  | removeActiveIfTombstoned =>
    simp only [Keys.step, Keys.exec, Keys.removeActiveIfTombstoned]
    split_ifs <;> exact ⟨.inl rfl, .inl rfl⟩
  | expire key =>
    cases key with
    | state => exact ⟨.inr rfl, .inl rfl⟩
    | revision => exact ⟨.inl rfl, .inr rfl⟩
    | _ => exact ⟨.inl rfl, .inl rfl⟩

theorem otherScript_state {k : Keys WireMatch} {c : Call WireMatch} (hc : isOtherScript c = true) :
    ∀ b, (k.step c).state = some b → k.state = some b := by
  intro b hb
  rcases (otherScript_stored (k := k) hc).1 with h | h
  · exact h.symm.trans hb
  · rw [h] at hb
    cases hb

/-- scripts and expiries of other callers -/
theorem redis_canonInv {s : Cluster} (h : CanonInv s) (c : Call WireMatch) : CanonInv (s.redis c) := by
  unfold redis
  split_ifs with hc
  · have hstate := otherScript_state (k := s.keys) hc
    have hch := Store.step_ownerChange ⟨s.keys, []⟩ c
    generalize hs' : Store.step ⟨s.keys, []⟩ c = s' at hch
    cases hch with
    | kept k ho hf =>
      obtain rfl : s.keys.step c = k := congrArg Store.keys hs'
      refine h.of_keys _ (by rw [hf]) hstate ?_
      intro n e he
      rcases ho with ho | ho
      · exact ⟨he.1, ho.symm.trans he.2.1, hf.symm.trans he.2.2⟩
      · have := he.2.1
        rw [ho] at this
        cases this
    | claimed k node f hn ho hf =>
      obtain rfl : s.keys.step c = k := congrArg Store.keys hs'
      refine h.of_keys _ (by rw [hf]; exact hn.le) hstate ?_
      intro n e he
      have hfe : f = e.1 := Option.some.inj (hf.symm.trans he.2.2)
      exact (h.not_granted he.1 (hfe ▸ hn)).elim
    | fencedOut k f hn ho hf =>
      obtain rfl : s.keys.step c = k := congrArg Store.keys hs'
      refine h.of_keys _ (by rw [hf]; exact hn.le) hstate ?_
      intro n e he
      have := he.2.1
      rw [ho] at this
      cases this
  · exact h

/-- the node gets a lease under a new fence -/
theorem grant_canonInv {s : Cluster} (h : CanonInv s) (n lease : String) (f : ℕ) (hlt : s.keys.fence.getD 0 < f)
    (hfresh : ∀ m, (s.nodes n).machine = some m → s.ExtendsStored m) :
    CanonInv (Cluster.setNode { s with keys := { s.keys with owner := some lease, fence := some f } } n
      { s.nodes n with granted := (s.nodes n).granted ++ [(f, lease)] }) := by
  set t := Cluster.setNode { s with keys := { s.keys with owner := some lease, fence := some f } } n
    { s.nodes n with granted := (s.nodes n).granted ++ [(f, lease)] } with ht
  have hmem : ∀ k e, e ∈ (t.nodes k).granted → e ∈ (s.nodes k).granted ∨ (k = n ∧ e = (f, lease)) := by
    intro k e he
    rw [ht, setNode_nodes] at he
    split_ifs at he with hk
    · rcases List.mem_append.1 he with he | he
      · exact .inl (hk ▸ he)
      · exact .inr ⟨hk, List.mem_singleton.1 he⟩
    · exact .inl he
  have hkept : ∀ k e, e ∈ (s.nodes k).granted → e ∈ (t.nodes k).granted := by
    intro k e he
    rw [ht, setNode_nodes]
    split_ifs with hk
    · exact List.mem_append_left _ (hk ▸ he)
    · exact he
  have hrest : ∀ k, (t.nodes k).machine = (s.nodes k).machine ∧ (t.nodes k).owned = (s.nodes k).owned ∧
      (t.nodes k).persist = (s.nodes k).persist := by
    intro k
    rw [ht, setNode_nodes]
    split_ifs with hk
    · rw [hk]
      exact ⟨rfl, rfl, rfl⟩
    · exact ⟨rfl, rfl, rfl⟩
  -- an older lease is not the current one
  have old : ∀ k e, e ∈ (s.nodes k).granted → ¬ t.Holds k e := by
    intro k e he hh
    have hfe : f = e.1 := Option.some.inj hh.2.2
    exact h.not_granted he (hfe ▸ hlt)
  refine ⟨?_, ?_, ?_, ?_, ?_, ?_, ?_⟩
  · intro k e he
    rcases hmem k e he with he | ⟨-, rfl⟩
    · exact (h.bounded k e he).trans hlt.le
    · exact le_rfl
  · intro k j e hek hej
    rcases hmem k e hek with hek | ⟨rfl, rfl⟩
    · rcases hmem j e hej with hej | ⟨-, rfl⟩
      · exact h.unique k j e hek hej
      · exact (h.not_granted hek hlt).elim
    · rcases hmem j _ hej with hej | ⟨rfl, -⟩
      · exact (h.not_granted hej hlt).elim
      · rfl
  · intro k e he
    rw [(hrest k).2.1] at he
    exact hkept k e (h.owned k e he)
  · intro k p hp
    rw [(hrest k).2.2] at hp
    exact hkept k _ (h.snapshot k p hp)
  · intro k e he m hm
    rw [(hrest k).1] at hm
    rcases hmem k e he.1 with hold | ⟨rfl, -⟩
    · exact absurd he (old k e hold)
    · exact hfresh m hm
  · intro k e he p hp hsnap
    rw [(hrest k).2.2] at hp
    exact absurd he (old k e (hsnap ▸ h.snapshot k p hp))
  · intro k e he p hp hsnap
    rw [(hrest k).2.2] at hp
    exact absurd he (old k e (hsnap ▸ h.snapshot k p hp))

theorem acquire_canonInv {s : Cluster} (h : CanonInv s) (n : String) (hfresh : s.FreshStep (.acquire n)) :
    CanonInv (s.acquire n) := by
  unfold acquire
  rcases s.keys.acquire_cases n with ⟨hk, hno⟩ | ⟨f, hlt, hk, hr⟩
  · simp only [hk]
    exact h
  · by_cases hsmall : f < 10 ^ 14
    · rw [if_pos hsmall] at hr
      simp only [hk, hr]
      exact grant_canonInv h n _ f hlt (hfresh f _ hr)
    · -- claimed, but the caller has no lease
      rw [if_neg hsmall] at hr
      simp only [hk, hr]
      refine h.of_keys _ hlt.le (fun _ hb => hb) ?_
      intro k e he
      have hfe : f = e.1 := Option.some.inj he.2.2
      exact (h.not_granted he.1 (hfe ▸ hlt)).elim

theorem readState_canonInv (J : StringOps) {s : Cluster} (h : CanonInv s) (n : String) : CanonInv (s.readState J n) := by
  unfold readState
  split_ifs
  · exact h
  · simp only
    split
    · exact h.setNode_same n _ rfl (h.owned n) rfl rfl
    · split
      · exact h.setNode_same n _ rfl (h.owned n) rfl rfl
      · exact h.setNode_same n _ rfl (h.owned n) rfl rfl

theorem install_canonInv {s : Cluster} (h : CanonInv s) (n : String) (i : ℕ) (key : Option String)
    (hfresh : s.FreshStep (.install n i key)) : CanonInv (s.install n i key) := by
  unfold install
  cases hi : (s.nodes n).hydrations[i]? with
  | none => exact h
  | some m =>
    refine h.setNode n _ rfl (h.owned n) (h.snapshot n) ?_ (h.stored n) ?_
    · intro e he m' hm' b hb
      obtain rfl := Option.some.inj hm'
      rw [rehydrated_eventLog]
      exact (hfresh e he m hi).1 b hb
    · intro e he p hp _ m' hm'
      obtain rfl := Option.some.inj hm'
      rw [rehydrated_eventLog]
      exact (hfresh e he m hi).2 p hp

theorem dropCorrupt_canonInv {s : Cluster} (h : CanonInv s) (n : String) : CanonInv (s.dropCorrupt n) := by
  unfold dropCorrupt
  split_ifs
  · exact h
  · have h1 := h.of_keys { s.keys with state := none } le_rfl (fun _ hb => nomatch hb) (fun _ _ he => he)
    exact h1.setNode_same n _ rfl (h.owned n) rfl rfl

theorem mutate_canonInv (J : StringOps) {s : Cluster} (h : CanonInv s) (n : String) (o : Op) :
    CanonInv (s.mutate J n o) := by
  unfold mutate
  cases hm : (s.nodes n).machine with
  | none => exact h
  | some m =>
    obtain ⟨es, hlog, -⟩ := Machine.change_appends (Machine.step_change J m o)
    have hgrow : m.eventLog <+: (m.step J o).eventLog := ⟨es, hlog.symm⟩
    refine h.setNode n _ rfl (h.owned n) (h.snapshot n) ?_ (h.stored n) ?_
    · intro e he m' hm' b hb
      obtain rfl := Option.some.inj hm'
      exact (h.cached n e he m hm b hb).trans hgrow
    · intro e he p hp hsnap m' hm'
      obtain rfl := Option.some.inj hm'
      exact (h.ahead n e he p hp hsnap m hm).trans hgrow

/-- the blob of a new persist is the cached machine's -/
theorem persistStateMachine_canonInv {s : Cluster} (h : CanonInv s) (n : String) :
    CanonInv (s.persistStateMachine n) := by
  unfold persistStateMachine
  split
  · rename_i m snapshot _ hm ho
    refine h.setNode n _ rfl (h.owned n) ?_ (h.cached n) ?_ ?_
    · intro p hp
      obtain rfl := Option.some.inj hp
      exact h.owned n snapshot ho
    · intro e he p hp _ b hb
      obtain rfl := Option.some.inj hp
      rw [eventLogOf_serialize]
      exact h.cached n e he m hm b hb
    · intro e _ p hp _ m' hm'
      obtain rfl := Option.some.inj hp
      obtain rfl : m = m' := Option.some.inj (hm.symm.trans hm')
      rw [eventLogOf_serialize]
  · exact h

theorem readPersistedRevision_canonInv {s : Cluster} (h : CanonInv s) (n : String) (failed : Bool) :
    CanonInv (s.readPersistedRevision n failed) := by
  unfold readPersistedRevision
  split
  · rename_i p hp
    split_ifs
    · exact h
    all_goals
      refine h.setNode n _ rfl (h.owned n) ?_ (h.cached n) ?_ ?_
      · intro p' hp'
        obtain rfl := Option.some.inj hp'
        exact h.snapshot n p hp
      · intro e he p' hp'
        obtain rfl := Option.some.inj hp'
        exact h.stored n e he p hp
      · intro e he p' hp'
        obtain rfl := Option.some.inj hp'
        exact h.ahead n e he p hp
  · exact h

/-- an APPLIED CAS comes from the holder, and its blob extends the stored log -/
theorem cas_extends {s : Cluster} (h : CanonInv s) {n : String} {p : Persist} {e : ℕ}
    (hp : (s.nodes n).persist = some p) (happ : (s.casReply p e).2 = true) :
    s.Holds n p.snapshot ∧ (s.casReply p e).1 = { s.keys with state := some p.blob, revision := some (e + 1) } ∧
      ∀ b, s.keys.state = some b → eventLogOf b <+: eventLogOf p.blob := by
  obtain ⟨ho, hf, -, -, hk⟩ := Keys.fencedStateSet_applied happ
  have hholds : s.Holds n p.snapshot := ⟨h.snapshot n p hp, ho, hf⟩
  exact ⟨hholds, hk, h.stored n p.snapshot hholds p hp rfl⟩

/-- the stored blob of the holder is its persist's -/
theorem applied_canonInv {s : Cluster} (h : CanonInv s) {n : String} {p : Persist} (revision : Option ℕ)
    (hp : (s.nodes n).persist = some p) (hholds : s.Holds n p.snapshot) :
    CanonInv { s with keys := { s.keys with state := some p.blob, revision := revision } } := by
  -- the current lease has one holder
  have holder : ∀ k e, s.Holds k e → k = n ∧ e = p.snapshot := by
    intro k e he
    have he1 : e.1 = p.snapshot.1 := Option.some.inj (he.2.2.symm.trans hholds.2.2)
    have he2 : e.2 = p.snapshot.2 := Option.some.inj (he.2.1.symm.trans hholds.2.1)
    have hee : e = p.snapshot := Prod.ext he1 he2
    exact ⟨h.unique k n e he.1 (hee ▸ hholds.1), hee⟩
  refine ⟨h.bounded, h.unique, h.owned, h.snapshot, ?_, ?_, h.ahead⟩
  · intro k e he m hm b hb
    obtain ⟨rfl, rfl⟩ := holder k e he
    obtain rfl : p.blob = b := Option.some.inj hb
    exact h.ahead k _ hholds p hp rfl m hm
  · intro k e he q hq _ b hb
    obtain ⟨rfl, rfl⟩ := holder k e he
    obtain rfl : p = q := Option.some.inj (hp.symm.trans hq)
    obtain rfl : p.blob = b := Option.some.inj hb
    exact List.prefix_refl _

theorem CanonInv.dropPersist {s : Cluster} (h : CanonInv s) (n : String) (revision : Option (ℕ × ℕ)) :
    CanonInv (s.setNode n { s.nodes n with persist := none, revision := revision }) := by
  refine h.setNode n _ rfl (h.owned n) ?_ (h.cached n) ?_ ?_
  · intro p hp
    cases hp
  · intro e _ p hp
    cases hp
  · intro e _ p hp
    cases hp

theorem fencedStateSet_canonInv {s : Cluster} (h : CanonInv s) (n : String) : CanonInv (s.fencedStateSet n) := by
  unfold fencedStateSet
  cases hp : (s.nodes n).persist with
  | none => exact h
  | some p =>
    simp only
    cases he : p.expectedRevision with
    | none => exact h
    | some e =>
      simp only
      cases happ : (s.casReply p e).2 with
      | false =>
        have hk : (s.casReply p e).1 = s.keys := Keys.fencedStateSet_retry happ
        rw [hk]
        exact h.dropPersist n _
      | true =>
        obtain ⟨hholds, hk, -⟩ := cas_extends h hp happ
        rw [hk]
        exact (applied_canonInv h (some (e + 1)) hp hholds).dropPersist n _

theorem step_canonInv (J : StringOps) (s : Cluster) (o : ClusterOp) (hfresh : s.FreshStep o) (h : CanonInv s) :
    CanonInv (s.step J o) := by
  cases o with
  | acquire n => exact acquire_canonInv h n hfresh
  | own n entry =>
    simp only [step, own]
    split_ifs with hg
    · refine h.setNode_same n _ rfl ?_ rfl rfl
      intro e he
      obtain rfl := Option.some.inj he
      exact hg
    · exact h
  | relinquish n => exact h.setNode_same n _ rfl (fun _ he => nomatch he) rfl rfl
  | redis c => exact redis_canonInv h c
  | getStateMachine n =>
    simp only [step, getStateMachine]
    split
    · exact h
    · exact h.setNode_same n _ rfl (h.owned n) rfl rfl
  | readState n => exact readState_canonInv J h n
  | install n i key => exact install_canonInv h n i key hfresh
  | dropCorrupt n => exact dropCorrupt_canonInv h n
  | evictStateMachine n =>
    refine h.setNode n _ rfl (h.owned n) (h.snapshot n) ?_ (h.stored n) ?_
    · intro e _ m hm
      cases hm
    · intro e _ p _ _ m hm
      cases hm
  | mutate n o => exact mutate_canonInv J h n o
  | persistStateMachine n => exact persistStateMachine_canonInv h n
  | readPersistedRevision n failed => exact readPersistedRevision_canonInv h n failed
  | fencedStateSet n => exact fencedStateSet_canonInv h n

/-! ## Runs -/

theorem canonInv_applied {s : Cluster} (h : CanonInv s) (o : ClusterOp) : s.AppliedExtends o := by
  cases o with
  | fencedStateSet n =>
    intro p e hp _ happ b b' hb hb'
    obtain ⟨-, hk, hext⟩ := cas_extends h hp happ
    rw [hk] at hb'
    obtain rfl : p.blob = b' := Option.some.inj hb'
    exact hext b hb
  | _ => trivial

/-- **The canonical log never regresses** in a run whose steps are all fresh: every APPLIED write of any node extends
the event log that was stored before it. -/
theorem canonical_log_extends (J : StringOps) (creator : String) (m : Machine) (ops : List ClusterOp)
    (hfresh : Along (step J) FreshStep (init creator m) ops) :
    Along (step J) AppliedExtends (init creator m) ops :=
  along_of_inv (step J) FreshStep AppliedExtends CanonInv (step_canonInv J)
    (fun _ o _ h => canonInv_applied h o) (init creator m) ops hfresh (canonInv_init creator m)

/-- a match of one player -/
def soloMatch : Machine := Machine.create "m1" "r1" [freshPlayer "alice"]

/-- the steps of one persist -/
def persistSteps (n : String) : List ClusterOp :=
  [.persistStateMachine n, .readPersistedRevision n false, .fencedStateSet n]

/-- node a launches the match and persists its countdown -/
theorem canonical_log_extends_launch :
    let ops : List ClusterOp := [.acquire "a", .own "a" (1, "a:1"),
      .mutate "a" (.transition .countdown fun _ => 5)] ++ persistSteps "a"
    ((run (step StringOps.ascii) (init "a" soloMatch) ops).keys.state.map eventLogOf).map List.length = some 1 ∧
      Along (step StringOps.ascii) AppliedExtends (init "a" soloMatch) ops := by
  intro ops
  refine ⟨by decide +kernel, canonical_log_extends StringOps.ascii "a" soloMatch ops ?_⟩
  refine ⟨?_, trivial, trivial, trivial, trivial, trivial, trivial⟩
  intro f l _ m hm b hb
  obtain rfl : soloMatch = m := Option.some.inj hm
  obtain rfl : soloMatch.serialize = b := Option.some.inj hb
  rw [eventLogOf_serialize]

/-- node a launches and loses its lease; node b takes over and persists; node a gets the lease again with its old machine -/
def staleRun : List ClusterOp :=
  [.acquire "a", .own "a" (1, "a:1"), .redis (.expire .owner), .relinquish "a",
    .acquire "b", .own "b" (2, "b:2"), .getStateMachine "b", .readState "b", .install "b" 0 none,
    .mutate "b" (.transition .countdown fun _ => 5)] ++ persistSteps "b" ++
  [.redis (.expire .owner), .relinquish "b", .acquire "a", .own "a" (3, "a:3"), .getStateMachine "a",
    .mutate "a" (.disconnectPlayer "alice" fun _ => 9), .persistStateMachine "a", .readPersistedRevision "a" false]

/-- the CAS of node a is APPLIED and the stored countdown is gone -/
theorem stale_cache_regresses :
    let s := run (step StringOps.ascii) (init "a" soloMatch) staleRun
    ((s.nodes "a").persist.bind fun p => p.expectedRevision.map fun e => (s.casReply p e).2) = some true ∧
      s.keys.state.map eventLogOf = some [⟨.stateTransition .created .countdown, 5, 1⟩] ∧
      (s.step StringOps.ascii (.fencedStateSet "a")).keys.state.map eventLogOf =
        some [⟨.playerDisconnected "alice", 9, 1⟩] := by
  decide +kernel

end Cluster

end Arena.Api
