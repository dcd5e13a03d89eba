/-
Can the owner of a match always persist?

A node reads the stored revision only when its cached one belongs to another fence; the cached one moves when a CAS is
answered APPLIED, and at no other time.

- `FreshInv`: under the current lease a cached revision is the stored one;
- `StaleInv`: once it is behind, it stays behind: every later CAS of the owner expects the old revision;
- `owner_persists_iff`: a later persist is APPLIED exactly when no reply of an APPLIED CAS was lost while the cached
  revision belonged to the current fence;
- `lost_reply_strands_owner`: one lost reply, and the owner's next persist is refused.
-/
import Arena.Api.LossyCluster

namespace Arena.Api

open Arena.Lib Arena.Shared Arena.GameCore Arena.Redis

namespace Cluster

/-! ## Statement -/

/-- the reply of the CAS of a persist whose revision is known -/
def casOutcome (s : Cluster) (n : String) : Option Bool :=
  (s.nodes n).persist.bind fun p => p.expectedRevision.map fun e => (s.casReply p e).2

/-- the state in which `n` has just been granted the lease `entry` -/
def JustGranted (J : StringOps) (creator : String) (m : Machine) (n : String) (entry : OwnedEntry) (s : Cluster) : Prop :=
  ∃ before : List LossyOp,
    ((run (lossyStep J) (init creator m) before).keys.acquireMatchLease n).2 = .acquired entry.1 entry.2 ∧
      s = (run (lossyStep J) (init creator m) before).acquire n

/-- the lease stays the current one, and a revision key that is there is not removed -/
def KeepsLease (J : StringOps) (entry : OwnedEntry) (s : Cluster) (o : LossyOp) : Prop :=
  (lossyStep J s o).keys.owner = some entry.2 ∧ (lossyStep J s o).keys.fence = some entry.1 ∧
    (s.keys.revision ≠ none → (lossyStep J s o).keys.revision ≠ none)

/-- not a step of a persist of `n` -/
def Elsewhere (n : String) : LossyOp → Prop
  | .op (.persistStateMachine k) => k ≠ n
  | .op (.readPersistedRevision k _) => k ≠ n
  | .op (.fencedStateSet k) => k ≠ n
  | .loseReply k => k ≠ n
  | .failCall k => k ≠ n
  | _ => True

/-- a persist of `n` up to its CAS, its read answered, with anything else between its calls -/
def persistCalls (n : String) (beforeRead beforeCas : List LossyOp) : List LossyOp :=
  .op (.persistStateMachine n) :: beforeRead ++ .op (.readPersistedRevision n false) :: beforeCas

/-- no reply of an APPLIED CAS of `n` is lost while its cached revision belongs to the fence -/
def ReplyKept (n : String) (fence : ℕ) (s : Cluster) : LossyOp → Prop
  | .loseReply k => k = n → s.casOutcome n = some true → ∀ c ∈ (s.nodes n).revision, c.1 ≠ fence
  | _ => True

instance (J : StringOps) (entry : OwnedEntry) (s : Cluster) (o : LossyOp) : Decidable (KeepsLease J entry s o) :=
  inferInstanceAs (Decidable (_ ∧ _ ∧ (_ → _)))

instance (n : String) (fence : ℕ) (s : Cluster) : (o : LossyOp) → Decidable (ReplyKept n fence s o)
  | .loseReply k => inferInstanceAs (Decidable (k = n → s.casOutcome n = some true →
      ∀ c ∈ (s.nodes n).revision, c.1 ≠ fence))
  | .op _ => .isTrue trivial
  | .failCall _ => .isTrue trivial

/-! ## What a step does to the owner's persist -/

/-- the stored revision, and the cached revision and persist of `n` -/
def SamePersist (n : String) (s s' : Cluster) : Prop :=
  s'.keys.revision = s.keys.revision ∧ (s'.nodes n).revision = (s.nodes n).revision ∧
    (s'.nodes n).persist = (s.nodes n).persist

/-- what a step makes of them under the lease `entry` -/
inductive OwnerMove (n : String) (entry : OwnedEntry) (s : Cluster) (o : LossyOp) (s' : Cluster) : Prop where
  | same (h : SamePersist n s s')
  | started (p : Persist) (hr : s'.keys.revision = s.keys.revision)
      (hc : (s'.nodes n).revision = (s.nodes n).revision) (hp : (s'.nodes n).persist = some p)
      (hb : ∀ r, p.snapshot = entry → (s.nodes n).revision = some (entry.1, r) → p.expectedRevision = some r)
  | read (p : Persist) (e : ℕ) (hp : (s.nodes n).persist = some p) (hn : p.expectedRevision = none)
      (hr : s'.keys.revision = s.keys.revision) (hc : (s'.nodes n).revision = (s.nodes n).revision)
      (hp' : (s'.nodes n).persist = some { p with expectedRevision := some e })
  | ended (hr : s'.keys.revision = s.keys.revision) (hc : (s'.nodes n).revision = (s.nodes n).revision)
      (hp : (s'.nodes n).persist = none)
  /-- the CAS was APPLIED; the cached revision follows, or the reply was lost -/
  | applied (p : Persist) (e : ℕ) (hp : (s.nodes n).persist = some p) (he : p.expectedRevision = some e)
      (hs : p.snapshot = entry) (hr : s.keys.revision.getD 0 = e) (hr' : s'.keys.revision = some (e + 1))
      (hc : (s'.nodes n).revision = some (entry.1, e + 1) ∨
        ((s'.nodes n).revision = (s.nodes n).revision ∧ o = .loseReply n ∧ s.casOutcome n = some true))
      (hp' : (s'.nodes n).persist = none)

theorem casOutcome_eq {s : Cluster} {n : String} {p : Persist} {e : ℕ} (hp : (s.nodes n).persist = some p)
    (he : p.expectedRevision = some e) : s.casOutcome n = some (s.casReply p e).2 := by
  simp [casOutcome, hp, he]

/-- a CAS is refused and changes no key, or is APPLIED with the current lease -/
theorem cas_cases (s : Cluster) (entry : OwnedEntry) (p : Persist) (e : ℕ) (ho : s.keys.owner = some entry.2)
    (hf : s.keys.fence = some entry.1) :
    ((s.casReply p e).2 = false ∧ (s.casReply p e).1 = s.keys) ∨
      ((s.casReply p e).2 = true ∧ p.snapshot = entry ∧ s.keys.revision.getD 0 = e ∧
        (s.casReply p e).1.revision = some (e + 1)) := by
  cases happ : (s.casReply p e).2 with
  | false => exact .inl ⟨rfl, Keys.fencedStateSet_retry happ⟩
  | true =>
    obtain ⟨ho', hf', hr, -, hk⟩ := Keys.fencedStateSet_applied happ
    have h1 : p.snapshot.1 = entry.1 := Option.some.inj (hf'.symm.trans hf)
    have h2 : p.snapshot.2 = entry.2 := Option.some.inj (ho'.symm.trans ho)
    exact .inr ⟨rfl, Prod.ext h1 h2, hr, congrArg Keys.revision hk⟩

/-- a CAS of another node is refused: it does not have the current lease -/
theorem GrantInv.cas_other {s : Cluster} (h : GrantInv s) {n k : String} {entry : OwnedEntry} (hh : s.Holds n entry)
    (hk : k ≠ n) {p : Persist} (hp : (s.nodes k).persist = some p) (e : ℕ) : (s.casReply p e).1 = s.keys := by
  rcases cas_cases s entry p e hh.2.1 hh.2.2 with ⟨-, hkeys⟩ | ⟨-, hs, -⟩
  · exact hkeys
  · exact absurd (h.unique k n p.snapshot (h.snapshot k p hp) (hs ▸ hh.1)) hk

theorem redis_revision {s : Cluster} {c : Call WireMatch}
    (hkept : s.keys.revision ≠ none → (s.redis c).keys.revision ≠ none) :
    (s.redis c).keys.revision = s.keys.revision := by
  unfold redis at hkept ⊢
  split_ifs at hkept ⊢ with hc
  · rcases (otherScript_stored (k := s.keys) hc).2 with h | h
    · exact h
    · by_contra hne
      exact hkept (fun hnone => hne (h.trans hnone.symm)) h
  · rfl

theorem SamePersist.refl (n : String) (s : Cluster) : SamePersist n s s := ⟨rfl, rfl, rfl⟩

/-- a step that sets another node, or only the leases and the ownership entry of this one -/
theorem SamePersist.setNode {s t : Cluster} {n k : String} {node : Node}
    (hr : t.keys.revision = s.keys.revision) (ht : t.nodes = s.nodes)
    (hk : k = n → node.revision = (s.nodes n).revision ∧ node.persist = (s.nodes n).persist) :
    SamePersist n s (t.setNode k node) := by
  refine ⟨hr, ?_, ?_⟩ <;> rw [setNode_nodes, ht] <;> split_ifs with hn
  · exact (hk hn.symm).1
  · rfl
  · exact (hk hn.symm).2
  · rfl

theorem acquire_samePersist (n k : String) (s : Cluster) : SamePersist n s (s.acquire k) := by
  unfold acquire
  rcases s.keys.acquire_cases k with ⟨hk, hno⟩ | ⟨f, hlt, hk, hr⟩
  · simp only [hk]
    exact .refl n s
  · simp only [hk, hr]
    split_ifs
    · exact .setNode rfl rfl fun hn => hn ▸ ⟨rfl, rfl⟩
    · exact ⟨rfl, rfl, rfl⟩

/-- the CAS of another node, answered or not -/
theorem cas_samePersist {s : Cluster} (h : GrantInv s) {n k : String} {entry : OwnedEntry} (hh : s.Holds n entry)
    (hk : k ≠ n) : SamePersist n s (s.fencedStateSet k) ∧ SamePersist n s (s.loseReply k) := by
  unfold fencedStateSet loseReply
  cases hp : (s.nodes k).persist with
  | none => exact ⟨.refl n s, .refl n s⟩
  | some p =>
    cases he : p.expectedRevision with
    | none =>
      simp only [he]
      exact ⟨.refl n s, .refl n s⟩
    | some e =>
      simp only [he]
      have hr : ({ s with keys := (s.casReply p e).1 } : Cluster).keys.revision = s.keys.revision :=
        congrArg Keys.revision (h.cas_other hh hk hp e)
      exact ⟨.setNode hr rfl fun hn => absurd hn hk, .setNode hr rfl fun hn => absurd hn hk⟩

/-- **Nothing but the owner's persist touches the revisions.** -/
theorem elsewhere_samePersist (J : StringOps) {s : Cluster} (h : GrantInv s) {n : String} {entry : OwnedEntry}
    (hh : s.Holds n entry) (o : LossyOp) (hk : KeepsLease J entry s o) (hq : Elsewhere n o) :
    SamePersist n s (lossyStep J s o) := by
  cases o with
  | failCall k => exact .setNode rfl rfl fun hn => absurd hn hq
  | loseReply k => exact (cas_samePersist h hh hq).2
  | op o =>
    by_cases ho : OnMachine o
    · obtain ⟨-, hr, hl⟩ := machineStep J s o ho
      have hn := hl n
      simp only [ledger, Prod.mk.injEq] at hn
      exact ⟨hr, hn.2.2⟩
    cases o with
    | acquire k => exact acquire_samePersist n k s
    | own k e =>
      simp only [lossyStep, step, own]
      split_ifs
      · exact .setNode rfl rfl fun hn => hn ▸ ⟨rfl, rfl⟩
      · exact .refl n s
    | relinquish k => exact .setNode rfl rfl fun hn => hn ▸ ⟨rfl, rfl⟩
    | redis c =>
      refine ⟨redis_revision hk.2.2, ?_, ?_⟩ <;> simp only [lossyStep, step, redis] <;> split_ifs <;> rfl
    | persistStateMachine k =>
      simp only [lossyStep, step, persistStateMachine]
      split
      · exact .setNode rfl rfl fun hn => absurd hn hq
      · exact .refl n s
    | readPersistedRevision k failed =>
      simp only [lossyStep, step, readPersistedRevision]
      repeat' split
      all_goals first | exact .refl n s | exact .setNode rfl rfl fun hn => absurd hn hq
    | fencedStateSet k => exact (cas_samePersist h hh hq).1
    | _ => exact absurd trivial ho

/-! ## The owner's own steps -/

theorem persist_ownerMove (n : String) (entry : OwnedEntry) (s : Cluster) (o : LossyOp) :
    OwnerMove n entry s o (s.persistStateMachine n) := by
  unfold persistStateMachine
  split
  · rename_i m snapshot hi hm ho
    refine .started _ rfl ?_ (by rw [setNode_nodes, if_pos rfl]) ?_
    · simp [setNode_nodes]
    · intro r hs hr
      obtain rfl : snapshot = entry := hs
      simp [hr]
  · exact .same (.refl n s)

theorem read_ownerMove (n : String) (entry : OwnedEntry) (s : Cluster) (o : LossyOp) (failed : Bool) :
    OwnerMove n entry s o (s.readPersistedRevision n failed) := by
  unfold readPersistedRevision
  split
  · rename_i p hp
    cases he : p.expectedRevision with
    | some e => exact .same (.refl n s)
    | none =>
      simp only [Option.isSome_none, Bool.false_eq_true, if_false]
      refine .read p (if failed then 0 else s.keys.revision.getD 0) hp he rfl ?_ ?_ <;> simp [setNode_nodes]
  · exact .same (.refl n s)

/-- the CAS, answered or with its reply lost -/
theorem cas_ownerMove {s : Cluster} {n : String} {entry : OwnedEntry} (hh : s.Holds n entry) (o : LossyOp) :
    OwnerMove n entry s o (s.fencedStateSet n) ∧
      (o = .loseReply n → OwnerMove n entry s o (s.loseReply n)) := by
  unfold fencedStateSet loseReply
  cases hp : (s.nodes n).persist with
  | none => exact ⟨.same (.refl n s), fun _ => .same (.refl n s)⟩
  | some p =>
    cases he : p.expectedRevision with
    | none =>
      simp only [he]
      exact ⟨.same (.refl n s), fun _ => .same (.refl n s)⟩
    | some e =>
      simp only [he]
      rcases cas_cases s entry p e hh.2.1 hh.2.2 with ⟨happ, hkeys⟩ | ⟨happ, hs, hr, hr'⟩
      · simp only [happ, hkeys]
        refine ⟨.ended rfl ?_ ?_, fun _ => .ended rfl ?_ ?_⟩ <;> simp [setNode_nodes]
      · have hout := casOutcome_eq hp he
        rw [happ] at hout
        simp only [happ]
        refine ⟨.applied p e hp he hs hr hr' (.inl ?_) ?_,
          fun ho => .applied p e hp he hs hr hr' (.inr ⟨?_, ho, hout⟩) ?_⟩
        all_goals simp [setNode_nodes, hs]

theorem step_ownerMove (J : StringOps) {s : Cluster} (h : GrantInv s) {n : String} {entry : OwnedEntry}
    (hh : s.Holds n entry) (o : LossyOp) (hk : KeepsLease J entry s o) : OwnerMove n entry s o (lossyStep J s o) := by
  by_cases hq : Elsewhere n o
  · exact .same (elsewhere_samePersist J h hh o hk hq)
  cases o with
  | failCall k =>
    obtain rfl : k = n := not_not.1 hq
    refine .ended rfl ?_ ?_ <;> simp [lossyStep, failCall, setNode_nodes]
  | loseReply k =>
    obtain rfl : k = n := not_not.1 hq
    exact (cas_ownerMove hh _).2 rfl
  | op o =>
    cases o with
    | persistStateMachine k =>
      obtain rfl : k = n := not_not.1 hq
      exact persist_ownerMove k entry s _
    | readPersistedRevision k failed =>
      obtain rfl : k = n := not_not.1 hq
      exact read_ownerMove k entry s _ failed
    | fencedStateSet k =>
      obtain rfl : k = n := not_not.1 hq
      exact (cas_ownerMove hh _).1
    | _ => exact absurd trivial hq

/-! ## Cached and stored revision -/

/-- under the current lease a cached revision is the stored one -/
structure FreshInv (n : String) (entry : OwnedEntry) (s : Cluster) : Prop where
  grants : GrantInv s
  holds : s.Holds n entry
  cached : ∀ r, (s.nodes n).revision = some (entry.1, r) → r = s.keys.revision.getD 0

/-- the cached revision is behind, and so is a persist that took it -/
structure StaleInv (n : String) (entry : OwnedEntry) (s : Cluster) : Prop where
  grants : GrantInv s
  holds : s.Holds n entry
  behind : ∃ r, (s.nodes n).revision = some (entry.1, r) ∧ r < s.keys.revision.getD 0 ∧
    ∀ p ∈ (s.nodes n).persist, p.snapshot = entry → p.expectedRevision = some r

theorem step_holds (J : StringOps) {s : Cluster} {n : String} {entry : OwnedEntry} (hh : s.Holds n entry) (o : LossyOp)
    (hk : KeepsLease J entry s o) : (lossyStep J s o).Holds n entry := ⟨step_granted J hh.1 o, hk.1, hk.2.1⟩

/-- **A step that loses no reply keeps the cached revision fresh.** -/
theorem step_fresh (J : StringOps) {n : String} {entry : OwnedEntry} (s : Cluster) (o : LossyOp)
    (hk : KeepsLease J entry s o) (hg : ReplyKept n entry.1 s o) (h : FreshInv n entry s) :
    FreshInv n entry (lossyStep J s o) := by
  refine ⟨step_grantInv J h.grants o, step_holds J h.holds o hk, fun r hr => ?_⟩
  have hmove := step_ownerMove J h.grants h.holds o hk
  generalize lossyStep J s o = s' at hmove hr
  cases hmove with
  | same hs =>
    rw [hs.1]
    exact h.cached r (hs.2.1 ▸ hr)
  | started p hrev hc =>
    rw [hrev]
    exact h.cached r (hc ▸ hr)
  | read p e hp hn hrev hc =>
    rw [hrev]
    exact h.cached r (hc ▸ hr)
  | ended hrev hc =>
    rw [hrev]
    exact h.cached r (hc ▸ hr)
  | applied p e hp he hs hrev hrev' hc =>
    rcases hc with hc | ⟨hc, ho, hout⟩
    · rw [hc] at hr
      obtain ⟨-, rfl⟩ := Prod.mk.inj (Option.some.inj hr)
      rw [hrev']
      rfl
    · -- the reply was lost, so the cached revision belongs to another fence
      rw [ho] at hg
      exact absurd rfl (hg rfl hout (entry.1, r) (hc ▸ hr))

/-- **A lost reply leaves the cached revision behind.** -/
theorem lost_stale (J : StringOps) {n : String} {entry : OwnedEntry} (s : Cluster) (o : LossyOp)
    (hk : KeepsLease J entry s o) (hg : ¬ReplyKept n entry.1 s o) (h : FreshInv n entry s) :
    StaleInv n entry (lossyStep J s o) := by
  refine ⟨step_grantInv J h.grants o, step_holds J h.holds o hk, ?_⟩
  cases o with
  | op o => exact absurd trivial hg
  | failCall k => exact absurd trivial hg
  | loseReply k =>
    simp only [ReplyKept] at hg
    push Not at hg
    obtain ⟨rfl, hout, ⟨fence, r⟩, hc, rfl⟩ := hg
    obtain ⟨p, hp, hout⟩ := Option.bind_eq_some_iff.1 hout
    obtain ⟨e, he, happ⟩ := Option.map_eq_some_iff.1 hout
    have hr : r = s.keys.revision.getD 0 := h.cached r hc
    rcases cas_cases s entry p e h.holds.2.1 h.holds.2.2 with ⟨hno, -⟩ | ⟨-, -, hrev, hrev'⟩
    · rw [happ] at hno
      cases hno
    · refine ⟨r, ?_, ?_, ?_⟩
      · simp only [lossyStep, loseReply, hp, he, setNode_nodes, if_true]
        exact hc
      · simp only [lossyStep, loseReply, hp, he, setNode, hrev', Option.getD_some]
        omega
      · simp [lossyStep, loseReply, hp, he, setNode_nodes]

/-- **A cached revision that is behind stays behind.** -/
theorem step_stale (J : StringOps) {n : String} {entry : OwnedEntry} (s : Cluster) (o : LossyOp)
    (hk : KeepsLease J entry s o) (h : StaleInv n entry s) : StaleInv n entry (lossyStep J s o) := by
  refine ⟨step_grantInv J h.grants o, step_holds J h.holds o hk, ?_⟩
  obtain ⟨r, hcache, hlt, hflight⟩ := h.behind
  have hmove := step_ownerMove J h.grants h.holds o hk
  generalize lossyStep J s o = s' at hmove
  cases hmove with
  | same hs => exact ⟨r, hs.2.1.trans hcache, by rw [hs.1]; exact hlt, by rw [hs.2.2]; exact hflight⟩
  | started p hrev hc hp hb =>
    refine ⟨r, hc.trans hcache, by rw [hrev]; exact hlt, ?_⟩
    intro q hq hsnap
    obtain rfl : p = q := Option.some.inj (hp.symm.trans hq)
    exact hb r hsnap hcache
  | read p e hp hn hrev hc hp' =>
    refine ⟨r, hc.trans hcache, by rw [hrev]; exact hlt, ?_⟩
    intro q hq hsnap
    obtain rfl := Option.some.inj (hp'.symm.trans hq)
    -- a persist of the lease took the cached revision and reads nothing
    have := hflight p hp hsnap
    rw [hn] at this
    cases this
  | ended hrev hc hp =>
    refine ⟨r, hc.trans hcache, by rw [hrev]; exact hlt, ?_⟩
    intro q hq
    rw [hp] at hq
    cases hq
  | applied p e hp he hs hrev =>
    -- it expected the cached revision, which is not the stored one
    have hre : some e = some r := he.symm.trans (hflight p hp hs)
    have : e = r := Option.some.inj hre
    omega

theorem stale_refused {n : String} {entry : OwnedEntry} {s : Cluster} (h : StaleInv n entry s) :
    s.casOutcome n ≠ some true := by
  intro hout
  obtain ⟨p, hp, hout⟩ := Option.bind_eq_some_iff.1 hout
  obtain ⟨e, he, happ⟩ := Option.map_eq_some_iff.1 hout
  obtain ⟨r, -, hlt, hflight⟩ := h.behind
  rcases cas_cases s entry p e h.holds.2.1 h.holds.2.2 with ⟨hno, -⟩ | ⟨-, hs, hrev, -⟩
  · rw [happ] at hno
    cases hno
  · have : e = r := Option.some.inj (he.symm.trans (hflight p hp hs))
    omega

/-! ## One persist whose calls succeed -/

/-- a CAS with the current lease and the stored revision is APPLIED -/
theorem casReply_applied {s : Cluster} {n : String} {p : Persist} {e : ℕ} (hh : s.Holds n p.snapshot)
    (he : s.keys.revision.getD 0 = e) : (s.casReply p e).2 = true := by
  have hrev : s.keys.revisionIs e = true := by
    unfold Keys.revisionIs
    cases hr : s.keys.revision with
    | none => simpa [hr] using he.symm
    | some r => simpa [hr] using he
  simp [casReply, Keys.fencedStateSet, hh.2.1, hh.2.2, hrev]

/-- what else happens between two calls of a persist does not touch it -/
theorem run_elsewhere (J : StringOps) {s : Cluster} {n : String} {entry : OwnedEntry} (ops : List LossyOp)
    (hg : GrantInv s) (hh : s.Holds n entry) (hk : Along (lossyStep J) (KeepsLease J entry) s ops)
    (hq : ∀ o ∈ ops, Elsewhere n o) :
    GrantInv (run (lossyStep J) s ops) ∧ (run (lossyStep J) s ops).Holds n entry ∧
      SamePersist n s (run (lossyStep J) s ops) := by
  have hboth := along_and (lossyStep J) _ _ s ops hk ((along_const (lossyStep J) (Elsewhere n) s ops).2 hq)
  refine run_inv (lossyStep J) _ (fun t => GrantInv t ∧ t.Holds n entry ∧ SamePersist n s t) ?_ s ops hboth
    ⟨hg, hh, .refl n s⟩
  rintro t o ⟨hk, hq⟩ ⟨hg, hh, hs⟩
  obtain ⟨h1, h2, h3⟩ := elsewhere_samePersist J hg hh o hk hq
  exact ⟨step_grantInv J hg o, step_holds J hh o hk, h1.trans hs.1, h2.trans hs.2.1, h3.trans hs.2.2⟩

/-- without a cached machine there is nothing to persist -/
theorem persistStateMachine_uncached {s : Cluster} {n : String} (hm : (s.nodes n).machine = none) :
    s.persistStateMachine n = s := by
  unfold persistStateMachine
  split
  · rename_i m _ _ hm' _
    rw [hm] at hm'
    cases hm'
  · rfl

/-- the persist of an owner whose cached revision is fresh -/
theorem persistStateMachine_started {s : Cluster} {n : String} {entry : OwnedEntry} {m : Machine}
    (hi : (s.nodes n).persist = none) (hm : (s.nodes n).machine = some m) (ho : (s.nodes n).owned = some entry)
    (hc : ∀ r, (s.nodes n).revision = some (entry.1, r) → r = s.keys.revision.getD 0) :
    ∃ p, ((s.persistStateMachine n).nodes n).persist = some p ∧ p.snapshot = entry ∧
      (s.persistStateMachine n).keys = s.keys ∧ ∀ e ∈ p.expectedRevision, e = s.keys.revision.getD 0 := by
  simp only [persistStateMachine, hi, hm, ho]
  refine ⟨_, by rw [setNode_nodes, if_pos rfl], rfl, rfl, ?_⟩
  intro e he
  cases hr : (s.nodes n).revision with
  | none => simp [hr] at he
  | some c =>
    simp only [hr] at he
    split_ifs at he with hf
    · apply hc
      rw [hr, ← hf, ← Option.some.inj he]
    · cases he

/-- an answered read completes the persist with the stored revision -/
theorem readPersistedRevision_answered {s : Cluster} {n : String} {p : Persist} (hp : (s.nodes n).persist = some p)
    (he : ∀ e ∈ p.expectedRevision, e = s.keys.revision.getD 0) :
    ∃ q, ((s.readPersistedRevision n false).nodes n).persist = some q ∧ q.snapshot = p.snapshot ∧
      (s.readPersistedRevision n false).keys = s.keys ∧ q.expectedRevision = some (s.keys.revision.getD 0) := by
  simp only [readPersistedRevision, hp]
  cases hr : p.expectedRevision with
  | some e =>
    refine ⟨p, hp, rfl, rfl, ?_⟩
    rw [hr, he e hr]
  | none =>
    simp only [Option.isSome_none, Bool.false_eq_true, if_false]
    exact ⟨{ p with expectedRevision := some (s.keys.revision.getD 0) }, by rw [setNode_nodes, if_pos rfl], rfl, rfl, rfl⟩

/-! ## Runs of an owner -/

theorem justGranted_fresh {J : StringOps} {creator : String} {m : Machine} {n : String} {entry : OwnedEntry}
    {s : Cluster} (h : JustGranted J creator m n entry s) : FreshInv n entry s := by
  obtain ⟨before, hacq, rfl⟩ := h
  have hgrants : GrantInv (run (lossyStep J) (init creator m) before) :=
    run_inv (lossyStep J) (fun _ _ => True) GrantInv (fun s o _ h => step_grantInv J h o) _ before
      ((along_const _ _ _ _).2 fun _ _ => trivial) (grantInv_init creator m)
  generalize run (lossyStep J) (init creator m) before = s at hacq hgrants ⊢
  rcases s.keys.acquire_cases n with ⟨-, hno⟩ | ⟨f, hlt, hk, hr⟩
  · exact absurd hacq (hno _ _)
  · obtain ⟨hsmall, hlease⟩ := Keys.acquired_small hacq
    rw [hr] at hacq
    split_ifs at hacq
    obtain ⟨rfl, -⟩ := AcquireReply.acquired.inj hacq
    have hstate : s.acquire n = Cluster.setNode
        { s with keys := { s.keys with owner := some (leaseValue n entry.1), fence := some entry.1 } } n
        { s.nodes n with granted := (s.nodes n).granted ++ [(entry.1, leaseValue n entry.1)] } := by
      unfold acquire
      simp only [hk, hr, if_pos hsmall]
    have hentry : entry = (entry.1, leaseValue n entry.1) := Prod.ext rfl hlease
    refine ⟨acquire_grantInv hgrants n, ⟨?_, ?_, ?_⟩, ?_⟩
    · rw [hstate, setNode_nodes, if_pos rfl, hentry]
      exact List.mem_append_right _ (List.mem_singleton.2 rfl)
    · rw [hstate, hlease]
      rfl
    · rw [hstate]
      rfl
    · -- a cached revision belongs to an older fence
      intro r hrev
      rw [hstate, setNode_nodes, if_pos rfl] at hrev
      have := hgrants.revision n _ hrev
      exact absurd hlt (Nat.not_lt.2 this)

/-- a persist of a fresh owner whose calls all succeed is APPLIED, if there is a machine to persist -/
theorem fresh_persists (J : StringOps) {s : Cluster} {n : String} {entry : OwnedEntry} (h : FreshInv n entry s)
    (hi : (s.nodes n).persist = none) (ho : (s.nodes n).owned = some entry) (a b : List LossyOp)
    (hk : Along (lossyStep J) (KeepsLease J entry) s (persistCalls n a b)) (ha : ∀ o ∈ a, Elsewhere n o)
    (hb : ∀ o ∈ b, Elsewhere n o) :
    (run (lossyStep J) s (persistCalls n a b)).casOutcome n = some true ↔ (s.nodes n).machine.isSome := by
  obtain ⟨hk1, hrest⟩ := hk
  obtain ⟨hka, hk2, hkb⟩ := (along_append _ _ _ a _).1 hrest
  have hg1 := step_grantInv J h.grants (.op (.persistStateMachine n))
  have hh1 := step_holds J h.holds _ hk1
  have hrun : run (lossyStep J) s (persistCalls n a b) = run (lossyStep J) (lossyStep J
      (run (lossyStep J) (lossyStep J s (.op (.persistStateMachine n))) a) (.op (.readPersistedRevision n false))) b := by
    rw [persistCalls, List.cons_append, run_cons, run_append, run_cons]
  rw [hrun]
  obtain ⟨hg2, hh2, hsame2⟩ := run_elsewhere J a hg1 hh1 hka ha
  set s2 := run (lossyStep J) (lossyStep J s (.op (.persistStateMachine n))) a with hs2
  have hg3 := step_grantInv J hg2 (.op (.readPersistedRevision n false))
  have hh3 := step_holds J hh2 _ hk2
  obtain ⟨hg4, hh4, hsame4⟩ := run_elsewhere J b hg3 hh3 hkb hb
  set s4 := run (lossyStep J) (lossyStep J s2 (.op (.readPersistedRevision n false))) b with hs4
  cases hm : (s.nodes n).machine with
  | none =>
    -- nothing in flight: the call answers BLIND
    have h1 : lossyStep J s (.op (.persistStateMachine n)) = s := persistStateMachine_uncached hm
    rw [h1] at hsame2
    have h2 : (s2.nodes n).persist = none := hsame2.2.2.trans hi
    have h3 : s2.readPersistedRevision n false = s2 := by simp [readPersistedRevision, h2]
    have h4 : (s4.nodes n).persist = none := hsame4.2.2.trans ((congrArg (fun t => (t.nodes n).persist) h3).trans h2)
    simp [casOutcome, h4]
  | some m =>
    obtain ⟨p, hp1, hsnap, hkeys1, he1⟩ := persistStateMachine_started hi hm ho h.cached
    have hrev2 : s2.keys.revision = s.keys.revision := hsame2.1.trans (congrArg Keys.revision hkeys1)
    have hp2 : (s2.nodes n).persist = some p := hsame2.2.2.trans hp1
    obtain ⟨q, hq3, hsnap', hkeys3, he3⟩ := readPersistedRevision_answered hp2 (hrev2 ▸ he1)
    have hrev4 : s4.keys.revision = s2.keys.revision := hsame4.1.trans (congrArg Keys.revision hkeys3)
    have hq4 : (s4.nodes n).persist = some q := hsame4.2.2.trans hq3
    have hentry : q.snapshot = entry := hsnap'.trans hsnap
    have happ : (s4.casReply q (s2.keys.revision.getD 0)).2 = true :=
      casReply_applied (hentry ▸ hh4) (congrArg (Option.getD · 0) hrev4)
    simp [casOutcome_eq hq4 he3, happ]

/-- **When an owner can persist.** Take any run of the cluster up to a granted lease, and any run after it in which the
lease stays the current one and the revision key, once there, is not removed; calls fail and replies are lost at will. A
persist of the owner whose own calls all succeed is APPLIED exactly when a machine is cached and no earlier persist lost
the reply of an APPLIED CAS while the cached revision belonged to the current fence. -/
theorem owner_persists_iff (J : StringOps) (creator : String) (m : Machine) (n : String) (entry : OwnedEntry)
    (s : Cluster) (hs : JustGranted J creator m n entry s) (ops a b : List LossyOp)
    (hk : Along (lossyStep J) (KeepsLease J entry) s (ops ++ persistCalls n a b))
    (ha : ∀ o ∈ a, Elsewhere n o) (hb : ∀ o ∈ b, Elsewhere n o)
    (hi : ((run (lossyStep J) s ops).nodes n).persist = none)
    (ho : ((run (lossyStep J) s ops).nodes n).owned = some entry) :
    (run (lossyStep J) s (ops ++ persistCalls n a b)).casOutcome n = some true ↔
      ((run (lossyStep J) s ops).nodes n).machine.isSome ∧ Along (lossyStep J) (ReplyKept n entry.1) s ops := by
  obtain ⟨hk1, hk2⟩ := (along_append _ _ _ ops _).1 hk
  rw [run_append]
  rcases run_split (lossyStep J) (KeepsLease J entry) (ReplyKept n entry.1) (FreshInv n entry) (StaleInv n entry)
    (step_fresh J) (lost_stale J) (step_stale J) s ops hk1 (justGranted_fresh hs) with ⟨hall, hf⟩ | ⟨hnot, hst⟩
  · rw [fresh_persists J hf hi ho a b hk2 ha hb]
    exact ⟨fun hm => ⟨hm, hall⟩, fun h => h.1⟩
  · have hend := run_inv (lossyStep J) (KeepsLease J entry) (StaleInv n entry) (step_stale J) _ _ hk2 hst
    exact ⟨fun hout => absurd hout (stale_refused hend), fun h => absurd h.2 hnot⟩

/-- node a after its launch was granted the first lease -/
def launched : Cluster := (init "a" soloMatch).acquire "a"

theorem launched_justGranted : JustGranted StringOps.ascii "a" soloMatch "a" (1, "a:1") launched :=
  ⟨[], by decide +kernel, rfl⟩

/-- the first persist loses its reply: no revision is cached yet, and the next persist reads it -/
theorem owner_persists_iff_first_lost :
    (run (lossyStep StringOps.ascii) launched ([.op (.own "a" (1, "a:1")), .op (.persistStateMachine "a"),
      .op (.readPersistedRevision "a" false), .loseReply "a"] ++ persistCalls "a" [] [])).casOutcome "a" = some true := by
  refine (owner_persists_iff StringOps.ascii "a" soloMatch "a" (1, "a:1") launched launched_justGranted _ [] []
    (by decide +kernel) (fun o ho => by cases ho) (fun o ho => by cases ho) (by decide +kernel) (by decide +kernel)).2 ?_
  exact ⟨by decide +kernel, by decide +kernel⟩

/-- a persist is APPLIED, and the next one is APPLIED and loses its reply -/
def secondLost : List LossyOp :=
  [.op (.own "a" (1, "a:1")), .op (.persistStateMachine "a"), .op (.readPersistedRevision "a" false),
    .op (.fencedStateSet "a"), .op (.persistStateMachine "a"), .loseReply "a"]

/-- **One lost reply strands the owner.** Node a holds the lease throughout and the revision key stays; its third persist,
all of whose calls succeed, is refused. -/
theorem lost_reply_strands_owner :
    JustGranted StringOps.ascii "a" soloMatch "a" (1, "a:1") launched ∧
      Along (lossyStep StringOps.ascii) (KeepsLease StringOps.ascii (1, "a:1")) launched
        (secondLost ++ persistCalls "a" [] []) ∧
      ((run (lossyStep StringOps.ascii) launched secondLost).nodes "a").persist.isNone ∧
      ((run (lossyStep StringOps.ascii) launched secondLost).nodes "a").owned = some (1, "a:1") ∧
      ((run (lossyStep StringOps.ascii) launched secondLost).nodes "a").machine.isSome ∧
      (run (lossyStep StringOps.ascii) launched (secondLost ++ persistCalls "a" [] [])).casOutcome "a" = some false := by
  refine ⟨launched_justGranted, by decide +kernel, by decide +kernel, by decide +kernel, by decide +kernel, ?_⟩
  decide +kernel

end Cluster

end Arena.Api
