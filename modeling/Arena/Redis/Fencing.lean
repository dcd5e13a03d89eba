/-
Fencing safety of the lease and CAS scripts.

Any number of nodes run the scripts in any order, with any arguments, and keys expire at any time. `issued` is a ghost
list of the leases the acquire script has stored: node and fence, oldest first. One inversion lemma (`step_ownerChange`)
says what any call does to owner, fence and issued leases; the invariant follows from it.

- `FenceInv`: a present owner is the last lease issued, printed with the fence counter, and fences increase;
- `fenced_effect`: a fenced write takes effect only for the owner with the largest fence ever issued;
- `dead_lease_silent`: a lease that is not the current one changes no key, whichever call carries it;
- `applied_twice_removed`: two APPLIED writes with one expected revision have a removal of the revision key between them;
- `fencing_safety`: all of it, in every reachable state.
-/
import Arena.Redis.Lease
import Arena.Lib.Run

namespace Arena.Redis

open Arena.Lib

variable {β : Type}

/-! ## Runs with the issued leases -/

/-- the keys with every lease issued so far -/
structure Store (β : Type) where
  keys : Keys β
  issued : List (String × ℕ)

namespace Store

def init : Store β := ⟨Keys.empty, []⟩

/-- the lease a call issues: the acquire script has moved the fence -/
def issuedBy (k : Keys β) (c : Call β) : List (String × ℕ) :=
  match c with
  | .acquireMatchLease nodeId =>
    if (k.step c).fence ≠ k.fence then [(nodeId, (k.step c).fence.getD 0)] else []
  | _ => []

def step (s : Store β) (c : Call β) : Store β := ⟨s.keys.step c, s.issued ++ issuedBy s.keys c⟩

/-! ## What a call does to the owner -/

/-- the ways a call moves owner, fence and issued leases -/
inductive OwnerChange (s : Store β) : Store β → Prop where
  | kept (k : Keys β) (ho : k.owner = s.keys.owner ∨ k.owner = none) (hf : k.fence = s.keys.fence) :
      OwnerChange s ⟨k, s.issued⟩
  | claimed (k : Keys β) (node : String) (f : ℕ) (hn : s.keys.fence.getD 0 < f)
      (ho : k.owner = some (leaseValue node f)) (hf : k.fence = some f) : OwnerChange s ⟨k, s.issued ++ [(node, f)]⟩
  | fencedOut (k : Keys β) (f : ℕ) (hn : s.keys.fence.getD 0 < f) (ho : k.owner = none) (hf : k.fence = some f) :
      OwnerChange s ⟨k, s.issued⟩

theorem acquire_ownerChange (s : Store β) (node : String) : OwnerChange s (s.step (.acquireMatchLease node)) := by
  rcases s.keys.acquire_cases node with ⟨hk, -⟩ | ⟨f, hlt, hk, -⟩
  · have hstep : s.step (.acquireMatchLease node) = ⟨s.keys, s.issued⟩ := by
      simp [step, issuedBy, Keys.step, Keys.exec, hk]
    rw [hstep]
    exact .kept s.keys (.inl rfl) rfl
  · have hk' : s.keys.step (.acquireMatchLease node) =
        { s.keys with owner := some (leaseValue node f), fence := some f } := hk
    have hne : some f ≠ s.keys.fence := by
      intro he
      rw [← he] at hlt
      exact absurd hlt (Nat.lt_irrefl f)
    have hissued : issuedBy s.keys (.acquireMatchLease node) = [(node, f)] := by
      simp [issuedBy, hk', hne]
    rw [step, hissued, hk']
    exact .claimed _ node f hlt rfl rfl

theorem requeue_ownerChange (s : Store β) (force : Bool) : OwnerChange s (s.step (.requeueDeadLetter force)) := by
  have hstep : s.step (.requeueDeadLetter force) = ⟨(s.keys.requeueDeadLetter force).1, s.issued⟩ := by
    simp [step, issuedBy, Keys.step, Keys.exec]
  rw [hstep]
  have same : OwnerChange s ⟨s.keys, s.issued⟩ := .kept s.keys (.inl rfl) rfl
  unfold Keys.requeueDeadLetter
  split
  · exact same
  · split
    · exact same
    · exact same
    · exact same
    · split_ifs
      · exact same
      · exact same
      · -- a live owner fenced out by force
        split
        · exact .kept _ (.inr rfl) rfl
        · rename_i f hf
          exact .fencedOut _ f (lt_incr hf) rfl rfl
      · exact .kept _ (.inl rfl) rfl

/-- **Every call makes one of the three changes.** -/
theorem step_ownerChange (s : Store β) (c : Call β) : OwnerChange s (s.step c) := by
  have quiet : ∀ k : Keys β, k.owner = s.keys.owner ∨ k.owner = none → k.fence = s.keys.fence →
      OwnerChange s ⟨k, s.issued ++ []⟩ := by
    intro k ho hf
    rw [List.append_nil]
    exact .kept k ho hf
  cases c with
  | acquireMatchLease node => exact acquire_ownerChange s node
  | requeueDeadLetter force => exact requeue_ownerChange s force
  | renewLease e => exact quiet _ (.inl rfl) rfl
  | releaseLease e =>
    refine quiet _ ?_ ?_ <;> simp only [Keys.step, Keys.exec, Keys.releaseLease] <;> split_ifs <;> simp
  | releaseLeaseAndIndex e =>
    refine quiet _ ?_ ?_ <;> simp only [Keys.step, Keys.exec, Keys.releaseLeaseAndIndex] <;> split_ifs <;> simp
  | fencedStateSet l f b e n =>
    refine quiet _ (.inl ?_) ?_ <;> simp only [Keys.step, Keys.exec, Keys.fencedStateSet] <;> split_ifs <;> rfl
  | fencedStateDelete l f =>
    refine quiet _ (.inl ?_) ?_ <;> simp only [Keys.step, Keys.exec, Keys.fencedStateDelete] <;> split_ifs <;> rfl
  | finalizeMatchTombstone l f r =>
    refine quiet _ (.inl ?_) ?_ <;> simp only [Keys.step, Keys.exec, Keys.finalizeMatchTombstone] <;> split_ifs <;> rfl
  | removeActiveIfStateAbsent =>
    refine quiet _ (.inl ?_) ?_ <;> simp only [Keys.step, Keys.exec, Keys.removeActiveIfStateAbsent] <;> split_ifs <;> rfl
  | removeActiveIfTombstoned =>
    refine quiet _ (.inl ?_) ?_ <;> simp only [Keys.step, Keys.exec, Keys.removeActiveIfTombstoned] <;> split_ifs <;> rfl
  | expire key =>
    cases key with
    | owner => exact quiet _ (.inr rfl) rfl
    | state => exact quiet _ (.inl rfl) rfl
    | revision => exact quiet _ (.inl rfl) rfl
    | tombstone => exact quiet _ (.inl rfl) rfl

/-! ## The invariant -/

structure FenceInv (s : Store β) : Prop where
  owner : ∀ o, s.keys.owner = some o → ∃ node f, s.keys.fence = some f ∧ o = leaseValue node f ∧
    s.issued.getLast? = some (node, f)
  bounded : ∀ g ∈ s.issued, g.2 ≤ s.keys.fence.getD 0
  increasing : (s.issued.map Prod.snd).Pairwise (· < ·)

theorem fenceInv_init : FenceInv (init : Store β) where
  owner := by
    intro o ho
    cases ho
  bounded := by
    intro g hg
    cases hg
  increasing := List.Pairwise.nil

theorem change_fenceInv {s s' : Store β} (hc : OwnerChange s s') (h : FenceInv s) : FenceInv s' := by
  cases hc with
  | kept k ho hf =>
    refine ⟨?_, ?_, h.increasing⟩
    · intro o hko
      rcases ho with ho | ho
      · obtain ⟨node, f, h1, h2, h3⟩ := h.owner o (ho ▸ hko)
        exact ⟨node, f, hf.trans h1, h2, h3⟩
      · rw [ho] at hko
        cases hko
    · intro g hg
      rw [hf]
      exact h.bounded g hg
  | claimed k node f hn ho hf =>
    refine ⟨?_, ?_, ?_⟩
    · intro o hko
      rw [ho] at hko
      exact ⟨node, f, hf, (Option.some.inj hko).symm, by simp⟩
    · intro g hg
      rw [hf, Option.getD_some]
      rcases List.mem_append.1 hg with hg | hg
      · exact (h.bounded g hg).trans hn.le
      · rw [List.mem_singleton.1 hg]
    · -- every earlier fence is at most the old counter
      rw [List.map_append, List.pairwise_append]
      refine ⟨h.increasing, List.pairwise_singleton _ _, ?_⟩
      intro a ha b hb
      obtain ⟨g, hg, rfl⟩ := List.mem_map.1 ha
      rw [List.map_singleton, List.mem_singleton] at hb
      rw [hb]
      exact lt_of_le_of_lt (h.bounded g hg) hn
  | fencedOut k f hn ho hf =>
    refine ⟨?_, ?_, h.increasing⟩
    · intro o hko
      rw [ho] at hko
      cases hko
    · intro g hg
      rw [hf, Option.getD_some]
      exact (h.bounded g hg).trans hn.le

theorem run_fenceInv (calls : List (Call β)) : FenceInv (run step (init : Store β) calls) :=
  run_inv step (fun _ _ => True) FenceInv (fun s c _ h => change_fenceInv (step_ownerChange s c) h) init calls
    ((along_const _ _ _ _).2 fun _ _ => trivial) fenceInv_init

/-! ## Fenced writes -/

end Store

/-- the lease and the fence a fenced write is called with -/
def Call.token : Call β → Option (String × ℕ)
  | .fencedStateSet l f _ _ _ => some (l, f)
  | .fencedStateDelete l f => some (l, f)
  | .finalizeMatchTombstone l f _ => some (l, f)
  | _ => none

/-- the call is made by the holder of a lease -/
def Call.carries (lease : String) (fence : ℕ) : Call β → Prop
  | .renewLease e => e = lease
  | .releaseLease e => e = lease
  | .releaseLeaseAndIndex e => e = lease
  | .fencedStateSet l f _ _ _ => l = lease ∧ f = fence
  | .fencedStateDelete l f => l = lease ∧ f = fence
  | .finalizeMatchTombstone l f _ => l = lease ∧ f = fence
  | _ => False

/-- the call succeeds or changes a key -/
def Keys.TakesEffect (k : Keys β) (c : Call β) : Prop := (k.exec c).2 = .done true ∨ k.step c ≠ k

/-- a fenced write takes effect only for the stored owner and fence -/
theorem Keys.token_current {k : Keys β} {c : Call β} {lease : String} {f : ℕ} (ht : c.token = some (lease, f))
    (he : k.TakesEffect c) : k.owner = some lease ∧ k.fence = some f := by
  cases c with
  | fencedStateSet l g b e n =>
    obtain ⟨rfl, rfl⟩ := Prod.mk.inj (Option.some.inj ht)
    cases hd : (k.fencedStateSet l g b e n).2 with
    | true =>
      obtain ⟨ho, hf, -⟩ := fencedStateSet_applied hd
      exact ⟨ho, hf⟩
    | false =>
      rcases he with he | he
      · simp [exec, hd] at he
      · exact absurd (fencedStateSet_retry hd) he
  | fencedStateDelete l g =>
    obtain ⟨rfl, rfl⟩ := Prod.mk.inj (Option.some.inj ht)
    cases hd : (k.fencedStateDelete l g).2 with
    | true => exact fencedStateDelete_done hd
    | false =>
      rcases he with he | he
      · simp [exec, hd] at he
      · exact absurd (fencedStateDelete_rejected hd) he
  | finalizeMatchTombstone l g r =>
    obtain ⟨rfl, rfl⟩ := Prod.mk.inj (Option.some.inj ht)
    cases hd : (k.finalizeMatchTombstone l g r).2 with
    | true => exact finalize_done hd
    | false =>
      rcases he with he | he
      · simp [exec, hd] at he
      · exact absurd (finalize_stale hd) he
  | _ => cases ht

namespace Store

/-- a fenced write takes effect only with the largest fence ever issued -/
theorem fenced_effect {s : Store β} (h : FenceInv s) {c : Call β} {lease : String} {f : ℕ}
    (ht : c.token = some (lease, f)) (he : s.keys.TakesEffect c) :
    s.keys.owner = some lease ∧ s.keys.fence = some f ∧ f ∈ s.issued.map Prod.snd ∧ ∀ g ∈ s.issued, g.2 ≤ f := by
  obtain ⟨ho, hf⟩ := Keys.token_current ht he
  obtain ⟨node, f', hf', -, hlast⟩ := h.owner lease ho
  obtain rfl : f = f' := Option.some.inj (hf.symm.trans hf')
  refine ⟨ho, hf, List.mem_map.2 ⟨(node, f), List.mem_of_getLast? hlast, rfl⟩, ?_⟩
  intro g hg
  have hle := h.bounded g hg
  rwa [hf, Option.getD_some] at hle

/-! ## Dead leases -/

/-- the text of a granted lease names its fence -/
theorem lease_names_fence {s : Store β} (h : FenceInv s) {node lease : String} {f : ℕ} (hf : f < 10 ^ 14)
    (hl : lease = leaseValue node f) (ho : s.keys.owner = some lease) : s.keys.fence = some f := by
  obtain ⟨node', f', hfence, htext, -⟩ := h.owner lease ho
  rw [hl] at htext
  obtain ⟨-, hprint⟩ := joinColon_inj (luaTostring_no_colon f) (luaTostring_no_colon f') htext
  rw [hfence, luaTostring_eq_small hf hprint.symm]

/-- a call with a lease that is not the current one changes no key -/
theorem dead_lease_silent {s : Store β} (h : FenceInv s) {node lease : String} {f : ℕ} (hf : f < 10 ^ 14)
    (hl : lease = leaseValue node f) (hdead : ¬ (s.keys.owner = some lease ∧ s.keys.fence = some f)) {c : Call β}
    (hc : c.carries lease f) : s.keys.step c = s.keys := by
  have hnot : s.keys.owner ≠ some lease := fun ho => hdead ⟨ho, lease_names_fence h hf hl ho⟩
  have fenced : c.token = some (lease, f) → s.keys.step c = s.keys := by
    intro ht
    by_contra hne
    exact hdead (Keys.token_current ht (.inr hne))
  cases c with
  | renewLease e => rfl
  | releaseLease e =>
    obtain rfl : e = lease := hc
    simp [Keys.step, Keys.exec, Keys.releaseLease, hnot]
  | releaseLeaseAndIndex e =>
    obtain rfl : e = lease := hc
    simp [Keys.step, Keys.exec, Keys.releaseLeaseAndIndex, hnot]
  | fencedStateSet l g b e n =>
    obtain ⟨rfl, rfl⟩ := hc
    exact fenced rfl
  | fencedStateDelete l g =>
    obtain ⟨rfl, rfl⟩ := hc
    exact fenced rfl
  | finalizeMatchTombstone l g r =>
    obtain ⟨rfl, rfl⟩ := hc
    exact fenced rfl
  | _ => exact False.elim hc

end Store

/-! ## Revisions -/

/-- the call takes the revision key away -/
def Keys.RemovesRevision (k : Keys β) (c : Call β) : Prop := k.revision ≠ none ∧ (k.step c).revision = none

/-- a stored revision is kept or moved on, unless it is removed -/
theorem Keys.step_revision {k : Keys β} {c : Call β} {r : ℕ} (hr : k.revision = some r)
    (hn : ¬ k.RemovesRevision c) : ∃ r', r ≤ r' ∧ (k.step c).revision = some r' := by
  have kept : (k.step c).revision = k.revision → ∃ r', r ≤ r' ∧ (k.step c).revision = some r' := by
    intro h
    exact ⟨r, Nat.le_refl r, h.trans hr⟩
  have gone : (k.step c).revision = none → ∃ r', r ≤ r' ∧ (k.step c).revision = some r' := by
    intro h
    exact absurd ⟨by rw [hr]; exact Option.some_ne_none r, h⟩ hn
  cases c with
  | acquireMatchLease node =>
    apply kept
    simp only [step, exec, acquireMatchLease]
    split_ifs
    · rfl
    · rfl
    · split <;> rfl
  | requeueDeadLetter force =>
    apply kept
    simp only [step, exec, requeueDeadLetter]
    split
    · rfl
    · split
      · rfl
      · rfl
      · rfl
      · split_ifs
        · rfl
        · rfl
        · split <;> rfl
        · rfl
  | renewLease e => exact kept rfl
  | releaseLease e =>
    apply kept
    simp only [step, exec, releaseLease]
    split_ifs <;> rfl
  | releaseLeaseAndIndex e =>
    apply kept
    simp only [step, exec, releaseLeaseAndIndex]
    split_ifs <;> rfl
  | fencedStateSet l f b e n =>
    cases hd : (k.fencedStateSet l f b e n).2 with
    | false => exact kept (congrArg Keys.revision (fencedStateSet_retry hd))
    | true =>
      obtain ⟨-, -, hrev, -, hk⟩ := fencedStateSet_applied hd
      rw [hr, Option.getD_some] at hrev
      refine ⟨e + 1, by omega, ?_⟩
      exact congrArg Keys.revision hk
  | fencedStateDelete l f =>
    simp only [step, exec, fencedStateDelete] at kept gone ⊢
    split_ifs at kept gone ⊢
    · exact kept rfl
    · exact kept rfl
    · exact gone rfl
  | finalizeMatchTombstone l f rs =>
    apply kept
    simp only [step, exec, finalizeMatchTombstone]
    split_ifs <;> rfl
  | removeActiveIfStateAbsent =>
    apply kept
    simp only [step, exec, removeActiveIfStateAbsent]
    split_ifs <;> rfl
  | removeActiveIfTombstoned =>
    apply kept
    simp only [step, exec, removeActiveIfTombstoned]
    split_ifs <;> rfl
  | expire key =>
    cases key with
    | revision => exact gone rfl
    | _ => exact kept rfl

theorem Keys.run_revision (mid : List (Call β)) : ∀ {k : Keys β} {r : ℕ}, k.revision = some r →
    (∃ pre c post, mid = pre ++ c :: post ∧ (run step k pre).RemovesRevision c) ∨
      ∃ r', r ≤ r' ∧ (run step k mid).revision = some r' := by
  induction mid with
  | nil =>
    intro k r hr
    exact .inr ⟨r, Nat.le_refl r, hr⟩
  | cons c mid ih =>
    intro k r hr
    by_cases hn : k.RemovesRevision c
    · exact .inl ⟨[], c, mid, rfl, hn⟩
    · obtain ⟨r', hle, hr'⟩ := step_revision hr hn
      rcases ih hr' with ⟨pre, d, post, rfl, hrem⟩ | ⟨r'', hle', hr''⟩
      · exact .inl ⟨c :: pre, d, post, rfl, hrem⟩
      · exact .inr ⟨r'', hle.trans hle', hr''⟩

/-- two APPLIED writes with the same expected revision have a removal of the revision key between them -/
theorem Keys.applied_twice_removed {k : Keys β} {l l' : String} {f f' e n n' : ℕ} {b b' : β} {mid : List (Call β)}
    (h : (k.fencedStateSet l f b e n).2 = true)
    (h' : ((run step (k.fencedStateSet l f b e n).1 mid).fencedStateSet l' f' b' e n').2 = true) :
    ∃ pre c post, mid = pre ++ c :: post ∧ (run step (k.fencedStateSet l f b e n).1 pre).RemovesRevision c := by
  obtain ⟨-, -, -, -, hk⟩ := fencedStateSet_applied h
  have hrev : (k.fencedStateSet l f b e n).1.revision = some (e + 1) := congrArg Keys.revision hk
  rcases run_revision mid hrev with hrem | ⟨r, hle, hr⟩
  · exact hrem
  · exfalso
    obtain ⟨-, -, hexp, -⟩ := fencedStateSet_applied h'
    rw [hr, Option.getD_some] at hexp
    omega

/-! ## Fencing safety -/

namespace Store

/-- **Fencing safety.** After any calls and expiries: a present owner is `<node>:<fence counter>`; no fence is issued
twice; a fenced write takes effect only for the current owner, with the largest fence ever issued; a granted lease that
is not the current one any more changes no key; and an APPLIED write moves the revision on by exactly one, so that two of
them with the same expected revision need a removal of the revision key in between. -/
theorem fencing_safety (calls : List (Call β)) :
    let s := run step (init : Store β) calls
    (∀ o, s.keys.owner = some o → ∃ node f, s.keys.fence = some f ∧ o = joinColon node (luaTostring f) ∧
        (f < 10 ^ 14 → o = joinColon node (decimal f))) ∧
      (s.issued.map Prod.snd).Pairwise (· < ·) ∧
      (∀ c lease f, Call.token c = some (lease, f) → s.keys.TakesEffect c →
        s.keys.owner = some lease ∧ s.keys.fence = some f ∧ f ∈ s.issued.map Prod.snd ∧ ∀ g ∈ s.issued, g.2 ≤ f) ∧
      (∀ node f lease, (s.keys.acquireMatchLease node).2 = .acquired f lease → ∀ post,
        let t := run step (s.step (.acquireMatchLease node)) post
        ¬ (t.keys.owner = some lease ∧ t.keys.fence = some f) → ∀ c, Call.carries lease f c → t.keys.step c = t.keys) ∧
      (∀ lease f blob e n, (s.keys.fencedStateSet lease f blob e n).2 = true →
        s.keys.revision.getD 0 = e ∧
          (s.keys.fencedStateSet lease f blob e n).1 = { s.keys with state := some blob, revision := some (e + 1) }) ∧
      ∀ l f b e n, (s.keys.fencedStateSet l f b e n).2 = true → ∀ mid l' f' b' n',
        ((run Keys.step (s.keys.fencedStateSet l f b e n).1 mid).fencedStateSet l' f' b' e n').2 = true →
        ∃ pre c post, mid = pre ++ c :: post ∧
          (run Keys.step (s.keys.fencedStateSet l f b e n).1 pre).RemovesRevision c := by
  intro s
  have h : FenceInv s := run_fenceInv calls
  refine ⟨?_, h.increasing, ?_, ?_, ?_, ?_⟩
  · intro o ho
    obtain ⟨node, f, hf, htext, -⟩ := h.owner o ho
    refine ⟨node, f, hf, htext, ?_⟩
    intro hlt
    rw [htext, leaseValue, luaTostring, if_pos hlt]
  · intro c lease f ht he
    exact fenced_effect h ht he
  · intro node f lease hgrant post t hdead c hc
    obtain ⟨hlt, hl⟩ := Keys.acquired_small hgrant
    have hrun : t = run step init (calls ++ .acquireMatchLease node :: post) := by
      rw [run_append]
      rfl
    have ht : FenceInv t := by
      rw [hrun]
      exact run_fenceInv _
    exact dead_lease_silent ht hlt hl hdead hc
  · intro lease f blob e n happ
    obtain ⟨-, -, hrev, -, hk⟩ := Keys.fencedStateSet_applied happ
    exact ⟨hrev, hk⟩
  · intro l f b e n h1 mid l' f' b' n' h2
    exact Keys.applied_twice_removed h1 h2

/-- node a is granted fence 1, loses its lease to node b, and writes late -/
theorem fencing_safety_late_write :
    let calls : List (Call ℕ) := [.acquireMatchLease "a", .expire .owner, .acquireMatchLease "b"]
    let t := run step (init : Store ℕ) calls
    t.keys.owner = some "b:2" ∧ t.keys.step (.fencedStateSet "a:1" 1 7 0 1) = t.keys := by
  intro calls t
  refine ⟨by decide +kernel, ?_⟩
  exact (fencing_safety ([] : List (Call ℕ))).2.2.2.1 "a" 1 "a:1" (by decide +kernel)
    [.expire .owner, .acquireMatchLease "b"] (by decide +kernel) (.fencedStateSet "a:1" 1 7 0 1) ⟨rfl, rfl⟩

end Store

end Arena.Redis
