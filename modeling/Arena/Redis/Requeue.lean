/-
Requeue of a dead-lettered match (`requeueDeadLetter`), from any content that calls and expiries leave and with any
tombstone in it.

- `requeue_cases`: what the script does, by its gates;
- `beyond_step`: after a requeue every later owner has a fence beyond the leases issued before it;
- `requeue_fenced`: so none of those passes a fenced write again;
- `requeue_exact_iff`: the script is exact and atomic unless a live owner is to be fenced out at the last fence that a
  counter holds, where `INCR` fails after the owner was deleted;
- `own_tombstone_room`: a tombstone that a finalization wrote leaves room for the next fence.
-/
import Arena.Redis.Fencing
import Arena.Redis.Tombstone

namespace Arena.Redis

open Arena.Lib

variable {β : Type}

/-! ## The gates -/

/-- a well-formed tombstone of reason dead-letter -/
def DeadLettered (tombstone : Option String) : Prop :=
  ∃ t ∈ tombstone, ∃ n : ℕ, parseTombstone (utf16 t) = some (.deadLetter, (n : ℚ))

theorem deadLettered_iff (tombstone : Option String) :
    DeadLettered tombstone ↔ ∃ t, tombstone = some t ∧ Keys.tombstoneReason t = some .deadLetter := by
  refine exists_congr fun t => and_congr Option.mem_def ?_
  exact (tombstoneReason_parse t .deadLetter).symm

namespace Keys

/-- the mutation has a live owner to fence out -/
structure FencesOut (k : Keys β) (force : Bool) : Prop where
  deadLettered : DeadLettered k.tombstone
  state : k.state.isSome
  live : k.ownerLive = true
  forced : force = true

/-- the mutation, without the fencing out -/
def requeued (k : Keys β) : Keys β := { k with tombstone := none, active := true, deadLetter := false }

/-- **The script, by its gates.** -/
theorem requeue_cases (k : Keys β) (force : Bool) :
    (¬(DeadLettered k.tombstone ∧ k.state.isSome ∧ (k.ownerLive = false ∨ force = true)) ∧
      (k.requeueDeadLetter force).1 = k ∧ (k.requeueDeadLetter force).2 ≠ .requeued) ∨
    (DeadLettered k.tombstone ∧ k.state.isSome ∧ k.ownerLive = false ∧
      k.requeueDeadLetter force = (k.requeued, .requeued)) ∨
    (k.FencesOut force ∧ ∃ f, incr k.fence = some f ∧
      k.requeueDeadLetter force = ({ k.requeued with owner := none, fence := some f }, .requeued)) ∨
    (k.FencesOut force ∧ incr k.fence = none ∧
      k.requeueDeadLetter force = ({ k with owner := none }, .scriptError)) := by
  rcases ht : k.tombstone with _ | t
  · refine .inl ⟨fun h => ?_, by simp [requeueDeadLetter, ht], by simp [requeueDeadLetter, ht]⟩
    obtain ⟨t, ht', -⟩ := h.1
    cases ht'
  have hdead : DeadLettered (some t) ↔ tombstoneReason t = some .deadLetter := by
    rw [deadLettered_iff]
    simp
  by_cases hr : tombstoneReason t = some .deadLetter
  case neg =>
    refine .inl ⟨fun h => hr (hdead.1 h.1), ?_, ?_⟩ <;>
      rcases hreason : tombstoneReason t with _ | _ | _ | _ <;> simp_all [requeueDeadLetter]
  by_cases hs : k.state.isSome
  case neg =>
    refine .inl ⟨fun h => hs h.2.1, ?_, ?_⟩ <;> simp_all [requeueDeadLetter]
  have hnone : k.state.isNone = false := by simpa using hs
  cases hlive : k.ownerLive with
  | false =>
    refine .inr (.inl ⟨hdead.2 hr, hs, rfl, ?_⟩)
    simp [requeueDeadLetter, ht, hr, hnone, hlive, requeued]
  | true =>
    cases force with
    | false =>
      refine .inl ⟨fun h => by simp at h, ?_, ?_⟩ <;> simp [requeueDeadLetter, ht, hr, hnone, hlive]
    | true =>
      have hout : k.FencesOut true := ⟨ht ▸ hdead.2 hr, hs, hlive, rfl⟩
      cases hf : incr k.fence with
      | none =>
        refine .inr (.inr (.inr ⟨hout, rfl, ?_⟩))
        simp [requeueDeadLetter, ht, hr, hnone, hlive, hf]
      | some f =>
        refine .inr (.inr (.inl ⟨hout, f, rfl, ?_⟩))
        simp [requeueDeadLetter, ht, hr, hnone, hlive, hf, requeued]

end Keys

/-! ## Leases of before -/

namespace Store

/-- the fence counter has passed `m`, and a present owner holds a later fence -/
structure Beyond (m : ℕ) (s : Store β) : Prop where
  counter : m ≤ s.keys.fence.getD 0
  owner : ∀ o, s.keys.owner = some o → m < s.keys.fence.getD 0

theorem beyond_change {m : ℕ} {s s' : Store β} (hc : OwnerChange s s') (h : Beyond m s) : Beyond m s' := by
  cases hc with
  | kept k ho hf =>
    refine ⟨by rw [hf]; exact h.counter, fun o hko => ?_⟩
    rw [hf]
    rcases ho with ho | ho
    · exact h.owner o (ho ▸ hko)
    · rw [ho] at hko
      cases hko
  | claimed k node f hn ho hf =>
    refine ⟨?_, fun o _ => ?_⟩ <;> rw [hf, Option.getD_some]
    · exact h.counter.trans hn.le
    · exact lt_of_le_of_lt h.counter hn
  | fencedOut k f hn ho hf =>
    refine ⟨?_, fun o hko => ?_⟩
    · rw [hf, Option.getD_some]
      exact h.counter.trans hn.le
    · rw [ho] at hko
      cases hko

theorem beyond_step {m : ℕ} (s : Store β) (c : Call β) (h : Beyond m s) : Beyond m (s.step c) :=
  beyond_change (step_ownerChange s c) h

/-- a live owner is the only one there is -/
theorem FenceInv.owner_none {s : Store β} (h : FenceInv s) (hlive : s.keys.ownerLive = false) : s.keys.owner = none := by
  cases ho : s.keys.owner with
  | none => rfl
  | some o =>
    obtain ⟨node, f, -, rfl, -⟩ := h.owner o ho
    have hempty : leaseValue node f = "" := by simpa [Keys.ownerLive, ho] using hlive
    have := congrArg String.toList hempty
    rw [leaseValue, toList_joinColon] at this
    simp at this

/-- the store with any tombstone put in -/
def withTombstone (s : Store β) (tombstone : Option String) : Store β :=
  ⟨{ s.keys with tombstone := tombstone }, s.issued⟩

theorem FenceInv.withTombstone {s : Store β} (h : FenceInv s) (tombstone : Option String) :
    FenceInv (s.withTombstone tombstone) := ⟨h.owner, h.bounded, h.increasing⟩

/-- a requeue leaves no owner, and no fence that was issued before is ahead -/
theorem requeued_beyond {s : Store β} (h : FenceInv s) {force : Bool}
    (hr : (s.keys.requeueDeadLetter force).2 = .requeued) {g : String × ℕ} (hg : g ∈ s.issued) :
    Beyond g.2 (s.step (.requeueDeadLetter force)) := by
  have hkeys : (s.step (.requeueDeadLetter force)).keys = (s.keys.requeueDeadLetter force).1 := rfl
  have hle := h.bounded g hg
  rcases s.keys.requeue_cases force with ⟨-, -, hno⟩ | ⟨-, -, hlive, heq⟩ | ⟨-, f, hf, heq⟩ | ⟨-, -, heq⟩
  · exact absurd hr hno
  · refine ⟨by rw [hkeys, heq]; exact hle, fun o ho => ?_⟩
    rw [hkeys, heq] at ho
    exact absurd (ho.symm.trans (h.owner_none hlive)) (by simp)
  · refine ⟨?_, fun o ho => ?_⟩
    · rw [hkeys, heq]
      exact hle.trans (lt_incr hf).le
    · rw [hkeys, heq] at ho
      cases ho
  · rw [heq] at hr
    cases hr

/-- **No earlier lease after a requeue.** A lease issued before passes no fenced write again: not with its own fence, and
if it was granted, with no other one either. -/
theorem requeue_fenced {s : Store β} (h : FenceInv s) {force : Bool}
    (hr : (s.keys.requeueDeadLetter force).2 = .requeued) {g : String × ℕ} (hg : g ∈ s.issued) (post : List (Call β))
    {c : Call β} {f : ℕ} (hc : c.token = some (leaseValue g.1 g.2, f)) (hf : f = g.2 ∨ g.2 < 10 ^ 14) :
    ¬(run step (s.step (.requeueDeadLetter force)) post).keys.TakesEffect c := by
  intro he
  have hbeyond := run_inv step (fun _ _ => True) (Beyond g.2) (fun s c _ hb => beyond_step s c hb) _ post
    (along_true _ _ _) (requeued_beyond h hr hg)
  have hinv := run_inv step (fun _ _ => True) FenceInv (fun s c _ hi => change_fenceInv (step_ownerChange s c) hi) _ post
    (along_true _ _ _) (change_fenceInv (step_ownerChange s (.requeueDeadLetter force)) h)
  obtain ⟨howner, hfence⟩ := Keys.token_current hc he
  have hlater := hbeyond.owner _ howner
  rw [hfence, Option.getD_some] at hlater
  rcases hf with rfl | hsmall
  · exact Nat.lt_irrefl _ hlater
  · have hsame := lease_names_fence hinv hsmall rfl howner
    rw [hfence, Option.some_inj] at hsame
    omega

/-! ## Exact and atomic -/

/-- what a requeue promises from a store, with any tombstone in it -/
structure RequeueExact (s : Store β) (tombstone : Option String) (force : Bool) : Prop where
  requeued : ((s.withTombstone tombstone).keys.requeueDeadLetter force).2 = .requeued ↔
    DeadLettered tombstone ∧ s.keys.state.isSome ∧ (s.keys.ownerLive = false ∨ force = true)
  unchanged : ((s.withTombstone tombstone).keys.requeueDeadLetter force).2 ≠ .requeued →
    ((s.withTombstone tombstone).keys.requeueDeadLetter force).1 = (s.withTombstone tombstone).keys
  fenced : ((s.withTombstone tombstone).keys.requeueDeadLetter force).2 = .requeued →
    ∀ g ∈ s.issued, ∀ post c f, Call.token c = some (leaseValue g.1 g.2, f) → f = g.2 ∨ g.2 < 10 ^ 14 →
      ¬(run step ((s.withTombstone tombstone).step (.requeueDeadLetter force)) post).keys.TakesEffect c

/-- a live owner is only fenced out while the counter can count on -/
def Room (s : Store β) (tombstone : Option String) (force : Bool) : Prop :=
  (s.withTombstone tombstone).keys.FencesOut force → s.keys.fence.getD 0 < 2 ^ 63 - 1

theorem requeueExact_iff_room {s : Store β} (h : FenceInv s) (tombstone : Option String) (force : Bool) :
    RequeueExact s tombstone force ↔ Room s tombstone force := by
  have hfenced : ∀ (_ : ((s.withTombstone tombstone).keys.requeueDeadLetter force).2 = .requeued), ∀ g ∈ s.issued,
      ∀ (post : List (Call β)) (c : Call β) (f : ℕ), c.token = some (leaseValue g.1 g.2, f) → f = g.2 ∨ g.2 < 10 ^ 14 →
        ¬(run step ((s.withTombstone tombstone).step (.requeueDeadLetter force)) post).keys.TakesEffect c :=
    fun hr _ hg post _ _ hc hf => requeue_fenced (h.withTombstone tombstone) hr hg post hc hf
  rcases (s.withTombstone tombstone).keys.requeue_cases force with
    ⟨hnot, hsame, hno⟩ | ⟨hdead, hstate, hlive, heq⟩ | ⟨hout, f, hf, heq⟩ | ⟨hout, hf, heq⟩
  · refine iff_of_true ⟨?_, fun _ => hsame, hfenced⟩ fun hout => ?_
    · exact iff_of_false hno hnot
    · exact absurd ⟨hout.deadLettered, hout.state, .inr hout.forced⟩ hnot
  · refine iff_of_true ⟨?_, ?_, hfenced⟩ fun hout => ?_
    · rw [heq]
      exact iff_of_true rfl ⟨hdead, hstate, .inl hlive⟩
    · rw [heq]
      exact fun hne => absurd rfl hne
    · exact absurd (hlive.symm.trans hout.live) (by simp)
  · refine iff_of_true ⟨?_, ?_, hfenced⟩ fun _ => ?_
    · rw [heq]
      exact iff_of_true rfl ⟨hout.deadLettered, hout.state, .inr hout.forced⟩
    · rw [heq]
      exact fun hne => absurd rfl hne
    · by_contra hfull
      have hnone : incr s.keys.fence = none := if_neg hfull
      exact absurd (hf.symm.trans hnone) (by simp)
  · refine iff_of_false (fun hexact => ?_) fun hroom => ?_
    · have hr := hexact.requeued.2 ⟨hout.deadLettered, hout.state, .inr hout.forced⟩
      rw [heq] at hr
      cases hr
    · have hsome : incr s.keys.fence = some (s.keys.fence.getD 0 + 1) := if_pos (hroom hout)
      exact absurd (hf.symm.trans hsome) (by simp)

/-! ## The tombstone of a run -/

/-- a tombstone carries the fence that the counter still holds -/
def OwnTombstone (k : Keys β) : Prop :=
  ∀ t, k.tombstone = some t → ∃ r : Reason, ∃ f, k.fence = some f ∧ t = joinColon r.text (decimal f)

theorem OwnTombstone.kept {k k' : Keys β} (h : OwnTombstone k) (hf : k'.fence = k.fence)
    (ht : k'.tombstone = k.tombstone ∨ k'.tombstone = none) : OwnTombstone k' := by
  intro t hk
  rcases ht with ht | ht
  · rw [hf]
    exact h t (ht ▸ hk)
  · rw [ht] at hk
    cases hk

theorem ownTombstone_step (s : Store β) (c : Call β) (h : OwnTombstone s.keys) : OwnTombstone (s.step c).keys := by
  have gone : (s.step c).keys.tombstone = none → OwnTombstone (s.step c).keys := fun hnone t ht => by
    rw [hnone] at ht
    cases ht
  cases c with
  | acquireMatchLease node =>
    -- a tombstone keeps the counter from moving
    by_cases htomb : s.keys.tombstone = none
    · refine gone ?_
      rcases s.keys.acquire_cases node with ⟨hk, -⟩ | ⟨f, -, hk, -⟩ <;>
        exact (congrArg Keys.tombstone hk).trans htomb
    · have hk : (s.keys.acquireMatchLease node).1 = s.keys := by
        rw [Keys.acquireMatchLease, if_pos (Option.isSome_iff_ne_none.2 htomb)]
      exact h.kept (congrArg Keys.fence hk) (.inl (congrArg Keys.tombstone hk))
  | requeueDeadLetter force =>
    have hkeys : (s.step (.requeueDeadLetter force)).keys = (s.keys.requeueDeadLetter force).1 := rfl
    rcases s.keys.requeue_cases force with ⟨-, hk, -⟩ | ⟨-, -, -, heq⟩ | ⟨-, f, -, heq⟩ | ⟨-, -, heq⟩
    · rw [hkeys, hk]
      exact h
    · exact gone (by rw [hkeys, heq]; rfl)
    · exact gone (by rw [hkeys, heq]; rfl)
    · exact h.kept (by rw [hkeys, heq]) (.inl (by rw [hkeys, heq]))
  | renewLease e => exact h
  | releaseLease e =>
    refine h.kept ?_ (.inl ?_) <;> simp only [step, Keys.step, Keys.exec, Keys.releaseLease] <;> split_ifs <;> rfl
  | releaseLeaseAndIndex e =>
    refine h.kept ?_ (.inl ?_) <;> simp only [step, Keys.step, Keys.exec, Keys.releaseLeaseAndIndex] <;> split_ifs <;>
      rfl
  | fencedStateSet l f b e n =>
    refine h.kept ?_ (.inl ?_) <;> simp only [step, Keys.step, Keys.exec, Keys.fencedStateSet] <;> split_ifs <;> rfl
  | fencedStateDelete l f =>
    refine h.kept ?_ (.inl ?_) <;> simp only [step, Keys.step, Keys.exec, Keys.fencedStateDelete] <;> split_ifs <;> rfl
  | finalizeMatchTombstone l f r =>
    by_cases hdone : (s.keys.finalizeMatchTombstone l f r).2 = true
    · obtain ⟨howner, hfence⟩ := Keys.finalize_done hdone
      have hkeys : (s.step (.finalizeMatchTombstone l f r)).keys = (s.keys.finalizeMatchTombstone l f r).1 := rfl
      intro t ht
      rw [hkeys, Keys.finalizeMatchTombstone, if_neg (not_not.2 howner), if_neg (not_not.2 hfence)] at ht ⊢
      exact ⟨r, f, hfence, (Option.some_inj.1 ht).symm⟩
    · have hk := Keys.finalize_stale (Bool.eq_false_of_not_eq_true hdone)
      exact h.kept (congrArg Keys.fence hk) (.inl (congrArg Keys.tombstone hk))
  | removeActiveIfStateAbsent =>
    refine h.kept ?_ (.inl ?_) <;> simp only [step, Keys.step, Keys.exec, Keys.removeActiveIfStateAbsent] <;>
      split_ifs <;> rfl
  | removeActiveIfTombstoned =>
    refine h.kept ?_ (.inl ?_) <;> simp only [step, Keys.step, Keys.exec, Keys.removeActiveIfTombstoned] <;>
      split_ifs <;> rfl
  | expire key =>
    cases key with
    | tombstone => exact gone rfl
    | _ => exact h

theorem run_ownTombstone (calls : List (Call β)) : OwnTombstone (run step (init : Store β) calls).keys :=
  run_inv step (fun _ _ => True) (fun s => OwnTombstone s.keys) (fun s c _ h => ownTombstone_step s c h) init calls
    (along_true _ _ _) fun _ ht => by cases ht

/-- a dead-letter tombstone that a finalization wrote names a safe fence, which the counter still holds -/
theorem own_tombstone_room (calls : List (Call β)) (force : Bool) :
    Room (run step (init : Store β) calls) (run step (init : Store β) calls).keys.tombstone force := by
  intro hout
  obtain ⟨t, ht, n, hparse⟩ := hout.deadLettered
  obtain ⟨r, f, hfence, rfl⟩ := run_ownTombstone calls t ht
  obtain ⟨n', h, -⟩ := (parseTombstone_iff _ _ _).1 hparse
  have htext := (utf16_ascii_iff (fun c hc => h.ascii c (h.text ▸ hc)) _).1 h.text
  rw [toList_joinColon, List.map_append, List.map_cons] at htext
  obtain ⟨-, hdigits⟩ := append_cons_inj_first (not_mem_reasonCodes r) (not_mem_reasonCodes .deadLetter) htext
  have hdecimal : decimal f = decimal n' :=
    String.toList_inj.1 (List.map_injective_iff.2 (fun x y hxy => Char.toNat_inj.1 hxy) hdigits)
  obtain rfl := decimal_injective hdecimal
  have hsafe := h.safe
  simp only [maxSafeInteger] at hsafe
  rw [hfence, Option.getD_some]
  omega

/-- **Requeue of a dead letter.** From any content that a run leaves, with any tombstone in it, a requeue is exact,
atomic and fences out the earlier leases, exactly when a live owner is not to be fenced out at the last fence; with the
run's own tombstone it always is. The two tombstone grammars agree on every string, and what is written is read back. -/
theorem requeueDeadLetter_exact (calls : List (Call β)) :
    (∀ tombstone force, RequeueExact (run step (init : Store β) calls) tombstone force ↔
      Room (run step (init : Store β) calls) tombstone force) ∧
    (∀ force, RequeueExact (run step (init : Store β) calls) (run step (init : Store β) calls).keys.tombstone force) ∧
    (∀ value, parseTombstone value = (luaReasonGate (utf8 value)).map fun g => (g.1, (fenceOf g.2 : ℚ))) ∧
    ∀ (r : Reason) (n : ℕ), 1 ≤ n → n ≤ maxSafeInteger →
      parseTombstone (utf16 (joinColon r.text (decimal n))) = some (r, (n : ℚ)) :=
  ⟨fun tombstone force => requeueExact_iff_room (run_fenceInv calls) tombstone force,
    fun force => (requeueExact_iff_room (run_fenceInv calls) _ force).2 (own_tombstone_room calls force),
    tombstone_grammars, fun r _ hpos hsafe => parse_format r hpos hsafe⟩

/-! ## The last fence -/

/-- the lease expires and is taken again, any number of times -/
theorem reach_fence (n : ℕ) (h : n < 2 ^ 63 - 1) : ∃ calls : List (Call Unit),
    (run step (init : Store Unit) calls).keys.fence = some (n + 1) ∧
    (run step (init : Store Unit) calls).keys.owner = some (leaseValue "a" (n + 1)) ∧
    (run step (init : Store Unit) calls).keys.state = some () ∧
    (run step (init : Store Unit) calls).keys.tombstone = none := by
  induction n with
  | zero => exact ⟨[.acquireMatchLease "a", .fencedStateSet (leaseValue "a" 1) 1 () 0 1], by decide +kernel⟩
  | succ n ih =>
    obtain ⟨calls, hfence, howner, hstate, htomb⟩ := ih (by omega)
    refine ⟨calls ++ [.expire .owner, .acquireMatchLease "a"], ?_⟩
    have hincr : incr (some (n + 1)) = some (n + 1 + 1) := by
      rw [incr, Option.getD_some, if_pos h]
    rw [run_append]
    generalize run step init calls = s at *
    simp [run, step, Keys.step, Keys.exec, Keys.expire, Keys.acquireMatchLease, Keys.ownerLive, hfence, hstate, htomb,
      hincr]

/-- at the last fence a forced requeue deletes the owner, fails on `INCR` and requeues nothing -/
theorem last_fence_half_done : ∃ calls : List (Call Unit),
    (run step (init : Store Unit) calls).keys.fence = some (2 ^ 63 - 1) ∧
    (run step (init : Store Unit) calls).keys.owner = some (leaseValue "a" (2 ^ 63 - 1)) ∧
    ((run step (init : Store Unit) calls).withTombstone (some "dead-letter:5")).keys.requeueDeadLetter true =
      ({ ((run step (init : Store Unit) calls).withTombstone (some "dead-letter:5")).keys with owner := none },
        .scriptError) ∧
    ¬RequeueExact (run step (init : Store Unit) calls) (some "dead-letter:5") true := by
  obtain ⟨calls, hfence, howner, hstate, -⟩ := reach_fence (2 ^ 63 - 2) (by norm_num)
  rw [show (2 : ℕ) ^ 63 - 2 + 1 = 2 ^ 63 - 1 by norm_num] at hfence howner
  have hlive : (run step (init : Store Unit) calls).keys.ownerLive = true := by
    rw [Keys.ownerLive, howner]
    decide +kernel
  have htext : joinColon Reason.deadLetter.text (decimal 5) = "dead-letter:5" := by decide +kernel
  have hparse := parse_format .deadLetter (n := 5) (by decide) (by decide)
  rw [htext] at hparse
  have hout : ((run step (init : Store Unit) calls).withTombstone (some "dead-letter:5")).keys.FencesOut true :=
    ⟨⟨_, rfl, 5, hparse⟩, by simp [withTombstone, hstate], hlive, rfl⟩
  have hfull : ¬Room (run step (init : Store Unit) calls) (some "dead-letter:5") true := fun hroom => by
    have := hroom hout
    rw [hfence, Option.getD_some] at this
    omega
  refine ⟨calls, hfence, howner, ?_, fun hexact => hfull ((requeueExact_iff_room (run_fenceInv calls) _ _).1 hexact)⟩
  rcases ((run step (init : Store Unit) calls).withTombstone (some "dead-letter:5")).keys.requeue_cases true with
    ⟨hnot, -, -⟩ | ⟨-, -, hdead, -⟩ | ⟨-, f, hf, -⟩ | ⟨-, -, heq⟩
  · exact absurd ⟨hout.deadLettered, hout.state, .inr rfl⟩ hnot
  · exact absurd (hdead.symm.trans hout.live) (by simp)
  · have hnone : incr (run step (init : Store Unit) calls).keys.fence = none := by rw [hfence]; rfl
    exact absurd (hf.symm.trans hnone) (by simp)
  · exact heq

end Store

end Arena.Redis
