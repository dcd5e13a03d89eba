/-
Who waits for whom on the pub/sub connection, and that nobody waits in vain.

- `LaneInv`: at most one operation of a channel runs, the head of its chain;
- `BlockInv`: a reset that is awaited has ended or runs, and its drain waits for no operation that waits for it;
- `run_blockInv`: so in every state reached;
- `unblocked`: with no Redis call out, whoever waits waits, through others, for a party that can run;
- `waits_acyclic`: and never, through others, for itself.
-/
import Mathlib.Logic.Relation
import Arena.Redis.PubSub

namespace Arena.Redis.PubSub

open Arena.Lib

/-! ## Lanes -/

namespace State

section Lanes

variable {H : Type} {s t : State H} {i : ℕ} {o : Op H} {p : Phase}

/-- the chains hold the operations past the barrier, and only the head of a chain runs -/
structure LaneInv (s : State H) : Prop where
  head : ∀ i o, s.ops[i]? = some o → o.phase.isRunning = true → (s.chains o.channel).head? = some i
  member : ∀ i o, s.ops[i]? = some o → o.phase.isChained = true → i ∈ s.chains o.channel
  sound : ∀ ch, ∀ i ∈ s.chains ch, ∃ o, s.ops[i]? = some o ∧ o.channel = ch ∧ o.phase.isChained = true
  nodup : ∀ ch, (s.chains ch).Nodup

theorem isChained_of_running {p : Phase} (h : p.isRunning = true) : p.isChained = true := by
  simp [Phase.isChained, h]

theorem not_running_of_not_chained {p : Phase} (h : p.isChained = false) : p.isRunning = false := by
  simp only [Phase.isChained, Bool.or_eq_false_iff] at h
  exact h.2

theorem getElem?_setPhase (s : State H) (i j : ℕ) (p : Phase) :
    (s.setPhase i p).ops[j]? = if i = j then s.ops[j]?.map fun o => { o with phase := p } else s.ops[j]? := by
  simp only [setPhase, List.getElem?_modify]
  split_ifs <;> simp

theorem getElem?_setPhase_self {s : State H} {i : ℕ} {o : Op H} (ho : s.ops[i]? = some o) (p : Phase) :
    (s.setPhase i p).ops[i]? = some { o with phase := p } := by
  rw [getElem?_setPhase, if_pos rfl, ho, Option.map_some]

theorem getElem?_setPhase_ne (s : State H) {i j : ℕ} (h : i ≠ j) (p : Phase) :
    (s.setPhase i p).ops[j]? = s.ops[j]? := by
  rw [getElem?_setPhase, if_neg h]

theorem LaneInv.congr (h : LaneInv s) (hops : t.ops = s.ops) (hchains : t.chains = s.chains) : LaneInv t where
  head j x hx hr := by
    rw [hops] at hx
    rw [hchains]
    exact h.head j x hx hr
  member j x hx hc := by
    rw [hops] at hx
    rw [hchains]
    exact h.member j x hx hc
  sound ch j hj := by
    rw [hchains] at hj
    rw [hops]
    exact h.sound ch j hj
  nodup ch := hchains ▸ h.nodup ch

theorem chain_eq (hh : (s.chains o.channel).head? = some i) :
    s.chains o.channel = i :: (s.chains o.channel).tail := by
  cases hc : s.chains o.channel with
  | nil => simp [hc] at hh
  | cons j rest =>
    simp only [hc, List.head?_cons, Option.some.injEq] at hh
    rw [hh, List.tail_cons]

/-- an operation moves on in its chain, or outside of it -/
theorem LaneInv.setPhase (h : LaneInv s) (ho : s.ops[i]? = some o) (hc : p.isChained = o.phase.isChained)
    (hh : p.isRunning = true → (s.chains o.channel).head? = some i) : LaneInv (s.setPhase i p) where
  head j x hx hr := by
    by_cases hij : i = j
    · subst hij
      rw [getElem?_setPhase_self ho] at hx
      obtain rfl := Option.some.inj hx
      exact hh hr
    · rw [getElem?_setPhase_ne s hij] at hx
      exact h.head j x hx hr
  member j x hx hm := by
    by_cases hij : i = j
    · subst hij
      rw [getElem?_setPhase_self ho] at hx
      obtain rfl := Option.some.inj hx
      exact h.member i o ho (hc ▸ hm)
    · rw [getElem?_setPhase_ne s hij] at hx
      exact h.member j x hx hm
  sound ch j hj := by
    obtain ⟨x, hx, hch, hm⟩ := h.sound ch j hj
    by_cases hij : i = j
    · subst hij
      obtain rfl := Option.some.inj (ho.symm.trans hx)
      exact ⟨_, getElem?_setPhase_self ho p, hch, hc.trans hm⟩
    · exact ⟨x, (getElem?_setPhase_ne s hij p).trans hx, hch, hm⟩
  nodup := h.nodup

/-- the head of a chain settles -/
theorem LaneInv.finish (h : LaneInv s) (ho : s.ops[i]? = some o) (hh : (s.chains o.channel).head? = some i) :
    LaneInv (s.finish i o) := by
  have hchain := chain_eq hh
  have hnodup := h.nodup o.channel
  rw [hchain, List.nodup_cons] at hnodup
  have hset : ∀ j, i ≠ j → (s.finish i o).ops[j]? = s.ops[j]? := fun j hij => getElem?_setPhase_ne s hij _
  have hdone : (s.finish i o).ops[i]? = some { o with phase := .settled } := getElem?_setPhase_self (s := s) ho _
  have hchains : (s.finish i o).chains = Function.update s.chains o.channel (s.chains o.channel).tail := rfl
  -- another chained operation of the channel stands behind the head
  have hbehind : ∀ j x, i ≠ j → s.ops[j]? = some x → x.phase.isChained = true →
      j ∈ (s.finish i o).chains x.channel := by
    intro j x hij hx hc
    have hmem := h.member j x hx hc
    rw [hchains, Function.update_apply]
    split_ifs with hch
    · rw [hch, hchain] at hmem
      exact (List.mem_cons.1 hmem).resolve_left (Ne.symm hij)
    · exact hmem
  refine ⟨?_, ?_, ?_, ?_⟩
  · intro j x hx hr
    by_cases hij : i = j
    · subst hij
      obtain rfl := Option.some.inj (hdone.symm.trans hx)
      cases hr
    · rw [hset j hij] at hx
      have hhead := h.head j x hx hr
      rw [hchains, Function.update_apply]
      split_ifs with hch
      · rw [hch, hh] at hhead
        exact absurd (Option.some.inj hhead) hij
      · exact hhead
  · intro j x hx hc
    by_cases hij : i = j
    · subst hij
      obtain rfl := Option.some.inj (hdone.symm.trans hx)
      cases hc
    · rw [hset j hij] at hx
      exact hbehind j x hij hx hc
  · intro ch j hj
    have hold : j ∈ s.chains ch ∧ i ≠ j := by
      rw [hchains, Function.update_apply] at hj
      split_ifs at hj with hch
      · subst hch
        exact ⟨List.mem_of_mem_tail hj, fun hij => hnodup.1 (hij ▸ hj)⟩
      · refine ⟨hj, ?_⟩
        rintro rfl
        obtain ⟨x, hx, hxch, -⟩ := h.sound ch i hj
        obtain rfl := Option.some.inj (ho.symm.trans hx)
        exact hch hxch.symm
    obtain ⟨x, hx, hxch, hc⟩ := h.sound ch j hold.1
    exact ⟨x, (hset j hold.2).trans hx, hxch, hc⟩
  · intro ch
    rw [hchains, Function.update_apply]
    split_ifs
    · exact hnodup.2
    · exact h.nodup ch

/-- an operation past the barrier joins the chain of its channel -/
theorem LaneInv.chain (h : LaneInv s) (ho : s.ops[i]? = some o) (hc : o.phase.isChained = false) :
    LaneInv (s.chain i o) := by
  have hout : ∀ ch, i ∉ s.chains ch := by
    intro ch hi
    obtain ⟨x, hx, -, hx'⟩ := h.sound ch i hi
    obtain rfl := Option.some.inj (ho.symm.trans hx)
    rw [hc] at hx'
    cases hx'
  have hset : ∀ j, i ≠ j → (s.chain i o).ops[j]? = s.ops[j]? := fun j hij => getElem?_setPhase_ne s hij _
  have hnew : (s.chain i o).ops[i]? = some { o with phase := .queued } := getElem?_setPhase_self (s := s) ho _
  have hchains : (s.chain i o).chains = Function.update s.chains o.channel (s.chains o.channel ++ [i]) := rfl
  refine ⟨?_, ?_, ?_, ?_⟩
  · intro j x hx hr
    by_cases hij : i = j
    · subst hij
      obtain rfl := Option.some.inj (hnew.symm.trans hx)
      cases hr
    · rw [hset j hij] at hx
      have hhead := h.head j x hx hr
      rw [hchains, Function.update_apply]
      split_ifs with hch
      · rw [hch] at hhead
        rw [List.head?_append, hhead, Option.some_or]
      · exact hhead
  · intro j x hx hm
    rw [hchains, Function.update_apply]
    by_cases hij : i = j
    · subst hij
      obtain rfl := Option.some.inj (hnew.symm.trans hx)
      simp
    · rw [hset j hij] at hx
      have hmem := h.member j x hx hm
      split_ifs with hch
      · rw [hch] at hmem
        exact List.mem_append_left _ hmem
      · exact hmem
  · intro ch j hj
    rw [hchains, Function.update_apply] at hj
    by_cases hij : i = j
    · subst hij
      refine ⟨_, hnew, ?_, rfl⟩
      split_ifs at hj with hch
      · exact hch.symm
      · exact absurd hj (hout ch)
    · have hold : j ∈ s.chains ch := by
        split_ifs at hj with hch
        · subst hch
          exact (List.mem_append.1 hj).resolve_right fun hlast => hij (List.mem_singleton.1 hlast).symm
        · exact hj
      obtain ⟨x, hx, hxch, hm⟩ := h.sound ch j hold
      exact ⟨x, (hset j hij).trans hx, hxch, hm⟩
  · intro ch
    rw [hchains, Function.update_apply]
    split_ifs
    · exact List.nodup_append.2 ⟨h.nodup _, List.nodup_singleton i, by
        intro a ha b hb
        rw [List.mem_singleton.1 hb]
        exact fun hab => hout _ (hab ▸ ha)⟩
    · exact h.nodup ch

end Lanes

/-! ## Blocked operations -/

section Blocked

variable {H : Type} {s t : State H} {i : ℕ} {o : Op H} {p : Phase}

/-- who waits for whom: at the barrier or handed off, in a chain, in a drain -/
inductive Waits (s : State H) : Party → Party → Prop
  | barrier {i : ℕ} {o : Op H} {r : ℕ} (ho : s.ops[i]? = some o) (hr : o.phase.awaited = some r)
      (he : s.ended r = false) : Waits s (.op i) .reset
  | chain {i j : ℕ} {o : Op H} (ho : s.ops[i]? = some o) (hq : o.phase = .queued)
      (hj : (s.chains o.channel).head? = some j) (hij : j ≠ i) : Waits s (.op i) (.op j)
  | drain {i : ℕ} {o : Op H} {ops : List ℕ} (hr : s.reset = some (.draining ops)) (hi : i ∈ ops)
      (ho : s.ops[i]? = some o) (hd : o.detached = false) (hs : o.phase ≠ .settled) : Waits s .reset (.op i)

/-- what makes the wait for a reset end -/
structure BlockInv (s : State H) : Prop where
  lanes : LaneInv s
  awaits : ∀ (i : ℕ) (o : Op H) (r : ℕ), s.ops[i]? = some o → o.phase.awaited = some r →
    r < s.outcomes.length ∨ r = s.outcomes.length ∧ s.reset.isSome = true
  inFlight : ∀ i ∈ s.inFlight.elems, ∃ o : Op H, s.ops[i]? = some o ∧ o.phase.isRunning = true
  drain : ∀ ops, s.reset = some (.draining ops) → ∀ i ∈ ops, ∃ o : Op H, s.ops[i]? = some o ∧
    (o.phase = .settled ∨
      o.phase.isRunning = true ∧ (o.phase = .handedOff s.outcomes.length → o.detached = true))

/-- the states differ in what no wait depends on -/
structure Frame (s t : State H) : Prop where
  ops : t.ops = s.ops
  chains : t.chains = s.chains
  inFlight : t.inFlight = s.inFlight
  outcomes : t.outcomes = s.outcomes
  resetting : t.reset.isSome = s.reset.isSome
  draining : ∀ ops, t.reset = some (.draining ops) ↔ s.reset = some (.draining ops)

theorem Frame.refl (s : State H) : Frame s s := ⟨rfl, rfl, rfl, rfl, rfl, fun _ => Iff.rfl⟩

theorem Frame.trans {u : State H} (h : Frame s t) (k : Frame t u) : Frame s u :=
  ⟨k.ops.trans h.ops, k.chains.trans h.chains, k.inFlight.trans h.inFlight, k.outcomes.trans h.outcomes,
    k.resetting.trans h.resetting, fun ops => (k.draining ops).trans (h.draining ops)⟩

theorem BlockInv.frame (h : BlockInv s) (hf : Frame s t) : BlockInv t where
  lanes := h.lanes.congr hf.ops hf.chains
  awaits i o r ho hr := by
    rw [hf.ops] at ho
    rw [hf.outcomes, hf.resetting]
    exact h.awaits i o r ho hr
  inFlight i hi := by
    rw [hf.inFlight] at hi
    rw [hf.ops]
    exact h.inFlight i hi
  drain ops hr i hi := by
    rw [hf.ops, hf.outcomes]
    exact h.drain ops ((hf.draining ops).1 hr) i hi

theorem Frame.setPhase (h : Frame s t) (i : ℕ) (p : Phase) : Frame (s.setPhase i p) (t.setPhase i p) :=
  ⟨by simp only [State.setPhase, h.ops], h.chains, h.inFlight, h.outcomes, h.resetting, h.draining⟩

theorem Frame.finish (h : Frame s t) (i : ℕ) (o : Op H) : Frame (s.finish i o) (t.finish i o) := by
  unfold State.finish
  apply Frame.setPhase
  exact ⟨h.ops, by simp only [h.chains], by simp only [h.inFlight], h.outcomes, h.resetting, h.draining⟩

theorem Frame.resetSubscriber (h : Frame s t) (self : Option ℕ) :
    Frame (s.resetSubscriber self) (t.resetSubscriber self) := by
  have hsome := h.resetting
  cases hs : s.reset with
  | some x =>
    obtain ⟨y, ht⟩ : ∃ y, t.reset = some y := by
      rw [← Option.isSome_iff_exists, hsome, hs]
      rfl
    cases self with
    | some i =>
      simp only [State.resetSubscriber, hs, ht]
      exact ⟨by simp only [detach, h.ops], h.chains, h.inFlight, h.outcomes, h.resetting, h.draining⟩
    | none =>
      simp only [State.resetSubscriber, hs, ht]
      exact h
  | none =>
    have ht : t.reset = none := by
      rw [← Option.not_isSome_iff_eq_none, hsome, hs]
      simp
    cases self with
    | some i =>
      simp only [State.resetSubscriber, hs, ht, h.inFlight]
      exact ⟨h.ops, h.chains, rfl, h.outcomes, rfl, fun _ => Iff.rfl⟩
    | none =>
      simp only [State.resetSubscriber, hs, ht, h.inFlight]
      exact ⟨h.ops, h.chains, rfl, h.outcomes, rfl, fun _ => Iff.rfl⟩

theorem Frame.handOff (h : Frame s t) (i : ℕ) : Frame (s.handOff i) (t.handOff i) := by
  unfold State.handOff
  rw [h.outcomes]
  exact (h.resetSubscriber (some i)).setPhase i _

/-! ### What one party does -/

/-- an operation outside of the chains moves on there -/
theorem BlockInv.idle (h : BlockInv s) (ho : s.ops[i]? = some o) (hc : o.phase.isChained = false)
    (hs : o.phase ≠ .settled) (hp : p.isChained = false)
    (ha : ∀ r, p.awaited = some r → r = s.outcomes.length ∧ s.reset.isSome = true) : BlockInv (s.setPhase i p) := by
  have hrun := not_running_of_not_chained hc
  have hpr := not_running_of_not_chained hp
  refine ⟨h.lanes.setPhase ho (hp.trans hc.symm) ?_, ?_, ?_, ?_⟩
  · intro hr
    rw [hpr] at hr
    cases hr
  · intro j x r hx hr
    by_cases hij : i = j
    · subst hij
      rw [getElem?_setPhase_self ho] at hx
      obtain rfl := Option.some.inj hx
      exact .inr (ha r hr)
    · exact h.awaits j x r ((getElem?_setPhase_ne s hij p).symm.trans hx) hr
  · intro j hj
    obtain ⟨x, hx, hr⟩ := h.inFlight j hj
    have hij : i ≠ j := by
      rintro rfl
      obtain rfl := Option.some.inj (ho.symm.trans hx)
      rw [hrun] at hr
      cases hr
    exact ⟨x, (getElem?_setPhase_ne s hij p).trans hx, hr⟩
  · intro ops hr j hj
    obtain ⟨x, hx, hor⟩ := h.drain ops hr j hj
    have hij : i ≠ j := by
      rintro rfl
      obtain rfl := Option.some.inj (ho.symm.trans hx)
      rcases hor with hset | ⟨hr', -⟩
      · exact hs hset
      · rw [hrun] at hr'
        cases hr'
    exact ⟨x, (getElem?_setPhase_ne s hij p).trans hx, hor⟩

theorem awaits_setPhase (h : BlockInv s) (ho : s.ops[i]? = some o)
    (ha : ∀ r, p.awaited = some r → r < s.outcomes.length ∨ r = s.outcomes.length ∧ s.reset.isSome = true) (j : ℕ)
    (x : Op H) (r : ℕ) (hx : (s.setPhase i p).ops[j]? = some x) (hr : x.phase.awaited = some r) :
    r < s.outcomes.length ∨ r = s.outcomes.length ∧ s.reset.isSome = true := by
  by_cases hij : i = j
  · subst hij
    rw [getElem?_setPhase_self ho] at hx
    obtain rfl := Option.some.inj hx
    exact ha r hr
  · exact h.awaits j x r ((getElem?_setPhase_ne s hij p).symm.trans hx) hr

theorem BlockInv.chain (h : BlockInv s) (ho : s.ops[i]? = some o) (hc : o.phase.isChained = false)
    (hs : o.phase ≠ .settled) : BlockInv (s.chain i o) := by
  have hrun := not_running_of_not_chained hc
  have hawaits := awaits_setPhase (p := .queued) h ho fun r hr => by cases hr
  refine ⟨h.lanes.chain ho hc, hawaits, ?_, ?_⟩
  · intro j hj
    obtain ⟨x, hx, hr⟩ := h.inFlight j hj
    have hij : i ≠ j := by
      rintro rfl
      obtain rfl := Option.some.inj (ho.symm.trans hx)
      rw [hrun] at hr
      cases hr
    exact ⟨x, (getElem?_setPhase_ne s hij _).trans hx, hr⟩
  · intro ops hr j hj
    obtain ⟨x, hx, hor⟩ := h.drain ops hr j hj
    have hij : i ≠ j := by
      rintro rfl
      obtain rfl := Option.some.inj (ho.symm.trans hx)
      rcases hor with hset | ⟨hr', -⟩
      · exact hs hset
      · rw [hrun] at hr'
        cases hr'
    exact ⟨x, (getElem?_setPhase_ne s hij _).trans hx, hor⟩

/-- the head of a chain goes on -/
theorem BlockInv.goOn (h : BlockInv s) (ho : s.ops[i]? = some o) (hh : (s.chains o.channel).head? = some i)
    (hc : o.phase.isChained = true) (hp : p.isRunning = true)
    (ha : ∀ r, p.awaited = some r → r = s.outcomes.length ∧ s.reset.isSome = true)
    (hd : ∀ ops, s.reset = some (.draining ops) → i ∈ ops → p.awaited.isSome = true → o.detached = true) (f : JsSet ℕ)
    (hf : ∀ j ∈ f.elems, j = i ∨ j ∈ s.inFlight.elems) : BlockInv ({ s with inFlight := f }.setPhase i p) := by
  have hself := getElem?_setPhase_self (s := s) ho p
  have hawaits := awaits_setPhase (p := p) h ho fun r hr => .inr (ha r hr)
  refine ⟨(h.lanes.setPhase ho ((isChained_of_running hp).trans hc.symm) fun _ => hh).congr rfl rfl, hawaits, ?_, ?_⟩
  · intro j hj
    by_cases hij : i = j
    · subst hij
      exact ⟨_, hself, hp⟩
    · obtain ⟨x, hx, hr⟩ := h.inFlight j ((hf j hj).resolve_left (Ne.symm hij))
      exact ⟨x, (getElem?_setPhase_ne s hij p).trans hx, hr⟩
  · intro ops hr j hj
    by_cases hij : i = j
    · subst hij
      refine ⟨_, hself, .inr ⟨hp, fun hoff => hd ops hr hj ?_⟩⟩
      simp only at hoff
      rw [hoff]
      rfl
    · obtain ⟨x, hx, hor⟩ := h.drain ops hr j hj
      exact ⟨x, (getElem?_setPhase_ne s hij p).trans hx, hor⟩

/-- the head of a chain settles -/
theorem BlockInv.finish (h : BlockInv s) (ho : s.ops[i]? = some o) (hh : (s.chains o.channel).head? = some i)
    (f : JsSet ℕ) (hf : ∀ j ∈ f.elems, j = i ∨ j ∈ s.inFlight.elems) :
    BlockInv ({ s with inFlight := f }.finish i o) := by
  have hawaits := awaits_setPhase (p := .settled) h ho fun r hr => by cases hr
  refine ⟨(h.lanes.finish ho hh).congr rfl rfl, hawaits, ?_, ?_⟩
  · intro j hj
    obtain ⟨hji, hj'⟩ := JsSet.mem_delete.1 hj
    obtain ⟨x, hx, hr⟩ := h.inFlight j ((hf j hj').resolve_left hji)
    exact ⟨x, (getElem?_setPhase_ne s (Ne.symm hji) _).trans hx, hr⟩
  · intro ops hr j hj
    by_cases hij : i = j
    · subst hij
      exact ⟨_, getElem?_setPhase_self (s := s) ho _, .inl rfl⟩
    · obtain ⟨x, hx, hor⟩ := h.drain ops hr j hj
      exact ⟨x, (getElem?_setPhase_ne s hij _).trans hx, hor⟩

/-! ### Resets -/

theorem getElem?_detach (s : State H) (i j : ℕ) :
    (s.detach i).ops[j]? = s.ops[j]?.map fun o => if i = j then { o with detached := true } else o := by
  simp only [detach, List.getElem?_modify]
  split_ifs <;> simp

/-- a detached operation stands where it stood -/
theorem detach_get {j : ℕ} {x : Op H} (hx : (s.detach i).ops[j]? = some x) :
    ∃ y, s.ops[j]? = some y ∧ x.phase = y.phase ∧ x.channel = y.channel ∧ (y.detached = true → x.detached = true) := by
  rw [getElem?_detach] at hx
  obtain ⟨y, hy, rfl⟩ := Option.map_eq_some_iff.1 hx
  refine ⟨y, hy, ?_⟩
  split_ifs
  · exact ⟨rfl, rfl, fun _ => rfl⟩
  · exact ⟨rfl, rfl, id⟩

theorem get_detach {j : ℕ} {y : Op H} (hy : s.ops[j]? = some y) :
    ∃ x, (s.detach i).ops[j]? = some x ∧ x.phase = y.phase ∧ x.channel = y.channel ∧ x.handler = y.handler ∧
      (y.detached = true ∨ i = j → x.detached = true) := by
  refine ⟨if i = j then { y with detached := true } else y, ?_, ?_⟩
  · rw [getElem?_detach, hy, Option.map_some]
  · split_ifs with hij
    · exact ⟨rfl, rfl, rfl, fun _ => rfl⟩
    · exact ⟨rfl, rfl, rfl, fun h => h.resolve_right hij⟩

theorem LaneInv.detach (h : LaneInv s) (i : ℕ) : LaneInv (s.detach i) where
  head j x hx hr := by
    obtain ⟨y, hy, hp, hch, -⟩ := detach_get hx
    rw [hch]
    exact h.head j y hy (hp ▸ hr)
  member j x hx hc := by
    obtain ⟨y, hy, hp, hch, -⟩ := detach_get hx
    rw [hch]
    exact h.member j y hy (hp ▸ hc)
  sound ch j hj := by
    obtain ⟨y, hy, hch, hc⟩ := h.sound ch j hj
    obtain ⟨x, hx, hp, hch', -⟩ := get_detach (i := i) hy
    exact ⟨x, hx, hch'.trans hch, hp ▸ hc⟩
  nodup := h.nodup

theorem BlockInv.detach (h : BlockInv s) (i : ℕ) : BlockInv (s.detach i) where
  lanes := h.lanes.detach i
  awaits j x r hx hr := by
    obtain ⟨y, hy, hp, -⟩ := detach_get hx
    exact h.awaits j y r hy (hp ▸ hr)
  inFlight j hj := by
    obtain ⟨y, hy, hr⟩ := h.inFlight j hj
    obtain ⟨x, hx, hp, -⟩ := get_detach (i := i) hy
    exact ⟨x, hx, hp ▸ hr⟩
  drain ops hr j hj := by
    obtain ⟨y, hy, hor⟩ := h.drain ops hr j hj
    obtain ⟨x, hx, hp, -, -, hd⟩ := get_detach (i := i) hy
    refine ⟨x, hx, ?_⟩
    rw [hp]
    exact hor.imp_right fun hrun => ⟨hrun.1, fun hoff => hd (.inl (hrun.2 hoff))⟩

/-- a reset starts: what is in flight waits for no reset -/
theorem BlockInv.startReset (h : BlockInv s) (hr : s.reset = none) (f : JsSet ℕ)
    (hf : ∀ j ∈ f.elems, j ∈ s.inFlight.elems) :
    BlockInv { s with resetPending := false, inFlight := f, reset := some (.draining f.elems) } where
  lanes := h.lanes.congr rfl rfl
  awaits j x r hx ha := .imp_right (fun h => ⟨h.1, rfl⟩) (h.awaits j x r hx ha)
  inFlight j hj := h.inFlight j (hf j hj)
  drain ops ho j hj := by
    obtain rfl : f.elems = ops := by simpa using ho
    obtain ⟨x, hx, hrun⟩ := h.inFlight j (hf j hj)
    refine ⟨x, hx, .inr ⟨hrun, fun hoff => ?_⟩⟩
    -- with no reset running, a reset that is awaited has ended
    rcases h.awaits j x _ hx (by rw [hoff]; rfl) with hlt | ⟨-, hsome⟩
    · exact absurd hlt (lt_irrefl _)
    · rw [hr] at hsome
      cases hsome

theorem BlockInv.resetSubscriber (h : BlockInv s) (self : Option ℕ) : BlockInv (s.resetSubscriber self) := by
  cases hr : s.reset with
  | some x =>
    cases self with
    | some i =>
      simp only [State.resetSubscriber, hr]
      exact h.detach i
    | none =>
      simp only [State.resetSubscriber, hr]
      exact h
  | none =>
    cases self with
    | some i =>
      simp only [State.resetSubscriber, hr]
      exact h.startReset hr _ fun j hj => (JsSet.mem_delete.1 hj).2
    | none =>
      simp only [State.resetSubscriber, hr]
      exact h.startReset hr s.inFlight fun j hj => hj

theorem resetSubscriber_facts (s : State H) (self : Option ℕ) :
    (s.resetSubscriber self).chains = s.chains ∧ (s.resetSubscriber self).outcomes = s.outcomes ∧
      (s.resetSubscriber self).reset.isSome = true := by
  cases hr : s.reset <;> cases self <;> simp [resetSubscriber, detach, hr]

theorem BlockInv.handOff (h : BlockInv s) (ho : s.ops[i]? = some o) (hrun : o.phase.isRunning = true) :
    BlockInv (s.handOff i) := by
  have hh := h.lanes.head i o ho hrun
  obtain ⟨hchains, houtcomes, hsome⟩ := resetSubscriber_facts s (some i)
  -- the operation is detached, or the reset has left it out
  obtain ⟨x, hx, hp, hch, hd⟩ : ∃ x, (s.resetSubscriber (some i)).ops[i]? = some x ∧ x.phase = o.phase ∧
      x.channel = o.channel ∧
      ∀ ops, (s.resetSubscriber (some i)).reset = some (.draining ops) → i ∈ ops → x.detached = true := by
    cases hr : s.reset with
    | some y =>
      obtain ⟨x, hx, hp, hch, -, hd⟩ := get_detach (i := i) ho
      refine ⟨x, ?_, hp, hch, fun _ _ _ => hd (.inr rfl)⟩
      simpa only [State.resetSubscriber, hr] using hx
    | none =>
      refine ⟨o, ?_, rfl, rfl, ?_⟩
      · simpa only [State.resetSubscriber, hr] using ho
      · intro ops hops hi
        simp only [State.resetSubscriber, hr, Option.some.injEq, Reset.draining.injEq] at hops
        rw [← hops] at hi
        exact absurd rfl (JsSet.mem_delete.1 hi).1
  refine (h.resetSubscriber (some i)).goOn hx ?_ ?_ rfl ?_ (fun ops hr hi _ => hd ops hr hi)
    (s.resetSubscriber (some i)).inFlight fun j hj => .inr hj
  · rw [hchains, hch]
    exact hh
  · rw [hp]
    exact isChained_of_running hrun
  · intro r hr
    simp only [Phase.awaited, Option.some.injEq] at hr
    exact ⟨by rw [houtcomes, hr], hsome⟩

/-- the loop of the barrier, for an operation outside of the chains -/
theorem BlockInv.awaitResetBarrier (h : BlockInv s) (ho : s.ops[i]? = some o) (hc : o.phase.isChained = false)
    (hs : o.phase ≠ .settled) : BlockInv (s.awaitResetBarrier i) := by
  unfold State.awaitResetBarrier
  split_ifs with hr hpend
  · refine h.idle ho hc hs rfl fun r h => ?_
    simp only [Phase.awaited, Option.some.injEq] at h
    exact ⟨h.symm, hr⟩
  · obtain ⟨-, houtcomes, hsome⟩ := resetSubscriber_facts s none
    have hnone : s.reset = none := by simpa using hr
    refine (h.resetSubscriber none).idle (o := o) ?_ hc hs rfl fun r h => ?_
    · simpa only [State.resetSubscriber, hnone] using ho
    · simp only [Phase.awaited, Option.some.injEq] at h
      exact ⟨by rw [houtcomes, h], hsome⟩
  · exact h.idle ho hc hs rfl fun r h => by cases h

/-- the rebuild goes on, or the reset ends -/
theorem BlockInv.rebuilding (h : BlockInv s) (hops : t.ops = s.ops) (hchains : t.chains = s.chains)
    (hflight : t.inFlight = s.inFlight) (hdrain : ∀ ops, t.reset ≠ some (.draining ops))
    (hend : t.outcomes = s.outcomes ∧ t.reset.isSome = true ∨ ∃ b, t.outcomes = s.outcomes ++ [b]) : BlockInv t where
  lanes := h.lanes.congr hops hchains
  awaits j x r hx ha := by
    rw [hops] at hx
    have hold := h.awaits j x r hx ha
    rcases hend with ⟨hout, hsome⟩ | ⟨b, hout⟩
    · rw [hout]
      exact hold.imp_right fun h => ⟨h.1, hsome⟩
    · rw [hout, List.length_append, List.length_singleton]
      exact .inl (by omega)
  inFlight j hj := by
    rw [hflight] at hj
    rw [hops]
    exact h.inFlight j hj
  drain ops hr := absurd hr (hdrain ops)

theorem BlockInv.visitNext (h : BlockInv s) (visited : List String) (sub : ℕ) : BlockInv (s.visitNext visited sub) := by
  unfold State.visitNext
  split
  · exact h.rebuilding rfl rfl rfl (fun ops hr => by cases hr) (.inl ⟨rfl, rfl⟩)
  · exact h.rebuilding rfl rfl rfl (fun ops hr => by cases hr) (.inr ⟨true, rfl⟩)

theorem BlockInv.enter (h : BlockInv s) (kind : Kind) (channel : String) (handler : H) :
    BlockInv (s.enter kind channel handler) := by
  unfold State.enter
  have hnew : (s.ops ++ [Op.mk kind channel handler .admitted false])[s.ops.length]? =
      some (Op.mk kind channel handler .admitted false) := by simp
  have hold : ∀ (j : ℕ) (x : Op H), (s.ops ++ [Op.mk kind channel handler .admitted false])[j]? = some x →
      s.ops[j]? = some x ∨ x.phase = .admitted := by
    intro j x hx
    rw [List.getElem?_append] at hx
    split_ifs at hx
    · exact .inl hx
    · right
      have hmem := List.mem_of_getElem? hx
      rw [List.mem_singleton.1 hmem]
  have hkeep : ∀ (j : ℕ) (x : Op H), s.ops[j]? = some x →
      (s.ops ++ [Op.mk kind channel handler .admitted false])[j]? = some x := by
    intro j x hx
    rw [List.getElem?_append_left (List.getElem?_eq_some_iff.1 hx).1]
    exact hx
  refine BlockInv.awaitResetBarrier (o := Op.mk kind channel handler .admitted false)
    ⟨⟨?_, ?_, ?_, ?_⟩, ?_, ?_, ?_⟩ hnew rfl (by simp)
  · intro j x hx hr
    rcases hold j x hx with hx' | ha
    · exact h.lanes.head j x hx' hr
    · rw [ha] at hr
      cases hr
  · intro j x hx hc
    rcases hold j x hx with hx' | ha
    · exact h.lanes.member j x hx' hc
    · rw [ha] at hc
      cases hc
  · intro ch j hj
    obtain ⟨x, hx, hrest⟩ := h.lanes.sound ch j hj
    exact ⟨x, hkeep j x hx, hrest⟩
  · exact h.lanes.nodup
  · intro j x r hx hr
    rcases hold j x hx with hx' | ha
    · exact h.awaits j x r hx' hr
    · rw [ha] at hr
      cases hr
  · intro j hj
    obtain ⟨x, hx, hr⟩ := h.inFlight j hj
    exact ⟨x, hkeep j x hx, hr⟩
  · intro ops hr j hj
    obtain ⟨x, hx, hor⟩ := h.drain ops hr j hj
    exact ⟨x, hkeep j x hx, hor⟩

/-! ### What an operation does -/

theorem frame_takeEffect (s : State H) (conn : ℕ) (channel : String) (on : Bool) (r : Reply) :
    Frame s (s.takeEffect conn channel on r) := by
  refine ⟨?_, ?_, ?_, ?_, ?_, fun ops => ?_⟩ <;> simp

theorem frame_ensureSubscriber (s : State H) : Frame s s.ensureSubscriber.1 := by
  unfold ensureSubscriber
  split
  · exact .refl s
  · exact ⟨rfl, rfl, rfl, rfl, rfl, fun _ => Iff.rfl⟩

/-- an operation of a chain goes on to a Redis call, or settles -/
inductive Goes (s : State H) (i : ℕ) (o : Op H) : State H → Prop
  | call {t : State H} (p : Phase) (hp : p.isRunning = true) (ha : p.awaited = none) (hf : Frame (s.setPhase i p) t) :
      Goes s i o t
  | finish {t : State H} (hf : Frame (s.finish i o) t) : Goes s i o t

theorem goes_issue (hf : Frame s t) (i conn : ℕ) (o : Op H) (p : Call → Phase) (hp : ∀ c, (p c).isRunning = true)
    (ha : ∀ c, (p c).awaited = none) : Goes s i o (t.issue i conn p) := by
  have hcall : Frame t { t with issued := t.issued + 1 } := ⟨rfl, rfl, rfl, rfl, rfl, fun _ => Iff.rfl⟩
  exact .call (p ⟨conn, t.issued⟩) (hp _) (ha _) ((hf.trans hcall).setPhase i _)

theorem BlockInv.goes (h : BlockInv s) (ho : s.ops[i]? = some o) (hh : (s.chains o.channel).head? = some i)
    (hc : o.phase.isChained = true) (f : JsSet ℕ) (hf : ∀ j ∈ f.elems, j = i ∨ j ∈ s.inFlight.elems)
    (hg : Goes { s with inFlight := f } i o t) : BlockInv t := by
  cases hg with
  | call p hp ha hframe =>
    refine (h.goOn ho hh hc hp ?_ ?_ f hf).frame hframe
    · intro r hr
      rw [ha] at hr
      cases hr
    · intro ops _ _ hsome
      rw [ha] at hsome
      cases hsome
  | finish hframe => exact (h.finish ho hh f hf).frame hframe

theorem goes_reconcile (hf : Frame s t) (i : ℕ) (o : Op H) : Goes s i o (t.reconcileAfterFailedSubscribe i o) := by
  unfold reconcileAfterFailedSubscribe
  split_ifs
  · exact .finish (hf.finish i o)
  · split
    · exact .finish (hf.finish i o)
    · exact goes_issue hf i _ o _ (fun _ => rfl) fun _ => rfl

theorem running_of_call (hc : p.call.isSome = true) : p.isRunning = true := by
  cases p <;> first | rfl | cases hc

theorem blockInv_init : BlockInv (init : State H) :=
  ⟨⟨by simp [init], by simp [init], by simp [init], by simp [init]⟩, by simp [init],
    by simp [init, JsSet.empty], by simp [init]⟩

section Steps

variable [DecidableEq H]

theorem frame_removeHandler (s : State H) (channel : String) (handler : H) :
    Frame s (s.removeHandler channel handler).1 := by
  unfold removeHandler
  split
  · exact .refl s
  · split_ifs
    · refine ⟨rfl, rfl, rfl, rfl, by simp [dropEntry], fun ops => ?_⟩
      cases hr : s.reset with
      | none => simp [dropEntry, hr]
      | some x => cases x <;> simp [dropEntry, hr, Reset.forget]
    · exact ⟨rfl, rfl, rfl, rfl, rfl, fun _ => Iff.rfl⟩
    · exact .refl s

theorem goes_runInFlight (s : State H) (i : ℕ) (o : Op H) :
    Goes { s with inFlight := s.inFlight.add i } i o (s.runInFlight i o) := by
  unfold runInFlight
  generalize { s with inFlight := s.inFlight.add i } = u
  cases o.kind with
  | subscribe =>
    simp only [doSubscribe]
    have hf : Frame u { u.ensureSubscriber.1 with
        handlers := u.ensureSubscriber.1.handlers.set o.channel
          ((u.ensureSubscriber.1.handlers.get o.channel).getD [] ++ [o.handler]) } :=
      (frame_ensureSubscriber u).trans ⟨rfl, rfl, rfl, rfl, rfl, fun _ => Iff.rfl⟩
    split_ifs
    · exact .finish (hf.finish i o)
    · exact goes_issue hf i _ o _ (fun _ => rfl) fun _ => rfl
  | unsubscribe =>
    simp only [doUnsubscribe]
    have hf := frame_removeHandler u o.channel o.handler
    split_ifs
    · exact .finish (hf.finish i o)
    · split
      · exact .finish (hf.finish i o)
      · exact goes_issue hf i _ o _ (fun _ => rfl) fun _ => rfl

/-- a reply that does not end the call's operation, or hand it off, leaves it on another call -/
theorem goes_replied (s : State H) (i : ℕ) (o : Op H) (r : Reply) (hc : o.phase.call.isSome = true) :
    Goes s i o (s.replied i o r) ∨ Frame (s.handOff i) (s.replied i o r) := by
  cases hp : o.phase with
  | subscribing c =>
    have hf := frame_takeEffect s c.conn o.channel true r
    simp only [replied, hp]
    split_ifs
    · exact .inl (.finish (hf.finish i o))
    · exact .inl (goes_reconcile (hf.trans (frame_removeHandler _ _ _)) i o)
  | reconciling c attempt =>
    have hf := frame_takeEffect s c.conn o.channel false r
    simp only [replied, hp]
    split_ifs
    · exact .inl (.finish (hf.finish i o))
    · exact .inl (goes_issue hf i _ o _ (fun _ => rfl) fun _ => rfl)
    · exact .inr (hf.handOff i)
  | unsubscribing c =>
    have hf := frame_takeEffect s c.conn o.channel false r
    simp only [replied, hp]
    split_ifs
    · exact .inl (.finish (hf.finish i o))
    · exact .inr (hf.handOff i)
  | _ => simp [hp, Phase.call] at hc

theorem BlockInv.resume (h : BlockInv s) (ho : s.ops[i]? = some o) (hrun : s.canRun (.op i) = true) :
    BlockInv (s.resume i o) := by
  simp only [canRun, ho] at hrun
  unfold State.resume
  cases hp : o.phase with
  | atBarrier r =>
    have hc : o.phase.isChained = false := by rw [hp]; rfl
    have hs : o.phase ≠ .settled := by rw [hp]; simp
    simp only
    split_ifs
    · exact h.awaitResetBarrier ho hc hs
    · exact h.idle ho hc hs rfl fun r hr => by cases hr
  | admitted => exact h.chain ho (by rw [hp]; rfl) (by rw [hp]; simp)
  | queued =>
    simp only [hp, decide_eq_true_eq] at hrun
    refine h.goes ho hrun (by rw [hp]; rfl) _ (fun j hj => ?_) (goes_runInFlight s i o)
    exact JsSet.mem_add.1 hj
  | handedOff r =>
    have hh := h.lanes.head i o ho (by rw [hp]; rfl)
    exact h.finish ho hh s.inFlight fun j hj => .inr hj
  | _ => exact h

theorem BlockInv.step (h : BlockInv s) (e : Event H) : BlockInv (s.step e) := by
  cases e with
  | call kind channel handler => exact h.enter kind channel handler
  | run x =>
    simp only [State.step]
    split_ifs with hrun
    · cases x with
      | op i =>
        simp only
        split
        · exact h.resume ‹_› hrun
        · exact h
      | reset =>
        have hmint : Frame s s.mint := ⟨rfl, rfl, rfl, rfl, rfl, fun _ => Iff.rfl⟩
        exact (h.frame hmint).visitNext [] s.minted
    · exact h
  | reply x r =>
    cases x with
    | op i =>
      simp only [State.step]
      split
      · rename_i o ho
        split_ifs with hc
        · have hcall : o.phase.call.isSome = true := by
            cases hp : o.phase.call with
            | some c => rfl
            | none => simp [hp] at hc
          have hrun := running_of_call hcall
          have hh := h.lanes.head i o ho hrun
          rcases goes_replied s i o r hcall with hg | hf
          · exact h.goes ho hh (isChained_of_running hrun) s.inFlight (fun j hj => .inr hj) hg
          · exact (h.handOff ho hrun).frame hf
        · exact h
      · exact h
    | reset =>
      simp only [State.step]
      split
      · rename_i visited channel c hr
        split_ifs
        · exact (h.frame (frame_takeEffect s c.conn channel true r)).visitNext visited c.conn
        · have hf := frame_takeEffect s c.conn channel true r
          exact h.rebuilding hf.ops hf.chains hf.inFlight (fun ops hr => by cases hr)
            (.inr ⟨false, congrArg (· ++ [false]) hf.outcomes⟩)
        · exact h
      · exact h

theorem run_blockInv (es : List (Event H)) : BlockInv (run step init es) :=
  run_inv step (fun _ _ => True) BlockInv (fun _ e _ h => h.step e) init es (along_true _ _ _) blockInv_init

end Steps

/-! ### Who waits -/

/-- an operation goes on once the reset that it awaits has ended -/
theorem canRun_of_ended {r : ℕ} (ho : s.ops[i]? = some o) (hr : o.phase.awaited = some r)
    (he : s.ended r = true) : s.canRun (.op i) = true := by
  simp only [canRun, ho]
  cases hp : o.phase with
  | atBarrier k =>
    simp only [hp, Phase.awaited, Option.some.injEq] at hr
    simpa [hr] using he
  | handedOff k =>
    simp only [hp, Phase.awaited, Option.some.injEq] at hr
    simpa [hr] using he
  | _ => simp [hp, Phase.awaited] at hr

theorem call_of_calls_nil (hc : s.calls = []) (ho : s.ops[i]? = some o) : o.phase.call = none := by
  have hops := (List.append_eq_nil_iff.1 hc).1
  rw [List.filterMap_eq_nil_iff] at hops
  exact hops o (List.mem_of_getElem? ho)

/-- with no Redis call out, what a drain waits for is handed off to an earlier reset -/
theorem BlockInv.drain_canRun (h : BlockInv s) (hc : s.calls = []) (hw : Waits s .reset (.op i)) :
    s.canRun (.op i) = true := by
  cases hw with
  | drain hr hi ho hd hs =>
    obtain ⟨x, hx, hor⟩ := h.drain _ hr i hi
    obtain rfl := Option.some.inj (ho.symm.trans hx)
    obtain ⟨hrun, hoff⟩ := hor.resolve_left hs
    have hcall := call_of_calls_nil hc ho
    rename_i x _
    cases hp : x.phase with
    | handedOff r =>
      have hr' : x.phase.awaited = some r := by rw [hp]; rfl
      rcases h.awaits i x r ho hr' with hlt | ⟨rfl, -⟩
      · exact canRun_of_ended ho hr' (decide_eq_true hlt)
      · have hdet := hoff hp
        rw [hd] at hdet
        cases hdet
    | subscribing c => simp [hp, Phase.call] at hcall
    | reconciling c a => simp [hp, Phase.call] at hcall
    | unsubscribing c => simp [hp, Phase.call] at hcall
    | _ => simp [hp, Phase.isRunning] at hrun

theorem BlockInv.reset_unblocked (h : BlockInv s) (hc : s.calls = []) (hsome : s.reset.isSome = true) :
    ∃ x, Relation.ReflTransGen (Waits s) .reset x ∧ s.canRun x = true := by
  obtain ⟨x, hx⟩ := Option.isSome_iff_exists.1 hsome
  cases x with
  | rebuilding visited channel c =>
    have hcall := (List.append_eq_nil_iff.1 hc).2
    simp [hx, Reset.call] at hcall
  | draining ops =>
    by_cases hd : s.drained ops = true
    · exact ⟨.reset, .refl, by simpa [canRun, hx] using hd⟩
    · simp only [drained, List.all_eq_true, not_forall] at hd
      obtain ⟨i, hi, hwait⟩ := hd
      obtain ⟨o, ho, -⟩ := h.drain ops hx i hi
      simp only [ho, Option.all_some, Bool.or_eq_true, decide_eq_true_eq, not_or, Bool.not_eq_true] at hwait
      have hw : Waits s .reset (.op i) := .drain hx hi ho hwait.1 hwait.2
      exact ⟨.op i, .single hw, h.drain_canRun hc hw⟩

/-- whoever awaits a reset -/
theorem BlockInv.awaiting_unblocked {r : ℕ} (h : BlockInv s) (hc : s.calls = []) (ho : s.ops[i]? = some o)
    (hr : o.phase.awaited = some r) : ∃ x, Relation.ReflTransGen (Waits s) (.op i) x ∧ s.canRun x = true := by
  rcases h.awaits i o r ho hr with hlt | ⟨rfl, hsome⟩
  · exact ⟨.op i, .refl, canRun_of_ended ho hr (decide_eq_true hlt)⟩
  · obtain ⟨x, hx, hcan⟩ := h.reset_unblocked hc hsome
    exact ⟨x, .head (.barrier ho hr (by simp [ended])) hx, hcan⟩

/-- **No operation is stuck.** With no Redis call out, an operation that has not settled waits, through others, for a
party that can run. -/
theorem BlockInv.unblocked (h : BlockInv s) (hc : s.calls = []) (ho : s.ops[i]? = some o) (hs : o.phase ≠ .settled) :
    ∃ x, Relation.ReflTransGen (Waits s) (.op i) x ∧ s.canRun x = true := by
  have hcall := call_of_calls_nil hc ho
  cases hp : o.phase with
  | atBarrier r => exact h.awaiting_unblocked (r := r) hc ho (by rw [hp]; rfl)
  | handedOff r => exact h.awaiting_unblocked (r := r) hc ho (by rw [hp]; rfl)
  | admitted => exact ⟨.op i, .refl, by simp [canRun, ho, hp]⟩
  | queued =>
    have hmem := h.lanes.member i o ho (by rw [hp]; rfl)
    cases hchain : s.chains o.channel with
    | nil => simp [hchain] at hmem
    | cons j rest =>
      have hhead : (s.chains o.channel).head? = some j := by rw [hchain]; rfl
      by_cases hij : j = i
      · exact ⟨.op i, .refl, by simp [canRun, ho, hp, hhead, hij]⟩
      · -- the head of the chain runs, or has not started
        obtain ⟨x, hx, hxch, hxc⟩ := h.lanes.sound o.channel j (by rw [hchain]; exact List.mem_cons_self)
        have hwait : Waits s (.op i) (.op j) := .chain ho hp hhead hij
        have hxcall := call_of_calls_nil hc hx
        cases hxp : x.phase with
        | queued => exact ⟨.op j, .single hwait, by simp [canRun, hx, hxp, hxch, hhead]⟩
        | handedOff r =>
          obtain ⟨y, hy, hcan⟩ := h.awaiting_unblocked (r := r) hc hx (by rw [hxp]; rfl)
          exact ⟨y, .head hwait hy, hcan⟩
        | subscribing c => simp [hxp, Phase.call] at hxcall
        | reconciling c a => simp [hxp, Phase.call] at hxcall
        | unsubscribing c => simp [hxp, Phase.call] at hxcall
        | _ => simp [hxp, Phase.isChained, Phase.isRunning] at hxc
  | settled => exact absurd hp hs
  | subscribing c => simp [hp, Phase.call] at hcall
  | reconciling c a => simp [hp, Phase.call] at hcall
  | unsubscribing c => simp [hp, Phase.call] at hcall

/-- how far a party is from one that can run -/
def waitRank (s : State H) : Party → ℕ
  | .op i =>
    if s.canRun (.op i) then 0
    else if s.ops[i]?.any fun o => o.phase = .queued then 3
    else 2
  | .reset => 1

theorem BlockInv.waitRank_lt (h : BlockInv s) (hc : s.calls = []) {x y : Party} (hw : Waits s x y) :
    s.waitRank y < s.waitRank x := by
  cases hw with
  | barrier ho hr he =>
    rename_i i o r
    have hcan : s.canRun (.op i) = false := by
      simp only [canRun, ho]
      cases hp : o.phase <;> simp [hp, Phase.awaited] at hr ⊢ <;> rw [hr] <;> exact he
    have hq : o.phase ≠ .queued := by
      intro hp
      rw [hp] at hr
      cases hr
    simp [waitRank, hcan, ho, hq]
  | chain ho hq hj hij =>
    rename_i i j o
    have hcan : s.canRun (.op i) = false := by simp [canRun, ho, hq, hj, hij]
    have hrank : s.waitRank (.op i) = 3 := by simp [waitRank, hcan, ho, hq]
    rw [hrank]
    obtain ⟨x, hx, hxch, -⟩ := h.lanes.sound o.channel j (List.mem_of_mem_head? hj)
    by_cases hxq : x.phase = .queued
    · have hjcan : s.canRun (.op j) = true := by simp [canRun, hx, hxq, hxch, hj]
      simp [waitRank, hjcan]
    · have hnot : (s.ops[j]?.any fun o => o.phase = .queued) = false := by simp [hx, hxq]
      simp only [waitRank, hnot, Bool.false_eq_true, if_false]
      split_ifs <;> omega
  | drain hr hi ho hd hs =>
    have hcan := h.drain_canRun hc (.drain hr hi ho hd hs)
    simp [waitRank, hcan]

/-- **No circular wait.** -/
theorem BlockInv.waits_acyclic (h : BlockInv s) (hc : s.calls = []) (x : Party) :
    ¬Relation.TransGen (Waits s) x x := by
  have hlt : ∀ y, Relation.TransGen (Waits s) x y → s.waitRank y < s.waitRank x := by
    intro y hy
    induction hy with
    | single hw => exact h.waitRank_lt hc hw
    | tail _ hw ih => exact (h.waitRank_lt hc hw).trans ih
  exact fun hx => lt_irrefl _ (hlt x hx)

end Blocked

end State

end Arena.Redis.PubSub
