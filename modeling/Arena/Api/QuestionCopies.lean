/-
The copies of a match whose questions have to be covered (`executeRound`, `resumeMatchLoop`).

The used questions live in the memory of a node. While the node holds the lease, what it may still persist are
the stored log, its cached machine, its hydrations, its persist in flight and the machine of a recovery: a `Copy`.
The lease is held by a node that is setting up its loop, and all copies have asked the same (`Waiting`), or that
drives it, and its used questions cover them (`Driving`).

- `change_asked`, `change_atQuestion`: only `startRound` asks a question, and a machine waits for it;
- `LoopInv.act`: a step of one node keeps the invariant of the others;
- `background_step`, `Background.loopInv`: persists, hydrations and scripts make no new copy;
- `evict_loopInv`, `install_loopInv`: neither do evictions, which take the cached machine from the calls that hold it.
-/
import Arena.Api.QuestionLoop
import Arena.GameCore.Phases

namespace Arena.Api

open Arena.Lib Arena.Shared Arena.GameCore Arena.Redis

/-! ## The questions of one machine -/

theorem askedQuestions_append (a b : List EventLogEntry) :
    askedQuestions (a ++ b) = askedQuestions a ++ askedQuestions b := List.filterMap_append

theorem askedQuestions_noRound {es : List EventLogEntry} (h : ∀ e ∈ es, e.isRoundStarted = false) :
    askedQuestions es = [] := by
  refine List.filterMap_eq_nil_iff.2 fun e he => ?_
  have hno := h e he
  cases e with
  | mk event t n => cases event <;> first | rfl | cases hno

/-- **Only `startRound` asks a question.** -/
theorem change_asked {J : StringOps} {m m' : Machine} {o : Op} (hc : Machine.Change J m o m')
    (ho : ∀ q d now, o ≠ .startRound q d now) : askedQuestions m'.eventLog = askedQuestions m.eventLog := by
  by_cases hk : o.keepsRound = true
  · obtain ⟨es, hl⟩ := Machine.change_logs hc hk
    rw [hl.log, askedQuestions_append, askedQuestions_noRound hl.started, List.append_nil]
  · cases hc with
    | same o => rfl
    | startRound q d now _ => exact absurd rfl (ho q d now)
    | evaluated round now _ _ =>
      have hlog : (m.settle round now).eventLog = m.eventLog ++ [_] := rfl
      rw [hlog, askedQuestions_append]
      exact List.append_nil _
    | evaluateStuck round now _ _ => rfl
    | _ => exact absurd rfl hk

/-- the machine waits for its question, or is over: its round can only be started -/
def AtQuestion (m : Machine) : Prop :=
  m.state.status = .finished ∨ (m.state.status = .roundActive ∧ m.currentRound = none)

theorem change_atQuestion {J : StringOps} {m m' : Machine} {o : Op} (hc : Machine.Change J m o m')
    (ho : QuestionLoop.isOtherCall o = true) (h : AtQuestion m) : AtQuestion m' := by
  rcases h with hf | ⟨hs, hr⟩
  · exact .inl (Machine.change_finished hc hf)
  have idle : ∀ r, m.currentRound ≠ some r := fun r h => by
    rw [hr] at h
    cases h
  cases hc with
  | same o => exact .inr ⟨hs, hr⟩
  | transition target now hv =>
    rw [hs] at hv
    simp only [Machine.validTransitions, List.mem_cons, List.not_mem_nil, or_false] at hv
    rcases hv with rfl | rfl
    · cases ho
    · exact .inl rfl
  | startRound => cases ho
  | evaluated round now hround _ => exact absurd hround (idle round)
  | evaluateStuck round now hround _ => exact absurd hround (idle round)
  | answer round p a ts sid retry now hround _ _ _ _ => exact absurd hround (idle round)
  | attach round key hround _ => exact absurd hround (idle round)
  | play round p now hround _ _ => exact absurd hround (idle round)
  | winner now =>
    obtain ⟨hstate, hround, -⟩ := Machine.determineWinner_frame m now
    exact .inr ⟨by rw [hstate]; exact hs, hround.trans hr⟩
  | finish now =>
    obtain ⟨hstate, hround, -⟩ := Machine.determineWinner_frame m now
    exact .inr ⟨(congrArg MatchState.status hstate).trans hs, hround.trans hr⟩
  | initVoting c d now hcreated =>
    rw [hs] at hcreated
    cases hcreated
  | _ => exact .inr ⟨hs, hr⟩

/-- a transition to ROUND_ACTIVE drops the old round; a machine at its question does not make it again -/
theorem transition_atQuestion {J : StringOps} {m : Machine} {now : Clock}
    (h : (m.transition .roundActive now).2 = .ok ()) :
    AtQuestion (m.step J (.transition .roundActive now)) ∧ ¬AtQuestion m := by
  unfold Machine.transition at h
  split_ifs at h with hcan
  refine ⟨.inr ?_, ?_⟩
  · simp only [Machine.step, Machine.exec, Machine.transition, if_pos hcan, Outcome.wrap_fst]
    exact ⟨rfl, rfl⟩
  · rintro (hs | ⟨hs, -⟩) <;> simp [Machine.canTransition, Machine.validTransitions, hs] at hcan

theorem startRound_asked {J : StringOps} (m : Machine) (q : Machine.QuestionInput) (now : Clock) :
    askedQuestions (m.step J (.startRound q none now)).eventLog = askedQuestions m.eventLog ∨
      askedQuestions (m.step J (.startRound q none now)).eventLog = askedQuestions m.eventLog ++ [q.id] := by
  simp only [Machine.step, Machine.exec, Machine.startRound, Outcome.wrap_fst]
  split_ifs
  · exact .inl rfl
  · refine .inr ?_
    have hlog : (m.beginRound q none now).eventLog = m.eventLog ++ [_] := rfl
    rw [hlog, askedQuestions_append]
    rfl

theorem endRound_asked {J : StringOps} (m : Machine) (now : Clock) :
    askedQuestions ((m.step J (.transition .roundEvaluating now)).step J (.evaluateRound now)).eventLog =
      askedQuestions m.eventLog := by
  rw [change_asked (Machine.step_change J _ _) (by simp), change_asked (Machine.step_change J _ _) (by simp)]

/-- a machine whose round is on is not at its question -/
theorem not_atQuestion {m : Machine} (hs : m.state.status = .roundActive)
    (hr : m.currentRound.map Round.status = some .active) : ¬AtQuestion m := by
  rintro (h | ⟨-, h⟩)
  · rw [hs] at h
    cases h
  · rw [h] at hr
    cases hr

theorem rehydrated_asked (m : Machine) (key : Option String) :
    askedQuestions (Cluster.rehydrated m key).eventLog = askedQuestions m.eventLog := by
  rw [Cluster.rehydrated_eventLog]

namespace QuestionLoop

/-! ## Copies of the match -/

/-- the questions of the stored log, and of each copy at node `n` that may be persisted under the lease `e` -/
inductive Copy (s : QuestionLoop) (n : String) (e : OwnedEntry) : List String → Prop where
  | stored {b : WireMatch} (h : b ∈ s.cluster.keys.state) : Copy s n e (askedQuestions (Cluster.eventLogOf b))
  | cached {m : Machine} (h : m ∈ s.machine n) : Copy s n e (askedQuestions m.eventLog)
  | hydration {m : Machine} (h : m ∈ (s.cluster.nodes n).hydrations) : Copy s n e (askedQuestions m.eventLog)
  | persist {p : Persist} (h : p ∈ (s.cluster.nodes n).persist) (hp : p.snapshot = e) :
      Copy s n e (askedQuestions (Cluster.eventLogOf p.blob))
  | held {e' : OwnedEntry} {m : Machine} {stillOwner : Bool}
      (h : .revalidating e' (some m) stillOwner ∈ (s.runtime n).calls) : Copy s n e (askedQuestions m.eventLog)

/-- a step makes no new copy when every part it leaves is a copy from before -/
theorem Copy.of {s s' : QuestionLoop} {n : String} {e : OwnedEntry}
    (hstored : ∀ b ∈ s'.cluster.keys.state, Copy s n e (askedQuestions (Cluster.eventLogOf b)))
    (hcached : ∀ m ∈ s'.machine n, Copy s n e (askedQuestions m.eventLog))
    (hhydrations : ∀ m ∈ (s'.cluster.nodes n).hydrations, Copy s n e (askedQuestions m.eventLog))
    (hpersist : ∀ p ∈ (s'.cluster.nodes n).persist, p.snapshot = e →
      Copy s n e (askedQuestions (Cluster.eventLogOf p.blob)))
    (hheld : ∀ e' m stillOwner, .revalidating e' (some m) stillOwner ∈ (s'.runtime n).calls →
      Copy s n e (askedQuestions m.eventLog)) {qs : List String} (h : Copy s' n e qs) : Copy s n e qs := by
  cases h with
  | stored hb => exact hstored _ hb
  | cached hm => exact hcached _ hm
  | hydration hm => exact hhydrations _ hm
  | persist hp hsnap => exact hpersist _ hp hsnap
  | held hc => exact hheld _ _ _ hc

variable {J : StringOps} {s s' : QuestionLoop} {n : String} {e : OwnedEntry}

/-- the cluster is left alone but for ownership entries, and the recoveries hold what they held -/
theorem Copy.of_calls (hk : s'.cluster.keys = s.cluster.keys) (hm : s'.machine n = s.machine n)
    (hh : (s'.cluster.nodes n).hydrations = (s.cluster.nodes n).hydrations)
    (hp : (s'.cluster.nodes n).persist = (s.cluster.nodes n).persist)
    (hheld : ∀ e' m stillOwner, .revalidating e' (some m) stillOwner ∈ (s'.runtime n).calls →
      ∃ e'' was, .revalidating e'' (some m) was ∈ (s.runtime n).calls) {qs : List String} (h : Copy s' n e qs) :
    Copy s n e qs := by
  refine h.of ?_ ?_ ?_ ?_ ?_
  · rw [hk]
    exact fun b hb => .stored hb
  · rw [hm]
    exact fun m hm => .cached hm
  · rw [hh]
    exact fun m hm => .hydration hm
  · rw [hp]
    exact fun p hp hsnap => .persist hp hsnap
  · intro e' m stillOwner hc
    obtain ⟨e'', was, hold⟩ := hheld e' m stillOwner hc
    exact .held hold

/-! ## Invariant -/

/-- the holder is setting up its loop by the call `c`: every copy has asked the same -/
structure Waiting (s : QuestionLoop) (n : String) (e : OwnedEntry) (c : LoopCall) (asked : List String) : Prop where
  calls : (s.runtime n).calls = [c]
  entry : c.entry = some e
  timers : (s.runtime n).activeTimers = false
  nodup : asked.Nodup
  copies : ∀ qs, s.Copy n e qs → qs = asked
  launching : c = .launching e → asked = []
  resuming : c = .resuming e → (s.cluster.nodes n).owned = some e → asked ⊆ s.excludeIds n

/-- the used questions of a running loop cover every copy, and a fetch leaves out what its machine has asked -/
structure Covered (s : QuestionLoop) (n : String) (e : OwnedEntry) (asked : List String) : Prop where
  copies : ∀ qs, s.Copy n e qs → qs.Nodup ∧ qs ⊆ asked
  used : (s.runtime n).activeTimers = true ∨ (s.runtime n).calls ≠ [] → asked ⊆ s.excludeIds n
  fetch : ∀ ids, .getRandom true ids ∈ (s.runtime n).calls → ∀ m ∈ s.machine n,
    AtQuestion m ∧ askedQuestions m.eventLog ⊆ ids
  single : (s.runtime n).calls.countP LoopCall.isFetch ≤ 1

/-- the loop of the holder is set up, and runs or has been dropped with the ownership entry -/
structure Driving (s : QuestionLoop) (n : String) (e : OwnedEntry) : Prop where
  done : ∀ c ∈ (s.runtime n).calls, c.entry = none
  persist : ∀ p ∈ (s.cluster.nodes n).persist, p.snapshot = e →
    (askedQuestions (Cluster.eventLogOf p.blob)).Nodup
  covered : (s.cluster.nodes n).owned = some e → ∃ asked, s.Covered n e asked

/-- the used questions are set up for the lease, or being set up -/
def Sound (s : QuestionLoop) (n : String) (e : OwnedEntry) : Prop := (∃ c asked, s.Waiting n e c asked) ∨ s.Driving n e

structure LoopInv (s : QuestionLoop) : Prop where
  grants : s.cluster.GrantInv
  stored : s.AskedOnce
  holder : ∀ n e, s.cluster.Holds n e → s.Sound n e

/-! ## Frames -/

@[simp] theorem setRuntime_self (s : QuestionLoop) (n : String) (r : Runtime) : (s.setRuntime n r).runtime n = r := by
  simp [setRuntime]

theorem setRuntime_ne (s : QuestionLoop) {n k : String} (h : k ≠ n) (r : Runtime) :
    (s.setRuntime n r).runtime k = s.runtime k := by simp [setRuntime, h]

@[simp] theorem setRuntime_cluster (s : QuestionLoop) (n : String) (r : Runtime) :
    (s.setRuntime n r).cluster = s.cluster := rfl

@[simp] theorem withCluster_cluster (s : QuestionLoop) (c : Cluster) : (s.withCluster c).cluster = c := rfl

@[simp] theorem withCluster_runtime (s : QuestionLoop) (c : Cluster) : (s.withCluster c).runtime = s.runtime := rfl

/-- the runtime of the node is the same, and no copy is new -/
theorem Waiting.same {c : LoopCall} {asked : List String} (h : s.Waiting n e c asked) (hr : s'.runtime n = s.runtime n)
    (ho : (s'.cluster.nodes n).owned = some e → (s.cluster.nodes n).owned = some e)
    (hcopy : ∀ qs, s'.Copy n e qs → s.Copy n e qs) : s'.Waiting n e c asked := by
  refine ⟨hr ▸ h.calls, h.entry, hr ▸ h.timers, h.nodup, fun qs hqs => h.copies qs (hcopy qs hqs), h.launching, ?_⟩
  unfold excludeIds
  rw [hr]
  exact fun hc hown => h.resuming hc (ho hown)

/-- what a step may do to the machine of a running loop and to its persist -/
structure KeepsDrive (s s' : QuestionLoop) (n : String) (e : OwnedEntry) : Prop where
  copy : ∀ qs, s'.Copy n e qs → s.Copy n e qs
  owned : (s'.cluster.nodes n).owned = some e → (s.cluster.nodes n).owned = some e
  machine : ∀ m' ∈ s'.machine n, ∃ m ∈ s.machine n, askedQuestions m'.eventLog = askedQuestions m.eventLog ∧
    (AtQuestion m → AtQuestion m')
  /-- a new persist is one of the owner -/
  persist : ∀ p' ∈ (s'.cluster.nodes n).persist, p'.snapshot = e →
    (∃ p ∈ (s.cluster.nodes n).persist, p.snapshot = e ∧ p'.blob = p.blob) ∨ (s.cluster.nodes n).owned = some e

theorem Driving.same (h : s.Driving n e) (hr : s'.runtime n = s.runtime n) (hk : s.KeepsDrive s' n e) :
    s'.Driving n e := by
  refine ⟨hr ▸ h.done, ?_, ?_⟩
  · intro p' hp' hsnap
    rcases hk.persist p' hp' hsnap with ⟨p, hp, hpe, hblob⟩ | howned
    · rw [hblob]
      exact h.persist p hp hpe
    · obtain ⟨asked, hc⟩ := h.covered howned
      exact (hc.copies _ (hk.copy _ (.persist hp' hsnap))).1
  · intro howned
    obtain ⟨asked, hc⟩ := h.covered (hk.owned howned)
    refine ⟨asked, fun qs hqs => hc.copies qs (hk.copy qs hqs), ?_, ?_, hr ▸ hc.single⟩
    · unfold excludeIds
      rw [hr]
      exact hc.used
    · intro ids hids m' hm'
      obtain ⟨m, hm, hasked, hat⟩ := hk.machine m' hm'
      obtain ⟨hatm, hsub⟩ := hc.fetch ids (hr ▸ hids) m hm
      exact ⟨hat hatm, hasked ▸ hsub⟩

theorem Sound.same (h : s.Sound n e) (hr : s'.runtime n = s.runtime n) (hk : s.KeepsDrive s' n e) : s'.Sound n e := by
  rcases h with ⟨c, asked, hw⟩ | hd
  · exact .inl ⟨c, asked, hw.same hr hk.owned hk.copy⟩
  · exact .inr (hd.same hr hk)

/-- a step of node `n` that stores nothing and takes no lease -/
theorem LoopInv.act (h : s.LoopInv) (n : String) (hg : s'.cluster.GrantInv)
    (hstate : ∀ b ∈ s'.cluster.keys.state, b ∈ s.cluster.keys.state)
    (hholds : ∀ k e, s'.cluster.Holds k e → s.cluster.Holds k e)
    (hothers : ∀ k, k ≠ n → s'.cluster.nodes k = s.cluster.nodes k ∧ s'.runtime k = s.runtime k)
    (hsound : ∀ e, s.Sound n e → s'.Sound n e) : s'.LoopInv := by
  refine ⟨hg, fun b hb => h.stored b (hstate b hb), fun k e hke => ?_⟩
  have hold := h.holder k e (hholds k e hke)
  by_cases hkn : k = n
  · rw [hkn] at hold ⊢
    exact hsound e hold
  obtain ⟨hnode, hrun⟩ := hothers k hkn
  have hmachine : s'.machine k = s.machine k := congrArg Node.machine hnode
  have hcopy : ∀ qs, s'.Copy k e qs → s.Copy k e qs := by
    intro qs hqs
    refine hqs.of (fun b hb => .stored (hstate b hb)) ?_ ?_ ?_ ?_
    · rw [hmachine]
      exact fun m hm => .cached hm
    · rw [hnode]
      exact fun m hm => .hydration hm
    · rw [hnode]
      exact fun p hp hsnap => .persist hp hsnap
    · rw [hrun]
      exact fun e' m o hc => .held hc
  refine hold.same hrun ⟨hcopy, fun ho => hnode ▸ ho, ?_, ?_⟩
  · rw [hmachine]
    exact fun m hm => ⟨m, hm, rfl, id⟩
  · rw [hnode]
    exact fun p hp hsnap => .inl ⟨p, hp, hsnap, rfl⟩

/-! ## Steps of the cluster -/

/-- what a background step does to the node it is a step of -/
structure Background (c c' : Cluster) (n : String) : Prop where
  others : ∀ k, k ≠ n → c'.nodes k = c.nodes k
  machine : (c'.nodes n).machine = (c.nodes n).machine
  owned : (c'.nodes n).owned = (c.nodes n).owned
  holds : ∀ k e, c'.Holds k e → c.Holds k e
  hydrations : ∀ m ∈ (c'.nodes n).hydrations, m ∈ (c.nodes n).hydrations ∨
    ∃ b ∈ c.keys.state, m.eventLog = Cluster.eventLogOf b
  persist : ∀ p' ∈ (c'.nodes n).persist, (∃ p ∈ (c.nodes n).persist, p.snapshot = p'.snapshot ∧ p'.blob = p.blob) ∨
    ((c.nodes n).owned = some p'.snapshot ∧ ∃ m ∈ (c.nodes n).machine, p'.blob = m.serialize)
  state : ∀ b ∈ c'.keys.state, b ∈ c.keys.state ∨
    ∃ p ∈ (c.nodes n).persist, c.Holds n p.snapshot ∧ b = p.blob

theorem Background.refl (c : Cluster) (n : String) : Background c c n where
  others := fun _ _ => rfl
  machine := rfl
  owned := rfl
  holds := fun _ _ h => h
  hydrations := fun _ h => .inl h
  persist := fun p hp => .inl ⟨p, hp, rfl, rfl⟩
  state := fun _ h => .inl h

/-- the node is replaced, and the stored blob -/
theorem Background.setNode {c : Cluster} {n : String} (k : Keys WireMatch) (node : Node)
    (howner : k.owner = c.keys.owner) (hfence : k.fence = c.keys.fence) (hg : node.granted = (c.nodes n).granted)
    (hm : node.machine = (c.nodes n).machine) (ho : node.owned = (c.nodes n).owned)
    (hh : ∀ m ∈ node.hydrations, m ∈ (c.nodes n).hydrations ∨ ∃ b ∈ c.keys.state, m.eventLog = Cluster.eventLogOf b)
    (hp : ∀ p' ∈ node.persist, (∃ p ∈ (c.nodes n).persist, p.snapshot = p'.snapshot ∧ p'.blob = p.blob) ∨
      ((c.nodes n).owned = some p'.snapshot ∧ ∃ m ∈ (c.nodes n).machine, p'.blob = m.serialize))
    (hs : ∀ b ∈ k.state, b ∈ c.keys.state ∨ ∃ p ∈ (c.nodes n).persist, c.Holds n p.snapshot ∧ b = p.blob) :
    Background c (Cluster.setNode { c with keys := k } n node) n := by
  have hself : (Cluster.setNode { c with keys := k } n node).nodes n = node := by
    rw [Cluster.setNode_nodes, if_pos rfl]
  refine ⟨?_, ?_, ?_, ?_, ?_, ?_, hs⟩
  · intro j hj
    rw [Cluster.setNode_nodes, if_neg hj]
  · rw [hself, hm]
  · rw [hself, ho]
  · intro j e he
    refine ⟨?_, howner ▸ he.2.1, hfence ▸ he.2.2⟩
    have hgranted := he.1
    rw [Cluster.setNode_nodes] at hgranted
    split_ifs at hgranted with hj
    · rw [hj, ← hg]
      exact hgranted
    · exact hgranted
  · rw [hself]
    exact hh
  · rw [hself]
    exact hp

/-- the CAS of a persist in flight stores the blob of the holder, or nothing -/
theorem casReply_state {c : Cluster} (h : c.GrantInv) {n : String} {p : Persist} {r : ℕ}
    (hp : p ∈ (c.nodes n).persist) :
    ∀ b ∈ (c.casReply p r).1.state,
      b ∈ c.keys.state ∨ ∃ p ∈ (c.nodes n).persist, c.Holds n p.snapshot ∧ b = p.blob := by
  intro b hb
  cases happ : (c.casReply p r).2 with
  | false =>
    have hk : (c.casReply p r).1 = c.keys := Keys.fencedStateSet_retry happ
    rw [hk] at hb
    exact .inl hb
  | true =>
    obtain ⟨ho, hf, -, -, hk⟩ := Keys.fencedStateSet_applied happ
    have hkeys : (c.casReply p r).1.state = some p.blob := congrArg Keys.state hk
    rw [hkeys] at hb
    exact .inr ⟨p, hp, ⟨h.snapshot n p hp, ho, hf⟩, (Option.mem_some_iff.1 hb).symm⟩

theorem background_casEnds {c : Cluster} (h : c.GrantInv) {n : String} {p : Persist} (r : ℕ)
    (hp : p ∈ (c.nodes n).persist) (revision : Option (ℕ × ℕ)) :
    Background c (Cluster.setNode { c with keys := (c.casReply p r).1 } n
      { c.nodes n with persist := none, revision := revision }) n :=
  Background.setNode _ _ (Cluster.casReply_keys c p r).1 (Cluster.casReply_keys c p r).2 rfl rfl rfl
    (fun _ hm => .inl hm) (fun _ hp' => absurd hp' (by simp)) (casReply_state h hp)

/-- scripts of other callers leave the nodes alone, and grant nothing -/
theorem background_redis {c : Cluster} (h : c.GrantInv) (call : Call WireMatch) (n : String) :
    Background c (c.redis call) n := by
  unfold Cluster.redis
  split_ifs with hc
  · refine ⟨fun _ _ => rfl, rfl, rfl, ?_, fun _ hm => .inl hm, fun p hp => .inl ⟨p, hp, rfl, rfl⟩, ?_⟩
    · intro k e he
      have beyond : ∀ f, c.keys.fence.getD 0 < f → (c.keys.step call).fence = some f → False := by
        intro f hf hk
        have hbound := h.bounded k e he.1
        obtain rfl : f = e.1 := Option.some.inj (hk.symm.trans he.2.2)
        omega
      have hch := Store.step_ownerChange ⟨c.keys, []⟩ call
      generalize hs' : Store.step ⟨c.keys, []⟩ call = s' at hch
      have hkeys : c.keys.step call = s'.keys := congrArg Store.keys hs'
      cases hch with
      | kept k' ho hf =>
        have howner : k'.owner = some e.2 := (congrArg Keys.owner hkeys).symm.trans he.2.1
        have hfence : k'.fence = some e.1 := (congrArg Keys.fence hkeys).symm.trans he.2.2
        refine ⟨he.1, ?_, hf.symm.trans hfence⟩
        rcases ho with ho | ho
        · exact ho.symm.trans howner
        · rw [ho] at howner
          cases howner
      | claimed k' node f hn ho hf => exact (beyond f hn (hkeys ▸ hf)).elim
      | fencedOut k' f hn ho hf => exact (beyond f hn (hkeys ▸ hf)).elim
    · exact fun b hb => .inl (Cluster.otherScript_state hc b hb)
  · exact .refl c n

/-- **Background steps**: a hydration decodes the stored blob, a persist takes the cached machine under the entry,
and only the blob of the holder is stored. -/
theorem background_step (J : StringOps) {c : Cluster} (h : c.GrantInv) (o : Cluster.LossyOp)
    (ho : isBackground o = true) :
    ∃ n, Background c (c.lossyStep J o) n := by
  have same : ∀ n node, node.granted = (c.nodes n).granted → node.machine = (c.nodes n).machine →
      node.owned = (c.nodes n).owned → node.hydrations = (c.nodes n).hydrations → node.persist = (c.nodes n).persist →
      Background c (c.setNode n node) n := by
    intro n node hg hm hown hh hp
    refine Background.setNode c.keys node rfl rfl hg hm hown ?_ ?_ fun _ hb => .inl hb
    · rw [hh]
      exact fun _ hm => .inl hm
    · rw [hp]
      exact fun p hp => .inl ⟨p, hp, rfl, rfl⟩
  cases o with
  | failCall n =>
    refine ⟨n, Background.setNode c.keys _ rfl rfl rfl rfl rfl (fun _ hm => .inl hm) ?_ fun _ hb => .inl hb⟩
    exact fun p hp => absurd hp (by simp)
  | loseReply n =>
    refine ⟨n, ?_⟩
    simp only [Cluster.lossyStep, Cluster.loseReply]
    split
    · rename_i p hp
      split
      · exact .refl c n
      · exact background_casEnds h _ hp _
    · exact .refl c n
  | op o =>
    cases o with
    | redis call => exact ⟨"", background_redis h call ""⟩
    | getStateMachine n =>
      refine ⟨n, ?_⟩
      simp only [Cluster.lossyStep, Cluster.step, Cluster.getStateMachine]
      split
      · exact .refl c n
      · exact same n _ rfl rfl rfl rfl rfl
    | readState n =>
      refine ⟨n, ?_⟩
      simp only [Cluster.lossyStep, Cluster.step, Cluster.readState]
      split_ifs
      · exact .refl c n
      · split
        · exact same n _ rfl rfl rfl rfl rfl
        · rename_i blob hblob
          split
          · exact same n _ rfl rfl rfl rfl rfl
          · rename_i m hm
            refine Background.setNode c.keys _ rfl rfl rfl rfl rfl ?_ (fun p hp => .inl ⟨p, hp, rfl, rfl⟩)
              fun _ hb => .inl hb
            intro m' hm'
            rcases List.mem_append.1 hm' with hm' | hm'
            · exact .inl hm'
            · rw [List.mem_singleton.1 hm']
              exact .inr ⟨blob, hblob, (Machine.deserialize_decoded hm).1⟩
    | dropCorrupt n =>
      refine ⟨n, ?_⟩
      simp only [Cluster.lossyStep, Cluster.step, Cluster.dropCorrupt]
      split_ifs
      · exact .refl c n
      · exact Background.setNode { c.keys with state := none } _ rfl rfl rfl rfl rfl (fun _ hm => .inl hm)
          (fun p hp => .inl ⟨p, hp, rfl, rfl⟩) fun b hb => absurd hb (by simp)
    | persistStateMachine n =>
      refine ⟨n, ?_⟩
      simp only [Cluster.lossyStep, Cluster.step, Cluster.persistStateMachine]
      split
      · rename_i m snapshot _ hm hown
        refine Background.setNode c.keys _ rfl rfl rfl rfl rfl (fun _ hm => .inl hm) ?_ fun _ hb => .inl hb
        intro p' hp'
        obtain rfl := Option.some.inj hp'
        exact .inr ⟨hown, m, hm, rfl⟩
      · exact .refl c n
    | readPersistedRevision n failed =>
      refine ⟨n, ?_⟩
      simp only [Cluster.lossyStep, Cluster.step, Cluster.readPersistedRevision]
      split
      · rename_i p hp
        split_ifs
        · exact .refl c n
        all_goals
          refine Background.setNode c.keys _ rfl rfl rfl rfl rfl (fun _ hm => .inl hm) ?_ fun _ hb => .inl hb
          intro p' hp'
          obtain rfl := Option.some.inj hp'
          exact .inl ⟨p, hp, rfl, rfl⟩
      · exact .refl c n
    | fencedStateSet n =>
      refine ⟨n, ?_⟩
      simp only [Cluster.lossyStep, Cluster.step, Cluster.fencedStateSet]
      split
      · rename_i p hp
        split
        · exact .refl c n
        · exact background_casEnds h _ hp _
      · exact .refl c n
    | _ => cases ho

/-- the current lease has one holder -/
theorem holder_unique {c : Cluster} (h : c.GrantInv) {n k : String} {e e' : OwnedEntry} (hn : c.Holds n e)
    (hk : c.Holds k e') : n = k ∧ e = e' := by
  have hfence : e.1 = e'.1 := Option.some.inj (hn.2.2.symm.trans hk.2.2)
  have hlease : e.2 = e'.2 := Option.some.inj (hn.2.1.symm.trans hk.2.1)
  obtain rfl : e = e' := Prod.ext hfence hlease
  exact ⟨h.unique n k e hn.1 hk.1, rfl⟩

/-- no copy is new on the node of the step -/
theorem Background.copy (h : s.cluster.GrantInv) {c' : Cluster} (hb : Background s.cluster c' n)
    (hholds : s.cluster.Holds n e) {qs : List String} (hqs : (s.withCluster c').Copy n e qs) : s.Copy n e qs := by
  have hmachine : (s.withCluster c').machine n = s.machine n := hb.machine
  refine hqs.of ?_ ?_ ?_ ?_ ?_
  · intro b hstate
    rcases hb.state b hstate with hold | ⟨p, hp, hp', rfl⟩
    · exact .stored hold
    · exact .persist hp (holder_unique h hp' hholds).2
  · rw [hmachine]
    exact fun m hm => .cached hm
  · intro m hm
    rcases hb.hydrations m hm with hold | ⟨b, hstate, hlog⟩
    · exact .hydration hold
    · rw [hlog]
      exact .stored hstate
  · intro p' hp' hsnap
    rcases hb.persist p' hp' with ⟨p, hp, hpe, hblob⟩ | ⟨-, m, hm, hblob⟩
    · rw [hblob]
      exact .persist hp (hpe.trans hsnap)
    · rw [hblob, Cluster.eventLogOf_serialize]
      exact .cached hm
  · exact fun e' m o hc => .held hc

theorem Background.loopInv (h : s.LoopInv) {c' : Cluster} (hb : Background s.cluster c' n) (hg : c'.GrantInv) :
    (s.withCluster c').LoopInv := by
  -- a blob that is newly stored comes from the holder
  have stored : s.AskedOnce → (s.withCluster c').AskedOnce := by
    intro hold b hstate
    rcases hb.state b hstate with hstate | ⟨p, hp, hholds, rfl⟩
    · exact hold b hstate
    · rcases h.holder n p.snapshot hholds with ⟨c, asked, hw⟩ | hd
      · rw [hw.copies _ (.persist hp rfl)]
        exact hw.nodup
      · exact hd.persist p hp rfl
  refine ⟨hg, stored h.stored, fun k e hke => ?_⟩
  have hholds := hb.holds k e hke
  have hold := h.holder k e hholds
  by_cases hkn : k = n
  · subst hkn
    have hcopy : ∀ qs, (s.withCluster c').Copy k e qs → s.Copy k e qs := fun _ hqs => hb.copy h.grants hholds hqs
    refine hold.same rfl ⟨hcopy, fun ho => hb.owned ▸ ho, ?_, ?_⟩
    · have hmachine : (s.withCluster c').machine k = s.machine k := hb.machine
      rw [hmachine]
      exact fun m hm => ⟨m, hm, rfl, id⟩
    · intro p' hp' hsnap
      rcases hb.persist p' hp' with ⟨p, hp, hpe, hblob⟩ | ⟨hown, -⟩
      · exact .inl ⟨p, hp, hpe.trans hsnap, hblob⟩
      · exact .inr (hsnap ▸ hown)
  have hnode := hb.others k hkn
  have hmachine : (s.withCluster c').machine k = s.machine k := congrArg Node.machine hnode
  have hcopy : ∀ qs, (s.withCluster c').Copy k e qs → s.Copy k e qs := by
    intro qs hqs
    refine hqs.of ?_ ?_ ?_ ?_ fun e' m o hc => ?_
    · intro b hstate
      rcases hb.state b hstate with hstate | ⟨p, -, hholder, -⟩
      · exact .stored hstate
      · exact absurd (holder_unique h.grants hholds hholder).1 hkn
    · rw [hmachine]
      exact fun m hm => .cached hm
    · rw [withCluster_cluster, hnode]
      exact fun m hm => .hydration hm
    · rw [withCluster_cluster, hnode]
      exact fun p hp hsnap => .persist hp hsnap
    · exact .held hc
  refine hold.same rfl ⟨hcopy, ?_, ?_, ?_⟩
  · rw [withCluster_cluster, hnode]
    exact id
  · rw [hmachine]
    exact fun m hm => ⟨m, hm, rfl, id⟩
  · rw [withCluster_cluster, hnode]
    exact fun p hp hsnap => .inl ⟨p, hp, hsnap, rfl⟩

/-! ## Steps of the machine -/

theorem holds_of_granted {c c' : Cluster} (hk : c'.keys = c.keys) (hg : ∀ k, (c'.nodes k).granted = (c.nodes k).granted)
    (k : String) (e : OwnedEntry) (h : c'.Holds k e) : c.Holds k e := by
  refine ⟨hg k ▸ h.1, ?_, ?_⟩
  · rw [← hk]
    exact h.2.1
  · rw [← hk]
    exact h.2.2

theorem mutate_eq (J : StringOps) (c : Cluster) (n : String) (o : Op) :
    c.mutate J n o = c.setNode n { c.nodes n with machine := (c.nodes n).machine.map fun m => m.step J o } := by
  unfold Cluster.mutate
  cases hm : (c.nodes n).machine with
  | some m => rfl
  | none =>
    have hsame : { c.nodes n with machine := none } = c.nodes n := by rw [← hm]
    rw [Option.map_none, hsame]
    simp [Cluster.setNode]

/-- a step that replaces the cached machine and the hydrations of a node, and turns its runtime -/
structure Recast (s s' : QuestionLoop) (n : String) (machine : Option Machine) (hydrations : List Machine) : Prop where
  grants : s'.cluster.GrantInv
  cluster : s'.cluster = s.cluster.setNode n { s.cluster.nodes n with machine := machine, hydrations := hydrations }
  others : ∀ k, k ≠ n → s'.runtime k = s.runtime k

theorem Recast.node {machine : Option Machine} {hydrations : List Machine} (h : s.Recast s' n machine hydrations) :
    s'.cluster.nodes n = { s.cluster.nodes n with machine := machine, hydrations := hydrations } := by
  rw [h.cluster, Cluster.setNode_nodes, if_pos rfl]

theorem Recast.parts {machine : Option Machine} {hydrations : List Machine} (h : s.Recast s' n machine hydrations) :
    s'.machine n = machine ∧ (s'.cluster.nodes n).owned = (s.cluster.nodes n).owned ∧
      (s'.cluster.nodes n).persist = (s.cluster.nodes n).persist := by
  rw [QuestionLoop.machine, h.node]
  exact ⟨rfl, rfl, rfl⟩

theorem Recast.loopInv {machine : Option Machine} {hydrations : List Machine} (hr : s.Recast s' n machine hydrations)
    (h : s.LoopInv) (hsound : ∀ e, s.Sound n e → s'.Sound n e) : s'.LoopInv := by
  have hkeys : s'.cluster.keys = s.cluster.keys := by rw [hr.cluster]; rfl
  have hothers : ∀ k, k ≠ n → s'.cluster.nodes k = s.cluster.nodes k := fun k hk => by
    rw [hr.cluster, Cluster.setNode_nodes, if_neg hk]
  have hgranted : ∀ k, (s'.cluster.nodes k).granted = (s.cluster.nodes k).granted := by
    intro k
    by_cases hk : k = n
    · rw [hk, hr.node]
    · rw [hothers k hk]
  exact h.act n hr.grants (fun b hb => by rwa [hkeys] at hb) (holds_of_granted hkeys hgranted)
    (fun k hk => ⟨hothers k hk, hr.others k hk⟩) hsound

/-- only the new machine may be a new copy -/
theorem Recast.copy {machine : Option Machine} {hydrations : List Machine} (hr : s.Recast s' n machine hydrations)
    (hh : ∀ m ∈ hydrations, s.Copy n e (askedQuestions m.eventLog))
    (hheld : ∀ e' m stillOwner, .revalidating e' (some m) stillOwner ∈ (s'.runtime n).calls →
      s.Copy n e (askedQuestions m.eventLog)) {qs : List String} (hqs : s'.Copy n e qs) :
    s.Copy n e qs ∨ ∃ m ∈ machine, qs = askedQuestions m.eventLog := by
  cases hqs with
  | stored hb =>
    rw [hr.cluster] at hb
    exact .inl (.stored hb)
  | cached hm => exact .inr ⟨_, hr.parts.1 ▸ hm, rfl⟩
  | hydration hm =>
    rw [hr.node] at hm
    exact .inl (hh _ hm)
  | persist hp hsnap =>
    rw [hr.parts.2.2] at hp
    exact .inl (.persist hp hsnap)
  | held hc => exact .inl (hheld _ _ _ hc)

/-- the cached machine is replaced by one that has asked the same and is still at its question -/
theorem LoopInv.remake (h : s.LoopInv) {c' : Cluster} (hg : c'.GrantInv) {machine : Option Machine}
    (hc : c' = s.cluster.setNode n { s.cluster.nodes n with machine := machine })
    (hm : ∀ m' ∈ machine, ∃ m ∈ s.machine n, askedQuestions m'.eventLog = askedQuestions m.eventLog ∧
      (AtQuestion m → AtQuestion m')) : (s.withCluster c').LoopInv := by
  have hr : s.Recast (s.withCluster c') n machine (s.cluster.nodes n).hydrations := ⟨hg, hc, fun _ _ => rfl⟩
  obtain ⟨hmachine, howned, hpersist⟩ := hr.parts
  refine hr.loopInv h fun e hs => hs.same rfl ⟨fun qs hqs => ?_, ?_, ?_, ?_⟩
  · rcases hr.copy (fun m hm => .hydration hm) (fun e' m o hc => .held hc) hqs with hold | ⟨m', hm', rfl⟩
    · exact hold
    · obtain ⟨m, hold, hasked, -⟩ := hm m' hm'
      rw [hasked]
      exact .cached hold
  · rw [howned]
    exact id
  · rw [hmachine]
    exact hm
  · rw [hpersist]
    exact fun p hp hsnap => .inl ⟨p, hp, hsnap, rfl⟩

theorem command_loopInv (h : s.LoopInv) (n : String) (o : Op) : (s.step J (.command n o)).LoopInv := by
  simp only [step]
  split_ifs with ho
  · refine h.remake (Cluster.step_grantInv J h.grants (.op (.mutate n o))) (mutate_eq J s.cluster n o) ?_
    intro m' hm'
    obtain ⟨m, hm, rfl⟩ := Option.map_eq_some_iff.1 (Option.mem_def.1 hm')
    refine ⟨m, hm, change_asked (Machine.step_change J m o) ?_, change_atQuestion (Machine.step_change J m o) ho⟩
    intro q d now heq
    rw [heq] at ho
    cases ho
  · exact h

/-- the round that ends is on: its machine waits for no question -/
theorem endRound_loopInv (h : s.LoopInv) (n : String) (now : Clock) : (s.endRound J n now).LoopInv := by
  unfold endRound
  split
  · rename_i m hm
    split_ifs with hon
    · have hnode : (s.cluster.nodes n).machine = some m := hm
      have hg := Cluster.step_grantInv J
        (Cluster.step_grantInv J h.grants (.op (.mutate n (.transition .roundEvaluating now))))
        (.op (.mutate n (.evaluateRound now)))
      have hc : (s.cluster.mutate J n (.transition .roundEvaluating now)).mutate J n (.evaluateRound now) =
          s.cluster.setNode n { s.cluster.nodes n with
            machine := some ((m.step J (.transition .roundEvaluating now)).step J (.evaluateRound now)) } := by
        simp only [mutate_eq, Cluster.setNode, Function.update_self, Function.update_idem, hnode, Option.map_some]
      refine h.remake hg hc ?_
      intro m' hm'
      obtain rfl := Option.some.inj hm'
      exact ⟨m, hm, endRound_asked m now, fun hat => absurd hat (not_atQuestion hon.1 hon.2)⟩
    · exact h
  · exact h

/-! ## Eviction and hydration -/

theorem leaveCache_entry (machine : Option Machine) (c : LoopCall) : (c.leaveCache machine).entry = c.entry := by
  cases c with
  | revalidating e held stillOwner => cases held <;> rfl
  | _ => rfl

theorem leaveCache_isFetch (machine : Option Machine) (c : LoopCall) : (c.leaveCache machine).isFetch = false := by
  cases c with
  | revalidating e held stillOwner => cases held <;> rfl
  | _ => rfl

theorem leaveCache_held {machine : Option Machine} {c : LoopCall} {e : OwnedEntry} {m : Machine} {stillOwner : Bool}
    (h : c.leaveCache machine = .revalidating e (some m) stillOwner) :
    c = .revalidating e (some m) stillOwner ∨ machine = some m := by
  cases c with
  | revalidating e' held was =>
    cases held with
    | none =>
      rw [LoopCall.leaveCache, LoopCall.revalidating.injEq] at h
      exact .inr h.2.1
    | some m' => exact .inl h
  | _ => cases h

/-- a launch or a resume in progress is left alone -/
theorem leaveCache_eq {machine : Option Machine} {c c' : LoopCall} {e : OwnedEntry} (h : c.leaveCache machine = c')
    (hc' : c' = .launching e ∨ c' = .resuming e) : c = c' := by
  cases c with
  | revalidating e' held was => rcases hc' with rfl | rfl <;> cases held <;> cases h
  | getRandom cached ids => rcases hc' with rfl | rfl <;> cases h
  | _ => exact h

/-- the cached object leaves the cache, and at most a hydrated one takes its place -/
theorem LoopInv.detached (h : s.LoopInv) {c' : Cluster} (hg : c'.GrantInv) {machine : Option Machine}
    {hydrations : List Machine}
    (hc : c' = s.cluster.setNode n { s.cluster.nodes n with machine := machine, hydrations := hydrations })
    (hm : ∀ m ∈ machine, ∃ x ∈ (s.cluster.nodes n).hydrations, askedQuestions m.eventLog = askedQuestions x.eventLog)
    (hh : ∀ m ∈ hydrations, m ∈ (s.cluster.nodes n).hydrations) : ((s.detach n).withCluster c').LoopInv := by
  have hr : s.Recast ((s.detach n).withCluster c') n machine hydrations :=
    ⟨hg, hc, fun k hk => by simp [detach, setRuntime_ne s hk]⟩
  obtain ⟨hmachine, howned, hpersist⟩ := hr.parts
  have hrun : ((s.detach n).withCluster c').runtime n =
      { s.runtime n with calls := (s.runtime n).calls.map (.leaveCache (s.machine n)) } := by
    simp [detach]
  have hcopy : ∀ e qs, ((s.detach n).withCluster c').Copy n e qs → s.Copy n e qs := by
    intro e qs hqs
    have hheld : ∀ e' m stillOwner,
        .revalidating e' (some m) stillOwner ∈ (((s.detach n).withCluster c').runtime n).calls →
        s.Copy n e (askedQuestions m.eventLog) := by
      intro e' m stillOwner hcall
      rw [hrun] at hcall
      obtain ⟨c, hcm, hleave⟩ := List.mem_map.1 hcall
      rcases leaveCache_held hleave with rfl | hcached
      · exact .held hcm
      · exact .cached hcached
    rcases hr.copy (fun m hm => .hydration (hh m hm)) hheld hqs with hold | ⟨m, hm', rfl⟩
    · exact hold
    · obtain ⟨x, hx, hasked⟩ := hm m hm'
      rw [hasked]
      exact .hydration hx
  refine hr.loopInv h fun e hs => ?_
  rcases hs with ⟨c, asked, hw⟩ | hd
  · refine .inl ⟨c.leaveCache (s.machine n), asked, ?_⟩
    refine ⟨?_, ?_, ?_, hw.nodup, fun qs hqs => hw.copies qs (hcopy e qs hqs), ?_, ?_⟩
    · rw [hrun, hw.calls]
      rfl
    · rw [leaveCache_entry]
      exact hw.entry
    · rw [hrun]
      exact hw.timers
    · intro hc
      exact hw.launching (leaveCache_eq hc (.inl rfl))
    · intro hc hown
      rw [howned] at hown
      have hresume := hw.resuming (leaveCache_eq hc (.inr rfl)) hown
      simpa [excludeIds, detach] using hresume
  · refine .inr ⟨?_, ?_, ?_⟩
    · intro c hcall
      rw [hrun] at hcall
      obtain ⟨c, hcm, rfl⟩ := List.mem_map.1 hcall
      rw [leaveCache_entry]
      exact hd.done c hcm
    · rw [hpersist]
      exact hd.persist
    · rw [howned]
      intro hown
      obtain ⟨asked, hcov⟩ := hd.covered hown
      refine ⟨asked, fun qs hqs => hcov.copies qs (hcopy e qs hqs), ?_, ?_, ?_⟩
      · intro hlive
        have hexclude : ((s.detach n).withCluster c').excludeIds n = s.excludeIds n := by simp [excludeIds, detach]
        rw [hexclude]
        refine hcov.used ?_
        rw [hrun] at hlive
        simpa using hlive
      · intro ids hids
        rw [hrun] at hids
        obtain ⟨c, -, hleave⟩ := List.mem_map.1 hids
        have hfetch := leaveCache_isFetch (s.machine n) c
        rw [hleave] at hfetch
        cases hfetch
      · rw [hrun]
        have hnone : ((s.runtime n).calls.map (.leaveCache (s.machine n))).countP LoopCall.isFetch = 0 := by
          refine List.countP_eq_zero.2 fun c hcall => ?_
          obtain ⟨c, -, rfl⟩ := List.mem_map.1 hcall
          rw [leaveCache_isFetch]
          exact Bool.false_ne_true
        exact hnone.le.trans (Nat.zero_le 1)

theorem evict_loopInv (h : s.LoopInv) (n : String) : (s.evictStateMachine n).LoopInv :=
  h.detached (Cluster.step_grantInv StringOps.ascii h.grants (.op (.evictStateMachine n))) rfl
    (fun _ hm => absurd hm (by simp)) fun _ hm => hm

theorem install_loopInv (h : s.LoopInv) (n : String) (i : ℕ) (key : Option String) : (s.install n i key).LoopInv := by
  unfold install
  split
  · exact h
  · rename_i m hi
    have hc : s.cluster.install n i key = s.cluster.setNode n { s.cluster.nodes n with
        machine := some (Cluster.rehydrated m key), hydrations := (s.cluster.nodes n).hydrations.eraseIdx i } := by
      unfold Cluster.install
      rw [hi]
    refine h.detached (Cluster.step_grantInv StringOps.ascii h.grants (.op (.install n i key))) hc ?_
      fun x hx => List.mem_of_mem_eraseIdx hx
    intro m' hm'
    obtain rfl := Option.some.inj hm'
    exact ⟨m, List.mem_of_getElem? hi, rehydrated_asked m key⟩

end QuestionLoop

end Arena.Api
