/-
No question is asked twice in a match.

A resume rebuilds the used questions from the log of the machine it is given, and `executeRound` marks a question
when it arrives. While a node that took the match afresh holds the lease, they cover every copy of the match,
whichever persists fail and whatever is evicted and hydrated again.

- `resumeMatchLoop_loopInv`, `executeRound_loopInv`, `startRound_loopInv`: the steps that set up and extend the set;
- `no_question_asked_twice`: no question stands twice in the stored log of a run in which every lease goes to a
  node that takes the match afresh;
- `stale_cache_asks_again`: a node resumes the machine it had cached under an earlier lease, hydrates the stored one
  after a refused persist, and asks the question of another owner again.
-/
import Arena.Api.QuestionCopies

namespace Arena.Api

open Arena.Lib Arena.Shared Arena.GameCore Arena.Redis

namespace QuestionLoop

variable {J : StringOps} {s s' : QuestionLoop} {n : String} {e : OwnedEntry}

/-! ## Steps of the runtime -/

/-- a step of the runtime, which may set the ownership entry -/
structure Turn (s s' : QuestionLoop) (n : String) : Prop where
  grants : s.cluster.GrantInv → s'.cluster.GrantInv
  keys : s'.cluster.keys = s.cluster.keys
  node : ∃ owned, s'.cluster.nodes n = { s.cluster.nodes n with owned := owned }
  others : ∀ k, k ≠ n → s'.cluster.nodes k = s.cluster.nodes k ∧ s'.runtime k = s.runtime k

theorem Turn.refl (s : QuestionLoop) (n : String) : s.Turn s n := ⟨id, rfl, ⟨_, rfl⟩, fun _ _ => ⟨rfl, rfl⟩⟩

theorem Turn.setRuntime (h : s.Turn s' n) (r : Runtime) : s.Turn (s'.setRuntime n r) n where
  grants := h.grants
  keys := h.keys
  node := h.node
  others := fun k hk => ⟨(h.others k hk).1, (setRuntime_ne s' hk r).trans (h.others k hk).2⟩

theorem Turn.own (h : s.Turn s' n) (e : OwnedEntry) : s.Turn (s'.withCluster (s'.cluster.own n e)) n := by
  obtain ⟨owned, hnode⟩ := h.node
  refine ⟨fun hg => Cluster.step_grantInv StringOps.ascii (h.grants hg) (.op (.own n e)), ?_, ?_, ?_⟩
  · simp only [withCluster_cluster, Cluster.own]
    split_ifs <;> exact h.keys
  · simp only [withCluster_cluster, Cluster.own]
    split_ifs
    · exact ⟨some e, by rw [Cluster.setNode_nodes, if_pos rfl, hnode]⟩
    · exact ⟨owned, hnode⟩
  · intro k hk
    refine ⟨?_, (h.others k hk).2⟩
    simp only [withCluster_cluster, Cluster.own]
    split_ifs
    · rw [Cluster.setNode_nodes, if_neg hk]
      exact (h.others k hk).1
    · exact (h.others k hk).1

theorem Turn.relinquish (h : s.Turn s' n) : s.Turn (s'.withCluster (s'.cluster.relinquish n)) n := by
  obtain ⟨owned, hnode⟩ := h.node
  refine ⟨fun hg => Cluster.step_grantInv StringOps.ascii (h.grants hg) (.op (.relinquish n)), h.keys, ?_, ?_⟩
  · exact ⟨none, by rw [withCluster_cluster, Cluster.relinquish, Cluster.setNode_nodes, if_pos rfl, hnode]⟩
  · intro k hk
    refine ⟨?_, (h.others k hk).2⟩
    rw [withCluster_cluster, Cluster.relinquish, Cluster.setNode_nodes, if_neg hk]
    exact (h.others k hk).1

theorem Turn.parts (h : s.Turn s' n) : s'.machine n = s.machine n ∧
    (s'.cluster.nodes n).hydrations = (s.cluster.nodes n).hydrations ∧
    (s'.cluster.nodes n).persist = (s.cluster.nodes n).persist := by
  obtain ⟨owned, hnode⟩ := h.node
  rw [QuestionLoop.machine, hnode]
  exact ⟨rfl, rfl, rfl⟩

theorem Turn.loopInv (ht : s.Turn s' n) (h : s.LoopInv) (hsound : ∀ e, s.Sound n e → s'.Sound n e) : s'.LoopInv := by
  obtain ⟨owned, hnode⟩ := ht.node
  have hgranted : ∀ k, (s'.cluster.nodes k).granted = (s.cluster.nodes k).granted := by
    intro k
    by_cases hk : k = n
    · rw [hk, hnode]
    · rw [(ht.others k hk).1]
  exact h.act n (ht.grants h.grants) (fun b hb => by rwa [ht.keys] at hb) (holds_of_granted ht.keys hgranted) ht.others
    hsound

/-- no call holds a machine that no call held before -/
def HoldsNoMore (s s' : QuestionLoop) (n : String) : Prop :=
  ∀ e m stillOwner, .revalidating e (some m) stillOwner ∈ (s'.runtime n).calls →
    ∃ e' was, .revalidating e' (some m) was ∈ (s.runtime n).calls

theorem Turn.copy (h : s.Turn s' n) (hheld : s.HoldsNoMore s' n) {qs : List String} (hqs : s'.Copy n e qs) :
    s.Copy n e qs := by
  obtain ⟨hm, hh, hp⟩ := h.parts
  exact hqs.of_calls h.keys hm hh hp hheld

/-- the setup goes on with another call -/
theorem Waiting.next {c c' : LoopCall} {asked : List String} (h : s.Waiting n e c asked) (ht : s.Turn s' n)
    (hcalls : (s'.runtime n).calls = [c']) (hentry : c'.entry = some e) (htimers : (s'.runtime n).activeTimers = false)
    (hheld : ∀ e' m stillOwner, c' = .revalidating e' (some m) stillOwner →
      ∃ e'' was, c = .revalidating e'' (some m) was)
    (hlaunch : c' = .launching e → c = .launching e)
    (hresume : c' = .resuming e → (s'.cluster.nodes n).owned = some e → asked ⊆ s'.excludeIds n) :
    s'.Waiting n e c' asked := by
  have hmore : s.HoldsNoMore s' n := by
    intro e' m stillOwner hm
    rw [hcalls, List.mem_singleton] at hm
    obtain ⟨e'', was, hold⟩ := hheld e' m stillOwner hm.symm
    exact ⟨e'', was, by rw [h.calls, hold]; exact List.mem_singleton.2 rfl⟩
  exact ⟨hcalls, hentry, htimers, h.nodup, fun qs hqs => h.copies qs (ht.copy hmore hqs),
    fun hc => h.launching (hlaunch hc), hresume⟩

/-- the setup ends: a loop that goes on has its used questions -/
theorem Waiting.drive {c : LoopCall} {asked : List String} (h : s.Waiting n e c asked) (ht : s.Turn s' n)
    (hcalls : ∀ c' ∈ (s'.runtime n).calls, c' = .callback)
    (hused : (s'.cluster.nodes n).owned = some e → (s'.runtime n).activeTimers = true ∨ (s'.runtime n).calls ≠ [] →
      asked ⊆ s'.excludeIds n) : s'.Driving n e := by
  have hmore : s.HoldsNoMore s' n := fun e' m stillOwner hm => absurd (hcalls _ hm) (by simp)
  have hcopy : ∀ qs, s'.Copy n e qs → qs = asked := fun qs hqs => h.copies qs (ht.copy hmore hqs)
  refine ⟨?_, ?_, ?_⟩
  · intro c' hc'
    rw [hcalls c' hc']
    rfl
  · intro p hp hsnap
    rw [hcopy _ (.persist hp hsnap)]
    exact h.nodup
  · intro hown
    refine ⟨asked, fun qs hqs => ?_, hused hown, fun ids hids => absurd (hcalls _ hids) (by simp), ?_⟩
    · rw [hcopy qs hqs]
      exact ⟨h.nodup, List.Subset.refl _⟩
    · have hnone : (s'.runtime n).calls.countP LoopCall.isFetch = 0 := by
        refine List.countP_eq_zero.2 fun c' hc' => ?_
        rw [hcalls c' hc']
        exact Bool.false_ne_true
      exact hnone.le.trans (Nat.zero_le 1)

/-- the running loop goes on, and forgets no question -/
theorem Driving.next (h : s.Driving n e) (ht : s.Turn s' n) (hdone : ∀ c ∈ (s'.runtime n).calls, c.entry = none)
    (hown : (s'.cluster.nodes n).owned = some e → (s.cluster.nodes n).owned = some e ∧
      ((s'.runtime n).activeTimers = true ∨ (s'.runtime n).calls ≠ [] →
        (s.runtime n).activeTimers = true ∨ (s.runtime n).calls ≠ []) ∧ s.excludeIds n ⊆ s'.excludeIds n)
    (hfetch : ∀ ids, .getRandom true ids ∈ (s'.runtime n).calls → .getRandom true ids ∈ (s.runtime n).calls)
    (hsingle : (s'.runtime n).calls.countP LoopCall.isFetch ≤ (s.runtime n).calls.countP LoopCall.isFetch) :
    s'.Driving n e := by
  have hmore : s.HoldsNoMore s' n := fun e' m stillOwner hm => absurd (hdone _ hm) (by simp [LoopCall.entry])
  obtain ⟨hmachine, -, hpersist⟩ := ht.parts
  refine ⟨hdone, ?_, ?_⟩
  · rw [hpersist]
    exact h.persist
  · intro hown'
    obtain ⟨hold, hlive, hkeep⟩ := hown hown'
    obtain ⟨asked, hc⟩ := h.covered hold
    refine ⟨asked, fun qs hqs => hc.copies qs (ht.copy hmore hqs), ?_, ?_, hsingle.trans hc.single⟩
    · exact fun hl => List.Subset.trans (hc.used (hlive hl)) hkeep
    · intro ids hids
      rw [hmachine]
      exact hc.fetch ids (hfetch ids hids)

/-! ## One lemma per call -/

@[simp] theorem take_self (s : QuestionLoop) (n : String) (i : ℕ) :
    (s.take n i).runtime n = { s.runtime n with calls := (s.runtime n).calls.eraseIdx i } := setRuntime_self _ _ _

@[simp] theorem await_self (s : QuestionLoop) (n : String) (c : LoopCall) :
    (s.await n c).runtime n = { s.runtime n with calls := (s.runtime n).calls ++ [c] } := setRuntime_self _ _ _

@[simp] theorem setTimers_self (s : QuestionLoop) (n : String) (armed : Bool) :
    (s.setTimers n armed).runtime n = { s.runtime n with activeTimers := armed } := setRuntime_self _ _ _

@[simp] theorem disposeMatch_self (s : QuestionLoop) (n : String) :
    (s.disposeMatch n).runtime n = { s.runtime n with usedQuestionIds := none, activeTimers := false } :=
  setRuntime_self _ _ _

@[simp] theorem initUsedQuestions_self (s : QuestionLoop) (n : String) :
    (s.initUsedQuestions n).runtime n = { s.runtime n with usedQuestionIds := some JsSet.empty } :=
  setRuntime_self _ _ _

/-- the setup has one call -/
theorem Waiting.call {c x : LoopCall} {asked : List String} {i : ℕ} (h : s.Waiting n e c asked)
    (hi : (s.runtime n).calls[i]? = some x) : x = c ∧ (s.runtime n).calls.eraseIdx i = [] := by
  rw [h.calls] at hi ⊢
  cases i with
  | zero => exact ⟨(Option.some.inj hi).symm, rfl⟩
  | succ i => cases hi

/-- a call without a lease is not the call of a setup -/
theorem Waiting.no_call {c x : LoopCall} {asked : List String} {i : ℕ} (h : s.Waiting n e c asked)
    (hi : (s.runtime n).calls[i]? = some x) (hx : x.entry = none) : False := by
  have hentry := h.entry
  rw [← (h.call hi).1, hx] at hentry
  cases hentry

/-- no call of a running loop holds a lease -/
theorem Driving.no_call {x : LoopCall} {i : ℕ} {e' : OwnedEntry} (h : s.Driving n e)
    (hi : (s.runtime n).calls[i]? = some x) (hx : x.entry = some e') : False := by
  have hdone := h.done x (List.mem_of_getElem? hi)
  rw [hx] at hdone
  cases hdone

/-- the i-th call goes on and waits again, or is over -/
theorem Driving.replace (h : s.Driving n e) (ht : s.Turn s' n) (i : ℕ) (more : List LoopCall)
    (hcalls : (s'.runtime n).calls = (s.runtime n).calls.eraseIdx i ++ more)
    (hmore : ∀ c ∈ more, c.entry = none ∧ c.isFetch = false)
    (hown : (s'.cluster.nodes n).owned = some e → (s.cluster.nodes n).owned = some e ∧
      ((s'.runtime n).activeTimers = true ∨ (s'.runtime n).calls ≠ [] →
        (s.runtime n).activeTimers = true ∨ (s.runtime n).calls ≠ []) ∧ s.excludeIds n ⊆ s'.excludeIds n) :
    s'.Driving n e := by
  refine h.next ht ?_ hown ?_ ?_
  · intro c hc
    rw [hcalls] at hc
    rcases List.mem_append.1 hc with hc | hc
    · exact h.done c (List.mem_of_mem_eraseIdx hc)
    · exact (hmore c hc).1
  · intro ids hids
    rw [hcalls] at hids
    rcases List.mem_append.1 hids with hids | hids
    · exact List.mem_of_mem_eraseIdx hids
    · have hfetch := (hmore _ hids).2
      cases hfetch
  · have hnone : more.countP LoopCall.isFetch = 0 := by
      refine List.countP_eq_zero.2 fun c hc => ?_
      rw [(hmore c hc).2]
      exact Bool.false_ne_true
    rw [hcalls, List.countP_append, hnone]
    exact (List.eraseIdx_sublist _ _).countP_le

theorem finishCall_loopInv (h : s.LoopInv) (n : String) (i : ℕ) : (s.take n i).LoopInv := by
  have ht : s.Turn (s.take n i) n := (Turn.refl s n).setRuntime _
  refine ht.loopInv h fun e hs => ?_
  rcases hs with ⟨c, asked, hw⟩ | hd
  · cases hi : (s.runtime n).calls[i]? with
    | some x =>
      refine .inr (hw.drive ht ?_ ?_)
      · simp [(hw.call hi).2]
      · simp [(hw.call hi).2, hw.timers]
    | none =>
      have hsame : (s.take n i).runtime n = s.runtime n := by
        rw [take_self, List.eraseIdx_of_length_le (List.getElem?_eq_none_iff.1 hi)]
      exact .inl ⟨c, asked, hw.same hsame id fun _ hqs => ht.copy (fun e m o hc => ⟨e, o, hsame ▸ hc⟩) hqs⟩
  · refine .inr (hd.replace ht i [] (by simp) (by simp) fun hown => ⟨hown, ?_, ?_⟩)
    · rw [take_self]
      refine Or.imp_right fun hc hnil => hc ?_
      rw [hnil]
      rfl
    · simp [excludeIds]

theorem fire_loopInv (h : s.LoopInv) (n : String) : (s.fire n).LoopInv := by
  unfold fire
  split_ifs with htimers
  · have ht : s.Turn (s.await n .callback) n := (Turn.refl s n).setRuntime _
    refine ht.loopInv h fun e hs => ?_
    rcases hs with ⟨c, asked, hw⟩ | hd
    · rw [hw.timers] at htimers
      cases htimers
    · refine .inr (hd.next ht ?_ (fun hown => ⟨hown, fun _ => .inl htimers, ?_⟩) ?_ ?_)
      · intro c hc
        rw [await_self] at hc
        rcases List.mem_append.1 hc with hc | hc
        · exact hd.done c hc
        · rw [List.mem_singleton.1 hc]
          rfl
      · simp [excludeIds]
      · intro ids hids
        simpa using hids
      · simp [List.countP_append, LoopCall.isFetch]
  · exact h

theorem armPhaseTimer_loopInv (h : s.LoopInv) (n : String) (i : ℕ) : (s.armPhaseTimer n i).LoopInv := by
  unfold armPhaseTimer
  split
  · rename_i hi
    have ht : s.Turn (s.setTimers n true) n := (Turn.refl s n).setRuntime _
    refine ht.loopInv h fun e hs => ?_
    rcases hs with ⟨c, asked, hw⟩ | hd
    · exact (hw.no_call hi rfl).elim
    · refine .inr (hd.next ht ?_ (fun hown => ⟨hown, fun _ => .inr ?_, ?_⟩) ?_ ?_)
      · simpa using hd.done
      · exact List.ne_nil_of_mem (List.mem_of_getElem? hi)
      · simp [excludeIds]
      · simp
      · simp
  · rename_i e' hi
    have ht : s.Turn ((s.take n i).setTimers n true) n := ((Turn.refl s n).setRuntime _).setRuntime _
    refine ht.loopInv h fun e hs => ?_
    rcases hs with ⟨c, asked, hw⟩ | hd
    · -- the resume ends with its timer: its used questions were rebuilt
      obtain ⟨rfl, hnil⟩ := hw.call hi
      obtain rfl : e' = e := Option.some.inj hw.entry
      refine .inr (hw.drive ht ?_ ?_)
      · simp [hnil]
      · intro hown _
        have hresume := hw.resuming rfl hown
        simpa [excludeIds] using hresume
    · exact (hd.no_call hi rfl).elim
  · exact h

theorem assertOwnership_loopInv (h : s.LoopInv) (n : String) (i : ℕ) : (s.assertOwnership n i).LoopInv := by
  unfold assertOwnership
  split
  · rename_i hi _
    split_ifs
    · have ht : s.Turn ((s.take n i).await n .executeRound) n := ((Turn.refl s n).setRuntime _).setRuntime _
      refine ht.loopInv h fun e hs => ?_
      rcases hs with ⟨c, asked, hw⟩ | hd
      · exact (hw.no_call hi rfl).elim
      · refine .inr (hd.replace ht i [.executeRound] (by simp) (by simp [LoopCall.entry, LoopCall.isFetch])
          fun hown => ⟨hown, fun _ => .inr ?_, ?_⟩)
        · exact List.ne_nil_of_mem (List.mem_of_getElem? hi)
        · simp [excludeIds]
    · exact h
  · exact h

theorem startMatchLoop_loopInv (h : s.LoopInv) (n : String) (i : ℕ) : (s.startMatchLoop n i).LoopInv := by
  unfold startMatchLoop
  split
  · rename_i e' hi
    have ht : s.Turn (((s.take n i).initUsedQuestions n).await n .callback) n :=
      (((Turn.refl s n).setRuntime _).setRuntime _).setRuntime _
    refine ht.loopInv h fun e hs => ?_
    rcases hs with ⟨c, asked, hw⟩ | hd
    · obtain ⟨rfl, hnil⟩ := hw.call hi
      obtain rfl : e' = e := Option.some.inj hw.entry
      refine .inr (hw.drive ht ?_ fun _ _ => ?_)
      · simp [hnil]
      · rw [hw.launching rfl]
        exact List.nil_subset _
    · exact (hd.no_call hi rfl).elim
  · exact h

theorem recordOwnership_loopInv (h : s.LoopInv) (n : String) (i : ℕ) : (s.recordOwnership n i).LoopInv := by
  unfold recordOwnership
  split
  · rename_i e' hi
    have ht : s.Turn (((s.take n i).withCluster (s.cluster.own n e')).await n (.hydrating e')) n :=
      (((Turn.refl s n).setRuntime _).own e').setRuntime _
    refine ht.loopInv h fun e hs => ?_
    rcases hs with ⟨c, asked, hw⟩ | hd
    · obtain ⟨rfl, hnil⟩ := hw.call hi
      obtain rfl : e' = e := Option.some.inj hw.entry
      refine .inl ⟨.hydrating e', asked, hw.next ht (by simp [hnil]) rfl (by simpa using hw.timers) ?_ ?_ ?_⟩ <;> simp
    · exact (hd.no_call hi rfl).elim
  · exact h

theorem hydrateRecoveryState_loopInv (h : s.LoopInv) (n : String) (i : ℕ) : (s.hydrateRecoveryState n i).LoopInv := by
  unfold hydrateRecoveryState
  split
  · rename_i e' _ hi _
    have ht : s.Turn ((s.take n i).await n (.revalidating e' none false)) n :=
      ((Turn.refl s n).setRuntime _).setRuntime _
    refine ht.loopInv h fun e hs => ?_
    rcases hs with ⟨c, asked, hw⟩ | hd
    · obtain ⟨rfl, hnil⟩ := hw.call hi
      obtain rfl : e' = e := Option.some.inj hw.entry
      refine .inl ⟨.revalidating e' none false, asked, hw.next ht (by simp [hnil]) rfl (by simpa using hw.timers)
        ?_ ?_ ?_⟩ <;> simp
    · exact (hd.no_call hi rfl).elim
  · exact h

theorem revalidateOwnership_loopInv (h : s.LoopInv) (n : String) (i : ℕ) : (s.revalidateOwnership n i).LoopInv := by
  unfold revalidateOwnership
  split
  · rename_i e' held was hi
    split_ifs
    · have ht : s.Turn ((s.take n i).await n (.revalidating e' held true)) n :=
        ((Turn.refl s n).setRuntime _).setRuntime _
      refine ht.loopInv h fun e hs => ?_
      rcases hs with ⟨c, asked, hw⟩ | hd
      · obtain ⟨rfl, hnil⟩ := hw.call hi
        obtain rfl : e' = e := Option.some.inj hw.entry
        refine .inl ⟨.revalidating e' held true, asked, hw.next ht (by simp [hnil]) rfl (by simpa using hw.timers)
          ?_ (by simp) (by simp)⟩
        intro e'' m stillOwner heq
        rw [LoopCall.revalidating.injEq] at heq
        exact ⟨e', was, by rw [heq.2.1]⟩
      · exact (hd.no_call hi rfl).elim
    · have ht : s.Turn ((s.take n i).withCluster (s.cluster.relinquish n)) n :=
        ((Turn.refl s n).setRuntime _).relinquish
      refine ht.loopInv h fun e hs => ?_
      rcases hs with ⟨c, asked, hw⟩ | hd
      · obtain ⟨rfl, hnil⟩ := hw.call hi
        refine .inr (hw.drive ht ?_ ?_)
        · simp [hnil]
        · simp [hnil, hw.timers]
      · exact (hd.no_call hi rfl).elim
  · exact h

theorem retryRecovery_loopInv (h : s.LoopInv) (n : String) (i : ℕ) : (s.retryRecovery n i).LoopInv := by
  unfold retryRecovery
  split
  · rename_i e' hi
    split_ifs
    · have ht : s.Turn ((s.take n i).await n (.hydrating e')) n := ((Turn.refl s n).setRuntime _).setRuntime _
      refine ht.loopInv h fun e hs => ?_
      rcases hs with ⟨c, asked, hw⟩ | hd
      · obtain ⟨rfl, hnil⟩ := hw.call hi
        obtain rfl : e' = e := Option.some.inj hw.entry
        refine .inl ⟨.hydrating e', asked, hw.next ht (by simp [hnil]) rfl (by simpa using hw.timers) ?_ ?_ ?_⟩ <;> simp
      · exact (hd.no_call hi rfl).elim
    · exact finishCall_loopInv h n i
  · exact h

theorem relinquish_owned (c : Cluster) (n : String) : ((c.relinquish n).nodes n).owned = none := by
  rw [Cluster.relinquish, Cluster.setNode_nodes, if_pos rfl]

/-- without the ownership entry nothing more is persisted under the lease -/
theorem cancelMatchLoop_loopInv (h : s.LoopInv) (n : String) : (s.cancelMatchLoop n).LoopInv := by
  have ht : s.Turn (s.cancelMatchLoop n) n := ((Turn.refl s n).setRuntime _).relinquish
  have hnone : ((s.cancelMatchLoop n).cluster.nodes n).owned = none := relinquish_owned _ _
  refine ht.loopInv h fun e hs => ?_
  rcases hs with ⟨c, asked, hw⟩ | hd
  · refine .inl ⟨c, asked, hw.next ht ?_ hw.entry ?_ (fun e' m o hc => ⟨e', o, hc⟩) id ?_⟩
    · simpa [cancelMatchLoop] using hw.calls
    · simp [cancelMatchLoop]
    · rw [hnone]
      exact fun _ hown => absurd hown (by simp)
  · refine .inr (hd.next ht ?_ ?_ ?_ ?_)
    · simpa [cancelMatchLoop] using hd.done
    · rw [hnone]
      exact fun hown => absurd hown (by simp)
    · simp [cancelMatchLoop]
    · simp [cancelMatchLoop]

/-! ## The resume -/

theorem mem_foldl_add (qs : List String) (used : JsSet String) (q : String) :
    q ∈ (qs.foldl JsSet.add used).elems ↔ q ∈ used.elems ∨ q ∈ qs := by
  induction qs generalizing used with
  | nil => simp
  | cons x qs ih => simp only [List.foldl_cons, ih, JsSet.mem_add, List.mem_cons, or_assoc, or_left_comm]

theorem foldl_markQuestionUsed (qs : List String) (used : JsSet String) :
    qs.foldl (fun s q => s.markQuestionUsed n q) (s.setRuntime n { s.runtime n with usedQuestionIds := some used }) =
      s.setRuntime n { s.runtime n with usedQuestionIds := some (qs.foldl JsSet.add used) } := by
  induction qs generalizing used with
  | nil => rfl
  | cons q qs ih =>
    rw [List.foldl_cons, List.foldl_cons, ← ih]
    congr 1
    simp [markQuestionUsed, setRuntime]

theorem resumeMatchLoop_loopInv (h : s.LoopInv) (n : String) (i : ℕ) : (s.resumeMatchLoop n i).LoopInv := by
  unfold resumeMatchLoop
  split
  · rename_i e' held hi
    split
    · rename_i m hm
      -- the used questions are those of the machine handed over
      obtain ⟨used, hused, hrebuilt⟩ : ∃ used : JsSet String, (∀ q ∈ askedQuestions m.eventLog, q ∈ used.elems) ∧
          (askedQuestions m.eventLog).foldl (fun s q => s.markQuestionUsed n q) ((s.take n i).initUsedQuestions n) =
            (s.take n i).setRuntime n { (s.take n i).runtime n with usedQuestionIds := some used } :=
        ⟨_, fun q hq => (mem_foldl_add _ JsSet.empty q).2 (.inr hq), foldl_markQuestionUsed _ _⟩
      set s' := (s.take n i).resumeWith n e' m with hs'
      simp only [resumeWith, hrebuilt] at hs'
      -- it is a copy from before
      have hcopy : s.Copy n e' (askedQuestions m.eventLog) := by
        cases held with
        | some x =>
          obtain rfl : x = m := Option.some.inj hm
          exact .held (List.mem_of_getElem? hi)
        | none => exact .cached hm
      have base := ((Turn.refl s n).setRuntime { s.runtime n with calls := (s.runtime n).calls.eraseIdx i }).setRuntime
        { (s.take n i).runtime n with usedQuestionIds := some used }
      have turn : s.Turn s' n ∧
          ∀ (e : OwnedEntry) (asked : List String), s.Waiting n e (.revalidating e' held true) asked →
          s'.Sound n e := by
        cases hst : m.state.status <;> simp only [hst] at hs'
        case finished =>
          have ht : s.Turn s' n := hs' ▸ (base.setRuntime _).relinquish
          refine ⟨ht, fun e asked hw => .inr (hw.drive ht ?_ ?_)⟩
          · simp [hs', (hw.call hi).2]
          · simp [hs', (hw.call hi).2]
        case created =>
          have ht : s.Turn s' n := hs' ▸ (base.setRuntime _).own e'
          refine ⟨ht, fun e asked hw => .inr (hw.drive ht ?_ ?_)⟩
          · simp [hs', (hw.call hi).2]
          · simp [hs', (hw.call hi).2]
        case roundEvaluating =>
          have ht : s.Turn s' n := hs' ▸ (base.own e').setRuntime _
          refine ⟨ht, fun e asked hw => .inl ⟨.resuming e', asked, hw.next ht ?_ hw.entry ?_ ?_ ?_ fun _ _ => ?_⟩⟩
          · simp [hs', (hw.call hi).2]
          · simpa [hs'] using hw.timers
          · simp
          · simp
          · obtain rfl : e' = e := Option.some.inj hw.entry
            rw [← hw.copies _ hcopy]
            intro q hq
            simpa [hs', excludeIds] using hused q hq
        all_goals
          have ht : s.Turn s' n := hs' ▸ (base.own e').setRuntime _
          refine ⟨ht, fun e asked hw => .inr (hw.drive ht ?_ fun _ _ => ?_)⟩
          · simp [hs', (hw.call hi).2]
          · obtain rfl : e' = e := Option.some.inj hw.entry
            rw [← hw.copies _ hcopy]
            intro q hq
            simpa [hs', excludeIds] using hused q hq
      refine turn.1.loopInv h fun e hs => ?_
      rcases hs with ⟨c, asked, hw⟩ | hd
      · obtain ⟨rfl, -⟩ := hw.call hi
        exact turn.2 e asked hw
      · exact (hd.no_call hi rfl).elim
    · exact h
  · exact h

/-! ## Rounds -/

/-- **The fetch.** The used questions cover the log of the machine, which was at no question before. -/
theorem executeRound_loopInv (h : s.LoopInv) (n : String) (i : ℕ) (now : Clock) :
    (s.executeRound J n i now).LoopInv := by
  unfold executeRound
  split
  · rename_i m hi hm
    split
    · exact finishCall_loopInv h n i
    · rename_i hok
      obtain ⟨hat, hnot⟩ := transition_atQuestion hok
      have hasked := change_asked (Machine.step_change J m (.transition .roundActive now)) (by simp)
      set m' := m.step J (.transition .roundActive now) with hm'
      have hcached : (s.cluster.nodes n).machine = some m := hm
      have hcluster : s.cluster.mutate J n (.transition .roundActive now) =
          s.cluster.setNode n { s.cluster.nodes n with machine := some m' } := by
        rw [mutate_eq, hcached]
        rfl
      have hg := Cluster.step_grantInv J h.grants (.op (.mutate n (.transition .roundActive now)))
      set s' := ((s.take n i).withCluster (s.cluster.mutate J n (.transition .roundActive now))).await n
        (.getRandom true (s.excludeIds n)) with hs'
      have hr : s.Recast s' n (some m') (s.cluster.nodes n).hydrations :=
        ⟨hg, hcluster, fun k hk => by simp [hs', await, take, setRuntime_ne _ hk]⟩
      obtain ⟨hmachine, howned, hpersist⟩ := hr.parts
      have hcalls : (s'.runtime n).calls = (s.runtime n).calls.eraseIdx i ++ [.getRandom true (s.excludeIds n)] := by
        simp [hs']
      refine hr.loopInv h fun e hs => ?_
      rcases hs with ⟨c, asked, hw⟩ | hd
      · exact (hw.no_call hi rfl).elim
      have hdone : ∀ c ∈ (s'.runtime n).calls, c.entry = none := by
        intro c hc
        rw [hcalls] at hc
        rcases List.mem_append.1 hc with hc | hc
        · exact hd.done c (List.mem_of_mem_eraseIdx hc)
        · rw [List.mem_singleton.1 hc]
          rfl
      have hcopy : ∀ qs, s'.Copy n e qs → s.Copy n e qs := by
        intro qs hqs
        rcases hr.copy (fun m hm => .hydration hm) (fun e' x o hc => absurd (hdone _ hc) (by simp [LoopCall.entry])) hqs
          with hold | ⟨x, hx, rfl⟩
        · exact hold
        · obtain rfl : m' = x := Option.some.inj hx
          rw [hasked]
          exact .cached hm
      refine .inr ⟨hdone, ?_, ?_⟩
      · rw [hpersist]
        exact hd.persist
      · rw [howned]
        intro hown
        obtain ⟨asked, hcov⟩ := hd.covered hown
        have hused : asked ⊆ s.excludeIds n := hcov.used (.inr (List.ne_nil_of_mem (List.mem_of_getElem? hi)))
        -- no other fetch is on its way for this machine
        have hfree : (s.runtime n).calls.countP LoopCall.isFetch = 0 := by
          refine List.countP_eq_zero.2 fun c hc hfetch => ?_
          cases c with
          | getRandom cached ids =>
            obtain rfl : cached = true := by cases cached <;> first | rfl | cases hfetch
            exact hnot (hcov.fetch ids hc m hm).1
          | _ => cases hfetch
        refine ⟨asked, fun qs hqs => hcov.copies qs (hcopy qs hqs), fun _ => ?_, ?_, ?_⟩
        · simpa [hs', excludeIds] using hused
        · intro ids hids x hx
          rw [hmachine] at hx
          obtain rfl : m' = x := Option.some.inj hx
          rw [hcalls] at hids
          rcases List.mem_append.1 hids with hids | hids
          · exact absurd rfl (List.countP_eq_zero.1 hfree _ (List.mem_of_mem_eraseIdx hids))
          · obtain rfl : ids = s.excludeIds n := by simpa using hids
            refine ⟨hat, ?_⟩
            rw [hasked]
            exact List.Subset.trans (hcov.copies _ (.cached hm)).2 hused
        · have hsub : ((s.runtime n).calls.eraseIdx i).countP LoopCall.isFetch ≤ (s.runtime n).calls.countP
              LoopCall.isFetch := (List.eraseIdx_sublist _ _).countP_le
          rw [hcalls, List.countP_append]
          simp only [List.countP_singleton, LoopCall.isFetch, if_true]
          omega
  · exact h

theorem countP_eraseIdx {calls : List LoopCall} {i : ℕ} {c : LoopCall} (hi : calls[i]? = some c)
    (hc : c.isFetch = true) (h : calls.countP LoopCall.isFetch ≤ 1) :
    (calls.eraseIdx i).countP LoopCall.isFetch = 0 := by
  obtain ⟨hlt, rfl⟩ := List.getElem?_eq_some_iff.1 hi
  have hperm := (List.getElem_cons_eraseIdx_perm hlt).countP_eq LoopCall.isFetch
  rw [List.countP_cons_of_pos hc] at hperm
  omega

/-- the marked question joins those left out -/
theorem excludeIds_marked (s : QuestionLoop) (n : String) (i : ℕ) (q : String) (c : LoopCall) (cluster : Cluster) :
    ∀ x, x ∈ ((((s.take n i).markQuestionUsed n q).await n c).withCluster cluster).excludeIds n ↔
      x = q ∨ x ∈ s.excludeIds n := by
  intro x
  simp [excludeIds, markQuestionUsed, JsSet.mem_add]

/-- **The question.** It is none of those the machine has asked, and joins the used ones with its round. -/
theorem startRound_loopInv (h : s.LoopInv) (n : String) (i : ℕ) (q : Machine.QuestionInput) (now : Clock)
    (hq : s.Excludes (.startRound n i q now)) : (s.startRound J n i q now).LoopInv := by
  unfold startRound
  split
  · rename_i cached ids hi
    have hnew : q.id ∉ ids := hq _ hi
    have hcalls : ((((s.take n i).markQuestionUsed n q.id).await n .callback).runtime n).calls =
        (s.runtime n).calls.eraseIdx i ++ [.callback] := by simp [markQuestionUsed]
    have hlive : (s.runtime n).calls ≠ [] := List.ne_nil_of_mem (List.mem_of_getElem? hi)
    cases cached with
    | false =>
      -- the machine has left the cache: only the question is marked
      have ht : s.Turn (((s.take n i).markQuestionUsed n q.id).await n .callback) n :=
        (((Turn.refl s n).setRuntime _).setRuntime _).setRuntime _
      refine ht.loopInv h fun e hs => ?_
      rcases hs with ⟨c, asked, hw⟩ | hd
      · exact (hw.no_call hi rfl).elim
      · refine .inr (hd.replace ht i [.callback] hcalls (by simp [LoopCall.entry, LoopCall.isFetch]) fun hown =>
          ⟨hown, fun _ => .inr hlive, fun x hx => ?_⟩)
        exact (excludeIds_marked s n i q.id .callback s.cluster x).2 (.inr hx)
    | true =>
      simp only [if_true]
      set s' := (((s.take n i).markQuestionUsed n q.id).await n .callback).withCluster
        (s.cluster.mutate J n (.startRound q none now)) with hs'
      have hr : s.Recast s' n ((s.cluster.nodes n).machine.map fun m => m.step J (.startRound q none now))
          (s.cluster.nodes n).hydrations :=
        ⟨Cluster.step_grantInv J h.grants (.op (.mutate n (.startRound q none now))), mutate_eq J s.cluster n _,
          fun k hk => by simp [hs', await, take, markQuestionUsed, setRuntime_ne _ hk]⟩
      obtain ⟨hmachine, howned, hpersist⟩ := hr.parts
      refine hr.loopInv h fun e hs => ?_
      rcases hs with ⟨c, asked, hw⟩ | hd
      · exact (hw.no_call hi rfl).elim
      have hdone : ∀ c ∈ (s'.runtime n).calls, c.entry = none := by
        intro c hc
        rw [hs', withCluster_runtime, hcalls] at hc
        rcases List.mem_append.1 hc with hc | hc
        · exact hd.done c (List.mem_of_mem_eraseIdx hc)
        · rw [List.mem_singleton.1 hc]
          rfl
      refine .inr ⟨hdone, ?_, ?_⟩
      · rw [hpersist]
        exact hd.persist
      · rw [howned]
        intro hown
        obtain ⟨asked, hcov⟩ := hd.covered hown
        have hnone : (s'.runtime n).calls.countP LoopCall.isFetch = 0 := by
          rw [hs', withCluster_runtime, hcalls, List.countP_append, countP_eraseIdx hi rfl hcov.single]
          rfl
        refine ⟨q.id :: asked, fun qs hqs => ?_, fun _ x hx => ?_, ?_, hnone.le.trans (Nat.zero_le 1)⟩
        · rcases hr.copy (fun m hm => .hydration hm)
              (fun e' x o hc => absurd (hdone _ hc) (by simp [LoopCall.entry])) hqs
            with hold | ⟨m', hm', rfl⟩
          · obtain ⟨hn, hsub⟩ := hcov.copies qs hold
            exact ⟨hn, List.subset_cons_of_subset _ hsub⟩
          · obtain ⟨m, hm, rfl⟩ := Option.map_eq_some_iff.1 (Option.mem_def.1 hm')
            obtain ⟨hn, hsub⟩ := hcov.copies _ (.cached hm)
            rcases startRound_asked m q now (J := J) with hasked | hasked
            · rw [hasked]
              exact ⟨hn, List.subset_cons_of_subset _ hsub⟩
            · have hfresh : q.id ∉ askedQuestions m.eventLog := fun hmem =>
                hnew ((hcov.fetch ids (List.mem_of_getElem? hi) m hm).2 hmem)
              rw [hasked]
              refine ⟨List.nodup_append.2 ⟨hn, List.nodup_singleton _, ?_⟩, ?_⟩
              · intro x hx y hy hxy
                rw [List.mem_singleton.1 hy] at hxy
                exact hfresh (hxy ▸ hx)
              · intro x hx
                rcases List.mem_append.1 hx with hx | hx
                · exact List.mem_cons_of_mem _ (hsub hx)
                · rw [List.mem_singleton.1 hx]
                  exact List.mem_cons_self
        · refine (excludeIds_marked s n i q.id .callback _ x).2 ?_
          rcases List.mem_cons.1 hx with rfl | hx
          · exact .inl rfl
          · exact .inr (hcov.used (.inr hlive) hx)
        · intro ids' hids
          exact absurd rfl (List.countP_eq_zero.1 hnone _ hids)
  · exact h

/-! ## Leases -/

/-- a lease beyond the counter was granted to nobody -/
theorem not_granted {c : Cluster} (h : c.GrantInv) {k : String} (he : e ∈ (c.nodes k).granted)
    (hlt : c.keys.fence.getD 0 < e.1) : False := absurd (h.bounded k e he) (Nat.not_le.2 hlt)

theorem acquire_loopInv (h : s.LoopInv) (n : String) (hafresh : s.TakesAfresh (.acquireForRecovery n)) :
    (s.acquireForRecovery n).LoopInv := by
  have hg : (s.cluster.acquire n).GrantInv := Cluster.step_grantInv StringOps.ascii h.grants (.op (.acquire n))
  unfold acquireForRecovery
  rcases s.cluster.keys.acquire_cases n with ⟨hk, hno⟩ | ⟨f, hlt, hk, hr⟩
  · have hcluster : s.cluster.acquire n = s.cluster := by
      unfold Cluster.acquire
      simp only [hk]
    split
    · rename_i f l hreply
      exact absurd hreply (hno f l)
    · rw [hcluster]
      exact h
  · split_ifs at hr with hsmall
    · -- granted
      obtain ⟨hcached, hhydrations, htimers, hcalls⟩ : s.Afresh n := hafresh (by rw [hr]; rfl)
      have hcluster : s.cluster.acquire n = Cluster.setNode
          { s.cluster with keys := { s.cluster.keys with owner := some (leaseValue n f), fence := some f } } n
          { s.cluster.nodes n with granted := (s.cluster.nodes n).granted ++ [(f, leaseValue n f)] } := by
        unfold Cluster.acquire
        simp only [hk, hr]
      have hkeys : (s.cluster.acquire n).keys =
          { s.cluster.keys with owner := some (leaseValue n f), fence := some f } := by
        rw [hcluster]
        rfl
      have hself : (s.cluster.acquire n).nodes n =
          { s.cluster.nodes n with granted := (s.cluster.nodes n).granted ++ [(f, leaseValue n f)] } := by
        rw [hcluster, Cluster.setNode_nodes, if_pos rfl]
      have hothers : ∀ k, k ≠ n → (s.cluster.acquire n).nodes k = s.cluster.nodes k := fun k hkn => by
        rw [hcluster, Cluster.setNode_nodes, if_neg hkn]
      rw [hr]
      simp only
      set s' := (s.withCluster (s.cluster.acquire n)).await n (.acquired (f, leaseValue n f)) with hs'
      have hstate : s'.cluster.keys.state = s.cluster.keys.state := by
        have hold := congrArg Keys.state hkeys
        exact hold
      -- every copy has the stored log
      obtain ⟨asked, hn, hall⟩ : ∃ asked : List String, asked.Nodup ∧
          ∀ b ∈ s.cluster.keys.state, askedQuestions (Cluster.eventLogOf b) = asked := by
        cases hb : s.cluster.keys.state with
        | none => exact ⟨[], List.nodup_nil, fun b hb => absurd hb (by simp)⟩
        | some b =>
          refine ⟨_, h.stored b hb, fun b' hb' => ?_⟩
          obtain rfl : b = b' := Option.some.inj hb'
          rfl
      have hcopies : ∀ qs, s'.Copy n (f, leaseValue n f) qs → qs = asked := by
        intro qs hqs
        cases hqs with
        | stored hb =>
          rw [hstate] at hb
          exact hall _ hb
        | cached hm =>
          simp only [hs', QuestionLoop.machine, await, setRuntime_cluster, withCluster_cluster, hself] at hm
          obtain ⟨b, hb, hlog⟩ := Option.map_eq_some_iff.1 (hcached _ hm)
          rw [← hlog]
          exact hall b hb
        | hydration hm =>
          simp only [hs', await, setRuntime_cluster, withCluster_cluster, hself] at hm
          obtain ⟨b, hb, hlog⟩ := Option.map_eq_some_iff.1 (hhydrations _ hm)
          rw [← hlog]
          exact hall b hb
        | persist hp hsnap =>
          simp only [hs', await, setRuntime_cluster, withCluster_cluster, hself] at hp
          exact (not_granted h.grants (hsnap ▸ h.grants.snapshot n _ hp) hlt).elim
        | held hc => simp [hs', hcalls] at hc
      refine ⟨hg, fun b hb => h.stored b (by rwa [hstate] at hb), fun k e hke => .inl ?_⟩
      have hfence : e.1 = f := by
        have hfence := hke.2.2
        rw [show s'.cluster.keys.fence = some f from congrArg Keys.fence hkeys] at hfence
        exact (Option.some.inj hfence).symm
      have hgranted : k = n ∧ e = (f, leaseValue n f) := by
        have he : e ∈ ((s.cluster.acquire n).nodes k).granted := hke.1
        by_cases hkn : k = n
        · rw [hkn, hself] at he
          rcases List.mem_append.1 he with he | he
          · exact (not_granted h.grants he (hfence ▸ hlt)).elim
          · exact ⟨hkn, List.mem_singleton.1 he⟩
        · rw [hothers k hkn] at he
          exact (not_granted h.grants he (hfence ▸ hlt)).elim
      obtain ⟨rfl, rfl⟩ := hgranted
      refine ⟨.acquired (f, leaseValue k f), asked, by simp [hs', hcalls], rfl, by simpa [hs'] using htimers, hn,
        hcopies, ?_, ?_⟩
      · exact fun hc => absurd hc (by simp)
      · exact fun hc => absurd hc (by simp)
    · -- claimed, but the caller has no lease
      have hcluster : s.cluster.acquire n =
          { s.cluster with keys := { s.cluster.keys with owner := some (leaseValue n f), fence := some f } } := by
        unfold Cluster.acquire
        simp only [hk, hr]
      rw [hr]
      simp only
      refine ⟨hg, fun b hb => ?_, fun k e hke => ?_⟩
      · rw [withCluster_cluster, hcluster] at hb
        exact h.stored b hb
      · rw [withCluster_cluster, hcluster] at hke
        have hfence : f = e.1 := Option.some.inj hke.2.2
        exact (not_granted h.grants hke.1 (hfence ▸ hlt)).elim

/-! ## Runs -/

theorem step_loopInv (h : s.LoopInv) (o : LoopOp) (hq : s.Excludes o) (hafresh : s.TakesAfresh o) :
    (s.step J o).LoopInv := by
  cases o with
  | background o =>
    simp only [step]
    split_ifs with ho
    · obtain ⟨n, hb⟩ := background_step J h.grants o ho
      exact hb.loopInv h (Cluster.step_grantInv J h.grants o)
    · exact h
  | command n o => exact command_loopInv h n o
  | evictStateMachine n => exact evict_loopInv h n
  | install n i key => exact install_loopInv h n i key
  | acquireForRecovery n => exact acquire_loopInv h n hafresh
  | recordOwnership n i => exact recordOwnership_loopInv h n i
  | hydrateRecoveryState n i => exact hydrateRecoveryState_loopInv h n i
  | revalidateOwnership n i => exact revalidateOwnership_loopInv h n i
  | resumeMatchLoop n i => exact resumeMatchLoop_loopInv h n i
  | retryRecovery n i => exact retryRecovery_loopInv h n i
  | startMatchLoop n i => exact startMatchLoop_loopInv h n i
  | cancelMatchLoop n => exact cancelMatchLoop_loopInv h n
  | fire n => exact fire_loopInv h n
  | armPhaseTimer n i => exact armPhaseTimer_loopInv h n i
  | finishCall n i => exact finishCall_loopInv h n i
  | assertOwnership n i => exact assertOwnership_loopInv h n i
  | executeRound n i now => exact executeRound_loopInv h n i now
  | startRound n i q now => exact startRound_loopInv h n i q now hq
  | endRound n now => exact endRound_loopInv h n now

theorem first_lease (creator : String) (blob : WireMatch) :
    ({ (Keys.empty : Keys WireMatch) with state := some blob }).acquireMatchLease creator =
      ({ (Keys.empty : Keys WireMatch) with
        state := some blob, owner := some (leaseValue creator 1), fence := some 1 },
        .acquired 1 (leaseValue creator 1)) := by
  have hread : luaReadBack 1 = 1 := by decide +kernel
  have htext : luaTostring 1 = decimal 1 := by decide +kernel
  simp [Keys.acquireMatchLease, Keys.empty, Keys.ownerLive, incr, hread, leaseValue, htext]

/-- the launched match: its creator has the machine, the lease and the ownership entry -/
theorem init_cluster (creator : String) (m : Machine) :
    (init creator m).cluster.keys.state = some m.serialize ∧
      ∀ k, (init creator m).cluster.nodes k = if k = creator then
        { Node.idle with
          machine := some m
          granted := [(1, leaseValue creator 1)]
          owned := some (1, leaseValue creator 1) } else Node.idle := by
  have hkeys : (Cluster.init creator m).keys = { (Keys.empty : Keys WireMatch) with state := some m.serialize } := rfl
  have hgrant : (Cluster.init creator m).acquire creator = Cluster.setNode
      { Cluster.init creator m with keys := { (Keys.empty : Keys WireMatch) with
        state := some m.serialize, owner := some (leaseValue creator 1), fence := some 1 } } creator
      { (Cluster.init creator m).nodes creator with granted := [(1, leaseValue creator 1)] } := by
    unfold Cluster.acquire
    rw [hkeys, first_lease]
    simp [Cluster.init_node, Node.idle]
  have hown : (init creator m).cluster = ((Cluster.init creator m).acquire creator).setNode creator
      { ((Cluster.init creator m).acquire creator).nodes creator with owned := some (1, leaseValue creator 1) } := by
    simp only [init, Cluster.own]
    rw [if_pos]
    rw [hgrant, Cluster.setNode_nodes, if_pos rfl]
    exact List.mem_singleton.2 rfl
  refine ⟨by rw [hown, hgrant]; rfl, fun k => ?_⟩
  rw [hown, hgrant, Cluster.setNode_nodes]
  split_ifs with hk
  · rw [Cluster.setNode_nodes, if_pos rfl, Cluster.init_node, if_pos rfl]
  · rw [Cluster.setNode_nodes, if_neg hk]
    exact (Cluster.init_node creator m k).trans (if_neg hk)

/-- a match that has just been launched has asked nothing -/
theorem init_loopInv (creator matchId roomId : String) (players : List PlayerInfo) :
    (init creator (Machine.create matchId roomId players)).LoopInv := by
  set m := Machine.create matchId roomId players with hm
  obtain ⟨hstate, hnodes⟩ := init_cluster creator m
  have hnothing : askedQuestions m.eventLog = [] := rfl
  have hg : (init creator m).cluster.GrantInv :=
    Cluster.step_grantInv StringOps.ascii (Cluster.step_grantInv StringOps.ascii (Cluster.grantInv_init creator m)
      (.op (.acquire creator))) (.op (.own creator (1, leaseValue creator 1)))
  have hself := hnodes creator
  rw [if_pos rfl] at hself
  refine ⟨hg, fun b hb => ?_, fun n e hne => .inl ?_⟩
  · rw [hstate] at hb
    obtain rfl := Option.some.inj hb
    rw [Cluster.eventLogOf_serialize, hnothing]
    exact List.nodup_nil
  · have hgranted := hne.1
    rw [hnodes n] at hgranted
    split_ifs at hgranted with hn
    · subst hn
      obtain rfl := List.mem_singleton.1 hgranted
      refine ⟨.launching (1, leaseValue n 1), [], ?_, rfl, ?_, List.nodup_nil, fun qs hqs => ?_, fun _ => rfl, ?_⟩
      · simp [init]
      · simp [init, Runtime.idle]
      · cases hqs with
        | stored hb =>
          rw [hstate] at hb
          obtain rfl := Option.some.inj hb
          rw [Cluster.eventLogOf_serialize, hnothing]
        | cached hx =>
          rw [QuestionLoop.machine, hself] at hx
          obtain rfl := Option.some.inj hx
          exact hnothing
        | hydration hx =>
          rw [hself] at hx
          cases hx
        | persist hp _ =>
          rw [hself] at hp
          cases hp
        | held hc => simp [init] at hc
      · exact fun hc => absurd hc (by simp)
    · cases hgranted

/-- **No question is asked twice** in a run in which every lease goes to a node that takes the match afresh: whatever
persists fail, whatever is evicted and hydrated, and however often the match changes hands. -/
theorem no_question_asked_twice (J : StringOps) (creator matchId roomId : String) (players : List PlayerInfo)
    (ops : List LoopOp) (hq : Along (step J) Excludes (init creator (Machine.create matchId roomId players)) ops)
    (hafresh : Along (step J) TakesAfresh (init creator (Machine.create matchId roomId players)) ops) :
    (run (step J) (init creator (Machine.create matchId roomId players)) ops).AskedOnce :=
  (run_inv (step J) (fun s o => s.Excludes o ∧ s.TakesAfresh o) LoopInv
    (fun _ o hg h => step_loopInv h o hg.1 hg.2) _ ops (along_and (step J) _ _ _ ops hq hafresh)
    (init_loopInv creator matchId roomId players)).stored

/-! ## A match of two nodes -/

def duel : Machine := Machine.create "m1" "r1" [freshPlayer "alice", freshPlayer "bob"]

def question (id : String) : Machine.QuestionInput := ⟨id, "2+2", ["3", "4"], "4", none⟩

/-- a persist; when the read of the revision fails it is refused -/
def persistCall (n : String) (failed : Bool) : List LoopOp :=
  [.background (.op (.persistStateMachine n)), .background (.op (.readPersistedRevision n failed)),
    .background (.op (.fencedStateSet n))]

def launchLoop (n : String) : List LoopOp :=
  [.startMatchLoop n 0, .command n (.transition .countdown fun _ => 5)] ++ persistCall n false ++
    [.armPhaseTimer n 0, .finishCall n 0]

/-- the lease expires, and the heartbeat of its holder notices -/
def loseLease (n : String) : List LoopOp := [.background (.op (.redis (.expire .owner))), .cancelMatchLoop n]

def takeLease (n : String) : List LoopOp := [.acquireForRecovery n, .recordOwnership n 0]

def reload (n : String) : List LoopOp :=
  [.background (.op (.getStateMachine n)), .background (.op (.readState n)), .install n 0 none]

def resume (n : String) : List LoopOp := [.hydrateRecoveryState n 0, .revalidateOwnership n 0, .resumeMatchLoop n 0]

def askRound (n id : String) (t : Time) : List LoopOp :=
  [.fire n, .assertOwnership n 0, .executeRound n 0 fun _ => t, .startRound n 0 (question id) fun _ => t] ++
    persistCall n false ++ [.armPhaseTimer n 0, .finishCall n 0]

/-- both players answer, and the round is evaluated and shown -/
def playRound (n : String) (t : Time) : List LoopOp :=
  [.command n (.submitAnswer "alice" "4" t none fun _ => t), .command n (.submitAnswer "bob" "4" t none fun _ => t),
    .endRound n fun _ => t] ++ persistCall n false ++ [.command n (.transition .roundResult fun _ => t)] ++
    persistCall n false

/-- a persist of the node is refused, and its machine evicted and hydrated again -/
def refusedCommand (n : String) (t : Time) : List LoopOp :=
  [.command n (.disconnectPlayer "bob" fun _ => t)] ++ persistCall n true ++ [.evictStateMachine n] ++ reload n

/-- node b takes the match over after the first round, has a persist refused, and asks the second question -/
def takeover : List LoopOp :=
  launchLoop "a" ++ askRound "a" "q1" 100 ++ playRound "a" 200 ++ loseLease "a" ++ takeLease "b" ++ reload "b" ++
    resume "b" ++ refusedCommand "b" 300 ++ askRound "b" "q2" 400

theorem no_question_asked_twice_takeover :
    (run (step StringOps.ascii) (init "a" duel) takeover).cluster.keys.state.map
      (fun b => askedQuestions (Cluster.eventLogOf b)) = some ["q1", "q2"] ∧
      (run (step StringOps.ascii) (init "a" duel) takeover).AskedOnce :=
  ⟨by decide +kernel, no_question_asked_twice StringOps.ascii "a" "m1" "r1" [freshPlayer "alice", freshPlayer "bob"]
    takeover (by decide +kernel) (by decide +kernel)⟩

/-- node a launches and loses its lease; node b plays the first round and loses it too; node a resumes the machine
it had cached, in its countdown, and hydrates the stored one after a refused persist -/
def staleTakeover : List LoopOp :=
  launchLoop "a" ++ loseLease "a" ++ takeLease "b" ++ reload "b" ++ resume "b" ++ askRound "b" "q1" 100 ++
    playRound "b" 200 ++ loseLease "b" ++ takeLease "a" ++ resume "a" ++ refusedCommand "a" 300 ++ askRound "a" "q1" 400

/-- the question service keeps to the ids it is given, and the stored log has the first question twice -/
theorem stale_cache_asks_again :
    Along (step StringOps.ascii) Excludes (init "a" duel) staleTakeover ∧
      (run (step StringOps.ascii) (init "a" duel) staleTakeover).cluster.keys.state.map
        (fun b => askedQuestions (Cluster.eventLogOf b)) = some ["q1", "q1"] ∧
      ¬(run (step StringOps.ascii) (init "a" duel) staleTakeover).AskedOnce := by
  decide +kernel

end QuestionLoop

end Arena.Api
