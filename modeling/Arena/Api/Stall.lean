/-
A match that is owned moves on: whenever no call of the game loop is in flight, a timer is armed whose callback changes
the status.

Progress is carried by coverage: each suspended call and each timer is good for some phases, and in every phase that is
not FINISHED something good for it is pending. A step that leaves the phase leaves a call that is good for the next one.

- `step_loopInv`: a step that `Advances` keeps the coverage;
- `owned_match_moves`: in every run whose steps advance, from a launch or from a blob with its round, the match never
  stalls;
- `failures_stall_match`: rows that are not stored leave ROUND_EVALUATING for good, and a blob written while the
  question was fetched is resumed into a round that never ends.
-/
import Arena.Api.Shape

namespace Arena.Api

open Arena.Lib Arena.Shared Arena.GameCore Arena.GameCore.Machine

/-! ## Statement -/

/-- the calls whose failure nothing makes up for: the launch (a failed one is given up), the persists of a match in play,
and the rows of a round -/
def Task.mustApply : Task → Bool
  | .startMatchLoop _ => true
  | .endSave _ => true
  | .finishPersist => false
  | t => t.isPersist

/-- the call holds the round-end guard -/
def Task.endsRound : Task → Bool
  | .endGet _ => true
  | .endEvaluated _ => true
  | .endRecover _ => true
  | .endSave _ => true
  | .endPersist _ => true
  | .endResult _ => true
  | _ => false

def Task.isEndResult : Task → Bool
  | .endResult _ => true
  | _ => false

def Task.isEndAssert : Task → Bool
  | .endAssert _ => true
  | _ => false

namespace Runner

/-- the callback of `t`, fired once it is due, with nothing else running: its awaits get `replies` in turn -/
def callback (J : StringOps) (s : Runner) (t : Timer) (replies : List Reply) : Runner :=
  replies.foldl (fun s reply => s.resume J 0 reply)
    ({ s with timers := s.timers.erase t, clock := max s.clock t.due }.timerCallback t.kind)

/-- after a fixed number of awaits, whatever they return, the callback of `t` has changed the status -/
def WillMove (J : StringOps) (s : Runner) (t : Timer) : Prop :=
  ∃ n, ∀ replies : List Reply, replies.length = n →
    (s.callback J t replies).machine.state.status ≠ s.machine.state.status

/-- FINISHED, or a call is in flight, or a timer is armed that changes the status -/
def Moves (J : StringOps) (s : Runner) : Prop :=
  s.machine.state.status ≠ .finished → s.tasks = [] → ∃ t ∈ s.timers, WillMove J s t

/-- the loop starts with the launch of a created match, or takes a stored one over -/
inductive Started (J : StringOps) : Runner → Prop where
  | launched (matchId roomId : String) (players : List PlayerInfo) (hd : (players.map PlayerInfo.id).Nodup)
      (clock : Time) (isAllCategory : Bool) :
      Started J ((adopt (Machine.create matchId roomId players) clock).step J (.startMatchLoop isAllCategory))
  | resumed (m : Machine) (clock : Time) (h : Written J m) : Started J ((adopt m clock).step J .resumeMatchLoop)

/-- the blob that is taken over was launched (a CREATED one is given up), and in ROUND_ACTIVE it has its round -/
def Resumable (s : Runner) : Prop :=
  (s.machine.state.status = .created → s.tasks ≠ []) ∧
    (s.machine.state.status = .roundActive → s.machine.currentRound ≠ none)

/-- a call of the loop does not fail where it must not, a round end that backs off does not meet the last persist of the
round before, and the loop is not torn down (which releases the match) -/
def Advances (s : Runner) : RunnerOp → Prop
  | .resume i reply =>
    (s.tasks[i]?.any Task.mustApply = true → reply.applied = true) ∧
      (s.tasks[i]?.any Task.isEndAssert = true →
        s.machine.state.status = .roundActive ∨ s.machine.state.status = .roundEvaluating →
        ∀ t ∈ s.tasks, t.isEndResult = false)
  | .cancelMatchLoop => False
  | _ => True

instance (s : Runner) : Decidable (Resumable s) :=
  inferInstanceAs (Decidable ((_ → s.tasks ≠ []) ∧ (_ → s.machine.currentRound ≠ none)))

instance (s : Runner) : (o : RunnerOp) → Decidable (Advances s o)
  | .resume i reply =>
    inferInstanceAs (Decidable ((s.tasks[i]?.any Task.mustApply = true → reply.applied = true) ∧
      (s.tasks[i]?.any Task.isEndAssert = true →
        s.machine.state.status = .roundActive ∨ s.machine.state.status = .roundEvaluating →
        ∀ t ∈ s.tasks, t.isEndResult = false)))
  | .cancelMatchLoop => .isFalse id
  | .tick _ => .isTrue trivial
  | .startMatchLoop _ => .isTrue trivial
  | .resumeMatchLoop => .isTrue trivial
  | .fire _ => .isTrue trivial
  | .checkEarlyTermination => .isTrue trivial
  | .command _ => .isTrue trivial

end Runner

/-! ## Coverage -/

/-- the phases a suspended call is good for -/
def Task.covers (m : Machine) : Task → Prop
  | .startMatchLoop _ => m.state.status = .created
  | .startPersist isAllCategory => m.state.status = if isAllCategory then .topicVoting else .countdown
  | .votingAssert => m.state.status = .topicVoting
  | .votingGet => m.state.status = .topicVoting
  | .votingPersist _ => m.state.status = .countdown
  | .countdownGet => m.state.status = .countdown
  | .executeAssert => m.state.status = .countdown ∨ m.state.status = .roundResult
  | .executeGet => m.state.status = .countdown ∨ m.state.status = .roundResult
  | .executeQuestion => m.state.status = .roundActive ∧ m.currentRound = none
  | .executePersist _ => m.state.status = .roundActive ∧ m.currentRound ≠ none
  | .endAssert _ => (m.state.status = .roundActive ∧ m.currentRound ≠ none) ∨ m.state.status = .roundEvaluating
  | .endGet _ => (m.state.status = .roundActive ∧ m.currentRound ≠ none) ∨ m.state.status = .roundEvaluating
  | .endEvaluated _ => m.state.status = .roundEvaluating
  | .endRecover _ => m.state.status = .roundEvaluating
  | .endSave _ => m.state.status = .roundEvaluating
  | .endPersist _ => m.state.status = .roundEvaluating
  | .endResult _ => m.state.status = .roundResult
  | .checkAssert _ => m.state.status = .roundResult
  | .checkGet _ => m.state.status = .roundResult
  | .finishAssert _ => m.state.status ≠ .created
  | .finishGet _ => m.state.status ≠ .created
  | _ => False

def TimerKind.covers (m : Machine) : TimerKind → Prop
  | .topicVoting => m.state.status = .topicVoting
  | .countdown => m.state.status = .countdown
  | .roundEnd _ => m.state.status = .roundActive ∧ m.currentRound ≠ none
  | .matchEndCheck _ => m.state.status = .roundResult

/-- the call holds the finish guard -/
def Task.finishes : Task → Bool
  | .finishAssert _ => true
  | .finishGet _ => true
  | .finishPersist => true
  | .finishDb => true
  | .finishRelease => true
  | _ => false

/-- where a call that has evaluated the round, or finished the match, stands -/
def Task.fits (status : MatchStatus) : Task → Prop
  | .endEvaluated _ => status = .roundEvaluating ∨ status = .finished
  | .endRecover _ => status = .roundEvaluating ∨ status = .finished
  | .endSave _ => status = .roundEvaluating ∨ status = .finished
  | .endPersist _ => status = .roundEvaluating ∨ status = .finished
  | .finishPersist => status = .finished
  | .finishDb => status = .finished
  | .finishRelease => status = .finished
  | _ => True

namespace Runner

/-- something pending is good for the phase -/
def Covered (s : Runner) : Prop :=
  s.machine.state.status = .finished ∨ (∃ t ∈ s.tasks, t.covers s.machine) ∨ ∃ t ∈ s.timers, t.kind.covers s.machine

structure LoopInv (s : Runner) : Prop where
  cached : s.cached = true ∨ s.machine.state.status = .finished
  /-- one call at most holds each guard -/
  ending : s.tasks.countP Task.endsRound = s.endingRound.toNat
  finishing : s.tasks.countP Task.finishes = s.finishing.toNat
  fits : ∀ t ∈ s.tasks, t.fits s.machine.state.status
  covered : Covered s

namespace LoopInv

variable {s s' : Runner} {t : Task}

/-- the invariant does not depend on the order of the suspended calls -/
theorem perm (h : LoopInv s) {tasks : List Task} (hp : s.tasks.Perm tasks) : LoopInv { s with tasks := tasks } where
  cached := h.cached
  ending := (hp.countP_eq _).symm.trans h.ending
  finishing := (hp.countP_eq _).symm.trans h.finishing
  fits := fun t ht => h.fits t (hp.mem_iff.2 ht)
  covered := by
    rcases h.covered with hf | ⟨t, ht, hc⟩ | ht
    · exact .inl hf
    · exact .inr (.inl ⟨t, hp.mem_iff.1 ht, hc⟩)
    · exact .inr (.inr ht)

/-- the call that runs held no guard -/
theorem free (h : LoopInv { s with tasks := t :: s.tasks }) (he : t.endsRound = false) (hf : t.finishes = false) :
    s.tasks.countP Task.endsRound = s.endingRound.toNat ∧ s.tasks.countP Task.finishes = s.finishing.toNat := by
  have h1 := h.ending
  have h2 := h.finishing
  simp only [List.countP_cons, he, hf] at h1 h2
  exact ⟨h1, h2⟩

/-- the call that runs held the round-end guard -/
theorem held (h : LoopInv { s with tasks := t :: s.tasks }) (he : t.endsRound = true) (hf : t.finishes = false) :
    s.endingRound = true ∧ s.tasks.countP Task.endsRound = 0 ∧ s.tasks.countP Task.finishes = s.finishing.toNat := by
  have h1 := h.ending
  have h2 := h.finishing
  simp only [List.countP_cons, he, hf, if_true] at h1 h2
  cases hr : s.endingRound with
  | false =>
    rw [hr] at h1
    cases h1
  | true =>
    rw [hr] at h1
    exact ⟨rfl, Nat.succ.inj h1, h2⟩

/-- the call that runs held the finish guard -/
theorem heldFinish (h : LoopInv { s with tasks := t :: s.tasks }) (he : t.endsRound = false) (hf : t.finishes = true) :
    s.finishing = true ∧ s.tasks.countP Task.endsRound = s.endingRound.toNat ∧ s.tasks.countP Task.finishes = 0 := by
  have h1 := h.ending
  have h2 := h.finishing
  simp only [List.countP_cons, he, hf, if_true] at h1 h2
  cases hr : s.finishing with
  | false =>
    rw [hr] at h2
    cases h2
  | true =>
    rw [hr] at h2
    exact ⟨rfl, h1, Nat.succ.inj h2⟩

theorem fits_head (h : LoopInv { s with tasks := t :: s.tasks }) : t.fits s.machine.state.status :=
  h.fits t (List.mem_cons_self ..)

/-- what covered the phase before a call ran covers it after, or the call did -/
theorem pass (h : LoopInv { s with tasks := t :: s.tasks }) (s' : Runner) (hm : s'.machine = s.machine)
    (ht : s.tasks ⊆ s'.tasks) (htimers : s.timers ⊆ s'.timers) (hc : t.covers s.machine → Covered s') : Covered s' := by
  rcases h.covered with hf | ⟨x, hx, hcov⟩ | ⟨x, hx, hcov⟩
  · exact .inl (hm ▸ hf)
  · rcases List.mem_cons.1 hx with rfl | hx
    · exact hc hcov
    · exact .inr (.inl ⟨x, ht hx, hm ▸ hcov⟩)
  · exact .inr (.inr ⟨x, htimers hx, hm ▸ hcov⟩)

/-- a call goes on to its next await and keeps what it holds -/
theorem swap (h : LoopInv { s with tasks := t :: s.tasks }) (t' : Task) (he : t'.endsRound = t.endsRound)
    (hf : t'.finishes = t.finishes) (hfit : t'.fits s.machine.state.status)
    (hc : t.covers s.machine → t'.covers s.machine) : LoopInv (s.await t') where
  cached := h.cached
  ending := by
    have h1 := h.ending
    simp only [List.countP_cons] at h1
    simp only [await, List.countP_append, List.countP_singleton, he, h1]
  finishing := by
    have h1 := h.finishing
    simp only [List.countP_cons] at h1
    simp only [await, List.countP_append, List.countP_singleton, hf, h1]
  fits := by
    intro x hx
    rcases List.mem_append.1 hx with hx | hx
    · exact h.fits x (List.mem_cons_of_mem _ hx)
    · rw [List.mem_singleton.1 hx]
      exact hfit
  covered := by
    refine h.pass (s.await t') rfl (List.subset_append_left _ _) (List.Subset.refl _) ?_
    intro hcov
    exact .inr (.inl ⟨t', List.mem_append_right _ (List.mem_singleton.2 rfl), hc hcov⟩)

/-- a call ends, with no guard to give back -/
theorem drop (h : LoopInv { s with tasks := t :: s.tasks }) (he : t.endsRound = false) (hf : t.finishes = false)
    (hc : t.covers s.machine → Covered s) : LoopInv s where
  cached := h.cached
  ending := (h.free he hf).1
  finishing := (h.free he hf).2
  fits := fun x hx => h.fits x (List.mem_cons_of_mem _ hx)
  covered := h.pass _ rfl (List.Subset.refl _) (List.Subset.refl _) hc

/-- a call gives the round-end guard back -/
theorem release (h : LoopInv { s with tasks := t :: s.tasks }) (he : t.endsRound = true) (hf : t.finishes = false)
    (hc : t.covers s.machine → Covered s) : LoopInv s.endEndRound where
  cached := h.cached
  ending := (h.held he hf).2.1
  finishing := (h.held he hf).2.2
  fits := fun x hx => h.fits x (List.mem_cons_of_mem _ hx)
  covered := h.pass s rfl (List.Subset.refl _) (List.Subset.refl _) hc

theorem releaseFinish (h : LoopInv { s with tasks := t :: s.tasks }) (he : t.endsRound = false)
    (hf : t.finishes = true) (hc : t.covers s.machine → Covered s) : LoopInv s.endFinish where
  cached := h.cached
  ending := (h.heldFinish he hf).2.1
  finishing := (h.heldFinish he hf).2.2
  fits := fun x hx => h.fits x (List.mem_cons_of_mem _ hx)
  covered := h.pass s rfl (List.Subset.refl _) (List.Subset.refl _) hc

/-- a new call -/
theorem await (h : LoopInv s) (he : t.endsRound = false) (hf : t.finishes = false)
    (hfit : t.fits s.machine.state.status) : LoopInv (s.await t) where
  cached := h.cached
  ending := by simp only [Runner.await, List.countP_append, List.countP_singleton, he, h.ending]; rfl
  finishing := by simp only [Runner.await, List.countP_append, List.countP_singleton, hf, h.finishing]; rfl
  fits := by
    intro x hx
    rcases List.mem_append.1 hx with hx | hx
    · exact h.fits x hx
    · rw [List.mem_singleton.1 hx]
      exact hfit
  covered := by
    rcases h.covered with hx | ⟨x, hx, hcov⟩ | hx
    · exact .inl hx
    · exact .inr (.inl ⟨x, List.mem_append_left _ hx, hcov⟩)
    · exact .inr (.inr hx)

/-- one more timer -/
theorem armMore (h : LoopInv s) (kind : TimerKind) (remaining : Time) : LoopInv (s.armPhaseTimer kind remaining) where
  cached := h.cached
  ending := h.ending
  finishing := h.finishing
  fits := h.fits
  covered := by
    rcases h.covered with hx | hx | ⟨x, hx, hcov⟩
    · exact .inl hx
    · exact .inr (.inl hx)
    · exact .inr (.inr ⟨x, List.mem_append_left _ hx, hcov⟩)

theorem expect (h : LoopInv s) (n : Option ℕ) : LoopInv { s with expectedAnswers := n } :=
  ⟨h.cached, h.ending, h.finishing, h.fits, h.covered⟩

/-- a timer that has just been armed -/
theorem armed (kind : TimerKind) (remaining : Time) (hc : kind.covers s.machine) :
    Covered (s.armPhaseTimer kind remaining) :=
  .inr (.inr ⟨_, List.mem_append_right _ (List.mem_singleton.2 rfl), hc⟩)

/-- a call arms the timer that takes its place -/
theorem arm (h : LoopInv { s with tasks := t :: s.tasks }) (he : t.endsRound = false) (hf : t.finishes = false)
    (kind : TimerKind) (remaining : Time) (hc : t.covers s.machine → kind.covers s.machine) :
    LoopInv (s.armPhaseTimer kind remaining) := by
  have hmore : LoopInv { s.armPhaseTimer kind remaining with tasks := t :: s.tasks } := h.armMore kind remaining
  exact LoopInv.drop (s := s.armPhaseTimer kind remaining) hmore he hf fun hcov => armed kind remaining (hc hcov)

/-- a call moves the machine on and waits in the new phase -/
theorem moved (h : LoopInv { s with tasks := t :: s.tasks }) (hcached : s.cached = true) {m : Machine} (t' : Task)
    (he : t'.endsRound = t.endsRound) (hf : t'.finishes = t.finishes) (hold : ∀ x ∈ s.tasks, x.fits m.state.status)
    (hfit : t'.fits m.state.status) (hc : m.state.status = .finished ∨ t'.covers m) :
    LoopInv ({ s with machine := m }.await t') where
  cached := .inl hcached
  ending := by
    have h1 := h.ending
    simp only [List.countP_cons] at h1
    simp only [Runner.await, List.countP_append, List.countP_singleton, he, h1]
  finishing := by
    have h1 := h.finishing
    simp only [List.countP_cons] at h1
    simp only [Runner.await, List.countP_append, List.countP_singleton, hf, h1]
  fits := by
    intro x hx
    rcases List.mem_append.1 hx with hx | hx
    · exact hold x hx
    · rw [List.mem_singleton.1 hx]
      exact hfit
  covered := by
    rcases hc with hc | hc
    · exact .inl hc
    · exact .inr (.inl ⟨t', List.mem_append_right _ (List.mem_singleton.2 rfl), hc⟩)

/-- outside ROUND_EVALUATING and FINISHED every call fits every status -/
theorem fits_any (h : LoopInv { s with tasks := t :: s.tasks }) (he : s.machine.state.status ≠ .roundEvaluating)
    (hf : s.machine.state.status ≠ .finished) (status : MatchStatus) : ∀ x ∈ s.tasks, x.fits status := by
  intro x hx
  have hfit := h.fits x (List.mem_cons_of_mem _ hx)
  cases x <;> simp_all [Task.fits]

/-- a machine in the same phase -/
theorem same (h : LoopInv s) {m : Machine} (hs : SamePhase s.machine m) : LoopInv { s with machine := m } := by
  have hround : m.currentRound = none ↔ s.machine.currentRound = none := by
    constructor
    · intro hn
      cases hr : s.machine.currentRound with
      | none => rfl
      | some r =>
        obtain ⟨r', hr', -⟩ := hs.round r hr
        rw [hn] at hr'
        cases hr'
    · exact hs.idle
  have htask : ∀ x : Task, x.covers s.machine → x.covers m := by
    intro x hx
    cases x <;> simp only [Task.covers, hs.status, hround, ne_eq] at hx ⊢ <;> exact hx
  have htimer : ∀ x : TimerKind, x.covers s.machine → x.covers m := by
    intro x hx
    cases x <;> simp only [TimerKind.covers, hs.status, hround, ne_eq] at hx ⊢ <;> exact hx
  refine ⟨?_, h.ending, h.finishing, ?_, ?_⟩
  · exact h.cached.imp_right hs.status.trans
  · intro x hx
    have hfit := h.fits x hx
    rw [← hs.status] at hfit
    exact hfit
  · rcases h.covered with hx | ⟨x, hx, hcov⟩ | ⟨x, hx, hcov⟩
    · exact .inl (hs.status.trans hx)
    · exact .inr (.inl ⟨x, hx, htask x hcov⟩)
    · exact .inr (.inr ⟨x, hx, htimer _ hcov⟩)

theorem uncached (h : LoopInv s) (hc : (!s.cached) = true) : s.machine.state.status = .finished := by
  rcases h.cached with hx | hx
  · rw [hx] at hc
    cases hc
  · exact hx

/-! ### Stretches between awaits -/

theorem startLook {b : Bool} (h : LoopInv { s with tasks := .startMatchLoop b :: s.tasks }) (hc : s.cached = true) :
    LoopInv (s.startLook b) := by
  cases b with
  | true =>
    by_cases hs : s.machine.state.status = .created
    · obtain ⟨m, c, hm, hst⟩ : ∃ m c, s.machine.initTopicVoting none none s.now = (m, .ok c) ∧
          m.state.status = .topicVoting := by
        have hv : (s.machine.resetTopics (s.machine.candidatesFor none)).canTransition .topicVoting = true := by
          have hr : (s.machine.resetTopics (s.machine.candidatesFor none)).state.status = .created := hs
          simp [canTransition, hr, validTransitions]
        simp only [Machine.initTopicVoting, Machine.transition, if_pos hv]
        exact ⟨_, _, rfl, rfl⟩
      simp only [Runner.startLook, if_true, hm, Runner.awaitAfter]
      exact h.moved hc (.startPersist true) rfl rfl (h.fits_any (by rw [hs]; decide) (by rw [hs]; decide) _) trivial
        (.inr hst)
    · have hv : (s.machine.resetTopics (s.machine.candidatesFor none)).canTransition .topicVoting = false := by
        have hr : (s.machine.resetTopics (s.machine.candidatesFor none)).state.status = s.machine.state.status := rfl
        rw [canTransition, hr]
        cases hx : s.machine.state.status <;> simp_all [validTransitions]
      simp only [Runner.startLook, if_true, Machine.initTopicVoting, Machine.transition, hv, Bool.false_eq_true,
        if_false, Runner.awaitAfter, id]
      exact (h.drop rfl rfl fun hcov => absurd hcov hs).same (.of_round rfl rfl rfl rfl)
  | false =>
    by_cases hv : .countdown ∈ validTransitions s.machine.state.status
    · obtain ⟨m, hm, hst, -⟩ := transition_ok hv s.now
      simp only [Runner.startLook, Bool.false_eq_true, if_false, hm, Runner.awaitAfter]
      refine h.moved hc (.startPersist false) rfl rfl (h.fits_any ?_ ?_ _) trivial (.inr hst)
      · intro hs
        rw [hs] at hv
        simp [validTransitions] at hv
      · intro hs
        rw [hs] at hv
        cases hv
    · simp only [Runner.startLook, Bool.false_eq_true, if_false, transition_error hv, Runner.awaitAfter, id]
      refine h.drop rfl rfl fun hcov => absurd ?_ hv
      rw [show s.machine.state.status = .created from hcov]
      decide

theorem votingLook (h : LoopInv { s with tasks := .votingGet :: s.tasks }) : LoopInv s.votingLook := by
  unfold Runner.votingLook
  split_ifs with hc hs
  · exact h.drop rfl rfl fun _ => .inl (h.uncached hc)
  · exact h.drop rfl rfl fun hcov => absurd hcov hs
  · have hs' : s.machine.state.status = .topicVoting := not_not.1 hs
    have hv : .countdown ∈ validTransitions
        (s.machine.resolveTopicVoting GameConfig.topicVotingBannedCount s.now).1.state.status := by
      have hr : (s.machine.resolveTopicVoting GameConfig.topicVotingBannedCount s.now).1.state.status =
          s.machine.state.status := rfl
      rw [hr, hs']
      decide
    obtain ⟨m, hm, hst, -⟩ := transition_ok hv s.now
    simp only [hm, Runner.awaitAfter]
    exact h.moved (by simpa using hc) (.votingPersist s.machine) rfl rfl
      (h.fits_any (by rw [hs']; decide) (by rw [hs']; decide) _) trivial (.inr hst)

theorem executeLook (h : LoopInv { s with tasks := .executeGet :: s.tasks }) : LoopInv s.executeLook := by
  unfold Runner.executeLook
  split_ifs with hc
  · exact h.drop rfl rfl fun _ => .inl (h.uncached hc)
  by_cases hv : .roundActive ∈ validTransitions s.machine.state.status
  · obtain ⟨m, hm, hst, hr⟩ := transition_ok hv s.now
    simp only [hm, Runner.awaitAfter]
    refine h.moved (by simpa using hc) .executeQuestion rfl rfl (h.fits_any ?_ ?_ _) trivial (.inr ⟨hst, hr rfl⟩)
    · intro hs
      rw [hs] at hv
      simp [validTransitions] at hv
    · intro hs
      rw [hs] at hv
      cases hv
  · simp only [transition_error hv, Runner.awaitAfter, id]
    refine h.drop rfl rfl fun hcov => absurd ?_ hv
    rcases hcov with hs | hs
    · rw [show s.machine.state.status = .countdown from hs]
      decide
    · rw [show s.machine.state.status = .roundResult from hs]
      decide

/-- a finish that is already under way covers every phase but CREATED -/
theorem finishMatchLoop (h : LoopInv { s with tasks := t :: s.tasks }) (he : t.endsRound = false)
    (hf : t.finishes = false) (hc : t.covers s.machine → s.machine.state.status ≠ .created) (k : ℕ) :
    LoopInv (s.finishMatchLoop k) := by
  unfold Runner.finishMatchLoop
  split_ifs with hx
  · refine h.drop he hf fun hcov => ?_
    have hcount : 0 < s.tasks.countP Task.finishes := by
      rw [(h.free he hf).2, hx]
      decide
    obtain ⟨x, hmem, hfin⟩ := List.countP_pos_iff.1 hcount
    have hfit := h.fits x (List.mem_cons_of_mem _ hmem)
    cases x with
    | finishAssert n => exact .inr (.inl ⟨_, hmem, hc hcov⟩)
    | finishGet n => exact .inr (.inl ⟨_, hmem, hc hcov⟩)
    | finishPersist => exact .inl hfit
    | finishDb => exact .inl hfit
    | finishRelease => exact .inl hfit
    | _ => cases hfin
  · have hidle : s.finishing = false := by simpa using hx
    obtain ⟨h1, h2⟩ := h.free he hf
    refine ⟨h.cached, ?_, ?_, ?_, ?_⟩
    · simp only [Runner.await, List.countP_append, List.countP_singleton, Task.endsRound, h1]
      rfl
    · simp only [Runner.await, List.countP_append, List.countP_singleton, Task.finishes, h2, hidle]
      rfl
    · intro x hmem
      rcases List.mem_append.1 hmem with hmem | hmem
      · exact h.fits x (List.mem_cons_of_mem _ hmem)
      · rw [List.mem_singleton.1 hmem]
        trivial
    · refine h.pass ({ s with finishing := true }.await (.finishAssert k)) rfl (List.subset_append_left _ _)
        (List.Subset.refl _) fun hcov => ?_
      exact .inr (.inl ⟨_, List.mem_append_right _ (List.mem_singleton.2 rfl), hc hcov⟩)

theorem executeStart (h : LoopInv { s with tasks := .executeQuestion :: s.tasks }) (reply : Reply) :
    LoopInv (s.executeStart reply) := by
  have hfinish : LoopInv (s.finishMatchLoop s.machine.state.currentRoundNo) := by
    refine h.finishMatchLoop rfl rfl (fun hcov hs => ?_) _
    rw [show s.machine.state.status = .roundActive from hcov.1] at hs
    cases hs
  cases reply with
  | question q =>
    simp only [Runner.executeStart, Machine.startRound]
    split_ifs with hs
    · exact h.drop rfl rfl fun hcov => absurd hcov.1 hs
    · have hs' : s.machine.state.status = .roundActive := not_not.1 hs
      have hcached : s.cached = true := by
        rcases h.cached with hx | hx
        · exact hx
        · rw [show s.machine.state.status = .finished from hx] at hs'
          cases hs'
      refine h.moved hcached (.executePersist _) rfl rfl (h.fits_any (by rw [hs']; decide) (by rw [hs']; decide) _)
        trivial (.inr ⟨hs', ?_⟩)
      rintro hnone
      cases hnone
  | _ => exact hfinish

/-- the early end clears the timers and takes their place -/
theorem earlyLook (h : LoopInv s) (hm : Shape s.machine) : LoopInv s.earlyLook := by
  unfold Runner.earlyLook
  split_ifs
  · exact h
  split
  · exact h
  rename_i r hr
  split_ifs with hx
  · have hfits := hm.round
    rw [hr, Option.map_some, hx.2.2] at hfits
    refine ⟨h.cached, ?_, ?_, ?_, ?_⟩
    · simp only [Runner.endRound, Runner.await, Runner.clearTimers, List.countP_append, List.countP_singleton,
        Task.endsRound, h.ending]
      rfl
    · simp only [Runner.endRound, Runner.await, Runner.clearTimers, List.countP_append, List.countP_singleton,
        Task.finishes, h.finishing]
      rfl
    · intro x hmem
      rcases List.mem_append.1 hmem with hmem | hmem
      · exact h.fits x hmem
      · rw [List.mem_singleton.1 hmem]
        trivial
    · cases hs : s.machine.state.status with
      | roundActive =>
        refine .inr (.inl ⟨_, List.mem_append_right _ (List.mem_singleton.2 rfl), .inl ⟨hs, ?_⟩⟩)
        intro hnone
        rw [show s.machine.currentRound = none from hnone] at hr
        cases hr
      | finished => exact .inl hs
      | _ =>
        rw [hs] at hfits
        cases hfits
  · exact h

/-- a round end that backs off meets a call that is good for the phase -/
theorem beginEndRound {k : ℕ} (h : LoopInv { s with tasks := .endAssert k :: s.tasks })
    (hg : s.machine.state.status = .roundActive ∨ s.machine.state.status = .roundEvaluating →
      ∀ x ∈ s.tasks, x.isEndResult = false) : LoopInv (s.beginEndRound k) := by
  unfold Runner.beginEndRound
  obtain ⟨h1, h2⟩ := h.free rfl rfl
  split_ifs with hx
  · refine h.drop rfl rfl fun hcov => ?_
    have hcount : 0 < s.tasks.countP Task.endsRound := by
      rw [h1, hx]
      decide
    obtain ⟨x, hmem, hend⟩ := List.countP_pos_iff.1 hcount
    have hfit := h.fits x (List.mem_cons_of_mem _ hmem)
    cases x with
    | endGet n => exact .inr (.inl ⟨_, hmem, hcov⟩)
    | endEvaluated n => exact hfit.elim (fun hs => .inr (.inl ⟨_, hmem, hs⟩)) .inl
    | endRecover n => exact hfit.elim (fun hs => .inr (.inl ⟨_, hmem, hs⟩)) .inl
    | endSave n => exact hfit.elim (fun hs => .inr (.inl ⟨_, hmem, hs⟩)) .inl
    | endPersist n => exact hfit.elim (fun hs => .inr (.inl ⟨_, hmem, hs⟩)) .inl
    | endResult n =>
      have hno := hg (hcov.imp_left And.left) _ hmem
      cases hno
    | _ => cases hend
  · have hidle : s.endingRound = false := by simpa using hx
    refine ⟨h.cached, ?_, ?_, ?_, ?_⟩
    · simp only [Runner.await, List.countP_append, List.countP_singleton, Task.endsRound, h1, hidle]
      rfl
    · simp only [Runner.await, List.countP_append, List.countP_singleton, Task.finishes, h2]
      rfl
    · intro x hmem
      rcases List.mem_append.1 hmem with hmem | hmem
      · exact h.fits x (List.mem_cons_of_mem _ hmem)
      · rw [List.mem_singleton.1 hmem]
        trivial
    · refine h.pass ({ s with endingRound := true }.await (.endGet k)) rfl (List.subset_append_left _ _)
        (List.Subset.refl _) fun hcov => ?_
      exact .inr (.inl ⟨_, List.mem_append_right _ (List.mem_singleton.2 rfl), hcov⟩)

theorem endLook {k : ℕ} (h : LoopInv { s with tasks := .endGet k :: s.tasks }) (hm : Shape s.machine) :
    LoopInv s.endLook := by
  have hround := hm.round
  unfold Runner.endLook
  split_ifs with hc
  · exact h.release rfl rfl fun _ => .inl (h.uncached hc)
  split
  · rename_i hr
    refine h.release rfl rfl fun hcov => ?_
    rcases hcov with ⟨-, hsome⟩ | hs
    · exact absurd hr hsome
    · rw [hr, show s.machine.state.status = .roundEvaluating from hs] at hround
      cases hround
  rename_i r hr
  rw [hr] at hround
  split
  · rename_i hs
    rw [hs] at hround
    have hactive : r.status = .active := by
      rcases hround with hx | hx
      · cases hx
      · exact Option.some.inj hx
    rw [if_neg (not_not.2 hactive)]
    obtain ⟨m1, m2, e, ht, he, hs2, -⟩ := hm.evaluate s.now hs hr
    simp only [Runner.handleActiveRoundEnd, ht, he, Runner.awaitAfter]
    exact h.moved (by simpa using hc) (.endEvaluated _) rfl rfl
      (h.fits_any (by rw [hs]; decide) (by rw [hs]; decide) _) (.inl hs2) (.inr hs2)
  · rename_i hs
    rw [hs] at hround
    rw [if_neg (not_not.2 (Option.some.inj hround))]
    exact h.swap (.endRecover _) rfl rfl (.inl hs) fun _ => hs
  · rename_i hs
    have hfree : LoopInv s.endEndRound := by
      refine h.release rfl rfl fun hcov => ?_
      rcases hcov with ⟨hx, -⟩ | hx
      · rw [hs] at hx
        cases hx
      · rw [hs] at hx
        cases hx
    exact hfree.armMore _ _
  · rename_i hactive hevaluating _
    refine h.release rfl rfl fun hcov => ?_
    rcases hcov with ⟨hx, -⟩ | hx
    · exact absurd hx hactive
    · exact absurd hx hevaluating

theorem endShow {k : ℕ} (h : LoopInv { s with tasks := .endPersist k :: s.tasks }) : LoopInv (s.endShow k) := by
  unfold Runner.endShow
  have hfit : s.machine.state.status = .roundEvaluating ∨ s.machine.state.status = .finished :=
    h.fits_head
  rcases hfit with hs | hs
  · have hv : .roundResult ∈ validTransitions s.machine.state.status := by rw [hs]; decide
    obtain ⟨m, hm, hst, -⟩ := transition_ok hv s.now
    have hcached : s.cached = true := by
      rcases h.cached with hx | hx
      · exact hx
      · rw [show s.machine.state.status = .finished from hx] at hs
        cases hs
    simp only [hm, Runner.awaitAfter]
    refine h.moved hcached (.endResult k) rfl rfl ?_ trivial (.inr hst)
    intro x hx
    have hend := List.countP_eq_zero.1 (h.held rfl rfl).2.1 x hx
    have hfit := h.fits x (List.mem_cons_of_mem _ hx)
    cases x <;> simp_all [Task.fits, Task.endsRound]
  · have hv : .roundResult ∉ validTransitions s.machine.state.status := by rw [hs]; decide
    simp only [transition_error hv, Runner.awaitAfter]
    exact h.release rfl rfl fun _ => .inl hs

/-- the check of the next step is armed as the guard is given back -/
theorem endResult {k : ℕ} (h : LoopInv { s with tasks := .endResult k :: s.tasks }) :
    LoopInv (s.scheduleMatchEndCheck k).endEndRound := by
  have hmore : LoopInv { s.scheduleMatchEndCheck k with tasks := .endResult k :: s.tasks } := h.armMore _ _
  exact LoopInv.release (s := s.scheduleMatchEndCheck k) hmore rfl rfl fun hcov => armed _ _ hcov

theorem checkLook {k : ℕ} (h : LoopInv { s with tasks := .checkGet k :: s.tasks }) : LoopInv (s.checkLook k) := by
  unfold Runner.checkLook
  split_ifs with hc he
  · exact h.drop rfl rfl fun _ => .inl (h.uncached hc)
  · refine h.finishMatchLoop rfl rfl (fun hcov hs => ?_) k
    rw [show s.machine.state.status = .roundResult from hcov] at hs
    cases hs
  · exact h.swap .executeAssert rfl rfl trivial .inr

theorem finishLook {k : ℕ} (h : LoopInv { s with tasks := .finishGet k :: s.tasks }) (hm : Shape s.machine) :
    LoopInv s.finishLook := by
  unfold Runner.finishLook
  split_ifs with hc
  · exact h.releaseFinish rfl rfl fun _ => .inl (h.uncached hc)
  by_cases hv : .finished ∈ validTransitions s.machine.state.status
  · obtain ⟨m, ht, -⟩ := transition_ok hv s.now
    rw [ht]
    have hst := (hm.finish s.now ht).1
    refine h.moved (by simpa using hc) .finishPersist rfl rfl ?_ hst (.inl hst)
    intro x hx
    rw [hst]
    cases x <;> simp [Task.fits]
  · rw [transition_error hv]
    refine h.releaseFinish rfl rfl fun hcov => .inl ?_
    revert hv hcov
    simp only [Task.covers]
    cases s.machine.state.status <;> simp [validTransitions]

theorem finishStored (h : LoopInv { s with tasks := .finishDb :: s.tasks }) : LoopInv s.finishStored := by
  have hs : s.machine.state.status = .finished := h.fits_head
  obtain ⟨hx, h1, h2⟩ := h.heldFinish rfl rfl
  refine ⟨.inr hs, ?_, ?_, ?_, .inl hs⟩
  · simp only [Runner.finishStored, Runner.disposeMatch, Runner.clearTimers, Runner.await, List.countP_append,
      List.countP_singleton, Task.endsRound, h1]
    rfl
  · simp only [Runner.finishStored, Runner.disposeMatch, Runner.clearTimers, Runner.await, List.countP_append,
      List.countP_singleton, Task.finishes, h2, hx]
    rfl
  · intro x hmem
    rcases List.mem_append.1 hmem with hmem | hmem
    · exact h.fits x (List.mem_cons_of_mem _ hmem)
    · rw [List.mem_singleton.1 hmem]
      exact hs

theorem continueTask (h : LoopInv { s with tasks := t :: s.tasks }) (hm : Shape s.machine) (J : StringOps)
    (reply : Reply) (ha : t.mustApply = true → reply.applied = true)
    (hg : t.isEndAssert = true → s.machine.state.status = .roundActive ∨ s.machine.state.status = .roundEvaluating →
      ∀ x ∈ s.tasks, x.isEndResult = false) : LoopInv (s.continueTask J reply t) := by
  cases t with
  | startMatchLoop b =>
    simp only [Runner.continueTask, ha rfl, Bool.and_true]
    split_ifs with hc
    · exact h.startLook hc
    · exact h.drop rfl rfl fun _ => .inl (h.uncached (by simpa using hc))
  | startPersist b =>
    simp only [Runner.continueTask, ha rfl, if_true, Runner.startArm]
    split_ifs with hb
    · exact h.arm rfl rfl .topicVoting _ fun hcov => hcov.trans (if_pos hb)
    · exact h.arm rfl rfl .countdown _ fun hcov => hcov.trans (if_neg hb)
  | votingAssert => exact h.swap .votingGet rfl rfl trivial id
  | votingGet => exact h.votingLook
  | votingPersist m =>
    have harm : LoopInv (s.armPhaseTimer .countdown GameConfig.countdownDurationMs) := h.arm rfl rfl .countdown _ id
    cases reply with
    | failed => cases ha rfl
    | notApplied => cases ha rfl
    | _ => exact harm
  | countdownGet =>
    simp only [Runner.continueTask]
    split_ifs with hc
    · exact h.swap .executeAssert rfl rfl trivial .inl
    · exact h.drop rfl rfl fun _ => .inl (h.uncached (by simpa using hc))
  | executeAssert => exact h.swap .executeGet rfl rfl trivial id
  | executeGet => exact h.executeLook
  | executeQuestion => exact h.executeStart reply
  | executePersist n =>
    simp only [Runner.continueTask, ha rfl, if_true]
    exact (h.arm rfl rfl (.roundEnd n) _ id).expect _
  | earlyGet => exact (h.drop rfl rfl False.elim).earlyLook hm
  | endAssert n => exact h.beginEndRound (hg rfl)
  | endGet n => exact h.endLook hm
  | endEvaluated n =>
    simp only [Runner.continueTask, ha rfl, if_true]
    exact h.swap (.endSave n) rfl rfl h.fits_head id
  | endRecover n => exact h.swap (.endSave n) rfl rfl h.fits_head id
  | endSave n =>
    simp only [Runner.continueTask, ha rfl, if_true]
    exact h.swap (.endPersist n) rfl rfl h.fits_head id
  | endPersist n =>
    simp only [Runner.continueTask, ha rfl, if_true]
    exact h.endShow
  | endResult n =>
    simp only [Runner.continueTask, ha rfl, if_true]
    exact h.endResult
  | checkAssert n => exact h.swap (.checkGet n) rfl rfl trivial id
  | checkGet n => exact h.checkLook
  | finishAssert n => exact h.swap (.finishGet n) rfl rfl trivial id
  | finishGet n => exact h.finishLook hm
  | finishPersist =>
    simp only [Runner.continueTask]
    split_ifs
    · exact h.swap .finishDb rfl rfl h.fits_head id
    · exact h.releaseFinish rfl rfl False.elim
  | finishDb =>
    simp only [Runner.continueTask]
    split_ifs
    · exact h.finishStored
    · exact h.releaseFinish rfl rfl False.elim
  | finishRelease => exact h.releaseFinish rfl rfl False.elim

/-- a timer that fires leaves a call that is good for its phase -/
theorem fired (h : LoopInv s) {i : ℕ} {x : Timer} (hx : s.timers[i]? = some x) (t : Task) (he : t.endsRound = false)
    (hf : t.finishes = false) (hfit : t.fits s.machine.state.status)
    (hc : x.kind.covers s.machine → t.covers s.machine) :
    LoopInv ({ s with timers := s.timers.eraseIdx i }.await t) := by
  have h1 := h.await he hf hfit
  refine ⟨h1.cached, h1.ending, h1.finishing, h1.fits, ?_⟩
  rcases h1.covered with hs | hs | ⟨y, hy, hcov⟩
  · exact .inl hs
  · exact .inr (.inl hs)
  · obtain ⟨j, hj⟩ := List.mem_iff_getElem?.1 (show y ∈ s.timers from hy)
    by_cases hij : j = i
    · subst hij
      obtain rfl := Option.some.inj (hx.symm.trans hj)
      exact .inr (.inl ⟨t, List.mem_append_right _ (List.mem_singleton.2 rfl), hc hcov⟩)
    · refine .inr (.inr ⟨y, ?_, hcov⟩)
      exact List.mem_eraseIdx_iff_getElem?.2 ⟨j, hij, hj⟩

theorem fire (h : LoopInv s) (i : ℕ) : LoopInv (s.fire i) := by
  unfold Runner.fire
  split
  · exact h
  rename_i x hx
  split_ifs
  · cases hk : x.kind with
    | topicVoting => exact h.fired hx .votingAssert rfl rfl trivial fun hcov => by rw [hk] at hcov; exact hcov
    | countdown => exact h.fired hx .countdownGet rfl rfl trivial fun hcov => by rw [hk] at hcov; exact hcov
    | roundEnd n => exact h.fired hx (.endAssert n) rfl rfl trivial fun hcov => by rw [hk] at hcov; exact .inl hcov
    | matchEndCheck n => exact h.fired hx (.checkAssert n) rfl rfl trivial fun hcov => by rw [hk] at hcov; exact hcov
  · exact h

/-- no timer is good for CREATED or FINISHED -/
theorem disposeMatch (h : LoopInv s) (hs : s.machine.state.status = .created ∨ s.machine.state.status = .finished) :
    LoopInv s.disposeMatch := by
  refine ⟨h.cached, h.ending, h.finishing, h.fits, ?_⟩
  rcases h.covered with hx | hx | ⟨x, -, hcov⟩
  · exact .inl hx
  · exact .inr (.inl hx)
  · rcases hs with hs | hs
    · exfalso
      cases hk : x.kind <;> rw [hk] at hcov <;> simp [TimerKind.covers, hs] at hcov
    · exact .inl hs

theorem resumeMatchLoop (h : LoopInv s) : LoopInv s.resumeMatchLoop := by
  unfold Runner.resumeMatchLoop
  split
  case h_1 => exact h.armMore _ _
  case h_2 => exact h.armMore _ _
  case h_3 => exact (h.armMore _ _).expect _
  case h_4 => exact h.await rfl rfl trivial
  case h_5 => exact h.armMore _ _
  case h_6 hs => exact h.disposeMatch (.inr hs)
  case h_7 hs => exact h.disposeMatch (.inl hs)

end LoopInv

/-- **Every step that advances keeps the phase covered.** -/
theorem step_loopInv (J : StringOps) (s : Runner) (o : RunnerOp) (hg : Advances s o) (h : LoopInv s) (hm : Shaped s) :
    LoopInv (s.step J o) := by
  cases o with
  | tick ms => exact ⟨h.cached, h.ending, h.finishing, h.fits, h.covered⟩
  | startMatchLoop b => exact h.await rfl rfl trivial
  | resumeMatchLoop => exact h.resumeMatchLoop
  | cancelMatchLoop => exact hg.elim
  | fire i => exact h.fire i
  | resume i reply =>
    simp only [step, resume]
    split
    · exact h
    · rename_i t ht
      obtain ⟨ha, hend⟩ := hg
      rw [ht] at ha hend
      have hperm : s.tasks.Perm (t :: s.tasks.eraseIdx i) := by
        obtain ⟨hi, rfl⟩ := List.getElem?_eq_some_iff.1 ht
        exact (List.getElem_cons_eraseIdx_perm hi).symm
      have hpopped := h.perm hperm
      refine LoopInv.continueTask (s := { s with tasks := s.tasks.eraseIdx i }) hpopped hm.machine J reply ha ?_
      exact fun hx hs x hmem => hend hx hs x (List.mem_of_mem_eraseIdx hmem)
  | checkEarlyTermination =>
    simp only [step, checkEarlyTermination]
    split_ifs
    · exact h
    · exact h.await rfl rfl trivial
  | command o =>
    simp only [step]
    split_ifs with ho
    · exact h.same (change_samePhase (step_change J s.machine o) (isInterim_of_isCommand ho))
    · exact h

/-! ## What a callback does when nothing else runs -/

theorem votingLook_status {s : Runner} (hc : s.cached = true) (hs : s.machine.state.status = .topicVoting) :
    s.votingLook.machine.state.status = .countdown := by
  have hv : .countdown ∈ validTransitions
      (s.machine.resolveTopicVoting GameConfig.topicVotingBannedCount s.now).1.state.status := by
    have hr : (s.machine.resolveTopicVoting GameConfig.topicVotingBannedCount s.now).1.state.status =
        s.machine.state.status := rfl
    rw [hr, hs]
    decide
  obtain ⟨m, hm, hst, -⟩ := transition_ok hv s.now
  rw [votingLook, if_neg (by rw [hc]; decide), if_neg (not_not.2 hs), hm]
  exact hst

theorem executeLook_status {s : Runner} (hc : s.cached = true)
    (hs : s.machine.state.status = .countdown ∨ s.machine.state.status = .roundResult) :
    s.executeLook.machine.state.status = .roundActive := by
  have hv : .roundActive ∈ validTransitions s.machine.state.status := by rcases hs with hs | hs <;> rw [hs] <;> decide
  obtain ⟨m, hm, hst, -⟩ := transition_ok hv s.now
  rw [executeLook, if_neg (by rw [hc]; decide), hm]
  exact hst

theorem endLook_status {s : Runner} (hc : s.cached = true) (hm : Shape s.machine)
    (hs : s.machine.state.status = .roundActive) (hr : s.machine.currentRound ≠ none) :
    s.endLook.machine.state.status = .roundEvaluating := by
  obtain ⟨r, hr⟩ := Option.ne_none_iff_exists'.1 hr
  have hround := hm.round
  rw [hs, hr] at hround
  have hactive : r.status = .active := by
    rcases hround with hx | hx
    · cases hx
    · exact Option.some.inj hx
  obtain ⟨m1, m2, e, ht, he, hs2, -⟩ := hm.evaluate s.now hs hr
  rw [endLook, if_neg (by rw [hc]; decide), hr, hs]
  simp only [hactive, ne_eq, not_true_eq_false, if_false, handleActiveRoundEnd, ht, he, awaitAfter]
  exact hs2

theorem finishLook_status {s : Runner} (hc : s.cached = true) (hm : Shape s.machine)
    (hs : s.machine.state.status = .roundResult) : s.finishLook.machine.state.status = .finished := by
  have hv : .finished ∈ validTransitions s.machine.state.status := by rw [hs]; decide
  obtain ⟨m, ht, -⟩ := transition_ok hv s.now
  rw [finishLook, if_neg (by rw [hc]; decide), ht]
  exact (hm.finish s.now ht).1

/-- a timer that is good for the phase moves it on -/
theorem LoopInv.willMove {s : Runner} (h : LoopInv s) (hm : Shape s.machine) (J : StringOps)
    (hf : s.machine.state.status ≠ .finished) (htasks : s.tasks = []) {t : Timer} (ht : t.kind.covers s.machine) :
    WillMove J s t := by
  have hc : s.cached = true := h.cached.resolve_right hf
  have hending := h.ending
  have hfinishing := h.finishing
  obtain ⟨m, cached, clock, timers, expected, ending, finishing, tasks⟩ := s
  obtain ⟨kind, due⟩ := t
  simp only at hm hf htasks ht hc hending hfinishing
  subst htasks
  subst hc
  obtain rfl : ending = false := by
    cases ending with
    | false => rfl
    | true => cases hending
  obtain rfl : finishing = false := by
    cases finishing with
    | false => rfl
    | true => cases hfinishing
  -- the callback runs alone: its awaits return one after the other
  cases kind with
  | topicVoting =>
    refine ⟨2, fun replies hl heq => ?_⟩
    obtain ⟨a, b, rfl⟩ := List.length_eq_two.1 hl
    have hs : m.state.status = .topicVoting := ht
    have hx := votingLook_status (s := ⟨m, true, max clock due, timers.erase ⟨.topicVoting, due⟩, expected, false, false,
      []⟩) rfl hs
    cases hx.symm.trans (heq.trans hs)
  | countdown =>
    refine ⟨3, fun replies hl heq => ?_⟩
    obtain ⟨a, b, c, rfl⟩ := List.length_eq_three.1 hl
    have hs : m.state.status = .countdown := ht
    have hx := executeLook_status (s := ⟨m, true, max clock due, timers.erase ⟨.countdown, due⟩, expected, false, false,
      []⟩) rfl (.inl hs)
    cases hx.symm.trans (heq.trans hs)
  | roundEnd n =>
    refine ⟨2, fun replies hl heq => ?_⟩
    obtain ⟨a, b, rfl⟩ := List.length_eq_two.1 hl
    have hs : m.state.status = .roundActive := ht.1
    have hx := endLook_status (s := ⟨m, true, max clock due, timers.erase ⟨.roundEnd n, due⟩, expected, true, false,
      []⟩) rfl hm hs ht.2
    cases hx.symm.trans (heq.trans hs)
  | matchEndCheck n =>
    refine ⟨4, fun replies hl heq => ?_⟩
    obtain ⟨a, b, c, d, rfl⟩ : ∃ a b c d, replies = [a, b, c, d] := by
      match replies, hl with
      | [a, b, c, d], _ => exact ⟨a, b, c, d, rfl⟩
    have hs : m.state.status = .roundResult := ht
    let s1 : Runner := ⟨m, true, max clock due, timers.erase ⟨.matchEndCheck n, due⟩, expected, false, false, []⟩
    have hcall : (((s1.checkLook n).resume J 0 c).resume J 0 d).machine.state.status = .roundResult := heq.trans hs
    cases he : m.shouldEndMatch (some GameConfig.maxRounds) with
    | true =>
      have hcheck : s1.checkLook n = { s1 with finishing := true }.await (.finishAssert n) := by
        simp [s1, Runner.checkLook, he, Runner.finishMatchLoop]
      have hx := finishLook_status (s := { s1 with finishing := true }) rfl hm hs
      rw [hcheck] at hcall
      cases hx.symm.trans hcall
    | false =>
      have hcheck : s1.checkLook n = s1.executeRound := by simp [s1, Runner.checkLook, he]
      have hx := executeLook_status (s := s1) rfl (.inr hs)
      rw [hcheck] at hcall
      cases hx.symm.trans hcall

theorem LoopInv.moves {s : Runner} (h : LoopInv s) (hm : Shape s.machine) (J : StringOps) : Moves J s := by
  intro hf htasks
  rcases h.covered with hx | ⟨t, ht, -⟩ | ⟨t, ht, hcov⟩
  · exact absurd hx hf
  · rw [htasks] at ht
    cases ht
  · exact ⟨t, ht, h.willMove hm J hf htasks hcov⟩

/-! ## Runs -/

theorem Started.shaped {J : StringOps} {s : Runner} (h : Started J s) : Shaped s := by
  cases h with
  | launched matchId roomId players hd clock b =>
    exact step_shaped J _ _ (adopt_shaped (Shape.create matchId roomId players hd) clock)
  | resumed m clock h => exact step_shaped J _ _ (adopt_shaped h.shape clock)

theorem Started.loopInv {J : StringOps} {s : Runner} (h : Started J s) (hr : Resumable s) : LoopInv s := by
  cases h with
  | launched matchId roomId players hd clock b =>
    refine ⟨.inl rfl, rfl, rfl, ?_, .inr (.inl ⟨.startMatchLoop b, List.mem_singleton.2 rfl, rfl⟩)⟩
    intro t ht
    rw [List.mem_singleton.1 ht]
    trivial
  | resumed m clock h =>
    have hnone : ∀ t ∈ (adopt m clock).tasks, t.fits (adopt m clock).machine.state.status := fun _ ht => by cases ht
    revert hr
    simp only [step, resumeMatchLoop]
    split
    case h_1 hs => exact fun _ => ⟨.inl rfl, rfl, rfl, hnone, LoopInv.armed _ _ hs⟩
    case h_2 hs => exact fun _ => ⟨.inl rfl, rfl, rfl, hnone, LoopInv.armed _ _ hs⟩
    case h_3 hs => exact fun hr => ⟨.inl rfl, rfl, rfl, hnone, LoopInv.armed _ _ ⟨hs, hr.2 hs⟩⟩
    case h_4 hs =>
      refine fun _ => ⟨.inl rfl, rfl, rfl, ?_, .inr (.inl ⟨_, List.mem_singleton.2 rfl, .inr hs⟩)⟩
      intro t ht
      rw [List.mem_singleton.1 ht]
      trivial
    case h_5 hs => exact fun _ => ⟨.inl rfl, rfl, rfl, hnone, LoopInv.armed _ _ hs⟩
    case h_6 hs => exact fun _ => ⟨.inl rfl, rfl, rfl, hnone, .inl hs⟩
    case h_7 hs => exact fun hr => absurd rfl (hr.1 hs)

/-- **An owned match moves on.** From a launch, or from a blob that was launched and has its round, in every run whose
steps advance: as long as the match is not FINISHED and no call of the loop is in flight, a timer is armed whose callback
changes the status. -/
theorem owned_match_moves (J : StringOps) (s : Runner) (ops : List RunnerOp) (h0 : Started J s) (hr : Resumable s)
    (hg : Along (step J) Advances s ops) : Moves J (run (step J) s ops) := by
  have hrun : LoopInv (run (step J) s ops) ∧ Shaped (run (step J) s ops) := by
    refine run_inv (step J) Advances (fun s => LoopInv s ∧ Shaped s) ?_ s ops hg ⟨h0.loopInv hr, h0.shaped⟩
    exact fun s o ho hs => ⟨step_loopInv J s o ho hs.1 hs.2, step_shaped J s o hs.2⟩
  exact hrun.1.moves hrun.2.machine J

/-! ## Schedules -/

/-- two players, launched into the countdown -/
def launch : Runner := duel.step StringOps.ascii (.startMatchLoop false)

theorem launch_started : Started StringOps.ascii launch :=
  .launched "m1" "r1" [freshPlayer "alice", freshPlayer "bob"] (by decide) 0 false

/-- the question of the first round is being fetched -/
def fetching : List RunnerOp := go 0 2 ++ [.tick 5000, .fire 0] ++ go 0 3

/-- the first round runs to its end -/
def firstRound : List RunnerOp := fetching ++ [ask 0 "q1"] ++ go 0 1

theorem owned_match_moves_launch :
    (run (step StringOps.ascii) launch firstRound).machine.state.status = .roundActive ∧
      (run (step StringOps.ascii) launch firstRound).tasks = [] ∧
      ∃ t ∈ (run (step StringOps.ascii) launch firstRound).timers,
        WillMove StringOps.ascii (run (step StringOps.ascii) launch firstRound) t := by
  refine ⟨by decide +kernel, by decide +kernel, ?_⟩
  exact owned_match_moves StringOps.ascii launch firstRound launch_started (by decide +kernel) (by decide +kernel)
    (by decide +kernel) (by decide +kernel)

/-- the round is evaluated and its rows are not stored -/
def rowsLost : List RunnerOp := firstRound ++ [.tick 20000, .fire 0] ++ go 0 3 ++ [.resume 0 .failed]

/-- the blob of a command that is stored while the question is fetched -/
def asking : Machine := (run (step StringOps.ascii) launch fetching).machine.recovered

theorem asking_written : Written StringOps.ascii asking := by
  have hcreated : Written StringOps.ascii duel.machine :=
    .created "m1" "r1" [freshPlayer "alice", freshPlayer "bob"] (by decide)
  have hshape : Shaped (run (step StringOps.ascii) launch fetching) :=
    run_inv (step StringOps.ascii) (fun _ _ => True) Shaped (fun s o _ hs => step_shaped _ s o hs) _ fetching
      ((along_const _ _ _ _).2 fun _ _ => trivial) launch_started.shaped
  have htimed : Timed (run (step StringOps.ascii) launch fetching).machine := by
    intro r hr
    have hnone : (run (step StringOps.ascii) launch fetching).machine.currentRound = none := by decide +kernel
    rw [hnone] at hr
    cases hr
  exact .stored duel.machine asking 0 (.startMatchLoop false :: fetching) none hcreated
    (deserialize_recovered _ _ hshape.machine.wire htimed)

/-- a state with no timer and no call stalls -/
theorem stalls {J : StringOps} {s : Runner} (hf : s.machine.state.status ≠ .finished) (htasks : s.tasks = [])
    (htimers : s.timers = []) : ¬Moves J s := by
  intro h
  obtain ⟨t, ht, -⟩ := h hf htasks
  rw [htimers] at ht
  cases ht

/-- **A failure stalls the match.** When the rows of a round are not stored, ROUND_EVALUATING is left with no timer; and
a blob in ROUND_ACTIVE without its round is resumed, its timer fires once and nothing is armed again. -/
theorem failures_stall_match :
    (Started StringOps.ascii launch ∧ ¬Moves StringOps.ascii (run (step StringOps.ascii) launch rowsLost)) ∧
      Started StringOps.ascii ((adopt asking 5000).step StringOps.ascii .resumeMatchLoop) ∧
      ¬Moves StringOps.ascii (run (step StringOps.ascii) ((adopt asking 5000).step StringOps.ascii .resumeMatchLoop)
        ([.fire 0] ++ go 0 2)) := by
  refine ⟨⟨launch_started, stalls ?_ ?_ ?_⟩, .resumed asking 5000 asking_written, stalls ?_ ?_ ?_⟩
  all_goals decide +kernel

end Runner

end Arena.Api
