/-
Every match ends.

What is pending of a match is its suspended calls and its timers. Each step of one of them leaves at most one other in
its place, nearer to the end of its lap; only the start of a round begins another lap, and a lap passes the match-end
check, which lets at most `maxRounds` rounds start. So `budget` bounds what the loop can still do, over every
interleaving, and calls from outside (a launch, a take-over, an early-termination check) raise it by a constant each.

- `Follows`: what a step of a pending item leaves;
- `work_budget`: every step of work lowers the budget;
- `match_ends`: a run that has used its budget is FINISHED, and one that is not has something left to do.
-/
import Arena.Lib.Budget
import Arena.Api.AoeCap
import Arena.Api.Stall

namespace Arena.Api

open Arena.Lib Arena.Shared Arena.GameCore Arena.GameCore.Machine

/-! ## Pending items -/

/-- the longest way to the end of the lap, in steps -/
@[simp] def Task.rank : Task → ℕ
  | .finishRelease => 1
  | .finishDb => 2
  | .finishPersist => 3
  | .finishGet _ => 4
  | .finishAssert _ => 5
  | .executeQuestion => 6
  | .executeGet => 7
  | .executeAssert => 8
  | .checkGet _ => 9
  | .countdownGet => 9
  | .checkAssert _ => 10
  | .votingPersist _ => 11
  | .endResult _ => 12
  | .votingGet => 12
  | .endPersist _ => 13
  | .votingAssert => 13
  | .endSave _ => 14
  | .endEvaluated _ => 15
  | .endRecover _ => 15
  | .startPersist _ => 15
  | .endGet _ => 16
  | .startMatchLoop _ => 16
  | .endAssert _ => 17
  | .earlyGet => 18
  | .executePersist _ => 19

@[simp] def TimerKind.rank : TimerKind → ℕ
  | .countdown => 10
  | .matchEndCheck _ => 11
  | .topicVoting => 14
  | .roundEnd _ => 18

/-- the item may start a round without another match-end check -/
def Task.startsFreely : Task → Bool
  | .startMatchLoop _ => true
  | .startPersist _ => true
  | .votingAssert => true
  | .votingGet => true
  | .votingPersist _ => true
  | .countdownGet => true
  | .executeAssert => true
  | .executeGet => true
  | .executeQuestion => true
  | _ => false

def TimerKind.startsFreely : TimerKind → Bool
  | .topicVoting => true
  | .countdown => true
  | _ => false

/-- rank, and whether a round may start without a check -/
abbrev PendingItem := ℕ × Bool

@[simp] def Task.item (t : Task) : PendingItem := (t.rank, t.startsFreely)

@[simp] def Timer.item (t : Timer) : PendingItem := (t.kind.rank, t.kind.startsFreely)

/-- the rounds that may still start: as many as `maxRounds` leaves, and one for each other item -/
def roundsAhead (roundNo : ℕ) (items : List PendingItem) : ℕ :=
  if roundNo < GameConfig.maxRounds then GameConfig.maxRounds - roundNo + (items.length - 1)
  else items.countP Prod.snd

/-- the work of the items to the ends of their laps, and of the laps ahead -/
def workAhead (roundNo : ℕ) (items : List PendingItem) : ℕ :=
  14 * roundsAhead roundNo items + (items.map Prod.fst).sum

section Items

variable {n : ℕ} {items items' : List PendingItem} {x y : PendingItem}

theorem roundsAhead_subperm (h : items'.Subperm items) : roundsAhead n items' ≤ roundsAhead n items := by
  have hlen := h.length_le
  have hcount := h.countP_le Prod.snd
  unfold roundsAhead
  split_ifs <;> omega

theorem workAhead_subperm (h : items'.Subperm items) : workAhead n items' ≤ workAhead n items := by
  have hrounds := roundsAhead_subperm (n := n) h
  have hsum : (items'.map Prod.fst).sum ≤ (items.map Prod.fst).sum := by
    obtain ⟨l, hl, hsub⟩ := h
    rw [← (hl.map Prod.fst).sum_eq]
    exact (hsub.map Prod.fst).sum_le_sum fun _ _ => Nat.zero_le _
  unfold workAhead
  omega

/-- an item with another in its place -/
theorem roundsAhead_replace (hfree : x.2 = true → y.2 = true ∨ n < GameConfig.maxRounds) :
    roundsAhead n (x :: items) ≤ roundsAhead n (y :: items) := by
  unfold roundsAhead
  split_ifs with hn
  · simp
  · simp only [List.countP_cons]
    split_ifs with hx hy <;> first | omega | skip
    exact absurd ((hfree hx).resolve_right hn) hy

theorem workAhead_replace (hrank : x.1 < y.1) (hfree : x.2 = true → y.2 = true ∨ n < GameConfig.maxRounds) :
    workAhead n (x :: items) < workAhead n (y :: items) := by
  have hrounds : roundsAhead n (x :: items) ≤ roundsAhead n (y :: items) := roundsAhead_replace hfree
  simp only [workAhead, List.map_cons, List.sum_cons]
  omega

theorem roundsAhead_cons_le : roundsAhead n items ≤ roundsAhead n (x :: items) :=
  roundsAhead_subperm (List.sublist_cons_self x items).subperm

/-- one item more, one round more -/
theorem roundsAhead_more : roundsAhead n (x :: items) ≤ roundsAhead n items + 1 := by
  unfold roundsAhead
  split_ifs
  · simp only [List.length_cons]
    omega
  · rw [List.countP_cons]
    split_ifs <;> omega

theorem workAhead_more (hx : x.1 ≤ 18) : workAhead n (x :: items) ≤ workAhead n items + 32 := by
  have hrounds : roundsAhead n (x :: items) ≤ roundsAhead n items + 1 := roundsAhead_more
  simp only [workAhead, List.map_cons, List.sum_cons]
  omega

/-- a round starts: one round less is ahead -/
theorem roundsAhead_start (hx : x.2 = false) (hy : y.2 = true) :
    roundsAhead (n + 1) (x :: items) + 1 ≤ roundsAhead n (y :: items) := by
  have hcount : items.countP Prod.snd ≤ items.length := List.countP_le_length
  unfold roundsAhead
  simp only [List.countP_cons, List.length_cons, hx, hy]
  split_ifs <;> simp_all <;> omega

end Items

namespace Runner

def pending (s : Runner) : List PendingItem := s.tasks.map Task.item ++ s.timers.map Timer.item

def roundNo (s : Runner) : ℕ := s.machine.state.currentRoundNo

/-- the steps the loop can still make -/
def budget (s : Runner) : ℕ := workAhead s.roundNo (pending s)

theorem pending_await (s : Runner) (t : Task) : (pending (s.await t)).Perm (t.item :: pending s) := by
  simp only [pending, await, List.map_append, List.map_cons, List.map_nil, List.append_assoc, List.singleton_append]
  exact List.perm_middle

theorem pending_arm (s : Runner) (kind : TimerKind) (remaining : Time) :
    (pending (s.armPhaseTimer kind remaining)).Perm ((kind.rank, kind.startsFreely) :: pending s) := by
  simp only [pending, armPhaseTimer, List.map_append, List.map_cons, List.map_nil, ← List.append_assoc]
  exact List.perm_append_singleton _ _

theorem pending_clear (s : Runner) : (pending s.clearTimers).Subperm (pending s) := by
  refine List.Sublist.subperm (List.Sublist.append_left ?_ _)
  exact List.filter_sublist.map _

/-! ## Rounds of the calls -/

theorem transition_roundNo (m : Machine) (target : MatchStatus) (now : Clock) :
    (m.transition target now).1.state.currentRoundNo = m.state.currentRoundNo :=
  (change_keepsNumber (step_change StringOps.ascii m (.transition target now)) (by simp)).roundNo

theorem evaluateRound_roundNo (m : Machine) (now : Clock) :
    (m.evaluateRound now).1.state.currentRoundNo = m.state.currentRoundNo :=
  (change_keepsNumber (step_change StringOps.ascii m (.evaluateRound now)) (by simp)).roundNo

theorem initTopicVoting_roundNo (m : Machine) (c : Option (List String)) (d : Option Time) (now : Clock) :
    (m.initTopicVoting c d now).1.state.currentRoundNo = m.state.currentRoundNo :=
  (change_keepsNumber (step_change StringOps.ascii m (.initTopicVoting c d now)) (by simp)).roundNo

theorem finishMatch_roundNo (m : Machine) (now : Clock) :
    (m.finishMatch now).state.currentRoundNo = m.state.currentRoundNo :=
  (change_keepsNumber (step_change StringOps.ascii m (.finishMatch now)) (by simp)).roundNo

/-- a round is begun, or nothing changes -/
theorem startRound_cases (m : Machine) (q : QuestionInput) (d : Option Time) (now : Clock) :
    (∃ r, (m.startRound q d now).2 = .ok r ∧
      (m.startRound q d now).1.state.currentRoundNo = m.state.currentRoundNo + 1) ∨
    ∃ e, m.startRound q d now = (m, .error e) := by
  unfold Machine.startRound
  split_ifs
  · exact .inr ⟨_, rfl⟩
  · exact .inl ⟨_, rfl, rfl⟩

/-! ## What a step leaves -/

/-- a step of a pending item, in the state without it -/
structure Follows (y : PendingItem) (s s' : Runner) : Prop where
  roundNo : s'.roundNo = s.roundNo
  left : (pending s').Subperm (pending s) ∨ ∃ x : PendingItem, x.1 < y.1 ∧
    (x.2 = true → y.2 = true ∨ s.roundNo < GameConfig.maxRounds) ∧ (pending s').Subperm (x :: pending s)

/-- the start of a round begins another lap -/
def Begins (y : PendingItem) (s s' : Runner) : Prop :=
  s'.roundNo = s.roundNo + 1 ∧ ∃ x : PendingItem, x.1 < y.1 + 14 ∧ x.2 = false ∧ y.2 = true ∧
    (pending s').Subperm (x :: pending s)

namespace Follows

variable {s r : Runner} {y : PendingItem}

theorem drop (hr : r.roundNo = s.roundNo) (hp : (pending r).Subperm (pending s)) : Follows y s r := ⟨hr, .inl hp⟩

theorem await (hr : r.roundNo = s.roundNo) (hp : (pending r).Subperm (pending s)) (t : Task) (hrank : t.rank < y.1)
    (hfree : t.startsFreely = true → y.2 = true ∨ s.roundNo < GameConfig.maxRounds) : Follows y s (r.await t) :=
  ⟨hr, .inr ⟨t.item, hrank, hfree, (pending_await r t).subperm.trans ((List.subperm_cons _).2 hp)⟩⟩

theorem arm (hr : r.roundNo = s.roundNo) (hp : (pending r).Subperm (pending s)) (kind : TimerKind) (remaining : Time)
    (hrank : kind.rank < y.1)
    (hfree : kind.startsFreely = true → y.2 = true ∨ s.roundNo < GameConfig.maxRounds) :
    Follows y s (r.armPhaseTimer kind remaining) :=
  ⟨hr, .inr ⟨(kind.rank, kind.startsFreely), hrank, hfree,
    (pending_arm r kind remaining).subperm.trans ((List.subperm_cons _).2 hp)⟩⟩

/-- on to the next await -/
theorem next (t : Task) (hrank : t.rank < y.1) (hfree : t.startsFreely = true → y.2 = true) : Follows y s (s.await t) :=
  .await (s := s) (r := s) rfl (List.Subperm.refl _) t hrank fun h => .inl (hfree h)

/-- on to a timer -/
theorem timer (kind : TimerKind) (remaining : Time) (hrank : kind.rank < y.1)
    (hfree : kind.startsFreely = true → y.2 = true) : Follows y s (s.armPhaseTimer kind remaining) :=
  .arm (s := s) (r := s) rfl (List.Subperm.refl _) kind remaining hrank fun h => .inl (hfree h)

/-- a call of the machine that keeps the round number, and the await after it -/
theorem awaitAfter {α : Type} {result : Outcome α} {t : α → Task} {throws : Runner → Runner}
    (hr : result.1.state.currentRoundNo = s.roundNo)
    (hthrows : ∀ m, pending (throws { s with machine := m }) = pending s ∧
      (throws { s with machine := m }).roundNo = m.state.currentRoundNo)
    (hrank : ∀ a, (t a).rank < y.1) (hfree : ∀ a, (t a).startsFreely = true → y.2 = true) :
    Follows y s (s.awaitAfter result t throws) := by
  obtain ⟨m, a⟩ := result
  cases a with
  | error e => exact .drop ((hthrows m).2.trans hr) (by rw [Runner.awaitAfter, (hthrows m).1])
  | ok a =>
    exact .await (s := s) (r := { s with machine := m }) hr (List.Subperm.refl _) (t a) (hrank a) fun h =>
      .inl (hfree a h)

end Follows

section Steps

variable {s : Runner}

theorem finishMatchLoop_follows {y : PendingItem} (n : ℕ) (hrank : 5 < y.1) : Follows y s (s.finishMatchLoop n) := by
  unfold finishMatchLoop
  split_ifs
  · exact .drop rfl (List.Subperm.refl _)
  · exact .await (s := s) (r := { s with finishing := true }) rfl (List.Subperm.refl _) (.finishAssert n) hrank nofun

theorem scheduleMatchEndCheck_follows {y : PendingItem} (n : ℕ) (hrank : 11 < y.1) :
    Follows y s (s.scheduleMatchEndCheck n).endEndRound :=
  ⟨rfl, .inr ⟨(11, false), hrank, nofun, (pending_arm s (.matchEndCheck n) _).subperm⟩⟩

theorem votingLook_follows : Follows Task.votingGet.item s s.votingLook := by
  unfold votingLook
  split_ifs
  · exact .drop rfl (List.Subperm.refl _)
  · exact .drop rfl (List.Subperm.refl _)
  · refine .awaitAfter ?_ (fun _ => ⟨rfl, rfl⟩) (fun _ => by simp) (fun _ _ => rfl)
    exact transition_roundNo _ _ _

theorem startLook_follows (b : Bool) : Follows (Task.startMatchLoop b).item s (s.startLook b) := by
  unfold startLook
  split_ifs
  · refine .awaitAfter ?_ (fun _ => ⟨rfl, rfl⟩) (fun _ => by simp) (fun _ _ => rfl)
    exact initTopicVoting_roundNo _ _ _ _
  · refine .awaitAfter ?_ (fun _ => ⟨rfl, rfl⟩) (fun _ => by simp) (fun _ _ => rfl)
    exact transition_roundNo _ _ _

theorem executeLook_follows : Follows Task.executeGet.item s s.executeLook := by
  unfold executeLook
  split_ifs
  · exact .drop rfl (List.Subperm.refl _)
  · refine .awaitAfter ?_ (fun _ => ⟨rfl, rfl⟩) (fun _ => by simp) (fun _ _ => rfl)
    exact transition_roundNo _ _ _

/-- the question is the start of a round; without one the match finishes -/
theorem executeStart_follows (reply : Reply) : Follows Task.executeQuestion.item s (s.executeStart reply) ∨
    Begins Task.executeQuestion.item s (s.executeStart reply) := by
  have hfinish := finishMatchLoop_follows (s := s) (y := Task.executeQuestion.item) s.machine.state.currentRoundNo
    (by simp)
  cases reply with
  | question q =>
    rcases startRound_cases s.machine q none s.now with ⟨r, hr, hn⟩ | ⟨e, he⟩
    · right
      have hstart : s.executeStart (.question q) =
          { s with machine := (s.machine.startRound q none s.now).1 }.await (.executePersist r.roundNo) := by
        have hpair : s.machine.startRound q none s.now = ((s.machine.startRound q none s.now).1, .ok r) := by rw [← hr]
        rw [executeStart, hpair]
        rfl
      rw [hstart]
      exact ⟨hn, (Task.executePersist r.roundNo).item, by simp, rfl, rfl, (pending_await _ _).subperm⟩
    · left
      rw [executeStart, he]
      exact .drop rfl (List.Subperm.refl _)
  | _ => exact .inl hfinish

theorem earlyLook_follows : Follows Task.earlyGet.item s s.earlyLook := by
  unfold earlyLook
  split_ifs
  · exact .drop rfl (List.Subperm.refl _)
  · split
    · exact .drop rfl (List.Subperm.refl _)
    · split_ifs
      · exact .await (s := s) (r := s.clearTimers) rfl (pending_clear s) (.endAssert _) (by simp) nofun
      · exact .drop rfl (List.Subperm.refl _)

theorem beginEndRound_follows (n : ℕ) : Follows (Task.endAssert n).item s (s.beginEndRound n) := by
  unfold beginEndRound
  split_ifs
  · exact .drop rfl (List.Subperm.refl _)
  · exact .await (s := s) (r := { s with endingRound := true }) rfl (List.Subperm.refl _) (.endGet n) (by simp) nofun

theorem endLook_follows (n : ℕ) : Follows (Task.endGet n).item s s.endLook := by
  have hdrop : Follows (Task.endGet n).item s s.endEndRound := .drop rfl (List.Subperm.refl _)
  unfold endLook
  split_ifs
  · exact hdrop
  · split
    · exact hdrop
    · split
      · split_ifs
        · exact hdrop
        · unfold handleActiveRoundEnd
          have hn := transition_roundNo s.machine .roundEvaluating s.now
          split
          · rename_i m e ht
            rw [ht] at hn
            exact .drop hn (List.Subperm.refl _)
          · rename_i m u ht
            rw [ht] at hn
            exact .awaitAfter ((evaluateRound_roundNo m s.now).trans hn) (fun _ => ⟨rfl, rfl⟩) (fun _ => by simp) nofun
      · split_ifs
        · exact hdrop
        · exact .next (.endRecover _) (by simp) nofun
      · exact scheduleMatchEndCheck_follows _ (by simp)
      · exact hdrop

theorem endShow_follows (n : ℕ) : Follows (Task.endPersist n).item s (s.endShow n) :=
  .awaitAfter (transition_roundNo _ _ _) (fun _ => ⟨rfl, rfl⟩) (fun _ => by simp) nofun

/-- **The match-end check.** A round may start only while fewer than `maxRounds` have. -/
theorem checkLook_follows (n : ℕ) : Follows (Task.checkGet n).item s (s.checkLook n) := by
  unfold checkLook
  split_ifs with hc hend
  · exact .drop rfl (List.Subperm.refl _)
  · exact finishMatchLoop_follows n (by simp)
  · refine .await (s := s) (r := s) rfl (List.Subperm.refl _) .executeAssert (by simp) fun _ => .inr ?_
    simp only [Machine.shouldEndMatch, Bool.or_eq_true, decide_eq_true_eq, not_or, not_le] at hend
    exact hend.2

theorem finishLook_follows (n : ℕ) : Follows (Task.finishGet n).item s s.finishLook := by
  have hn := transition_roundNo s.machine .finished s.now
  unfold finishLook
  split_ifs
  · exact .drop rfl (List.Subperm.refl _)
  · split
    · rename_i m e ht
      rw [ht] at hn
      exact .drop hn (List.Subperm.refl _)
    · rename_i m u ht
      rw [ht] at hn
      exact .await (s := s) (r := { s with machine := m.finishMatch s.now }) ((finishMatch_roundNo m s.now).trans hn)
        (List.Subperm.refl _) .finishPersist (by simp) nofun

/-- **What a call leaves** at its next await: the start of a round begins another lap. -/
theorem continueTask_follows (J : StringOps) (reply : Reply) (t : Task)
    (ha : t.mustApply = true → reply.applied = true) :
    Follows t.item s (s.continueTask J reply t) ∨ Begins t.item s (s.continueTask J reply t) := by
  have hdrop : ∀ r : Runner, r.roundNo = s.roundNo → pending r = pending s → Follows t.item s r := fun r hr hp =>
    .drop hr (by rw [hp])
  cases t with
  | startMatchLoop b =>
    left
    simp only [continueTask]
    split_ifs
    · exact startLook_follows b
    · exact hdrop _ rfl rfl
  | startPersist b =>
    left
    simp only [continueTask, startArm]
    split_ifs
    · exact .timer .topicVoting _ (by simp) fun _ => rfl
    · exact .timer .countdown _ (by simp) fun _ => rfl
    · exact hdrop _ rfl rfl
  | votingAssert =>
    exact .inl (.next .votingGet (by simp) fun _ => rfl)
  | votingGet => exact .inl votingLook_follows
  | votingPersist m =>
    have harm : Follows (Task.votingPersist m).item s (s.armPhaseTimer .countdown GameConfig.countdownDurationMs) :=
      .timer .countdown _ (by simp) fun _ => rfl
    cases reply with
    | failed => cases ha rfl
    | notApplied => cases ha rfl
    | _ => exact .inl harm
  | countdownGet =>
    left
    simp only [continueTask]
    split_ifs
    · exact .next .executeAssert (by simp) fun _ => rfl
    · exact hdrop _ rfl rfl
  | executeAssert =>
    exact .inl (.next .executeGet (by simp) fun _ => rfl)
  | executeGet => exact .inl executeLook_follows
  | executeQuestion => exact executeStart_follows reply
  | executePersist n =>
    left
    simp only [continueTask]
    split_ifs
    · exact .arm (s := s) (r := { s with expectedAnswers := some s.machine.state.survivingPlayerIds.length }) rfl
        (List.Subperm.refl _) (.roundEnd n) _ (by simp) fun h => by cases h
    · exact hdrop _ rfl rfl
  | earlyGet => exact .inl earlyLook_follows
  | endAssert n => exact .inl (beginEndRound_follows n)
  | endGet n => exact .inl (endLook_follows n)
  | endEvaluated n =>
    left
    simp only [continueTask]
    split_ifs
    · exact .next (.endSave n) (by simp) fun h => by cases h
    · exact hdrop _ rfl rfl
  | endRecover n =>
    exact .inl (.next (.endSave n) (by simp) fun h => by cases h)
  | endSave n =>
    left
    simp only [continueTask]
    split_ifs
    · exact .next (.endPersist n) (by simp) fun h => by cases h
    · exact hdrop _ rfl rfl
  | endPersist n =>
    left
    simp only [continueTask]
    split_ifs
    · exact endShow_follows n
    · exact hdrop _ rfl rfl
  | endResult n =>
    left
    simp only [continueTask]
    split_ifs
    · exact scheduleMatchEndCheck_follows n (by simp)
    · exact hdrop _ rfl rfl
  | checkAssert n =>
    exact .inl (.next (.checkGet n) (by simp) fun h => by cases h)
  | checkGet n => exact .inl (checkLook_follows n)
  | finishAssert n =>
    exact .inl (.next (.finishGet n) (by simp) fun h => by cases h)
  | finishGet n => exact .inl (finishLook_follows n)
  | finishPersist =>
    left
    simp only [continueTask]
    split_ifs
    · exact .next .finishDb (by simp) fun h => by cases h
    · exact hdrop _ rfl rfl
  | finishDb =>
    left
    simp only [continueTask]
    split_ifs
    · have hstored : Follows Task.finishDb.item s ({ s with cached := false }.disposeMatch.await .finishRelease) :=
        .await (s := s) (r := { s with cached := false }.disposeMatch) rfl (pending_clear s) .finishRelease (by simp)
          fun h => by cases h
      exact hstored
    · exact hdrop _ rfl rfl
  | finishRelease => exact .inl (hdrop _ rfl rfl)

end Steps

/-! ## The budget -/

/-- the step of a pending item lowers what is ahead -/
theorem Follows.lowers {s r : Runner} {y : PendingItem} (h : Follows y s r) (hy : 0 < y.1) :
    budget r < workAhead s.roundNo (y :: pending s) ∧
      roundsAhead r.roundNo (pending r) ≤ roundsAhead s.roundNo (y :: pending s) := by
  unfold budget
  rw [h.roundNo]
  rcases h.left with hp | ⟨x, hrank, hfree, hp⟩
  · have hrounds : roundsAhead s.roundNo (pending s) ≤ roundsAhead s.roundNo (y :: pending s) := roundsAhead_cons_le
    refine ⟨lt_of_le_of_lt (workAhead_subperm hp) ?_, (roundsAhead_subperm hp).trans hrounds⟩
    simp only [workAhead, List.map_cons, List.sum_cons]
    omega
  · exact ⟨lt_of_le_of_lt (workAhead_subperm hp) (workAhead_replace hrank hfree),
      (roundsAhead_subperm hp).trans (roundsAhead_replace hfree)⟩

theorem Begins.lowers {s r : Runner} {y : PendingItem} (h : Begins y s r) :
    budget r < workAhead s.roundNo (y :: pending s) ∧
      roundsAhead r.roundNo (pending r) + 1 ≤ roundsAhead s.roundNo (y :: pending s) := by
  obtain ⟨hn, x, hrank, hx, hy, hp⟩ := h
  have hrounds : roundsAhead (s.roundNo + 1) (x :: pending s) + 1 ≤ roundsAhead s.roundNo (y :: pending s) :=
    roundsAhead_start hx hy
  unfold budget
  rw [hn]
  refine ⟨lt_of_le_of_lt (workAhead_subperm hp) ?_, (Nat.succ_le_succ (roundsAhead_subperm hp)).trans hrounds⟩
  simp only [workAhead, List.map_cons, List.sum_cons]
  omega

/-- the step fires a timer that is due, or goes on with a suspended call -/
def works (s : Runner) : RunnerOp → Prop
  | .fire i => s.timers[i]?.any (fun t => decide (t.due ≤ s.clock)) = true
  | .resume i _ => s.tasks[i]?.isSome = true
  | _ => False

instance (s : Runner) : (o : RunnerOp) → Decidable (works s o)
  | .fire i => inferInstanceAs (Decidable (s.timers[i]?.any (fun t => decide (t.due ≤ s.clock)) = true))
  | .resume i _ => inferInstanceAs (Decidable (s.tasks[i]?.isSome = true))
  | .tick _ => .isFalse id
  | .startMatchLoop _ => .isFalse id
  | .resumeMatchLoop => .isFalse id
  | .cancelMatchLoop => .isFalse id
  | .checkEarlyTermination => .isFalse id
  | .command _ => .isFalse id

/-- a call that is not the loop's own -/
def fromOutside : RunnerOp → Bool
  | .startMatchLoop _ => true
  | .resumeMatchLoop => true
  | .checkEarlyTermination => true
  | _ => false

/-- the rounds started and those that still may -/
def roundBound (s : Runner) : ℕ := s.roundNo + roundsAhead s.roundNo (pending s)

/-- what one step does to the budget and to the bound on the rounds -/
def Spends (s r : Runner) (work gift : ℕ) : Prop :=
  budget r + work ≤ budget s + 32 * gift ∧ roundBound r ≤ roundBound s + gift

theorem Spends.still {s r : Runner} (hn : r.roundNo = s.roundNo) (hp : (pending r).Subperm (pending s)) (gift : ℕ) :
    Spends s r 0 gift := by
  have hwork := workAhead_subperm (n := s.roundNo) hp
  have hrounds := roundsAhead_subperm (n := s.roundNo) hp
  unfold Spends budget roundBound
  rw [hn]
  omega

/-- one more pending item -/
theorem Spends.more {s r : Runner} (hn : r.roundNo = s.roundNo) {x : PendingItem} (hx : x.1 ≤ 18)
    (hp : (pending r).Subperm (x :: pending s)) : Spends s r 0 1 := by
  have hwork := (workAhead_subperm (n := s.roundNo) hp).trans (workAhead_more hx)
  have hrounds := (roundsAhead_subperm (n := s.roundNo) hp).trans roundsAhead_more
  unfold Spends budget roundBound
  rw [hn]
  omega

/-- a pending item is taken out, and its step leaves `r` -/
theorem Spends.work {s t r : Runner} {y : PendingItem} (hn : t.roundNo = s.roundNo)
    (hp : (pending s).Perm (y :: pending t)) (hy : 0 < y.1) (h : Follows y t r ∨ Begins y t r) : Spends s r 1 0 := by
  have hwork := workAhead_subperm (n := s.roundNo) hp.symm.subperm
  have hrounds := roundsAhead_subperm (n := s.roundNo) hp.symm.subperm
  unfold Spends budget roundBound
  rcases h with h | h
  · obtain ⟨hlt, hle⟩ := h.lowers hy
    have hr := h.roundNo
    unfold budget at hlt
    rw [hn] at hlt hle hr
    omega
  · obtain ⟨hlt, hle⟩ := h.lowers
    have hr := h.1
    unfold budget at hlt
    rw [hn] at hlt hle hr
    omega

/-- what is pending has a step to make -/
theorem pending_of_budget {s : Runner} (h : budget s = 0) : pending s = [] := by
  rcases hp : pending s with _ | ⟨x, items⟩
  · rfl
  · have hx : 0 < x.1 := by
      have hmem : x ∈ pending s := by
        rw [hp]
        exact List.mem_cons_self
      rcases List.mem_append.1 hmem with hmem | hmem
      · obtain ⟨t, -, rfl⟩ := List.mem_map.1 hmem
        cases t <;> simp
      · obtain ⟨t, -, rfl⟩ := List.mem_map.1 hmem
        cases hk : t.kind <;> simp [hk]
    simp only [budget, hp, workAhead, List.map_cons, List.sum_cons] at h
    omega

theorem fire_spends (s : Runner) (i : ℕ) : Spends s (s.fire i) (if works s (.fire i) then 1 else 0) 0 := by
  unfold fire
  cases hx : s.timers[i]? with
  | none =>
    rw [if_neg (by simp [works, hx])]
    exact .still rfl (List.Subperm.refl _) 0
  | some x =>
    by_cases hdue : x.due ≤ s.clock
    · rw [if_pos (by simp [works, hx, hdue])]
      simp only [if_pos hdue]
      have hperm : (pending s).Perm (x.item :: pending { s with timers := s.timers.eraseIdx i }) := by
        obtain ⟨hi, rfl⟩ := List.getElem?_eq_some_iff.1 hx
        have htimers := (List.getElem_cons_eraseIdx_perm hi).symm.map Timer.item
        exact (htimers.append_left _).trans List.perm_middle
      refine .work (t := { s with timers := s.timers.eraseIdx i }) rfl hperm ?_ (.inl ?_)
      · cases hk : x.kind <;> simp [hk]
      · cases hk : x.kind with
        | topicVoting => exact .next .votingAssert (by simp [hk]) fun _ => by simp [hk, TimerKind.startsFreely]
        | countdown => exact .next .countdownGet (by simp [hk]) fun _ => by simp [hk, TimerKind.startsFreely]
        | roundEnd n => exact .next (.endAssert n) (by simp [hk]) nofun
        | matchEndCheck n => exact .next (.checkAssert n) (by simp [hk]) nofun
    · rw [if_neg (by simp [works, hx, hdue])]
      simp only [if_neg hdue]
      exact .still rfl (List.Subperm.refl _) 0

theorem resume_spends (J : StringOps) (s : Runner) (i : ℕ) (reply : Reply) (hg : Advances s (.resume i reply)) :
    Spends s (s.resume J i reply) (if works s (.resume i reply) then 1 else 0) 0 := by
  unfold resume
  cases hx : s.tasks[i]? with
  | none =>
    rw [if_neg (by simp [works, hx])]
    exact .still rfl (List.Subperm.refl _) 0
  | some t =>
    rw [if_pos (by simp [works, hx])]
    have ha : t.mustApply = true → reply.applied = true := by
      have hmust := hg.1
      rw [hx] at hmust
      exact hmust
    have hperm : (pending s).Perm (t.item :: pending { s with tasks := s.tasks.eraseIdx i }) := by
      obtain ⟨hi, rfl⟩ := List.getElem?_eq_some_iff.1 hx
      have htasks := (List.getElem_cons_eraseIdx_perm hi).symm.map Task.item
      exact htasks.append_right _
    refine .work (t := { s with tasks := s.tasks.eraseIdx i }) rfl hperm ?_ (continueTask_follows J reply t ha)
    cases t <;> simp

theorem resumeMatchLoop_spends (s : Runner) : Spends s s.resumeMatchLoop 0 1 := by
  have harm : ∀ (kind : TimerKind) (remaining : Time), kind.rank ≤ 18 →
      Spends s (s.armPhaseTimer kind remaining) 0 1 := fun kind remaining hk =>
    .more rfl (x := (kind.rank, kind.startsFreely)) hk (pending_arm s kind remaining).subperm
  unfold resumeMatchLoop
  split
  case h_1 => exact harm .topicVoting _ (by simp)
  case h_2 => exact harm .countdown _ (by simp)
  case h_3 => exact harm (.roundEnd _) _ (by simp)
  case h_4 => exact .more rfl (x := (17, false)) (by simp) (pending_await s (.endAssert _)).subperm
  case h_5 => exact harm (.matchEndCheck _) _ (by simp)
  case h_6 => exact .still (s := s) (r := s.disposeMatch) rfl (pending_clear s) 1
  case h_7 => exact .still (s := s) (r := s.disposeMatch) rfl (pending_clear s) 1

/-- **Work lowers the budget**, a call from outside raises it by a constant, and nothing else does. -/
theorem work_budget (J : StringOps) (s : Runner) (o : RunnerOp) (hg : Advances s o) :
    Spends s (s.step J o) (if works s o then 1 else 0) (if fromOutside o then 1 else 0) := by
  cases o with
  | tick ms => exact .still rfl (List.Subperm.refl _) 0
  | startMatchLoop b =>
    exact .more rfl (x := (Task.startMatchLoop b).item) (by simp) (pending_await s (.startMatchLoop b)).subperm
  | resumeMatchLoop => exact resumeMatchLoop_spends s
  | cancelMatchLoop => exact hg.elim
  | fire i => exact fire_spends s i
  | resume i reply => exact resume_spends J s i reply hg
  | checkEarlyTermination =>
    have hcheck : Spends s s.checkEarlyTermination 0 1 := by
      unfold checkEarlyTermination
      split_ifs
      · exact .still rfl (List.Subperm.refl _) 1
      · exact .more (s := s) (r := s.await .earlyGet) rfl (x := Task.earlyGet.item) (by simp)
          (pending_await s .earlyGet).subperm
    exact hcheck
  | command o =>
    have hcommand : Spends s (s.step J (.command o)) 0 0 := by
      simp only [step]
      split_ifs with ho
      · refine .still (s := s) (r := { s with machine := s.machine.step J o }) ?_ (List.Subperm.refl _) 0
        refine (change_keepsNumber (step_change J s.machine o) ?_).roundNo
        rintro q d now rfl
        cases ho
      · exact .still rfl (List.Subperm.refl _) 0
    exact hcommand

/-! ## Runs -/

/-- a launch or a take-over leaves one pending item at most -/
theorem Started.budget {J : StringOps} {s : Runner} (h : Started J s) :
    Runner.budget s ≤ 718 ∧ roundBound s ≤ max 50 (s.roundNo + 1) := by
  have hmax : GameConfig.maxRounds = 50 := rfl
  have hone : ∀ (n : ℕ) (items : List PendingItem), items.length ≤ 1 → (∀ x ∈ items, x.1 ≤ 18) →
      workAhead n items ≤ 718 ∧ n + roundsAhead n items ≤ max 50 (n + 1) := by
    intro n items hlen hrank
    have hcount : items.countP Prod.snd ≤ items.length := List.countP_le_length
    have hsum : (items.map Prod.fst).sum ≤ 18 := by
      match items, hlen with
      | [], _ => simp
      | [x], _ => simpa using hrank x (by simp)
    unfold workAhead roundsAhead
    rw [hmax]
    split_ifs <;> omega
  unfold Runner.budget roundBound
  apply hone
  · cases h with
    | launched matchId roomId players hd clock b => exact le_rfl
    | resumed m clock hw =>
      simp only [step, resumeMatchLoop]
      split <;> simp [pending, adopt, armPhaseTimer, Runner.await, endRound, disposeMatch, clearTimers]
  · cases h with
    | launched matchId roomId players hd clock b =>
      intro x hx
      obtain rfl := List.mem_singleton.1 hx
      simp
    | resumed m clock hw =>
      simp only [step, resumeMatchLoop]
      split <;> simp [pending, adopt, armPhaseTimer, Runner.await, endRound, disposeMatch, clearTimers]

/-- **Every match ends.** From a launch, or from a blob that was launched and has its round, in every run whose steps
advance, whatever the order of timers, replies, commands and calls from outside: the loop does at most 718 steps of work
and 32 more for each call from outside. A match that is not FINISHED has done fewer, and has a call to go on with or a
timer that changes the status. No more rounds start than `maxRounds`, or than the match had and one, and one more for
each call from outside. -/
theorem match_ends (J : StringOps) (s : Runner) (ops : List RunnerOp) (h0 : Started J s) (hr : Resumable s)
    (hg : Along (step J) Advances s ops) :
    let last := run (step J) s ops
    let work := countAlong (step J) works s ops
    let calls := ops.countP fromOutside
    work ≤ 718 + 32 * calls ∧
      (last.machine.state.status ≠ .finished →
        work < 718 + 32 * calls ∧ (last.tasks ≠ [] ∨ ∃ t ∈ last.timers, WillMove J last t)) ∧
      last.roundNo ≤ max 50 (s.roundNo + 1) + calls := by
  intro last work calls
  obtain ⟨hfirst, hrounds⟩ := h0.budget
  have hbudget : work + budget last ≤ budget s + 32 * calls := by
    refine run_budget (step J) Advances works (fun _ => True) budget fromOutside 32 (fun _ _ _ _ => trivial) ?_ s ops hg
      trivial
    intro s o ho _
    have hstep := (work_budget J s o ho).1
    by_cases hf : fromOutside o = true <;> simp only [hf, if_true, if_false, Bool.false_eq_true] at hstep ⊢ <;> omega
  have hbound : roundBound last ≤ roundBound s + 1 * calls := by
    refine run_bounded (step J) Advances (fun _ => True) roundBound fromOutside 1 (fun _ _ _ _ => trivial) ?_ s ops hg
      trivial
    exact fun s o ho _ => (work_budget J s o ho).2
  have hrun : LoopInv last ∧ Shaped last := by
    refine run_inv (step J) Advances (fun s => LoopInv s ∧ Shaped s) ?_ s ops hg ⟨h0.loopInv hr, h0.shaped⟩
    exact fun s o ho hs => ⟨step_loopInv J s o ho hs.1 hs.2, step_shaped J s o hs.2⟩
  refine ⟨by omega, ?_, ?_⟩
  · intro hf
    have hmoves : last.tasks ≠ [] ∨ ∃ t ∈ last.timers, WillMove J last t := by
      by_cases htasks : last.tasks = []
      · exact .inr (hrun.1.moves hrun.2.machine J hf htasks)
      · exact .inl htasks
    refine ⟨?_, hmoves⟩
    by_contra hused
    have hnone := pending_of_budget (show budget last = 0 by omega)
    simp only [pending, List.append_eq_nil_iff, List.map_eq_nil_iff] at hnone
    rcases hmoves with htasks | ⟨t, ht, -⟩
    · exact htasks hnone.1
    · rw [hnone.2] at ht
      cases ht
  · have hle : last.roundNo ≤ roundBound last := Nat.le_add_right _ _
    omega

/-- the first round of two players has been asked, and its timer is what is left to go on with -/
theorem match_ends_launch :
    countAlong (step StringOps.ascii) works launch firstRound = 8 ∧
      (run (step StringOps.ascii) launch firstRound).roundNo ≤ 50 := by
  have hall := match_ends StringOps.ascii launch firstRound launch_started (by decide +kernel) (by decide +kernel)
  exact ⟨by decide +kernel, hall.2.2.trans (by decide +kernel)⟩

end Runner

end Arena.Api
