/-
Second chances bound the answers of a round.

A second chance is a permission in a mutable set: `playCard` adds the player, `submitAnswer` takes the player out when it
accepts a further answer, `startRound` clears the set, and a failover rebuilds it from the log. The bound is read from
the log alone. `Tally` counts a player's answers, grants and consumptions since the last ROUND_STARTED, and `ChanceInv`
says that every prefix of the log is paid for: each answer but the first has its consumption, and each consumption its
grant, in the same round.

- `change_chanceInv`: a call keeps the account paid;
- `second_chance_bounds`: the bound for every interval between two ROUND_STARTED events, grants that do not carry over,
  and re-sent submissions;
- `empty_submission_id_resent`: an empty submission id is not recognised as a re-send.
-/
import Arena.GameCore.Ledger
import Arena.GameCore.Failover

namespace Arena.GameCore

open Arena.Lib Arena.Shared

/-! ## Events of one player -/

def EventLogEntry.isRoundStarted (e : EventLogEntry) : Bool :=
  match e.event with
  | .roundStarted .. => true
  | _ => false

def EventLogEntry.isAnswerOf (p : String) (e : EventLogEntry) : Bool :=
  match e.event with
  | .answerSubmitted q _ _ => q = p
  | _ => false

def EventLogEntry.isGrantTo (p : String) (e : EventLogEntry) : Bool :=
  match e.event with
  | .secondChanceGranted q _ => q = p
  | _ => false

def EventLogEntry.isConsumedBy (p : String) (e : EventLogEntry) : Bool :=
  match e.event with
  | .secondChanceConsumed q _ => q = p
  | _ => false

/-- a player's answers, grants and consumptions in a round -/
structure Tally where
  answers : ℕ
  grants : ℕ
  consumed : ℕ
deriving DecidableEq, Repr

namespace Tally

def zero : Tally := ⟨0, 0, 0⟩

def count (p : String) (t : Tally) (e : EventLogEntry) : Tally :=
  if e.isRoundStarted then zero
  else ⟨t.answers + (e.isAnswerOf p).toNat, t.grants + (e.isGrantTo p).toNat, t.consumed + (e.isConsumedBy p).toNat⟩

/-- each answer but the first has its consumption, each consumption its grant -/
structure Paid (t : Tally) : Prop where
  answers : t.answers ≤ 1 + t.consumed
  consumed : t.consumed ≤ t.grants

theorem paid_zero : zero.Paid := ⟨by decide, by decide⟩

section
variable (p q : String) (t : Tally) (now : Time) (n : ℕ)

@[simp] theorem count_answer (correct : Bool) (responseTimeMs : Time) :
    t.count p ⟨.answerSubmitted q correct responseTimeMs, now, n⟩ =
      if q = p then { t with answers := t.answers + 1 } else t := by
  by_cases h : q = p <;>
    simp [count, EventLogEntry.isRoundStarted, EventLogEntry.isAnswerOf, EventLogEntry.isGrantTo,
      EventLogEntry.isConsumedBy, h]

@[simp] theorem count_grant (roundNo : ℕ) :
    t.count p ⟨.secondChanceGranted q roundNo, now, n⟩ = if q = p then { t with grants := t.grants + 1 } else t := by
  by_cases h : q = p <;>
    simp [count, EventLogEntry.isRoundStarted, EventLogEntry.isAnswerOf, EventLogEntry.isGrantTo,
      EventLogEntry.isConsumedBy, h]

@[simp] theorem count_consumed (roundNo : ℕ) :
    t.count p ⟨.secondChanceConsumed q roundNo, now, n⟩ =
      if q = p then { t with consumed := t.consumed + 1 } else t := by
  by_cases h : q = p <;>
    simp [count, EventLogEntry.isRoundStarted, EventLogEntry.isAnswerOf, EventLogEntry.isGrantTo,
      EventLogEntry.isConsumedBy, h]

end

end Tally

namespace Machine

/-- the account of a player since the last ROUND_STARTED -/
def tally (p : String) (log : List EventLogEntry) : Tally := log.foldl (Tally.count p) Tally.zero

/-! ## The account along a log -/

theorem tally_append (p : String) (log es : List EventLogEntry) :
    tally p (log ++ es) = es.foldl (Tally.count p) (tally p log) := by
  simp [tally, List.foldl_append]

theorem count_quiet (p : String) (t : Tally) (e : EventLogEntry) (h : e.event.isRoundEvent = false) :
    t.count p e = t := by
  obtain ⟨event, ts, n⟩ := e
  cases event <;> first | rfl | cases h

theorem foldl_count_quiet (p : String) (es : List EventLogEntry) (h : ∀ e ∈ es, e.event.isRoundEvent = false) :
    ∀ t, es.foldl (Tally.count p) t = t := by
  induction es with
  | nil => intro t; rfl
  | cons e es ih =>
    intro t
    rw [List.foldl_cons, count_quiet p t e (h e (by simp))]
    exact ih (fun x hx => h x (by simp [hx])) t

/-- inside one round the account adds up -/
theorem foldl_count_interval (p : String) (seg : List EventLogEntry) (h : ∀ e ∈ seg, e.isRoundStarted = false) :
    ∀ t, seg.foldl (Tally.count p) t =
      ⟨t.answers + seg.countP (EventLogEntry.isAnswerOf p), t.grants + seg.countP (EventLogEntry.isGrantTo p),
        t.consumed + seg.countP (EventLogEntry.isConsumedBy p)⟩ := by
  induction seg with
  | nil => intro t; rfl
  | cons e seg ih =>
    intro t
    have he : e.isRoundStarted = false := h e (by simp)
    have hrest : ∀ x ∈ seg, x.isRoundStarted = false := fun x hx => h x (by simp [hx])
    rw [List.foldl_cons, ih hrest]
    simp only [Tally.count, he, Bool.false_eq_true, if_false, List.countP_cons, Tally.mk.injEq]
    refine ⟨?_, ?_, ?_⟩
    · cases e.isAnswerOf p <;> simp; omega
    · cases e.isGrantTo p <;> simp; omega
    · cases e.isConsumedBy p <;> simp; omega

/-- the account of an interval is the count of its events -/
theorem tally_interval (p : String) (pre seg : List EventLogEntry) (start : EventLogEntry)
    (hs : start.isRoundStarted = true) (hseg : ∀ e ∈ seg, e.isRoundStarted = false) :
    tally p (pre ++ start :: seg) = ⟨seg.countP (EventLogEntry.isAnswerOf p), seg.countP (EventLogEntry.isGrantTo p),
      seg.countP (EventLogEntry.isConsumedBy p)⟩ := by
  have hz : (tally p pre).count p start = Tally.zero := by simp [Tally.count, hs]
  rw [tally_append, List.foldl_cons, hz, foldl_count_interval p seg hseg]
  simp [Tally.zero]

/-- a counted grant stands in the log, with no ROUND_STARTED after it -/
theorem grant_of_tally (p : String) (log : List EventLogEntry) (h : 0 < (tally p log).grants) :
    ∃ pre grant post, log = pre ++ grant :: post ∧ grant.isGrantTo p = true ∧
      ∀ e ∈ post, e.isRoundStarted = false := by
  induction log using List.reverseRecOn with
  | nil => exact absurd h (Nat.lt_irrefl 0)
  | append_singleton log e ih =>
    rw [tally_append, List.foldl_cons, List.foldl_nil] at h
    cases hs : e.isRoundStarted with
    | true => simp [Tally.count, hs, Tally.zero] at h
    | false =>
      cases hg : e.isGrantTo p with
      | true => exact ⟨log, e, [], rfl, hg, by simp⟩
      | false =>
        simp only [Tally.count, hs, hg, Bool.false_eq_true, if_false, Bool.toNat_false, Nat.add_zero] at h
        obtain ⟨pre, grant, post, rfl, hgr, hpost⟩ := ih h
        refine ⟨pre, grant, post ++ [e], by simp, hgr, ?_⟩
        intro x hx
        rcases List.mem_append.1 hx with hx | hx
        · exact hpost x hx
        · rw [List.mem_singleton.1 hx]
          exact hs

/-- a player without a logged response has no counted answer -/
theorem tally_unanswered (p : String) (log : List EventLogEntry) (h : lastResponse p log = none) :
    (tally p log).answers = 0 := by
  induction log using List.reverseRecOn with
  | nil => rfl
  | append_singleton log e ih =>
    rw [lastResponse_append, List.foldl_cons, List.foldl_nil] at h
    rw [tally_append, List.foldl_cons, List.foldl_nil]
    obtain ⟨event, ts, n⟩ := e
    cases event with
    | roundStarted => rfl
    | answerSubmitted q c t =>
      by_cases hq : q = p
      · simp [respond, hq] at h
      · simp only [respond, hq, if_false] at h
        simpa [Tally.count, EventLogEntry.isRoundStarted, EventLogEntry.isAnswerOf, hq] using ih h
    | _ => exact ih h

/-- every prefix of the log is paid for -/
def PaidLog (log : List EventLogEntry) : Prop := ∀ p pre, pre <+: log → (tally p pre).Paid

theorem PaidLog.concat {log : List EventLogEntry} (h : PaidLog log) (e : EventLogEntry)
    (he : ∀ p, ((tally p log).count p e).Paid) : PaidLog (log ++ [e]) := by
  intro p pre hpre
  rcases List.prefix_concat_iff.1 hpre with rfl | hpre
  · rw [tally_append]
    exact he p
  · exact h p pre hpre

theorem PaidLog.quiet {log es : List EventLogEntry} (h : PaidLog log) (hq : ∀ e ∈ es, e.event.isRoundEvent = false) :
    PaidLog (log ++ es) := by
  induction es generalizing log with
  | nil => simpa using h
  | cons e es ih =>
    have he : PaidLog (log ++ [e]) := by
      apply h.concat e
      intro p
      rw [count_quiet p _ e (hq e (by simp))]
      exact h p log (List.prefix_refl log)
    have := ih he (fun x hx => hq x (by simp [hx]))
    simpa using this

/-! ## The invariant -/

/-- the log is paid for, and a held permission is a grant not yet consumed -/
structure Account (m : Machine) : Prop where
  paid : PaidLog m.eventLog
  held : ∀ p, m.cards.secondChancePlayers.has p = true →
    (tally p m.eventLog).consumed + 1 ≤ (tally p m.eventLog).grants

theorem account_create (matchId roomId : String) (players : List PlayerInfo) :
    Account (Machine.create matchId roomId players) where
  paid := by
    intro p pre hpre
    rw [List.prefix_nil.1 hpre]
    exact Tally.paid_zero
  held := by
    intro p hp
    cases hp

theorem Account.now {m : Machine} (h : Account m) (p : String) : (tally p m.eventLog).Paid :=
  h.paid p m.eventLog (List.prefix_refl _)

theorem Account.of_quiet {m m' : Machine} (h : Account m) (hq : AppendsQuiet m m')
    (hc : m'.cards.secondChancePlayers = m.cards.secondChancePlayers) : Account m' := by
  obtain ⟨es, hl, hes⟩ := hq
  refine ⟨?_, ?_⟩
  · rw [hl]
    exact h.paid.quiet hes
  · intro p hp
    rw [hl, tally_append, foldl_count_quiet p es hes]
    exact h.held p (hc ▸ hp)

/-- a quiet call leaves the permissions alone -/
theorem change_quiet_chance {J : StringOps} {m m' : Machine} {o : Op} (hc : Change J m o m') (hq : o.isQuiet = true) :
    m'.cards.secondChancePlayers = m.cards.secondChancePlayers := by
  cases hc with
  | startRound => cases hq
  | answer => cases hq
  | evaluated => cases hq
  | evaluateStuck => cases hq
  | play => cases hq
  | transition target now _ => cases target <;> rfl
  | winner now => rw [(determineWinner_frame m now).2.2]
  | finish now =>
    have h : ((m.determineWinner now).1.crown (m.determineWinner now).2 now).cards = (m.determineWinner now).1.cards := rfl
    rw [h, (determineWinner_frame m now).2.2]
  | _ => rfl

/-- the first answer of a round needs no permission -/
theorem answer_account_first {m : Machine} (h : Account m) (ha : AnswersInv m) {round : Round}
    (hr : m.currentRound = some round) (a : AnswerState) (now : Clock) (hnone : round.answers.get a.playerId = none) :
    Account (m.recordAnswer round a false now) := by
  have hzero : (tally a.playerId m.eventLog).answers = 0 := by
    apply tally_unanswered
    rw [← ha round hr a.playerId, hnone]
    rfl
  have hl : (m.recordAnswer round a false now).eventLog = m.eventLog ++
      [⟨.answerSubmitted a.playerId a.isCorrect a.responseTimeMs, now 1, m.eventSeqCounter + 1⟩] := rfl
  refine ⟨?_, ?_⟩
  · rw [hl]
    apply h.paid.concat
    intro p
    rw [Tally.count_answer]
    split_ifs with hp
    · subst hp
      exact ⟨by simp only; omega, (h.now a.playerId).consumed⟩
    · exact h.now p
  · intro p hp
    rw [hl, tally_append, List.foldl_cons, List.foldl_nil, Tally.count_answer]
    split_ifs <;> exact h.held p hp

/-- a further answer takes up a permission, and its consumption is logged before it -/
theorem answer_account_retry {m : Machine} (h : Account m) (round : Round) (a : AnswerState) (now : Clock)
    (hhas : m.cards.secondChancePlayers.has a.playerId = true) : Account (m.recordAnswer round a true now) := by
  let consumed : EventLogEntry := ⟨.secondChanceConsumed a.playerId round.roundNo, now 0, m.eventSeqCounter + 1⟩
  let answered : EventLogEntry :=
    ⟨.answerSubmitted a.playerId a.isCorrect a.responseTimeMs, now 1, m.eventSeqCounter + 1 + 1⟩
  have hl : (m.recordAnswer round a true now).eventLog = (m.eventLog ++ [consumed]) ++ [answered] := rfl
  have hheld := h.held a.playerId hhas
  have hans := (h.now a.playerId).answers
  have h1 : PaidLog (m.eventLog ++ [consumed]) := by
    apply h.paid.concat
    intro p
    rw [Tally.count_consumed]
    split_ifs with hp
    · subst hp
      exact ⟨by simp only; omega, hheld⟩
    · exact h.now p
  refine ⟨?_, ?_⟩
  · rw [hl]
    apply h1.concat
    intro p
    rw [tally_append, List.foldl_cons, List.foldl_nil, Tally.count_consumed, Tally.count_answer]
    split_ifs with hp
    · subst hp
      exact ⟨by simp only; omega, hheld⟩
    · exact h.now p
  · intro p hp
    have hc : (m.recordAnswer round a true now).cards.secondChancePlayers =
        m.cards.secondChancePlayers.delete a.playerId := rfl
    rw [hc, JsSet.has_delete, Bool.and_eq_true] at hp
    have hne : ¬ a.playerId = p := by
      rintro rfl
      simp at hp
    rw [hl, tally_append, tally_append, List.foldl_cons, List.foldl_nil, List.foldl_cons, List.foldl_nil,
      Tally.count_consumed, Tally.count_answer, if_neg hne, if_neg hne]
    exact h.held p hp.2

theorem play_chance (m : Machine) (round : Round) (i : PlayInput) (n : ℕ) (now : Clock) :
    ((m.logEvent (.cardResolved (m.resolvedPayload round i)) (now 0)).applyPlay round i n now).cards.secondChancePlayers =
      if i.resolvedEffect = .secondChance then m.cards.secondChancePlayers.add i.playedByPlayerId
      else m.cards.secondChancePlayers := by
  unfold applyPlay
  by_cases hs : i.resolvedEffect = .secondChance
  · simp [hs, isTemporaryEffectKind, temporaryDuration]
  · simp only [hs, if_false]
    split_ifs <;> rfl

theorem play_account {m : Machine} (h : Account m) (round : Round) (i : PlayInput) (n : ℕ) (now : Clock) :
    Account ((m.logEvent (.cardResolved (m.resolvedPayload round i)) (now 0)).applyPlay round i n now) := by
  let resolved : EventLogEntry := ⟨.cardResolved (m.resolvedPayload round i), now 0, m.eventSeqCounter + 1⟩
  have hq : ∀ e ∈ [resolved], e.event.isRoundEvent = false := by
    intro e he
    rw [List.mem_singleton.1 he]
    rfl
  have hres : ∀ p, tally p (m.eventLog ++ [resolved]) = tally p m.eventLog := by
    intro p
    rw [tally_append, foldl_count_quiet p _ hq]
  have h1 : PaidLog (m.eventLog ++ [resolved]) := h.paid.quiet hq
  have hl := play_eventLog m round i n now
  by_cases hs : i.resolvedEffect = .secondChance
  · let grant : EventLogEntry := ⟨.secondChanceGranted i.playedByPlayerId round.roundNo, now 1, m.eventSeqCounter + 1 + 1⟩
    have hl' : m.eventLog ++ m.playEntries round i now = (m.eventLog ++ [resolved]) ++ [grant] := by
      simp [playEntries, hs, resolved, grant]
    rw [hl'] at hl
    refine ⟨?_, ?_⟩
    · rw [hl]
      apply h1.concat
      intro p
      rw [hres, Tally.count_grant]
      have hp := h.now p
      split_ifs
      · exact ⟨hp.answers, Nat.le_succ_of_le hp.consumed⟩
      · exact hp
    · intro p hp
      rw [play_chance, if_pos hs, JsSet.has_add, Bool.or_eq_true, decide_eq_true_iff] at hp
      rw [hl, tally_append, hres, List.foldl_cons, List.foldl_nil, Tally.count_grant]
      split_ifs with hne
      · exact Nat.succ_le_succ (h.now p).consumed
      · rcases hp with rfl | hp
        · exact absurd rfl hne
        · exact h.held p hp
  · have hl' : m.eventLog ++ m.playEntries round i now = m.eventLog ++ [resolved] := by
      simp [playEntries, hs, resolved]
    rw [hl'] at hl
    refine ⟨hl ▸ h1, ?_⟩
    intro p hp
    rw [play_chance, if_neg hs] at hp
    rw [hl, hres]
    exact h.held p hp

/-- **A call keeps the account paid.** -/
theorem change_account {J : StringOps} {m m' : Machine} {o : Op} (hc : Change J m o m') (ha : AnswersInv m)
    (h : Account m) : Account m' := by
  by_cases hq : o.isQuiet = true
  · exact h.of_quiet (change_quiet hc hq) (change_quiet_chance hc hq)
  · cases hc with
    | same o => exact h
    | startRound q d now _ =>
      have hl : (m.beginRound q d now).eventLog = m.eventLog ++ [⟨.roundStarted (m.state.currentRoundNo + 1) q.id q.client
        (m.newRound q d now).endsAt, now 1, m.eventSeqCounter + 1⟩] := rfl
      refine ⟨?_, ?_⟩
      · rw [hl]
        apply h.paid.concat
        intro p
        exact Tally.paid_zero
      · intro p hp
        have hempty : (m.beginRound q d now).cards.secondChancePlayers = JsSet.empty := rfl
        rw [hempty, JsSet.has_empty] at hp
        cases hp
    | answer round p a ts sid retry now hr _ _ _ hretry =>
      rcases hretry with ⟨rfl, -, hhas⟩ | ⟨rfl, hnone⟩
      · exact answer_account_retry h round _ now hhas
      · exact answer_account_first h ha hr _ now hnone
    | evaluated round now hr _ =>
      have hcount : ∀ p, (tally p m.eventLog).count p ⟨.roundEvaluated round.roundNo round.correctAnswer
          (m.survivorsOf round).length (m.losersOf round).length (m.losersOf round), now 0, m.eventSeqCounter + 1⟩ =
          tally p m.eventLog := fun p => rfl
      refine ⟨h.paid.concat _ ?_, ?_⟩
      · intro p
        rw [hcount]
        exact h.now p
      · intro p hp
        simp only [settle, logEvent_eventLog, tally_append, List.foldl_cons, List.foldl_nil]
        rw [hcount]
        exact h.held p hp
    | evaluateStuck round now hr _ => exact h.of_quiet (.of_eq rfl) rfl
    | play round i now hr _ _ => exact play_account h round i _ now
    | _ => exact absurd rfl hq

structure ChanceInv (m : Machine) : Prop where
  wire : WireInv m
  mirror : MirrorInv m
  answers : AnswersInv m
  account : Account m

theorem act_chanceInv (J : StringOps) (m : Machine) (a : Action) (hn : a.namesPlayers) (h : ChanceInv m) :
    ChanceInv (m.act J a) := by
  cases a with
  | call o =>
    have hc := step_change J m o
    exact ⟨change_wireInv hc h.wire, change_mirrorInv hc hn h.mirror, change_answersInv hc h.answers,
      change_account hc h.answers h.account⟩
  | failover =>
    rcases failover_cases J m h.wire with hf | hf
    · simp only [act, hf]
      have hcards : m.recovered.cards = m.cards := h.mirror.symm
      exact ⟨recovered_wireInv m h.wire, rfl, recovered_answersInv h.answers,
        h.account.of_quiet (.of_eq rfl) (congrArg CardMirrors.secondChancePlayers hcards)⟩
    · simp only [act, hf]
      exact h

/-- a re-sent submission id returns the recorded answer and changes nothing -/
theorem submitAnswer_resend (J : StringOps) (m : Machine) (p text : String) (ts : Time) (now : Clock) (r : Round)
    (a : AnswerState) (hr : m.currentRound = some r) (ha : r.answers.get p = some a) (hne : a.submissionId ≠ "") :
    m.submitAnswer J p text ts (some a.submissionId) now = (m, .ok a) := by
  have hre : isResend a (some a.submissionId) = true := by simp [isResend, hne]
  simp [submitAnswer, hr, ha, hre]

/-- **Second chances bound submissions.** In every run with named players, failovers included: in every interval of the
log that starts at a ROUND_STARTED and holds no other, a player's answers are at most one more than the grants to it, and
its consumptions at most these grants; a permission held in any state was granted since the last ROUND_STARTED; and
re-sending the non-empty submission id of the recorded answer returns it and changes nothing. -/
theorem second_chance_bounds (J : StringOps) (matchId roomId : String) (players : List PlayerInfo) (acts : List Action)
    (hd : (players.map PlayerInfo.id).Nodup) (hn : ∀ a ∈ acts, a.namesPlayers) :
    let m := reach J matchId roomId players acts
    (∀ p pre start seg post, m.eventLog = pre ++ start :: (seg ++ post) → start.isRoundStarted = true →
        (∀ e ∈ seg, e.isRoundStarted = false) →
        seg.countP (EventLogEntry.isAnswerOf p) ≤ 1 + seg.countP (EventLogEntry.isGrantTo p) ∧
        seg.countP (EventLogEntry.isConsumedBy p) ≤ seg.countP (EventLogEntry.isGrantTo p)) ∧
      (∀ p, m.cards.secondChancePlayers.has p = true → ∃ pre grant post, m.eventLog = pre ++ grant :: post ∧
        grant.isGrantTo p = true ∧ ∀ e ∈ post, e.isRoundStarted = false) ∧
      ∀ p r a, m.currentRound = some r → r.answers.get p = some a → a.submissionId ≠ "" →
        ∀ text ts now, m.submitAnswer J p text ts (some a.submissionId) now = (m, .ok a) := by
  intro m
  have h : ChanceInv m :=
    run_inv (act J) (fun _ a => a.namesPlayers) ChanceInv (fun s a ha hi => act_chanceInv J s a ha hi) _ acts
      ((along_const _ _ _ _).2 hn)
      ⟨wireInv_create matchId roomId players hd, mirrorInv_create matchId roomId players, (fun _ hr => by cases hr),
        account_create matchId roomId players⟩
  refine ⟨?_, ?_, ?_⟩
  · intro p pre start seg post hlog hs hseg
    have hpre : pre ++ start :: seg <+: m.eventLog := ⟨post, by rw [hlog]; simp⟩
    have hpaid := h.account.paid p (pre ++ start :: seg) hpre
    rw [tally_interval p pre seg start hs hseg] at hpaid
    obtain ⟨h1, h2⟩ := hpaid
    exact ⟨h1.trans (Nat.add_le_add_left h2 1), h2⟩
  · intro p hp
    apply grant_of_tally
    exact lt_of_lt_of_le (Nat.succ_pos _) (h.account.held p hp)
  · intro p r a hr ha hne text ts now
    exact submitAnswer_resend J m p text ts now r a hr ha hne

/-- alice answers, is granted a second chance, and the match fails over -/
def grantedRun (submissionId : String) : List Action :=
  [.call (.transition .countdown fun _ => 0), .call (.transition .roundActive fun _ => 0),
    .call (.startRound ⟨"q1", "2 + 2?", ["3", "4", "5", "6"], "4", none⟩ none fun _ => 0),
    .call (.submitAnswer "alice" "a" 100 (some submissionId) fun _ => 100),
    .call (.playCard ⟨"alice", .tn6, 1, .secondChance, ["alice"], 200, none, none⟩ fun _ => 200), .failover]

theorem second_chance_bounds_granted :
    let m := reach StringOps.ascii "m1" "r1" [freshPlayer "alice", freshPlayer "bob"] (grantedRun "s1")
    m.cards.secondChancePlayers.has "alice" = true ∧
      ∃ pre grant post, m.eventLog = pre ++ grant :: post ∧ grant.isGrantTo "alice" = true ∧
        ∀ e ∈ post, e.isRoundStarted = false := by
  intro m
  have hhas : m.cards.secondChancePlayers.has "alice" = true := by decide +kernel
  exact ⟨hhas, (second_chance_bounds StringOps.ascii "m1" "r1" [freshPlayer "alice", freshPlayer "bob"] (grantedRun "s1")
    (by decide) (by decide)).2.1 "alice" hhas⟩

/-- an empty submission id is recorded, but its re-send is taken for a new answer -/
theorem empty_submission_id_resent :
    let m := reach StringOps.ascii "m1" "r1" [freshPlayer "alice", freshPlayer "bob"] (grantedRun "")
    (m.currentRound.bind fun r => r.answers.get "alice").map AnswerState.submissionId = some "" ∧
      (m.submitAnswer StringOps.ascii "alice" "b" 300 (some "") fun _ => 300).1.eventLog ≠ m.eventLog := by
  decide +kernel

end Machine

end Arena.GameCore
