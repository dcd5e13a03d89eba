/-
What a failover changes: the recovered instance against the live one.

Every reachable machine has its mirrors equal to the replay of its log (`reach_cardInv`), so a failover that re-attaches
the answer key rebuilds the machine exactly (`recover_eq`), but for one flag: the live instance may hold an elimination
list frozen by a logged TIE_BREAK, and the decoded list is a fresh array. `trace` collects the result and the appended
log entries of each later step.

- `failover_unobservable`: the recovered instance answers every later call as the live one would have, exactly when the
  list was not frozen or the difference never meets an `evaluateRound` (`Masked`).
- `failover_observed`: a run where it does.
-/
import Arena.GameCore.Codec

namespace Arena.GameCore

open Arena.Lib Arena.Shared

namespace Machine

/-! ## The invariant behind recovery -/

structure CardInv (m : Machine) : Prop where
  wire : WireInv m
  timed : Timed m
  seq : SeqInv m
  mirror : MirrorInv m

def Action.namesPlayers : Action → Prop
  | .call o => o.namesPlayers
  | .failover => True

instance : DecidablePred Action.namesPlayers := fun a => by
  unfold Action.namesPlayers
  split <;> infer_instance

/-- the highest sequence number of a positionally numbered log is its length -/
theorem foldl_max_seqNo (l : List EventLogEntry) (n : ℕ) (h : l.map EventLogEntry.seqNo = List.range' 1 n) :
    l.foldl (fun acc e => max e.seqNo acc) 0 = n := by
  have hmap : l.foldl (fun acc e => max e.seqNo acc) 0 = (l.map EventLogEntry.seqNo).foldl (fun acc k => max k acc) 0 := by
    rw [List.foldl_map]
  rw [hmap, h]
  clear hmap h
  induction n with
  | zero => rfl
  | succ n ih =>
    rw [List.range'_1_concat, List.foldl_append, ih]
    simp [Nat.add_comm]

/-- the decoded counter goes on from the live one -/
theorem recovered_seqInv (m : Machine) (h : SeqInv m) : SeqInv m.recovered := by
  unfold SeqInv recovered
  simp only
  rw [foldl_max_seqNo m.eventLog m.eventSeqCounter h]
  exact h

theorem act_cardInv (J : StringOps) (m : Machine) (a : Action) (hv : a.validDuration) (hn : a.namesPlayers)
    (h : CardInv m) : CardInv (m.act J a) := by
  cases a with
  | call o =>
    have hc := step_change J m o
    exact ⟨change_wireInv hc h.wire, change_timed hc hv h.timed, (change_appends hc).seqInv h.seq,
      change_mirrorInv hc hn h.mirror⟩
  | failover =>
    refine ⟨act_wireInv J m .failover h.wire, act_timed J m .failover hv h.wire h.timed, ?_, ?_⟩
    · simp only [act, failover_eq J m h.wire h.timed]
      exact recovered_seqInv m h.seq
    · simp only [act, failover_eq J m h.wire h.timed]
      rfl

/-- **The mirrors are the replay of the log** in every reachable machine. -/
theorem reach_cardInv (J : StringOps) (matchId roomId : String) (players : List PlayerInfo) (acts : List Action)
    (hd : (players.map PlayerInfo.id).Nodup) (hv : ∀ a ∈ acts, a.validDuration) (hn : ∀ a ∈ acts, a.namesPlayers) :
    CardInv (reach J matchId roomId players acts) :=
  run_inv (act J) (fun _ a => a.validDuration ∧ a.namesPlayers) CardInv
    (fun m a ha hi => act_cardInv J m a ha.1 ha.2 hi) _ acts
    ((along_const _ _ _ _).2 fun a ha => ⟨hv a ha, hn a ha⟩)
    ⟨wireInv_create matchId roomId players hd, (fun _ hr => nomatch hr), rfl, mirrorInv_create matchId roomId players⟩

/-! ## The recovered machine -/

/-- the machine with a fresh, writable elimination list -/
def thaw (m : Machine) : Machine := { m with eliminatedFrozen := false }

/-- recovery: decode the blob and re-attach the answer key -/
def recover (J : StringOps) (key : String) (m : Machine) : Machine := (m.failover J).attachCorrectAnswer key

/-- the point of a recovery: no round, or an ACTIVE one with that key -/
def Recoverable (m : Machine) (key : String) : Prop :=
  ∀ r, m.currentRound = some r → r.status = .active ∧ r.correctAnswer = some key

theorem recover_eq (J : StringOps) (key : String) (m : Machine) (h : CardInv m) (hr : Recoverable m key) :
    m.recover J key = m.thaw := by
  have hseq := foldl_max_seqNo m.eventLog m.eventSeqCounter h.seq
  have hmir := h.mirror
  unfold MirrorInv at hmir
  unfold recover attachCorrectAnswer
  rw [failover_eq J m h.wire h.timed]
  simp only [recovered, hseq, ← hmir]
  cases hc : m.currentRound with
  | none => simp only [Option.map_none, thaw, hc]
  | some r =>
    obtain ⟨hs, hk⟩ := hr r hc
    rw [← hk]
    simp only [Option.map_some, withoutKey, hs, ne_eq, not_true, if_false, thaw, hc]
    rw [← hs]

/-! ## Later results and events -/

def actExec (J : StringOps) (m : Machine) : Action → Outcome Result
  | .call o => m.exec J o
  | .failover => (m.failover J, .ok .unit)

/-- the result of each step and the log entries it appended -/
def trace (J : StringOps) : Machine → List Action → List (Except MatchError Result × List EventLogEntry)
  | _, [] => []
  | m, a :: acts =>
    ((m.actExec J a).2, (m.act J a).eventLog.drop m.eventLog.length) :: trace J (m.act J a) acts

/-- the step is an `evaluateRound` that finds a round -/
def evaluates (m : Machine) : Action → Prop
  | .call (.evaluateRound _) => m.currentRound ≠ none
  | _ => False

instance (m : Machine) : DecidablePred m.evaluates := fun a => by
  unfold evaluates
  split <;> infer_instance

/-- no `evaluateRound` finds a round before the recovered list `m` is frozen too, or replaced by the next failover -/
def Masked (J : StringOps) : Machine → List Action → Prop
  | _, [] => True
  | m, a :: acts => m.eliminatedFrozen = true ∨ a = .failover ∨ (¬m.evaluates a ∧ Masked J (m.act J a) acts)

/-! ## The flag is read by `evaluateRound` alone -/

/-- what a step does to a machine and to its thawed copy: the same but for the flag -/
def SameButFlag (x y : Outcome Result) : Prop := y.2 = x.2 ∧ (y.1 = x.1.thaw ∨ y.1 = x.1)

theorem determineWinner_thaw (m : Machine) (now : Clock) :
    (m.thaw.determineWinner now).2 = (m.determineWinner now).2 ∧
      ((m.thaw.determineWinner now).1 = (m.determineWinner now).1.thaw ∨
        (m.thaw.determineWinner now).1 = (m.determineWinner now).1) := by
  have hs : m.thaw.state = m.state := rfl
  unfold determineWinner
  rw [hs]
  split
  · exact ⟨rfl, .inl rfl⟩
  · split_ifs with he
    · exact ⟨rfl, .inl rfl⟩
    · simp only [tieBreak, he, if_false]
      exact ⟨rfl, .inr rfl⟩
  · simp only [tieBreak]
    split_ifs
    · exact ⟨rfl, .inl rfl⟩
    · exact ⟨rfl, .inl rfl⟩

theorem crown_thaw (m : Machine) (w : Option String) (now : Clock) : m.thaw.crown w now = (m.crown w now).thaw := rfl

theorem submitAnswer_thaw (J : StringOps) (m : Machine) (p a : String) (ts : Time) (sid : Option String)
    (now : Clock) :
    m.thaw.submitAnswer J p a ts sid now =
      ((m.submitAnswer J p a ts sid now).1.thaw, (m.submitAnswer J p a ts sid now).2) := by
  have hc : m.thaw.currentRound = m.currentRound := rfl
  have hk : m.thaw.cards = m.cards := rfl
  have hrec : ∀ round ans retry, m.thaw.recordAnswer round ans retry now = (m.recordAnswer round ans retry now).thaw := by
    intro round ans retry
    unfold recordAnswer consumeChance
    split_ifs <;> rfl
  have hguard : ∀ round retry, m.thaw.submitGuarded J round p a ts sid retry now =
      ((m.submitGuarded J round p a ts sid retry now).1.thaw, (m.submitGuarded J round p a ts sid retry now).2) := by
    intro round retry
    have hs : m.thaw.state = m.state := rfl
    unfold submitGuarded
    rw [hs]
    split_ifs
    · rfl
    · rfl
    · rfl
    · simp only [hrec]
  unfold submitAnswer
  rw [hc, hk]
  cases m.currentRound with
  | none => rfl
  | some round =>
    simp only []
    cases round.answers.get p with
    | none => exact hguard round false
    | some existing =>
      simp only []
      split_ifs
      · rfl
      · exact hguard round true
      · rfl

theorem applyPlay_thaw (m : Machine) (round : Round) (p : PlayInput) (n : ℕ) (now : Clock) :
    m.thaw.applyPlay round p n now = (m.applyPlay round p n now).thaw := by
  unfold applyPlay
  split_ifs <;> rfl

theorem exec_thaw (J : StringOps) (m : Machine) (o : Op) (ho : ∀ now, o ≠ .evaluateRound now) :
    SameButFlag (m.exec J o) (m.thaw.exec J o) := by
  have hs : m.thaw.state = m.state := rfl
  have hc : m.thaw.currentRound = m.currentRound := rfl
  have hk : m.thaw.cards = m.cards := rfl
  cases o with
  | transition target now =>
    have ht : m.thaw.canTransition target = m.canTransition target := rfl
    simp only [exec, Machine.transition, ht]
    split_ifs
    · cases target <;> exact ⟨rfl, .inl rfl⟩
    · exact ⟨rfl, .inl rfl⟩
  | startRound q d now =>
    simp only [exec, Machine.startRound, hs]
    split_ifs <;> exact ⟨rfl, .inl rfl⟩
  | submitAnswer p a t sid now =>
    simp only [exec, submitAnswer_thaw]
    exact ⟨rfl, .inl rfl⟩
  | evaluateRound now => exact absurd rfl (ho now)
  | determineWinner now =>
    obtain ⟨h1, h2⟩ := determineWinner_thaw m now
    exact ⟨by simp only [exec, h1], h2⟩
  | finishMatch now =>
    obtain ⟨h1, h2⟩ := determineWinner_thaw m now
    refine ⟨rfl, ?_⟩
    simp only [exec, Machine.finishMatch, h1]
    rcases h2 with h2 | h2
    · rw [h2, crown_thaw]; exact .inl rfl
    · rw [h2]; exact .inr rfl
  | disconnectPlayer p now =>
    simp only [exec, Machine.disconnectPlayer, hs]
    split
    · exact ⟨rfl, .inl rfl⟩
    · split_ifs <;> exact ⟨rfl, .inl rfl⟩
  | reconnectPlayer p now =>
    simp only [exec, Machine.reconnectPlayer, hs]
    split
    · exact ⟨rfl, .inl rfl⟩
    · split_ifs <;> exact ⟨rfl, .inl rfl⟩
  | attachCorrectAnswer key =>
    simp only [exec, Machine.attachCorrectAnswer, hc]
    split
    · exact ⟨rfl, .inl rfl⟩
    · split_ifs <;> exact ⟨rfl, .inl rfl⟩
  | initTopicVoting c d now =>
    have hcand : m.thaw.candidatesFor c = m.candidatesFor c := rfl
    have ht : ((m.thaw).resetTopics (m.candidatesFor c)).canTransition .topicVoting =
      (m.resetTopics (m.candidatesFor c)).canTransition .topicVoting := rfl
    simp only [exec, Machine.initTopicVoting, Machine.transition, hcand, ht]
    split_ifs <;> exact ⟨rfl, .inl rfl⟩
  | voteBanTopic p t e now =>
    simp only [exec, Machine.voteBanTopic, hs]
    split_ifs <;> exact ⟨rfl, .inl rfl⟩
  | resolveTopicVoting n now => exact ⟨rfl, .inl rfl⟩
  | classAssignment ids s now => exact ⟨rfl, .inl rfl⟩
  | pickOffer p r s now =>
    simp only [exec, Machine.pickOffer, getPlayedCards, hk]
    split
    · exact ⟨rfl, .inl rfl⟩
    · split
      · exact ⟨rfl, .inl rfl⟩
      · split_ifs <;> exact ⟨rfl, .inl rfl⟩
  | pickCard p c o e i now =>
    simp only [exec, Machine.pickCard, hk, hc]
    split
    · exact ⟨rfl, .inl rfl⟩
    · split_ifs <;> exact ⟨rfl, .inl rfl⟩
  | playCard input now =>
    simp only [exec, playCard_eq, hc, hs]
    cases m.currentRound with
    | none => exact ⟨rfl, .inl rfl⟩
    | some round =>
      simp only []
      split_ifs
      · exact ⟨rfl, .inl rfl⟩
      · exact ⟨rfl, .inl (applyPlay_thaw (m.logEvent (.cardResolved (m.resolvedPayload round input)) (now 0)) round input
          (m.eventSeqCounter + 1) now)⟩
  | getActiveEffects p t => exact ⟨rfl, .inl rfl⟩
  | getAoeCountForRound n => exact ⟨rfl, .inl rfl⟩

/-- an evaluation without a round fails alike -/
theorem evaluate_thaw_none (J : StringOps) (m : Machine) (now : Clock) (hr : m.currentRound = none) :
    m.thaw.exec J (.evaluateRound now) = ((m.exec J (.evaluateRound now)).1.thaw, (m.exec J (.evaluateRound now)).2) := by
  have hr' : m.thaw.currentRound = none := hr
  simp only [exec, evaluateRound_eq, hr, hr']
  rfl

/-- an evaluation with a round tells a frozen list from a fresh one -/
theorem evaluate_thaw_some (J : StringOps) (m : Machine) (now : Clock) (hf : m.eliminatedFrozen = true)
    (hr : m.currentRound ≠ none) : (m.exec J (.evaluateRound now)).2 ≠ (m.thaw.exec J (.evaluateRound now)).2 := by
  obtain ⟨r, hr⟩ := Option.ne_none_iff_exists'.1 hr
  have hr' : m.thaw.currentRound = some r := hr
  have hf' : m.thaw.eliminatedFrozen = false := rfl
  simp only [exec, evaluateRound_eq, hr, hr', hf, hf', if_true, Bool.false_eq_true, if_false, Outcome.wrap, Except.map]
  intro h
  cases h

theorem failover_thaw (J : StringOps) (m : Machine) (h : WireInv m) (ht : Timed m) :
    m.thaw.failover J = m.failover J := by
  have h' : WireInv m.thaw := h.of_eq rfl rfl rfl rfl rfl
  rw [failover_eq J m h ht, failover_eq J m.thaw h' ht]
  rfl

/-- no call gives a live instance a fresh elimination list -/
theorem change_frozen {J : StringOps} {m m' : Machine} {o : Op} (hc : Change J m o m')
    (hf : m.eliminatedFrozen = true) : m'.eliminatedFrozen = true := by
  have hw : ∀ now, (m.determineWinner now).1.eliminatedFrozen = true := by
    intro now
    unfold determineWinner
    split
    · exact hf
    · split_ifs
      · exact hf
      · rfl
    · simp only [tieBreak]
      split_ifs <;> exact hf
  cases hc with
  | transition target now _ => cases target <;> exact hf
  | answer round p a ts sid retry now _ _ _ _ _ =>
    simp only [recordAnswer, consumeChance]
    split_ifs <;> exact hf
  | winner now => exact hw now
  | finish now => exact hw now
  | play round p now _ _ _ =>
    simp only [applyPlay]
    split_ifs <;> exact hf
  | _ => exact hf

theorem masked_of_frozen (J : StringOps) (m : Machine) (acts : List Action) (hf : m.eliminatedFrozen = true) :
    Masked J m acts := by
  cases acts with
  | nil => trivial
  | cons a acts => exact .inl hf

theorem trace_cons_eq (J : StringOps) (m m' : Machine) (a : Action) (acts : List Action)
    (hr : (m.actExec J a).2 = (m'.actExec J a).2)
    (hl : (m.act J a).eventLog.drop m.eventLog.length = (m'.act J a).eventLog.drop m'.eventLog.length) :
    (trace J m (a :: acts) = trace J m' (a :: acts)) ↔
      trace J (m.act J a) acts = trace J (m'.act J a) acts := by
  simp only [trace, hr, hl, List.cons.injEq, true_and]

/-- a live machine with a frozen list against its thawed copy -/
theorem trace_thaw_iff (J : StringOps) (acts : List Action) :
    ∀ m : Machine, m.eliminatedFrozen = true → WireInv m → Timed m → (∀ a ∈ acts, a.validDuration) →
      (trace J m acts = trace J m.thaw acts ↔ Masked J m.thaw acts) := by
  induction acts with
  | nil => intro m _ _ _ _; simp [trace, Masked]
  | cons a acts ih =>
    intro m hf hw ht hv
    have hthaw : m.thaw.eliminatedFrozen = false := rfl
    have hv' : ∀ b ∈ acts, b.validDuration := fun b hb => hv b (by simp [hb])
    cases a with
    | failover =>
      have hfo := failover_thaw J m hw ht
      have h1 : trace J m (.failover :: acts) = trace J m.thaw (.failover :: acts) := by
        simp only [trace, actExec, act, hfo]
        rfl
      exact ⟨fun _ => .inr (.inl rfl), fun _ => h1⟩
    | call o =>
      by_cases he : m.evaluates (.call o)
      · -- the live push throws, the recovered one does not
        obtain ⟨now, rfl⟩ : ∃ now, o = .evaluateRound now := by
          cases o <;> first | exact ⟨_, rfl⟩ | exact absurd he id
        have hne := evaluate_thaw_some J m now hf he
        constructor
        · intro heq
          simp only [trace, List.cons.injEq, Prod.mk.injEq] at heq
          exact absurd heq.1.1 hne
        · rintro (h | h | h)
          · exact absurd h (by rw [hthaw]; decide)
          · cases h
          · exact absurd he h.1
      · have hsame : SameButFlag (m.exec J o) (m.thaw.exec J o) := by
          by_cases ho : ∃ now, o = .evaluateRound now
          · obtain ⟨now, rfl⟩ := ho
            rw [evaluate_thaw_none J m now (not_not.1 he)]
            exact ⟨rfl, .inl rfl⟩
          · exact exec_thaw J m o fun now h => ho ⟨now, h⟩
        obtain ⟨hres, hmach⟩ := hsame
        have hlog : (m.thaw.step J o).eventLog = (m.step J o).eventLog := by
          rcases hmach with h | h
          · exact (congrArg Machine.eventLog h).trans rfl
          · exact congrArg Machine.eventLog h
        have hf' : (m.step J o).eliminatedFrozen = true := change_frozen (step_change J m o) hf
        have hw' : WireInv (m.step J o) := change_wireInv (step_change J m o) hw
        have ht' : Timed (m.step J o) := change_timed (step_change J m o) (hv _ (by simp)) ht
        have hmask : Masked J m.thaw (.call o :: acts) ↔ Masked J (m.thaw.step J o) acts := by
          simp only [Masked, hthaw, Bool.false_eq_true, reduceCtorEq, false_or]
          exact ⟨fun h => h.2, fun h => ⟨he, h⟩⟩
        rw [trace_cons_eq J m m.thaw (.call o) acts hres.symm (by simp only [act, hlog]; rfl), hmask]
        rcases hmach with h | h
        · have hx : m.thaw.step J o = (m.step J o).thaw := h
          simp only [act, hx]
          exact ih (m.step J o) hf' hw' ht' hv'
        · have hx : m.thaw.step J o = m.step J o := h
          simp only [act, hx]
          exact ⟨fun _ => masked_of_frozen J _ acts hf', fun _ => trivial⟩

/-- **Failover is unobservable exactly when the frozen list is masked.** In every reachable machine the mirrors are the
replay of the log. At a point with no round, or an ACTIVE round whose key is re-attached, the recovered instance gives
every later step the result and the log entries the live one gives, if and only if the live elimination list was not
frozen or no later `evaluateRound` can tell. -/
theorem failover_unobservable (J : StringOps) (matchId roomId key : String) (players : List PlayerInfo)
    (pre post : List Action) (hd : (players.map PlayerInfo.id).Nodup) (hv : ∀ a ∈ pre ++ post, a.validDuration)
    (hn : ∀ a ∈ pre, a.namesPlayers) (hr : Recoverable (reach J matchId roomId players pre) key) :
    let m := reach J matchId roomId players pre
    let m' := (m.failover J).attachCorrectAnswer key
    (m.cards = rehydrateCardStateFromEventLog m.eventLog ∧ trace J m post = trace J m' post) ↔
      (m.eliminatedFrozen = false ∨ Masked J m' post) := by
  intro m m'
  have hi : CardInv m :=
    reach_cardInv J matchId roomId players pre hd (fun a ha => hv a (by simp [ha])) hn
  have hm' : m' = m.thaw := recover_eq J key m hi hr
  have hv' : ∀ a ∈ post, a.validDuration := fun a ha => hv a (by simp [ha])
  rw [hm']
  cases hf : m.eliminatedFrozen with
  | false =>
    have ht : m.thaw = m := by unfold thaw; rw [← hf]
    rw [ht]
    exact ⟨fun _ => .inl rfl, fun _ => ⟨hi.mirror, rfl⟩⟩
  | true =>
    have hiff := trace_thaw_iff J post m hf hi.wire hi.timed hv'
    constructor
    · rintro ⟨-, ht⟩
      exact .inr (hiff.1 ht)
    · rintro (h | h)
      · cases h
      · exact ⟨hi.mirror, hiff.2 h⟩

/-- one player, eliminated in round 1; a winner decision freezes the list before round 2 -/
def frozenRun : List Action :=
  [.call (.transition .countdown fun _ => 0), .call (.transition .roundActive fun _ => 0),
    .call (.startRound ⟨"q1", "2 + 2?", ["3", "4", "5", "6"], "4", none⟩ none fun _ => 0),
    .call (.transition .roundEvaluating fun _ => 0), .call (.evaluateRound fun _ => 0),
    .call (.determineWinner fun _ => 0), .call (.transition .roundResult fun _ => 0),
    .call (.transition .roundActive fun _ => 0)]

/-- round 2 -/
def nextRound : List Action :=
  [.call (.startRound ⟨"q2", "3 + 3?", ["3", "4", "5", "6"], "6", none⟩ none fun _ => 0),
    .call (.transition .roundEvaluating fun _ => 0), .call (.evaluateRound fun _ => 0)]

/-- **A failover that shows.** Round 2 is evaluated by the recovered instance and throws on the live one. -/
theorem failover_observed :
    let m := reach StringOps.ascii "m1" "r1" [freshPlayer "alice"] frozenRun
    m.currentRound = none ∧
      trace StringOps.ascii m nextRound ≠
        trace StringOps.ascii ((m.failover StringOps.ascii).attachCorrectAnswer "4") nextRound := by
  refine ⟨by decide +kernel, fun h => ?_⟩
  have h3 := congrArg (fun l => l.map (fun x => x.1.toBool)) h
  revert h3
  decide +kernel

/-- a failover in an ACTIVE round, seen by no later call -/
theorem failover_unobservable_active :
    let pre : List Action := [.call (.transition .countdown fun _ => 0), .call (.transition .roundActive fun _ => 0),
      .call (.startRound ⟨"q1", "2 + 2?", ["3", "4", "5", "6"], "4", none⟩ none fun _ => 0),
      .call (.playCard ⟨"alice", .tn10, 0, .secondChance, ["alice"], 100, none, none⟩ fun _ => 100)]
    let post : List Action := [.call (.submitAnswer "alice" "a" 200 none fun _ => 200),
      .call (.submitAnswer "alice" "b" 300 none fun _ => 300), .call (.evaluateRound fun _ => 15000)]
    let m := reach StringOps.ascii "m1" "r1" [freshPlayer "alice"] pre
    let m' := (m.failover StringOps.ascii).attachCorrectAnswer "4"
    m.cards = rehydrateCardStateFromEventLog m.eventLog ∧ trace StringOps.ascii m post = trace StringOps.ascii m' post := by
  intro pre post m m'
  refine (failover_unobservable StringOps.ascii "m1" "r1" "4" [freshPlayer "alice"] pre post (by decide) (by decide)
    (by decide) ?_).2 (.inl (by decide +kernel))
  intro r hr
  have hm : m.currentRound.map (fun r => (r.status, r.correctAnswer)) = some (.active, some "4") := by decide +kernel
  rw [show m.currentRound = some r from hr] at hm
  simpa using hm

end Machine

end Arena.GameCore
