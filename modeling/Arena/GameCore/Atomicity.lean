/-
Rejected operations leave the machine as it was, and the two that do not.

The API keeps the instance after a throw, so a write made before the failing guard is kept and later persisted. Every
mutating operation checks its guards first but two. `initTopicVoting` resets the four topic fields and then calls
`transition`, which rejects every status but CREATED. `evaluateRound` marks the round EVALUATING and settles the players
before it pushes onto an elimination list that a logged TIE_BREAK may have frozen.

- `exec_rejected`: all other operations are atomic, from any machine;
- `LastRoundInv`: in every reachable machine a frozen list goes with an empty survivor list and a round nobody survives,
  so a stuck evaluation writes the round's status and the players' ELIMINATED only;
- `rejected_atomic_iff`: exactly when a rejected call of a reachable machine changes nothing;
- `init_voting_not_atomic`: a rejected `initTopicVoting` wipes the votes.
-/
import Arena.GameCore.Snapshot

namespace Arena.GameCore

open Arena.Lib Arena.Shared

namespace Machine

/-! ## Operations that check before they write -/

/-- the two operations that write before their last guard -/
def writesFirst : Op → Bool
  | .initTopicVoting .. => true
  | .evaluateRound .. => true
  | _ => false

theorem submitAnswer_rejected (J : StringOps) (m : Machine) (p a : String) (ts : Time) (sid : Option String) (now : Clock)
    (e : MatchError) (h : (m.submitAnswer J p a ts sid now).2 = .error e) : (m.submitAnswer J p a ts sid now).1 = m := by
  have guarded : ∀ round retry, (m.submitGuarded J round p a ts sid retry now).2 = .error e →
      (m.submitGuarded J round p a ts sid retry now).1 = m := by
    intro round retry h
    simp only [submitGuarded] at h ⊢
    split_ifs at h ⊢ <;> rfl
  unfold submitAnswer at h ⊢
  split at h
  · rfl
  · rename_i round hr
    split at h
    · split_ifs at h ⊢
      · exact guarded round true h
      · rfl
    · exact guarded round false h

theorem voteBanTopic_rejected (m : Machine) (p t : String) (ev : Option String) (now : Clock) (e : MatchError)
    (h : (m.voteBanTopic p t ev now).2 = .error e) : (m.voteBanTopic p t ev now).1 = m := by
  simp only [voteBanTopic] at h ⊢
  split_ifs at h ⊢ <;> rfl

theorem pickOffer_rejected (m : Machine) (p : String) (n : ℕ) (seed : String) (now : Clock) (e : MatchError)
    (h : (m.pickOffer p n seed now).2 = .error e) : (m.pickOffer p n seed now).1 = m := by
  unfold pickOffer at h ⊢
  split at h
  · rfl
  · simp only at h ⊢
    split at h
    · rfl
    · split_ifs at h ⊢
      rfl

theorem pickCard_rejected (m : Machine) (p : String) (c : CardId) (n : ℕ) (ev cmd : Option String) (now : Clock)
    (e : MatchError) (h : (m.pickCard p c n ev cmd now).2 = .error e) : (m.pickCard p c n ev cmd now).1 = m := by
  unfold pickCard at h ⊢
  split at h
  · rfl
  · split_ifs at h ⊢
    rfl

theorem playCard_rejected (m : Machine) (i : PlayInput) (now : Clock) (e : MatchError)
    (h : (m.playCard i now).2 = .error e) : (m.playCard i now).1 = m := by
  rw [playCard_eq] at h ⊢
  split at h
  · rfl
  · simp only at h ⊢
    split_ifs at h ⊢
    rfl

theorem wrap_error {α : Type} {f : α → Result} {o : Outcome α} {e : MatchError}
    (h : (Outcome.wrap f o).2 = .error e) : o.2 = .error e := by
  obtain ⟨m, r⟩ := o
  cases r with
  | error e' => simpa [Outcome.wrap, Except.map] using h
  | ok a => simp [Outcome.wrap, Except.map] at h

/-- **An operation that checks its guards first is atomic**, from any machine. -/
theorem exec_rejected (J : StringOps) (m : Machine) (o : Op) (ho : writesFirst o = false) (e : MatchError)
    (h : (m.exec J o).2 = .error e) : (m.exec J o).1 = m := by
  cases o with
  | transition target now =>
    replace h := wrap_error h
    simp only [exec, Outcome.wrap_fst, transition] at h ⊢
    split_ifs at h ⊢
    rfl
  | startRound q d now =>
    replace h := wrap_error h
    simp only [exec, Outcome.wrap_fst, startRound] at h ⊢
    split_ifs at h ⊢
    rfl
  | submitAnswer p a t s now => exact submitAnswer_rejected J m p a t s now e (wrap_error h)
  | evaluateRound now => cases ho
  | initTopicVoting c d now => cases ho
  | voteBanTopic p t ev now => exact voteBanTopic_rejected m p t ev now e (wrap_error h)
  | pickOffer p n s now => exact pickOffer_rejected m p n s now e (wrap_error h)
  | pickCard p c n ev cmd now => exact pickCard_rejected m p c n ev cmd now e (wrap_error h)
  | playCard i now => exact playCard_rejected m i now e (wrap_error h)
  | _ => cases h

/-! ## The round behind an empty survivor list -/

/-- once nobody survives, nobody survives the current round either -/
structure LastRoundInv (m : Machine) : Prop where
  wire : WireInv m
  snapshot : SnapshotInv m
  lost : m.state.survivingPlayerIds = [] → ∀ r, m.currentRound = some r → m.survivorsOf r = []

theorem survivorsOf_eq {m m' : Machine} {r r' : Round} (hs : m'.state.survivingPlayerIds = m.state.survivingPlayerIds)
    (hsp : r'.startingPlayers = r.startingPlayers) (ha : r'.answers = r.answers) :
    m'.survivorsOf r' = m.survivorsOf r := by
  simp only [survivorsOf, roundPlayers, hs, hsp, ha]

/-- nobody is left in a round that starts without survivors -/
theorem survivorsOf_empty {m : Machine} {r : Round} (h : m.roundPlayers r = []) : m.survivorsOf r = [] := by
  rw [survivorsOf, h]
  rfl

/-- an evaluated round is evaluated the same way again -/
theorem survivorsOf_settled {m m' : Machine} {r r' : Round} (hsp : r'.startingPlayers = r.startingPlayers) (ha : r'.answers = r.answers) (ht : r.startingPlayers ≠ none) :
    m'.survivorsOf r' = m.survivorsOf r := by
  obtain ⟨l, hl⟩ := Option.ne_none_iff_exists'.1 ht
  simp only [survivorsOf, roundPlayers, hsp, ha, hl, Option.getD_some]

theorem change_lost {J : StringOps} {m m' : Machine} {o : Op} (hc : Change J m o m') (h : LastRoundInv m) :
    m'.state.survivingPlayerIds = [] → ∀ r, m'.currentRound = some r → m'.survivorsOf r = [] := by
  have keep : ∀ n : Machine, n.state.survivingPlayerIds = m.state.survivingPlayerIds → n.currentRound = m.currentRound →
      n.state.survivingPlayerIds = [] → ∀ r, n.currentRound = some r → n.survivorsOf r = [] := by
    intro n hs hr hempty r hn
    rw [survivorsOf_eq hs rfl rfl]
    exact h.lost (hs ▸ hempty) r (hr ▸ hn)
  cases hc with
  | transition target now _ =>
    cases target with
    | roundActive =>
      intro _ r hr
      cases hr
    | _ => exact keep _ rfl rfl
  | startRound q d now _ =>
    intro hs r hr
    obtain rfl := Option.some.inj hr
    exact survivorsOf_empty hs
  | answer round p a ts sid retry now hr hact _ _ _ =>
    intro hs r hr'
    obtain rfl := Option.some.inj hr'
    have hst : (m.recordAnswer round (newAnswer J round p a ts sid) retry now).state = m.state :=
      (consumeChance_frame m round p retry (now 0)).1
    rw [hst] at hs
    apply survivorsOf_empty
    simp only [roundPlayers, h.snapshot.round round hr hact, hs, Option.getD_some]
  | evaluated round now hr _ =>
    intro hs r hr'
    obtain rfl := Option.some.inj hr'
    have hs' : m.survivorsOf round = [] := hs
    exact (survivorsOf_settled rfl rfl (h.snapshot.taken round hr)).trans hs'
  | evaluateStuck round now hr _ =>
    intro hs r hr'
    obtain rfl := Option.some.inj hr'
    have hs' : m.survivorsOf round = [] := hs
    exact (survivorsOf_settled rfl rfl (h.snapshot.taken round hr)).trans hs'
  | winner now =>
    obtain ⟨hs, hr, -⟩ := determineWinner_frame m now
    exact keep _ (congrArg _ hs) hr
  | finish now =>
    obtain ⟨hs, hr, -⟩ := determineWinner_frame m now
    have hs' : ((m.determineWinner now).1.crown (m.determineWinner now).2 now).state.survivingPlayerIds =
        (m.determineWinner now).1.state.survivingPlayerIds := rfl
    exact keep _ (hs'.trans (congrArg MatchState.survivingPlayerIds hs)) hr
  | attach round key hr _ =>
    intro hs r hr'
    obtain rfl := Option.some.inj hr'
    exact h.lost hs round hr
  | play round i now hr _ _ =>
    obtain ⟨hs, hr'⟩ := applyPlay_frame (m.logEvent (.cardResolved (m.resolvedPayload round i)) (now 0)) round i
      (m.eventSeqCounter + 1) now
    exact keep _ (congrArg MatchState.survivingPlayerIds hs) hr'
  | _ => exact keep _ rfl rfl

theorem act_lastRoundInv (J : StringOps) (m : Machine) (a : Action) (h : LastRoundInv m) : LastRoundInv (m.act J a) := by
  cases a with
  | call o =>
    have hc := step_change J m o
    refine ⟨change_wireInv hc h.wire, ?_, change_lost hc h⟩
    apply change_snapshotInv_of hc _ h.snapshot
    intro round now _ hr hf
    exact h.lost (h.snapshot.frozen hf) round hr
  | failover =>
    refine ⟨act_wireInv J m .failover h.wire, ?_, ?_⟩
    · rcases failover_cases J m h.wire with hf | hf
      · rw [act, hf]
        exact recovered_snapshotInv h.snapshot
      · rw [act, hf]
        exact h.snapshot
    · rcases failover_cases J m h.wire with hf | hf
      · rw [act, hf]
        intro hs r hr
        obtain ⟨x, hx, rfl⟩ := Option.map_eq_some_iff.1 hr
        exact h.lost hs x hx
      · rw [act, hf]
        exact h.lost

theorem reach_lastRoundInv (J : StringOps) (matchId roomId : String) (players : List PlayerInfo) (acts : List Action)
    (hd : (players.map PlayerInfo.id).Nodup) : LastRoundInv (reach J matchId roomId players acts) := by
  refine run_inv (act J) (fun _ _ => True) LastRoundInv (fun m a _ h => act_lastRoundInv J m a h) _ acts
    ((along_const _ _ _ _).2 fun _ _ => trivial) ?_
  refine ⟨wireInv_create matchId roomId players hd, snapshotInv_create matchId roomId players, ?_⟩
  intro _ r hr
  cases hr

/-! ## Exactly when a rejected call changes nothing -/

/-- the topic fields hold what `initTopicVoting` writes before its transition -/
def TopicsReset (m : Machine) (candidates : List String) : Prop :=
  m.state.candidateTopics = some candidates ∧ m.state.topicVotes = some JsMap.empty ∧ m.state.bannedTopics = some [] ∧
    m.state.activeTopics = some []

/-- the round was left EVALUATING and everybody who started it is ELIMINATED already -/
def RoundSpent (m : Machine) (r : Round) : Prop :=
  r.status = .evaluating ∧ ∀ p ∈ m.roundPlayers r, ∀ i, m.state.players.get p = some i → i.status = .eliminated

/-- the calls that are atomic -/
def AtomicWhen (m : Machine) : Op → Prop
  | .initTopicVoting c _ _ => m.state.status = .created ∨ m.TopicsReset (m.candidatesFor c)
  | .evaluateRound _ => m.eliminatedFrozen = true → ∀ r, m.currentRound = some r → m.RoundSpent r
  | _ => True

theorem resetTopics_eq_iff (m : Machine) (c : List String) : m.resetTopics c = m ↔ m.TopicsReset c := by
  constructor
  · intro h
    have hs : (m.resetTopics c).state = m.state := congrArg Machine.state h
    exact ⟨by rw [← hs]; rfl, by rw [← hs]; rfl, by rw [← hs]; rfl, by rw [← hs]; rfl⟩
  · rintro ⟨h1, h2, h3, h4⟩
    obtain ⟨s, r, l, n, cards, f⟩ := m
    obtain ⟨_, _, _, _, _, _, _, _, _, _, _, _, _, _, _, _, _⟩ := s
    simp_all [resetTopics]

theorem initTopicVoting_eq (m : Machine) (c : Option (List String)) (d : Option Time) (now : Clock)
    (h : m.state.status ≠ .created) : m.initTopicVoting c d now =
      (m.resetTopics (m.candidatesFor c), .error (.invalidTransition m.state.status .topicVoting)) := by
  have hno : (m.resetTopics (m.candidatesFor c)).canTransition .topicVoting = false := by
    have hs : (m.resetTopics (m.candidatesFor c)).state.status = m.state.status := rfl
    unfold canTransition
    rw [hs]
    revert h
    cases m.state.status <;> simp [validTransitions]
  unfold initTopicVoting
  simp only [transition, hno, Bool.false_eq_true, if_false]
  rfl

theorem initTopicVoting_atomic_iff (m : Machine) (c : Option (List String)) (d : Option Time) (now : Clock) :
    (∀ e, (m.initTopicVoting c d now).2 = .error e → (m.initTopicVoting c d now).1 = m) ↔
      m.state.status = .created ∨ m.TopicsReset (m.candidatesFor c) := by
  by_cases hs : m.state.status = .created
  · constructor
    · intro _
      exact .inl hs
    · intro _ e he
      exfalso
      have hyes : (m.resetTopics (m.candidatesFor c)).canTransition .topicVoting = true := by
        unfold canTransition
        rw [show (m.resetTopics (m.candidatesFor c)).state.status = .created from hs]
        rfl
      simp [initTopicVoting, transition, hyes] at he
  · rw [initTopicVoting_eq m c d now hs]
    constructor
    · intro h
      exact .inr ((resetTopics_eq_iff m _).1 (h _ rfl))
    · intro h e _
      rcases h with h | h
      · exact absurd h hs
      · exact (resetTopics_eq_iff m _).2 h

/-- settling spent players changes nothing -/
theorem foldl_settle_spent (answers : JsMap String AnswerState) (players : JsMap String PlayerInfo) (l : List String)
    (h : ∀ p ∈ l, ∀ i, players.get p = some i → settleInfo answers p i = i) :
    l.foldl (settlePlayer answers) players = players := by
  induction l with
  | nil => rfl
  | cons p l ih =>
    have hp : settlePlayer answers players p = players := JsMap.modify_self _ (h p (by simp))
    rw [List.foldl_cons, hp]
    exact ih fun q hq => h q (by simp [hq])

/-- a stuck evaluation in which nobody survives changes nothing exactly when the round is spent -/
theorem settleStuck_eq_iff {m : Machine} {r : Round} (hr : m.currentRound = some r) (hn : (m.roundPlayers r).Nodup)
    (hs : m.state.survivingPlayerIds = []) (hl : m.survivorsOf r = []) : m.settleStuck r = m ↔ m.RoundSpent r := by
  have hwrong : ∀ p ∈ m.roundPlayers r, answeredRight r.answers p = false := by
    intro p hp
    by_contra hc
    have hmem : p ∈ m.survivorsOf r := List.mem_filter.2 ⟨hp, by simpa using hc⟩
    rw [hl] at hmem
    cases hmem
  constructor
  · intro h
    refine ⟨?_, ?_⟩
    · have hround : (m.settleStuck r).currentRound = some r := by rw [h, hr]
      have hst := congrArg Round.status (Option.some.inj hround)
      exact hst.symm
    · intro p hp i hi
      have hget : (m.settleStuck r).state.players.get p = m.state.players.get p := by rw [h]
      have hset : (m.settleStuck r).state.players.get p = some (settleInfo r.answers p i) := by
        show (m.settledPlayers r).get p = _
        rw [settledPlayers, foldl_settle_get _ _ hn, if_pos hp, hi]
        rfl
      rw [hset, hi, settleInfo_wrong (hwrong p hp)] at hget
      have hst := congrArg PlayerInfo.status (Option.some.inj hget)
      exact hst.symm
  · rintro ⟨hst, hel⟩
    have hplayers : m.settledPlayers r = m.state.players := by
      apply foldl_settle_spent
      intro p hp i hi
      rw [settleInfo_wrong (hwrong p hp), ← hel p hp i hi]
    have hround : some { r with status := RoundStatus.evaluating } = m.currentRound := by
      rw [hr, ← hst]
    unfold settleStuck
    rw [hplayers, hl, hround, ← hs]

theorem evaluateRound_atomic_iff {m : Machine} (h : LastRoundInv m) (now : Clock) :
    (∀ e, (m.evaluateRound now).2 = .error e → (m.evaluateRound now).1 = m) ↔
      (m.eliminatedFrozen = true → ∀ r, m.currentRound = some r → m.RoundSpent r) := by
  rw [evaluateRound_eq]
  cases hr : m.currentRound with
  | none =>
    constructor
    · intro _ _ r hr'
      cases hr'
    · intro _ e _
      rfl
  | some round =>
    cases hf : m.eliminatedFrozen with
    | false =>
      constructor
      · intro _ hf'
        cases hf'
      · intro _ e he
        cases he
    | true =>
      have hs := h.snapshot.frozen hf
      have hn : (m.roundPlayers round).Nodup := nodup_roundPlayers h.wire hr
      have key := settleStuck_eq_iff hr hn hs (h.lost hs round hr)
      constructor
      · intro hat _ r hr'
        obtain rfl := Option.some.inj hr'
        exact key.1 (hat _ rfl)
      · intro hat e _
        exact key.2 (hat rfl round rfl)

/-- **Atomicity of rejected operations.** A rejected call of a reachable machine leaves it as it was exactly when it is
not one of these: `initTopicVoting` outside CREATED, unless the topic fields already hold what it writes, and
`evaluateRound` on a frozen elimination list, unless the current round is spent. -/
theorem rejected_atomic_iff (J : StringOps) (matchId roomId : String) (players : List PlayerInfo) (acts : List Action)
    (hd : (players.map PlayerInfo.id).Nodup) (o : Op) :
    let m := reach J matchId roomId players acts
    (∀ e, (m.exec J o).2 = .error e → (m.exec J o).1 = m) ↔ m.AtomicWhen o := by
  intro m
  have h : LastRoundInv m := reach_lastRoundInv J matchId roomId players acts hd
  cases hw : writesFirst o with
  | false =>
    have htrue : m.AtomicWhen o := by
      cases o <;> trivial
    exact ⟨fun _ => htrue, fun _ e he => exec_rejected J m o hw e he⟩
  | true =>
    have lift : ∀ {α : Type} (f : α → Result) (out : Outcome α),
        (∀ e, (Outcome.wrap f out).2 = .error e → (Outcome.wrap f out).1 = m) ↔ ∀ e, out.2 = .error e → out.1 = m := by
      intro α f out
      constructor
      · intro hx e he
        exact hx e (by rw [Outcome.wrap, he]; rfl)
      · intro hx e he
        exact hx e (wrap_error he)
    cases o with
    | initTopicVoting c d now => exact (lift _ _).trans (initTopicVoting_atomic_iff m c d now)
    | evaluateRound now => exact (lift _ _).trans (evaluateRound_atomic_iff h now)
    | _ => cases hw

/-- a vote is on record when the voting is opened again -/
def votedRun : List Action :=
  [.call (.initTopicVoting (some ["art", "math"]) none fun _ => 0), .call (.voteBanTopic "alice" "art" none fun _ => 1)]

theorem rejected_atomic_start_round :
    let m := reach StringOps.ascii "m1" "r1" [freshPlayer "alice"] votedRun
    let o : Op := .startRound ⟨"q1", "2 + 2?", ["3", "4", "5", "6"], "4", none⟩ none fun _ => 0
    (m.exec StringOps.ascii o).2 = .error .roundNotActive ∧ (m.exec StringOps.ascii o).1 = m := by
  intro m o
  have herr : (m.exec StringOps.ascii o).2 = .error .roundNotActive := by decide +kernel
  exact ⟨herr, (rejected_atomic_iff StringOps.ascii "m1" "r1" [freshPlayer "alice"] votedRun (by decide) o).2 trivial _
    herr⟩

/-- the rejected second opening wipes the votes -/
theorem init_voting_not_atomic :
    let m := reach StringOps.ascii "m1" "r1" [freshPlayer "alice"] votedRun
    let o : Op := .initTopicVoting (some ["art", "math"]) none fun _ => 2
    (m.exec StringOps.ascii o).2 = .error (.invalidTransition .topicVoting .topicVoting) ∧
      m.state.topicVotes = some (JsMap.empty.set "alice" "art") ∧
      (m.exec StringOps.ascii o).1.state.topicVotes = some JsMap.empty := by
  decide +kernel

end Machine

end Arena.GameCore
