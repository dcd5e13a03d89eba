/-
The winner and who lasted longest.

A player's `correctAnswers` is the number of rounds it survived. `determineWinner` has three branches: a single
survivor, a tie-break among several survivors, and a tie-break when nobody is left. The last one ranks the whole
elimination list of the match by total response time, which is smallest for players knocked out early.

- `SurvivorsLead`: in the runner's order no player has more correct answers than a survivor;
- `determineWinner_cases`: the three branches, on the roster of an unfinished match;
- `winner_lasted_iff`: the winner lasted longest exactly when a survivor is left, or a fastest player of the match also
  has the most correct answers;
- `early_loser_wins`: three players, of whom the one who never answered is crowned.
-/
import Arena.GameCore.Roster
import Arena.GameCore.Ledger

namespace Arena.GameCore

open Arena.Lib Arena.Shared

namespace Machine

/-! ## Statement -/

/-- nobody survived more rounds -/
def LastedLongest (players : JsMap String PlayerInfo) (w : String) : Prop :=
  ∃ i, players.get w = some i ∧ ∀ q j, players.get q = some j → j.correctAnswers ≤ i.correctAnswers

/-- a fastest player of the match also has the most correct answers -/
def FastestLasted (m : Machine) : Prop :=
  ∃ p i, m.state.players.get p = some i ∧ ∀ q j, m.state.players.get q = some j →
    i.totalResponseTimeMs ≤ j.totalResponseTimeMs ∧ j.correctAnswers ≤ i.correctAnswers

/-! ## Survivors lead -/

/-- no player has more correct answers than a survivor -/
def SurvivorsLead (m : Machine) : Prop := ∀ p ∈ m.state.survivingPlayerIds, LastedLongest m.state.players p

theorem survivorsLead_create (matchId roomId : String) (players : List PlayerInfo)
    (hz : ∀ p ∈ players, Unscored p) (hr : RosterInv (Machine.create matchId roomId players)) :
    SurvivorsLead (Machine.create matchId roomId players) := by
  intro p hp
  obtain ⟨i, hi⟩ := (JsMap.mem_keys _ _).1 ((hr.covers p).2 (.inl hp))
  refine ⟨i, hi, ?_⟩
  intro q j hj
  rw [(hz j (create_player hj).1).1]
  exact Nat.zero_le _

theorem SurvivorsLead.of_same {m m' : Machine} (h : SurvivorsLead m) (hs : SameStats m m')
    (hk : m'.state.players.keys = m.state.players.keys)
    (hsurv : ∀ p ∈ m'.state.survivingPlayerIds, p ∈ m.state.survivingPlayerIds) : SurvivorsLead m' := by
  intro p hp
  obtain ⟨i, hi, hmax⟩ := h p (hsurv p hp)
  obtain ⟨i', hi'⟩ := (JsMap.mem_keys _ _).1 (hk ▸ (JsMap.mem_keys _ _).2 ⟨i, hi⟩)
  refine ⟨i', hi', ?_⟩
  intro q j' hj'
  obtain ⟨k, hk, hkc, -, -⟩ := hs p i' hi'
  obtain ⟨j, hj, hjc, -, -⟩ := hs q j' hj'
  obtain rfl : i = k := Option.some.inj (hi.symm.trans hk)
  rw [hkc, hjc]
  exact hmax q j hj

/-- no call adds or removes a player -/
theorem change_keys {J : StringOps} {m m' : Machine} {o : Op} (hc : Change J m o m') :
    m'.state.players.keys = m.state.players.keys := by
  cases hc with
  | transition target now _ => cases target <;> rfl
  | answer round p a ts sid retry now _ _ _ _ _ =>
    exact congrArg (fun s => s.players.keys) (consumeChance_frame m round p retry (now 0)).1
  | evaluated round now _ _ => exact foldl_settle_keys _ _ _
  | evaluateStuck round now _ _ => exact foldl_settle_keys _ _ _
  | winner now => exact congrArg (fun s => s.players.keys) (determineWinner_frame m now).1
  | finish now =>
    have hp := finish_players m now
    unfold finishMatch at hp
    rw [hp]
    cases (m.determineWinner now).2 with
    | none => rfl
    | some w => exact JsMap.keys_modify _ _ _
  | offline p player now _ => exact JsMap.keys_modify _ _ _
  | disconnect p player now _ _ => exact JsMap.keys_modify _ _ _
  | reconnect p player now _ => exact JsMap.keys_modify _ _ _
  | play round p now _ _ _ => exact congrArg (fun s => s.players.keys) (applyPlay_frame _ round p _ now).1
  | _ => rfl

/-- after an evaluation of the survivors' round the new survivors lead by one more round -/
theorem settle_lead {m m' : Machine} (h : SurvivorsLead m) (hr : RosterInv m) {round : Round}
    (hp : m.roundPlayers round = m.state.survivingPlayerIds) (hm : m'.state.players = m.settledPlayers round)
    (hs : m'.state.survivingPlayerIds = m.survivorsOf round) : SurvivorsLead m' := by
  intro p hmem
  rw [hs, survivorsOf, hp, List.mem_filter] at hmem
  obtain ⟨hsurv, hright⟩ := hmem
  obtain ⟨i, hi, hmax⟩ := h p hsurv
  have gain : ∀ q, answeredRight round.answers q = true → ∀ j, (settleInfo round.answers q j).correctAnswers =
      j.correctAnswers + 1 := by
    intro q hq j
    obtain ⟨a, ha, hc⟩ := (Option.any_eq_true _ _).1 hq
    rw [settleInfo_right ha hc]
    rfl
  refine ⟨settleInfo round.answers p i, ?_, ?_⟩
  · rw [hm, settled_get hr hp, if_pos hsurv, hi]
    rfl
  · intro q j hj
    rw [gain p hright i]
    rw [hm, settled_get hr hp] at hj
    split_ifs at hj with hq
    · obtain ⟨k, hk, rfl⟩ := Option.map_eq_some_iff.1 hj
      have hle := hmax q k hk
      by_cases hqr : answeredRight round.answers q = true
      · rw [gain q hqr k]
        exact Nat.succ_le_succ hle
      · rw [settleInfo_wrong (by simpa using hqr)]
        exact Nat.le_succ_of_le hle
    · exact Nat.le_succ_of_le (hmax q j hj)

theorem change_lead {J : StringOps} {m m' : Machine} {o : Op} (hc : Change J m o m') (hg : RunnerOrder m (.call o))
    (hsn : SnapshotInv m) (hr : RosterInv m) (h : SurvivorsLead m) : SurvivorsLead m' := by
  by_cases ho : ∀ now, o ≠ .evaluateRound now
  · exact h.of_same (change_sameStats hc ho) (change_keys hc) (change_kept hc hg hsn hr).surviving
  · cases hc with
    | same o => exact h
    | evaluated round now hround _ => exact settle_lead h hr (hsn.roundPlayers hg.1 hround) rfl rfl
    | evaluateStuck round now hround _ => exact settle_lead h hr (hsn.roundPlayers hg.1 hround) rfl rfl
    | _ => exact absurd (fun now => nofun) ho

/-! ## The three branches -/

/-- the winner of an unfinished match: nobody, a survivor, or the tie-break of all the eliminated players -/
theorem determineWinner_cases {m : Machine} (h : RosterInv m) (now : Clock) :
    ((m.determineWinner now).2 = none ∧ m.state.survivingPlayerIds = [] ∧ m.state.eliminatedPlayerIds = []) ∨
    (∃ w ∈ m.state.survivingPlayerIds, (m.determineWinner now).2 = some w) ∨
    (m.state.survivingPlayerIds = [] ∧ ∃ w, (m.determineWinner now).2 = some w ∧
      resolveTieBreak m.state.eliminatedPlayerIds m.state.players m.state.id = some w) := by
  have known : ∀ p, p ∈ m.state.survivingPlayerIds ∨ p ∈ m.state.eliminatedPlayerIds → p ∈ m.state.players.keys :=
    fun p hp => (h.covers p).2 hp
  unfold determineWinner
  split
  · rename_i w heq
    exact .inr (.inl ⟨w, by rw [heq]; simp, rfl⟩)
  · rename_i heq
    split_ifs with he
    · exact .inl ⟨rfl, heq, List.eq_nil_of_length_eq_zero he⟩
    · -- everybody is eliminated: the whole list is ranked
      obtain ⟨p, hp⟩ := List.exists_mem_of_length_pos (Nat.pos_of_ne_zero he)
      obtain ⟨w, hw⟩ := Option.isSome_iff_exists.1
        (resolveTieBreak_isSome m.state.id ⟨p, hp, known p (.inr hp)⟩)
      refine .inr (.inr ⟨heq, w, ?_, hw⟩)
      simp only [tieBreak, if_neg he]
      exact hw
  · rename_i hone hnil
    obtain ⟨p, hp⟩ := List.exists_mem_of_ne_nil _ hnil
    obtain ⟨w, hw⟩ := Option.isSome_iff_exists.1
      (resolveTieBreak_isSome m.state.id ⟨p, hp, known p (.inl hp)⟩)
    obtain ⟨-, hmem, -⟩ := tieBreak_best hw
    refine .inr (.inl ⟨w, hmem, ?_⟩)
    have hlen : m.state.survivingPlayerIds.length ≠ 0 := fun h0 => hnil (List.eq_nil_of_length_eq_zero h0)
    simp only [tieBreak, if_neg hlen]
    exact hw

/-- the tie-break of all players crowns one who lasted longest exactly when a fastest player did -/
theorem tieBreak_lasted_iff {m : Machine} (h : RosterInv m) (hs : m.state.survivingPlayerIds = []) {w : String}
    (hw : resolveTieBreak m.state.eliminatedPlayerIds m.state.players m.state.id = some w) :
    LastedLongest m.state.players w ↔ m.FastestLasted := by
  obtain ⟨i, -, hi, hbest⟩ := tieBreak_best hw
  have everybody : ∀ q j, m.state.players.get q = some j → q ∈ m.state.eliminatedPlayerIds := by
    intro q j hj
    rcases (h.covers q).1 ((JsMap.mem_keys _ _).2 ⟨j, hj⟩) with hq | hq
    · rw [hs] at hq
      cases hq
    · exact hq
  constructor
  · rintro ⟨i', hi', hmax⟩
    obtain rfl : i = i' := Option.some.inj (hi.symm.trans hi')
    refine ⟨w, i, hi, ?_⟩
    intro q j hj
    exact ⟨(hbest q (everybody q j hj) j hj).1, hmax q j hj⟩
  · rintro ⟨p, k, hk, hfast⟩
    -- the winner is as fast as the fastest player, so it has as many correct answers
    have hle := (hbest p (everybody p k hk) k hk).1
    have htie : i.totalResponseTimeMs = k.totalResponseTimeMs := le_antisymm hle (hfast w i hi).1
    have hcount := (hbest p (everybody p k hk) k hk).2 htie
    refine ⟨i, hi, ?_⟩
    intro q j hj
    exact (hfast q j hj).2.trans hcount

/-- `finishMatch` leaves everybody's count -/
theorem finish_lasted (m : Machine) (now : Clock) (w : String) :
    LastedLongest (m.finishMatch now).state.players w ↔ LastedLongest m.state.players w := by
  have count : ∀ p, ((m.finishMatch now).state.players.get p).map PlayerInfo.correctAnswers =
      (m.state.players.get p).map PlayerInfo.correctAnswers := by
    intro p
    rw [finish_players]
    cases (m.determineWinner now).2 with
    | none => rfl
    | some x =>
      rw [JsMap.get_modify]
      split_ifs with hx
      · cases m.state.players.get p <;> rfl
      · rfl
  have transfer : ∀ a b : JsMap String PlayerInfo,
      (∀ p, (a.get p).map PlayerInfo.correctAnswers = (b.get p).map PlayerInfo.correctAnswers) →
      LastedLongest a w → LastedLongest b w := by
    rintro a b hab ⟨i, hi, hmax⟩
    have hw := hab w
    rw [hi] at hw
    obtain ⟨k, hk, hkc⟩ := Option.map_eq_some_iff.1 hw.symm
    refine ⟨k, hk, ?_⟩
    intro q j hj
    have hq := hab q
    rw [hj] at hq
    obtain ⟨l, hl, hlc⟩ := Option.map_eq_some_iff.1 hq
    rw [hkc, ← hlc]
    exact hmax q l hl
  exact ⟨transfer _ _ count, transfer _ _ fun p => (count p).symm⟩

/-! ## Whole runs -/

/-- what a run in the runner's order carries -/
structure LeadInv (ids : List String) (m : Machine) : Prop where
  wire : WireInv m
  snapshot : SnapshotInv m
  roster : RosterInv m
  lead : SurvivorsLead m
  keys : m.state.players.keys = ids

theorem act_leadInv (J : StringOps) (ids : List String) (m : Machine) (a : Action) (hg : RunnerOrder m a)
    (h : LeadInv ids m) : LeadInv ids (m.act J a) := by
  refine ⟨act_wireInv J m a h.wire, act_snapshotInv J m a hg.1 h.wire h.snapshot,
    act_rosterInv J m a hg h.wire h.snapshot h.roster, ?_, ?_⟩
  · cases a with
    | call o => exact change_lead (step_change J m o) hg h.snapshot h.roster h.lead
    | failover =>
      rcases failover_cases J m h.wire with hf | hf
      · rw [act, hf]
        exact h.lead
      · rw [act, hf]
        exact h.lead
  · cases a with
    | call o => exact (change_keys (step_change J m o)).trans h.keys
    | failover =>
      rcases failover_cases J m h.wire with hf | hf
      · rw [act, hf]
        exact h.keys
      · rw [act, hf]
        exact h.keys

/-- **Who wins.** In every run in the runner's order, `finishMatch` sets no winner only for an empty roster and otherwise
a player nobody outlasted, exactly when the roster is empty, a survivor is left, or a fastest player of the match also
has the most correct answers. -/
theorem winner_lasted_iff (J : StringOps) (matchId roomId : String) (players : List PlayerInfo) (acts : List Action)
    (hd : (players.map PlayerInfo.id).Nodup) (ha : ∀ p ∈ players, p.status = .active) (hz : ∀ p ∈ players, Unscored p)
    (hg : Along (act J) RunnerOrder (Machine.create matchId roomId players) acts) (now : Clock) :
    let m := reach J matchId roomId players acts
    let f := m.finishMatch now
    ((f.state.winnerId = none → players = []) ∧
        ∀ w, f.state.winnerId = some w → LastedLongest f.state.players w) ↔
      players = [] ∨ m.state.survivingPlayerIds ≠ [] ∨ m.FastestLasted := by
  intro m f
  have hroster := rosterInv_create matchId roomId players hd ha
  have h : LeadInv (Machine.create matchId roomId players).state.players.keys m :=
    run_inv (act J) RunnerOrder (LeadInv _) (fun s a hs hi => act_leadInv J _ s a hs hi) _ acts hg
      ⟨wireInv_create matchId roomId players hd, snapshotInv_create matchId roomId players, hroster,
        survivorsLead_create matchId roomId players hz hroster, rfl⟩
  have hwinner : f.state.winnerId = (m.determineWinner now).2 := rfl
  have hempty : m.state.players.keys = [] → players = [] := by
    intro hk
    rw [h.keys] at hk
    cases players with
    | nil => rfl
    | cons p ps =>
      exfalso
      have hmem : p.id ∈ (Machine.create matchId roomId (p :: ps)).state.players.keys :=
        (hroster.covers p.id).2 (.inl (by simp [Machine.create]))
      rw [hk] at hmem
      cases hmem
  rw [hwinner]
  rcases determineWinner_cases h.roster now with ⟨hw, hs, he⟩ | ⟨w, hmem, hw⟩ | ⟨hs, w, hw, htie⟩
  · -- nobody on either list
    have hnone : players = [] := by
      apply hempty
      rw [List.eq_nil_iff_forall_not_mem]
      intro p hp
      rcases (h.roster.covers p).1 hp with hp | hp
      · rw [hs] at hp
        cases hp
      · rw [he] at hp
        cases hp
    constructor
    · intro _
      exact .inl hnone
    · intro _
      refine ⟨fun _ => hnone, ?_⟩
      intro w hw'
      rw [hw] at hw'
      cases hw'
  · -- a survivor wins
    constructor
    · intro _
      exact .inr (.inl (List.ne_nil_of_mem hmem))
    · intro _
      rw [hw]
      refine ⟨by simp, ?_⟩
      intro w' hw'
      obtain rfl := Option.some.inj hw'
      exact (finish_lasted m now w).2 (h.lead w hmem)
  · -- everybody is eliminated
    have hne : players ≠ [] := by
      rintro rfl
      obtain ⟨i, -, hi, -⟩ := tieBreak_best htie
      have hk := (JsMap.mem_keys _ _).2 ⟨i, hi⟩
      rw [h.keys] at hk
      cases hk
    have key := (finish_lasted m now w).trans (tieBreak_lasted_iff h.roster hs htie)
    rw [hw]
    constructor
    · rintro ⟨-, hlast⟩
      exact .inr (.inr (key.1 (hlast w rfl)))
    · rintro (h0 | h0 | h0)
      · exact absurd h0 hne
      · exact absurd hs h0
      · refine ⟨by simp, ?_⟩
        intro w' hw'
        obtain rfl := Option.some.inj hw'
        exact key.2 h0

/-- the calls of one round: the answers, then the evaluation -/
def roundCalls (answers : List Op) : List Action :=
  [.call (.transition .roundActive fun _ => 0),
    .call (.startRound ⟨"q1", "2 + 2?", ["3", "4", "5", "6"], "4", none⟩ none fun _ => 0)] ++ answers.map .call ++
    [.call (.transition .roundEvaluating fun _ => 15000), .call (.evaluateRound fun _ => 15000)]

/-- two players, of whom alice answers right -/
theorem winner_lasted_survivor :
    let acts : List Action := [.call (.transition .countdown fun _ => 0)] ++
      roundCalls [.submitAnswer "alice" "b" 100 none fun _ => 100]
    let m := reach StringOps.ascii "m1" "r1" [freshPlayer "alice", freshPlayer "bob"] acts
    let f := m.finishMatch fun _ => 15000
    f.state.winnerId = some "alice" ∧ LastedLongest f.state.players "alice" := by
  intro acts m f
  have hwin : f.state.winnerId = some "alice" := by decide +kernel
  have hg : Along (act StringOps.ascii) RunnerOrder
      (Machine.create "m1" "r1" [freshPlayer "alice", freshPlayer "bob"]) acts := by decide +kernel
  have hsurv : m.state.survivingPlayerIds ≠ [] := by decide +kernel
  exact ⟨hwin, ((winner_lasted_iff StringOps.ascii "m1" "r1" [freshPlayer "alice", freshPlayer "bob"] acts (by decide)
    (by decide) (by decide) hg fun _ => 15000).2 (.inr (.inl hsurv))).2 "alice" hwin⟩

/-- alice and bob survive the first round and nobody the second; carol, out since the first, is crowned -/
theorem early_loser_wins :
    let acts : List Action := [.call (.transition .countdown fun _ => 0)] ++
      roundCalls [.submitAnswer "alice" "b" 100 none fun _ => 100, .submitAnswer "bob" "b" 200 none fun _ => 200] ++
      [.call (.transition .roundResult fun _ => 15000)] ++ roundCalls []
    let m := reach StringOps.ascii "m1" "r1" [freshPlayer "alice", freshPlayer "bob", freshPlayer "carol"] acts
    let f := m.finishMatch fun _ => 30000
    Along (act StringOps.ascii) RunnerOrder
        (Machine.create "m1" "r1" [freshPlayer "alice", freshPlayer "bob", freshPlayer "carol"]) acts ∧
      f.state.winnerId = some "carol" ∧
      (f.state.players.get "carol").map PlayerInfo.correctAnswers = some 0 ∧
      (f.state.players.get "alice").map PlayerInfo.correctAnswers = some 1 := by
  decide +kernel

end Machine

end Arena.GameCore
