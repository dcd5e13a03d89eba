/-
The roster over whole runs: survivors and eliminated players partition the match.

An evaluation moves the losers of its snapshot from the survivors to the eliminated; by `SnapshotInv` the snapshot is the
survivor list, and an evaluation that throws on a frozen elimination list has nobody to move.

The callers' order (`RunnerOrder`): a round is evaluated at most once after its start, and `finishMatch` is the last
call.

- `change_rosterInv`, `act_rosterInv`: every call and failover in that order keeps the invariant;
- `act_kept`: a step adds no survivor and nobody leaves ELIMINATED;
- `roster_partition`: the partition, before and after `finishMatch`, over every run.
-/
import Arena.GameCore.Snapshot

namespace Arena.GameCore

open Arena.Lib Arena.Shared

namespace Machine

/-! ## Statement -/

def Action.isFinish : Action → Bool
  | .call (.finishMatch _) => true
  | _ => false

/-- evaluate a started round at most once, and call nothing after `finishMatch` -/
def RunnerOrder (m : Machine) (a : Action) : Prop := EvalOnce m a ∧ a.isFinish = false

instance (m : Machine) (a : Action) : Decidable (RunnerOrder m a) :=
  inferInstanceAs (Decidable (EvalOnce m a ∧ a.isFinish = false))

/-- survivors and eliminated players partition the players map -/
structure Partition (m : Machine) : Prop where
  surviving_nodup : m.state.survivingPlayerIds.Nodup
  eliminated_nodup : m.state.eliminatedPlayerIds.Nodup
  disjoint : ∀ p ∈ m.state.survivingPlayerIds, p ∉ m.state.eliminatedPlayerIds
  covers : ∀ p, p ∈ m.state.players.keys ↔ p ∈ m.state.survivingPlayerIds ∨ p ∈ m.state.eliminatedPlayerIds
  eliminated : ∀ p ∈ m.state.eliminatedPlayerIds, ∀ i, m.state.players.get p = some i →
    i.status = .eliminated ∨ i.status = .winner
  surviving : ∀ p ∈ m.state.survivingPlayerIds, ∀ i, m.state.players.get p = some i → i.status ≠ .eliminated
  one_winner : ∀ p q i j, m.state.players.get p = some i → m.state.players.get q = some j →
    i.status = .winner → j.status = .winner → p = q

/-- no survivor is added and no player leaves ELIMINATED -/
structure Kept (m m' : Machine) : Prop where
  surviving : ∀ p ∈ m'.state.survivingPlayerIds, p ∈ m.state.survivingPlayerIds
  eliminated : ∀ p i, m.state.players.get p = some i → i.status = .eliminated →
    ∃ j, m'.state.players.get p = some j ∧ j.status = .eliminated

theorem Kept.refl (m : Machine) : Kept m m := ⟨fun _ h => h, fun _ i hi hs => ⟨i, hi, hs⟩⟩

theorem Kept.trans {a b c : Machine} (h : Kept a b) (k : Kept b c) : Kept a c := by
  refine ⟨fun p hp => h.surviving p (k.surviving p hp), ?_⟩
  intro p i hi hs
  obtain ⟨j, hj, hjs⟩ := h.eliminated p i hi hs
  exact k.eliminated p j hj hjs

/-! ## Invariant -/

/-- the roster of an unfinished match -/
structure RosterInv (m : Machine) : Prop where
  surviving_nodup : m.state.survivingPlayerIds.Nodup
  eliminated_nodup : m.state.eliminatedPlayerIds.Nodup
  disjoint : ∀ p ∈ m.state.survivingPlayerIds, p ∉ m.state.eliminatedPlayerIds
  covers : ∀ p, p ∈ m.state.players.keys ↔ p ∈ m.state.survivingPlayerIds ∨ p ∈ m.state.eliminatedPlayerIds
  eliminated : ∀ p ∈ m.state.eliminatedPlayerIds, ∀ i, m.state.players.get p = some i → i.status = .eliminated
  surviving : ∀ p ∈ m.state.survivingPlayerIds, ∀ i, m.state.players.get p = some i → i.status ≠ .eliminated
  unwon : ∀ p i, m.state.players.get p = some i → i.status ≠ .winner

theorem RosterInv.partition {m : Machine} (h : RosterInv m) : Partition m where
  surviving_nodup := h.surviving_nodup
  eliminated_nodup := h.eliminated_nodup
  disjoint := h.disjoint
  covers := h.covers
  eliminated := fun p hp i hi => .inl (h.eliminated p hp i hi)
  surviving := h.surviving
  one_winner := fun p _ i _ hi _ hw _ => absurd hw (h.unwon p i hi)

theorem rosterInv_create (matchId roomId : String) (players : List PlayerInfo)
    (hd : (players.map PlayerInfo.id).Nodup) (ha : ∀ p ∈ players, p.status = .active) :
    RosterInv (Machine.create matchId roomId players) := by
  have hactive : ∀ p i, (Machine.create matchId roomId players).state.players.get p = some i → i.status = .active := by
    intro p i hi
    exact ha i (create_player hi).1
  exact
    { surviving_nodup := hd
      eliminated_nodup := List.nodup_nil
      disjoint := fun _ _ => List.not_mem_nil
      covers := fun p => by
        rw [create_keys matchId roomId players hd]
        simp [Machine.create]
      eliminated := fun _ hp => absurd hp List.not_mem_nil
      surviving := fun p _ i hi => by rw [hactive p i hi]; decide
      unwon := fun p i hi => by rw [hactive p i hi]; decide }

/-! ## One step -/

/-- a change that leaves the roster alone -/
theorem RosterInv.of_eq {m m' : Machine} (h : RosterInv m) (hs : m'.state.survivingPlayerIds = m.state.survivingPlayerIds)
    (he : m'.state.eliminatedPlayerIds = m.state.eliminatedPlayerIds) (hp : m'.state.players = m.state.players) :
    RosterInv m' where
  surviving_nodup := by rw [hs]; exact h.surviving_nodup
  eliminated_nodup := by rw [he]; exact h.eliminated_nodup
  disjoint := by rw [hs, he]; exact h.disjoint
  covers := by rw [hs, he, hp]; exact h.covers
  eliminated := by rw [he, hp]; exact h.eliminated
  surviving := by rw [hs, hp]; exact h.surviving
  unwon := by rw [hp]; exact h.unwon

/-- one player rewritten without entering or leaving ELIMINATED -/
theorem RosterInv.modify {m : Machine} (h : RosterInv m) (id : String) (f : PlayerInfo → PlayerInfo)
    (hf : ∀ i, m.state.players.get id = some i →
      ((f i).status = .eliminated ↔ i.status = .eliminated) ∧ (f i).status ≠ .winner) :
    RosterInv (m.withPlayers (m.state.players.modify id f)) := by
  have hget : ∀ p j, (m.state.players.modify id f).get p = some j →
      ∃ i, m.state.players.get p = some i ∧ (j.status = .eliminated ↔ i.status = .eliminated) ∧ j.status ≠ .winner := by
    intro p j hj
    rw [JsMap.get_modify] at hj
    split_ifs at hj with hp
    · subst hp
      obtain ⟨i, hi, rfl⟩ := Option.map_eq_some_iff.1 hj
      exact ⟨i, hi, hf i hi⟩
    · exact ⟨j, hj, Iff.rfl, h.unwon p j hj⟩
  refine { h with covers := ?_, eliminated := ?_, surviving := ?_, unwon := ?_ }
  · intro p
    rw [withPlayers, JsMap.keys_modify]
    exact h.covers p
  · intro p hp j hj
    obtain ⟨i, hi, hiff, -⟩ := hget p j hj
    exact hiff.2 (h.eliminated p hp i hi)
  · intro p hp j hj hs
    obtain ⟨i, hi, hiff, -⟩ := hget p j hj
    exact h.surviving p hp i hi (hiff.1 hs)
  · intro p j hj
    obtain ⟨-, -, -, hw⟩ := hget p j hj
    exact hw

theorem Kept.modify {m : Machine} (id : String) (f : PlayerInfo → PlayerInfo)
    (hf : ∀ i, m.state.players.get id = some i → i.status = .eliminated → (f i).status = .eliminated) :
    Kept m (m.withPlayers (m.state.players.modify id f)) := by
  refine ⟨fun _ h => h, ?_⟩
  intro p i hi hs
  by_cases hp : id = p
  · subst hp
    exact ⟨f i, by simp [withPlayers, hi], hf i hi hs⟩
  · exact ⟨i, by simp [withPlayers, hp, hi], hs⟩

/-- status after an evaluation: losers ELIMINATED, the others as before -/
theorem settleInfo_status (answers : JsMap String AnswerState) (p : String) (i : PlayerInfo) :
    (settleInfo answers p i).status = if answeredRight answers p then i.status else .eliminated := by
  unfold settleInfo answeredRight
  cases answers.get p with
  | none => rfl
  | some a =>
    cases ha : a.isCorrect with
    | true => simp [ha, award]
    | false => simp [ha]

/-- the players after evaluating the survivors' round -/
theorem settled_get {m : Machine} (h : RosterInv m) {round : Round}
    (hp : m.roundPlayers round = m.state.survivingPlayerIds) (p : String) :
    (m.settledPlayers round).get p =
      if p ∈ m.state.survivingPlayerIds then (m.state.players.get p).map (settleInfo round.answers p)
      else m.state.players.get p := by
  unfold settledPlayers
  rw [hp]
  exact foldl_settle_get round.answers _ h.surviving_nodup p _

theorem settled_kept {m m' : Machine} (h : RosterInv m) {round : Round}
    (hp : m.roundPlayers round = m.state.survivingPlayerIds) (hm : m'.state.players = m.settledPlayers round)
    (hs : m'.state.survivingPlayerIds = m.survivorsOf round) : Kept m m' := by
  refine ⟨?_, ?_⟩
  · intro p hmem
    rw [hs, survivorsOf, hp] at hmem
    exact (List.mem_filter.1 hmem).1
  · intro p i hi hst
    have hns : p ∉ m.state.survivingPlayerIds := fun hmem => h.surviving p hmem i hi hst
    exact ⟨i, by rw [hm, settled_get h hp, if_neg hns]; exact hi, hst⟩

/-- a completed evaluation moves the losers from the survivors to the eliminated -/
theorem settle_rosterInv {m : Machine} (h : RosterInv m) {round : Round}
    (hp : m.roundPlayers round = m.state.survivingPlayerIds) (now : Clock) : RosterInv (m.settle round now) := by
  have hget := settled_get h hp
  have hsurv : ∀ p, p ∈ m.survivorsOf round ↔
      p ∈ m.state.survivingPlayerIds ∧ answeredRight round.answers p = true := by
    intro p
    rw [survivorsOf, hp, List.mem_filter]
  have hlose : ∀ p, p ∈ m.losersOf round ↔
      p ∈ m.state.survivingPlayerIds ∧ answeredRight round.answers p = false := by
    intro p
    rw [losersOf, hp, List.mem_filter]
    simp
  refine
    { surviving_nodup := ?_, eliminated_nodup := ?_, disjoint := ?_, covers := ?_, eliminated := ?_, surviving := ?_,
      unwon := ?_ }
  · show (m.survivorsOf round).Nodup
    rw [survivorsOf, hp]
    exact h.surviving_nodup.filter _
  · show (m.state.eliminatedPlayerIds ++ m.losersOf round).Nodup
    rw [List.nodup_append]
    refine ⟨h.eliminated_nodup, ?_, ?_⟩
    · rw [losersOf, hp]
      exact h.surviving_nodup.filter _
    · rintro p hpe q hql rfl
      exact h.disjoint p ((hlose p).1 hql).1 hpe
  · show ∀ p ∈ m.survivorsOf round, p ∉ m.state.eliminatedPlayerIds ++ m.losersOf round
    intro p hps hpe
    have hps := (hsurv p).1 hps
    rcases List.mem_append.1 hpe with hpe | hpl
    · exact h.disjoint p hps.1 hpe
    · have hpl := (hlose p).1 hpl
      rw [hps.2] at hpl
      exact absurd hpl.2 (by decide)
  · show ∀ p, p ∈ (m.settledPlayers round).keys ↔
      p ∈ m.survivorsOf round ∨ p ∈ m.state.eliminatedPlayerIds ++ m.losersOf round
    intro p
    rw [settledPlayers, foldl_settle_keys, h.covers p, hsurv, List.mem_append, hlose]
    cases answeredRight round.answers p <;> simp [or_comm]
  · show ∀ p ∈ m.state.eliminatedPlayerIds ++ m.losersOf round, ∀ i, (m.settledPlayers round).get p = some i →
      i.status = .eliminated
    intro p hpe i hi
    rw [hget] at hi
    rcases List.mem_append.1 hpe with hpe | hpl
    · have hns : p ∉ m.state.survivingPlayerIds := fun hmem => h.disjoint p hmem hpe
      rw [if_neg hns] at hi
      exact h.eliminated p hpe i hi
    · have hpl := (hlose p).1 hpl
      rw [if_pos hpl.1] at hi
      obtain ⟨j, -, rfl⟩ := Option.map_eq_some_iff.1 hi
      rw [settleInfo_status, hpl.2]
      rfl
  · show ∀ p ∈ m.survivorsOf round, ∀ i, (m.settledPlayers round).get p = some i → i.status ≠ .eliminated
    intro p hps i hi
    have hps := (hsurv p).1 hps
    rw [hget, if_pos hps.1] at hi
    obtain ⟨j, hj, rfl⟩ := Option.map_eq_some_iff.1 hi
    rw [settleInfo_status, if_pos hps.2]
    exact h.surviving p hps.1 j hj
  · show ∀ p i, (m.settledPlayers round).get p = some i → i.status ≠ .winner
    intro p i hi
    rw [hget] at hi
    split_ifs at hi with hps
    · obtain ⟨j, hj, rfl⟩ := Option.map_eq_some_iff.1 hi
      rw [settleInfo_status]
      split_ifs
      · exact h.unwon p j hj
      · decide
    · exact h.unwon p i hi

/-- an evaluation that throws on the frozen list has no player to move -/
theorem settleStuck_rosterInv {m : Machine} (h : RosterInv m) {round : Round} (hp : m.roundPlayers round = [])
    (hnil : m.state.survivingPlayerIds = []) : RosterInv (m.settleStuck round) := by
  have hplayers : m.settledPlayers round = m.state.players := by rw [settledPlayers, hp]; rfl
  have hsurv : m.survivorsOf round = m.state.survivingPlayerIds := by rw [survivorsOf, hp, hnil]; rfl
  exact h.of_eq hsurv rfl hplayers

theorem change_rosterInv {J : StringOps} {m m' : Machine} {o : Op} (hc : Change J m o m')
    (hg : RunnerOrder m (.call o)) (hs : SnapshotInv m) (h : RosterInv m) : RosterInv m' := by
  cases hc with
  | transition target now _ => cases target <;> exact h.of_eq rfl rfl rfl
  | answer round p a ts sid retry now hr _ _ _ _ =>
    obtain ⟨hst, -⟩ := consumeChance_frame m round p retry (now 0)
    exact h.of_eq (congrArg MatchState.survivingPlayerIds hst) (congrArg MatchState.eliminatedPlayerIds hst)
      (congrArg MatchState.players hst)
  | evaluated round now hr _ => exact settle_rosterInv h (hs.roundPlayers hg.1 hr) now
  | evaluateStuck round now hr hf => exact settleStuck_rosterInv h (hs.stuck_round hg.1 hr hf) (hs.frozen hf)
  | winner now =>
    obtain ⟨hst, -, -⟩ := determineWinner_frame m now
    exact h.of_eq (by rw [hst]) (by rw [hst]) (by rw [hst])
  | finish now => exact nomatch hg.2
  | offline p player now hp =>
    apply h.modify
    intro i hi
    exact ⟨Iff.rfl, h.unwon p i hi⟩
  | disconnect p player now hp hst =>
    have hm : RosterInv (m.withPlayers (m.state.players.modify p fun i =>
        { i with isOnline := false, status := .disconnected })) := by
      apply h.modify
      intro i hi
      obtain rfl : player = i := Option.some.inj (hp.symm.trans hi)
      simp [hst]
    exact hm.of_eq rfl rfl rfl
  | reconnect p player now hp =>
    have hm : RosterInv (m.withPlayers (m.state.players.modify p fun i =>
        { i with isOnline := true, status := if i.status = PlayerStatus.disconnected then .active else i.status })) := by
      apply h.modify
      intro i hi
      have hw := h.unwon p i hi
      cases hst : i.status <;> simp_all
    exact hm.of_eq rfl rfl rfl
  | play round p now hr _ _ =>
    obtain ⟨hst, -⟩ := applyPlay_frame (m.logEvent (.cardResolved (m.resolvedPayload round p)) (now 0)) round p
      (m.eventSeqCounter + 1) now
    exact h.of_eq (congrArg MatchState.survivingPlayerIds hst) (congrArg MatchState.eliminatedPlayerIds hst)
      (congrArg MatchState.players hst)
  | _ => exact h.of_eq rfl rfl rfl

/-- the same changes against what must never be undone -/
theorem change_kept {J : StringOps} {m m' : Machine} {o : Op} (hc : Change J m o m')
    (hg : RunnerOrder m (.call o)) (hsn : SnapshotInv m) (h : RosterInv m) : Kept m m' := by
  have of_state : ∀ {m' : Machine}, m'.state.players = m.state.players →
      m'.state.survivingPlayerIds = m.state.survivingPlayerIds → Kept m m' := by
    intro m' hp hs
    refine ⟨by rw [hs]; exact fun _ hp => hp, ?_⟩
    intro p i hi hst
    exact ⟨i, by rw [hp]; exact hi, hst⟩
  cases hc with
  | transition target now _ => cases target <;> exact of_state rfl rfl
  | answer round p a ts sid retry now hr _ _ _ _ =>
    obtain ⟨hs, -⟩ := consumeChance_frame m round p retry (now 0)
    exact of_state (congrArg MatchState.players hs) (congrArg MatchState.survivingPlayerIds hs)
  | evaluated round now hr hf => exact settled_kept h (hsn.roundPlayers hg.1 hr) rfl rfl
  | evaluateStuck round now hr hf => exact settled_kept h (hsn.roundPlayers hg.1 hr) rfl rfl
  | winner now =>
    obtain ⟨hs, -, -⟩ := determineWinner_frame m now
    exact of_state (by rw [hs]) (by rw [hs])
  | finish now => exact nomatch hg.2
  | offline p player now hp => exact Kept.modify p _ fun i _ hs => hs
  | disconnect p player now hp hs =>
    refine Kept.trans (Kept.modify p _ ?_) ⟨fun _ hp => hp, fun q j hj hst => ⟨j, hj, hst⟩⟩
    intro i hi hst
    obtain rfl : player = i := Option.some.inj (hp.symm.trans hi)
    exact absurd (hs.symm.trans hst) (by decide)
  | reconnect p player now hp =>
    refine Kept.trans (Kept.modify p _ ?_) ⟨fun _ hp => hp, fun q j hj hst => ⟨j, hj, hst⟩⟩
    intro i _ hst
    simp [hst]
  | play round p now hr _ _ =>
    obtain ⟨hs, -⟩ := applyPlay_frame (m.logEvent (.cardResolved (m.resolvedPayload round p)) (now 0)) round p
      (m.eventSeqCounter + 1) now
    exact of_state (congrArg MatchState.players hs) (congrArg MatchState.survivingPlayerIds hs)
  | _ => exact of_state rfl rfl

theorem act_rosterInv (J : StringOps) (m : Machine) (a : Action) (hg : RunnerOrder m a) (hw : WireInv m)
    (hs : SnapshotInv m) (h : RosterInv m) : RosterInv (m.act J a) := by
  cases a with
  | call o => exact change_rosterInv (step_change J m o) hg hs h
  | failover =>
    rcases failover_cases J m hw with hf | hf
    · rw [act, hf]; exact h.of_eq rfl rfl rfl
    · rw [act, hf]; exact h

theorem act_kept (J : StringOps) (m : Machine) (a : Action) (hg : RunnerOrder m a) (hw : WireInv m)
    (hs : SnapshotInv m) (h : RosterInv m) : Kept m (m.act J a) := by
  cases a with
  | call o => exact change_kept (step_change J m o) hg hs h
  | failover =>
    rcases failover_cases J m hw with hf | hf
    · rw [act, hf]; exact ⟨fun _ hp => hp, fun p i hi hs => ⟨i, hi, hs⟩⟩
    · rw [act, hf]; exact Kept.refl m

/-! ## The end of the match -/

/-- `finishMatch` rewrites the winner's status only -/
theorem finish_players (m : Machine) (now : Clock) :
    (m.finishMatch now).state.players =
      match (m.determineWinner now).2 with
      | some w => m.state.players.modify w fun p => { p with status := .winner }
      | none => m.state.players := by
  have hs := (determineWinner_frame m now).1
  unfold finishMatch crown
  rw [logEvent_state]
  cases (m.determineWinner now).2 with
  | none => rw [hs]
  | some w => rw [hs]

/-- and moves nobody between the lists -/
theorem finish_lists (m : Machine) (now : Clock) :
    (m.finishMatch now).state.survivingPlayerIds = m.state.survivingPlayerIds ∧
      (m.finishMatch now).state.eliminatedPlayerIds = m.state.eliminatedPlayerIds := by
  have hs := (determineWinner_frame m now).1
  exact ⟨(congrArg MatchState.survivingPlayerIds hs).trans rfl, (congrArg MatchState.eliminatedPlayerIds hs).trans rfl⟩

/-- `finishMatch` crowns at most one player -/
theorem finish_partition {m : Machine} (h : RosterInv m) (now : Clock) : Partition (m.finishMatch now) := by
  obtain ⟨hsurv, helim⟩ := finish_lists m now
  have hplayers := finish_players m now
  set w := (m.determineWinner now).2
  have hget : ∀ p j, (m.finishMatch now).state.players.get p = some j →
      ∃ i, m.state.players.get p = some i ∧ (j = i ∨ (w = some p ∧ j.status = .winner)) := by
    intro p j hj
    rw [hplayers] at hj
    cases hw : w with
    | none => rw [hw] at hj; exact ⟨j, hj, .inl rfl⟩
    | some x =>
      simp only [hw, JsMap.get_modify] at hj
      split_ifs at hj with hx
      · subst hx
        obtain ⟨i, hi, rfl⟩ := Option.map_eq_some_iff.1 hj
        exact ⟨i, hi, .inr ⟨rfl, rfl⟩⟩
      · exact ⟨j, hj, .inl rfl⟩
  have hkeys : (m.finishMatch now).state.players.keys = m.state.players.keys := by
    rw [hplayers]
    cases w with
    | none => rfl
    | some x => exact JsMap.keys_modify _ _ _
  refine
    { surviving_nodup := by rw [hsurv]; exact h.surviving_nodup
      eliminated_nodup := by rw [helim]; exact h.eliminated_nodup
      disjoint := by rw [hsurv, helim]; exact h.disjoint
      covers := by rw [hsurv, helim, hkeys]; exact h.covers
      eliminated := ?_, surviving := ?_, one_winner := ?_ }
  · rw [helim]
    intro p hp j hj
    obtain ⟨i, hi, rfl | ⟨-, hjw⟩⟩ := hget p j hj
    · exact .inl (h.eliminated p hp j hi)
    · exact .inr hjw
  · rw [hsurv]
    intro p hp j hj
    obtain ⟨i, hi, rfl | ⟨-, hjw⟩⟩ := hget p j hj
    · exact h.surviving p hp j hi
    · rw [hjw]; decide
  · intro p q i j hi hj hiw hjw
    obtain ⟨i', hi', rfl | ⟨hp, -⟩⟩ := hget p i hi
    · exact absurd hiw (h.unwon p i hi')
    · obtain ⟨j', hj', rfl | ⟨hq, -⟩⟩ := hget q j hj
      · exact absurd hjw (h.unwon q j hj')
      · exact Option.some.inj (hp.symm.trans hq)

/-! ## Whole runs -/

/-- what a run in the runner's order carries from its first state `m` -/
structure RunInv (m s : Machine) : Prop where
  wire : WireInv s
  snapshot : SnapshotInv s
  roster : RosterInv s
  kept : Kept m s

theorem run_roster (J : StringOps) (m : Machine) (acts : List Action) (hg : Along (act J) RunnerOrder m acts)
    (hw : WireInv m) (hs : SnapshotInv m) (h : RosterInv m) : RunInv m (run (act J) m acts) := by
  refine run_inv (act J) RunnerOrder (RunInv m) ?_ m acts hg ⟨hw, hs, h, Kept.refl m⟩
  intro s a ha hi
  exact
    { wire := act_wireInv J s a hi.wire
      snapshot := act_snapshotInv J s a ha.1 hi.wire hi.snapshot
      roster := act_rosterInv J s a ha hi.wire hi.snapshot hi.roster
      kept := hi.kept.trans (act_kept J s a ha hi.wire hi.snapshot hi.roster) }

/-- **Roster partition over whole runs.** In the runner's order, survivors and eliminated players partition the match in
every state, before `finishMatch` (every eliminated player is ELIMINATED and nobody is WINNER) and after it; between any
two states of the run no survivor is added and no player leaves ELIMINATED, and `finishMatch` leaves both lists as they
are. -/
theorem roster_partition (J : StringOps) (matchId roomId : String) (players : List PlayerInfo)
    (pre post : List Action) (hd : (players.map PlayerInfo.id).Nodup) (ha : ∀ p ∈ players, p.status = .active)
    (hg : Along (act J) RunnerOrder (Machine.create matchId roomId players) (pre ++ post)) :
    let s := reach J matchId roomId players pre
    let m := reach J matchId roomId players (pre ++ post)
    Partition m ∧ (∀ p i, m.state.players.get p = some i →
        i.status ≠ .winner ∧ (p ∈ m.state.eliminatedPlayerIds → i.status = .eliminated)) ∧
      Kept s m ∧ ∀ now, Partition (m.finishMatch now) ∧
        (m.finishMatch now).state.survivingPlayerIds = m.state.survivingPlayerIds ∧
        (m.finishMatch now).state.eliminatedPlayerIds = m.state.eliminatedPlayerIds := by
  intro s m
  obtain ⟨hg1, hg2⟩ := (along_append _ _ _ _ _).1 hg
  have h1 : RunInv (Machine.create matchId roomId players) s :=
    run_roster J _ pre hg1 (wireInv_create matchId roomId players hd) (snapshotInv_create matchId roomId players)
      (rosterInv_create matchId roomId players hd ha)
  have h2 := run_roster J s post hg2 h1.wire h1.snapshot h1.roster
  have hmeq : m = run (act J) s post := run_append _ _ _ _
  rw [← hmeq] at h2
  have hm := h2.roster
  refine ⟨hm.partition, ?_, h2.kept, fun now => ⟨finish_partition hm now, finish_lists m now⟩⟩
  intro p i hi
  exact ⟨hm.unwon p i hi, fun hp => hm.eliminated p hp i hi⟩

/-- two players, one wrong answer, a failover inside the round -/
theorem roster_partition_two_players :
    let pre : List Action := [.call (.transition .countdown fun _ => 0), .call (.transition .roundActive fun _ => 0),
      .call (.startRound ⟨"q1", "2 + 2?", ["3", "4", "5", "6"], "4", none⟩ none fun _ => 0)]
    let post : List Action := [.call (.submitAnswer "alice" "b" 100 none fun _ => 100),
      .call (.disconnectPlayer "bob" fun _ => 200), .failover, .call (.evaluateRound fun _ => 15000)]
    let m := reach StringOps.ascii "m1" "r1" [freshPlayer "alice", freshPlayer "bob"] (pre ++ post)
    m.state.eliminatedPlayerIds = ["bob"] ∧ Partition (m.finishMatch fun _ => 15000) := by
  intro pre post m
  have hg : Along (act StringOps.ascii) RunnerOrder
      (Machine.create "m1" "r1" [freshPlayer "alice", freshPlayer "bob"]) (pre ++ post) := by decide +kernel
  exact ⟨by decide +kernel, (roster_partition StringOps.ascii "m1" "r1" [freshPlayer "alice", freshPlayer "bob"] pre post
    (by decide) (by decide) hg).2.2.2 _ |>.1⟩

end Machine

end Arena.GameCore
