/-
Eliminated players stay out, in every order of calls.

`RosterInv` speaks of runs that evaluate a round once. What holds without any order of calls is weaker: a player on the
elimination list is never ACTIVE again, is no survivor, and is let through by no evaluation of the current round, not
even a second one, because a round that has been evaluated takes no more answers.
-/
import Arena.GameCore.Roster

namespace Arena.GameCore

open Arena.Lib Arena.Shared

namespace Machine

/-! ## Invariant -/

/-- a status no ACTIVE player has -/
def Gone (i : PlayerInfo) : Prop := i.status = .eliminated ∨ i.status = .winner

/-- the round may still let the player through -/
def MayPass (r : Round) (p : String) : Prop := r.status = .active ∨ answeredRight r.answers p = true

structure OutInv (m : Machine) : Prop where
  out : ∀ p ∈ m.state.eliminatedPlayerIds, ∀ i, m.state.players.get p = some i → Gone i
  surviving : ∀ p ∈ m.state.survivingPlayerIds, p ∉ m.state.eliminatedPlayerIds
  passing : ∀ r, m.currentRound = some r → ∀ p ∈ m.roundPlayers r, MayPass r p → p ∉ m.state.eliminatedPlayerIds
  known : ∀ p ∈ m.state.survivingPlayerIds, p ∈ m.state.players.keys
  entrants : ∀ r, m.currentRound = some r → ∀ p ∈ m.roundPlayers r, p ∈ m.state.players.keys

theorem outInv_create (matchId roomId : String) (players : List PlayerInfo)
    (hd : (players.map PlayerInfo.id).Nodup) : OutInv (Machine.create matchId roomId players) where
  out := fun _ hp => absurd hp List.not_mem_nil
  surviving := fun _ _ => List.not_mem_nil
  passing := fun _ hr => by cases hr
  known := fun p hp => by
    rw [create_keys matchId roomId players hd]
    exact hp
  entrants := fun _ hr => by cases hr

/-! ## One step -/

/-- survivors, elimination list and the round's chances stay, and nobody gone comes back -/
theorem OutInv.of_kept {m m' : Machine} (h : OutInv m)
    (hs : m'.state.survivingPlayerIds = m.state.survivingPlayerIds)
    (he : m'.state.eliminatedPlayerIds = m.state.eliminatedPlayerIds) (hk : m'.state.players.keys = m.state.players.keys)
    (hp : ∀ p j, m'.state.players.get p = some j → ∃ i, m.state.players.get p = some i ∧ (Gone i → Gone j))
    (hr : ∀ r', m'.currentRound = some r' → ∃ r, m.currentRound = some r ∧ r'.startingPlayers = r.startingPlayers ∧
      ∀ p, MayPass r' p → MayPass r p) : OutInv m' := by
  have hround : ∀ r', m'.currentRound = some r' → ∃ r, m.currentRound = some r ∧
      m'.roundPlayers r' = m.roundPlayers r ∧ ∀ p, MayPass r' p → MayPass r p := by
    intro r' hr'
    obtain ⟨r, hround, hstart, hpass⟩ := hr r' hr'
    exact ⟨r, hround, by rw [roundPlayers, roundPlayers, hstart, hs], hpass⟩
  refine ⟨?_, by rw [hs, he]; exact h.surviving, ?_, by rw [hs, hk]; exact h.known, ?_⟩
  · intro p hmem j hj
    obtain ⟨i, hi, hgone⟩ := hp p j hj
    rw [he] at hmem
    exact hgone (h.out p hmem i hi)
  · intro r' hr' p hmem hmay
    obtain ⟨r, hr, hplayers, hpass⟩ := hround r' hr'
    rw [he]
    exact h.passing r hr p (hplayers ▸ hmem) (hpass p hmay)
  · intro r' hr' p hmem
    obtain ⟨r, hr, hplayers, -⟩ := hround r' hr'
    rw [hk]
    exact h.entrants r hr p (hplayers ▸ hmem)

theorem OutInv.of_eq {m m' : Machine} (h : OutInv m) (hs : m'.state = m.state)
    (hr : m'.currentRound = m.currentRound) : OutInv m' := by
  refine h.of_kept (by rw [hs]) (by rw [hs]) (by rw [hs]) ?_ ?_
  · intro p j hj
    exact ⟨j, by rw [← hs]; exact hj, fun hg => hg⟩
  · intro r' hr'
    exact ⟨r', by rw [← hr]; exact hr', rfl, fun _ hg => hg⟩

/-- one player rewritten who, if gone, stays gone -/
theorem OutInv.modify {m m' : Machine} (h : OutInv m) {id : String} {f : PlayerInfo → PlayerInfo}
    (hs : m'.state.survivingPlayerIds = m.state.survivingPlayerIds)
    (he : m'.state.eliminatedPlayerIds = m.state.eliminatedPlayerIds)
    (hp : m'.state.players = m.state.players.modify id f) (hr : m'.currentRound = m.currentRound)
    (hf : ∀ i, m.state.players.get id = some i → Gone i → Gone (f i)) : OutInv m' := by
  refine h.of_kept hs he (by rw [hp, JsMap.keys_modify]) ?_ ?_
  · intro p j hj
    rw [hp, JsMap.get_modify] at hj
    by_cases hid : id = p
    · subst hid
      rw [if_pos rfl] at hj
      obtain ⟨i, hi, rfl⟩ := Option.map_eq_some_iff.1 hj
      exact ⟨i, hi, hf i hi⟩
    · rw [if_neg hid] at hj
      exact ⟨j, hj, fun hg => hg⟩
  · intro r' hr'
    exact ⟨r', by rw [← hr]; exact hr', rfl, fun _ hg => hg⟩

theorem settled_gone {m : Machine} (hw : WireInv m) {round : Round} (hr : m.currentRound = some round) (p : String)
    (j : PlayerInfo) (hj : (m.settledPlayers round).get p = some j) :
    ∃ i, m.state.players.get p = some i ∧ (Gone i → Gone j) ∧ (p ∈ m.losersOf round → Gone j) := by
  rw [settledPlayers, foldl_settle_get round.answers _ (nodup_roundPlayers hw hr) p] at hj
  by_cases hmem : p ∈ m.roundPlayers round
  · rw [if_pos hmem] at hj
    obtain ⟨i, hi, rfl⟩ := Option.map_eq_some_iff.1 hj
    have hstatus := settleInfo_status round.answers p i
    refine ⟨i, hi, fun hg => ?_, fun hl => ?_⟩
    · by_cases hright : answeredRight round.answers p = true
      · rw [if_pos hright] at hstatus
        rw [Gone, hstatus]
        exact hg
      · rw [if_neg hright] at hstatus
        exact .inl hstatus
    · have hwrong := (List.mem_filter.1 hl).2
      rw [Bool.not_eq_true'] at hwrong
      rw [if_neg (by simp [hwrong])] at hstatus
      exact .inl hstatus
  · rw [if_neg hmem] at hj
    exact ⟨j, hj, fun hg => hg, fun hl => absurd (List.mem_filter.1 hl).1 hmem⟩

/-- an evaluation, completed or stuck: only players who may pass stay survivors -/
theorem OutInv.evaluate {m m' : Machine} (h : OutInv m) (hw : WireInv m) {round round' : Round}
    (hr : m.currentRound = some round) (hr' : m'.currentRound = some round')
    (hstart : round'.startingPlayers = round.startingPlayers) (hanswers : round'.answers = round.answers)
    (hclosed : round'.status ≠ .active) (hs : m'.state.survivingPlayerIds = m.survivorsOf round)
    (hp : m'.state.players = m.settledPlayers round) {lost : List String}
    (he : m'.state.eliminatedPlayerIds = m.state.eliminatedPlayerIds ++ lost) (hlost : lost ⊆ m.losersOf round) :
    OutInv m' := by
  have hkeys : m'.state.players.keys = m.state.players.keys := by rw [hp]; exact foldl_settle_keys _ _ _
  have hpassed : ∀ p ∈ m.roundPlayers round, answeredRight round.answers p = true →
      p ∉ m'.state.eliminatedPlayerIds := by
    intro p hmem hright
    rw [he, List.mem_append, not_or]
    refine ⟨h.passing round hr p hmem (.inr hright), fun hl => ?_⟩
    have hwrong := (List.mem_filter.1 (hlost hl)).2
    simp [hright] at hwrong
  have hsub : m'.roundPlayers round' ⊆ m.roundPlayers round := by
    intro p hmem
    rw [roundPlayers, hstart, hs] at hmem
    unfold roundPlayers
    cases hst : round.startingPlayers with
    | some l =>
      rw [hst] at hmem
      exact hmem
    | none =>
      rw [hst] at hmem
      have := (List.mem_filter.1 hmem).1
      rwa [roundPlayers, hst] at this
  refine ⟨?_, ?_, ?_, ?_, ?_⟩
  · intro p hmem j hj
    rw [hp] at hj
    obtain ⟨i, hi, hgone, hl⟩ := settled_gone hw hr p j hj
    rw [he] at hmem
    rcases List.mem_append.1 hmem with hmem | hmem
    · exact hgone (h.out p hmem i hi)
    · exact hl (hlost hmem)
  · intro p hmem
    rw [hs] at hmem
    obtain ⟨hin, hright⟩ := List.mem_filter.1 hmem
    exact hpassed p hin hright
  · intro r hx p hmem hmay
    obtain rfl := Option.some.inj (hr'.symm.trans hx)
    rcases hmay with hact | hright
    · exact absurd hact hclosed
    · rw [hanswers] at hright
      exact hpassed p (hsub hmem) hright
  · intro p hmem
    rw [hs] at hmem
    rw [hkeys]
    exact h.entrants round hr p (List.mem_filter.1 hmem).1
  · intro r hx p hmem
    obtain rfl := Option.some.inj (hr'.symm.trans hx)
    rw [hkeys]
    exact h.entrants round hr p (hsub hmem)

theorem determineWinner_outInv {m : Machine} (h : OutInv m) (now : Clock) : OutInv (m.determineWinner now).1 := by
  obtain ⟨hs, hr, -⟩ := determineWinner_frame m now
  exact h.of_eq hs hr

/-- **A call lets no eliminated player back in.** -/
theorem change_outInv {J : StringOps} {m m' : Machine} {o : Op} (hc : Change J m o m') (hw : WireInv m)
    (h : OutInv m) : OutInv m' := by
  cases hc with
  | transition target now _ =>
    cases target with
    | roundActive =>
      refine h.of_kept rfl rfl rfl (fun p j hj => ⟨j, hj, fun hg => hg⟩) ?_
      intro r hr
      cases hr
    | _ => exact h.of_kept rfl rfl rfl (fun p j hj => ⟨j, hj, fun hg => hg⟩) fun r hr => ⟨r, hr, rfl, fun _ hg => hg⟩
  | startRound q d now _ =>
    refine ⟨h.out, h.surviving, ?_, h.known, ?_⟩
    · intro r hr p hmem _
      obtain rfl := Option.some.inj hr
      exact h.surviving p hmem
    · intro r hr p hmem
      obtain rfl := Option.some.inj hr
      exact h.known p hmem
  | answer round p a ts sid retry now hr hactive _ _ _ =>
    obtain ⟨hst, -⟩ := consumeChance_frame m round p retry (now 0)
    refine h.of_kept (congrArg MatchState.survivingPlayerIds hst) (congrArg MatchState.eliminatedPlayerIds hst)
      (congrArg (fun s => s.players.keys) hst) ?_ ?_
    · intro q j hj
      have hplayers : (m.recordAnswer round (newAnswer J round p a ts sid) retry now).state.players = m.state.players :=
        congrArg MatchState.players hst
      rw [hplayers] at hj
      exact ⟨j, hj, fun hg => hg⟩
    · intro r' hr'
      obtain rfl := Option.some.inj hr'
      exact ⟨round, hr, rfl, fun _ _ => .inl hactive⟩
  | evaluated round now hr _ =>
    exact h.evaluate hw hr rfl rfl rfl (by simp) rfl rfl rfl (List.Subset.refl _)
  | evaluateStuck round now hr _ =>
    exact h.evaluate hw hr rfl rfl rfl (by simp) rfl rfl (List.append_nil _).symm (List.nil_subset _)
  | winner now => exact determineWinner_outInv h now
  | finish now =>
    have hwin := determineWinner_outInv h now
    cases hw' : (m.determineWinner now).2 with
    | none => exact hwin.of_kept rfl rfl rfl (fun p j hj => ⟨j, hj, fun hg => hg⟩) fun r hr => ⟨r, hr, rfl, fun _ hg => hg⟩
    | some w => exact hwin.modify rfl rfl rfl rfl fun i _ _ => .inr rfl
  | offline p player now _ => exact h.modify rfl rfl rfl rfl fun i _ hg => hg
  | disconnect p player now hg hs =>
    refine h.modify rfl rfl rfl rfl fun i hi hgone => ?_
    obtain rfl := Option.some.inj (hg.symm.trans hi)
    rcases hgone with hgone | hgone <;> rw [hs] at hgone <;> cases hgone
  | reconnect p player now hg =>
    refine h.modify rfl rfl rfl rfl fun i hi hgone => ?_
    have hconn : i.status ≠ .disconnected := by
      rcases hgone with hgone | hgone <;> rw [hgone] <;> decide
    simp only [Gone, hconn, if_false]
    exact hgone
  | attach round key hr hactive =>
    refine h.of_kept rfl rfl rfl (fun p j hj => ⟨j, hj, fun hg => hg⟩) ?_
    intro r' hr'
    obtain rfl := Option.some.inj hr'
    exact ⟨round, hr, rfl, fun _ _ => .inl hactive⟩
  | play round p now _ _ _ =>
    obtain ⟨hst, hround⟩ := applyPlay_frame (m.logEvent (.cardResolved (m.resolvedPayload round p)) (now 0)) round p
      (m.eventSeqCounter + 1) now
    exact h.of_eq hst hround
  | same => exact h
  | _ => exact h.of_kept rfl rfl rfl (fun p j hj => ⟨j, hj, fun hg => hg⟩) fun r hr => ⟨r, hr, rfl, fun _ hg => hg⟩

theorem act_outInv (J : StringOps) (m : Machine) (a : Action) (hw : WireInv m) (h : OutInv m) :
    OutInv (m.act J a) := by
  cases a with
  | call o => exact change_outInv (step_change J m o) hw h
  | failover =>
    rcases failover_cases J m hw with hf | hf
    · simp only [act, hf]
      refine h.of_kept rfl rfl rfl (fun p j hj => ⟨j, hj, fun hg => hg⟩) ?_
      intro r' hr'
      obtain ⟨r, hr, rfl⟩ := Option.map_eq_some_iff.1 hr'
      exact ⟨r, hr, rfl, fun _ hg => hg⟩
    · simp only [act, hf]
      exact h

end Machine

end Arena.GameCore
