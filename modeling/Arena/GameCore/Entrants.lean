/-
Who may answer a round, in every order of calls that evaluates a round only while it is ACTIVE, finishes and failovers
included.

While a round is ACTIVE its starting players are the survivors, a player who is not ELIMINATED and has not won is one of
them whether connected or not, and so only starting players have an answer.

- `act_entrantInv`: a call or a failover keeps this;
- `EntrantInv.full_iff`: as many answers as starting players are an answer of each of them.
-/
import Arena.GameCore.Phases
import Arena.GameCore.Eliminated

namespace Arena.GameCore

open Arena.Lib Arena.Shared

namespace Machine

/-! ## Invariant -/

structure EntrantInv (m : Machine) : Prop where
  wire : WireInv m
  snapshot : SnapshotInv m
  present : ∀ p i, m.state.players.get p = some i → Gone i ∨ p ∈ m.state.survivingPlayerIds
  answered : ∀ r, m.currentRound = some r → r.status = .active →
    ∀ p, (r.answers.get p).isSome → p ∈ m.state.survivingPlayerIds

theorem entrantInv_create (matchId roomId : String) (players : List PlayerInfo)
    (hd : (players.map PlayerInfo.id).Nodup) : EntrantInv (Machine.create matchId roomId players) where
  wire := wireInv_create matchId roomId players hd
  snapshot := snapshotInv_create matchId roomId players
  present := fun p i hi => by
    have hmem := (JsMap.mem_keys _ _).2 ⟨i, hi⟩
    rw [create_keys matchId roomId players hd] at hmem
    exact .inr hmem
  answered := fun r hr => by cases hr

/-- an ACTIVE player survives -/
theorem EntrantInv.active_survives {m : Machine} (h : EntrantInv m) (p : String)
    (hp : (m.state.players.get p).map PlayerInfo.status = some .active) : p ∈ m.state.survivingPlayerIds := by
  obtain ⟨i, hi, hactive⟩ := Option.map_eq_some_iff.1 hp
  rcases h.present p i hi with hgone | hin
  · rcases hgone with hgone | hgone <;> rw [hactive] at hgone <;> cases hgone
  · exact hin

/-! ## One step -/

/-- one player rewritten who, if gone, stays gone -/
theorem present_modify {m m' : Machine} {id : String} {f : PlayerInfo → PlayerInfo}
    (h : ∀ p i, m.state.players.get p = some i → Gone i ∨ p ∈ m.state.survivingPlayerIds)
    (hs : m'.state.survivingPlayerIds = m.state.survivingPlayerIds)
    (hp : m'.state.players = m.state.players.modify id f)
    (hf : ∀ i, m.state.players.get id = some i → Gone i → Gone (f i)) (p : String) (j : PlayerInfo)
    (hj : m'.state.players.get p = some j) : Gone j ∨ p ∈ m'.state.survivingPlayerIds := by
  rw [hp, JsMap.get_modify] at hj
  rw [hs]
  by_cases hid : id = p
  · subst hid
    rw [if_pos rfl] at hj
    obtain ⟨i, hi, rfl⟩ := Option.map_eq_some_iff.1 hj
    exact (h id i hi).imp (hf i hi) fun hin => hin
  · rw [if_neg hid] at hj
    exact h p j hj

/-- an evaluation of an ACTIVE round lets the rest of the survivors go -/
theorem EntrantInv.settled {m : Machine} (h : EntrantInv m) {round : Round} {now : Clock}
    (hr : m.currentRound = some round) (hg : EvalOnce m (.call (.evaluateRound now))) (p : String) (j : PlayerInfo)
    (hj : (m.settledPlayers round).get p = some j) : Gone j ∨ p ∈ m.survivorsOf round := by
  obtain ⟨i, hi, hgone, hlost⟩ := settled_gone h.wire hr p j hj
  rcases h.present p i hi with hout | hin
  · exact .inl (hgone hout)
  · rw [← h.snapshot.roundPlayers hg hr] at hin
    by_cases hright : answeredRight round.answers p = true
    · exact .inr (List.mem_filter.2 ⟨hin, hright⟩)
    · exact .inl (hlost (List.mem_filter.2 ⟨hin, by simpa using hright⟩))

theorem change_present {J : StringOps} {m m' : Machine} {o : Op} (hc : Change J m o m') (hg : EvalOnce m (.call o))
    (h : EntrantInv m) : ∀ p i, m'.state.players.get p = some i → Gone i ∨ p ∈ m'.state.survivingPlayerIds := by
  have same : m'.state.players = m.state.players → m'.state.survivingPlayerIds = m.state.survivingPlayerIds →
      ∀ p i, m'.state.players.get p = some i → Gone i ∨ p ∈ m'.state.survivingPlayerIds := by
    intro hp hs
    rw [hp, hs]
    exact h.present
  cases hc with
  | answer round p a ts sid retry now _ _ _ _ _ =>
    obtain ⟨hst, -⟩ := consumeChance_frame m round p retry (now 0)
    exact same (congrArg MatchState.players hst) (congrArg MatchState.survivingPlayerIds hst)
  | evaluated round now hr _ => exact h.settled hr hg
  | evaluateStuck round now hr _ => exact h.settled hr hg
  | winner now =>
    have hst := (determineWinner_frame m now).1
    exact same (congrArg MatchState.players hst) (congrArg MatchState.survivingPlayerIds hst)
  | finish now =>
    have hwin : ∀ p i, (m.determineWinner now).1.state.players.get p = some i →
        Gone i ∨ p ∈ (m.determineWinner now).1.state.survivingPlayerIds := by
      rw [(determineWinner_frame m now).1]
      exact h.present
    cases (m.determineWinner now).2 with
    | none => exact hwin
    | some w => exact present_modify hwin rfl rfl fun i _ _ => .inr rfl
  | offline p player now _ => exact present_modify h.present rfl rfl fun i _ hg => hg
  | disconnect p player now hget hs =>
    refine present_modify h.present rfl rfl fun i hi hgone => ?_
    obtain rfl := Option.some.inj (hget.symm.trans hi)
    rcases hgone with hgone | hgone <;> rw [hs] at hgone <;> cases hgone
  | reconnect p player now hget =>
    refine present_modify h.present rfl rfl fun i hi hgone => ?_
    have hconn : i.status ≠ .disconnected := by
      rcases hgone with hgone | hgone <;> rw [hgone] <;> decide
    simp only [Gone, hconn, if_false]
    exact hgone
  | play round p now _ _ _ =>
    have hst := (applyPlay_frame (m.logEvent (.cardResolved (m.resolvedPayload round p)) (now 0)) round p
      (m.eventSeqCounter + 1) now).1
    exact same (congrArg MatchState.players hst) (congrArg MatchState.survivingPlayerIds hst)
  | transition target now _ => cases target <;> exact same rfl rfl
  | same => exact h.present
  | _ => exact same rfl rfl

/-- **A call or a failover keeps the entrants of the round.** -/
theorem act_entrantInv (J : StringOps) (m : Machine) (a : Action) (hg : EvalOnce m a) (h : EntrantInv m) :
    EntrantInv (m.act J a) := by
  refine ⟨act_wireInv J m a h.wire, act_snapshotInv J m a hg h.wire h.snapshot, ?_, ?_⟩
  · cases a with
    | call o => exact change_present (step_change J m o) hg h
    | failover =>
      rcases failover_cases J m h.wire with hf | hf <;> simp only [act, hf] <;> exact h.present
  · cases a with
    | call o => exact change_answered (step_change J m o) h.active_survives h.answered
    | failover =>
      rcases failover_cases J m h.wire with hf | hf <;> simp only [act, hf]
      · intro r hr hactive
        obtain ⟨x, hx, rfl⟩ := Option.map_eq_some_iff.1 hr
        exact h.answered x hx hactive
      · exact h.answered

/-- a round that is ACTIVE after a call was so before, unless the call started it, with the same survivors -/
theorem change_active {J : StringOps} {m m' : Machine} {o : Op} (hc : Change J m o m')
    (hs : ∀ q d now, o ≠ .startRound q d now) {r' : Round} (hr' : m'.currentRound = some r') (ha : r'.status = .active) :
    (∃ r, m.currentRound = some r ∧ r.status = .active) ∧
      m'.state.survivingPlayerIds = m.state.survivingPlayerIds := by
  cases hc with
  | transition target now _ =>
    cases target with
    | roundActive => cases hr'
    | _ => exact ⟨⟨r', hr', ha⟩, rfl⟩
  | startRound q d now _ => exact absurd rfl (hs q d now)
  | answer round p a ts sid retry now hr hactive _ _ _ =>
    obtain ⟨hst, -⟩ := consumeChance_frame m round p retry (now 0)
    exact ⟨⟨round, hr, hactive⟩, congrArg MatchState.survivingPlayerIds hst⟩
  | evaluated round now _ _ =>
    obtain rfl := Option.some.inj hr'
    cases ha
  | evaluateStuck round now _ _ =>
    obtain rfl := Option.some.inj hr'
    cases ha
  | winner now =>
    obtain ⟨hst, hround, -⟩ := determineWinner_frame m now
    exact ⟨⟨r', hround ▸ hr', ha⟩, congrArg MatchState.survivingPlayerIds hst⟩
  | finish now =>
    obtain ⟨hst, hround, -⟩ := determineWinner_frame m now
    have hsurv : (m.determineWinner now).1.state.survivingPlayerIds = m.state.survivingPlayerIds := by rw [hst]
    exact ⟨⟨r', hround ▸ hr', ha⟩, hsurv⟩
  | attach round key hr hactive => exact ⟨⟨round, hr, hactive⟩, rfl⟩
  | play round p now _ _ _ =>
    obtain ⟨hst, hround⟩ := applyPlay_frame (m.logEvent (.cardResolved (m.resolvedPayload round p)) (now 0)) round p
      (m.eventSeqCounter + 1) now
    exact ⟨⟨r', hround ▸ hr', ha⟩, congrArg MatchState.survivingPlayerIds hst⟩
  | _ => exact ⟨⟨r', hr', ha⟩, rfl⟩

/-! ## Full answers -/

/-- **As many answers as starting players are an answer of each of them.** -/
theorem EntrantInv.full_iff {m : Machine} (h : EntrantInv m) {r : Round} (hr : m.currentRound = some r)
    (ha : r.status = .active) : m.state.survivingPlayerIds.length ≤ r.answers.size ↔
      ∀ p ∈ m.state.survivingPlayerIds, (r.answers.get p).isSome :=
  answers_full_iff h.wire.surviving (h.answered r hr ha)

end Machine

end Arena.GameCore
