/-
The round's snapshot of starting players against the live survivor list.

`evaluateRound` partitions the snapshot `startRound` took, not the survivors. The two agree while the round is ACTIVE,
because only an evaluation changes the survivors and every evaluation takes the round out of ACTIVE for good. Hence the
callers' order `EvalOnce`: evaluating a round while it is ACTIVE is evaluating it at most once after its start.

- `SnapshotInv.round`: an ACTIVE round's snapshot is the survivor list;
- `SnapshotInv.frozen`: the elimination list is frozen only once no survivor is left, so an evaluation that throws on it
  has nobody to move;
- `act_snapshotInv`: every call and failover in that order keeps both.
-/
import Arena.GameCore.Codec

namespace Arena.GameCore

open Arena.Lib Arena.Shared

namespace Machine

/-- a started round is evaluated at most once -/
def EvalOnce (m : Machine) : Action → Prop
  | .call (.evaluateRound _) => ∀ r, m.currentRound = some r → r.status = .active
  | _ => True

/-- `EvalOnce` as a test on the current round -/
def evalOnce (m : Machine) : Action → Bool
  | .call (.evaluateRound _) => m.currentRound.all fun r => r.status = .active
  | _ => true

theorem evalOnce_iff (m : Machine) (a : Action) : m.evalOnce a = true ↔ EvalOnce m a := by
  unfold evalOnce EvalOnce
  split
  · simp [Option.all_eq_true]
  · simp

instance (m : Machine) (a : Action) : Decidable (EvalOnce m a) := decidable_of_iff _ (evalOnce_iff m a)

structure SnapshotInv (m : Machine) : Prop where
  round : ∀ r, m.currentRound = some r → r.status = .active → r.startingPlayers = some m.state.survivingPlayerIds
  taken : ∀ r, m.currentRound = some r → r.startingPlayers ≠ none
  frozen : m.eliminatedFrozen = true → m.state.survivingPlayerIds = []

theorem snapshotInv_create (matchId roomId : String) (players : List PlayerInfo) :
    SnapshotInv (Machine.create matchId roomId players) := by
  have hr : (Machine.create matchId roomId players).currentRound = none := rfl
  refine ⟨?_, ?_, ?_⟩
  · intro r h
    rw [hr] at h
    cases h
  · intro r h
    rw [hr] at h
    cases h
  · intro h
    cases h

/-- the evaluated round's players are the survivors -/
theorem SnapshotInv.roundPlayers {m : Machine} (h : SnapshotInv m) {round : Round} {now : Clock}
    (hg : EvalOnce m (.call (.evaluateRound now))) (hr : m.currentRound = some round) :
    m.roundPlayers round = m.state.survivingPlayerIds := by
  unfold Machine.roundPlayers
  rw [h.round round hr (hg round hr)]
  rfl

/-- a frozen list meets only rounds nobody plays in -/
theorem SnapshotInv.stuck_round {m : Machine} (h : SnapshotInv m) {round : Round} {now : Clock}
    (hg : EvalOnce m (.call (.evaluateRound now))) (hr : m.currentRound = some round)
    (hf : m.eliminatedFrozen = true) : m.roundPlayers round = [] := by
  rw [h.roundPlayers hg hr]
  exact h.frozen hf

/-- the round rewritten but for its status and snapshot -/
theorem SnapshotInv.update_round {m m' : Machine} (h : SnapshotInv m) {r r' : Round} (hr : m.currentRound = some r)
    (hr' : m'.currentRound = some r') (hst : r'.status = r.status) (hsp : r'.startingPlayers = r.startingPlayers)
    (hs : m'.state = m.state) (hf : m'.eliminatedFrozen = m.eliminatedFrozen) : SnapshotInv m' := by
  refine ⟨?_, ?_, ?_⟩
  · intro x hx hact
    obtain rfl : r' = x := Option.some.inj (hr'.symm.trans hx)
    rw [hsp, hs]
    exact h.round r hr (hst ▸ hact)
  · intro x hx
    obtain rfl : r' = x := Option.some.inj (hr'.symm.trans hx)
    rw [hsp]
    exact h.taken r hr
  · rw [hs, hf]
    exact h.frozen

/-- the round closed by an evaluation -/
theorem SnapshotInv.close_round {m m' : Machine} (h : SnapshotInv m) {r r' : Round} (hr : m.currentRound = some r)
    (hr' : m'.currentRound = some r') (hst : r'.status ≠ .active) (hsp : r'.startingPlayers = r.startingPlayers)
    (hf : m'.eliminatedFrozen = true → m'.state.survivingPlayerIds = []) : SnapshotInv m' := by
  refine ⟨?_, ?_, hf⟩
  · intro x hx hact
    obtain rfl : r' = x := Option.some.inj (hr'.symm.trans hx)
    exact absurd hact hst
  · intro x hx
    obtain rfl : r' = x := Option.some.inj (hr'.symm.trans hx)
    rw [hsp]
    exact h.taken r hr

theorem SnapshotInv.of_eq {m m' : Machine} (h : SnapshotInv m)
    (hs : m'.state.survivingPlayerIds = m.state.survivingPlayerIds) (hr : m'.currentRound = m.currentRound)
    (hf : m'.eliminatedFrozen = m.eliminatedFrozen) : SnapshotInv m' := by
  refine ⟨?_, ?_, ?_⟩
  · rw [hr, hs]; exact h.round
  · rw [hr]; exact h.taken
  · rw [hf, hs]; exact h.frozen

theorem determineWinner_snapshotInv {m : Machine} (h : SnapshotInv m) (now : Clock) :
    SnapshotInv (m.determineWinner now).1 := by
  obtain ⟨hs, hr, -⟩ := determineWinner_frame m now
  refine ⟨by rw [hr, hs]; exact h.round, by rw [hr]; exact h.taken, ?_⟩
  rw [hs]
  -- only the branch without survivors freezes the list
  unfold determineWinner
  split
  · exact h.frozen
  · rename_i heq
    intro _
    exact heq
  · intro hfr
    simp only [tieBreak] at hfr
    split_ifs at hfr
    · exact h.frozen hfr
    · exact h.frozen hfr

/-- a call keeps the snapshot, if a stuck evaluation finds nobody to let through -/
theorem change_snapshotInv_of {J : StringOps} {m m' : Machine} {o : Op} (hc : Change J m o m')
    (hstuck : ∀ round now, o = .evaluateRound now → m.currentRound = some round → m.eliminatedFrozen = true →
      m.survivorsOf round = []) (h : SnapshotInv m) : SnapshotInv m' := by
  cases hc with
  | transition target now _ =>
    cases target with
    | roundActive =>
      refine ⟨?_, ?_, h.frozen⟩
      · intro r hr
        cases hr
      · intro r hr
        cases hr
    | _ => exact h.of_eq rfl rfl rfl
  | startRound q d now _ =>
    refine ⟨?_, ?_, h.frozen⟩
    · intro r hr _
      obtain rfl := Option.some.inj hr
      rfl
    · intro r hr
      obtain rfl := Option.some.inj hr
      exact Option.some_ne_none _
  | answer round p a ts sid retry now hr _ _ _ _ =>
    obtain ⟨hs, -⟩ := consumeChance_frame m round p retry (now 0)
    refine h.update_round hr rfl rfl rfl hs ?_
    simp only [recordAnswer, consumeChance]
    split_ifs <;> rfl
  | evaluated round now hr hf =>
    refine h.close_round hr rfl (by simp) rfl ?_
    intro hfr
    exact absurd (hf.symm.trans hfr) (by decide)
  | evaluateStuck round now hr hf =>
    refine h.close_round hr rfl (by simp) rfl ?_
    intro _
    exact hstuck round now rfl hr hf
  | winner now => exact determineWinner_snapshotInv h now
  | finish now => exact (determineWinner_snapshotInv h now).of_eq rfl rfl rfl
  | attach round key hr _ => exact h.update_round hr rfl rfl rfl rfl rfl
  | play round p now hr _ _ =>
    obtain ⟨hs, hr'⟩ := applyPlay_frame (m.logEvent (.cardResolved (m.resolvedPayload round p)) (now 0)) round p
      (m.eventSeqCounter + 1) now
    refine h.update_round hr (hr'.trans hr) rfl rfl hs ?_
    simp only [applyPlay]
    split_ifs <;> rfl
  | _ => exact h.of_eq rfl rfl rfl

theorem change_snapshotInv {J : StringOps} {m m' : Machine} {o : Op} (hc : Change J m o m')
    (hg : EvalOnce m (.call o)) (h : SnapshotInv m) : SnapshotInv m' := by
  apply change_snapshotInv_of hc _ h
  rintro round now rfl hr hf
  rw [survivorsOf, h.stuck_round hg hr hf]
  rfl

theorem recovered_snapshotInv {m : Machine} (h : SnapshotInv m) : SnapshotInv m.recovered := by
  refine ⟨?_, ?_, nofun⟩
  · intro r hr hact
    obtain ⟨x, hx, rfl⟩ := Option.map_eq_some_iff.1 hr
    exact h.round x hx hact
  · intro r hr
    obtain ⟨x, hx, rfl⟩ := Option.map_eq_some_iff.1 hr
    exact h.taken x hx

theorem act_snapshotInv (J : StringOps) (m : Machine) (a : Action) (hg : EvalOnce m a) (hw : WireInv m)
    (h : SnapshotInv m) : SnapshotInv (m.act J a) := by
  cases a with
  | call o => exact change_snapshotInv (step_change J m o) hg h
  | failover =>
    rcases failover_cases J m hw with hf | hf
    · rw [act, hf]; exact recovered_snapshotInv h
    · rw [act, hf]; exact h

end Machine

end Arena.GameCore
