/-
One launch at a time: `launchRoomMatch` of a room by any number of callers, over every interleaving with each other and
with the joins, leaves and countdown writes of the room.

The launch lock hands the room to one caller, and the room row then follows the stages of that caller until it returns or
reverts. Four writes do not look at the row first: WAITING for too few players (`validateRoomForLaunch`), the revert of
a caller whose lock transaction failed (`revertRoomStatusToWaiting`), the writes of the lobby countdown, and FINISHED when
`launchMatchedGame` gives up.

- `LaunchInv`, `step_launchInv`: while these writes meet a room that could be launched, at most one caller holds the
  launch, and the row says so;
- `launches_exclusive`: then a second match is created only after the earlier ones were rolled back, nobody overwrites
  the room of another's launch, and after a launch the room is IN_GAME with its match;
- `two_matches_live`: a caller whose lock transaction fails puts the room of a running match back to WAITING, and the next
  launch creates a second one.
-/
import Arena.Api.Lobby

namespace Arena.Api.Lobby

open Arena.Lib

/-! ## Statement -/

/-- whether a task has claimed the room for its launch and has not given it back -/
def holding : Option RoomTask → Bool
  | some (.launch (.revert true)) => true
  | some (.launch stage) => stage.stands
  | _ => false

/-- a launch that created a match and has not been rolled back by its caller -/
def Live (s : Lobby) (t : ℕ) : Prop :=
  t ∈ s.matchRows.map Prod.fst ∧ s.tasks t ≠ some (.launch (.returned false))

/-- a step creates no second match, and whoever does not hold the launch leaves a launched room alone -/
structure Exclusive (s : Lobby) (o : RoomOp) : Prop where
  created : (step s o).matchRows ≠ s.matchRows → ∀ t, ¬Live s t
  kept : (∀ t fails, o = .task t fails → holding (s.tasks t) = false) → s.launchable = false →
    (step s o).status = s.status ∧ (step s o).currentMatchId = s.currentMatchId

/-- whether the next statement of a task writes the row without having claimed the room -/
def writesUnclaimed (fails : Bool) : RoomTask → Bool
  | .launch .rejectCountdown | .lobby .start | .lobby .stop => !fails
  | .launch (.revert false) => true
  | _ => false

/-- such a write meets a room that the launch lock would accept -/
def MeetsLaunchable (s : Lobby) : RoomOp → Prop
  | .task t fails => (s.tasks t).any (writesUnclaimed fails) = true → s.lock = none → s.launchable = true
  | .closeMatchedRoom => s.lock = none → s.launchable = true
  | _ => True

instance (s : Lobby) : (o : RoomOp) → Decidable (MeetsLaunchable s o)
  | .task t fails =>
    inferInstanceAs (Decidable ((s.tasks t).any (writesUnclaimed fails) = true → s.lock = none → s.launchable = true))
  | .closeMatchedRoom => inferInstanceAs (Decidable (s.lock = none → s.launchable = true))
  | .joinRoom _ _ | .leaveRoom _ | .insertPlayer _ | .launchRoomMatch _ | .maybeStartPublicCountdown _
  | .handleRoomPlayerLeft _ _ | .abortRecovery => .isTrue trivial

/-! ## The row follows the holder -/

/-- the room row at a stage of its launch -/
def RowOf (t : ℕ) (status : RoomStatus) (currentMatchId : Option ℕ) : Option RoomTask → Prop
  | some (.launch .claimRoom) => (status = .waiting ∨ status = .countdown) ∧ currentMatchId = none
  | some (.launch .readRoster) | some (.launch (.insertMatch _)) | some (.launch (.updateRoom _)) =>
    status = .starting ∧ currentMatchId = none
  | some (.launch .acquireOwnership) | some (.launch .startMatchLoop) =>
    status = .starting ∧ currentMatchId = some t
  | some (.launch .runMatchLoop) | some (.launch (.returned true)) => status = .inGame ∧ currentMatchId = some t
  | some (.launch .cleanup) | some (.launch (.revert true)) => status = .starting ∨ status = .inGame
  | _ => True

def created : Option RoomTask → Bool
  | some (.launch stage) => stage.created
  | _ => false

structure LaunchInv (s : Lobby) : Prop where
  holds : Holds s.lock s.tasks
  row : ∀ t, RowOf t s.status s.currentMatchId (s.tasks t)
  single : ∀ t t', holding (s.tasks t) = true → holding (s.tasks t') = true → t = t'
  rows : ∀ m ∈ s.matchRows, created (s.tasks m.1) = true

theorem launchable_iff (s : Lobby) :
    s.launchable = true ↔ (s.status = .waiting ∨ s.status = .countdown) ∧ s.currentMatchId = none := by
  simp [launchable]

section Holder

variable {s s' : Lobby} {t : ℕ}

theorem RowOf.launched {status : RoomStatus} {currentMatchId : Option ℕ} {stage : LaunchStage}
    (h : RowOf t status currentMatchId (some (.launch stage))) (hh : holding (some (.launch stage)) = true) :
    status = .starting ∨ status = .inGame := by
  cases stage with
  | readRoster => exact .inl h.1
  | insertMatch => exact .inl h.1
  | updateRoom => exact .inl h.1
  | acquireOwnership => exact .inl h.1
  | startMatchLoop => exact .inl h.1
  | runMatchLoop => exact .inr h.1
  | cleanup => exact h
  | revert claimed =>
    cases claimed with
    | true => exact h
    | false => cases hh
  | returned launched =>
    cases launched with
    | true => exact .inr h.1
    | false => cases hh
  | _ => cases hh

/-- only a launch holds a launch -/
theorem holding_launch {task : Option RoomTask} (h : holding task = true) : ∃ stage, task = some (.launch stage) := by
  cases task with
  | none => cases h
  | some task =>
    cases task with
    | launch stage => exact ⟨stage, rfl⟩
    | join u stage => cases h
    | lobby stage => cases h

/-- nobody holds the launch of a room that could be launched -/
theorem LaunchInv.unheld (h : LaunchInv s) (hl : s.launchable = true) (t : ℕ) : holding (s.tasks t) = false := by
  by_contra hh
  rw [Bool.not_eq_false] at hh
  obtain ⟨stage, htask⟩ := holding_launch hh
  have hrow := h.row t
  rw [htask] at hrow hh
  obtain ⟨hstatus, -⟩ := (launchable_iff s).1 hl
  rcases hrow.launched hh with hs | hs
  · rw [hs] at hstatus
    simp at hstatus
  · rw [hs] at hstatus
    simp at hstatus

/-- a task that neither holds the launch nor is about to claim it says nothing of the row -/
theorem rowOf_free {status : RoomStatus} {currentMatchId : Option ℕ} {task : Option RoomTask}
    (hh : holding task = false) (hc : task ≠ some (.launch .claimRoom)) : RowOf t status currentMatchId task := by
  cases task with
  | none => trivial
  | some task =>
    cases task with
    | join u stage => trivial
    | lobby stage => trivial
    | launch stage =>
      cases stage with
      | claimRoom => exact absurd rfl hc
      | validate status players => trivial
      | rejectCountdown => trivial
      | lockRoom => trivial
      | revert claimed =>
        cases claimed with
        | true => cases hh
        | false => trivial
      | returned launched =>
        cases launched with
        | true => cases hh
        | false => trivial
      | _ => cases hh

/-- a step of `t` that leaves the room row alone -/
theorem LaunchInv.keep (h : LaunchInv s) (hh : Holds s'.lock s'.tasks) (hs : s'.status = s.status)
    (hc : s'.currentMatchId = s.currentMatchId) (hm : s'.matchRows = s.matchRows) {new : Option RoomTask}
    (ht : s'.tasks = Function.update s.tasks t new) (hhold : holding new = holding (s.tasks t))
    (hrow : RowOf t s.status s.currentMatchId new) (hcr : created (s.tasks t) = true → created new = true) :
    LaunchInv s' := by
  have hholding : ∀ k, holding (s'.tasks k) = holding (s.tasks k) := by
    intro k
    rw [ht, Function.update_apply]
    split_ifs with heq
    · rw [heq, hhold]
    · rfl
  refine ⟨hh, ?_, ?_, ?_⟩
  · intro k
    rw [hs, hc, ht, Function.update_apply]
    split_ifs with heq
    · exact heq ▸ hrow
    · exact h.row k
  · intro k k' hk hk'
    rw [hholding] at hk hk'
    exact h.single k k' hk hk'
  · intro m hmem
    rw [hm] at hmem
    rw [ht, Function.update_apply]
    split_ifs with heq
    · exact hcr (heq ▸ h.rows m hmem)
    · exact h.rows m hmem

/-- a step of `t` that writes the row while no other task holds the launch or the lock -/
theorem LaunchInv.write (h : LaunchInv s) (hh : Holds s'.lock s'.tasks) {new : Option RoomTask}
    (ht : s'.tasks = Function.update s.tasks t new) (hothers : ∀ k, k ≠ t → holding (s.tasks k) = false)
    (hclaims : ∀ k, k ≠ t → s.tasks k ≠ some (.launch .claimRoom)) (hrow : RowOf t s'.status s'.currentMatchId new)
    (hrows : ∀ m ∈ s'.matchRows, m ∈ s.matchRows ∨ m.1 = t) (hcr : created new = true ∨ created (s.tasks t) = false ∧
      ∀ m ∈ s'.matchRows, m ∈ s.matchRows) : LaunchInv s' := by
  have hholding : ∀ k, holding (s'.tasks k) = true → k = t := by
    intro k hk
    by_contra hne
    rw [ht, Function.update_of_ne hne, hothers k hne] at hk
    cases hk
  refine ⟨hh, ?_, ?_, ?_⟩
  · intro k
    rw [ht, Function.update_apply]
    split_ifs with heq
    · exact heq ▸ hrow
    · exact rowOf_free (hothers k heq) (hclaims k heq)
  · intro k k' hk hk'
    rw [hholding k hk, hholding k' hk']
  · intro m hmem
    rw [ht, Function.update_apply]
    split_ifs with heq
    · rcases hcr with hn | ⟨hnot, hold⟩
      · exact hn
      · have hcreated := h.rows m (hold m hmem)
        rw [heq, hnot] at hcreated
        cases hcreated
    · rcases hrows m hmem with hold | hmt
      · exact h.rows m hold
      · exact absurd hmt heq

/-- with the row unlocked nobody is about to claim -/
theorem LaunchInv.no_claim (h : LaunchInv s) (hl : s.lock = none ∨ s.lock = some t) (k : ℕ) (hk : k ≠ t) :
    s.tasks k ≠ some (.launch .claimRoom) := by
  intro hc
  have hlock := h.holds k _ hc rfl
  rcases hl with hl | hl
  · rw [hl] at hlock
    cases hlock
  · rw [hl] at hlock
    exact hk (Option.some.inj hlock).symm

/-- a match whose launch was not rolled back is its holder's -/
theorem created_holding {task : Option RoomTask} (h : created task = true) (hne : task ≠ some (.launch (.returned false))) :
    holding task = true := by
  cases task with
  | none => cases h
  | some task =>
    cases task with
    | join u stage => cases h
    | lobby stage => cases h
    | launch stage =>
      cases stage with
      | acquireOwnership => rfl
      | startMatchLoop => rfl
      | runMatchLoop => rfl
      | cleanup => rfl
      | revert claimed =>
        cases claimed with
        | true => rfl
        | false => cases h
      | returned launched =>
        cases launched with
        | true => rfl
        | false => exact absurd rfl hne
      | _ => cases h

theorem LaunchInv.live_holds (h : LaunchInv s) {k : ℕ} (hk : Live s k) : holding (s.tasks k) = true := by
  obtain ⟨m, hm, rfl⟩ := List.mem_map.1 hk.1
  exact created_holding (h.rows m hm) hk.2

theorem LaunchInv.others (h : LaunchInv s) (ht : holding (s.tasks t) = true) (k : ℕ) (hk : k ≠ t) :
    holding (s.tasks k) = false := by
  by_contra hh
  rw [Bool.not_eq_false] at hh
  exact hk (h.single k t hh ht)

/-- the facts of a step of launch caller `t` -/
structure LaunchStep (s : Lobby) (t : ℕ) (s' : Lobby) : Prop where
  inv : LaunchInv s'
  created : s'.matchRows ≠ s.matchRows → ∀ k, ¬Live s k
  kept : holding (s.tasks t) = false → s.launchable = false →
    s'.status = s.status ∧ s'.currentMatchId = s.currentMatchId

theorem LaunchInv.advance (h : LaunchInv s) {stage next : LaunchStage} (htask : s.tasks t = some (.launch stage))
    (hadv : Advance s stage next) (hh : Holds s.lock (Function.update s.tasks t (some (.launch next)))) :
    LaunchInv (s.launchAt t next) := by
  have hrow := h.row t
  have hplain : holding (some (.launch next)) = holding (some (.launch stage)) →
      RowOf t s.status s.currentMatchId (some (.launch next)) →
      (created (some (.launch stage)) = true → created (some (.launch next)) = true) →
      LaunchInv (s.launchAt t next) := by
    intro hhold hnext hcr
    rw [← htask] at hhold hcr
    exact h.keep hh rfl rfl rfl rfl hhold hnext hcr
  rw [htask] at hrow
  cases hadv with
  | validated status players _ hn =>
    rcases hn with rfl | rfl | rfl
    · exact hplain rfl trivial fun _ => rfl
    · exact hplain rfl trivial fun hc => hc
    · exact hplain rfl trivial fun hc => hc
  | rejectFailed => exact hplain rfl trivial fun _ => rfl
  | lockFailed => exact hplain rfl trivial fun hc => hc
  | lost => exact hplain rfl trivial fun _ => rfl
  | rosterFailed => exact hplain rfl (.inl hrow.1) fun _ => rfl
  | roster => exact hplain rfl hrow fun hc => hc
  | insertFailed roster => exact hplain rfl (.inl hrow.1) fun _ => rfl
  | inserted roster => exact hplain rfl hrow fun hc => hc
  | updateFailed roster => exact hplain rfl (.inl hrow.1) fun _ => rfl
  | owned => exact hplain rfl hrow fun hc => hc
  | loopFailed _ hs =>
    rcases hs with rfl | rfl | rfl
    · exact hplain rfl (.inl hrow.1) fun _ => rfl
    · exact hplain rfl (.inl hrow.1) fun _ => rfl
    · exact hplain rfl (.inr hrow.1) fun _ => rfl
  | launched => exact hplain rfl hrow fun hc => hc
  | cleaned => exact hplain rfl hrow fun hc => hc

theorem LaunchInv.launch (h : LaunchInv s) {stage : LaunchStage} {fails : Bool}
    (htask : s.tasks t = some (.launch stage)) (hm : LaunchMove s t fails stage s') (hh : Holds s'.lock s'.tasks)
    (hq : MeetsLaunchable s (.task t fails)) : LaunchStep s t s' := by
  have hrow := h.row t
  have hunclaimed : writesUnclaimed fails (.launch stage) = true → s.lock = none → s.launchable = true := by
    intro hw
    exact hq (by rw [htask]; exact hw)
  cases hm with
  | stays => exact ⟨h, fun hne => absurd rfl hne, fun _ _ => ⟨rfl, rfl⟩⟩
  | advances _ next hadv => exact ⟨h.advance htask hadv hh, fun hne => absurd rfl hne, fun _ _ => ⟨rfl, rfl⟩⟩
  | rejects hf hl =>
    have hlaunch := hunclaimed (by simp [writesUnclaimed, hf]) hl
    refine ⟨h.write hh rfl (fun k _ => h.unheld hlaunch k) (h.no_claim (.inl hl)) trivial
      (fun _ hmem => .inl hmem) (.inl rfl), fun hne => absurd rfl hne, fun _ hnot => ?_⟩
    rw [hlaunch] at hnot
    cases hnot
  | locks hl hs =>
    refine ⟨h.keep hh rfl rfl rfl rfl (by rw [htask]; rfl) ((launchable_iff s).1 hs) (by rw [htask]; exact fun hc => hc),
      fun hne => absurd rfl hne, fun _ _ => ⟨rfl, rfl⟩⟩
  | unlocks =>
    refine ⟨h.keep hh rfl rfl rfl rfl (by rw [htask]; rfl) trivial (by rw [htask]; exact fun hc => hc),
      fun hne => absurd rfl hne, fun _ _ => ⟨rfl, rfl⟩⟩
  | claims =>
    rw [htask] at hrow
    have hlaunch : s.launchable = true := (launchable_iff s).2 hrow
    have hlock := h.holds t _ htask rfl
    refine ⟨h.write hh rfl (fun k _ => h.unheld hlaunch k) (h.no_claim (.inr hlock)) ⟨rfl, hrow.2⟩
      (fun _ hmem => .inl hmem) (.inr ⟨by rw [htask]; rfl, fun _ hmem => hmem⟩), fun hne => absurd rfl hne,
      fun _ hnot => ?_⟩
    rw [hlaunch] at hnot
    cases hnot
  | creates roster hl =>
    have hholds : holding (s.tasks t) = true := by rw [htask]; rfl
    refine ⟨h.write hh rfl (h.others hholds) (h.no_claim (.inl hl)) ⟨rfl, rfl⟩ ?_ (.inl rfl), ?_, ?_⟩
    · intro m hmem
      rcases List.mem_append.1 hmem with hold | hnew
      · exact .inl hold
      · exact .inr (by rw [List.mem_singleton.1 hnew])
    · intro _ k hlive
      have hk : k = t := h.single k t (h.live_holds hlive) hholds
      subst hk
      obtain ⟨m, hmem, heq⟩ := List.mem_map.1 hlive.1
      have hcreated := h.rows m hmem
      rw [heq, htask] at hcreated
      cases hcreated
    · intro hnot
      rw [hholds] at hnot
      cases hnot
  | starts hl =>
    have hholds : holding (s.tasks t) = true := by rw [htask]; rfl
    refine ⟨h.write hh rfl (h.others hholds) (h.no_claim (.inl hl)) ⟨rfl, rfl⟩ (fun _ hmem => .inl hmem)
      (.inl rfl), fun hne => absurd rfl hne, fun hnot => ?_⟩
    rw [hholds] at hnot
    cases hnot
  | reverts claimed hl =>
    have hothers : ∀ k, k ≠ t → holding (s.tasks k) = false := by
      cases claimed with
      | true => exact h.others (by rw [htask]; rfl)
      | false => exact fun k _ => h.unheld (hunclaimed rfl hl) k
    refine ⟨h.write hh rfl hothers (h.no_claim (.inl hl)) trivial (fun _ hmem => .inl hmem) (.inl rfl),
      fun hne => absurd rfl hne, fun hnot hlaunch => ?_⟩
    cases claimed with
    | true =>
      rw [htask] at hnot
      cases hnot
    | false =>
      rw [hunclaimed rfl hl] at hlaunch
      cases hlaunch

/-- a task that is not a launch -/
theorem LaunchInv.other (h : LaunchInv s) (hh : Holds s'.lock s'.tasks) (hs : s'.status = s.status)
    (hc : s'.currentMatchId = s.currentMatchId) (hm : s'.matchRows = s.matchRows) {new : Option RoomTask}
    (ht : s'.tasks = Function.update s.tasks t new) (hold : ∀ stage, s.tasks t ≠ some (.launch stage))
    (hnew : holding new = false) (hclaim : new ≠ some (.launch .claimRoom)) : LaunchInv s' := by
  refine h.keep hh hs hc hm ht ?_ (rowOf_free hnew hclaim) ?_
  · rw [hnew]
    by_contra hne
    have hholds : holding (s.tasks t) = true := by simpa using hne
    obtain ⟨stage, hstage⟩ := holding_launch hholds
    exact hold stage hstage
  · intro hcreated
    by_cases hret : s.tasks t = some (.launch (.returned false))
    · exact absurd hret (hold _)
    · obtain ⟨stage, hstage⟩ := holding_launch (created_holding hcreated hret)
      exact absurd hstage (hold stage)

theorem LaunchInv.opened (h : LaunchInv s) (t : ℕ) (new : Option RoomTask)
    (hh : Holds (s.opened t new).lock (s.opened t new).tasks) (hnew : holding new = false)
    (hclaim : new ≠ some (.launch .claimRoom)) : LaunchInv (s.opened t new) := by
  unfold Lobby.opened at hh ⊢
  split_ifs with hnone
  · rw [if_pos hnone] at hh
    exact h.other hh rfl rfl rfl rfl (by simp [hnone]) hnew hclaim
  · exact h

theorem LaunchInv.lobby (h : LaunchInv s) {stage : CountdownStage} {fails : Bool}
    (htask : s.tasks t = some (.lobby stage)) (hm : LobbyMove s t fails stage s') (hh : Holds s'.lock s'.tasks)
    (hq : MeetsLaunchable s (.task t fails)) :
    LaunchInv s' ∧ (s.launchable = false → s'.status = s.status ∧ s'.currentMatchId = s.currentMatchId) := by
  have hnolaunch : ∀ new : Option RoomTask, (∀ r, new = some r → ∃ next, r = .lobby next) →
      holding new = false ∧ new ≠ some (.launch .claimRoom) := by
    intro new hnew
    constructor
    · by_contra hh
      obtain ⟨launch, rfl⟩ := holding_launch (by simpa using hh)
      obtain ⟨next, hnext⟩ := hnew _ rfl
      cases hnext
    · rintro rfl
      obtain ⟨next, hnext⟩ := hnew _ rfl
      cases hnext
  cases hm with
  | stays => exact ⟨h, fun _ => ⟨rfl, rfl⟩⟩
  | advances new hnew =>
    obtain ⟨hh', hc⟩ := hnolaunch new hnew
    exact ⟨h.other hh rfl rfl rfl rfl (by simp [htask]) hh' hc, fun _ => ⟨rfl, rfl⟩⟩
  | writes status new hnew hs hw hf hl =>
    obtain ⟨hh', hc⟩ := hnolaunch new hnew
    have hlaunch : s.launchable = true := by
      refine hq ?_ hl
      rw [htask]
      cases stage with
      | persist => exact absurd rfl hs
      | _ => simp [Option.any, writesUnclaimed, hf]
    refine ⟨h.write hh rfl (fun k _ => h.unheld hlaunch k) (h.no_claim (.inl hl)) (rowOf_free hh' hc)
      (fun _ hmem => .inl hmem) (.inr ⟨by rw [htask]; rfl, fun _ hmem => hmem⟩), fun hnot => ?_⟩
    rw [hlaunch] at hnot
    cases hnot

/-- a write of the row by no task, while nobody holds the launch -/
theorem LaunchInv.unheld_write (h : LaunchInv s) (hlaunch : s.launchable = true) (hl : s.lock = none)
    (status : RoomStatus) (currentMatchId : Option ℕ) : LaunchInv (s.updateRoomStatus status currentMatchId) := by
  refine ⟨h.holds, fun k => rowOf_free (h.unheld hlaunch k) ?_, h.single, h.rows⟩
  intro hclaim
  have hlock := h.holds k _ hclaim rfl
  rw [hl] at hlock
  cases hlock

end Holder

/-! ## Every interleaving -/

theorem step_launchInv {s : Lobby} (h : LaunchInv s) (o : RoomOp) (hq : MeetsLaunchable s o) :
    LaunchInv (step s o) ∧ Exclusive s o := by
  have hh := step_holds s o h.holds
  have hquiet : (step s o).matchRows = s.matchRows →
      (s.launchable = false → (step s o).status = s.status ∧ (step s o).currentMatchId = s.currentMatchId) →
      Exclusive s o := fun hm hk => ⟨fun hne => absurd hm hne, fun _ => hk⟩
  have hopened : ∀ t new, step s o = s.opened t new → Exclusive s o := by
    intro t new heq
    obtain ⟨hs, hc, -, -, -, hm, -⟩ := opened_rows s t new
    rw [← heq] at hs hc hm
    exact hquiet hm fun _ => ⟨hs, hc⟩
  cases o with
  | joinRoom t u =>
    refine ⟨h.opened t _ hh ?_ ?_, hopened t _ rfl⟩
    · split_ifs
      · rfl
      · rfl
    · split_ifs
      · simp
      · simp
  | leaveRoom u => exact ⟨⟨h.holds, h.row, h.single, h.rows⟩, hquiet rfl fun _ => ⟨rfl, rfl⟩⟩
  | insertPlayer u =>
    simp only [step] at hquiet ⊢
    split_ifs at hquiet ⊢ with hw
    · exact ⟨h, hquiet rfl fun _ => ⟨rfl, rfl⟩⟩
    · exact ⟨⟨h.holds, h.row, h.single, h.rows⟩, hquiet rfl fun _ => ⟨rfl, rfl⟩⟩
  | launchRoomMatch t => exact ⟨h.opened t _ hh rfl (by simp), hopened t _ rfl⟩
  | maybeStartPublicCountdown t =>
    refine ⟨h.opened t _ hh ?_ ?_, hopened t _ rfl⟩
    · split_ifs
      · rfl
      · rfl
    · split_ifs
      · simp
      · simp
  | handleRoomPlayerLeft t ids =>
    refine ⟨h.opened t _ hh ?_ ?_, hopened t _ rfl⟩
    · split_ifs
      · rfl
      · rfl
    · split_ifs
      · simp
      · simp
  | abortRecovery =>
    simp only [step] at hquiet ⊢
    split_ifs at hquiet ⊢ with hw
    · exact ⟨h, hquiet rfl fun _ => ⟨rfl, rfl⟩⟩
    · simp only [not_or, Option.not_isSome_iff_eq_none, ne_eq, not_not] at hw
      obtain ⟨hl, hs, hc⟩ := hw
      have hlaunch : s.launchable = true := (launchable_iff s).2 ⟨.inr hs, hc⟩
      refine ⟨h.unheld_write hlaunch hl _ _, hquiet rfl fun hnot => ?_⟩
      rw [hlaunch] at hnot
      cases hnot
  | closeMatchedRoom =>
    simp only [step] at hquiet ⊢
    split_ifs at hquiet ⊢ with hl
    · exact ⟨h, hquiet rfl fun _ => ⟨rfl, rfl⟩⟩
    · have hlock : s.lock = none := by simpa using hl
      have hlaunch : s.launchable = true := hq hlock
      refine ⟨h.unheld_write hlaunch hlock _ _, hquiet rfl fun hnot => ?_⟩
      rw [hlaunch] at hnot
      cases hnot
  | task t fails =>
    have hmove := taskStep_move s t fails
    have hstep : ∀ s', s.taskStep t fails = s' → LaunchInv s' → (s'.matchRows ≠ s.matchRows → ∀ k, ¬Live s k) →
        (holding (s.tasks t) = false → s.launchable = false →
          s'.status = s.status ∧ s'.currentMatchId = s.currentMatchId) →
        LaunchInv (step s (.task t fails)) ∧ Exclusive s (.task t fails) := by
      rintro s' rfl hinv hcreated hkept
      exact ⟨hinv, hcreated, fun hnot => hkept (hnot t fails rfl)⟩
    simp only [step] at hh
    generalize heq : s.taskStep t fails = s' at hmove hh
    cases hmove with
    | idle => exact hstep s heq h (fun hne => absurd rfl hne) fun _ _ => ⟨rfl, rfl⟩
    | join u stage htask _ hm =>
      obtain ⟨hs, hc, -, hrows⟩ := hm.room
      obtain ⟨new, htasks, hnew⟩ := hm.tasks htask
      refine hstep s' heq (h.other hh hs hc hrows htasks (by simp [htask]) ?_ ?_) (fun hne => absurd hrows hne)
        fun _ _ => ⟨hs, hc⟩
      · by_contra hhold
        obtain ⟨launch, rfl⟩ := holding_launch (by simpa using hhold)
        obtain ⟨next, hnext⟩ := hnew _ rfl
        cases hnext
      · rintro rfl
        obtain ⟨next, hnext⟩ := hnew _ rfl
        cases hnext
    | launch stage htask _ hm =>
      obtain ⟨hinv, hcreated, hkept⟩ := h.launch htask hm hh hq
      exact hstep s' heq hinv hcreated hkept
    | lobby stage htask _ hm =>
      obtain ⟨-, -, -, hrows⟩ := hm.rows
      obtain ⟨hinv, hkept⟩ := h.lobby htask hm hh hq
      exact hstep s' heq hinv (fun hne => absurd hrows hne) fun _ => hkept

theorem launchInv_init (status : RoomStatus) (maxPlayers : ℕ) (players : List String) :
    LaunchInv (init status maxPlayers players) := by
  refine ⟨holds_init status maxPlayers players, fun _ => trivial, ?_, ?_⟩
  · intro t t' ht
    cases ht
  · intro m hm
    cases hm

/-- **One launch at a time.** In a run in which every unclaimed write of the row meets a room that could be launched: each
step creates a match only when no match lives, and whoever does not hold the launch leaves the status and the match of a
launched room alone; so at most one match lives in the end, and after a launch that succeeded the room is IN_GAME
with its match. -/
theorem launches_exclusive (status : RoomStatus) (maxPlayers : ℕ) (players : List String) (ops : List RoomOp)
    (hq : Along step MeetsLaunchable (init status maxPlayers players) ops) :
    let last := run step (init status maxPlayers players) ops
    Along step Exclusive (init status maxPlayers players) ops ∧ (∀ t t', Live last t → Live last t' → t = t') ∧
      ∀ t, last.tasks t = some (.launch (.returned true)) → last.status = .inGame ∧ last.currentMatchId = some t := by
  intro last
  have hinit := launchInv_init status maxPlayers players
  have hlast : LaunchInv last :=
    run_inv step MeetsLaunchable LaunchInv (fun _ o hq h => (step_launchInv h o hq).1) _ ops hq hinit
  refine ⟨?_, ?_, ?_⟩
  · exact along_of_inv step MeetsLaunchable Exclusive LaunchInv (fun _ o hq h => (step_launchInv h o hq).1)
      (fun _ o hq h => (step_launchInv h o hq).2) _ ops hq hinit
  · intro t t' ht ht'
    exact hlast.single t t' (hlast.live_holds ht) (hlast.live_holds ht')
  · intro t ht
    have hrow := hlast.row t
    rw [ht] at hrow
    exact hrow

/-- the host's launch 2 and the timer's launch 1 race; 1 is late, and its lock transaction fails -/
def lateLoser : List RoomOp :=
  [.launchRoomMatch 1, .launchRoomMatch 2, .task 1 false] ++ List.replicate 9 (.task 2 false) ++
    [.task 1 true, .task 1 false, .launchRoomMatch 3] ++ List.replicate 9 (.task 3 false)

/-- **Two live matches.** Launch 1 did not claim the room, yet it reverts it: the room of the running match 2 is WAITING
again, and launch 3 creates a match beside it. -/
theorem two_matches_live :
    let last := run step (init .waiting 100 ["alice", "bob"]) lateLoser
    last.matchRows = [(2, ["alice", "bob"]), (3, ["alice", "bob"])] ∧ Live last 2 ∧ Live last 3 ∧
      last.tasks 1 = some (.launch (.returned false)) ∧ last.tasks 2 = some (.launch (.returned true)) ∧
      last.tasks 3 = some (.launch (.returned true)) ∧ last.currentMatchId = some 3 := by
  unfold Live
  decide +kernel

/-- two launches race and the second finds the room started -/
def launchRace : List RoomOp :=
  [.launchRoomMatch 1, .launchRoomMatch 2, .task 1 false] ++ List.replicate 9 (.task 2 false) ++ [.task 1 false]

theorem launches_exclusive_race :
    let last := run step (init .waiting 100 ["alice", "bob"]) launchRace
    last.tasks 1 = some (.launch (.returned false)) ∧ last.tasks 2 = some (.launch (.returned true)) ∧
      Along step Exclusive (init .waiting 100 ["alice", "bob"]) launchRace ∧
      (∀ t t', Live last t → Live last t' → t = t') ∧
      ∀ t, last.tasks t = some (.launch (.returned true)) → last.status = .inGame ∧ last.currentMatchId = some t := by
  intro last
  exact ⟨by decide +kernel, by decide +kernel, launches_exclusive .waiting 100 ["alice", "bob"] launchRace
    (by decide +kernel)⟩

end Arena.Api.Lobby
