/-
Who gets into a room, over every interleaving of its callers.

- `capacity_iff`: the rows of a room stay within `maxPlayers` exactly as long as each direct insert meets fewer rows than
  that; the joins alone cannot overfill it, since they count and insert under the row lock;
- `capacity_exceeded`: a matched group is being inserted into its room when someone joins it;
- `nobody_left_out`: nobody whom a join added is missing from a match of a launch that stood at its commit, as long as no
  join commits after such a launch has read its roster;
- `joiner_left_out`: carol's join is under way when the room is launched. It takes the row lock after the launch has
  released it, and does not look at the status again.
-/
import Arena.Api.Lobby

namespace Arena.Api.Lobby

open Arena.Lib

/-! ## Capacity -/

/-- a join that has counted the rows and inserts one more -/
def Counted (task : RoomTask) : Prop := ∃ u, task = .join u .createPlayer ∨ task = .join u (.commit true)

structure SeatInv (s : Lobby) : Prop where
  holds : Holds s.lock s.tasks
  counted : ∀ t task, s.tasks t = some task → Counted task → s.players.length < s.maxPlayers

theorem Counted.locks {task : RoomTask} (h : Counted task) : task.locks = true := by
  obtain ⟨u, rfl | rfl⟩ := h
  · rfl
  · rfl

/-- a row inserted directly, that is not in the room already, finds room -/
def InsertFits (s : Lobby) : RoomOp → Prop
  | .insertPlayer u => s.lock = none → u ∉ s.players → s.players.length < s.maxPlayers
  | _ => True

section Seats

variable {s s' : Lobby}

/-- what a step adds to the rows -/
inductive Seats (s : Lobby) (o : RoomOp) (s' : Lobby) : Prop where
  | fewer (hp : s'.players.length ≤ s.players.length) (hf : InsertFits s o)
  | joined (hc : s.players.length < s.maxPlayers) (hp : s'.players.length = s.players.length + 1) (hf : InsertFits s o)
  | inserted (u : String) (ho : o = .insertPlayer u) (hl : s.lock = none) (hu : u ∉ s.players)
      (hp : s'.players.length = s.players.length + 1)

theorem SeatInv.kept (h : SeatInv s) (hh : Holds s'.lock s'.tasks) (hp : s'.players.length ≤ s.players.length)
    (hm : s'.maxPlayers = s.maxPlayers)
    (ht : ∀ t task, s'.tasks t = some task → Counted task → s.tasks t = some task ∨ s.players.length < s.maxPlayers) :
    SeatInv s' := by
  refine ⟨hh, fun t task htask hc => ?_⟩
  rw [hm]
  refine lt_of_le_of_lt hp ?_
  rcases ht t task htask hc with hold | hlt
  · exact h.counted t task hold hc
  · exact hlt

/-- without a lock nobody has counted -/
theorem SeatInv.uncounted (h : SeatInv s) (hl : s.lock = none) {t : ℕ} {task : RoomTask}
    (ht : s.tasks t = some task) : ¬Counted task := by
  intro hc
  have hlock := h.holds t task ht hc.locks
  rw [hl] at hlock
  cases hlock

theorem not_counted_launch (stage : LaunchStage) : ¬Counted (.launch stage) := by
  rintro ⟨u, hu | hu⟩
  · cases hu
  · cases hu

theorem not_counted_lobby (stage : CountdownStage) : ¬Counted (.lobby stage) := by
  rintro ⟨u, hu | hu⟩
  · cases hu
  · cases hu

theorem SeatInv.join {t : ℕ} {u : String} {stage : JoinStage} {fails : Bool} (h : SeatInv s)
    (htask : s.tasks t = some (.join u stage)) (hm : JoinMove s t u fails stage s') (hh : Holds s'.lock s'.tasks) :
    SeatInv s' ∧ Seats s (.task t fails) s' := by
  have hplain : ∀ new : Option RoomTask, s'.tasks = Function.update s.tasks t new → s'.players = s.players →
      s'.maxPlayers = s.maxPlayers → (∀ task, new = some task → Counted task → s.players.length < s.maxPlayers) →
      SeatInv s' ∧ Seats s (.task t fails) s' := by
    intro new htasks hp hmax hnew
    refine ⟨h.kept hh (hp ▸ le_rfl) hmax ?_, .fewer (hp ▸ le_rfl) trivial⟩
    intro t' task ht hc
    rw [htasks, Function.update_apply] at ht
    split_ifs at ht with heq
    · exact .inr (hnew task ht hc)
    · exact .inl ht
  have hstage : ∀ next, ¬Counted (.join u next) → ∀ task, some (RoomTask.join u next) = some task → Counted task →
      s.players.length < s.maxPlayers := by
    intro next hnot task ht hc
    obtain rfl := Option.some.inj ht
    exact absurd hc hnot
  cases hm with
  | waits hl => exact ⟨h, .fewer le_rfl trivial⟩
  | quits => exact hplain none rfl rfl rfl (by simp)
  | locks hl => exact hplain _ rfl rfl rfl (hstage _ (by simp [Counted]))
  | aborts _ hs => exact hplain none rfl rfl rfl (by simp)
  | rejoins => exact hplain _ rfl rfl rfl (hstage _ (by simp [Counted]))
  | isNew => exact hplain _ rfl rfl rfl (hstage _ (by simp [Counted]))
  | fits hc => exact hplain _ rfl rfl rfl fun _ _ _ => hc
  | creates =>
    exact hplain _ rfl rfl rfl fun _ _ _ => h.counted t _ htask ⟨u, .inl rfl⟩
  | commits hf =>
    have hlock := h.holds t _ htask rfl
    have hlt := h.counted t _ htask ⟨u, .inr rfl⟩
    refine ⟨⟨hh, ?_⟩, .joined hlt (by simp [setTask]) trivial⟩
    intro t' task ht hc
    simp only [setTask, Function.update_apply] at ht
    split_ifs at ht with heq
    exact absurd (Option.some.inj ((h.holds t' task ht hc.locks).symm.trans hlock)) heq

theorem SeatInv.opened (h : SeatInv s) (t : ℕ) (new : Option RoomTask)
    (hh : Holds (s.opened t new).lock (s.opened t new).tasks) (hnew : ∀ task, new = some task → ¬Counted task) :
    SeatInv (s.opened t new) ∧ (s.opened t new).maxPlayers = s.maxPlayers ∧
      (s.opened t new).players.length ≤ s.players.length := by
  obtain ⟨-, -, hp, hm, -, -, -⟩ := opened_rows s t new
  refine ⟨h.kept hh (hp ▸ le_rfl) hm ?_, hm, hp ▸ le_rfl⟩
  intro t' task ht hc
  rcases opened_tasks ht with hold | hopen
  · exact .inl hold
  · exact absurd hc (hnew task hopen)

theorem taskStep_seats (h : SeatInv s) (t : ℕ) (fails : Bool)
    (hh : Holds (s.taskStep t fails).lock (s.taskStep t fails).tasks) :
    SeatInv (s.taskStep t fails) ∧ (s.taskStep t fails).maxPlayers = s.maxPlayers ∧
      Seats s (.task t fails) (s.taskStep t fails) := by
  have hmove := taskStep_move s t fails
  generalize s.taskStep t fails = s' at hmove hh
  cases hmove with
  | idle => exact ⟨h, rfl, .fewer le_rfl trivial⟩
  | join u stage htask _ hm =>
    obtain ⟨-, -, hmax, -⟩ := hm.room
    obtain ⟨hinv, hseats⟩ := h.join htask hm hh
    exact ⟨hinv, hmax, hseats⟩
  | launch stage htask _ hm =>
    obtain ⟨hp, hmax, -⟩ := hm.rows
    obtain ⟨next, htasks⟩ := hm.tasks htask
    refine ⟨h.kept hh (hp ▸ le_rfl) hmax ?_, hmax, .fewer (hp ▸ le_rfl) trivial⟩
    intro t' task ht hc
    rw [htasks, Function.update_apply] at ht
    split_ifs at ht with heq
    · obtain rfl := Option.some.inj ht
      exact absurd hc (not_counted_launch next)
    · exact .inl ht
  | lobby stage htask _ hm =>
    obtain ⟨hp, hmax, -, -⟩ := hm.rows
    obtain ⟨new, htasks, hnew⟩ := hm.tasks htask
    refine ⟨h.kept hh (hp ▸ le_rfl) hmax ?_, hmax, .fewer (hp ▸ le_rfl) trivial⟩
    intro t' task ht hc
    rw [htasks, Function.update_apply] at ht
    split_ifs at ht with heq
    · obtain ⟨next, rfl⟩ := hnew task ht
      exact absurd hc (not_counted_lobby next)
    · exact .inl ht

theorem step_seats (h : SeatInv s) (o : RoomOp) :
    SeatInv (step s o) ∧ (step s o).maxPlayers = s.maxPlayers ∧ Seats s o (step s o) := by
  have hh := step_holds s o h.holds
  cases o with
  | joinRoom t u =>
    obtain ⟨hinv, hm, hp⟩ := h.opened t _ hh fun task ht => by
      split_ifs at ht
      obtain rfl := Option.some.inj ht
      simp [Counted]
    exact ⟨hinv, hm, .fewer hp trivial⟩
  | leaveRoom u =>
    have hp : (s.players.filter (· ≠ u)).length ≤ s.players.length := List.length_filter_le _ _
    exact ⟨h.kept hh hp rfl fun _ _ ht _ => .inl ht, rfl, .fewer hp trivial⟩
  | insertPlayer u =>
    simp only [step] at hh ⊢
    split_ifs with hw
    · refine ⟨h, rfl, .fewer le_rfl fun hl hu => ?_⟩
      rcases hw with hlock | hmem
      · rw [hl] at hlock
        cases hlock
      · exact absurd hmem hu
    · rw [not_or, Option.not_isSome_iff_eq_none] at hw
      refine ⟨⟨h.holds, fun t task ht hc => absurd hc (h.uncounted hw.1 ht)⟩, rfl, .inserted u rfl hw.1 hw.2 ?_⟩
      simp
  | launchRoomMatch t =>
    obtain ⟨hinv, hm, hp⟩ := h.opened t _ hh fun task ht => by
      obtain rfl := Option.some.inj ht
      exact not_counted_launch _
    exact ⟨hinv, hm, .fewer hp trivial⟩
  | maybeStartPublicCountdown t =>
    obtain ⟨hinv, hm, hp⟩ := h.opened t _ hh fun task ht => by
      split_ifs at ht
      obtain rfl := Option.some.inj ht
      exact not_counted_lobby _
    exact ⟨hinv, hm, .fewer hp trivial⟩
  | handleRoomPlayerLeft t ids =>
    obtain ⟨hinv, hm, hp⟩ := h.opened t _ hh fun task ht => by
      split_ifs at ht
      obtain rfl := Option.some.inj ht
      exact not_counted_lobby _
    exact ⟨hinv, hm, .fewer hp trivial⟩
  | abortRecovery =>
    simp only [step] at hh ⊢
    split_ifs
    · exact ⟨h, rfl, .fewer le_rfl trivial⟩
    · exact ⟨h.kept h.holds le_rfl rfl fun _ _ ht _ => .inl ht, rfl, .fewer le_rfl trivial⟩
  | closeMatchedRoom =>
    simp only [step] at hh ⊢
    split_ifs
    · exact ⟨h, rfl, .fewer le_rfl trivial⟩
    · exact ⟨h.kept h.holds le_rfl rfl fun _ _ ht _ => .inl ht, rfl, .fewer le_rfl trivial⟩
  | task t fails => exact taskStep_seats h t fails hh

/-- a step stays within the capacity exactly when a direct insert fits -/
theorem step_within_iff (h : SeatInv s) (hw : s.players.length ≤ s.maxPlayers) (o : RoomOp) :
    (step s o).players.length ≤ (step s o).maxPlayers ↔ InsertFits s o := by
  obtain ⟨-, hm, hseats⟩ := step_seats h o
  rw [hm]
  cases hseats with
  | fewer hp hf => exact iff_of_true (hp.trans hw) hf
  | joined hc hp hf => exact iff_of_true (by omega) hf
  | inserted u ho hl hu hp =>
    subst ho
    constructor
    · intro hle _ _
      omega
    · intro hf
      have hlt := hf hl hu
      omega

end Seats

theorem seatInv_init (status : RoomStatus) (maxPlayers : ℕ) (players : List String) :
    SeatInv (init status maxPlayers players) :=
  ⟨holds_init status maxPlayers players, fun t task ht => by cases ht⟩

/-- **Capacity over every interleaving.** After each step of a run the room has at most `maxPlayers` rows, exactly when
each direct insert of a new row meets fewer rows than that. -/
theorem capacity_iff (status : RoomStatus) (maxPlayers : ℕ) (players : List String) (hp : players.length ≤ maxPlayers)
    (ops : List RoomOp) :
    Along step (fun s o => (step s o).players.length ≤ maxPlayers) (init status maxPlayers players) ops ↔
      Along step InsertFits (init status maxPlayers players) ops := by
  refine along_congr step (fun _ _ => True) _ _
    (fun s => SeatInv s ∧ s.maxPlayers = maxPlayers ∧ s.players.length ≤ maxPlayers) ?_ ?_ _ ops (along_true _ _ _)
    ⟨seatInv_init _ _ _, rfl, hp⟩
  · intro s o _ hq h
    obtain ⟨hinv, rfl, hw⟩ := h
    obtain ⟨hinv', hm, -⟩ := step_seats hinv o
    exact ⟨hinv', hm, hm ▸ (step_within_iff hinv hw o).2 hq⟩
  · intro s o _ h
    obtain ⟨hinv, rfl, hw⟩ := h
    obtain ⟨-, hm, -⟩ := step_seats hinv o
    rw [← step_within_iff hinv hw o, hm]

/-- `launchMatchedGame` fills the room of a matched group of 100, and a guest joins before the last player is inserted -/
def matchedGroup : List String := (List.range 100).map fun i => "player" ++ toString i

def guestJoins : List RoomOp := .joinRoom 1 "guest" :: List.replicate 5 (.task 1 false)

def overfill : List RoomOp :=
  (matchedGroup.take 99).map .insertPlayer ++ guestJoins ++ (matchedGroup.drop 99).map .insertPlayer

/-- **A room of 101.** The guest counts 99 rows under the lock and becomes the hundredth; the last player of the group is
inserted without a count. -/
theorem capacity_exceeded :
    (run step (init .waiting 100 []) overfill).maxPlayers = 100 ∧
      (run step (init .waiting 100 []) overfill).players.length = 101 := by
  decide +kernel

/-- a room of two that fills up by joins turns the third away -/
def fillByJoins : List RoomOp :=
  [.insertPlayer "alice", .joinRoom 1 "bob", .joinRoom 2 "carol"] ++ List.replicate 5 (.task 1 false) ++
    List.replicate 5 (.task 2 false)

theorem capacity_iff_joins :
    (run step (init .waiting 2 []) fillByJoins).players = ["alice", "bob"] ∧
      (Along step (fun s o => (step s o).players.length ≤ 2) (init .waiting 2 []) fillByJoins ↔
        Along step InsertFits (init .waiting 2 []) fillByJoins) :=
  ⟨by decide +kernel, capacity_iff .waiting 2 [] (by decide) fillByJoins⟩

/-! ## Rosters -/

/-- nobody whom a join added is missing from a match of a launch that stood at its commit -/
def NobodyLeftOut (s : Lobby) : Prop := ∀ m ∈ s.matchRows, ∀ a ∈ s.admitted, a.2 m.1 = true → a.1 ∈ m.2

/-- a join commits before any launch that stands has read its roster -/
def JoinsInTime (s : Lobby) : RoomOp → Prop
  | .task t false => ∀ u, s.tasks t = some (.join u (.commit true)) →
    ∀ k stage, s.tasks k = some (.launch stage) → stage.stands = true → stage = .readRoster
  | _ => True

structure AdmitInv (s : Lobby) : Prop where
  seated : ∀ a ∈ s.admitted, a.1 ∈ s.players
  read : ∀ k stage roster, s.tasks k = some (.launch stage) → stage.roster = some roster →
    ∀ a ∈ s.admitted, a.2 k = true → a.1 ∈ roster
  nobody : NobodyLeftOut s
  created : ∀ m ∈ s.matchRows, ∃ stage, s.tasks m.1 = some (.launch stage) ∧ stage.created = true

section Rosters

variable {s s' : Lobby}

/-- rows, rosters and admissions stay, and launches keep their stage or gain no roster -/
theorem AdmitInv.kept (h : AdmitInv s) (hp : s'.players = s.players) (ha : s'.admitted = s.admitted)
    (hm : s'.matchRows = s.matchRows)
    (hread : ∀ k stage roster, s'.tasks k = some (.launch stage) → stage.roster = some roster →
      roster = s.players ∨ ∃ stage', s.tasks k = some (.launch stage') ∧ stage'.roster = some roster)
    (hcreated : ∀ k stage, s.tasks k = some (.launch stage) → stage.created = true →
      ∃ stage', s'.tasks k = some (.launch stage') ∧ stage'.created = true) : AdmitInv s' := by
  refine ⟨?_, ?_, ?_, ?_⟩
  · rw [ha, hp]
    exact h.seated
  · intro k stage roster ht hr a hamem hak
    rw [ha] at hamem
    rcases hread k stage roster ht hr with rfl | ⟨stage', ht', hr'⟩
    · exact h.seated a hamem
    · exact h.read k stage' roster ht' hr' a hamem hak
  · rw [NobodyLeftOut, hm, ha]
    exact h.nobody
  · intro m hmem
    rw [hm] at hmem
    obtain ⟨stage, ht, hc⟩ := h.created m hmem
    exact hcreated m.1 stage ht hc

/-- the tasks of a step that is not a launch's -/
theorem AdmitInv.kept_other (h : AdmitInv s) (hp : s'.players = s.players) (ha : s'.admitted = s.admitted)
    (hm : s'.matchRows = s.matchRows) {t : ℕ} {new : Option RoomTask}
    (ht : s'.tasks = Function.update s.tasks t new) (hold : ∀ stage, s.tasks t ≠ some (.launch stage))
    (hnew : ∀ stage, new = some (.launch stage) → stage.roster = none) : AdmitInv s' := by
  refine h.kept hp ha hm ?_ ?_
  · intro k stage roster hk hr
    rw [ht, Function.update_apply] at hk
    split_ifs at hk with heq
    · rw [hnew stage hk] at hr
      cases hr
    · exact .inr ⟨stage, hk, hr⟩
  · intro k stage hk hc
    refine ⟨stage, ?_, hc⟩
    rw [ht, Function.update_apply, if_neg]
    · exact hk
    · rintro rfl
      exact hold stage hk

theorem AdmitInv.opened (h : AdmitInv s) (t : ℕ) (new : Option RoomTask)
    (hnew : ∀ stage, new = some (.launch stage) → stage.roster = none) : AdmitInv (s.opened t new) := by
  unfold Lobby.opened
  split_ifs with hnone
  · exact h.kept_other rfl rfl rfl rfl (by simp [hnone]) hnew
  · exact h

theorem AdmitInv.join {t : ℕ} {u : String} {stage : JoinStage} {fails : Bool} (h : AdmitInv s)
    (htask : s.tasks t = some (.join u stage)) (hm : JoinMove s t u fails stage s')
    (hq : JoinsInTime s (.task t fails)) : AdmitInv s' := by
  have hold : ∀ stage, s.tasks t ≠ some (.launch stage) := by
    intro stage' ht
    rw [htask] at ht
    cases Option.some.inj ht
  have hplain : ∀ new : Option RoomTask, s'.tasks = Function.update s.tasks t new → s'.players = s.players →
      s'.admitted = s.admitted → AdmitInv s' := by
    intro new htasks hp ha
    obtain ⟨-, -, -, hrows⟩ := hm.room
    obtain ⟨new', htasks', hjoin⟩ := hm.tasks htask
    refine h.kept_other hp ha hrows htasks' hold fun stage hs => ?_
    obtain ⟨next, hnext⟩ := hjoin _ hs
    cases hnext
  cases hm with
  | waits hl => exact h
  | quits => exact hplain none rfl rfl rfl
  | locks hl => exact hplain _ rfl rfl rfl
  | aborts _ hs => exact hplain none rfl rfl rfl
  | rejoins => exact hplain _ rfl rfl rfl
  | isNew => exact hplain _ rfl rfl rfl
  | fits hc => exact hplain _ rfl rfl rfl
  | creates => exact hplain _ rfl rfl rfl
  | commits hf =>
    subst hf
    have htime := hq u htask
    -- a launch that stood at this commit has not read its roster
    have hstood : ∀ k stage, s.tasks k = some (.launch stage) → s.standing k = true → stage = .readRoster := by
      intro k stage hk hs
      refine htime k stage hk ?_
      simpa [standing, hk] using hs
    have hlaunch : ∀ k stage, Function.update s.tasks t none k = some (.launch stage) →
        s.tasks k = some (.launch stage) := by
      intro k stage hk
      rw [Function.update_apply] at hk
      split_ifs at hk
      exact hk
    refine ⟨?_, ?_, ?_, ?_⟩
    · intro a ha
      rcases List.mem_append.1 ha with ha | ha
      · exact List.mem_append_left _ (h.seated a ha)
      · obtain rfl := List.mem_singleton.1 ha
        exact List.mem_append_right _ List.mem_cons_self
    · intro k stage roster hk hr a ha hak
      have hk' := hlaunch k stage hk
      rcases List.mem_append.1 ha with ha | ha
      · exact h.read k stage roster hk' hr a ha hak
      · obtain rfl := List.mem_singleton.1 ha
        rw [hstood k stage hk' hak] at hr
        cases hr
    · intro m hmem a ha hak
      rcases List.mem_append.1 ha with ha | ha
      · exact h.nobody m hmem a ha hak
      · obtain rfl := List.mem_singleton.1 ha
        obtain ⟨stage, hk, hc⟩ := h.created m hmem
        rw [hstood m.1 stage hk hak] at hc
        cases hc
    · intro m hmem
      obtain ⟨stage, hk, hc⟩ := h.created m hmem
      refine ⟨stage, ?_, hc⟩
      simp only [setTask]
      rw [Function.update_apply, if_neg]
      · exact hk
      · intro heq
        rw [heq] at hk
        exact hold stage hk

theorem AdmitInv.launch {t : ℕ} {stage : LaunchStage} {fails : Bool} (h : AdmitInv s)
    (htask : s.tasks t = some (.launch stage)) (hm : LaunchMove s t fails stage s') : AdmitInv s' := by
  have hplain : ∀ next : LaunchStage, s'.tasks = Function.update s.tasks t (some (.launch next)) →
      s'.matchRows = s.matchRows →
      (∀ roster, next.roster = some roster → roster = s.players ∨ stage.roster = some roster) →
      (stage.created = true → next.created = true) → AdmitInv s' := by
    intro next htasks hrows hroster hcreated
    obtain ⟨hp, -, ha⟩ := hm.rows
    refine h.kept hp ha hrows ?_ ?_
    · intro k stage' roster hk hr
      rw [htasks, Function.update_apply] at hk
      split_ifs at hk with heq
      · obtain rfl := RoomTask.launch.inj (Option.some.inj hk)
        rcases hroster roster hr with hplayers | hold
        · exact .inl hplayers
        · exact .inr ⟨stage, heq ▸ htask, hold⟩
      · exact .inr ⟨stage', hk, hr⟩
    · intro k stage' hk hc
      rw [htasks, Function.update_apply]
      split_ifs with heq
      · rw [heq, htask] at hk
        obtain rfl := RoomTask.launch.inj (Option.some.inj hk)
        exact ⟨next, rfl, hcreated hc⟩
      · exact ⟨stage', hk, hc⟩
  cases hm with
  | stays => exact h
  | advances _ next hadv =>
    refine hplain next rfl rfl ?_ ?_
    · intro roster hr
      cases hadv with
      | validated status players _ hn =>
        rcases hn with rfl | rfl | rfl
        · cases hr
        · cases hr
        · cases hr
      | roster => exact .inl (Option.some.inj hr).symm
      | inserted roster' => exact .inr hr
      | _ => cases hr
    · intro hc
      cases hadv with
      | loopFailed _ hs => rfl
      | owned => rfl
      | launched => rfl
      | cleaned => rfl
      | _ => cases hc
  | rejects hf hl => exact hplain _ rfl rfl (by simp [LaunchStage.roster]) (by simp [LaunchStage.created])
  | locks hl hs => exact hplain _ rfl rfl (by simp [LaunchStage.roster]) (by simp [LaunchStage.created])
  | unlocks => exact hplain _ rfl rfl (by simp [LaunchStage.roster]) (by simp [LaunchStage.created])
  | claims => exact hplain _ rfl rfl (by simp [LaunchStage.roster]) (by simp [LaunchStage.created])
  | starts hl => exact hplain _ rfl rfl (by simp [LaunchStage.roster]) (by simp [LaunchStage.created])
  | reverts claimed hl => exact hplain _ rfl rfl (by simp [LaunchStage.roster]) (by simp [LaunchStage.created])
  | creates roster hl =>
    refine ⟨h.seated, ?_, ?_, ?_⟩
    · intro k stage roster' hk hr a ha hak
      simp only [launchAt, setTask, Function.update_apply] at hk
      split_ifs at hk with heq
      · obtain rfl := RoomTask.launch.inj (Option.some.inj hk)
        cases hr
      · exact h.read k stage roster' hk hr a ha hak
    · intro m hmem a ha hak
      rcases List.mem_append.1 hmem with hmem | hmem
      · exact h.nobody m hmem a ha hak
      · obtain rfl := List.mem_singleton.1 hmem
        exact h.read t _ roster htask rfl a ha hak
    · intro m hmem
      simp only [launchAt, setTask, Function.update_apply]
      rcases List.mem_append.1 hmem with hmem | hmem
      · split_ifs with heq
        · exact ⟨_, rfl, rfl⟩
        · exact h.created m hmem
      · obtain rfl := List.mem_singleton.1 hmem
        rw [if_pos rfl]
        exact ⟨_, rfl, rfl⟩

theorem step_admitInv (h : AdmitInv s) (o : RoomOp) (hq : JoinsInTime s o) : AdmitInv (step s o) := by
  cases o with
  | joinRoom t u =>
    refine h.opened t _ fun stage hs => ?_
    split_ifs at hs
    cases Option.some.inj hs
  | leaveRoom u =>
    refine ⟨?_, ?_, ?_, h.created⟩
    · intro a ha
      simp only [step, List.mem_filter, decide_eq_true_eq] at ha ⊢
      exact ⟨h.seated a ha.1, ha.2⟩
    · intro k stage roster hk hr a ha
      exact h.read k stage roster hk hr a (List.mem_of_mem_filter ha)
    · intro m hm a ha
      exact h.nobody m hm a (List.mem_of_mem_filter ha)
  | insertPlayer u =>
    simp only [step]
    split_ifs
    · exact h
    · exact ⟨fun a ha => List.mem_append_left _ (h.seated a ha), h.read, h.nobody, h.created⟩
  | launchRoomMatch t =>
    refine h.opened t _ fun stage hs => ?_
    obtain rfl := RoomTask.launch.inj (Option.some.inj hs)
    rfl
  | maybeStartPublicCountdown t =>
    refine h.opened t _ fun stage hs => ?_
    split_ifs at hs
    cases Option.some.inj hs
  | handleRoomPlayerLeft t ids =>
    refine h.opened t _ fun stage hs => ?_
    split_ifs at hs
    cases Option.some.inj hs
  | abortRecovery =>
    simp only [step]
    split_ifs
    · exact h
    · exact ⟨h.seated, h.read, h.nobody, h.created⟩
  | closeMatchedRoom =>
    simp only [step]
    split_ifs
    · exact h
    · exact ⟨h.seated, h.read, h.nobody, h.created⟩
  | task t fails =>
    have hmove := taskStep_move s t fails
    simp only [step]
    generalize s.taskStep t fails = s' at hmove
    cases hmove with
    | idle => exact h
    | join u stage htask _ hm => exact h.join htask hm hq
    | launch stage htask _ hm => exact h.launch htask hm
    | lobby stage htask _ hm =>
      obtain ⟨hp, -, ha, hrows⟩ := hm.rows
      obtain ⟨new, htasks, hnew⟩ := hm.tasks htask
      refine h.kept_other hp ha hrows htasks (by simp [htask]) fun stage hs => ?_
      obtain ⟨next, hnext⟩ := hnew _ hs
      cases hnext

end Rosters

theorem admitInv_init (status : RoomStatus) (maxPlayers : ℕ) (players : List String) :
    AdmitInv (init status maxPlayers players) := by
  refine ⟨?_, ?_, ?_, ?_⟩
  · intro a ha
    cases ha
  · intro k stage roster hk
    cases hk
  · intro m hm
    cases hm
  · intro m hm
    cases hm

/-- **Nobody is admitted and left out.** In a run in which each join commits before any launch that stands has read its
roster, whoever a join added and who has not left is in the match of every launch that stood at its commit. -/
theorem nobody_left_out (status : RoomStatus) (maxPlayers : ℕ) (players : List String) (ops : List RoomOp)
    (hq : Along step JoinsInTime (init status maxPlayers players) ops) :
    NobodyLeftOut (run step (init status maxPlayers players) ops) :=
  (run_inv step JoinsInTime AdmitInv (fun _ o hq h => step_admitInv h o hq) _ ops hq
    (admitInv_init status maxPlayers players)).nobody

/-- carol's join reads the room, and launch 2 takes its first `n` statements before the join goes on -/
def joinDuringLaunch (n : ℕ) : List RoomOp :=
  [.joinRoom 1 "carol", .launchRoomMatch 2] ++ List.replicate n (.task 2 false) ++ List.replicate 5 (.task 1 false) ++
    List.replicate (9 - n) (.task 2 false)

/-- **Admitted and left out.** The join locks the room row after the launch is through, and becomes a player of a room
whose match started without her. -/
theorem joiner_left_out :
    let last := run step (init .waiting 100 ["alice", "bob"]) (joinDuringLaunch 9)
    last.status = .inGame ∧ last.players = ["alice", "bob", "carol"] ∧ last.matchRows = [(2, ["alice", "bob"])] ∧
      last.admitted.map Prod.fst = ["carol"] ∧ ¬NobodyLeftOut last := by
  intro last
  have hrun : last.status = .inGame ∧ last.players = ["alice", "bob", "carol"] ∧
      last.matchRows = [(2, ["alice", "bob"])] ∧ last.admitted.map Prod.fst = ["carol"] ∧
      ∃ m ∈ last.matchRows, ∃ a ∈ last.admitted, a.2 m.1 = true ∧ a.1 ∉ m.2 := by decide +kernel
  obtain ⟨hstatus, hplayers, hrows, hadmitted, m, hm, a, ha, hstood, hnot⟩ := hrun
  exact ⟨hstatus, hplayers, hrows, hadmitted, fun h => hnot (h m hm a ha hstood)⟩

/-- whether a step is not the commit of a join -/
def notJoinCommit (s : Lobby) : RoomOp → Bool
  | .task t _ =>
    match s.tasks t with
    | some (.join _ (.commit true)) => false
    | _ => true
  | _ => true

theorem joinsInTime_of_not (s : Lobby) (o : RoomOp) (h : notJoinCommit s o = true) : JoinsInTime s o := by
  cases o with
  | task t fails =>
    cases fails with
    | true => trivial
    | false =>
      intro u hu
      simp [notJoinCommit, hu] at h
  | _ => trivial

theorem along_joinsInTime (s : Lobby) (ops : List RoomOp) (h : Along step (fun s o => notJoinCommit s o = true) s ops) :
    Along step JoinsInTime s ops :=
  along_of_inv step _ JoinsInTime (fun _ => True) (fun _ _ _ _ => trivial) (fun s o h _ => joinsInTime_of_not s o h) s
    ops h trivial

/-- between the claim and the roster read she is in time -/
theorem nobody_left_out_claimed :
    let last := run step (init .waiting 100 ["alice", "bob"]) (joinDuringLaunch 3)
    last.matchRows = [(2, ["alice", "bob", "carol"])] ∧ last.admitted.map (fun a => (a.1, a.2 2)) = [("carol", true)] ∧
      NobodyLeftOut last := by
  have htime : Along step JoinsInTime (init .waiting 100 ["alice", "bob"]) (joinDuringLaunch 3) := by
    have hsplit : joinDuringLaunch 3 = (joinDuringLaunch 3).take 9 ++ (.task 1 false) :: (joinDuringLaunch 3).drop 10 :=
      rfl
    rw [hsplit, along_append]
    refine ⟨along_joinsInTime _ _ (by decide +kernel), ?_, along_joinsInTime _ _ (by decide +kernel)⟩
    intro u hu k stage hk hs
    by_cases hk2 : k = 2
    · subst hk2
      have h2 : (run step (init .waiting 100 ["alice", "bob"]) ((joinDuringLaunch 3).take 9)).tasks 2 =
          some (.launch .readRoster) := by decide +kernel
      rw [h2] at hk
      exact (RoomTask.launch.inj (Option.some.inj hk)).symm
    · by_cases hk1 : k = 1
      · rw [hk1, hu] at hk
        cases hk
      · rw [run_others] at hk
        · cases hk
        · have hcallers : ∀ o ∈ (joinDuringLaunch 3).take 9, o.caller = some 1 ∨ o.caller = some 2 := by decide
          intro o ho hcaller
          rcases hcallers o ho with h | h
          · exact hk1 (Option.some.inj (hcaller.symm.trans h))
          · exact hk2 (Option.some.inj (hcaller.symm.trans h))
  exact ⟨by decide +kernel, by decide +kernel, nobody_left_out .waiting 100 ["alice", "bob"] (joinDuringLaunch 3) htime⟩

end Arena.Api.Lobby
