/-
A room under all its callers: `joinRoom`, the direct inserts of `createRoom` and `launchMatchedGame`, `leaveRoom`, the
lobby countdown, `launchRoomMatch` and the room's closing by `launchMatchedGame`, on any nodes, statement by statement.

The room row is locked `FOR UPDATE` by a `joinRoom` transaction and by the launch lock; while it is, updates of the row
and inserts of player rows by others wait, and plain reads see what is committed. A statement may fail, which rolls its
transaction back. A match is named after the launch that creates it. The room itself is not deleted and its match does
not finish.

- `RoomMove`: what one statement of a task can do, and `taskStep_move`;
- `LockInv`, `step_lockInv`: a transaction past its lock holds the row.
-/
import Arena.Lib.Run

namespace Arena.Api

open Arena.Lib

inductive RoomStatus where
  | waiting | countdown | starting | inGame | finished
deriving DecidableEq, Repr

/-- `GAME_CONFIG.MIN_PLAYERS_TO_START` -/
def minPlayersToStart : ℕ := 2

/-- where `joinRoom` is after it read a WAITING room without the user -/
inductive JoinStage where
  | lockRoom
  | findExisting
  | countPlayers
  | createPlayer
  | commit (didCreate : Bool)
deriving DecidableEq, Repr

/-- where `launchRoomMatch` is after its read of the room -/
inductive LaunchStage where
  /-- `validateRoomForLaunch`, with the status and the number of players that were read -/
  | validate (status : RoomStatus) (players : ℕ)
  /-- its write of WAITING for too few players -/
  | rejectCountdown
  /-- `acquireRoomLaunchLock`: the locking read, then the claim and the commit -/
  | lockRoom
  | claimRoom
  /-- `createMatch`: its read of the room, its inserts, its update of the room -/
  | readRoster
  | insertMatch (roster : List String)
  | updateRoom (roster : List String)
  /-- the owner lease, the command stream and the machine -/
  | acquireOwnership
  | startMatchLoop
  | runMatchLoop
  /-- `handleLaunchError`: `cleanupOrphanedMatch`, then `revertRoomStatusToWaiting` -/
  | cleanup
  | revert (claimed : Bool)
  | returned (launched : Bool)
deriving DecidableEq, Repr

/-- where a write of the lobby countdown is -/
inductive CountdownStage where
  | start
  | persist
  | stop
deriving DecidableEq, Repr

inductive RoomTask where
  | join (userId : String) (stage : JoinStage)
  | launch (stage : LaunchStage)
  | lobby (stage : CountdownStage)
deriving DecidableEq, Repr

/-- whether a launch has claimed the room and not begun to revert it -/
def LaunchStage.stands : LaunchStage → Bool
  | .readRoster | .insertMatch _ | .updateRoom _ | .acquireOwnership | .startMatchLoop | .runMatchLoop | .cleanup
  | .returned true => true
  | _ => false

/-- the roster of a launch whose match is not there yet -/
def LaunchStage.roster : LaunchStage → Option (List String)
  | .insertMatch roster | .updateRoom roster => some roster
  | _ => none

/-- whether `createMatch` of a launch has returned -/
def LaunchStage.created : LaunchStage → Bool
  | .acquireOwnership | .startMatchLoop | .runMatchLoop | .cleanup | .revert true | .returned _ => true
  | _ => false

/-- whether a task is in a transaction that has locked the room row -/
def RoomTask.locks : RoomTask → Bool
  | .join _ .lockRoom => false
  | .join _ _ => true
  | .launch .claimRoom => true
  | _ => false

structure Lobby where
  status : RoomStatus
  currentMatchId : Option ℕ
  maxPlayers : ℕ
  /-- the committed RoomPlayer rows -/
  players : List String
  /-- the holder of the lock on the room row -/
  lock : Option ℕ
  tasks : ℕ → Option RoomTask
  /-- the matches that `createMatch` returned, with their rosters -/
  matchRows : List (ℕ × List String)
  /-- history: the users whom a join added and who have not left, with the launches that stood at its commit -/
  admitted : List (String × (ℕ → Bool))

namespace Lobby

def init (status : RoomStatus) (maxPlayers : ℕ) (players : List String) : Lobby where
  status := status
  currentMatchId := none
  maxPlayers := maxPlayers
  players := players
  lock := none
  tasks := fun _ => none
  matchRows := []
  admitted := []

def setTask (s : Lobby) (t : ℕ) (task : Option RoomTask) : Lobby := { s with tasks := Function.update s.tasks t task }

/-- the next stage of a launch -/
def launchAt (s : Lobby) (t : ℕ) (stage : LaunchStage) : Lobby := s.setTask t (some (.launch stage))

/-- a transaction ends without effect and its caller throws -/
def abort (s : Lobby) (t : ℕ) : Lobby := { s with lock := none }.setTask t none

/-- the launches that stand -/
def standing (s : Lobby) (t : ℕ) : Bool :=
  match s.tasks t with
  | some (.launch stage) => stage.stands
  | _ => false

/-- what `acquireRoomLaunchLock` checks under the lock -/
def launchable (s : Lobby) : Bool :=
  (s.status = .waiting || s.status = .countdown) && s.currentMatchId = none

/-- `updateRoomStatus`, once the row is not locked -/
def updateRoomStatus (s : Lobby) (status : RoomStatus) (currentMatchId : Option ℕ) : Lobby :=
  { s with status := status, currentMatchId := currentMatchId }

/-! ## Tasks -/

def joinStep (s : Lobby) (t : ℕ) (userId : String) (fails : Bool) : JoinStage → Lobby
  | .lockRoom =>
    if fails then s.setTask t none
    else if s.lock.isSome then s
    else { s with lock := some t }.setTask t (some (.join userId .findExisting))
  | .findExisting =>
    if fails then s.abort t
    else s.setTask t (some (.join userId (if userId ∈ s.players then .commit false else .countPlayers)))
  | .countPlayers =>
    -- ROOM_FULL aborts as a failure does
    if fails || s.maxPlayers ≤ s.players.length then s.abort t
    else s.setTask t (some (.join userId .createPlayer))
  | .createPlayer =>
    if fails || userId ∈ s.players then s.abort t else s.setTask t (some (.join userId (.commit true)))
  | .commit didCreate =>
    if fails || !didCreate then s.abort t
    else
      { s with
        players := s.players ++ [userId]
        admitted := s.admitted ++ [(userId, s.standing)]
        lock := none }.setTask t none

def launchStep (s : Lobby) (t : ℕ) (fails : Bool) : LaunchStage → Lobby
  | .validate status players =>
    if status ≠ .waiting ∧ status ≠ .countdown then s.launchAt t (.returned false)
    else if fails then s.launchAt t (.returned false)
    else if players < minPlayersToStart then
      if status ≠ .waiting then s.launchAt t .rejectCountdown else s.launchAt t (.returned false)
    else s.launchAt t .lockRoom
  | .rejectCountdown =>
    if fails then s.launchAt t (.returned false)
    else if s.lock.isSome then s
    else (s.updateRoomStatus .waiting s.currentMatchId).launchAt t (.returned false)
  | .lockRoom =>
    if fails then s.launchAt t (.revert false)
    else if s.lock.isSome then s
    -- ROOM_ALREADY_STARTED: `handleLaunchError` leaves the winner's room alone
    else if !s.launchable then s.launchAt t (.returned false)
    else { s with lock := some t }.launchAt t .claimRoom
  | .claimRoom =>
    if fails then { s with lock := none }.launchAt t (.revert false)
    else { s.updateRoomStatus .starting s.currentMatchId with lock := none }.launchAt t .readRoster
  | .readRoster =>
    if fails || s.players.length < 2 then s.launchAt t (.revert true) else s.launchAt t (.insertMatch s.players)
  | .insertMatch roster => if fails then s.launchAt t (.revert true) else s.launchAt t (.updateRoom roster)
  | .updateRoom roster =>
    if fails then s.launchAt t (.revert true)
    else if s.lock.isSome then s
    else
      { s.updateRoomStatus .starting (some t) with
        matchRows := s.matchRows ++ [(t, roster)] }.launchAt t .acquireOwnership
  | .acquireOwnership => s.launchAt t (if fails then .cleanup else .startMatchLoop)
  | .startMatchLoop =>
    if fails then s.launchAt t .cleanup
    else if s.lock.isSome then s
    else (s.updateRoomStatus .inGame (some t)).launchAt t .runMatchLoop
  | .runMatchLoop => s.launchAt t (if fails then .cleanup else .returned true)
  -- a failed delete is logged and the rollback goes on
  | .cleanup => s.launchAt t (.revert true)
  | .revert _ => if s.lock.isSome then s else (s.updateRoomStatus .waiting none).launchAt t (.returned false)
  | .returned _ => s

def lobbyStep (s : Lobby) (t : ℕ) (fails : Bool) : CountdownStage → Lobby
  | .start =>
    if fails then s.setTask t none
    else if s.lock.isSome then s
    else (s.updateRoomStatus .countdown s.currentMatchId).setTask t (some (.lobby .persist))
  | .persist => s.setTask t (if fails then some (.lobby .stop) else none)
  | .stop =>
    if fails then s.setTask t none
    else if s.lock.isSome then s
    else (s.updateRoomStatus .waiting s.currentMatchId).setTask t none

/-- the next statement of a task -/
def taskStep (s : Lobby) (t : ℕ) (fails : Bool) : Lobby :=
  match s.tasks t with
  | none => s
  | some (.join userId stage) => s.joinStep t userId fails stage
  | some (.launch stage) => s.launchStep t fails stage
  | some (.lobby stage) => s.lobbyStep t fails stage

inductive RoomOp where
  | joinRoom (t : ℕ) (userId : String)
  | leaveRoom (userId : String)
  /-- a `roomPlayer.create` outside `joinRoom`: the host of a new room, the players and bots of a matched group -/
  | insertPlayer (userId : String)
  | launchRoomMatch (t : ℕ)
  | maybeStartPublicCountdown (t : ℕ)
  | handleRoomPlayerLeft (t : ℕ) (leavingPlayerIds : List String)
  /-- the countdown recovery gives up: its write expects COUNTDOWN and no match -/
  | abortRecovery
  /-- `launchMatchedGame` gives up, on a socket that does not join or a launch without a match: its write expects nothing -/
  | closeMatchedRoom
  | task (t : ℕ) (fails : Bool)

/-- a call of `t` opens with a read of the room -/
def opened (s : Lobby) (t : ℕ) (task : Option RoomTask) : Lobby := if s.tasks t = none then s.setTask t task else s

def step (s : Lobby) : RoomOp → Lobby
  | .joinRoom t userId =>
    -- a rejoin, a spectator and a refusal write no row
    s.opened t (if userId ∉ s.players ∧ s.status = .waiting then some (.join userId .lockRoom) else none)
  | .leaveRoom userId =>
    { s with players := s.players.filter (· ≠ userId), admitted := s.admitted.filter (·.1 ≠ userId) }
  | .insertPlayer userId =>
    if s.lock.isSome ∨ userId ∈ s.players then s else { s with players := s.players ++ [userId] }
  | .launchRoomMatch t => s.opened t (some (.launch (.validate s.status s.players.length)))
  | .maybeStartPublicCountdown t =>
    s.opened t (if s.status = .waiting ∧ minPlayersToStart ≤ s.players.length then some (.lobby .start) else none)
  | .handleRoomPlayerLeft t leavingPlayerIds =>
    s.opened t (if s.status = .countdown ∧
      (s.players.filter (· ∉ leavingPlayerIds)).length < minPlayersToStart then some (.lobby .stop) else none)
  | .abortRecovery =>
    if s.lock.isSome ∨ s.status ≠ .countdown ∨ s.currentMatchId ≠ none then s else s.updateRoomStatus .waiting none
  | .closeMatchedRoom => if s.lock.isSome then s else s.updateRoomStatus .finished s.currentMatchId
  | .task t fails => s.taskStep t fails

/-! ## What a statement can do -/

inductive JoinMove (s : Lobby) (t : ℕ) (u : String) (fails : Bool) : JoinStage → Lobby → Prop where
  | waits (hl : s.lock.isSome = true) : JoinMove s t u fails .lockRoom s
  | quits : JoinMove s t u fails .lockRoom (s.setTask t none)
  | locks (hl : s.lock = none) :
      JoinMove s t u fails .lockRoom ({ s with lock := some t }.setTask t (some (.join u .findExisting)))
  | aborts (stage : JoinStage) (hs : stage ≠ .lockRoom) : JoinMove s t u fails stage (s.abort t)
  | rejoins : JoinMove s t u fails .findExisting (s.setTask t (some (.join u (.commit false))))
  | isNew : JoinMove s t u fails .findExisting (s.setTask t (some (.join u .countPlayers)))
  | fits (hc : s.players.length < s.maxPlayers) :
      JoinMove s t u fails .countPlayers (s.setTask t (some (.join u .createPlayer)))
  | creates : JoinMove s t u fails .createPlayer (s.setTask t (some (.join u (.commit true))))
  | commits (hf : fails = false) : JoinMove s t u fails (.commit true)
      ({ s with
          players := s.players ++ [u]
          admitted := s.admitted ++ [(u, s.standing)]
          lock := none }.setTask t none)

theorem joinStep_move (s : Lobby) (t : ℕ) (u : String) (fails : Bool) (stage : JoinStage) :
    JoinMove s t u fails stage (s.joinStep t u fails stage) := by
  cases stage with
  | lockRoom =>
    rw [joinStep]
    split_ifs with hf hl
    · exact .quits
    · exact .waits hl
    · exact .locks (by simpa using hl)
  | findExisting =>
    rw [joinStep]
    by_cases hf : fails = true
    · rw [if_pos hf]
      exact .aborts _ (by simp)
    · rw [if_neg hf]
      by_cases hu : u ∈ s.players
      · rw [if_pos hu]
        exact .rejoins
      · rw [if_neg hu]
        exact .isNew
  | countPlayers =>
    rw [joinStep]
    split_ifs with hf
    · exact .aborts _ (by simp)
    · refine .fits ?_
      simp only [Bool.or_eq_true, decide_eq_true_eq, not_or, not_le] at hf
      exact hf.2
  | createPlayer =>
    rw [joinStep]
    split_ifs with hf
    · exact .aborts _ (by simp)
    · exact .creates
  | commit didCreate =>
    rw [joinStep]
    split_ifs with hf
    · exact .aborts _ (by simp)
    · simp only [Bool.or_eq_true, Bool.not_eq_true', not_or, Bool.not_eq_true, Bool.not_eq_false] at hf
      obtain ⟨hf, rfl⟩ := hf
      exact .commits hf

/-- the stages a launch can pass to without touching the room -/
inductive Advance (s : Lobby) : LaunchStage → LaunchStage → Prop where
  | validated (status : RoomStatus) (players : ℕ) (next : LaunchStage)
      (hn : next = .returned false ∨ next = .rejectCountdown ∨ next = .lockRoom) :
      Advance s (.validate status players) next
  | rejectFailed : Advance s .rejectCountdown (.returned false)
  | lockFailed : Advance s .lockRoom (.revert false)
  | lost : Advance s .lockRoom (.returned false)
  | rosterFailed : Advance s .readRoster (.revert true)
  | roster : Advance s .readRoster (.insertMatch s.players)
  | insertFailed (roster : List String) : Advance s (.insertMatch roster) (.revert true)
  | inserted (roster : List String) : Advance s (.insertMatch roster) (.updateRoom roster)
  | updateFailed (roster : List String) : Advance s (.updateRoom roster) (.revert true)
  | owned : Advance s .acquireOwnership .startMatchLoop
  | loopFailed (stage : LaunchStage)
      (hs : stage = .acquireOwnership ∨ stage = .startMatchLoop ∨ stage = .runMatchLoop) : Advance s stage .cleanup
  | launched : Advance s .runMatchLoop (.returned true)
  | cleaned : Advance s .cleanup (.revert true)

inductive LaunchMove (s : Lobby) (t : ℕ) (fails : Bool) : LaunchStage → Lobby → Prop where
  | stays (stage : LaunchStage) : LaunchMove s t fails stage s
  | advances (stage next : LaunchStage) (h : Advance s stage next) : LaunchMove s t fails stage (s.launchAt t next)
  | rejects (hf : fails = false) (hl : s.lock = none) :
      LaunchMove s t fails .rejectCountdown
        ((s.updateRoomStatus .waiting s.currentMatchId).launchAt t (.returned false))
  | locks (hl : s.lock = none) (hs : s.launchable = true) :
      LaunchMove s t fails .lockRoom ({ s with lock := some t }.launchAt t .claimRoom)
  | unlocks : LaunchMove s t fails .claimRoom ({ s with lock := none }.launchAt t (.revert false))
  | claims :
      LaunchMove s t fails .claimRoom
        ({ s.updateRoomStatus .starting s.currentMatchId with lock := none }.launchAt t .readRoster)
  | creates (roster : List String) (hl : s.lock = none) :
      LaunchMove s t fails (.updateRoom roster) ({ s.updateRoomStatus .starting (some t) with
        matchRows := s.matchRows ++ [(t, roster)] }.launchAt t .acquireOwnership)
  | starts (hl : s.lock = none) :
      LaunchMove s t fails .startMatchLoop ((s.updateRoomStatus .inGame (some t)).launchAt t .runMatchLoop)
  | reverts (claimed : Bool) (hl : s.lock = none) :
      LaunchMove s t fails (.revert claimed) ((s.updateRoomStatus .waiting none).launchAt t (.returned false))

theorem launchStep_move (s : Lobby) (t : ℕ) (fails : Bool) (stage : LaunchStage) :
    LaunchMove s t fails stage (s.launchStep t fails stage) := by
  cases stage with
  | validate status players =>
    rw [launchStep]
    split_ifs
    · exact .advances _ _ (.validated _ _ _ (.inl rfl))
    · exact .advances _ _ (.validated _ _ _ (.inl rfl))
    · exact .advances _ _ (.validated _ _ _ (.inr (.inl rfl)))
    · exact .advances _ _ (.validated _ _ _ (.inl rfl))
    · exact .advances _ _ (.validated _ _ _ (.inr (.inr rfl)))
  | rejectCountdown =>
    rw [launchStep]
    split_ifs with hf hl
    · exact .advances _ _ .rejectFailed
    · exact .stays _
    · exact .rejects (by simpa using hf) (by simpa using hl)
  | lockRoom =>
    rw [launchStep]
    split_ifs with hf hl hs
    · exact .advances _ _ .lockFailed
    · exact .stays _
    · exact .advances _ _ .lost
    · exact .locks (by simpa using hl) (by simpa using hs)
  | claimRoom =>
    rw [launchStep]
    split_ifs
    · exact .unlocks
    · exact .claims
  | readRoster =>
    rw [launchStep]
    split_ifs
    · exact .advances _ _ .rosterFailed
    · exact .advances _ _ .roster
  | insertMatch roster =>
    rw [launchStep]
    split_ifs
    · exact .advances _ _ (.insertFailed roster)
    · exact .advances _ _ (.inserted roster)
  | updateRoom roster =>
    rw [launchStep]
    split_ifs with hf hl
    · exact .advances _ _ (.updateFailed roster)
    · exact .stays _
    · exact .creates roster (by simpa using hl)
  | acquireOwnership =>
    cases fails with
    | true => exact .advances _ _ (.loopFailed _ (.inl rfl))
    | false => exact .advances _ _ .owned
  | startMatchLoop =>
    rw [launchStep]
    split_ifs with hf hl
    · exact .advances _ _ (.loopFailed _ (.inr (.inl rfl)))
    · exact .stays _
    · exact .starts (by simpa using hl)
  | runMatchLoop =>
    cases fails with
    | true => exact .advances _ _ (.loopFailed _ (.inr (.inr rfl)))
    | false => exact .advances _ _ .launched
  | cleanup => exact .advances _ _ .cleaned
  | revert claimed =>
    rw [launchStep]
    split_ifs with hl
    · exact .stays _
    · exact .reverts claimed (by simpa using hl)
  | returned launched => exact .stays _

inductive LobbyMove (s : Lobby) (t : ℕ) (fails : Bool) : CountdownStage → Lobby → Prop where
  | stays (stage : CountdownStage) : LobbyMove s t fails stage s
  | advances (stage : CountdownStage) (task : Option RoomTask) (h : ∀ r, task = some r → ∃ next, r = .lobby next) :
      LobbyMove s t fails stage (s.setTask t task)
  | writes (stage : CountdownStage) (status : RoomStatus) (task : Option RoomTask)
      (h : ∀ r, task = some r → ∃ next, r = .lobby next) (hs : stage ≠ .persist)
      (hw : status = .waiting ∨ status = .countdown) (hf : fails = false) (hl : s.lock = none) :
      LobbyMove s t fails stage ((s.updateRoomStatus status s.currentMatchId).setTask t task)

theorem lobbyStep_move (s : Lobby) (t : ℕ) (fails : Bool) (stage : CountdownStage) :
    LobbyMove s t fails stage (s.lobbyStep t fails stage) := by
  cases stage with
  | start =>
    rw [lobbyStep]
    split_ifs with hf hl
    · exact .advances _ none (by simp)
    · exact .stays _
    · exact .writes _ .countdown _ (by simp) (by simp) (.inr rfl) (by simpa using hf) (by simpa using hl)
  | persist =>
    cases fails with
    | true => exact .advances _ _ (by simp)
    | false => exact .advances _ none (by simp)
  | stop =>
    rw [lobbyStep]
    split_ifs with hf hl
    · exact .advances _ none (by simp)
    · exact .stays _
    · exact .writes _ .waiting none (by simp) (by simp) (.inl rfl) (by simpa using hf) (by simpa using hl)

/-- what the next statement of a task can do -/
inductive TaskMove (s : Lobby) (t : ℕ) (fails : Bool) : Lobby → Prop where
  | idle : TaskMove s t fails s
  | join (u : String) (stage : JoinStage) (htask : s.tasks t = some (.join u stage)) (s' : Lobby)
      (hm : JoinMove s t u fails stage s') : TaskMove s t fails s'
  | launch (stage : LaunchStage) (htask : s.tasks t = some (.launch stage)) (s' : Lobby)
      (hm : LaunchMove s t fails stage s') : TaskMove s t fails s'
  | lobby (stage : CountdownStage) (htask : s.tasks t = some (.lobby stage)) (s' : Lobby)
      (hm : LobbyMove s t fails stage s') : TaskMove s t fails s'

theorem taskStep_move (s : Lobby) (t : ℕ) (fails : Bool) : TaskMove s t fails (s.taskStep t fails) := by
  unfold taskStep
  split
  · exact .idle
  · rename_i u stage htask
    exact .join u stage htask _ (joinStep_move s t u fails stage)
  · rename_i stage htask
    exact .launch stage htask _ (launchStep_move s t fails stage)
  · rename_i stage htask
    exact .lobby stage htask _ (lobbyStep_move s t fails stage)

/-! ## Frames -/

section Frames

variable {s s' : Lobby} {t : ℕ} {fails : Bool}

theorem LaunchMove.rows {stage : LaunchStage} (h : LaunchMove s t fails stage s') :
    s'.players = s.players ∧ s'.maxPlayers = s.maxPlayers ∧ s'.admitted = s.admitted := by
  cases h with
  | _ => exact ⟨rfl, rfl, rfl⟩

theorem LobbyMove.rows {stage : CountdownStage} (h : LobbyMove s t fails stage s') :
    s'.players = s.players ∧ s'.maxPlayers = s.maxPlayers ∧ s'.admitted = s.admitted ∧ s'.matchRows = s.matchRows := by
  cases h with
  | _ => exact ⟨rfl, rfl, rfl, rfl⟩

theorem JoinMove.room {u : String} {stage : JoinStage} (h : JoinMove s t u fails stage s') :
    s'.status = s.status ∧ s'.currentMatchId = s.currentMatchId ∧ s'.maxPlayers = s.maxPlayers ∧
      s'.matchRows = s.matchRows := by
  cases h with
  | _ => exact ⟨rfl, rfl, rfl, rfl⟩

/-- a task of another is left alone, and a launch stays one -/
theorem LaunchMove.tasks {stage : LaunchStage} (h : LaunchMove s t fails stage s')
    (htask : s.tasks t = some (.launch stage)) :
    ∃ next, s'.tasks = Function.update s.tasks t (some (.launch next)) := by
  cases h with
  | stays => exact ⟨stage, by rw [← htask, Function.update_eq_self]⟩
  | advances _ next hadv => exact ⟨next, rfl⟩
  | _ => exact ⟨_, rfl⟩

theorem LobbyMove.tasks {stage : CountdownStage} (h : LobbyMove s t fails stage s')
    (htask : s.tasks t = some (.lobby stage)) : ∃ new, s'.tasks = Function.update s.tasks t new ∧
      ∀ r, new = some r → ∃ next, r = .lobby next := by
  cases h with
  | stays =>
    refine ⟨some (.lobby stage), by rw [← htask, Function.update_eq_self], ?_⟩
    rintro r hr
    exact ⟨stage, (Option.some.inj hr).symm⟩
  | advances new hnew => exact ⟨new, rfl, hnew⟩
  | writes status new hnew => exact ⟨new, rfl, hnew⟩

theorem JoinMove.tasks {u : String} {stage : JoinStage} (h : JoinMove s t u fails stage s')
    (htask : s.tasks t = some (.join u stage)) : ∃ new, s'.tasks = Function.update s.tasks t new ∧
      ∀ r, new = some r → ∃ next, r = .join u next := by
  have hjoin : ∀ next r, some (RoomTask.join u next) = some r → ∃ next, r = .join u next :=
    fun next r hr => ⟨next, (Option.some.inj hr).symm⟩
  cases h with
  | waits => exact ⟨some (.join u .lockRoom), by rw [← htask, Function.update_eq_self], hjoin _⟩
  | quits => exact ⟨none, rfl, by simp⟩
  | locks => exact ⟨_, rfl, hjoin _⟩
  | aborts => exact ⟨none, rfl, by simp⟩
  | rejoins => exact ⟨_, rfl, hjoin _⟩
  | isNew => exact ⟨_, rfl, hjoin _⟩
  | fits => exact ⟨_, rfl, hjoin _⟩
  | creates => exact ⟨_, rfl, hjoin _⟩
  | commits => exact ⟨none, rfl, by simp⟩

/-- a call that opens leaves the tasks that run alone -/
theorem opened_tasks {new : Option RoomTask} {t' : ℕ} {task : RoomTask} (h : (s.opened t new).tasks t' = some task) :
    s.tasks t' = some task ∨ new = some task := by
  unfold opened at h
  split_ifs at h with hnone
  · simp only [setTask, Function.update_apply] at h
    split_ifs at h with heq
    · exact .inr h
    · exact .inl h
  · exact .inl h

theorem opened_rows (s : Lobby) (t : ℕ) (new : Option RoomTask) :
    (s.opened t new).status = s.status ∧ (s.opened t new).currentMatchId = s.currentMatchId ∧
      (s.opened t new).players = s.players ∧ (s.opened t new).maxPlayers = s.maxPlayers ∧
      (s.opened t new).admitted = s.admitted ∧ (s.opened t new).matchRows = s.matchRows ∧
      (s.opened t new).lock = s.lock := by
  unfold opened
  split_ifs
  · exact ⟨rfl, rfl, rfl, rfl, rfl, rfl, rfl⟩
  · exact ⟨rfl, rfl, rfl, rfl, rfl, rfl, rfl⟩

/-- the task an operation runs or opens -/
def RoomOp.caller : RoomOp → Option ℕ
  | .joinRoom t _ | .launchRoomMatch t | .maybeStartPublicCountdown t | .handleRoomPlayerLeft t _ | .task t _ => some t
  | _ => none

theorem opened_others (s : Lobby) {t k : ℕ} (new : Option RoomTask) (hk : k ≠ t) :
    (s.opened t new).tasks k = s.tasks k := by
  unfold opened
  split_ifs
  · exact Function.update_of_ne hk _ _
  · rfl

/-- an operation leaves the tasks of others alone -/
theorem step_others (s : Lobby) (o : RoomOp) {k : ℕ} (hk : o.caller ≠ some k) : (step s o).tasks k = s.tasks k := by
  have hne : ∀ t, o.caller = some t → k ≠ t := fun t ht heq => hk (heq ▸ ht)
  cases o with
  | joinRoom t u => exact opened_others s _ (hne t rfl)
  | leaveRoom u => rfl
  | insertPlayer u =>
    simp only [step]
    split_ifs
    · rfl
    · rfl
  | launchRoomMatch t => exact opened_others s _ (hne t rfl)
  | maybeStartPublicCountdown t => exact opened_others s _ (hne t rfl)
  | handleRoomPlayerLeft t ids => exact opened_others s _ (hne t rfl)
  | abortRecovery =>
    simp only [step]
    split_ifs
    · rfl
    · rfl
  | closeMatchedRoom =>
    simp only [step]
    split_ifs
    · rfl
    · rfl
  | task t fails =>
    have hmove := taskStep_move s t fails
    simp only [step]
    generalize s.taskStep t fails = s' at hmove
    cases hmove with
    | idle => rfl
    | join u stage htask _ hm =>
      obtain ⟨new, htasks, -⟩ := hm.tasks htask
      rw [htasks, Function.update_of_ne (hne t rfl)]
    | launch stage htask _ hm =>
      obtain ⟨next, htasks⟩ := hm.tasks htask
      rw [htasks, Function.update_of_ne (hne t rfl)]
    | lobby stage htask _ hm =>
      obtain ⟨new, htasks, -⟩ := hm.tasks htask
      rw [htasks, Function.update_of_ne (hne t rfl)]

/-- a task that no operation names does not appear -/
theorem run_others (s : Lobby) (ops : List RoomOp) {k : ℕ} (hk : ∀ o ∈ ops, o.caller ≠ some k) :
    (run step s ops).tasks k = s.tasks k := by
  induction ops generalizing s with
  | nil => rfl
  | cons o ops ih =>
    rw [run_cons, ih _ fun o' ho' => hk o' (List.mem_cons_of_mem _ ho')]
    exact step_others s o (hk o List.mem_cons_self)

end Frames

/-! ## The row lock -/

/-- a task past its lock holds it -/
def Holds (lock : Option ℕ) (tasks : ℕ → Option RoomTask) : Prop :=
  ∀ t task, tasks t = some task → task.locks = true → lock = some t

variable {lock : Option ℕ} {tasks : ℕ → Option RoomTask} {t : ℕ}

theorem Holds.update (h : Holds lock tasks) (new : Option RoomTask)
    (hn : ∀ task, new = some task → task.locks = true → lock = some t) :
    Holds lock (Function.update tasks t new) := by
  intro t' task ht hlocks
  rw [Function.update_apply] at ht
  split_ifs at ht with heq
  · exact heq ▸ hn task ht hlocks
  · exact h t' task ht hlocks

theorem Holds.acquire (h : Holds none tasks) (t : ℕ) (new : Option RoomTask) :
    Holds (some t) (Function.update tasks t new) := by
  intro t' task ht hlocks
  rw [Function.update_apply] at ht
  split_ifs at ht with heq
  · exact heq ▸ rfl
  · cases h t' task ht hlocks

theorem Holds.release (h : Holds lock tasks) (hl : lock = some t) (new : Option RoomTask)
    (hn : ∀ task, new = some task → task.locks = false) : Holds none (Function.update tasks t new) := by
  intro t' task ht hlocks
  rw [Function.update_apply] at ht
  split_ifs at ht with heq
  · rw [hn task ht] at hlocks
    cases hlocks
  · have hheld := h t' task ht hlocks
    rw [hl] at hheld
    exact absurd (Option.some.inj hheld).symm heq

theorem Holds.opened {s : Lobby} (h : Holds s.lock s.tasks) (t : ℕ) (new : Option RoomTask)
    (hn : ∀ task, new = some task → task.locks = false) : Holds (s.opened t new).lock (s.opened t new).tasks := by
  unfold Lobby.opened
  split_ifs
  · refine h.update new fun task htask hlocks => ?_
    rw [hn task htask] at hlocks
    cases hlocks
  · exact h

theorem taskStep_holds (s : Lobby) (t : ℕ) (fails : Bool) (h : Holds s.lock s.tasks) :
    Holds (s.taskStep t fails).lock (s.taskStep t fails).tasks := by
  have hmove := taskStep_move s t fails
  generalize s.taskStep t fails = s' at hmove
  cases hmove with
  | idle => exact h
  | join u stage htask _ hm =>
    have hlocked : stage ≠ .lockRoom → s.lock = some t := by
      intro hne
      refine h t _ htask ?_
      cases stage with
      | lockRoom => exact absurd rfl hne
      | _ => rfl
    cases hm with
    | waits hl => exact h
    | quits => exact h.update none (by simp)
    | locks hl => exact Holds.acquire (hl ▸ h) t _
    | aborts _ hs => exact h.release (hlocked hs) none (by simp)
    | rejoins => exact h.update _ fun _ _ _ => hlocked (by simp)
    | isNew => exact h.update _ fun _ _ _ => hlocked (by simp)
    | fits hc => exact h.update _ fun _ _ _ => hlocked (by simp)
    | creates => exact h.update _ fun _ _ _ => hlocked (by simp)
    | commits hf => exact h.release (hlocked (by simp)) none (by simp)
  | launch stage htask _ hm =>
    have hfree : ∀ next : LaunchStage, (RoomTask.launch next).locks = false →
        Holds s.lock (Function.update s.tasks t (some (.launch next))) := by
      intro next hnext
      refine h.update _ fun task htask' hlocks => ?_
      obtain rfl := Option.some.inj htask'
      rw [hnext] at hlocks
      cases hlocks
    have hrelease : stage = .claimRoom → ∀ next : LaunchStage, (RoomTask.launch next).locks = false →
        Holds none (Function.update s.tasks t (some (.launch next))) := by
      intro hs next hnext
      refine h.release (h t _ htask (hs ▸ rfl)) _ fun task htask' => ?_
      obtain rfl := Option.some.inj htask'
      exact hnext
    cases hm with
    | stays => exact h
    | advances _ next hadv =>
      refine hfree next ?_
      cases hadv with
      | validated status players _ hn =>
        rcases hn with rfl | rfl | rfl
        · rfl
        · rfl
        · rfl
      | _ => rfl
    | rejects hf hl => exact hfree _ rfl
    | locks hl hs => exact Holds.acquire (hl ▸ h) t _
    | unlocks => exact hrelease rfl _ rfl
    | claims => exact hrelease rfl _ rfl
    | creates roster hl => exact hfree _ rfl
    | starts hl => exact hfree _ rfl
    | reverts claimed hl => exact hfree _ rfl
  | lobby stage htask _ hm =>
    have hfree : ∀ new : Option RoomTask, (∀ r, new = some r → ∃ stage, r = .lobby stage) →
        Holds s.lock (Function.update s.tasks t new) := by
      intro new hnew
      refine h.update new fun task hnext hlocks => ?_
      obtain ⟨stage, rfl⟩ := hnew task hnext
      cases hlocks
    cases hm with
    | stays => exact h
    | advances new hnew => exact hfree new hnew
    | writes status new hnew => exact hfree new hnew

theorem step_holds (s : Lobby) (o : RoomOp) (h : Holds s.lock s.tasks) : Holds (s.step o).lock (s.step o).tasks := by
  cases o with
  | joinRoom t u =>
    refine h.opened t _ fun task htask => ?_
    split_ifs at htask
    obtain rfl := Option.some.inj htask
    rfl
  | leaveRoom u => exact h
  | insertPlayer u =>
    simp only [step]
    split_ifs
    · exact h
    · exact h
  | launchRoomMatch t =>
    refine h.opened t _ fun task htask => ?_
    obtain rfl := Option.some.inj htask
    rfl
  | maybeStartPublicCountdown t =>
    refine h.opened t _ fun task htask => ?_
    split_ifs at htask
    obtain rfl := Option.some.inj htask
    rfl
  | handleRoomPlayerLeft t ids =>
    refine h.opened t _ fun task htask => ?_
    split_ifs at htask
    obtain rfl := Option.some.inj htask
    rfl
  | abortRecovery =>
    simp only [step]
    split_ifs
    · exact h
    · exact h
  | closeMatchedRoom =>
    simp only [step]
    split_ifs
    · exact h
    · exact h
  | task t fails => exact taskStep_holds s t fails h

theorem holds_init (status : RoomStatus) (maxPlayers : ℕ) (players : List String) :
    Holds (init status maxPlayers players).lock (init status maxPlayers players).tasks := by
  intro t task ht
  cases ht

end Lobby

end Arena.Api
