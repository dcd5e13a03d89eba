/-
Matchmaking: the queue store, the queue calls of users, and the launch of popped groups (`launchMatchedGame`,
`failPlayerAndRequeue`), for any number of groups at once and with any of the worker's calls failing.

A ticket has the fields that decide where it goes, and the number of the enqueue that made it. The selection of
`processQueue` is any list of distinct users, and one player is enough for a match. A group takes one step for each await;
a database or Redis call may fail before or after it takes effect, and a notification may throw.

- `step`: the operations of users, readers and groups;
- `groupStep_remaining`: each step brings a group closer to its end, whatever fails.
-/
import Arena.Lib.Run

namespace Arena.Api

open Arena.Lib

/-! ## The queue store -/

structure MatchmakingTicket where
  userId : String
  socketId : String
  /-- the enqueue that made the ticket -/
  id : ℕ
deriving DecidableEq, Repr

/-- the ticket keys and the sorted set -/
structure QueueStore where
  ticket : String → Option MatchmakingTicket
  zset : List String

/-- what goes wrong in `addTicket`: an error of a command or of the cleanup, or a pipeline that fails after it ran -/
structure AddFaults where
  setErr : Bool
  zaddErr : Bool
  cleanupErr : Bool
  lost : Bool
deriving DecidableEq, Repr

def AddFaults.none : AddFaults := ⟨false, false, false, false⟩

/-- whether both commands took effect -/
def AddFaults.added (f : AddFaults) : Bool := !f.setErr && !f.zaddErr

namespace QueueStore

def set (q : QueueStore) (t : MatchmakingTicket) : QueueStore :=
  { q with ticket := Function.update q.ticket t.userId (some t) }

def del (q : QueueStore) (userId : String) : QueueStore := { q with ticket := Function.update q.ticket userId none }

def zadd (q : QueueStore) (userId : String) : QueueStore :=
  if userId ∈ q.zset then q else { q with zset := q.zset ++ [userId] }

def zrem (q : QueueStore) (userIds : List String) : QueueStore := { q with zset := q.zset.filter (· ∉ userIds) }

/-- a command of a pipeline, which may be answered by an error -/
def command (err : Bool) (c : QueueStore → QueueStore) (q : QueueStore) : QueueStore := if err then q else c q

/-- the store, and whether the call throws -/
def addTicket (q : QueueStore) (t : MatchmakingTicket) (f : AddFaults) : QueueStore × Bool :=
  let written := command f.zaddErr (·.zadd t.userId) (command f.setErr (·.set t) q)
  if f.lost || f.added then (written, f.lost)
  else if f.cleanupErr then (written, true)
  else (command f.zaddErr (·.zrem [t.userId]) (command f.setErr (·.del t.userId) written), true)

/-- with a socket only a ticket of that socket is removed -/
def removeTicket (q : QueueStore) (userId : String) (socketId : Option String) : QueueStore :=
  match socketId, q.ticket userId with
  | some _, none => q
  | some socket, some t => if t.socketId ≠ socket then q else (q.del userId).zrem [userId]
  | none, _ => (q.del userId).zrem [userId]

/-- all tickets or none -/
def atomicPopTickets (q : QueueStore) (userIds : List String) : QueueStore × List MatchmakingTicket :=
  if userIds.all fun u => (q.ticket u).isSome then
    ({ q.zrem userIds with ticket := fun u => if u ∈ userIds then none else q.ticket u }, userIds.filterMap q.ticket)
  else (q.zrem (userIds.filter fun u => (q.ticket u).isNone), [])

end QueueStore

/-! ## Groups -/

/-- a call that took effect may still be reported as an error -/
inductive CallResult where
  | ok
  | failed
  | lost
deriving DecidableEq, Repr

/-- where `failPlayerAndRequeue` is -/
inductive FailStage where
  | cleanup
  | requeue
  | report (requeued : Bool)
deriving DecidableEq, Repr

/-- what comes after a failed player: the players still to add, `recovering` in the inner `try`, or to fail -/
inductive AfterFail where
  | addPlayers (successful todo : List MatchmakingTicket) (recovering : Bool)
  | failAll (todo : List MatchmakingTicket)
deriving DecidableEq, Repr

/-- where `launchMatchedGame` is -/
inductive GroupStage where
  | createRoom (players : List MatchmakingTicket)
  | requeueAll (todo : List MatchmakingTicket)
  | addPlayers (successful todo : List MatchmakingTicket)
  | findPlayer (successful : List MatchmakingTicket) (player : MatchmakingTicket) (todo : List MatchmakingTicket)
  | failPlayer (stage : FailStage) (player : MatchmakingTicket) (after : AfterFail)
  | fillBots (successful : List MatchmakingTicket)
  | joinSockets (successful todo : List MatchmakingTicket)
  | forceStart (successful : List MatchmakingTicket)
  | failAll (todo : List MatchmakingTicket)
  | closeRoom
  | notify (todo : List MatchmakingTicket)
  | done
deriving DecidableEq, Repr

/-- the steps that may be left, at most -/
def AfterFail.remaining : AfterFail → ℕ
  | .addPlayers successful todo recovering =>
    5 * successful.length + 12 * todo.length + 6 + if recovering then 4 else 0
  | .failAll todo => 4 * todo.length + 2

def FailStage.remaining : FailStage → ℕ
  | .cleanup => 3
  | .requeue => 2
  | .report _ => 1

def GroupStage.remaining : GroupStage → ℕ
  | .createRoom players => 12 * players.length + 1
  | .requeueAll todo => todo.length + 1
  | .addPlayers successful todo => 5 * successful.length + 12 * todo.length + 6
  | .findPlayer successful _ todo => 5 * successful.length + 12 * todo.length + 15
  | .failPlayer stage _ after => stage.remaining + after.remaining
  | .fillBots successful => 5 * successful.length + 5
  | .joinSockets successful todo => 4 * successful.length + todo.length + 4
  | .forceStart successful => 4 * successful.length + 3
  | .failAll todo => 4 * todo.length + 2
  | .closeRoom => 1
  | .notify todo => todo.length + 1
  | .done => 0

structure Group where
  popped : List MatchmakingTicket
  stage : GroupStage
  /-- the rows of its room -/
  room : List String
deriving DecidableEq, Repr

/-- after a player was reported -/
def Group.resume (grp : Group) : AfterFail → Group
  | .addPlayers successful todo _ => { grp with stage := .addPlayers successful todo }
  | .failAll todo => { grp with stage := .failAll todo }

/-- a throw out of `failPlayerAndRequeue`: the recovery's `catch` fails the player once more, the outer one gives up -/
def Group.thrown (grp : Group) (player : MatchmakingTicket) : AfterFail → Group
  | .addPlayers successful todo true =>
    { grp with stage := .failPlayer .cleanup player (.addPlayers successful todo false) }
  | _ => { grp with stage := .done }

inductive TicketOutcome where
  | matched
  | requeued
  | error
deriving DecidableEq, Repr

structure LaunchedMatch where
  group : ℕ
  players : List MatchmakingTicket
  roster : List String
deriving DecidableEq, Repr

structure Matchmaking where
  queue : QueueStore
  /-- the stale members that a reader of the queue found -/
  stale : ℕ → List String
  groups : ℕ → Option Group
  launched : List LaunchedMatch
  /-- history: what became of the tickets of each group -/
  outcomes : List (ℕ × MatchmakingTicket × TicketOutcome)
  /-- history: the ticket of the user's last enqueue, unless the user left since -/
  wanted : String → Option MatchmakingTicket
  nextId : ℕ

/-- what goes wrong in a step of a group, and the bots that were added -/
structure StepFaults where
  call : CallResult
  redisErr : Bool
  add : AddFaults
  emitErr : Bool
  bots : List String

def StepFaults.none : StepFaults := ⟨.ok, false, .none, false, []⟩

namespace Matchmaking

def init : Matchmaking where
  queue := ⟨fun _ => none, []⟩
  stale := fun _ => []
  groups := fun _ => none
  launched := []
  outcomes := []
  wanted := fun _ => none
  nextId := 0

def setGroup (s : Matchmaking) (g : ℕ) (grp : Group) : Matchmaking :=
  { s with groups := Function.update s.groups g (some grp) }

def record (s : Matchmaking) (g : ℕ) (t : MatchmakingTicket) (o : TicketOutcome) : Matchmaking :=
  { s with outcomes := s.outcomes ++ [(g, t, o)] }

/-- `addTicket` on a failure path; the ticket is back when both commands took effect and were not undone -/
def requeue (s : Matchmaking) (g : ℕ) (t : MatchmakingTicket) (f : AddFaults) : Matchmaking :=
  let s' := { s with queue := (s.queue.addTicket t f).1 }
  if f.added then s'.record g t .requeued else s'

/-- one player is inserted: the row, then the player set -/
def addPlayer (s : Matchmaking) (g : ℕ) (grp : Group) (f : StepFaults) (successful : List MatchmakingTicket)
    (player : MatchmakingTicket) (todo : List MatchmakingTicket) : Matchmaking :=
  let room := if f.call = .failed then grp.room else grp.room ++ [player.userId]
  if f.call = .ok && !f.redisErr then
    s.setGroup g { grp with room := room, stage := .addPlayers (successful ++ [player]) todo }
  else s.setGroup g { grp with room := room, stage := .findPlayer successful player todo }

/-- the recovery looks whether the row is there -/
def findPlayer (s : Matchmaking) (g : ℕ) (grp : Group) (f : StepFaults) (successful : List MatchmakingTicket)
    (player : MatchmakingTicket) (todo : List MatchmakingTicket) : Matchmaking :=
  if f.call ≠ .ok then
    s.setGroup g { grp with stage := .failPlayer .cleanup player (.addPlayers successful todo false) }
  else if player.userId ∉ grp.room then
    s.setGroup g { grp with stage := .failPlayer .cleanup player (.addPlayers successful todo true) }
  else if f.redisErr then
    s.setGroup g { grp with stage := .failPlayer .cleanup player (.addPlayers successful todo false) }
  else s.setGroup g { grp with stage := .addPlayers (successful ++ [player]) todo }

def failPlayer (s : Matchmaking) (g : ℕ) (grp : Group) (f : StepFaults) (player : MatchmakingTicket)
    (after : AfterFail) : FailStage → Matchmaking
  | .cleanup =>
    let room := if f.call = .failed then grp.room else grp.room.filter (· ≠ player.userId)
    let next := if f.call = .ok && !f.redisErr then .requeue else .report false
    s.setGroup g { grp with room := room, stage := .failPlayer next player after }
  | .requeue =>
    (s.requeue g player f.add).setGroup g
      { grp with stage := .failPlayer (.report !(s.queue.addTicket player f.add).2) player after }
  | .report requeued =>
    if f.emitErr then s.setGroup g (grp.thrown player after)
    else (if requeued then s else s.record g player .error).setGroup g (grp.resume after)

/-- the next step of a group -/
def groupStep (s : Matchmaking) (g : ℕ) (grp : Group) (f : StepFaults) : Matchmaking :=
  match grp.stage with
  | .createRoom [] => s.setGroup g { grp with stage := .done }
  | .createRoom (host :: players) =>
    if f.call = .ok then s.setGroup g { grp with room := [host.userId], stage := .addPlayers [host] players }
    else s.setGroup g { grp with stage := .requeueAll (host :: players) }
  | .requeueAll [] => s.setGroup g { grp with stage := .done }
  | .requeueAll (t :: todo) => (s.requeue g t f.add).setGroup g { grp with stage := .requeueAll todo }
  | .addPlayers successful [] => s.setGroup g { grp with stage := .fillBots successful }
  | .addPlayers successful (player :: todo) => s.addPlayer g grp f successful player todo
  | .findPlayer successful player todo => s.findPlayer g grp f successful player todo
  | .failPlayer stage player after => s.failPlayer g grp f player after stage
  | .fillBots successful =>
    s.setGroup g { grp with room := grp.room ++ f.bots, stage := .joinSockets successful successful }
  | .joinSockets successful [] => s.setGroup g { grp with stage := .forceStart successful }
  | .joinSockets successful (_ :: todo) =>
    if f.emitErr then s.setGroup g { grp with stage := .failAll successful }
    else s.setGroup g { grp with stage := .joinSockets successful todo }
  | .forceStart successful =>
    if f.call = .ok then
      let launchedMatch : LaunchedMatch := ⟨g, successful, grp.room⟩
      { s with launched := s.launched ++ [launchedMatch] }.setGroup g { grp with stage := .notify successful }
    else s.setGroup g { grp with stage := .failAll successful }
  | .failAll [] => s.setGroup g { grp with stage := .closeRoom }
  | .failAll (player :: todo) =>
    s.setGroup g { grp with stage := .failPlayer .cleanup player (.failAll todo) }
  | .closeRoom => s.setGroup g { grp with stage := .done }
  | .notify [] => s.setGroup g { grp with stage := .done }
  | .notify (player :: todo) =>
    if f.emitErr then s.setGroup g { grp with stage := .done }
    else (s.record g player .matched).setGroup g { grp with stage := .notify todo }
  | .done => s

/-! ## Steps -/

inductive MatchmakingOp where
  /-- `joinQueue` -/
  | enqueue (userId socketId : String)
  /-- `leaveQueue` -/
  | leave (userId : String) (socketId : Option String)
  /-- a ticket key expires -/
  | expire (userId : String)
  /-- `getAllTickets` reads the members without a ticket, and removes them later -/
  | readQueue (reader : ℕ)
  | prune (reader : ℕ)
  /-- `atomicPopTickets` and `launchMatchedGame` of what it returned -/
  | pop (g : ℕ) (userIds : List String) (reply : CallResult)
  | worker (g : ℕ) (f : StepFaults)

/-- the pop of a new group; a reply that is lost counts as no tickets -/
def pop (s : Matchmaking) (g : ℕ) (userIds : List String) (reply : CallResult) : Matchmaking :=
  if s.groups g ≠ none ∨ ¬userIds.Nodup then s
  else
    let (queue, popped) := s.queue.atomicPopTickets userIds
    match reply with
    | .ok => { s with queue := queue }.setGroup g ⟨popped, .createRoom popped, []⟩
    | .failed => s
    | .lost => { s with queue := queue }.setGroup g ⟨popped, .done, []⟩

def step (s : Matchmaking) : MatchmakingOp → Matchmaking
  | .enqueue userId socketId =>
    let t : MatchmakingTicket := ⟨userId, socketId, s.nextId⟩
    { s with
      queue := (s.queue.addTicket t .none).1
      wanted := Function.update s.wanted userId (some t)
      nextId := s.nextId + 1 }
  | .leave userId socketId =>
    { s with
      queue := s.queue.removeTicket userId socketId
      wanted := Function.update s.wanted userId ((s.wanted userId).filter fun t => socketId.any (· ≠ t.socketId)) }
  | .expire userId => { s with queue := s.queue.del userId }
  | .readQueue reader =>
    { s with stale := Function.update s.stale reader (s.queue.zset.filter fun u => (s.queue.ticket u).isNone) }
  | .prune reader => { s with queue := s.queue.zrem (s.stale reader) }
  | .pop g userIds reply => s.pop g userIds reply
  | .worker g f =>
    match s.groups g with
    | none => s
    | some grp => s.groupStep g grp f

/-! ## Groups come to their end -/

theorem setGroup_groups (s : Matchmaking) (g : ℕ) (grp : Group) : (s.setGroup g grp).groups g = some grp :=
  Function.update_self _ _ _

/-- a group that is not done has fewer steps left after the next one -/
theorem groupStep_remaining (s : Matchmaking) (g : ℕ) (grp : Group) (f : StepFaults) (hne : grp.stage ≠ .done) :
    ∃ grp', (s.groupStep g grp f).groups g = some grp' ∧ grp'.stage.remaining < grp.stage.remaining := by
  have hset : ∀ (s' : Matchmaking) (grp' : Group), grp'.stage.remaining < grp.stage.remaining →
      ∃ grp'', (s'.setGroup g grp').groups g = some grp'' ∧ grp''.stage.remaining < grp.stage.remaining :=
    fun s' grp' hlt => ⟨grp', setGroup_groups s' g grp', hlt⟩
  cases hs : grp.stage with
  | done => exact absurd hs hne
  | createRoom players =>
    rw [hs] at hset
    cases players with
    | nil =>
      simp only [groupStep, hs]
      exact hset _ _ (by simp only [GroupStage.remaining, List.length_nil]; omega)
    | cons host players =>
      simp only [groupStep, hs]
      split_ifs
      · exact hset _ _ (by simp only [GroupStage.remaining, List.length_cons, List.length_nil]; omega)
      · exact hset _ _ (by simp only [GroupStage.remaining, List.length_cons]; omega)
  | requeueAll todo =>
    rw [hs] at hset
    cases todo with
    | nil =>
      simp only [groupStep, hs]
      exact hset _ _ (by simp only [GroupStage.remaining, List.length_nil]; omega)
    | cons t todo =>
      simp only [groupStep, hs]
      exact hset _ _ (by simp only [GroupStage.remaining, List.length_cons]; omega)
  | addPlayers successful todo =>
    rw [hs] at hset
    cases todo with
    | nil =>
      simp only [groupStep, hs]
      exact hset _ _ (by simp only [GroupStage.remaining, List.length_nil]; omega)
    | cons player todo =>
      have hadded : (GroupStage.addPlayers (successful ++ [player]) todo).remaining <
          (GroupStage.addPlayers successful (player :: todo)).remaining := by
        simp only [GroupStage.remaining, List.length_append, List.length_cons, List.length_nil]
        omega
      have hfind : (GroupStage.findPlayer successful player todo).remaining <
          (GroupStage.addPlayers successful (player :: todo)).remaining := by
        simp only [GroupStage.remaining, List.length_cons]
        omega
      simp only [groupStep, hs]
      unfold addPlayer
      by_cases hok : (f.call = .ok && !f.redisErr) = true
      · rw [if_pos hok]
        exact hset _ _ hadded
      · rw [if_neg hok]
        exact hset _ _ hfind
  | findPlayer successful player todo =>
    rw [hs] at hset
    have hfail : ∀ recovering, (GroupStage.failPlayer .cleanup player
        (.addPlayers successful todo recovering)).remaining <
          (GroupStage.findPlayer successful player todo).remaining := by
      intro recovering
      simp only [GroupStage.remaining, FailStage.remaining, AfterFail.remaining]
      split_ifs
      · omega
      · omega
    simp only [groupStep, hs, findPlayer]
    split_ifs
    · exact hset _ _ (hfail false)
    · exact hset _ _ (hfail false)
    · exact hset _ _ (by simp only [GroupStage.remaining, List.length_append, List.length_cons, List.length_nil]; omega)
    · exact hset _ _ (hfail true)
  | failPlayer stage player after =>
    rw [hs] at hset
    simp only [groupStep, hs]
    cases stage with
    | cleanup =>
      simp only [failPlayer]
      have hnext : ∀ next : FailStage, next.remaining < 3 → (GroupStage.failPlayer next player after).remaining <
          (GroupStage.failPlayer .cleanup player after).remaining := fun next hlt => Nat.add_lt_add_right hlt _
      by_cases hok : (f.call = .ok && !f.redisErr) = true
      · rw [if_pos hok]
        exact hset _ _ (hnext .requeue (by decide))
      · rw [if_neg hok]
        exact hset _ _ (hnext (.report false) (by decide))
    | requeue =>
      simp only [failPlayer]
      exact hset _ _ (Nat.add_lt_add_right (show 1 < 2 by decide) _)
    | report requeued =>
      have hthrown : (grp.thrown player after).stage.remaining <
          (GroupStage.failPlayer (.report requeued) player after).remaining := by
        cases after with
        | failAll todo =>
          simp only [Group.thrown, GroupStage.remaining, FailStage.remaining, AfterFail.remaining]
          omega
        | addPlayers successful todo recovering =>
          cases recovering with
          | true =>
            simp only [Group.thrown, GroupStage.remaining, FailStage.remaining, AfterFail.remaining, if_true,
              Bool.false_eq_true, if_false]
            omega
          | false => simp only [Group.thrown, GroupStage.remaining, FailStage.remaining, AfterFail.remaining]; omega
      have hresume : (grp.resume after).stage.remaining <
          (GroupStage.failPlayer (.report requeued) player after).remaining := by
        cases after with
        | failAll todo =>
          simp only [Group.resume, GroupStage.remaining, FailStage.remaining, AfterFail.remaining]
          omega
        | addPlayers successful todo recovering =>
          simp only [Group.resume, GroupStage.remaining, FailStage.remaining, AfterFail.remaining]
          omega
      simp only [failPlayer]
      split_ifs
      · exact hset _ _ hthrown
      · exact hset _ _ hresume
      · exact hset _ _ hresume
  | fillBots successful =>
    rw [hs] at hset
    simp only [groupStep, hs]
    exact hset _ _ (by simp only [GroupStage.remaining]; omega)
  | joinSockets successful todo =>
    rw [hs] at hset
    cases todo with
    | nil =>
      simp only [groupStep, hs]
      exact hset _ _ (by simp only [GroupStage.remaining, List.length_nil]; omega)
    | cons player todo =>
      simp only [groupStep, hs]
      split_ifs
      · exact hset _ _ (by simp only [GroupStage.remaining, List.length_cons]; omega)
      · exact hset _ _ (by simp only [GroupStage.remaining, List.length_cons]; omega)
  | forceStart successful =>
    rw [hs] at hset
    simp only [groupStep, hs]
    split_ifs
    · exact hset _ _ (by simp only [GroupStage.remaining]; omega)
    · exact hset _ _ (by simp only [GroupStage.remaining]; omega)
  | failAll todo =>
    rw [hs] at hset
    cases todo with
    | nil =>
      simp only [groupStep, hs]
      exact hset _ _ (by simp only [GroupStage.remaining, List.length_nil]; omega)
    | cons player todo =>
      simp only [groupStep, hs]
      exact hset _ _ (by
        simp only [GroupStage.remaining, FailStage.remaining, AfterFail.remaining, List.length_cons]
        omega)
  | closeRoom =>
    rw [hs] at hset
    simp only [groupStep, hs]
    exact hset _ _ (by simp only [GroupStage.remaining]; omega)
  | notify todo =>
    rw [hs] at hset
    cases todo with
    | nil =>
      simp only [groupStep, hs]
      exact hset _ _ (by simp only [GroupStage.remaining, List.length_nil]; omega)
    | cons player todo =>
      simp only [groupStep, hs]
      split_ifs
      · exact hset _ _ (by simp only [GroupStage.remaining, List.length_cons]; omega)
      · exact hset _ _ (by simp only [GroupStage.remaining, List.length_cons]; omega)

end Matchmaking

end Arena.Api
