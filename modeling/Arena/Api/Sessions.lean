/-
Sessions of users over their sockets: `handleAuthenticate`, `handleDisconnect` and `syncReconnection` of
`auth.handler.ts`, with `disconnectMatchPlayer` of `match-player-lifecycle.ts`, on all nodes.

Each node keeps `connectedPlayers` and `connectionGeneration` of its own; a handler suspended at an await is a `Handler`
of its node and goes on with the reply of what it awaits. The part of a handler before its first await is one step. The
cached machine of a match on a node is what `getStateMachine` finds there; hydration and every other call on it are
`other` steps. `newest` names the socket of the last AUTHENTICATE of each user, and no code reads it.
-/
import Arena.GameCore.Machine

namespace Arena.Api

open Arena.Lib Arena.Shared Arena.GameCore Arena.GameCore.Machine

/-! ## State -/

inductive Channel where
  | player (userId : String)
  | room (roomId : String)
deriving DecidableEq

def Channel.isPlayer : Channel → Bool
  | .player _ => true
  | .room _ => false

/-- `client.data` -/
structure SocketData where
  userId : String
  connectionGen : ℕ
deriving DecidableEq

structure ClientSocket where
  node : String
  /-- in the namespace of its node -/
  connected : Bool
  data : Option SocketData
deriving DecidableEq

/-- a row of `getUserActiveRooms` -/
structure ActiveRoom where
  roomId : String
  currentMatchId : Option String
  joinedAt : ℕ

/-- what the loop of `handleTrackedUserSwitchDisconnect` awaits; `rest` are the matches of the rooms still to visit -/
inductive CleanupStage where
  | activeRooms
  | getStateMachine (matchId : String) (rest : List (Option String))
  | persist (matchId : String) (rest : List (Option String))

/-- the loop is past its check of the tracking and has the machine next -/
def CleanupStage.marking : CleanupStage → Bool
  | .getStateMachine _ _ => true
  | _ => false

structure UserCleanup where
  userId : String
  stage : CleanupStage

/-- what `syncReconnection` awaits -/
inductive SyncStage where
  | activeRooms
  | updatePresence (room : ActiveRoom) (rest : List ActiveRoom) (mostRecent : ActiveRoom)
  | getStateMachine (matchId : String) (rest : List ActiveRoom) (mostRecent : ActiveRoom)
  | persist (rest : List ActiveRoom) (mostRecent : ActiveRoom)
  | countdownEnd (mostRecent : ActiveRoom)
  | isPresent (mostRecent : ActiveRoom)
  | snapshot

inductive HandlerStage where
  | disconnect (cleanup : UserCleanup)
  /-- an AUTHENTICATE that waits for the cleanup of the user its socket had before -/
  | switchUser (cleanup : UserCleanup) (userId : String) (oldSocketId : Option String)
  | sync (userId : String) (stage : SyncStage)

structure Handler where
  node : String
  socket : String
  stage : HandlerStage

def Handler.cleanup (h : Handler) : Option UserCleanup :=
  match h.stage with
  | .disconnect c => some c
  | .switchUser c _ _ => some c
  | .sync _ _ => none

/-- what an awaited call comes back with -/
structure SessionReply where
  /-- false when it throws -/
  ok : Bool
  /-- the outcome of a persist is APPLIED -/
  applied : Bool
  userActiveRooms : List ActiveRoom
  now : Clock

structure Sessions where
  sockets : JsMap String ClientSocket
  /-- the channels of each socket -/
  channels : JsMap String (List Channel)
  /-- by node and user -/
  connectedPlayers : JsMap (String × String) String
  connectionGeneration : JsMap (String × String) ℕ
  /-- the cached machines, by node and match -/
  machines : JsMap (String × String) Machine
  handlers : List Handler
  newest : JsMap String String

namespace Sessions

def empty : Sessions := ⟨.empty, .empty, .empty, .empty, .empty, [], .empty⟩

def await (s : Sessions) (h : Handler) : Sessions := { s with handlers := s.handlers ++ [h] }

/-- a client connects to a node -/
def connect (s : Sessions) (id node : String) : Sessions :=
  if s.sockets.has id then s
  else { s with sockets := s.sockets.set id ⟨node, true, none⟩, channels := s.channels.set id [] }

/-- `socket.disconnect(true)`, or the transport closes -/
def close (s : Sessions) (id : String) : Sessions :=
  { s with sockets := s.sockets.modify id fun client => { client with connected := false } }

def join (s : Sessions) (id : String) (c : Channel) : Sessions :=
  { s with channels := s.channels.modify id fun rooms => if c ∈ rooms then rooms else rooms ++ [c] }

/-! ## The cleanup of a tracked user -/

def clearTrackedConnection (s : Sessions) (node userId : String) : Sessions :=
  { s with
    connectedPlayers := s.connectedPlayers.delete (node, userId)
    connectionGeneration := s.connectionGeneration.delete (node, userId) }

/-- `handleTrackedUserSwitchDisconnect` up to its first await -/
def beginCleanup (s : Sessions) (node id userId : String) : Sessions :=
  let s1 := s.clearTrackedConnection node userId
  { s1 with channels := s1.channels.modify id fun rooms => rooms.filter Channel.isPlayer }

/-- the loop over the rooms, up to its next await: a tracked user is left alone -/
def nextRoom (s : Sessions) (node userId : String) (rest : List (Option String)) : Option CleanupStage :=
  if s.connectedPlayers.has (node, userId) then none
  else
    match rest.dropWhile Option.isNone with
    | some matchId :: rest => some (.getStateMachine matchId rest)
    | _ => none

/-- one stretch of the cleanup, and what it awaits next; a throw ends it -/
def continueCleanup (s : Sessions) (node userId : String) (r : SessionReply) :
    CleanupStage → Sessions × Option CleanupStage
  | .activeRooms =>
    if r.ok then (s, s.nextRoom node userId (r.userActiveRooms.map ActiveRoom.currentMatchId)) else (s, none)
  | .getStateMachine matchId rest =>
    if r.ok then
      match s.machines.get (node, matchId) with
      | none => (s, s.nextRoom node userId rest)
      | some m =>
        if m.state.players.has userId then
          ({ s with machines := s.machines.set (node, matchId) (m.disconnectPlayer userId r.now) },
            some (.persist matchId rest))
        else (s, s.nextRoom node userId rest)
    else (s, none)
  | .persist matchId rest =>
    if r.ok then
      -- without a canonical write the machine is evicted
      let s1 := if r.applied then s else { s with machines := s.machines.delete (node, matchId) }
      (s1, s1.nextRoom node userId rest)
    else (s, none)

/-! ## AUTHENTICATE -/

/-- from the kick of the old socket to `syncReconnection` -/
def kickOldSocket (s : Sessions) (node id userId : String) (oldSocketId : Option String) : Sessions :=
  let s1 := match oldSocketId with
    | some old => if old ≠ id then s.close old else s
    | none => s
  s1.await ⟨node, id, .sync userId .activeRooms⟩

/-- the identity of the socket and the tracking of the user, before anything is awaited -/
def track (s : Sessions) (client : ClientSocket) (id userId : String) : Sessions :=
  let newGen := (s.connectionGeneration.get (client.node, userId)).getD 0 + 1
  { s with
    connectedPlayers := s.connectedPlayers.set (client.node, userId) id
    connectionGeneration := s.connectionGeneration.set (client.node, userId) newGen
    sockets := s.sockets.set id { client with data := some ⟨userId, newGen⟩ }
    channels := s.channels.set id
      (((s.channels.get id).getD []).filter (fun c => !c.isPlayer) ++ [.player userId])
    newest := s.newest.set userId id }

/-- the user a socket was authenticated as before and is still tracked for -/
def previousUser (s : Sessions) (client : ClientSocket) (id userId : String) : Option String :=
  match client.data with
  | none => none
  | some previous =>
    if previous.userId ≠ userId ∧ s.connectedPlayers.get (client.node, previous.userId) = some id then
      some previous.userId
    else none

def handleAuthenticate (s : Sessions) (id userId : String) : Sessions :=
  match s.sockets.get id with
  | none => s
  | some client =>
    if client.connected then
      let oldSocketId := s.connectedPlayers.get (client.node, userId)
      let s1 := s.track client id userId
      match s1.previousUser client id userId with
      | some previous => (s1.beginCleanup client.node id previous).await
          ⟨client.node, id, .switchUser ⟨previous, .activeRooms⟩ userId oldSocketId⟩
      | none => s1.kickOldSocket client.node id userId oldSocketId
    else s

/-- the first pass of `syncReconnection`, up to its next await -/
def enterRoom (s : Sessions) (id : String) (mostRecent : ActiveRoom) : List ActiveRoom → Sessions × Option SyncStage
  | [] => (s, some (.countdownEnd mostRecent))
  | room :: rest => (s.join id (.room room.roomId), some (.updatePresence room rest mostRecent))

def sortedByJoinedAt (rooms : List ActiveRoom) : List ActiveRoom :=
  rooms.mergeSort fun a b => decide (b.joinedAt ≤ a.joinedAt)

/-- one stretch of `syncReconnection`; a throw is logged and ends it -/
def continueSync (s : Sessions) (node id userId : String) (r : SessionReply) :
    SyncStage → Sessions × Option SyncStage
  | .activeRooms =>
    if r.ok then
      match sortedByJoinedAt r.userActiveRooms with
      | [] => (s, none)
      | mostRecent :: rest => s.enterRoom id mostRecent (mostRecent :: rest)
    else (s, none)
  | .updatePresence room rest mostRecent =>
    if r.ok then
      match room.currentMatchId with
      | some matchId => (s, some (.getStateMachine matchId rest mostRecent))
      | none => s.enterRoom id mostRecent rest
    else (s, none)
  | .getStateMachine matchId rest mostRecent =>
    if r.ok then
      match s.machines.get (node, matchId) with
      | some m => ({ s with machines := s.machines.set (node, matchId) (m.reconnectPlayer userId r.now) },
          some (.persist rest mostRecent))
      | none => s.enterRoom id mostRecent rest
    else (s, none)
  | .persist rest mostRecent => if r.ok then s.enterRoom id mostRecent rest else (s, none)
  | .countdownEnd mostRecent => (s, if r.ok then some (.isPresent mostRecent) else none)
  | .isPresent mostRecent => (s, if r.ok ∧ mostRecent.currentMatchId.isSome then some .snapshot else none)
  | .snapshot => (s, none)

/-! ## The disconnect event -/

/-- a newer AUTHENTICATE on the node has bumped the generation -/
def supersededBy (data : SocketData) (liveGen : Option ℕ) : Bool :=
  match liveGen with
  | some gen => decide (data.connectionGen ≠ gen)
  | none => false

def handleDisconnect (s : Sessions) (id : String) : Sessions :=
  match s.sockets.get id with
  | none => s
  | some client =>
    match client.data with
    | none => s
    | some data =>
      if supersededBy data (s.connectionGeneration.get (client.node, data.userId)) then s
      else if s.connectedPlayers.get (client.node, data.userId) = some id then
        (s.beginCleanup client.node id data.userId).await
          ⟨client.node, id, .disconnect ⟨data.userId, .activeRooms⟩⟩
      else s

/-! ## Steps -/

inductive SessionOp where
  | connect (id node : String)
  | authenticate (id userId : String)
  | close (id : String)
  /-- the disconnect event of a closed socket -/
  | disconnected (id : String)
  /-- the i-th suspended handler goes on -/
  | resume (i : ℕ) (reply : SessionReply)
  /-- any other code of a node hydrates, changes or drops its machine of a match -/
  | other (node matchId : String) (stateMachine : Option Machine)

def resumeHandler (s : Sessions) (h : Handler) (r : SessionReply) : Sessions :=
  match h.stage with
  | .disconnect c =>
    let result := s.continueCleanup h.node c.userId r c.stage
    match result.2 with
    | some stage => result.1.await { h with stage := .disconnect { c with stage := stage } }
    | none => result.1
  | .switchUser c userId oldSocketId =>
    let result := s.continueCleanup h.node c.userId r c.stage
    match result.2 with
    | some stage => result.1.await { h with stage := .switchUser { c with stage := stage } userId oldSocketId }
    | none => result.1.kickOldSocket h.node h.socket userId oldSocketId
  | .sync userId stage =>
    let result := s.continueSync h.node h.socket userId r stage
    match result.2 with
    | some stage => result.1.await { h with stage := .sync userId stage }
    | none => result.1

def step (s : Sessions) : SessionOp → Sessions
  | .connect id node => s.connect id node
  | .authenticate id userId => s.handleAuthenticate id userId
  | .close id => s.close id
  | .disconnected id => if (s.sockets.get id).any fun client => !client.connected then s.handleDisconnect id else s
  | .resume i r =>
    match s.handlers[i]? with
    | none => s
    | some h => { s with handlers := s.handlers.eraseIdx i }.resumeHandler h r
  | .other node matchId stateMachine =>
    match stateMachine with
    | some m => { s with machines := s.machines.set (node, matchId) m }
    | none => { s with machines := s.machines.delete (node, matchId) }

end Sessions

end Arena.Api
