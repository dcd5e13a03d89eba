/-
The newest session of a user wins (`Api.Sessions`): no disconnect handling of another session touches its tracking or
marks its player DISCONNECTED.

The tracking holds without any condition. The mark does not: `handleTrackedUserSwitchDisconnect` re-checks the tracking,
then awaits the machine before it calls `disconnectPlayer`, and the tracking it checks is that of its own node.

- `SessionInv`, `step_sessionInv`: what holds around a live newest session;
- `newest_session_wins`: when each AUTHENTICATE finds no disconnect handling of its user past the re-check, and no other
  node that tracks the user or cleans up after it;
- `newest_session_disconnected`: the AUTHENTICATE falls into the await of the machine.
-/
import Arena.Api.Sessions
import Arena.GameCore.Winner
import Arena.Lib.Run

namespace Arena.Api.Sessions

open Arena.Lib Arena.Shared Arena.GameCore Arena.GameCore.Machine

/-! ## Statement -/

/-- the socket of the user's newest AUTHENTICATE is connected and has not become another user's -/
structure Live (s : Sessions) (userId id : String) (client : ClientSocket) (gen : ℕ) : Prop where
  newest : s.newest.get userId = some id
  socket : s.sockets.get id = some client
  connected : client.connected = true
  data : client.data = some ⟨userId, gen⟩

/-- the tracking of a live newest session is what its AUTHENTICATE wrote -/
structure TrackedAs (s : Sessions) (userId id : String) (client : ClientSocket) (gen : ℕ) : Prop where
  player : s.connectedPlayers.get (client.node, userId) = some id
  generation : s.connectionGeneration.get (client.node, userId) = some gen
  channel : ∃ rooms, s.channels.get id = some rooms ∧ .player userId ∈ rooms

def statusOf (s : Sessions) (node matchId userId : String) : Option PlayerStatus :=
  (s.machines.get (node, matchId)).bind fun m => (m.state.players.get userId).map PlayerInfo.status

/-- a call on a machine that is not made by these handlers -/
def SessionOp.isOther : SessionOp → Bool
  | .other _ _ _ => true
  | _ => false

/-- a step leaves the tracking of live newest sessions, and marks none of their players DISCONNECTED -/
structure NewestWins (s : Sessions) (o : SessionOp) : Prop where
  tracked : ∀ userId id client gen, Live (s.step o) userId id client gen → TrackedAs (s.step o) userId id client gen
  unmarked : o.isOther = false → ∀ userId id client gen, Live s userId id client gen → ∀ node matchId,
    (s.step o).statusOf node matchId userId = some .disconnected →
      s.statusOf node matchId userId = some .disconnected

/-- an AUTHENTICATE finds no disconnect handling of its user that has passed the check of the tracking, and none at all,
nor a tracked socket of the user, on another node -/
def FindsNoCleanup (s : Sessions) : SessionOp → Prop
  | .authenticate id userId => ∀ client ∈ s.sockets.get id,
      (∀ k ∈ s.connectedPlayers.keys, k.2 = userId → k.1 = client.node) ∧
        ∀ h ∈ s.handlers, ∀ c ∈ h.cleanup, c.userId = userId → h.node = client.node ∧ c.stage.marking = false
  | _ => True

instance (s : Sessions) : (o : SessionOp) → Decidable (FindsNoCleanup s o)
  | .authenticate id userId => inferInstanceAs (Decidable (∀ client ∈ s.sockets.get id,
      (∀ k ∈ s.connectedPlayers.keys, k.2 = userId → k.1 = client.node) ∧
        ∀ h ∈ s.handlers, ∀ c ∈ h.cleanup, c.userId = userId → h.node = client.node ∧ c.stage.marking = false))
  | .connect _ _ | .close _ | .disconnected _ | .resume _ _ | .other _ _ _ => .isTrue trivial

/-! ## Invariant -/

structure SessionInv (s : Sessions) : Prop where
  tracked : ∀ userId id client gen, Live s userId id client gen → TrackedAs s userId id client gen
  /-- no other node tracks the user of a live newest session -/
  alone : ∀ userId id client gen, Live s userId id client gen → ∀ node, node ≠ client.node →
    s.connectedPlayers.get (node, userId) = none
  /-- nor cleans up after it, and no cleanup of its own node is past its check -/
  checked : ∀ userId id client gen, Live s userId id client gen → ∀ h ∈ s.handlers, ∀ c, h.cleanup = some c →
    c.userId = userId → h.node = client.node ∧ c.stage.marking = false

/-- what a step leaves of everything around the live newest sessions -/
structure Spares (s s' : Sessions) : Prop where
  live : ∀ userId id client gen, Live s' userId id client gen → Live s userId id client gen
  players : ∀ userId id client gen, Live s' userId id client gen → ∀ node,
    s'.connectedPlayers.get (node, userId) = s.connectedPlayers.get (node, userId)
  generation : ∀ userId id client gen, Live s' userId id client gen →
    s'.connectionGeneration.get (client.node, userId) = s.connectionGeneration.get (client.node, userId)
  channel : ∀ userId id client gen, Live s' userId id client gen → ∀ rooms, s.channels.get id = some rooms →
    .player userId ∈ rooms → ∃ rooms', s'.channels.get id = some rooms' ∧ .player userId ∈ rooms'
  handlers : ∀ userId id client gen, Live s' userId id client gen → ∀ h ∈ s'.handlers, ∀ c, h.cleanup = some c →
    c.userId = userId → h ∈ s.handlers ∨ (h.node = client.node ∧ c.stage.marking = false)

section Steps

variable {s s' : Sessions}

theorem SessionInv.spared (h : SessionInv s) (hs : Spares s s') : SessionInv s' where
  tracked := by
    intro userId id client gen hlive
    have htracked := h.tracked userId id client gen (hs.live _ _ _ _ hlive)
    obtain ⟨rooms, hrooms, hmem⟩ := htracked.channel
    exact ⟨(hs.players _ _ _ _ hlive _).trans htracked.player,
      (hs.generation _ _ _ _ hlive).trans htracked.generation, hs.channel _ _ _ _ hlive rooms hrooms hmem⟩
  alone := by
    intro userId id client gen hlive node hnode
    rw [hs.players _ _ _ _ hlive node]
    exact h.alone userId id client gen (hs.live _ _ _ _ hlive) node hnode
  checked := by
    intro userId id client gen hlive handler hmem c hc hu
    rcases hs.handlers _ _ _ _ hlive handler hmem c hc hu with hold | hnew
    · exact h.checked userId id client gen (hs.live _ _ _ _ hlive) handler hold c hc hu
    · exact hnew

/-- nothing but machines and handlers changes -/
theorem spares_handlers (hsockets : s'.sockets = s.sockets) (hnewest : s'.newest = s.newest)
    (hplayers : s'.connectedPlayers = s.connectedPlayers)
    (hgeneration : s'.connectionGeneration = s.connectionGeneration) (hchannels : s'.channels = s.channels)
    (hhandlers : ∀ userId id client gen, Live s userId id client gen → ∀ h ∈ s'.handlers, ∀ c, h.cleanup = some c →
      c.userId = userId → h ∈ s.handlers ∨ (h.node = client.node ∧ c.stage.marking = false)) :
    Spares s s' := by
  have hlive : ∀ userId id client gen, Live s' userId id client gen → Live s userId id client gen := by
    intro userId id client gen h
    exact ⟨hnewest ▸ h.newest, hsockets ▸ h.socket, h.connected, h.data⟩
  refine ⟨hlive, ?_, ?_, ?_, ?_⟩
  · intro userId id client gen _ node
    rw [hplayers]
  · intro userId id client gen _
    rw [hgeneration]
  · intro userId id client gen _ rooms hrooms hmem
    exact ⟨rooms, by rw [hchannels, hrooms], hmem⟩
  · intro userId id client gen h
    exact hhandlers userId id client gen (hlive _ _ _ _ h)

theorem spares_await {h : Handler} (hnew : ∀ userId id client gen, Live s userId id client gen → ∀ c,
    h.cleanup = some c → c.userId = userId → h.node = client.node ∧ c.stage.marking = false) :
    Spares s (s.await h) := by
  refine spares_handlers rfl rfl rfl rfl rfl ?_
  intro userId id client gen hlive handler hmem c hc hu
  rcases List.mem_append.1 hmem with hold | hadded
  · exact .inl hold
  · rw [List.mem_singleton] at hadded
    subst hadded
    exact .inr (hnew userId id client gen hlive c hc hu)

theorem spares_close (s : Sessions) (id : String) : Spares s (s.close id) := by
  have hlive : ∀ userId id' client gen, Live (s.close id) userId id' client gen → Live s userId id' client gen := by
    intro userId id' client gen h
    refine ⟨h.newest, ?_, h.connected, h.data⟩
    have hsocket := h.socket
    rw [close, JsMap.get_modify] at hsocket
    split_ifs at hsocket with hid
    · obtain ⟨client', -, rfl⟩ := Option.map_eq_some_iff.1 hsocket
      exact absurd h.connected (by simp)
    · exact hsocket
  refine ⟨hlive, fun _ _ _ _ _ _ => rfl, fun _ _ _ _ _ => rfl, ?_, ?_⟩
  · intro userId id' client gen _ rooms hrooms hmem
    exact ⟨rooms, hrooms, hmem⟩
  · intro userId id' client gen _ h hmem c _ _
    exact .inl hmem

/-- a change of one socket's channels that keeps its player channels -/
theorem spares_channels (s : Sessions) (id : String) (f : List Channel → List Channel)
    (hf : ∀ rooms userId, Channel.player userId ∈ rooms → .player userId ∈ f rooms) :
    Spares s { s with channels := s.channels.modify id f } := by
  refine ⟨fun _ _ _ _ h => ⟨h.newest, h.socket, h.connected, h.data⟩, fun _ _ _ _ _ _ => rfl,
    fun _ _ _ _ _ => rfl, ?_, fun _ _ _ _ _ h hmem _ _ _ => .inl hmem⟩
  intro userId id' client gen _ rooms hrooms hmem
  rw [JsMap.get_modify, hrooms]
  split_ifs
  · exact ⟨f rooms, rfl, hf rooms userId hmem⟩
  · exact ⟨rooms, rfl, hmem⟩

theorem spares_join (s : Sessions) (id : String) (c : Channel) : Spares s (s.join id c) := by
  refine spares_channels s id _ ?_
  intro rooms userId hmem
  split_ifs
  · exact hmem
  · exact List.mem_append_left _ hmem

/-- clearing a user without a live session -/
theorem spares_clear (node userId : String) (hnot : ∀ id client gen, ¬Live s userId id client gen) :
    Spares s (s.clearTrackedConnection node userId) := by
  have hne : ∀ {userId' id client gen}, Live (s.clearTrackedConnection node userId) userId' id client gen →
      userId ≠ userId' := by
    intro userId' id client gen h heq
    subst heq
    exact hnot id client gen ⟨h.newest, h.socket, h.connected, h.data⟩
  refine ⟨fun _ _ _ _ h => ⟨h.newest, h.socket, h.connected, h.data⟩, ?_, ?_, fun _ _ _ _ _ rooms hrooms hmem =>
    ⟨rooms, hrooms, hmem⟩, fun _ _ _ _ _ h hmem _ _ _ => .inl hmem⟩
  · intro userId' id client gen h node'
    rw [clearTrackedConnection, JsMap.get_delete, if_neg]
    exact fun heq => hne h (Prod.mk.inj heq).2
  · intro userId' id client gen h
    rw [clearTrackedConnection, JsMap.get_delete, if_neg]
    exact fun heq => hne h (Prod.mk.inj heq).2

theorem beginCleanup_inv (h : SessionInv s) (node id userId : String)
    (hnot : ∀ id client gen, ¬Live s userId id client gen) : SessionInv (s.beginCleanup node id userId) := by
  refine (h.spared (spares_clear node userId hnot)).spared (spares_channels _ id _ ?_)
  intro rooms userId' hmem
  exact List.mem_filter.2 ⟨hmem, rfl⟩

/-- a tracked socket that is not connected as the user leaves the user without a live session -/
theorem not_live_of_tracked (h : SessionInv s) {node userId id : String}
    (htracked : s.connectedPlayers.get (node, userId) = some id)
    (hsocket : ∀ client gen, s.sockets.get id = some client → client.connected = true →
      client.data ≠ some ⟨userId, gen⟩) :
    ∀ id' client gen, ¬Live s userId id' client gen := by
  intro id' client gen hlive
  by_cases hnode : node = client.node
  · have hplayer := (h.tracked userId id' client gen hlive).player
    rw [← hnode, htracked] at hplayer
    obtain rfl := Option.some.inj hplayer
    exact hsocket client gen hlive.socket hlive.connected hlive.data
  · rw [h.alone userId id' client gen hlive node hnode] at htracked
    cases htracked

end Steps

/-! ## AUTHENTICATE and the disconnect event -/

section Events

variable {s : Sessions}

theorem connect_inv (h : SessionInv s) (id node : String) : SessionInv (s.connect id node) := by
  unfold connect
  split_ifs with hid
  · exact h
  have hfresh : s.sockets.get id = none := by simpa [JsMap.has] using hid
  have hlive : ∀ {userId id' client gen}, Live { s with
      sockets := s.sockets.set id ⟨node, true, none⟩, channels := s.channels.set id [] } userId id' client gen →
      Live s userId id' client gen ∧ id ≠ id' := by
    intro userId id' client gen hl
    have hsocket := hl.socket
    rw [JsMap.get_set] at hsocket
    split_ifs at hsocket with heq
    · obtain rfl := Option.some.inj hsocket
      cases hl.data
    · exact ⟨⟨hl.newest, hsocket, hl.connected, hl.data⟩, heq⟩
  refine h.spared ⟨fun _ _ _ _ hl => (hlive hl).1, fun _ _ _ _ _ _ => rfl, fun _ _ _ _ _ => rfl, ?_,
    fun _ _ _ _ _ _ hmem _ _ _ => .inl hmem⟩
  intro userId id' client gen hl rooms hrooms hmem
  refine ⟨rooms, ?_, hmem⟩
  rw [JsMap.get_set, if_neg (hlive hl).2]
  exact hrooms

theorem kickOldSocket_inv (h : SessionInv s) (node id userId : String) (oldSocketId : Option String) :
    SessionInv (s.kickOldSocket node id userId oldSocketId) := by
  have hsync : ∀ s1 : Sessions, SessionInv s1 → SessionInv (s1.await ⟨node, id, .sync userId .activeRooms⟩) := by
    intro s1 h1
    refine h1.spared (spares_await ?_)
    intro _ _ _ _ _ c hc
    cases hc
  apply hsync
  cases oldSocketId with
  | none => exact h
  | some old =>
    dsimp only
    split_ifs
    · exact h.spared (spares_close s old)
    · exact h

/-- the identity and the tracking are written together -/
theorem track_inv (h : SessionInv s) {client : ClientSocket} {id userId : String}
    (hsocket : s.sockets.get id = some client) (hfinds : FindsNoCleanup s (.authenticate id userId)) :
    SessionInv (s.track client id userId) := by
  obtain ⟨hplayers, hhandlers⟩ := hfinds client hsocket
  -- a session of the new state is the new one or an older one of another user on another socket
  have hcases : ∀ {userId' id' client' gen}, Live (s.track client id userId) userId' id' client' gen →
      (userId' = userId ∧ id' = id ∧
        client' = { client with data := some ⟨userId, gen⟩ } ∧
        gen = (s.connectionGeneration.get (client.node, userId)).getD 0 + 1) ∨
      (userId ≠ userId' ∧ id ≠ id' ∧ Live s userId' id' client' gen) := by
    intro userId' id' client' gen hl
    have hnewest := hl.newest
    have hsocket' := hl.socket
    simp only [track, JsMap.get_set] at hnewest hsocket'
    by_cases hid : id = id'
    · rw [if_pos hid] at hsocket'
      obtain rfl := Option.some.inj hsocket'
      have hdata := Option.some.inj hl.data
      obtain ⟨rfl, rfl⟩ := SocketData.mk.inj hdata
      exact .inl ⟨rfl, hid.symm, rfl, rfl⟩
    · rw [if_neg hid] at hsocket'
      by_cases hu : userId = userId'
      · rw [if_pos hu] at hnewest
        exact absurd (Option.some.inj hnewest) hid
      · rw [if_neg hu] at hnewest
        exact .inr ⟨hu, hid, ⟨hnewest, hsocket', hl.connected, hl.data⟩⟩
  refine ⟨?_, ?_, ?_⟩
  · intro userId' id' client' gen hl
    rcases hcases hl with ⟨rfl, rfl, rfl, rfl⟩ | ⟨hu, hid, hold⟩
    · refine ⟨by simp [track], by simp [track], ?_⟩
      exact ⟨_, by rw [track, JsMap.get_set, if_pos rfl], List.mem_append_right _ (List.mem_singleton.2 rfl)⟩
    · have htracked := h.tracked userId' id' client' gen hold
      have hkey : (client.node, userId) ≠ (client'.node, userId') := fun heq => hu (Prod.mk.inj heq).2
      obtain ⟨rooms, hrooms, hmem⟩ := htracked.channel
      refine ⟨?_, ?_, rooms, ?_, hmem⟩
      · rw [track, JsMap.get_set, if_neg hkey]
        exact htracked.player
      · rw [track, JsMap.get_set, if_neg hkey]
        exact htracked.generation
      · rw [track, JsMap.get_set, if_neg hid]
        exact hrooms
  · intro userId' id' client' gen hl node hnode
    rcases hcases hl with ⟨rfl, rfl, rfl, rfl⟩ | ⟨hu, hid, hold⟩
    · have hkey : (client.node, userId') ≠ (node, userId') := fun heq => hnode (Prod.mk.inj heq).1.symm
      rw [track, JsMap.get_set, if_neg hkey]
      cases hget : s.connectedPlayers.get (node, userId') with
      | none => rfl
      | some other => exact absurd (hplayers _ ((JsMap.mem_keys _ _).2 ⟨other, hget⟩) rfl) hnode
    · have hkey : (client.node, userId) ≠ (node, userId') := fun heq => hu (Prod.mk.inj heq).2
      rw [track, JsMap.get_set, if_neg hkey]
      exact h.alone userId' id' client' gen hold node hnode
  · intro userId' id' client' gen hl handler hmem c hc hcu
    rcases hcases hl with ⟨rfl, rfl, rfl, rfl⟩ | ⟨hu, hid, hold⟩
    · exact hhandlers handler hmem c hc hcu
    · exact h.checked userId' id' client' gen hold handler hmem c hc hcu

/-- a cleanup that has just begun, of a user without a live session -/
theorem begun_inv (h : SessionInv s) {node id userId : String}
    (hnot : ∀ id client gen, ¬Live s userId id client gen) {stage : HandlerStage}
    (hstage : ∀ c, Handler.cleanup ⟨node, id, stage⟩ = some c → c.userId = userId) :
    SessionInv ((s.beginCleanup node id userId).await ⟨node, id, stage⟩) := by
  refine (beginCleanup_inv h node id userId hnot).spared (spares_await ?_)
  intro userId' id' client gen hl c hc hu
  refine absurd ?_ (hnot id' client gen)
  rw [← hstage c hc, hu]
  exact ⟨hl.newest, hl.socket, hl.connected, hl.data⟩

theorem handleAuthenticate_inv (h : SessionInv s) (id userId : String)
    (hfinds : FindsNoCleanup s (.authenticate id userId)) : SessionInv (s.handleAuthenticate id userId) := by
  unfold handleAuthenticate
  cases hsocket : s.sockets.get id with
  | none => exact h
  | some client =>
    dsimp only
    split_ifs
    · have htrack := track_inv h hsocket hfinds
      cases hprevious : (s.track client id userId).previousUser client id userId with
      | none => exact kickOldSocket_inv htrack _ _ _ _
      | some previous =>
        have hother : previous ≠ userId ∧
            (s.track client id userId).connectedPlayers.get (client.node, previous) = some id := by
          unfold previousUser at hprevious
          split at hprevious
          · cases hprevious
          · split_ifs at hprevious with hcond
            exact Option.some.inj hprevious ▸ hcond
        refine begun_inv htrack (not_live_of_tracked htrack hother.2 ?_) ?_
        · intro client' gen hget _ hdata
          rw [track, JsMap.get_set, if_pos rfl] at hget
          obtain rfl := Option.some.inj hget
          exact hother.1 (SocketData.mk.inj (Option.some.inj hdata)).1.symm
        · intro c hc
          obtain rfl := Option.some.inj hc
          rfl
    · exact h

theorem handleDisconnect_inv (h : SessionInv s) (id : String)
    (hclosed : (s.sockets.get id).any (fun client => !client.connected) = true) :
    SessionInv (s.handleDisconnect id) := by
  unfold handleDisconnect
  cases hsocket : s.sockets.get id with
  | none => exact h
  | some client =>
    rw [hsocket, Option.any_some, Bool.not_eq_true'] at hclosed
    cases hdata : client.data with
    | none => simpa [hdata] using h
    | some data =>
      simp only [hdata]
      split_ifs with _ htracked
      · exact h
      · refine begun_inv h (not_live_of_tracked h htracked ?_) ?_
        · intro client' gen hget hconnected
          rw [hsocket] at hget
          obtain rfl := Option.some.inj hget
          rw [hclosed] at hconnected
          cases hconnected
        · intro c hc
          obtain rfl := Option.some.inj hc
          rfl
      · exact h

end Events

/-! ## Resumed handlers -/

section Resumed

variable {s : Sessions}

/-- the loop goes on to a machine only for a user that its node does not track -/
theorem nextRoom_untracked {node userId : String} {rest : List (Option String)} {stage : CleanupStage}
    (h : s.nextRoom node userId rest = some stage) : s.connectedPlayers.get (node, userId) = none := by
  unfold nextRoom at h
  split_ifs at h with htracked
  simpa [JsMap.has] using htracked

theorem continueCleanup_frame (s : Sessions) (node userId : String) (r : SessionReply) (stage : CleanupStage) :
    ∃ machines, (s.continueCleanup node userId r stage).1 = { s with machines := machines } := by
  cases stage with
  | activeRooms =>
    simp only [continueCleanup]
    split_ifs <;> exact ⟨s.machines, rfl⟩
  | getStateMachine matchId rest =>
    simp only [continueCleanup]
    split_ifs
    · cases s.machines.get (node, matchId) with
      | none => exact ⟨s.machines, rfl⟩
      | some m =>
        dsimp only
        split_ifs
        · exact ⟨_, rfl⟩
        · exact ⟨s.machines, rfl⟩
    · exact ⟨s.machines, rfl⟩
  | persist matchId rest =>
    simp only [continueCleanup]
    split_ifs
    · exact ⟨s.machines, rfl⟩
    · exact ⟨_, rfl⟩
    · exact ⟨s.machines, rfl⟩

theorem continueCleanup_next {node userId : String} {r : SessionReply} {stage next : CleanupStage}
    (h : (s.continueCleanup node userId r stage).2 = some next) (hmarking : next.marking = true) :
    s.connectedPlayers.get (node, userId) = none := by
  cases stage with
  | activeRooms =>
    simp only [continueCleanup] at h
    split_ifs at h
    exact nextRoom_untracked h
  | getStateMachine matchId rest =>
    simp only [continueCleanup] at h
    split_ifs at h
    cases hm : s.machines.get (node, matchId) with
    | none =>
      simp only [hm] at h
      exact nextRoom_untracked h
    | some m =>
      simp only [hm] at h
      split_ifs at h
      · obtain rfl := Option.some.inj h
        cases hmarking
      · exact nextRoom_untracked h
  | persist matchId rest =>
    simp only [continueCleanup] at h
    split_ifs at h
    · exact nextRoom_untracked h
    · exact nextRoom_untracked h

theorem continueCleanup_inv (h : SessionInv s) (node userId : String) (r : SessionReply) (stage : CleanupStage) :
    SessionInv (s.continueCleanup node userId r stage).1 := by
  obtain ⟨machines, hframe⟩ := continueCleanup_frame s node userId r stage
  rw [hframe]
  exact h.spared (spares_handlers rfl rfl rfl rfl rfl fun _ _ _ _ _ _ hmem _ _ _ => .inl hmem)

/-- a cleanup that goes on stays at its place around a live session of its user -/
theorem cleanup_await_inv (h : SessionInv s) {node id userId : String} {r : SessionReply} {stage next : CleanupStage}
    (hnode : ∀ id' client gen, Live s userId id' client gen → node = client.node)
    (hnext : (s.continueCleanup node userId r stage).2 = some next) {handlerStage : HandlerStage}
    (hstage : Handler.cleanup ⟨node, id, handlerStage⟩ = some ⟨userId, next⟩) :
    SessionInv ((s.continueCleanup node userId r stage).1.await ⟨node, id, handlerStage⟩) := by
  have hinv := continueCleanup_inv h node userId r stage
  obtain ⟨machines, hframe⟩ := continueCleanup_frame s node userId r stage
  rw [hframe] at hinv ⊢
  refine hinv.spared (spares_await ?_)
  intro userId' id' client gen hl c hc hu
  rw [hstage] at hc
  obtain rfl := Option.some.inj hc
  obtain rfl : userId = userId' := hu
  have hlive : Live s userId id' client gen := ⟨hl.newest, hl.socket, hl.connected, hl.data⟩
  refine ⟨hnode id' client gen hlive, ?_⟩
  by_contra hmarking
  rw [Bool.not_eq_false] at hmarking
  have hnone := continueCleanup_next hnext hmarking
  rw [hnode id' client gen hlive, (h.tracked userId id' client gen hlive).player] at hnone
  cases hnone

theorem enterRoom_inv (h : SessionInv s) (id : String) (mostRecent : ActiveRoom) (rest : List ActiveRoom) :
    SessionInv (s.enterRoom id mostRecent rest).1 := by
  cases rest with
  | nil => exact h
  | cons room rest => exact h.spared (spares_join s id _)

theorem continueSync_inv (h : SessionInv s) (node id userId : String) (r : SessionReply) (stage : SyncStage) :
    SessionInv (s.continueSync node id userId r stage).1 := by
  cases stage with
  | activeRooms =>
    simp only [continueSync]
    split_ifs
    · cases sortedByJoinedAt r.userActiveRooms with
      | nil => exact h
      | cons room rest => exact enterRoom_inv h id room _
    · exact h
  | updatePresence room rest mostRecent =>
    simp only [continueSync]
    split_ifs
    · cases room.currentMatchId with
      | none => exact enterRoom_inv h id mostRecent rest
      | some matchId => exact h
    · exact h
  | getStateMachine matchId rest mostRecent =>
    simp only [continueSync]
    split_ifs
    · cases s.machines.get (node, matchId) with
      | none => exact enterRoom_inv h id mostRecent rest
      | some m => exact h.spared (spares_handlers rfl rfl rfl rfl rfl fun _ _ _ _ _ _ hmem _ _ _ => .inl hmem)
    · exact h
  | persist rest mostRecent =>
    simp only [continueSync]
    split_ifs
    · exact enterRoom_inv h id mostRecent rest
    · exact h
  | countdownEnd mostRecent => exact h
  | isPresent mostRecent => exact h
  | snapshot => exact h

theorem resumeHandler_inv (h : SessionInv s) {i : ℕ} {handler : Handler} (hi : s.handlers[i]? = some handler)
    (r : SessionReply) :
    SessionInv ({ s with handlers := s.handlers.eraseIdx i }.resumeHandler handler r) := by
  have herased : SessionInv { s with handlers := s.handlers.eraseIdx i } :=
    h.spared (spares_handlers rfl rfl rfl rfl rfl fun _ _ _ _ _ x hmem _ _ _ =>
      .inl ((List.eraseIdx_sublist _ _).subset hmem))
  have hnode : ∀ c, handler.cleanup = some c → ∀ id client gen,
      Live { s with handlers := s.handlers.eraseIdx i } c.userId id client gen → handler.node = client.node := by
    intro c hc id client gen hl
    exact (h.checked c.userId id client gen ⟨hl.newest, hl.socket, hl.connected, hl.data⟩ handler
      (List.mem_of_getElem? hi) c hc rfl).1
  generalize { s with handlers := s.handlers.eraseIdx i } = s0 at herased hnode ⊢
  obtain ⟨node, id, stage⟩ := handler
  cases stage with
  | disconnect c =>
    cases hnext : (s0.continueCleanup node c.userId r c.stage).2 with
    | none => simpa only [resumeHandler, hnext] using continueCleanup_inv herased node c.userId r c.stage
    | some next => simpa only [resumeHandler, hnext] using cleanup_await_inv herased (hnode c rfl) hnext rfl
  | switchUser c userId oldSocketId =>
    cases hnext : (s0.continueCleanup node c.userId r c.stage).2 with
    | none =>
      simpa only [resumeHandler, hnext] using
        kickOldSocket_inv (continueCleanup_inv herased node c.userId r c.stage) node id userId oldSocketId
    | some next => simpa only [resumeHandler, hnext] using cleanup_await_inv herased (hnode c rfl) hnext rfl
  | sync userId stage =>
    have hsync := continueSync_inv herased node id userId r stage
    cases hnext : (s0.continueSync node id userId r stage).2 with
    | none => simpa only [resumeHandler, hnext] using hsync
    | some next =>
      simp only [resumeHandler, hnext]
      refine hsync.spared (spares_await ?_)
      intro _ _ _ _ _ c hc
      cases hc

theorem step_sessionInv (s : Sessions) (o : SessionOp) (hfinds : FindsNoCleanup s o) (h : SessionInv s) :
    SessionInv (s.step o) := by
  cases o with
  | connect id node => exact connect_inv h id node
  | authenticate id userId => exact handleAuthenticate_inv h id userId hfinds
  | close id => exact h.spared (spares_close s id)
  | disconnected id =>
    simp only [step]
    split_ifs with hclosed
    · exact handleDisconnect_inv h id hclosed
    · exact h
  | resume i r =>
    simp only [step]
    cases hi : s.handlers[i]? with
    | none => exact h
    | some handler => exact resumeHandler_inv h hi r
  | other node matchId stateMachine =>
    simp only [step]
    cases stateMachine with
    | none => exact h.spared (spares_handlers rfl rfl rfl rfl rfl fun _ _ _ _ _ _ hmem _ _ _ => .inl hmem)
    | some m => exact h.spared (spares_handlers rfl rfl rfl rfl rfl fun _ _ _ _ _ _ hmem _ _ _ => .inl hmem)

end Resumed

/-! ## Statuses -/

section Statuses

variable {s : Sessions}

theorem disconnectPlayer_others (m : Machine) {userId other : String} (h : userId ≠ other) (now : Clock) :
    (m.disconnectPlayer userId now).state.players.get other = m.state.players.get other := by
  unfold disconnectPlayer
  cases m.state.players.get userId with
  | none => rfl
  | some player =>
    dsimp only
    split_ifs <;> simp [logEvent, h]

/-- a reconnect marks nobody DISCONNECTED -/
theorem reconnectPlayer_status (m : Machine) (userId other : String) (now : Clock)
    (h : ((m.reconnectPlayer userId now).state.players.get other).map PlayerInfo.status = some .disconnected) :
    (m.state.players.get other).map PlayerInfo.status = some .disconnected := by
  unfold reconnectPlayer at h
  cases hp : m.state.players.get userId with
  | none => simpa only [hp] using h
  | some player =>
    simp only [hp] at h
    split_ifs at h with hoff
    · by_cases hu : userId = other
      · subst hu
        simp only [logEvent, JsMap.get_modify, if_pos, hp, Option.map_some, Option.some.injEq] at h ⊢
        split_ifs at h with hstatus
        exact absurd h hstatus
      · simpa [logEvent, hu] using h
    · exact h

/-- a write of one machine that marks nobody keeps the statuses of all -/
theorem statusOf_set {node matchId userId : String} {m m' : Machine} (hm : s.machines.get (node, matchId) = some m)
    (hkeeps : (m'.state.players.get userId).map PlayerInfo.status = some .disconnected →
      (m.state.players.get userId).map PlayerInfo.status = some .disconnected) (node' matchId' : String)
    (h : statusOf { s with machines := s.machines.set (node, matchId) m' } node' matchId' userId =
      some .disconnected) : s.statusOf node' matchId' userId = some .disconnected := by
  unfold statusOf at h ⊢
  rw [JsMap.get_set] at h
  split_ifs at h with hkey
  · rw [← hkey, hm]
    exact hkeeps h
  · exact h

theorem continueCleanup_status (node : String) {userId other : String} (r : SessionReply) {stage : CleanupStage}
    (hquiet : userId = other → stage.marking = false) (node' matchId' : String)
    (h : (s.continueCleanup node userId r stage).1.statusOf node' matchId' other = some .disconnected) :
    s.statusOf node' matchId' other = some .disconnected := by
  cases stage with
  | activeRooms =>
    simp only [continueCleanup] at h
    split_ifs at h <;> exact h
  | getStateMachine matchId rest =>
    have hne : userId ≠ other := by
      intro heq
      cases hquiet heq
    simp only [continueCleanup] at h
    split_ifs at h
    · cases hm : s.machines.get (node, matchId) with
      | none => simpa only [hm] using h
      | some m =>
        simp only [hm] at h
        split_ifs at h
        · refine statusOf_set hm ?_ node' matchId' h
          rw [disconnectPlayer_others m hne]
          exact id
        · exact h
    · exact h
  | persist matchId rest =>
    simp only [continueCleanup] at h
    split_ifs at h
    · exact h
    · unfold statusOf at h ⊢
      rw [JsMap.get_delete] at h
      split_ifs at h
      · cases h
      · exact h
    · exact h

theorem enterRoom_machines (s : Sessions) (id : String) (mostRecent : ActiveRoom) (rest : List ActiveRoom) :
    (s.enterRoom id mostRecent rest).1.machines = s.machines := by
  cases rest <;> rfl

theorem continueSync_status (node id userId : String) (r : SessionReply) (stage : SyncStage)
    (node' matchId' other : String)
    (h : (s.continueSync node id userId r stage).1.statusOf node' matchId' other = some .disconnected) :
    s.statusOf node' matchId' other = some .disconnected := by
  have henter : ∀ mostRecent rest, (s.enterRoom id mostRecent rest).1.statusOf node' matchId' other =
      some .disconnected → s.statusOf node' matchId' other = some .disconnected := by
    intro mostRecent rest hs
    rw [statusOf, enterRoom_machines] at hs
    exact hs
  cases stage with
  | activeRooms =>
    simp only [continueSync] at h
    split_ifs at h
    · cases hrooms : sortedByJoinedAt r.userActiveRooms with
      | nil => simpa only [hrooms] using h
      | cons room rest =>
        simp only [hrooms] at h
        exact henter _ _ h
    · exact h
  | updatePresence room rest mostRecent =>
    simp only [continueSync] at h
    split_ifs at h
    · cases hmatch : room.currentMatchId with
      | none =>
        simp only [hmatch] at h
        exact henter _ _ h
      | some matchId => simpa only [hmatch] using h
    · exact h
  | getStateMachine matchId rest mostRecent =>
    simp only [continueSync] at h
    split_ifs at h
    · cases hm : s.machines.get (node, matchId) with
      | none =>
        simp only [hm] at h
        exact henter _ _ h
      | some m =>
        simp only [hm] at h
        exact statusOf_set hm (reconnectPlayer_status m userId other r.now) node' matchId' h
    · exact h
  | persist rest mostRecent =>
    simp only [continueSync] at h
    split_ifs at h
    · exact henter _ _ h
    · exact h
  | countdownEnd mostRecent => exact h
  | isPresent mostRecent => exact h
  | snapshot => exact h

theorem kickOldSocket_machines (s : Sessions) (node id userId : String) (oldSocketId : Option String) :
    (s.kickOldSocket node id userId oldSocketId).machines = s.machines := by
  cases oldSocketId with
  | none => rfl
  | some old =>
    simp only [kickOldSocket]
    split_ifs <;> rfl

theorem handleAuthenticate_machines (s : Sessions) (id userId : String) :
    (s.handleAuthenticate id userId).machines = s.machines := by
  unfold handleAuthenticate
  cases s.sockets.get id with
  | none => rfl
  | some client =>
    dsimp only
    split_ifs
    · cases (s.track client id userId).previousUser client id userId with
      | none => exact kickOldSocket_machines _ _ _ _ _
      | some previous => rfl
    · rfl

theorem handleDisconnect_machines (s : Sessions) (id : String) : (s.handleDisconnect id).machines = s.machines := by
  unfold handleDisconnect
  cases s.sockets.get id with
  | none => rfl
  | some client =>
    dsimp only
    cases client.data with
    | none => rfl
    | some data =>
      dsimp only
      split_ifs <;> rfl

theorem resumeHandler_status {h : Handler} (r : SessionReply) {other : String}
    (hquiet : ∀ c, h.cleanup = some c → c.userId = other → c.stage.marking = false) (node' matchId' : String)
    (hs : (s.resumeHandler h r).statusOf node' matchId' other = some .disconnected) :
    s.statusOf node' matchId' other = some .disconnected := by
  obtain ⟨node, id, stage⟩ := h
  cases stage with
  | disconnect c =>
    refine continueCleanup_status node r (hquiet c rfl) node' matchId' ?_
    simp only [resumeHandler] at hs
    cases hnext : (s.continueCleanup node c.userId r c.stage).2 with
    | none => simpa only [hnext] using hs
    | some next =>
      simp only [hnext] at hs
      exact hs
  | switchUser c userId oldSocketId =>
    refine continueCleanup_status node r (hquiet c rfl) node' matchId' ?_
    simp only [resumeHandler] at hs
    cases hnext : (s.continueCleanup node c.userId r c.stage).2 with
    | none =>
      simp only [hnext, statusOf, kickOldSocket_machines] at hs
      exact hs
    | some next =>
      simp only [hnext] at hs
      exact hs
  | sync userId stage =>
    refine continueSync_status node id userId r stage node' matchId' other ?_
    simp only [resumeHandler] at hs
    cases hnext : (s.continueSync node id userId r stage).2 with
    | none => simpa only [hnext] using hs
    | some next =>
      simp only [hnext] at hs
      exact hs

/-- a step marks no player with a live newest session -/
theorem step_unmarked (h : SessionInv s) {o : SessionOp} (ho : o.isOther = false) {userId id : String}
    {client : ClientSocket} {gen : ℕ} (hlive : Live s userId id client gen) (node matchId : String)
    (hs : (s.step o).statusOf node matchId userId = some .disconnected) :
    s.statusOf node matchId userId = some .disconnected := by
  cases o with
  | connect id node =>
    simp only [step, connect] at hs
    split_ifs at hs <;> exact hs
  | authenticate id userId =>
    simp only [step, statusOf, handleAuthenticate_machines] at hs
    exact hs
  | close id => exact hs
  | disconnected id =>
    simp only [step] at hs
    split_ifs at hs
    · rw [statusOf, handleDisconnect_machines] at hs
      exact hs
    · exact hs
  | resume i r =>
    simp only [step] at hs
    cases hi : s.handlers[i]? with
    | none => simpa only [hi] using hs
    | some handler =>
      simp only [hi] at hs
      refine resumeHandler_status (s := { s with handlers := s.handlers.eraseIdx i }) r ?_ node matchId hs
      intro c hc hu
      exact (h.checked userId id client gen hlive handler (List.mem_of_getElem? hi) c hc hu).2
  | other node matchId stateMachine => cases ho

end Statuses

/-! ## Result -/

theorem sessionInv_empty : SessionInv empty := by
  have hnot : ∀ userId id client gen, ¬Live empty userId id client gen := by
    intro userId id client gen h
    cases h.newest
  exact ⟨fun _ _ _ _ h => absurd h (hnot _ _ _ _), fun _ _ _ _ h => absurd h (hnot _ _ _ _),
    fun _ _ _ _ h => absurd h (hnot _ _ _ _)⟩

/-- **The newest session wins.** In every run of AUTHENTICATEs, disconnect events and their resumed handlers over any
sockets, users and nodes, in which each AUTHENTICATE finds no disconnect handling of its user that has passed the check
of the tracking, and no other node that tracks the user or handles a disconnect of it: while the socket of a user's
newest AUTHENTICATE stays connected, its tracking is what that AUTHENTICATE wrote and no handler marks the player
DISCONNECTED in a match. -/
theorem newest_session_wins (ops : List SessionOp) (hfinds : Along step FindsNoCleanup empty ops) :
    Along step NewestWins empty ops := by
  refine along_of_inv step FindsNoCleanup NewestWins SessionInv step_sessionInv ?_ empty ops hfinds sessionInv_empty
  intro s o ho h
  exact ⟨(step_sessionInv s o ho h).tracked, fun hother userId id client gen hlive node matchId =>
    step_unmarked h hother hlive node matchId⟩

/-! ## Schedules -/

/-- the rooms of alice: the one of her match -/
def inMatch : List ActiveRoom := [⟨"r1", some "m1", 0⟩]

/-- an await that succeeds -/
def succeeds : SessionReply := ⟨true, true, inMatch, fun _ => 0⟩

def aliceAndBob : Machine := Machine.create "m1" "r1" [freshPlayer "alice", freshPlayer "bob"]

/-- alice authenticates on her first socket, which closes, and its disconnect handling reads her rooms -/
def firstSocket : List SessionOp :=
  [.other "n1" "m1" (some aliceAndBob), .connect "s1" "n1", .authenticate "s1" "alice"] ++
    List.replicate 7 (.resume 0 succeeds) ++ [.close "s1", .disconnected "s1"]

/-- the second socket is in time: the disconnect handling finds it tracked -/
theorem newest_session_wins_alice :
    let ops := firstSocket ++ [.connect "s2" "n1", .authenticate "s2" "alice"] ++
      List.replicate 7 (.resume 1 succeeds) ++ [.resume 0 succeeds]
    (run step empty ops).handlers.length = 0 ∧ (run step empty ops).statusOf "n1" "m1" "alice" = some .active ∧
      Along step NewestWins empty ops := by
  intro ops
  have hrun : (run step empty ops).handlers.length = 0 ∧
      (run step empty ops).statusOf "n1" "m1" "alice" = some .active ∧ Along step FindsNoCleanup empty ops := by
    decide +kernel
  exact ⟨hrun.1, hrun.2.1, newest_session_wins ops hrun.2.2⟩

/-- the machine is not cached when the disconnect handling passes its check; the second socket is synced while the
handling still reads the state of the match -/
def tooLate : List SessionOp :=
  firstSocket ++ [.other "n1" "m1" none, .resume 0 succeeds, .connect "s2" "n1", .authenticate "s2" "alice",
    .resume 1 succeeds, .resume 1 succeeds, .other "n1" "m1" (some aliceAndBob)] ++
  List.replicate 5 (.resume 1 succeeds) ++ [.other "n1" "m1" (some aliceAndBob)]

/-- the second session is complete and stays connected, and the handling of the first marks alice DISCONNECTED -/
theorem newest_session_disconnected :
    let s := run step empty tooLate
    s.handlers.length = 1 ∧ s.statusOf "n1" "m1" "alice" = some .active ∧
      (s.step (.resume 0 succeeds)).statusOf "n1" "m1" "alice" = some .disconnected ∧
      (∃ client gen, Live s "alice" "s2" client gen) ∧
      ¬Along step NewestWins empty (tooLate ++ [.resume 0 succeeds]) := by
  intro s
  have hrun : s.handlers.length = 1 ∧ s.statusOf "n1" "m1" "alice" = some .active ∧
      (s.step (.resume 0 succeeds)).statusOf "n1" "m1" "alice" = some .disconnected ∧
      s.newest.get "alice" = some "s2" ∧ s.sockets.get "s2" = some ⟨"n1", true, some ⟨"alice", 1⟩⟩ := by
    decide +kernel
  obtain ⟨hone, hactive, hmarked, hnewest, hsocket⟩ := hrun
  have hlive : Live s "alice" "s2" ⟨"n1", true, some ⟨"alice", 1⟩⟩ 1 := ⟨hnewest, hsocket, rfl, rfl⟩
  refine ⟨hone, hactive, hmarked, ⟨_, _, hlive⟩, ?_⟩
  intro hall
  rw [along_append] at hall
  have hkept := hall.2.1.unmarked rfl "alice" "s2" _ 1 hlive "n1" "m1" hmarked
  rw [show (run step empty tooLate).statusOf "n1" "m1" "alice" = some .active from hactive] at hkept
  cases hkept

end Arena.Api.Sessions
