/-
The presence sweep (`presence.service.ts`) on any nodes: the election of the sweeping leader, the fence before every
room, the presence checks, and the strikes a node keeps in memory for a private room whose host is away.

A node runs one sweep at a time. Each operation it awaits is one step, `advance`, which also runs the code up to the
next await; an operation may throw before or after it took effect, and a node may restart. The replies of the presence
checks of a room come in any order. Of a room's players only who is human matters; what the sweep does to players of a
running match is outside the model. Keys with a TTL have a deadline, and time passes at any point of a sweep.

`findings` is a ghost list: what every completed round of checks found about the host, in the order of the sweeps, and
whether the sweep goes on to disband the room.

- `StrikeInv`, `step_strikeInv`: a strike on record is the node's own latest finding of the room, an absence;
- `Decided`, `step_decided`: a room is disbanded by a node whose latest finding says so;
- `disbands_sustained`: disbands are sustained as long as a strike is only counted against the room's latest sweep;
- `returning_leader_disbands`: a leader that comes back counts its old strike, although the host was seen meanwhile.
-/
import Arena.Api.Lobby
import Arena.Lib.JsMap

namespace Arena.Api.Presence

open Arena.Lib

/-! ## Model -/

/-- `LEADER_TTL_SEC`, the TTL of a presence key and `ROOM_SWEEP_GRACE_PERIOD_MS`, in milliseconds -/
def leaderTtlMs : ℕ := 15000
def presenceTtlMs : ℕ := 40000
def roomSweepGracePeriodMs : ℕ := 30000

/-- `HOST_STALE_CONSECUTIVE_SWEEPS` -/
def hostStaleConsecutiveSweeps : ℕ := 2

/-- the leadership token `<nodeId>:<fence>` -/
structure Token where
  nodeId : String
  fence : ℕ
deriving DecidableEq, Repr

structure RoomPlayer where
  userId : String
  isBot : Bool
deriving DecidableEq, Repr

/-- a row of `getActiveRooms` with its players -/
structure ActiveRoom where
  id : String
  isPrivate : Bool
  hostId : String
  status : RoomStatus
  createdAt : ℕ
  players : List RoomPlayer
deriving DecidableEq, Repr

def ActiveRoom.isLobby (r : ActiveRoom) : Bool :=
  r.status = .waiting || r.status = .countdown || r.status = .starting

def ActiveRoom.humanPlayers (r : ActiveRoom) : List String :=
  (r.players.filter fun p => !p.isBot).map RoomPlayer.userId

/-- what a node's sweep is waiting for -/
inductive Phase where
  | idle
  /-- `acquireOrRenewLeadership`: the renewal of the remembered token, the fence, the lease -/
  | renewing (token : Token)
  | incrementing
  | acquiring (token : Token)
  | listing (token : Token)
  /-- `stillLeader` before a room -/
  | fencing (token : Token) (room : ActiveRoom) (rest : List ActiveRoom)
  /-- the presence checks of a room: the replies still out, and the stale players so far -/
  | checking (token : Token) (room : ActiveRoom) (rest : List ActiveRoom) (pending stale : List String)
  | disbanding (token : Token) (room : ActiveRoom) (rest : List ActiveRoom)
  /-- `handleStaleLobbyPlayers`, or the disconnects of a running match -/
  | handling (token : Token) (room : ActiveRoom) (rest : List ActiveRoom) (stale : List String)
deriving DecidableEq, Repr

structure Node where
  nodeId : String
  leaderToken : Option Token
  hostStaleStrikes : JsMap String ℕ
  phase : Phase
deriving DecidableEq

/-- the outcome of one sweep of a room -/
structure Finding where
  process : ℕ
  roomId : String
  hostStale : Bool
  disbands : Bool
deriving DecidableEq, Repr

structure System where
  now : ℕ
  /-- `presence:leader` with its deadline, and `presence:leader:fence` -/
  leader : Option (Token × ℕ)
  fence : ℕ
  /-- `room:presence:<roomId>:<userId>` with its deadline -/
  presence : JsMap (String × String) ℕ
  /-- the rooms that are not FINISHED -/
  rooms : List ActiveRoom
  nodes : ℕ → Node
  findings : List Finding

def System.init (nodeIds : ℕ → String) : System where
  now := 0
  leader := none
  fence := 0
  presence := JsMap.empty
  rooms := []
  nodes p := ⟨nodeIds p, none, JsMap.empty, .idle⟩
  findings := []

inductive Op where
  | elapse (ms : ℕ)
  | createRoom (room : ActiveRoom)
  | joinRoom (roomId userId : String) (isBot : Bool)
  | leaveRoom (roomId userId : String)
  | setStatus (roomId : String) (status : RoomStatus)
  | updatePresence (roomId userId : String)
  | clearPresence (roomId userId : String)
  /-- the sweep interval fires -/
  | tick (p : ℕ)
  /-- the reply of a presence check of the room under way -/
  | check (p : ℕ) (userId : String)
  /-- the awaited operation completes -/
  | advance (p : ℕ)
  /-- the awaited operation throws, without or after its effect -/
  | fail (p : ℕ)
  | lose (p : ℕ)
  | restart (p : ℕ)

namespace System

def setNode (s : System) (p : ℕ) (node : Node) : System := { s with nodes := Function.update s.nodes p node }

/-- `EXISTS` of a presence key -/
def isPresent (s : System) (roomId userId : String) : Bool := (s.presence.get (roomId, userId)).any (s.now < ·)

def leaderLive (s : System) : Bool := s.leader.any fun l => s.now < l.2

def holds (s : System) (token : Token) : Bool := s.leader.any fun l => l.1 = token && s.now < l.2

/-- `SET NX EX` of the leader key -/
def acquireLease (s : System) (token : Token) : System × Bool :=
  if s.leaderLive then (s, false) else ({ s with leader := some (token, s.now + leaderTtlMs) }, true)

def renewLease (s : System) (token : Token) : System × Bool :=
  if s.holds token then ({ s with leader := some (token, s.now + leaderTtlMs) }, true) else (s, false)

def updateRoom (s : System) (roomId : String) (f : ActiveRoom → ActiveRoom) : System :=
  { s with rooms := s.rooms.map fun r => if r.id = roomId then f r else r }

def disbandRoom (s : System) (roomId : String) : System :=
  { s with rooms := s.rooms.filter fun r => r.id ≠ roomId }

def removePlayerBatch (s : System) (roomId : String) (userIds : List String) : System :=
  s.updateRoom roomId fun r => { r with players := r.players.filter fun p => p.userId ∉ userIds }

end System

namespace Node

/-- the room loop of `sweep` goes on -/
def nextRoom (node : Node) (token : Token) : List ActiveRoom → Node
  | [] => { node with phase := .idle }
  | room :: rest => { node with phase := .fencing token room rest }

def cleanupObsoleteHostStrikes (node : Node) (activeRooms : List ActiveRoom) : Node :=
  let obsolete := node.hostStaleStrikes.keys.filter fun id => id ∉ activeRooms.map ActiveRoom.id
  { node with hostStaleStrikes := obsolete.foldl JsMap.delete node.hostStaleStrikes }

/-- `handleHostStalePrivateRoom` up to its first await, and whether it disbands -/
def handleHostStalePrivateRoom (node : Node) (token : Token) (room : ActiveRoom) (rest : List ActiveRoom) :
    Node × Bool :=
  let strikes := (node.hostStaleStrikes.get room.id).getD 0 + 1
  if strikes < hostStaleConsecutiveSweeps then
    ({ node with hostStaleStrikes := node.hostStaleStrikes.set room.id strikes }.nextRoom token rest, false)
  else
    ({ node with
        hostStaleStrikes := node.hostStaleStrikes.delete room.id
        phase := .disbanding token room rest }, true)

/-- `sweepRoom` from the replies of the presence checks to its next await, and whether it disbands -/
def sweepRoom (node : Node) (token : Token) (room : ActiveRoom) (rest : List ActiveRoom) (stale : List String) :
    Node × Bool :=
  let isHostStale := room.hostId ∈ stale
  let node1 := if isHostStale then node
    else { node with hostStaleStrikes := node.hostStaleStrikes.delete room.id }
  if stale = [] then (node1.nextRoom token rest, false)
  else if room.isPrivate && isHostStale then node1.handleHostStalePrivateRoom token room rest
  else ({ node1 with phase := .handling token room rest stale }, false)

end Node

namespace System

/-- the presence checks of a room are all in -/
def conclude (s : System) (p : ℕ) (token : Token) (room : ActiveRoom) (rest : List ActiveRoom)
    (stale : List String) : System :=
  let swept := (s.nodes p).sweepRoom token room rest stale
  { s.setNode p swept.1 with findings := s.findings ++ [⟨p, room.id, room.hostId ∈ stale, swept.2⟩] }

/-- what a node is waiting for completes, and the node runs on to its next await -/
def proceed (s : System) (p : ℕ) (node : Node) : Phase → System
  | .idle => s
  | .renewing token =>
    let (s1, held) := s.renewLease token
    if held then s1.setNode p { node with phase := .listing token }
    else s1.setNode p { node with leaderToken := none, phase := .incrementing }
  | .incrementing =>
    { s with fence := s.fence + 1 }.setNode p { node with phase := .acquiring ⟨node.nodeId, s.fence + 1⟩ }
  | .acquiring token =>
    let (s1, acquired) := s.acquireLease token
    if acquired then s1.setNode p { node with leaderToken := some token, phase := .listing token }
    else s1.setNode p { node with leaderToken := none, phase := .idle }
  | .listing token =>
    let due := s.rooms.filter fun r => roomSweepGracePeriodMs ≤ s.now - r.createdAt
    s.setNode p ((node.cleanupObsoleteHostStrikes s.rooms).nextRoom token due)
  | .fencing token room rest =>
    let (s1, held) := s.renewLease token
    if held then s1.setNode p { node with phase := .checking token room rest room.humanPlayers [] }
    else s1.setNode p { node with leaderToken := none, phase := .idle }
  | .checking token room rest pending stale =>
    if pending = [] then s.conclude p token room rest stale else s
  | .disbanding token room rest => (s.disbandRoom room.id).setNode p (node.nextRoom token rest)
  | .handling token room rest stale =>
    (if room.isLobby then s.removePlayerBatch room.id stale else s).setNode p (node.nextRoom token rest)

def advance (s : System) (p : ℕ) : System := s.proceed p (s.nodes p) (s.nodes p).phase

/-- one reply of the presence checks -/
def check (s : System) (p : ℕ) (userId : String) : System :=
  match (s.nodes p).phase with
  | .checking token room rest pending stale =>
    if userId ∈ pending then
      let stale := if s.isPresent room.id userId then stale else stale ++ [userId]
      s.setNode p { s.nodes p with phase := .checking token room rest (pending.erase userId) stale }
    else s
  | _ => s

/-- the awaited operation throws: `handleStaleLobbyPlayers` and the disconnects log it, all else ends the sweep -/
def fail (s : System) (p : ℕ) : System :=
  match (s.nodes p).phase with
  | .handling token _ rest _ => s.setNode p ((s.nodes p).nextRoom token rest)
  | _ => s.setNode p { s.nodes p with phase := .idle }

/-- the awaited operation takes effect and throws -/
def lose (s : System) (p : ℕ) : System :=
  match (s.nodes p).phase with
  | .checking .. => s.fail p
  | _ => { s.advance p with nodes := (s.fail p).nodes }

def tick (s : System) (p : ℕ) : System :=
  match (s.nodes p).phase, (s.nodes p).leaderToken with
  | .idle, some token => s.setNode p { s.nodes p with phase := .renewing token }
  | .idle, none => s.setNode p { s.nodes p with phase := .incrementing }
  | _, _ => s

def step (s : System) : Op → System
  | .elapse ms => { s with now := s.now + ms }
  | .createRoom room => { s with rooms := s.rooms ++ [room] }
  | .joinRoom roomId userId isBot =>
    s.updateRoom roomId fun r => { r with players := r.players ++ [⟨userId, isBot⟩] }
  | .leaveRoom roomId userId =>
    s.updateRoom roomId fun r => { r with players := r.players.filter fun p => p.userId ≠ userId }
  | .setStatus roomId status =>
    if status = .finished then s.disbandRoom roomId else s.updateRoom roomId fun r => { r with status := status }
  | .updatePresence roomId userId =>
    { s with presence := s.presence.set (roomId, userId) (s.now + presenceTtlMs) }
  | .clearPresence roomId userId => { s with presence := s.presence.delete (roomId, userId) }
  | .tick p => s.tick p
  | .check p userId => s.check p userId
  | .advance p => s.advance p
  | .fail p => s.fail p
  | .lose p => s.lose p
  | .restart p => s.setNode p ⟨(s.nodes p).nodeId, none, JsMap.empty, .idle⟩

end System

/-! ## Findings -/

/-- the latest sweep of a room, and the latest by one process -/
def latest (findings : List Finding) (roomId : String) : Option Finding :=
  (findings.filter fun f => f.roomId = roomId).getLast?

def latestOwn (findings : List Finding) (p : ℕ) (roomId : String) : Option Finding :=
  ((findings.filter fun f => f.roomId = roomId).filter fun f => f.process = p).getLast?

/-- every sweep that disbands a room found its host away, and so did the sweep of the room before it -/
def Sustained (findings : List Finding) : Prop :=
  ∀ a f b, findings = a ++ f :: b → f.disbands = true →
    f.hostStale = true ∧ ∃ g, latest a f.roomId = some g ∧ g.hostStale = true

/-- a node that is about to disband a room has just found its host away and decided so -/
def Decided (s : System) : Prop :=
  ∀ p token room rest, (s.nodes p).phase = .disbanding token room rest →
    (s.findings.filter fun f => f.process = p).getLast? = some ⟨p, room.id, true, true⟩

/-- each room is disbanded by a sweep that finds its host away, next after one that did -/
def DisbandsSustained (s : System) : Prop := Sustained s.findings ∧ Decided s

theorem latestOwn_of_latest {l : List Finding} {r : String} {f : Finding} (h : latest l r = some f) :
    latestOwn l f.process r = some f := by
  obtain ⟨a, ha⟩ := List.getLast?_eq_some_iff.1 h
  rw [latestOwn, ha]
  simp

theorem latestOwn_concat_self (l : List Finding) (f : Finding) :
    latestOwn (l ++ [f]) f.process f.roomId = some f := by
  simp [latestOwn, List.filter_append]

theorem latestOwn_concat_other {l : List Finding} {f : Finding} {p : ℕ} {r : String}
    (h : ¬(f.process = p ∧ f.roomId = r)) : latestOwn (l ++ [f]) p r = latestOwn l p r := by
  unfold latestOwn
  by_cases hr : f.roomId = r
  · have hp : f.process ≠ p := fun hp => h ⟨hp, hr⟩
    simp [List.filter_append, hr, hp]
  · simp [List.filter_append, hr]

theorem sustained_concat {l : List Finding} {f : Finding} (h : Sustained l)
    (hf : f.disbands = true → f.hostStale = true ∧ ∃ g, latest l f.roomId = some g ∧ g.hostStale = true) :
    Sustained (l ++ [f]) := by
  intro a g b he hg
  rcases List.eq_nil_or_concat b with rfl | ⟨b', x, rfl⟩
  · obtain ⟨rfl, hx⟩ := List.append_inj' he rfl
    obtain rfl := (List.cons.inj hx).1
    exact hf hg
  · rw [List.concat_eq_append, ← List.cons_append, ← List.append_assoc] at he
    exact h a g b' (List.append_inj' he rfl).1 hg

/-! ## What a sweep of a room makes of the strikes -/

/-- the strikes after one sweep of a room, and whether it disbands -/
inductive Swept (strikes : JsMap String ℕ) (room : ActiveRoom) (hostStale : Bool) : JsMap String ℕ → Bool → Prop where
  | present (h : hostStale = false) : Swept strikes room hostStale (strikes.delete room.id) false
  | publicRoom (h : hostStale = true) (hp : room.isPrivate = false) : Swept strikes room hostStale strikes false
  | struck (h : hostStale = true) (k : ℕ) : Swept strikes room hostStale (strikes.set room.id k) false
  | disbanded (h : hostStale = true) (hp : room.isPrivate = true) (hk : strikes.has room.id = true) :
      Swept strikes room hostStale (strikes.delete room.id) true

/-- a strike after the sweep is for the room whose host was away, or was there before -/
theorem Swept.has_strike {strikes strikes' : JsMap String ℕ} {room : ActiveRoom} {hostStale disbands : Bool}
    {r : String} (h : Swept strikes room hostStale strikes' disbands) (hr : strikes'.has r = true) :
    room.id = r ∧ hostStale = true ∨ room.id ≠ r ∧ strikes.has r = true := by
  by_cases he : room.id = r
  · refine .inl ⟨he, ?_⟩
    subst he
    cases h with
    | present h => simp [JsMap.has, JsMap.get_delete] at hr
    | publicRoom h _ => exact h
    | struck h _ => exact h
    | disbanded h _ _ => exact h
  · refine .inr ⟨he, ?_⟩
    cases h with
    | present _ => simpa [JsMap.has, JsMap.get_delete, he] using hr
    | publicRoom _ _ => exact hr
    | struck _ k => simpa [JsMap.has, he] using hr
    | disbanded _ _ _ => simpa [JsMap.has, JsMap.get_delete, he] using hr

theorem nextRoom_strikes (node : Node) (token : Token) (rooms : List ActiveRoom) :
    (node.nextRoom token rooms).hostStaleStrikes = node.hostStaleStrikes := by
  cases rooms <;> rfl

theorem handleHostStale_swept (node : Node) (token : Token) (room : ActiveRoom) (rest : List ActiveRoom)
    (hp : room.isPrivate = true) :
    Swept node.hostStaleStrikes room true (node.handleHostStalePrivateRoom token room rest).1.hostStaleStrikes
      (node.handleHostStalePrivateRoom token room rest).2 := by
  simp only [Node.handleHostStalePrivateRoom]
  split_ifs with hk
  · simp only [nextRoom_strikes]
    exact .struck rfl _
  · refine .disbanded rfl hp ?_
    cases hg : node.hostStaleStrikes.get room.id with
    | none => simp [hg, hostStaleConsecutiveSweeps] at hk
    | some k => simp [JsMap.has, hg]

theorem sweepRoom_swept (node : Node) (token : Token) (room : ActiveRoom) (rest : List ActiveRoom)
    (stale : List String) :
    Swept node.hostStaleStrikes room (room.hostId ∈ stale) (node.sweepRoom token room rest stale).1.hostStaleStrikes
      (node.sweepRoom token room rest stale).2 := by
  by_cases hh : room.hostId ∈ stale
  · have hne : stale ≠ [] := List.ne_nil_of_mem hh
    by_cases hp : room.isPrivate = true
    · simpa [Node.sweepRoom, hh, hne, hp] using handleHostStale_swept node token room rest hp
    · simp only [Node.sweepRoom, hh, hne, hp, decide_true, if_true, if_false, Bool.false_and]
      exact .publicRoom rfl (by simpa using hp)
  · simp only [Node.sweepRoom, hh, if_false, decide_false, Bool.and_false, Bool.false_eq_true]
    split_ifs
    · rw [nextRoom_strikes]
      exact .present rfl
    · exact .present rfl

/-! ## What a step does to strikes and findings -/

/-- no finding, no strike that was not there, and no decision to disband -/
structure Kept (s s' : System) : Prop where
  findings : s'.findings = s.findings
  strikes : ∀ p r, (s'.nodes p).hostStaleStrikes.has r = true → (s.nodes p).hostStaleStrikes.has r = true
  disbanding : ∀ p token room rest, (s'.nodes p).phase = .disbanding token room rest →
    (s.nodes p).phase = .disbanding token room rest

/-- a step takes strikes away at most, or is one sweep of a room -/
inductive Moved (s : System) : Op → System → Prop where
  | kept {o : Op} {s' : System} (h : Kept s s') : Moved s o s'
  | swept (p : ℕ) (token : Token) (room : ActiveRoom) (rest : List ActiveRoom) (stale : List String)
      (hphase : (s.nodes p).phase = .checking token room rest [] stale) :
      Moved s (.advance p) (s.conclude p token room rest stale)

theorem Kept.refl (s : System) : Kept s s := ⟨rfl, fun _ _ h => h, fun _ _ _ _ h => h⟩

/-- a node is replaced by one with no strikes of its own that disbands nothing -/
theorem Kept.setNode {s t : System} (p : ℕ) {node : Node} (hn : t.nodes = s.nodes) (hf : t.findings = s.findings)
    (hs : ∀ r, node.hostStaleStrikes.has r = true → (s.nodes p).hostStaleStrikes.has r = true)
    (hd : ∀ token room rest, node.phase ≠ .disbanding token room rest) : Kept s (t.setNode p node) := by
  refine ⟨hf, fun q r h => ?_, fun q token room rest h => ?_⟩
  · by_cases hq : q = p
    · subst hq
      simp only [System.setNode, Function.update_self] at h
      exact hs r h
    · simpa [System.setNode, Function.update_of_ne hq, hn] using h
  · by_cases hq : q = p
    · subst hq
      simp only [System.setNode, Function.update_self] at h
      exact absurd h (hd token room rest)
    · simpa [System.setNode, Function.update_of_ne hq, hn] using h

/-- the same for a node whose room loop goes on -/
theorem Kept.nextRoom {s t : System} (p : ℕ) {node : Node} (token : Token) (rooms : List ActiveRoom)
    (hn : t.nodes = s.nodes) (hf : t.findings = s.findings)
    (hs : ∀ r, node.hostStaleStrikes.has r = true → (s.nodes p).hostStaleStrikes.has r = true) :
    Kept s (t.setNode p (node.nextRoom token rooms)) := by
  refine .setNode p hn hf (fun r h => hs r (by rwa [nextRoom_strikes] at h)) fun t room rest h => ?_
  cases rooms <;> cases h

theorem renewLease_frame (s : System) (token : Token) :
    (s.renewLease token).1.nodes = s.nodes ∧ (s.renewLease token).1.findings = s.findings := by
  unfold System.renewLease
  split_ifs <;> exact ⟨rfl, rfl⟩

theorem acquireLease_frame (s : System) (token : Token) :
    (s.acquireLease token).1.nodes = s.nodes ∧ (s.acquireLease token).1.findings = s.findings := by
  unfold System.acquireLease
  split_ifs <;> exact ⟨rfl, rfl⟩

theorem foldl_delete_has (ids : List String) (m : JsMap String ℕ) (r : String)
    (h : (ids.foldl JsMap.delete m).has r = true) : m.has r = true := by
  induction ids generalizing m with
  | nil => exact h
  | cons id ids ih =>
    have hm := ih (m.delete id) h
    simp only [JsMap.has, JsMap.get_delete] at hm
    split_ifs at hm
    · cases hm
    · exact hm

theorem advance_moved (s : System) (p : ℕ) : Moved s (.advance p) (s.advance p) := by
  unfold System.advance
  generalize hph : (s.nodes p).phase = phase
  cases phase with
  | idle => exact .kept (.refl s)
  | renewing token =>
    obtain ⟨hn, hf⟩ := renewLease_frame s token
    simp only [System.proceed]
    split_ifs
    · exact .kept (.setNode p hn hf (fun _ h => h) nofun)
    · exact .kept (.setNode p hn hf (fun _ h => h) nofun)
  | incrementing => exact .kept (.setNode (t := { s with fence := s.fence + 1 }) p rfl rfl (fun _ h => h) nofun)
  | acquiring token =>
    obtain ⟨hn, hf⟩ := acquireLease_frame s token
    simp only [System.proceed]
    split_ifs
    · exact .kept (.setNode p hn hf (fun _ h => h) nofun)
    · exact .kept (.setNode p hn hf (fun _ h => h) nofun)
  | listing token =>
    exact .kept (.nextRoom p token _ rfl rfl (foldl_delete_has _ _))
  | fencing token room rest =>
    obtain ⟨hn, hf⟩ := renewLease_frame s token
    simp only [System.proceed]
    split_ifs
    · exact .kept (.setNode p hn hf (fun _ h => h) nofun)
    · exact .kept (.setNode p hn hf (fun _ h => h) nofun)
  | checking token room rest pending stale =>
    simp only [System.proceed]
    split_ifs with hpend
    · subst hpend
      exact .swept p token room rest stale hph
    · exact .kept (.refl s)
  | disbanding token room rest =>
    exact .kept (.nextRoom (t := s.disbandRoom room.id) p token rest rfl rfl fun _ h => h)
  | handling token room rest stale =>
    simp only [System.proceed]
    split_ifs
    · exact .kept (.nextRoom (t := s.removePlayerBatch room.id stale) p token rest rfl rfl fun _ h => h)
    · exact .kept (.nextRoom p token rest rfl rfl fun _ h => h)

/-- only the replies of the presence checks make a finding -/
theorem advance_findings {s : System} {p : ℕ}
    (h : ∀ token room rest pending stale, (s.nodes p).phase ≠ .checking token room rest pending stale) :
    (s.advance p).findings = s.findings := by
  unfold System.advance
  generalize hph : (s.nodes p).phase = phase
  cases phase with
  | checking token room rest pending stale => exact absurd hph (h token room rest pending stale)
  | renewing token =>
    simp only [System.proceed]
    split_ifs <;> exact (renewLease_frame s token).2
  | acquiring token =>
    simp only [System.proceed]
    split_ifs <;> exact (acquireLease_frame s token).2
  | fencing token room rest =>
    simp only [System.proceed]
    split_ifs <;> exact (renewLease_frame s token).2
  | handling token room rest stale =>
    simp only [System.proceed]
    split_ifs <;> rfl
  | _ => rfl

theorem fail_kept (s : System) (p : ℕ) : Kept s (s.fail p) := by
  unfold System.fail
  split
  · exact .nextRoom p _ _ rfl rfl fun _ h => h
  · exact .setNode p rfl rfl (fun _ h => h) nofun

theorem lose_kept (s : System) (p : ℕ) : Kept s (s.lose p) := by
  unfold System.lose
  split
  · exact fail_kept s p
  · rename_i hno
    exact ⟨advance_findings hno, (fail_kept s p).strikes, (fail_kept s p).disbanding⟩

theorem check_kept (s : System) (p : ℕ) (u : String) : Kept s (s.check p u) := by
  unfold System.check
  split
  · split
    · exact .setNode p rfl rfl (fun _ h => h) nofun
    · exact .refl s
  · exact .refl s

theorem tick_kept (s : System) (p : ℕ) : Kept s (s.tick p) := by
  unfold System.tick
  split
  · exact .setNode p rfl rfl (fun _ h => h) nofun
  · exact .setNode p rfl rfl (fun _ h => h) nofun
  · exact .refl s

theorem step_moved (s : System) (o : Op) : Moved s o (s.step o) := by
  cases o with
  | advance p => exact advance_moved s p
  | fail p => exact .kept (fail_kept s p)
  | lose p => exact .kept (lose_kept s p)
  | check p u => exact .kept (check_kept s p u)
  | tick p => exact .kept (tick_kept s p)
  | restart p => exact .kept (.setNode p rfl rfl (fun r h => by cases h) nofun)
  | setStatus r status =>
    simp only [System.step]
    split_ifs <;> exact .kept ⟨rfl, fun _ _ h => h, fun _ _ _ _ h => h⟩
  | _ => exact .kept ⟨rfl, fun _ _ h => h, fun _ _ _ _ h => h⟩

/-! ## Strikes and findings -/

/-- a strike on record comes from the node's own latest sweep of the room, which found the host away -/
def StrikeInv (s : System) : Prop :=
  ∀ p r, (s.nodes p).hostStaleStrikes.has r = true →
    ∃ f, latestOwn s.findings p r = some f ∧ f.hostStale = true

theorem conclude_strikeInv {s : System} (p : ℕ) (token : Token) (room : ActiveRoom) (rest : List ActiveRoom)
    (stale : List String) (h : StrikeInv s) : StrikeInv (s.conclude p token room rest stale) := by
  intro q r hq
  by_cases hp : q = p
  · subst hp
    simp only [System.conclude, System.setNode, Function.update_self] at hq ⊢
    rcases (sweepRoom_swept (s.nodes q) token room rest stale).has_strike hq with ⟨rfl, hstale⟩ | ⟨hr, hold⟩
    · exact ⟨_, latestOwn_concat_self s.findings _, hstale⟩
    · rw [latestOwn_concat_other fun hown => hr hown.2]
      exact h q r hold
  · simp only [System.conclude, System.setNode, Function.update_of_ne hp] at hq ⊢
    rw [latestOwn_concat_other fun hown => hp hown.1.symm]
    exact h q r hq

theorem step_strikeInv (s : System) (o : Op) (h : StrikeInv s) : StrikeInv (s.step o) := by
  generalize hs : s.step o = s'
  have hm := step_moved s o
  rw [hs] at hm
  cases hm with
  | kept hk =>
    intro p r hr
    rw [hk.findings]
    exact h p r (hk.strikes p r hr)
  | swept p token room rest stale _ => exact conclude_strikeInv p token room rest stale h

theorem Swept.disbands_strike {strikes strikes' : JsMap String ℕ} {room : ActiveRoom} {hostStale disbands : Bool}
    (h : Swept strikes room hostStale strikes' disbands) (hd : disbands = true) :
    hostStale = true ∧ room.isPrivate = true ∧ strikes.has room.id = true := by
  cases h with
  | disbanded h hp hk => exact ⟨h, hp, hk⟩
  | _ => cases hd

/-- a node that holds a strike for a private room counts another absence only if the latest sweep of the room was its
own -/
def CountsLatest (s : System) : Op → Prop
  | .advance p =>
    match (s.nodes p).phase with
    | .checking _ room _ [] stale =>
      room.isPrivate = true → room.hostId ∈ stale → (s.nodes p).hostStaleStrikes.has room.id = true →
        (latest s.findings room.id).map Finding.process = some p
    | _ => True
  | _ => True

instance (s : System) : DecidablePred (CountsLatest s) := fun o => by
  unfold CountsLatest
  split
  · split <;> infer_instance
  · infer_instance

theorem CountsLatest.strike {s : System} {p : ℕ} {token : Token} {room : ActiveRoom} {rest : List ActiveRoom}
    {stale : List String} (h : CountsLatest s (.advance p))
    (hphase : (s.nodes p).phase = .checking token room rest [] stale) (hp : room.isPrivate = true)
    (hh : room.hostId ∈ stale) (hk : (s.nodes p).hostStaleStrikes.has room.id = true) :
    ∃ f, latest s.findings room.id = some f ∧ f.process = p := by
  simp only [CountsLatest, hphase] at h
  exact Option.map_eq_some_iff.1 (h hp hh hk)

/-- only a decision to disband leads to the disband -/
theorem sweepRoom_disbanding {node : Node} {token t : Token} {room r : ActiveRoom} {rest l : List ActiveRoom}
    {stale : List String} (h : (node.sweepRoom token room rest stale).1.phase = .disbanding t r l) :
    r = room ∧ room.hostId ∈ stale ∧ (node.sweepRoom token room rest stale).2 = true := by
  have next : ∀ (n : Node), (n.nextRoom token rest).phase ≠ .disbanding t r l := fun n hn => by cases rest <;> cases hn
  by_cases hh : room.hostId ∈ stale
  · have hne : stale ≠ [] := List.ne_nil_of_mem hh
    by_cases hp : room.isPrivate = true
    · simp only [Node.sweepRoom, hh, hne, hp, decide_true, if_true, if_false, Bool.and_self,
        Node.handleHostStalePrivateRoom] at h ⊢
      split_ifs at h ⊢
      · exact absurd h (next _)
      · cases h
        exact ⟨rfl, trivial, rfl⟩
    · simp [Node.sweepRoom, hh, hne, hp] at h
  · simp only [Node.sweepRoom, hh, decide_false, Bool.and_false, Bool.false_eq_true, if_false] at h
    split_ifs at h
    · exact absurd h (next _)

theorem step_decided (s : System) (o : Op) (h : Decided s) : Decided (s.step o) := by
  generalize hs : s.step o = s'
  have hm := step_moved s o
  rw [hs] at hm
  cases hm with
  | kept hk =>
    intro p token room rest hph
    rw [hk.findings]
    exact h p token room rest (hk.disbanding p token room rest hph)
  | swept p token room rest stale _ =>
    intro q t r l hph
    simp only [System.conclude, System.setNode] at hph ⊢
    by_cases hq : q = p
    · subst hq
      rw [Function.update_self] at hph
      obtain ⟨rfl, hstale, hd⟩ := sweepRoom_disbanding hph
      simp [List.filter_append, hstale, hd]
    · rw [Function.update_of_ne hq] at hph
      simpa [List.filter_append, Ne.symm hq] using h q t r l hph

structure SweepInv (s : System) : Prop where
  strikes : StrikeInv s
  sustained : Sustained s.findings
  decided : Decided s

theorem step_sustained (s : System) (o : Op) (hg : CountsLatest s o) (h : SweepInv s) :
    Sustained (s.step o).findings := by
  generalize hs : s.step o = s'
  have hm := step_moved s o
  rw [hs] at hm
  cases hm with
  | kept hk =>
    rw [hk.findings]
    exact h.sustained
  | swept p token room rest stale hphase =>
    refine sustained_concat h.sustained fun hd => ?_
    obtain ⟨hstale, hprivate, hstrike⟩ := (sweepRoom_swept (s.nodes p) token room rest stale).disbands_strike hd
    obtain ⟨f, hf, hown⟩ := hg.strike hphase hprivate (by simpa using hstale) hstrike
    -- the latest sweep of the room is the one the strike comes from
    obtain ⟨g, hlast, hg⟩ := h.strikes p room.id hstrike
    have hsame := latestOwn_of_latest hf
    rw [hown, hlast] at hsame
    obtain rfl := Option.some.inj hsame
    exact ⟨hstale, g, hf, hg⟩

theorem step_sweepInv (s : System) (o : Op) (hg : CountsLatest s o) (h : SweepInv s) : SweepInv (s.step o) :=
  ⟨step_strikeInv s o h.strikes, step_sustained s o hg h, step_decided s o h.decided⟩

theorem init_sweepInv (nodeIds : ℕ → String) : SweepInv (System.init nodeIds) := by
  refine ⟨fun p r h => (nomatch h), fun a f b h _ => ?_, fun p token room rest h => (nomatch h)⟩
  simp [System.init] at h

/-- **Disbands follow sustained absence.** In every run in which a strike is only counted against the latest sweep of
its room, each sweep that disbands a room found the host away, and the sweep of the room before it had as well. -/
theorem disbands_sustained (nodeIds : ℕ → String) (ops : List Op)
    (hg : Along System.step CountsLatest (System.init nodeIds) ops) :
    DisbandsSustained (run System.step (System.init nodeIds) ops) := by
  have h := run_inv System.step CountsLatest SweepInv step_sweepInv _ ops hg (init_sweepInv nodeIds)
  exact ⟨h.sustained, h.decided⟩

/-! ## Runs -/

/-- the steps of one sweep of one room by a leader that remembers its token, with the replies of its checks -/
def sweepAgain (p : ℕ) (userIds : List String) : List Op :=
  [.tick p, .advance p, .advance p, .advance p] ++ userIds.map (.check p) ++ [.advance p]

/-- the same by a node that has to acquire the lease -/
def sweepNew (p : ℕ) (userIds : List String) : List Op :=
  [.tick p, .advance p, .advance p, .advance p, .advance p] ++ userIds.map (.check p) ++ [.advance p]

def hostRoom : ActiveRoom := ⟨"r1", true, "host", .waiting, 0, [⟨"host", false⟩, ⟨"guest", false⟩]⟩

/-- two sweeps of one leader in a row find the host away -/
def abandoned : List Op :=
  List.flatten [[.createRoom hostRoom, .elapse 31000], sweepNew 0 ["guest", "host"], [.elapse 5000],
    sweepAgain 0 ["host", "guest"], [.advance 0]]

theorem disbands_sustained_abandoned :
    DisbandsSustained (run System.step (System.init fun _ => "node") abandoned) ∧
      (run System.step (System.init fun _ => "node") abandoned).rooms = [] :=
  ⟨disbands_sustained (fun _ => "node") abandoned (by decide), by decide⟩

/-- the first leader stalls with a strike on record; the second sees the host twice and crashes; when its lease and the
host's presence have run out, the first leads again -/
def returningLeader : List Op :=
  List.flatten [[.createRoom hostRoom, .elapse 31000], sweepNew 0 ["guest", "host"],
    [.elapse 4000, .updatePresence "r1" "host", .updatePresence "r1" "guest", .elapse 15000],
    sweepNew 1 ["host", "guest"], [.elapse 10000], sweepAgain 1 ["guest", "host"],
    [.restart 1, .elapse 2000, .tick 0, .advance 0, .advance 0, .advance 0, .elapse 15000],
    sweepNew 0 ["host", "guest"]]

/-- **A returning leader disbands a room on one absence.** -/
theorem returning_leader_disbands :
    ¬∀ (nodeIds : ℕ → String) (ops : List Op), DisbandsSustained (run System.step (System.init nodeIds) ops) := by
  intro h
  obtain ⟨-, g, hg, hstale⟩ := (h (fun p => if p = 0 then "node-a" else "node-b") returningLeader).1
    [⟨0, "r1", true, false⟩, ⟨1, "r1", false, false⟩, ⟨1, "r1", false, false⟩] ⟨0, "r1", true, true⟩ [] (by decide) rfl
  obtain rfl : (⟨1, "r1", false, false⟩ : Finding) = g := Option.some.inj hg
  cases hstale

end Arena.Api.Presence
