/-
The lobby countdowns of one process (`lobby-countdown.service.ts`, over the keys of `game-loop.countdown-store.ts`).

A process starts with its scan of the persisted countdowns; the socket server comes at some time after. What the scan
finds is armed, launched, or buffered until the server is there; a launch waits for its persisted key to be cleared, and
a clear that fails is tried again. Countdowns that start, players that leave and launches that clear come in between. A
statement may fail, or be executed with its reply lost; other processes and expiries change the keys as they like, and
the process may be restarted at any time. Rooms are read as they may be: their rows are the lobby's.

- `HandsInv`: the ledger of the countdowns under recovery, and what each event does to it;
- `drain_inv`, `Holds.clearFailed`: an entry is handed on, never dropped or copied;
- `resumeScan_inv`, `resumeCall_inv`: what the scan and a call keep when they go on;
- `recovered_countdowns_are_kept`: no recovered countdown is lost, launched twice or launched early, in any state.
-/
import Arena.Api.Lobby
import Arena.Lib.JsMap

namespace Arena.Api.Countdown

open Arena.Lib

/-! ## Model -/

structure LobbyCountdownEntry where
  countdownEndsAt : ℕ
  timer : Option ℕ
deriving DecidableEq, Repr

structure PendingRecoveryEntry where
  roomId : String
  countdownEndsAt : ℕ
  expired : Bool
  retryCount : ℕ
deriving DecidableEq, Repr

/-- `makePendingRecoveryEntry` with its default -/
def makePendingRecoveryEntry (roomId : String) (countdownEndsAt : ℕ) (expired : Bool) : PendingRecoveryEntry :=
  ⟨roomId, countdownEndsAt, expired, 0⟩

/-- `GAME_CONFIG.COUNTDOWN_DURATION_MS` -/
def countdownDurationMs : ℕ := 5000

def maxRetries : ℕ := 5

/-- `RETRY_DELAY_MS`, from the retries so far -/
def retryDelayMs (currentRetry : ℕ) : ℕ := min (1000 * 2 ^ currentRetry) 8000

/-- `room:countdown:*` and their index -/
structure Keys where
  countdowns : JsMap String ℕ
  index : JsSet String
deriving DecidableEq

/-- what `getRoom` finds; of a room that a player leaves, the players who remain -/
structure RoomView where
  isPublic : Bool
  status : RoomStatus
  players : ℕ
deriving DecidableEq, Repr

inductive Statement where
  | listPersistedCountdownRoomIds
  | readPersistedCountdownEnd (roomId : String)
  | removeStaleCountdownIndexEntry (roomId : String)
  | persistLobbyCountdown (roomId : String) (countdownEndsAt : ℕ)
  | clearPersistedCountdown (roomId : String)
  | getRoom
  | updateRoomStatus
deriving DecidableEq

inductive Answer where
  | rooms (roomIds : JsSet String)
  | missing
  | present (countdownEndsAt : ℕ)
  | room (room : RoomView)
  | done
  | threw
deriving DecidableEq

inductive Reply where
  /-- the room is what a `getRoom` finds -/
  | ok (room : RoomView)
  | fails
  /-- the statement is executed, and the caller gets an error -/
  | lost
deriving DecidableEq, Repr

inductive ScanStage where
  | listing
  | reading (now : ℕ) (roomId : String) (rest : List String)
  | dropping (now : ℕ) (roomId : String) (rest : List String)
  | clearing (now : ℕ) (roomId : String) (countdownEndsAt : ℕ) (rest : List String)
  | scanned
deriving DecidableEq

inductive CallStage where
  /-- `maybeStartPublicCountdown` -/
  | startGetRoom (roomId : String)
  | startUpdate (roomId : String) (countdownEndsAt : ℕ)
  | startPersist (roomId : String) (countdownEndsAt : ℕ)
  | startRollback (roomId : String)
  /-- `handleRoomPlayerLeft`, with the entry it has read -/
  | leftGetRoom (roomId : String) (countdown : LobbyCountdownEntry)
  | leftClear (roomId : String)
  | leftUpdate
  /-- a `clearPersistedCountdown` that nothing waits for -/
  | clear (roomId : String)
  /-- an expired entry of `drainPendingRecovery` -/
  | drain (entry : PendingRecoveryEntry)
  /-- the rollback of a room that is out of retries -/
  | abort (roomId : String)
  | returned
deriving DecidableEq

/-- a statement under way, and its answer once it is executed -/
structure Await (σ : Type) where
  stage : σ
  answer : Option Answer
deriving DecidableEq

/-- a `setTimeout` of `armLobbyCountdownTimer` -/
structure CountdownTimer where
  id : ℕ
  roomId : String
  countdownEndsAt : ℕ
  due : ℕ
deriving DecidableEq, Repr

/-- a `setTimeout` of `scheduleRecoveryRetry` -/
structure RetryTimer where
  entry : PendingRecoveryEntry
  due : ℕ
deriving DecidableEq, Repr

/-- what the process logs of its recovery, and the launches it calls -/
inductive Event where
  | took (roomId : String)
  | armed (roomId : String)
  /-- "Cannot arm lobby countdown" -/
  | notArmed (roomId : String)
  | clearFailed (roomId : String)
  /-- "already has a pending retry; skipping scheduling" -/
  | skipped (roomId : String)
  /-- "Max recovery retries exceeded" -/
  | aborted (roomId : String)
  /-- `launch` after a recovery's clear -/
  | recovered (roomId : String) (countdownEndsAt now : ℕ)
  /-- `launch` from a timer -/
  | fired (roomId : String) (countdownEndsAt now : ℕ)
deriving DecidableEq, Repr

structure System where
  now : ℕ
  keys : Keys
  server : Bool
  lobbyCountdowns : JsMap String LobbyCountdownEntry
  pendingRecovery : List PendingRecoveryEntry
  activeRecoveryRetries : JsSet String
  timers : List CountdownTimer
  nextTimer : ℕ
  retries : List RetryTimer
  /-- `onModuleInit` -/
  scan : Await ScanStage
  calls : List (Await CallStage)
  /-- of this process -/
  log : List Event
deriving DecidableEq

/-- what Redis holds after a statement, and what it answers -/
def Statement.exec (keys : Keys) (room : RoomView) : Statement → Keys × Answer
  | .listPersistedCountdownRoomIds => (keys, .rooms keys.index)
  | .readPersistedCountdownEnd roomId =>
    (keys, match keys.countdowns.get roomId with
      | some countdownEndsAt => .present countdownEndsAt
      | none => .missing)
  | .removeStaleCountdownIndexEntry roomId => ({ keys with index := keys.index.delete roomId }, .done)
  | .persistLobbyCountdown roomId countdownEndsAt =>
    (⟨keys.countdowns.set roomId countdownEndsAt, keys.index.add roomId⟩, .done)
  | .clearPersistedCountdown roomId => (⟨keys.countdowns.delete roomId, keys.index.delete roomId⟩, .done)
  | .getRoom => (keys, .room room)
  | .updateRoomStatus => (keys, .done)

def Statement.answered (keys : Keys) (st : Statement) : Reply → Keys × Answer
  | .ok room => st.exec keys room
  | .fails => (keys, .threw)
  | .lost => ((st.exec keys ⟨false, .waiting, 0⟩).1, .threw)

def ScanStage.statement : ScanStage → Option Statement
  | .listing => some .listPersistedCountdownRoomIds
  | .reading _ roomId _ => some (.readPersistedCountdownEnd roomId)
  | .dropping _ roomId _ => some (.removeStaleCountdownIndexEntry roomId)
  | .clearing _ roomId _ _ => some (.clearPersistedCountdown roomId)
  | .scanned => none

def CallStage.statement : CallStage → Option Statement
  | .startGetRoom _ | .leftGetRoom _ _ => some .getRoom
  | .startUpdate _ _ | .startRollback _ | .leftUpdate | .abort _ => some .updateRoomStatus
  | .startPersist roomId countdownEndsAt => some (.persistLobbyCountdown roomId countdownEndsAt)
  | .leftClear roomId | .clear roomId => some (.clearPersistedCountdown roomId)
  | .drain entry => some (.clearPersistedCountdown entry.roomId)
  | .returned => none

namespace System

/-- a process that starts: `onModuleInit` lists the persisted countdowns -/
def boot (now : ℕ) (keys : Keys) : System :=
  ⟨now, keys, false, JsMap.empty, [], JsSet.empty, [], 0, [], ⟨.listing, none⟩, [], []⟩

def report (s : System) (event : Event) : System := { s with log := s.log ++ [event] }

def begin (s : System) (stage : CallStage) : System := { s with calls := s.calls ++ [⟨stage, none⟩] }

def await (s : System) (i : ℕ) (stage : CallStage) : System := { s with calls := s.calls.set i ⟨stage, none⟩ }

def finish (s : System) (i : ℕ) : System := s.await i .returned

def clearTimeout (s : System) (timer : Option ℕ) : System :=
  match timer with
  | some id => { s with timers := s.timers.filter fun t => t.id ≠ id }
  | none => s

/-- up to its await -/
def clearLobbyCountdown (s : System) (roomId : String) (timer : Option ℕ) : System :=
  { s.clearTimeout timer with lobbyCountdowns := s.lobbyCountdowns.delete roomId }

def clearLobbyCountdownBestEffort (s : System) (roomId : String) : System :=
  (s.clearLobbyCountdown roomId ((s.lobbyCountdowns.get roomId).bind (·.timer))).begin (.clear roomId)

def clearCountdown (s : System) (roomId : String) : System :=
  match s.lobbyCountdowns.get roomId with
  | some countdown => (s.clearLobbyCountdown roomId countdown.timer).begin (.clear roomId)
  | none => s

/-- `server` is whether the caller passes one -/
def armLobbyCountdownTimer (s : System) (roomId : String) (countdownEndsAt : ℕ) (server : Bool) : System :=
  if server || s.server then
    { s with
      timers := s.timers ++ [⟨s.nextTimer, roomId, countdownEndsAt, s.now + (countdownEndsAt - s.now)⟩]
      lobbyCountdowns := s.lobbyCountdowns.set roomId ⟨countdownEndsAt, some s.nextTimer⟩
      nextTimer := s.nextTimer + 1 }
  else s.clearLobbyCountdownBestEffort roomId

/-! ### Recovery -/

/-- with the server of the process -/
def armRecovered (s : System) (roomId : String) (countdownEndsAt : ℕ) : System :=
  (s.armLobbyCountdownTimer roomId countdownEndsAt false).report
    (if s.server then .armed roomId else .notArmed roomId)

def drainEntry (s : System) (entry : PendingRecoveryEntry) : System :=
  if entry.expired then s.begin (.drain entry) else s.armRecovered entry.roomId entry.countdownEndsAt

def drainPendingRecovery (s : System) : System :=
  s.pendingRecovery.foldl drainEntry { s with pendingRecovery := [] }

def setServer (s : System) : System := { s with server := true }.drainPendingRecovery

def scheduleRecoveryRetry (s : System) (entry : PendingRecoveryEntry) : System :=
  if s.activeRecoveryRetries.has entry.roomId then s.report (.skipped entry.roomId)
  else if maxRetries ≤ entry.retryCount then (s.report (.aborted entry.roomId)).begin (.abort entry.roomId)
  else { s with
    activeRecoveryRetries := s.activeRecoveryRetries.add entry.roomId
    retries := s.retries ++ [⟨entry, s.now + retryDelayMs entry.retryCount⟩] }

/-- the callback of a retry -/
def retry (s : System) (entry : PendingRecoveryEntry) : System :=
  { s with
    activeRecoveryRetries := s.activeRecoveryRetries.delete entry.roomId
    pendingRecovery := s.pendingRecovery ++ [{ entry with retryCount := entry.retryCount + 1 }] }.drainPendingRecovery

def clearFailed (s : System) (entry : PendingRecoveryEntry) : System :=
  (s.report (.clearFailed entry.roomId)).scheduleRecoveryRetry entry

def recover (s : System) (roomId : String) (countdownEndsAt : ℕ) : System :=
  s.report (.recovered roomId countdownEndsAt s.now)

def setScan (s : System) (stage : ScanStage) : System := { s with scan := ⟨stage, none⟩ }

/-- the head of the loop -/
def scanNext (s : System) (now : ℕ) : List String → System
  | [] => s.setScan .scanned
  | roomId :: rest => s.setScan (.reading now roomId rest)

def push (s : System) (entry : PendingRecoveryEntry) : System :=
  { s with pendingRecovery := s.pendingRecovery ++ [entry] }

/-- a countdown that the scan has read; an expired one has to be cleared before the scan goes on -/
def takeUp (s : System) (now : ℕ) (roomId : String) (countdownEndsAt : ℕ) (rest : List String) : System :=
  if countdownEndsAt - now = 0 then
    if s.server then s.setScan (.clearing now roomId countdownEndsAt rest)
    else s.push (makePendingRecoveryEntry roomId countdownEndsAt true)
  else if s.server then s.armRecovered roomId countdownEndsAt
  else s.push (makePendingRecoveryEntry roomId countdownEndsAt false)

def resumeScan (s : System) : ScanStage → Answer → System
  | .listing, .rooms roomIds => s.scanNext s.now roomIds.elems
  | .listing, _ => s.setScan .scanned
  | .reading now roomId rest, .present countdownEndsAt =>
    ((s.scanNext now rest).report (.took roomId)).takeUp now roomId countdownEndsAt rest
  | .reading now roomId rest, .missing => s.setScan (.dropping now roomId rest)
  | .reading now _ rest, _ => s.scanNext now rest
  | .dropping now _ rest, _ => s.scanNext now rest
  | .clearing now roomId countdownEndsAt rest, .threw =>
    (s.scanNext now rest).clearFailed (makePendingRecoveryEntry roomId countdownEndsAt true)
  | .clearing now roomId countdownEndsAt rest, _ => (s.scanNext now rest).recover roomId countdownEndsAt
  | .scanned, _ => s

/-! ### Calls -/

def startable (s : System) (roomId : String) (room : RoomView) : Bool :=
  room.isPublic && room.status = .waiting && decide (minPlayersToStart ≤ room.players) && !s.lobbyCountdowns.has roomId

def resumeCall (s : System) (i : ℕ) : CallStage → Answer → System
  | .startGetRoom roomId, .room room =>
    if s.startable roomId room then
      { s with lobbyCountdowns :=
        s.lobbyCountdowns.set roomId ⟨s.now + countdownDurationMs, none⟩ }.await i
          (.startUpdate roomId (s.now + countdownDurationMs))
    else s.finish i
  | .startGetRoom _, _ => s.finish i
  | .startUpdate roomId _, .threw => (s.finish i).clearLobbyCountdownBestEffort roomId
  | .startUpdate roomId countdownEndsAt, _ =>
    (s.await i (.startPersist roomId countdownEndsAt)).armLobbyCountdownTimer roomId countdownEndsAt true
  | .startPersist roomId _, .threw => (s.await i (.startRollback roomId)).clearLobbyCountdownBestEffort roomId
  | .startPersist _ _, _ => s.finish i
  | .startRollback roomId, _ => (s.finish i).clearLobbyCountdownBestEffort roomId
  | .leftGetRoom roomId countdown, .room room =>
    if room.status = .countdown ∧ room.players < minPlayersToStart then
      (s.await i (.leftClear roomId)).clearLobbyCountdown roomId countdown.timer
    else s.finish i
  | .leftGetRoom _ _, _ => s.finish i
  | .leftClear _, _ => s.await i .leftUpdate
  | .leftUpdate, _ | .clear _, _ => s.finish i
  | .drain entry, .threw => (s.finish i).clearFailed entry
  | .drain entry, _ => (s.finish i).recover entry.roomId entry.countdownEndsAt
  | .abort _, .threw => s.finish i
  | .abort roomId, _ => (s.finish i).begin (.clear roomId)
  | .returned, _ => s

def handleRoomPlayerLeft (s : System) (roomId : String) : System :=
  match s.lobbyCountdowns.get roomId with
  | some countdown => s.begin (.leftGetRoom roomId countdown)
  | none => s

inductive CountdownOp where
  | setServer
  | maybeStartPublicCountdown (roomId : String)
  | handleRoomPlayerLeft (roomId : String)
  /-- a launch that validates its room, or the teardown of a room -/
  | clearCountdown (roomId : String)
  | executeScan (reply : Reply)
  | resumeScan
  | execute (i : ℕ) (reply : Reply)
  | resume (i : ℕ)
  /-- the timer at this place of the list -/
  | fire (j : ℕ)
  | retry (j : ℕ)
  | tick (ms : ℕ)
  /-- other processes and expiries -/
  | elsewhere (keys : Keys)
  | restart
deriving DecidableEq

def executeScan (s : System) (reply : Reply) : System :=
  match s.scan.stage.statement, s.scan.answer with
  | some st, none =>
    { s with keys := (st.answered s.keys reply).1, scan := ⟨s.scan.stage, some (st.answered s.keys reply).2⟩ }
  | _, _ => s

def execute (s : System) (i : ℕ) (reply : Reply) : System :=
  match s.calls[i]? with
  | some ⟨stage, none⟩ =>
    match stage.statement with
    | some st =>
      { s with keys := (st.answered s.keys reply).1, calls := s.calls.set i ⟨stage, some (st.answered s.keys reply).2⟩ }
    | none => s
  | _ => s

def step (s : System) : CountdownOp → System
  | .setServer => s.setServer
  | .maybeStartPublicCountdown roomId => s.begin (.startGetRoom roomId)
  | .handleRoomPlayerLeft roomId => s.handleRoomPlayerLeft roomId
  | .clearCountdown roomId => s.clearCountdown roomId
  | .executeScan reply => s.executeScan reply
  | .resumeScan =>
    match s.scan.answer with
    | some answer => s.resumeScan s.scan.stage answer
    | none => s
  | .execute i reply => s.execute i reply
  | .resume i =>
    match s.calls[i]? with
    | some ⟨stage, some answer⟩ => s.resumeCall i stage answer
    | _ => s
  | .fire j =>
    match s.timers[j]? with
    | some t =>
      if t.due ≤ s.now then { s with timers := s.timers.eraseIdx j }.report (.fired t.roomId t.countdownEndsAt s.now)
      else s
    | none => s
  | .retry j =>
    match s.retries[j]? with
    | some t => if t.due ≤ s.now then { s with retries := s.retries.eraseIdx j }.retry t.entry else s
    | none => s
  | .tick ms => { s with now := s.now + ms }
  | .elsewhere keys => { s with keys := keys }
  | .restart => boot s.now s.keys

end System

/-! ## Hands -/

/-- the entry of a clear that decides over a launch -/
def CallStage.hand : CallStage → Option PendingRecoveryEntry
  | .drain entry => some entry
  | _ => none

def ScanStage.hand : ScanStage → Option PendingRecoveryEntry
  | .clearing _ roomId countdownEndsAt _ => some (makePendingRecoveryEntry roomId countdownEndsAt true)
  | _ => none

/-- the rooms that the scan has still to read -/
def ScanStage.ahead : ScanStage → List String
  | .reading _ roomId rest => roomId :: rest
  | .dropping _ _ rest | .clearing _ _ _ rest => rest
  | .listing | .scanned => []

/-- the time from which the scan reckons -/
def ScanStage.since : ScanStage → ℕ
  | .reading now _ _ | .dropping now _ _ | .clearing now _ _ _ => now
  | .listing | .scanned => 0

/-- as the callback pushes it -/
def RetryTimer.hand (t : RetryTimer) : PendingRecoveryEntry := { t.entry with retryCount := t.entry.retryCount + 1 }

/-- the countdowns under recovery: buffered, about to be cleared, or waiting for a retry -/
def System.hands (s : System) : List PendingRecoveryEntry :=
  s.pendingRecovery ++ s.calls.filterMap (·.stage.hand) ++ s.retries.map (·.hand) ++ s.scan.stage.hand.toList

/-- the recovery of a room is over -/
def Event.ends (roomId : String) : Event → Bool
  | .armed r | .aborted r | .recovered r _ _ => r = roomId
  | _ => false

section Events

variable (r r' : String) (c n : ℕ)

@[simp] theorem Event.ends_took : (Event.took r').ends r = false := rfl
@[simp] theorem Event.ends_armed : (Event.armed r').ends r = decide (r' = r) := rfl
@[simp] theorem Event.ends_clearFailed : (Event.clearFailed r').ends r = false := rfl
@[simp] theorem Event.ends_aborted : (Event.aborted r').ends r = decide (r' = r) := rfl
@[simp] theorem Event.ends_recovered : (Event.recovered r' c n).ends r = decide (r' = r) := rfl
@[simp] theorem Event.ends_fired : (Event.fired r' c n).ends r = false := rfl

end Events

/-- every countdown that was taken up is in one hand or its recovery has ended, and the failures are counted right -/
structure HandsInv (hands : List PendingRecoveryEntry) (log : List Event) (now : ℕ) : Prop where
  kept : ∀ r, log.count (.took r) = hands.countP (·.roomId = r) + log.countP (·.ends r)
  once : ∀ r, log.count (.took r) ≤ 1
  fails : ∀ e ∈ hands, log.count (.clearFailed e.roomId) = e.retryCount ∧ e.retryCount ≤ maxRetries
  due : ∀ e ∈ hands, e.expired = true → e.countdownEndsAt ≤ now
  idle : ∀ r, log.count (.took r) = 0 → log.count (.clearFailed r) = 0
  bound : ∀ r, log.count (.clearFailed r) ≤ maxRetries + 1
  aborted : ∀ r, .aborted r ∈ log ↔ log.count (.clearFailed r) = maxRetries + 1
  never : ∀ r, .skipped r ∉ log ∧ .notArmed r ∉ log
  inTime : ∀ r countdownEndsAt at', .recovered r countdownEndsAt at' ∈ log ∨ .fired r countdownEndsAt at' ∈ log →
    countdownEndsAt ≤ at'

section Ledger

variable {hands hands' : List PendingRecoveryEntry} {log : List Event} {now now' : ℕ} {e : PendingRecoveryEntry}
  {r : String}

theorem HandsInv.perm (h : HandsInv hands log now) (hp : hands.Perm hands') : HandsInv hands' log now :=
  { h with
    kept := fun r => by rw [← hp.countP_eq]; exact h.kept r
    fails := fun e he => h.fails e (hp.mem_iff.2 he)
    due := fun e he => h.due e (hp.mem_iff.2 he) }

theorem HandsInv.later (h : HandsInv hands log now) (hn : now ≤ now') : HandsInv hands log now' :=
  { h with due := fun e he hx => (h.due e he hx).trans hn }

/-- a hand is the only one of its room, and the room's recovery has not ended -/
theorem HandsInv.alone (h : HandsInv (e :: hands) log now) :
    log.count (.took e.roomId) = 1 ∧ hands.countP (·.roomId = e.roomId) = 0 ∧ log.countP (·.ends e.roomId) = 0 := by
  have hkept := h.kept e.roomId
  have honce := h.once e.roomId
  simp only [List.countP_cons, decide_true, if_true] at hkept
  omega

theorem HandsInv.others (h : HandsInv (e :: hands) log now) {e' : PendingRecoveryEntry} (he : e' ∈ hands) :
    e'.roomId ≠ e.roomId := by
  have hzero := List.countP_eq_zero.1 h.alone.2.1 e' he
  simpa using hzero

theorem HandsInv.ne_of_untaken (h : HandsInv (e :: hands) log now) (hr : log.count (.took r) = 0) : r ≠ e.roomId := by
  rintro rfl
  have htook := h.alone.1
  omega

theorem HandsInv.notAborted (h : HandsInv (e :: hands) log now) : .aborted e.roomId ∉ log := fun hmem => by
  have hzero := List.countP_eq_zero.1 h.alone.2.2 _ hmem
  simp at hzero

theorem HandsInv.fired (h : HandsInv hands log now) {countdownEndsAt : ℕ} (hn : countdownEndsAt ≤ now) :
    HandsInv hands (log ++ [.fired r countdownEndsAt now]) now where
  kept r := by simpa using h.kept r
  once r := by simpa using h.once r
  fails e he := by simpa using h.fails e he
  due := h.due
  idle r := by simpa using h.idle r
  bound r := by simpa using h.bound r
  aborted r := by simpa using h.aborted r
  never r := by simpa using h.never r
  inTime r' c at' := by
    simp only [List.mem_append, List.mem_singleton, reduceCtorEq, or_false]
    rintro (hm | hm | hm)
    · exact h.inTime r' c at' (.inl hm)
    · exact h.inTime r' c at' (.inr hm)
    · cases hm
      exact hn

theorem HandsInv.take (h : HandsInv hands log now) (hnew : log.count (.took e.roomId) = 0) (hretry : e.retryCount = 0)
    (hdue : e.expired = true → e.countdownEndsAt ≤ now) : HandsInv (e :: hands) (log ++ [.took e.roomId]) now where
  kept r := by
    have hkept := h.kept r
    simp only [List.count_append, List.count_singleton, List.countP_append, List.countP_cons, List.countP_nil,
      Event.ends_took, Bool.false_eq_true, if_false, beq_iff_eq, Event.took.injEq, decide_eq_true_eq]
    split_ifs <;> omega
  once r := by
    have honce := h.once r
    simp only [List.count_append, List.count_singleton, beq_iff_eq, Event.took.injEq]
    split_ifs with hr
    · subst hr
      omega
    · omega
  fails e' he' := by
    simp only [List.count_append, List.count_singleton, beq_iff_eq, reduceCtorEq, if_false, add_zero]
    rcases List.mem_cons.1 he' with rfl | he'
    · rw [h.idle _ hnew, hretry]
      exact ⟨rfl, Nat.zero_le _⟩
    · exact h.fails e' he'
  due e' he' hx := by
    rcases List.mem_cons.1 he' with rfl | he'
    · exact hdue hx
    · exact h.due e' he' hx
  idle r hr := by
    simp only [List.count_append] at hr
    simpa using h.idle r (by omega)
  bound r := by simpa using h.bound r
  aborted r := by simpa using h.aborted r
  never r := by simpa using h.never r
  inTime r' c at' := by simpa using h.inTime r' c at'

/-- what ends the recovery of a hand -/
def Event.closes (e : PendingRecoveryEntry) (now : ℕ) (event : Event) : Prop :=
  event = .armed e.roomId ∨ (event = .recovered e.roomId e.countdownEndsAt now ∧ e.expired = true)

theorem HandsInv.close (h : HandsInv (e :: hands) log now) {event : Event} (hev : event.closes e now) :
    HandsInv hands (log ++ [event]) now where
  kept r := by
    have hkept := h.kept r
    have hends : event.ends r = decide (e.roomId = r) := by rcases hev with rfl | ⟨rfl, -⟩ <;> rfl
    have htook : event ≠ .took r := by rcases hev with rfl | ⟨rfl, -⟩ <;> simp
    simp only [List.count_append, List.count_singleton, List.countP_append, List.countP_cons, List.countP_nil, hends,
      htook, beq_iff_eq, if_false, decide_eq_true_eq] at hkept ⊢
    omega
  once r := by rcases hev with rfl | ⟨rfl, -⟩ <;> simpa using h.once r
  fails e' he' := by
    rcases hev with rfl | ⟨rfl, -⟩ <;> simpa using h.fails e' (List.mem_cons_of_mem _ he')
  due e' he' := h.due e' (List.mem_cons_of_mem _ he')
  idle r := by rcases hev with rfl | ⟨rfl, -⟩ <;> simpa using h.idle r
  bound r := by rcases hev with rfl | ⟨rfl, -⟩ <;> simpa using h.bound r
  aborted r := by rcases hev with rfl | ⟨rfl, -⟩ <;> simpa using h.aborted r
  never r := by rcases hev with rfl | ⟨rfl, -⟩ <;> simpa using h.never r
  inTime r' c at' := by
    rcases hev with rfl | ⟨rfl, hx⟩
    · simpa using h.inTime r' c at'
    · simp only [List.mem_append, List.mem_singleton, reduceCtorEq, or_false]
      rintro ((hm | hm) | hm)
      · exact h.inTime r' c at' (.inl hm)
      · cases hm
        exact h.due e List.mem_cons_self hx
      · exact h.inTime r' c at' (.inr hm)

/-- one more failure of the only hand of a room -/
theorem HandsInv.failed (h : HandsInv (e :: hands) log now) (hr : e.retryCount < maxRetries) :
    HandsInv ({ e with retryCount := e.retryCount + 1 } :: hands) (log ++ [.clearFailed e.roomId]) now where
  kept r := by simpa [List.countP_cons] using h.kept r
  once r := by simpa using h.once r
  fails e' he' := by
    have hfails := h.fails e List.mem_cons_self
    rcases List.mem_cons.1 he' with rfl | he'
    · simp only [List.count_append, List.count_singleton, beq_self_eq_true, if_true]
      exact ⟨by rw [hfails.1], hr⟩
    · have hne := h.others he'
      simpa [List.count_singleton, Ne.symm hne] using h.fails e' (List.mem_cons_of_mem _ he')
  due e' he' hx := by
    rcases List.mem_cons.1 he' with rfl | he'
    · exact h.due e List.mem_cons_self hx
    · exact h.due e' (List.mem_cons_of_mem _ he') hx
  idle r hr' := by
    have huntaken : log.count (.took r) = 0 := by simpa using hr'
    simpa [List.count_singleton, Ne.symm (h.ne_of_untaken huntaken)] using h.idle r huntaken
  bound r := by
    have hbound := h.bound r
    have hfails := h.fails e List.mem_cons_self
    simp only [List.count_append, List.count_singleton, beq_iff_eq, Event.clearFailed.injEq]
    split_ifs with he
    · subst he
      omega
    · omega
  aborted r := by
    by_cases he : e.roomId = r
    · subst he
      have hfails := (h.fails e List.mem_cons_self).1
      have hopen := h.notAborted
      simp only [List.mem_append, List.mem_singleton, reduceCtorEq, or_false, List.count_append, List.count_singleton,
        beq_self_eq_true, if_true, hopen, false_iff]
      omega
    · simpa [List.count_singleton, he] using h.aborted r
  never r := by simpa using h.never r
  inTime r' c at' := by simpa using h.inTime r' c at'

/-- the last failure of the only hand of a room -/
theorem HandsInv.gaveUp (h : HandsInv (e :: hands) log now) (hr : e.retryCount = maxRetries) :
    HandsInv hands (log ++ [.clearFailed e.roomId] ++ [.aborted e.roomId]) now where
  kept r := by
    have hkept := h.kept r
    simp only [List.count_append, List.count_singleton, List.countP_append, List.countP_cons, List.countP_nil,
      Event.ends_clearFailed, Event.ends_aborted, Bool.false_eq_true, beq_iff_eq, reduceCtorEq, if_false,
      decide_eq_true_eq] at hkept ⊢
    omega
  once r := by simpa using h.once r
  fails e' he' := by
    have hne := h.others he'
    simpa [List.count_singleton, Ne.symm hne] using h.fails e' (List.mem_cons_of_mem _ he')
  due e' he' := h.due e' (List.mem_cons_of_mem _ he')
  idle r hr' := by
    have huntaken : log.count (.took r) = 0 := by simpa using hr'
    simpa [List.count_singleton, Ne.symm (h.ne_of_untaken huntaken)] using h.idle r huntaken
  bound r := by
    have hbound := h.bound r
    have hfails := (h.fails e List.mem_cons_self).1
    by_cases he : e.roomId = r
    · subst he
      simp [hfails, hr]
    · simpa [List.count_singleton, he] using hbound
  aborted r := by
    have hfails := (h.fails e List.mem_cons_self).1
    by_cases he : e.roomId = r
    · subst he
      simp [hfails, hr]
    · simpa [List.count_singleton, he, Ne.symm he] using h.aborted r
  never r := by simpa using h.never r
  inTime r' c at' := by simpa using h.inTime r' c at'

end Ledger

/-! ## What every state keeps -/

namespace System

/-- with these hands in passing -/
structure Holds (es : List PendingRecoveryEntry) (s : System) : Prop where
  hands : HandsInv (es ++ s.hands) s.log s.now
  ahead : ∀ r, s.log.count (.took r) + s.scan.stage.ahead.count r ≤ 1
  listing : s.scan.stage = .listing → ∀ r, s.log.count (.took r) = 0
  since : s.scan.stage.since ≤ s.now
  retrying : ∀ r, s.activeRecoveryRetries.has r = true → ∃ t ∈ s.retries, t.entry.roomId = r
  wired : s.server = false → s.retries = [] ∧ s.calls.filterMap (·.stage.hand) = [] ∧ s.scan.stage.hand = none
  expired : (∀ e ∈ s.calls.filterMap (·.stage.hand), e.expired = true) ∧ ∀ t ∈ s.retries, t.entry.expired = true
  timers : ∀ t ∈ s.timers, t.countdownEndsAt ≤ t.due

structure CountdownInv (s : System) : Prop where
  holds : s.Holds []
  /-- what is buffered waits for the server only -/
  buffered : s.server = true → s.pendingRecovery = []

/-- the recovery is where it was -/
structure SameRecovery (s s' : System) : Prop where
  now : s'.now = s.now
  server : s'.server = s.server
  pending : s'.pendingRecovery = s.pendingRecovery
  active : s'.activeRecoveryRetries = s.activeRecoveryRetries
  retries : s'.retries = s.retries
  scan : s'.scan.stage = s.scan.stage
  log : s'.log = s.log
  calls : s'.calls.filterMap (·.stage.hand) = s.calls.filterMap (·.stage.hand)
  timers : ∀ t ∈ s'.timers, t ∈ s.timers ∨ t.countdownEndsAt ≤ t.due

variable {s s' s'' : System} {es es' : List PendingRecoveryEntry} {e : PendingRecoveryEntry} {i j : ℕ} {roomId : String}

theorem SameRecovery.refl (s : System) : SameRecovery s s :=
  ⟨rfl, rfl, rfl, rfl, rfl, rfl, rfl, rfl, fun _ ht => .inl ht⟩

theorem SameRecovery.trans (h : SameRecovery s s') (h' : SameRecovery s' s'') : SameRecovery s s'' :=
  ⟨h'.now.trans h.now, h'.server.trans h.server, h'.pending.trans h.pending, h'.active.trans h.active,
    h'.retries.trans h.retries, h'.scan.trans h.scan, h'.log.trans h.log, h'.calls.trans h.calls,
    fun t ht => (h'.timers t ht).elim (h.timers t) .inr⟩

theorem SameRecovery.hands (h : SameRecovery s s') : s'.hands = s.hands := by
  simp only [System.hands, h.pending, h.calls, h.retries, h.scan]

theorem Holds.same (h : s.Holds es) (hs : SameRecovery s s') : s'.Holds es where
  hands := by
    rw [hs.hands, hs.log, hs.now]
    exact h.hands
  ahead := by
    rw [hs.log, hs.scan]
    exact h.ahead
  listing := by
    rw [hs.log, hs.scan]
    exact h.listing
  since := by
    rw [hs.scan, hs.now]
    exact h.since
  retrying := by
    rw [hs.active, hs.retries]
    exact h.retrying
  wired := by
    rw [hs.server, hs.retries, hs.calls, hs.scan]
    exact h.wired
  expired := by
    rw [hs.calls, hs.retries]
    exact h.expired
  timers t ht := (hs.timers t ht).elim (h.timers t) id

/-- a clear that decides over a launch, or a retry, is under way only once the server is there -/
theorem Holds.server_of (h : s.Holds es)
    (hunder : s.retries ≠ [] ∨ s.calls.filterMap (·.stage.hand) ≠ [] ∨ s.scan.stage.hand ≠ none) : s.server = true := by
  by_contra hs
  obtain ⟨hretries, hcalls, hscan⟩ := h.wired (by simpa using hs)
  rcases hunder with hne | hne | hne
  · exact hne hretries
  · exact hne hcalls
  · exact hne hscan

theorem CountdownInv.same (h : CountdownInv s) (hs : SameRecovery s s') : CountdownInv s' :=
  ⟨h.holds.same hs, by
    rw [hs.server, hs.pending]
    exact h.buffered⟩

/-! ## The parts that leave the recovery alone -/

theorem filterMap_set_same {α β : Type} {f : α → Option β} {l : List α} {c c' : α} (hc : l[i]? = some c)
    (hf : f c' = f c) : (l.set i c').filterMap f = l.filterMap f := by
  induction l generalizing i with
  | nil => rfl
  | cons x l ih =>
    cases i with
    | zero =>
      obtain rfl := Option.some.inj hc
      simp [List.filterMap_cons, hf]
    | succ i => simp [List.filterMap_cons, ih hc]

theorem filterMap_set_none {α β : Type} {f : α → Option β} {l : List α} {c c' : α} {b : β} (hc : l[i]? = some c)
    (hf : f c = some b) (hf' : f c' = none) : (l.filterMap f).Perm (b :: (l.set i c').filterMap f) := by
  induction l generalizing i with
  | nil => simp at hc
  | cons x l ih =>
    cases i with
    | zero =>
      obtain rfl := Option.some.inj hc
      simp [hf, hf']
    | succ i =>
      have hrest := ih (i := i) hc
      simp only [List.filterMap_cons, List.set_cons_succ]
      cases f x with
      | none => exact hrest
      | some y => exact (hrest.cons y).trans (.swap b y _)

theorem begin_same (s : System) {stage : CallStage} (hs : stage.hand = none) : SameRecovery s (s.begin stage) :=
  { SameRecovery.refl s with calls := by simp [begin, hs] }

theorem await_same {c : Await CallStage} (hc : s.calls[i]? = some c) (hold : c.stage.hand = none) {stage : CallStage}
    (hs : stage.hand = none) : SameRecovery s (s.await i stage) :=
  { SameRecovery.refl s with calls := filterMap_set_same hc (hs.trans hold.symm) }

theorem clearLobbyCountdown_same (s : System) (roomId : String) (timer : Option ℕ) :
    SameRecovery s (s.clearLobbyCountdown roomId timer) := by
  cases timer with
  | none => exact ⟨rfl, rfl, rfl, rfl, rfl, rfl, rfl, rfl, fun _ ht => .inl ht⟩
  | some id =>
    exact ⟨rfl, rfl, rfl, rfl, rfl, rfl, rfl, rfl, fun _ ht => .inl (List.mem_of_mem_filter ht)⟩

theorem clearLobbyCountdownBestEffort_same (s : System) (roomId : String) :
    SameRecovery s (s.clearLobbyCountdownBestEffort roomId) :=
  (clearLobbyCountdown_same s roomId _).trans (begin_same _ rfl)

theorem clearCountdown_same (s : System) (roomId : String) : SameRecovery s (s.clearCountdown roomId) := by
  unfold clearCountdown
  split
  · exact (clearLobbyCountdown_same s roomId _).trans (begin_same _ rfl)
  · exact .refl s

theorem handleRoomPlayerLeft_same (s : System) (roomId : String) : SameRecovery s (s.handleRoomPlayerLeft roomId) := by
  unfold handleRoomPlayerLeft
  split
  · exact begin_same s rfl
  · exact .refl s

theorem armLobbyCountdownTimer_same (s : System) (roomId : String) (countdownEndsAt : ℕ) (server : Bool) :
    SameRecovery s (s.armLobbyCountdownTimer roomId countdownEndsAt server) := by
  unfold armLobbyCountdownTimer
  split
  · refine ⟨rfl, rfl, rfl, rfl, rfl, rfl, rfl, rfl, fun t ht => ?_⟩
    rcases List.mem_append.1 ht with ht | ht
    · exact .inl ht
    · obtain rfl := List.mem_singleton.1 ht
      exact .inr (by dsimp only; omega)
  · exact clearLobbyCountdownBestEffort_same s roomId

theorem executeScan_same (s : System) (reply : Reply) : SameRecovery s (s.executeScan reply) := by
  unfold executeScan
  split
  · exact ⟨rfl, rfl, rfl, rfl, rfl, rfl, rfl, rfl, fun _ ht => .inl ht⟩
  · exact .refl s

theorem execute_same (s : System) (i : ℕ) (reply : Reply) : SameRecovery s (s.execute i reply) := by
  unfold execute
  split
  · rename_i stage hc
    split
    · exact ⟨rfl, rfl, rfl, rfl, rfl, rfl, rfl, filterMap_set_same hc rfl, fun _ ht => .inl ht⟩
    · exact .refl s
  · exact .refl s

/-- a call without a hand goes on without one -/
theorem resumeCall_same {stage : CallStage} {given : Option Answer} (hc : s.calls[i]? = some ⟨stage, given⟩)
    (hs : stage.hand = none) (answer : Answer) : SameRecovery s (s.resumeCall i stage answer) := by
  have hfinish : SameRecovery s (s.finish i) := await_same hc hs rfl
  have hgive : ∀ roomId, SameRecovery s ((s.finish i).clearLobbyCountdownBestEffort roomId) := fun roomId =>
    hfinish.trans (clearLobbyCountdownBestEffort_same _ roomId)
  unfold resumeCall
  split
  · split
    · exact ⟨rfl, rfl, rfl, rfl, rfl, rfl, rfl, filterMap_set_same hc rfl, fun _ ht => .inl ht⟩
    · exact hfinish
  · exact hfinish
  · exact hgive _
  · exact (await_same hc hs rfl).trans (armLobbyCountdownTimer_same _ _ _ _)
  · exact (await_same hc hs rfl).trans (clearLobbyCountdownBestEffort_same _ _)
  · exact hfinish
  · exact hgive _
  · split
    · exact (await_same hc hs rfl).trans (clearLobbyCountdown_same _ _ _)
    · exact hfinish
  · exact hfinish
  · exact await_same hc hs rfl
  · exact hfinish
  · exact hfinish
  · cases hs
  · cases hs
  · exact hfinish
  · exact hfinish.trans (begin_same _ rfl)
  · exact .refl s

/-! ## The recovery -/

/-- a hand in passing is closed by its event -/
theorem Holds.close (h : s.Holds (e :: es)) {event : Event} (hev : event.closes e s.now) :
    (s.report event).Holds es where
  hands := HandsInv.close h.hands hev
  ahead r := by
    have hahead := h.ahead r
    rcases hev with rfl | ⟨rfl, -⟩ <;> simpa [report] using hahead
  listing hl r := by
    have hlisting := h.listing hl r
    rcases hev with rfl | ⟨rfl, -⟩ <;> simpa [report] using hlisting
  since := h.since
  retrying := h.retrying
  wired := h.wired
  expired := h.expired
  timers := h.timers

theorem Holds.armRecovered (h : s.Holds (e :: es)) (hserver : s.server = true) :
    (s.armRecovered e.roomId e.countdownEndsAt).Holds es := by
  have hsame := armLobbyCountdownTimer_same s e.roomId e.countdownEndsAt false
  unfold System.armRecovered
  rw [if_pos hserver]
  exact (h.same hsame).close (.inl rfl)

theorem Holds.recover (h : s.Holds (e :: es)) (he : e.expired = true) :
    (s.recover e.roomId e.countdownEndsAt).Holds es :=
  h.close (.inr ⟨rfl, he⟩)

/-- an expired entry goes over to its clear -/
theorem Holds.beginDrain (h : s.Holds (e :: es)) (he : e.expired = true) (hserver : s.server = true) :
    (s.begin (.drain e)).Holds es where
  hands := h.hands.perm (by
    have hcalls : (s.begin (.drain e)).calls.filterMap (·.stage.hand) = s.calls.filterMap (·.stage.hand) ++ [e] := by
      simp [begin, CallStage.hand]
    simp only [System.hands, hcalls]
    exact (List.perm_append_comm_assoc [e] es _).trans (List.Perm.append_left es (by
      simp only [begin, List.append_assoc]
      refine (List.perm_append_comm_assoc [e] s.pendingRecovery _).trans (List.Perm.append_left _ ?_)
      exact List.perm_append_comm_assoc [e] _ _)))
  ahead := h.ahead
  listing := h.listing
  since := h.since
  retrying := h.retrying
  wired hs := by rw [show s.server = false from hs] at hserver; cases hserver
  expired := by
    refine ⟨fun e' he' => ?_, h.expired.2⟩
    have hcalls : e' ∈ s.calls.filterMap (·.stage.hand) ∨ e' = e := by
      simpa [begin, CallStage.hand] using he'
    rcases hcalls with he' | rfl
    · exact h.expired.1 e' he'
    · exact he
  timers := h.timers

theorem Holds.drainEntry (h : s.Holds (e :: es)) (hserver : s.server = true) : (s.drainEntry e).Holds es := by
  unfold System.drainEntry
  split_ifs with he
  · exact h.beginDrain he hserver
  · exact h.armRecovered hserver

theorem drainEntry_server (s : System) (e : PendingRecoveryEntry) : (s.drainEntry e).server = s.server := by
  unfold drainEntry
  split_ifs
  · rfl
  · exact (armLobbyCountdownTimer_same s _ _ _).server

theorem drainEntry_pending (s : System) (e : PendingRecoveryEntry) :
    (s.drainEntry e).pendingRecovery = s.pendingRecovery := by
  unfold drainEntry
  split_ifs
  · rfl
  · exact (armLobbyCountdownTimer_same s _ _ _).pending

/-- the buffer is handed on, entry by entry -/
theorem drain_inv (hserver : s.server = true) (hempty : s.pendingRecovery = []) (h : s.Holds es) :
    CountdownInv (es.foldl System.drainEntry s) := by
  induction es generalizing s with
  | nil => exact ⟨h, fun _ => hempty⟩
  | cons e es ih =>
    exact ih ((drainEntry_server s e).trans hserver) ((drainEntry_pending s e).trans hempty) (h.drainEntry hserver)

theorem Holds.buffered (h : s.Holds []) : { s with pendingRecovery := [] }.Holds s.pendingRecovery where
  hands := h.hands.perm (by simp [System.hands])
  ahead := h.ahead
  listing := h.listing
  since := h.since
  retrying := h.retrying
  wired := h.wired
  expired := h.expired
  timers := h.timers

theorem setServer_inv (h : CountdownInv s) : CountdownInv s.setServer :=
  drain_inv rfl rfl (Holds.buffered (s := { s with server := true })
    { h.holds with hands := h.holds.hands, wired := fun hs => by cases hs })

/-- **One failure more.** The hand waits for its next retry, or is given up after the last. -/
theorem Holds.clearFailed (h : s.Holds (e :: es)) (he : e.expired = true) (hserver : s.server = true) :
    (s.clearFailed e).Holds es := by
  have hfree : s.activeRecoveryRetries.has e.roomId = false := by
    by_contra hactive
    obtain ⟨t, ht, hroom⟩ := h.retrying e.roomId (by simpa using hactive)
    have hmem : t.hand ∈ es ++ s.hands := by
      simp only [System.hands, List.mem_append, List.mem_map]
      exact .inr (.inl (.inr ⟨t, ht, rfl⟩))
    exact h.hands.others hmem hroom
  have hretry := (h.hands.fails e List.mem_cons_self).2
  unfold System.clearFailed System.scheduleRecoveryRetry
  rw [if_neg (by simpa [report] using hfree)]
  split_ifs with hmax
  · refine Holds.same ?_ (begin_same _ rfl)
    exact { h with
      hands := HandsInv.gaveUp h.hands (le_antisymm hretry hmax)
      ahead := fun r => by simpa [report] using h.ahead r
      listing := fun hl r => by simpa [report] using h.listing hl r }
  · exact {
      hands := (HandsInv.failed h.hands (not_le.1 hmax)).perm (by
        simp only [System.hands, report, List.map_append, List.map_cons, List.map_nil, RetryTimer.hand]
        refine (List.perm_append_comm_assoc [_] es _).trans (List.Perm.append_left es ?_)
        simp only [List.append_assoc]
        refine (List.perm_append_comm_assoc [_] s.pendingRecovery _).trans (List.Perm.append_left _ ?_)
        refine (List.perm_append_comm_assoc [_] _ _).trans (List.Perm.append_left _ ?_)
        exact List.perm_append_comm_assoc [_] _ _)
      ahead := fun r => by simpa [report] using h.ahead r
      listing := fun hl r => by simpa [report] using h.listing hl r
      since := h.since
      retrying := fun r hr => by
        simp only [report, JsSet.has_add, Bool.or_eq_true, decide_eq_true_eq] at hr
        rcases hr with rfl | hr
        · exact ⟨_, List.mem_append_right _ List.mem_cons_self, rfl⟩
        · obtain ⟨t, ht, hroom⟩ := h.retrying r hr
          exact ⟨t, List.mem_append_left _ ht, hroom⟩
      wired := fun hs => by
        rw [show s.server = false from hs] at hserver
        cases hserver
      expired := ⟨h.expired.1, fun t ht => by
        rcases List.mem_append.1 ht with ht | ht
        · exact h.expired.2 t ht
        · obtain rfl := List.mem_singleton.1 ht
          exact he⟩
      timers := h.timers }

theorem clearFailed_server (s : System) (e : PendingRecoveryEntry) :
    (s.clearFailed e).server = s.server ∧ (s.clearFailed e).pendingRecovery = s.pendingRecovery := by
  unfold clearFailed scheduleRecoveryRetry
  split_ifs <;> exact ⟨rfl, rfl⟩

theorem retry_inv (h : CountdownInv s) {t : RetryTimer} (ht : s.retries[j]? = some t) :
    CountdownInv ({ s with retries := s.retries.eraseIdx j }.retry t.entry) := by
  have hmem : t ∈ s.retries := List.mem_of_getElem? ht
  have hserver : s.server = true := h.holds.server_of (.inl (List.ne_nil_of_mem hmem))
  have hperm : s.retries.Perm (t :: s.retries.eraseIdx j) := by
    obtain ⟨hj, rfl⟩ := List.getElem?_eq_some_iff.1 ht
    exact (List.getElem_cons_eraseIdx_perm hj).symm
  refine drain_inv hserver rfl (Holds.buffered ?_)
  exact {
    hands := h.holds.hands.perm (by
      simp only [List.nil_append, System.hands, List.append_assoc]
      refine List.Perm.append_left s.pendingRecovery ?_
      refine (List.Perm.append_left _ ((hperm.map RetryTimer.hand).append_right _)).trans ?_
      exact List.perm_append_comm_assoc _ [t.hand] _)
    ahead := h.holds.ahead
    listing := h.holds.listing
    since := h.holds.since
    retrying := fun r hr => by
      simp only [JsSet.has_delete, Bool.and_eq_true, Bool.not_eq_true', decide_eq_false_iff_not] at hr
      obtain ⟨t', ht', hroom⟩ := h.holds.retrying r hr.2
      rcases List.mem_cons.1 (hperm.mem_iff.1 ht') with rfl | ht'
      · exact absurd hroom.symm hr.1
      · exact ⟨t', ht', hroom⟩
    wired := fun hs => by
      rw [show s.server = false from hs] at hserver
      cases hserver
    expired := ⟨h.holds.expired.1, fun t' ht' => h.holds.expired.2 t' (hperm.mem_iff.2 (List.mem_cons_of_mem _ ht'))⟩
    timers := h.holds.timers }

/-! ## The scan -/

theorem Holds.setScan (h : s.Holds es) {stage : ScanStage}
    (hp : (es ++ s.scan.stage.hand.toList).Perm (es' ++ stage.hand.toList))
    (hahead : ∀ r, s.log.count (.took r) + stage.ahead.count r ≤ 1) (hl : stage ≠ .listing)
    (hsince : stage.since ≤ s.now) (hw : s.server = false → stage.hand = none) : (s.setScan stage).Holds es' where
  hands := h.hands.perm (by
    have hout := List.perm_append_comm_assoc es
      (s.pendingRecovery ++ s.calls.filterMap (·.stage.hand) ++ s.retries.map (·.hand)) s.scan.stage.hand.toList
    exact (hout.trans (hp.append_left _)).trans (List.perm_append_comm_assoc _ _ _))
  ahead := hahead
  listing hl' := absurd hl' hl
  since := hsince
  retrying := h.retrying
  wired hs := ⟨(h.wired hs).1, (h.wired hs).2.1, hw hs⟩
  expired := h.expired
  timers := h.timers

section ScanNext

variable (s) (now : ℕ) (rest : List String)

theorem scanNext_stage : (s.scanNext now rest).scan.stage.ahead = rest ∧
    (s.scanNext now rest).scan.stage.hand = none ∧ (s.scanNext now rest).scan.stage ≠ .listing := by
  cases rest <;> exact ⟨rfl, rfl, fun h => by cases h⟩

theorem scanNext_frame : (s.scanNext now rest).server = s.server ∧ (s.scanNext now rest).log = s.log ∧
    (s.scanNext now rest).now = s.now ∧ (s.scanNext now rest).pendingRecovery = s.pendingRecovery := by
  cases rest <;> exact ⟨rfl, rfl, rfl, rfl⟩

end ScanNext

variable {now countdownEndsAt : ℕ} {rest : List String}

theorem Holds.scanNext (h : s.Holds es) (hp : (es ++ s.scan.stage.hand.toList).Perm es')
    (hahead : ∀ r, s.log.count (.took r) + rest.count r ≤ 1) (hnow : now ≤ s.now) :
    (s.scanNext now rest).Holds es' := by
  cases rest with
  | nil => exact h.setScan (by simpa [ScanStage.hand] using hp) hahead (by simp) (Nat.zero_le _) fun _ => rfl
  | cons roomId rest => exact h.setScan (by simpa [ScanStage.hand] using hp) hahead (by simp) hnow fun _ => rfl

theorem scanNext_inv (h : CountdownInv s) (hhand : s.scan.stage.hand = none)
    (hahead : ∀ r, s.log.count (.took r) + rest.count r ≤ 1) (hnow : now ≤ s.now) :
    CountdownInv (s.scanNext now rest) := by
  refine ⟨h.holds.scanNext (by simp [hhand]) hahead hnow, ?_⟩
  rw [(scanNext_frame s now rest).1, (scanNext_frame s now rest).2.2.2]
  exact h.buffered

/-- a countdown that is taken up is in hand -/
theorem Holds.take (h : s.Holds es) (hretry : e.retryCount = 0) (hdue : e.expired = true → e.countdownEndsAt ≤ s.now)
    (hahead : ∀ r, s.log.count (.took r) + (if e.roomId = r then 1 else 0) + s.scan.stage.ahead.count r ≤ 1)
    (hl : s.scan.stage ≠ .listing) : (s.report (.took e.roomId)).Holds (e :: es) where
  hands := by
    have hnew := hahead e.roomId
    rw [if_pos rfl] at hnew
    exact h.hands.take (by omega) hretry hdue
  ahead r := by
    have hr := hahead r
    simp only [report, List.count_append, List.count_singleton, beq_iff_eq, Event.took.injEq]
    exact hr
  listing hl' := absurd hl' hl
  since := h.since
  retrying := h.retrying
  wired := h.wired
  expired := h.expired
  timers := h.timers

theorem Holds.push (h : s.Holds (e :: es)) : (s.push e).Holds es where
  hands := h.hands.perm (by
    simp only [System.hands, System.push, List.append_assoc]
    refine (List.perm_append_comm_assoc [e] es _).trans (List.Perm.append_left es ?_)
    exact List.perm_append_comm_assoc [e] s.pendingRecovery _)
  ahead := h.ahead
  listing := h.listing
  since := h.since
  retrying := h.retrying
  wired := h.wired
  expired := h.expired
  timers := h.timers

theorem takeUp_inv (h : CountdownInv s) (hst : s.scan.stage = .reading now roomId rest) :
    CountdownInv (((s.scanNext now rest).report (.took roomId)).takeUp now roomId countdownEndsAt rest) := by
  obtain ⟨hserver, hlog, hnow, hpending⟩ := scanNext_frame s now rest
  obtain ⟨hahead', hhand, hl⟩ := scanNext_stage s now rest
  have hsince : now ≤ s.now := by simpa [hst, ScanStage.since] using h.holds.since
  have hahead : ∀ r, s.log.count (.took r) + (if roomId = r then 1 else 0) + rest.count r ≤ 1 := fun r => by
    have hr := h.holds.ahead r
    simp only [hst, ScanStage.ahead, List.count_cons, beq_iff_eq] at hr
    omega
  have hscan : (s.scanNext now rest).Holds [] :=
    h.holds.scanNext (by simp [hst, ScanStage.hand]) (fun r => (Nat.add_le_add_right (Nat.le_add_right _ _) _).trans
      (hahead r)) hsince
  have htook : ∀ expired, (expired = true → countdownEndsAt ≤ s.now) →
      ((s.scanNext now rest).report (.took roomId)).Holds [makePendingRecoveryEntry roomId countdownEndsAt expired] :=
    fun expired hdue => hscan.take rfl (by rw [hnow]; exact hdue) (by rw [hlog, hahead']; exact hahead) hl
  have hreport : ∀ event, ((s.scanNext now rest).report event).scan = (s.scanNext now rest).scan := fun _ => rfl
  have hbuffered : (s.scanNext now rest).server = true → (s.scanNext now rest).pendingRecovery = [] := by
    rw [hserver, hpending]
    exact h.buffered
  unfold takeUp
  split_ifs with hdue hs hs
  · refine ⟨(htook true fun _ => by omega).setScan ?_ ?_ (by simp)
      (by simpa [report, hnow, ScanStage.since] using hsince) fun hs' => ?_, hbuffered⟩
    · rw [hreport, hhand]
      exact .refl _
    · have hr := (htook true fun _ => by omega).ahead
      rw [hreport, hahead'] at hr
      exact hr
    · rw [hs] at hs'
      cases hs'
  · exact ⟨(htook true fun _ => by omega).push, fun hs' => absurd hs' hs⟩
  · refine ⟨(htook false fun h => by cases h).armRecovered hs, fun _ => ?_⟩
    exact (armLobbyCountdownTimer_same _ _ _ _).pending.trans (hbuffered hs)
  · exact ⟨(htook false fun h => by cases h).push, fun hs' => absurd hs' hs⟩

theorem resumeScan_inv (h : CountdownInv s) (answer : Answer) : CountdownInv (s.resumeScan s.scan.stage answer) := by
  have hsince := h.holds.since
  have hahead := h.holds.ahead
  cases hst : s.scan.stage with
  | listing =>
    have hnone := h.holds.listing hst
    have hdone : CountdownInv (s.scanNext 0 []) :=
      scanNext_inv h (by simp [hst, ScanStage.hand]) (fun r => by simp [hnone r]) (Nat.zero_le _)
    cases answer with
    | rooms roomIds =>
      refine scanNext_inv h (by simp [hst, ScanStage.hand]) (fun r => ?_) le_rfl
      rw [hnone r, Nat.zero_add]
      exact List.nodup_iff_count_le_one.1 roomIds.nodup r
    | _ => exact hdone
  | reading now roomId rest =>
    rw [hst] at hsince hahead
    have hrest : ∀ r, s.log.count (.took r) + rest.count r ≤ 1 := fun r =>
      (Nat.add_le_add_left (List.count_le_count_cons ..) _).trans (hahead r)
    have hnext : CountdownInv (s.scanNext now rest) :=
      scanNext_inv h (by simp [hst, ScanStage.hand]) hrest hsince
    cases answer with
    | present countdownEndsAt => exact takeUp_inv h hst
    | missing =>
      exact ⟨h.holds.setScan (by simp [hst, ScanStage.hand]) hrest (by simp) hsince fun _ => rfl, h.buffered⟩
    | _ => exact hnext
  | dropping now roomId rest =>
    rw [hst] at hsince hahead
    exact scanNext_inv h (by simp [hst, ScanStage.hand]) hahead hsince
  | clearing now roomId countdownEndsAt rest =>
    rw [hst] at hsince hahead
    obtain ⟨hserver', -, -, hpending⟩ := scanNext_frame s now rest
    have hserver : s.server = true := h.holds.server_of (.inr (.inr (by simp [hst, ScanStage.hand])))
    have hscan : (s.scanNext now rest).Holds [makePendingRecoveryEntry roomId countdownEndsAt true] :=
      h.holds.scanNext (by simp [hst, ScanStage.hand]) hahead hsince
    have hfailed : CountdownInv ((s.scanNext now rest).clearFailed
        (makePendingRecoveryEntry roomId countdownEndsAt true)) := by
      refine ⟨hscan.clearFailed rfl (hserver'.trans hserver), fun _ => ?_⟩
      rw [(clearFailed_server _ _).2, hpending]
      exact h.buffered hserver
    have hlaunched : CountdownInv ((s.scanNext now rest).recover roomId countdownEndsAt) :=
      ⟨hscan.recover rfl, fun _ => hpending.trans (h.buffered hserver)⟩
    cases answer with
    | threw => exact hfailed
    | _ => exact hlaunched
  | scanned => exact h

/-! ## Runs -/

theorem finish_calls {given : Option Answer} (hc : s.calls[i]? = some ⟨.drain e, given⟩) :
    (s.calls.filterMap (·.stage.hand)).Perm (e :: (s.finish i).calls.filterMap (·.stage.hand)) :=
  filterMap_set_none hc rfl rfl

theorem finish_drain (h : s.Holds es) {given : Option Answer} (hc : s.calls[i]? = some ⟨.drain e, given⟩) :
    (s.finish i).Holds (e :: es) where
  hands := h.hands.perm (by
    have hall : s.hands.Perm (e :: (s.finish i).hands) := by
      simp only [System.hands, List.append_assoc]
      refine (List.Perm.append_left _ ((finish_calls hc).append_right _)).trans ?_
      exact List.perm_append_comm_assoc s.pendingRecovery [e] _
    exact (List.Perm.append_left es hall).trans (List.perm_append_comm_assoc es [e] _))
  ahead := h.ahead
  listing := h.listing
  since := h.since
  retrying := h.retrying
  wired hs := by
    have hnil := (h.wired hs).2.1
    have hmem : e ∈ s.calls.filterMap (·.stage.hand) :=
      List.mem_filterMap.2 ⟨_, List.mem_of_getElem? hc, rfl⟩
    rw [hnil] at hmem
    cases hmem
  expired := by
    refine ⟨fun e' he' => h.expired.1 e' ?_, h.expired.2⟩
    exact (finish_calls hc).mem_iff.2 (List.mem_cons_of_mem _ he')
  timers := h.timers

theorem resumeCall_inv (h : CountdownInv s) {stage : CallStage} {given : Option Answer}
    (hc : s.calls[i]? = some ⟨stage, given⟩) (answer : Answer) : CountdownInv (s.resumeCall i stage answer) := by
  cases hhand : stage.hand with
  | none => exact h.same (resumeCall_same hc hhand answer)
  | some e =>
    cases stage with
    | drain entry =>
      obtain rfl := Option.some.inj hhand
      have hmem : entry ∈ s.calls.filterMap (·.stage.hand) :=
        List.mem_filterMap.2 ⟨_, List.mem_of_getElem? hc, rfl⟩
      have hserver : s.server = true := h.holds.server_of (.inr (.inl (List.ne_nil_of_mem hmem)))
      have hexpired := h.holds.expired.1 entry hmem
      have hdone := finish_drain h.holds hc
      have hlaunched : CountdownInv ((s.finish i).recover entry.roomId entry.countdownEndsAt) :=
        ⟨hdone.recover hexpired, h.buffered⟩
      cases answer with
      | threw =>
        refine ⟨hdone.clearFailed hexpired hserver, fun _ => ?_⟩
        exact (clearFailed_server _ _).2.trans (h.buffered hserver)
      | _ => exact hlaunched
    | _ => cases hhand

theorem boot_inv (now : ℕ) (keys : Keys) : CountdownInv (boot now keys) where
  holds :=
    { hands :=
        { kept := fun r => by simp [boot, System.hands, ScanStage.hand]
          once := fun r => by simp [boot]
          fails := fun e he => by simp [boot, System.hands, ScanStage.hand] at he
          due := fun e he => by simp [boot, System.hands, ScanStage.hand] at he
          idle := fun r _ => by simp [boot]
          bound := fun r => by simp [boot]
          aborted := fun r => by simp [boot]
          never := fun r => by simp [boot]
          inTime := fun r c at' hr => by simp [boot] at hr }
      ahead := fun r => by simp [boot, ScanStage.ahead]
      listing := fun _ r => by simp [boot]
      since := Nat.zero_le _
      retrying := fun r hr => by simp [boot] at hr
      wired := fun _ => ⟨rfl, rfl, rfl⟩
      expired := by simp [boot]
      timers := fun t ht => by cases ht }
  buffered _ := rfl

theorem fire_inv (h : CountdownInv s) {t : CountdownTimer} (ht : t ∈ s.timers) (hdue : t.due ≤ s.now) :
    CountdownInv ({ s with timers := s.timers.eraseIdx j }.report (.fired t.roomId t.countdownEndsAt s.now)) where
  holds :=
    { h.holds with
      hands := h.holds.hands.fired ((h.holds.timers t ht).trans hdue)
      ahead := fun r => by simpa [report] using h.holds.ahead r
      listing := fun hl r => by simpa [report] using h.holds.listing hl r
      timers := fun t ht => h.holds.timers t (List.mem_of_mem_eraseIdx ht) }
  buffered := h.buffered

theorem tick_inv (h : CountdownInv s) (ms : ℕ) : CountdownInv { s with now := s.now + ms } where
  holds :=
    { h.holds with
      hands := h.holds.hands.later (Nat.le_add_right _ _)
      since := h.holds.since.trans (Nat.le_add_right _ _) }
  buffered := h.buffered

theorem step_inv (h : CountdownInv s) (o : CountdownOp) : CountdownInv (s.step o) := by
  cases o with
  | setServer => exact setServer_inv h
  | maybeStartPublicCountdown roomId => exact h.same (begin_same s rfl)
  | handleRoomPlayerLeft roomId => exact h.same (handleRoomPlayerLeft_same s roomId)
  | clearCountdown roomId => exact h.same (clearCountdown_same s roomId)
  | executeScan reply => exact h.same (executeScan_same s reply)
  | resumeScan =>
    simp only [step]
    split
    · exact resumeScan_inv h _
    · exact h
  | execute i reply => exact h.same (execute_same s i reply)
  | resume i =>
    simp only [step]
    split
    · rename_i stage answer hc
      exact resumeCall_inv h hc answer
    · exact h
  | fire j =>
    simp only [step]
    split
    · rename_i t ht
      split_ifs with hdue
      · exact fire_inv h (List.mem_of_getElem? ht) hdue
      · exact h
    · exact h
  | retry j =>
    simp only [step]
    split
    · rename_i t ht
      split_ifs
      · exact retry_inv h ht
      · exact h
    · exact h
  | tick ms => exact tick_inv h ms
  | elsewhere keys => exact ⟨{ h.holds with hands := h.holds.hands }, h.buffered⟩
  | restart => exact boot_inv s.now s.keys

theorem run_countdownInv (now : ℕ) (keys : Keys) (ops : List CountdownOp) :
    CountdownInv (run step (boot now keys) ops) :=
  run_inv step (fun _ _ => True) CountdownInv (fun _ o _ h => step_inv h o) _ ops (along_true _ _ ops)
    (boot_inv now keys)

/-- **No recovered countdown is lost, doubled or early.** In every state that a process reaches, with any restarts: what
its scan took up is in exactly one hand, or its recovery has ended in one of three ways, once (armed, launched after its
clear, or aborted); none is skipped, or dropped for want of a server, and while there is a server nothing stays
buffered; a hand counts its failed clears, and a room is aborted exactly with the sixth; and no launch comes before
its countdown ends. -/
theorem recovered_countdowns_are_kept (now : ℕ) (keys : Keys) (ops : List CountdownOp) :
    let s := run step (boot now keys) ops
    (∀ r, s.log.count (.took r) = s.hands.countP (·.roomId = r) + s.log.countP (·.ends r) ∧
      s.log.count (.took r) ≤ 1) ∧
    (∀ r, .skipped r ∉ s.log ∧ .notArmed r ∉ s.log) ∧ (s.server = true → s.pendingRecovery = []) ∧
    (∀ e ∈ s.hands, s.log.count (.clearFailed e.roomId) = e.retryCount ∧ e.retryCount ≤ maxRetries) ∧
    (∀ r, .aborted r ∈ s.log ↔ s.log.count (.clearFailed r) = maxRetries + 1) ∧
    ∀ r countdownEndsAt at', .recovered r countdownEndsAt at' ∈ s.log ∨ .fired r countdownEndsAt at' ∈ s.log →
      countdownEndsAt ≤ at' := by
  intro s
  have h : CountdownInv s := run_countdownInv now keys ops
  have hands := h.holds.hands
  exact ⟨fun r => ⟨hands.kept r, hands.once r⟩, hands.never, h.buffered, hands.fails, hands.aborted, hands.inTime⟩

/-- found before the server is there, and launched once its second clear succeeds -/
example :
    let found : Reply := .ok ⟨true, .countdown, 2⟩
    (run step (boot 9000 ⟨JsMap.empty.set "room" 5000, JsSet.empty.add "room"⟩)
      [.executeScan found, .resumeScan, .executeScan found, .resumeScan, .setServer, .execute 0 .fails, .resume 0,
        .tick 1000, .retry 0, .execute 1 found, .resume 1]).log =
      [.took "room", .clearFailed "room", .recovered "room" 5000 10000] := by
  decide +kernel

end System

end Arena.Api.Countdown
