/-
The reconnect path (`handleRequestSnapshot` of `match.handler.ts`) and a client that applies its replies in order
(`applySnapshotState`, `applyEventBatchState` of the web client).

The server answers a cursor with the events behind it when the log still has them all, and with a snapshot at the head
otherwise. `Sync` is one client and the machine: the client sends its cursor at any time, requests are answered in any
order with the machine of that time, and replies arrive in the order they were sent, with calls and failovers in between.
Of a batch only the fold over its events is kept, `applied` being what was folded since the last snapshot; parsing and
the fold into the view of the match are left out, and so is the room membership check of the handler.

- `reply_exact`: a reply is a snapshot at the head, or the events after the cursor;
- `SyncInv`: the client has folded exactly the log between its snapshot and its cursor;
- `event_sequence_gap_free`: numbers, heads, deltas, replies and clients, in every run.
-/
import Arena.GameCore.Delta

namespace Arena.Api

open Arena.Lib Arena.Shared Arena.GameCore

/-! ## Server -/

/-- the reply to REQUEST_SNAPSHOT -/
inductive SnapshotReply where
  | snapshot (s : MatchSnapshot)
  | eventBatch (matchId : String) (events : List DeltaEvent)
deriving DecidableEq

def canDelta (m : Machine) (cursor : ℕ) : Bool :=
  0 < cursor && 0 < m.getHeadSeqNo && m.getFloorSeqNo ≤ cursor && cursor ≤ m.getHeadSeqNo

def handleRequestSnapshot (m : Machine) (matchId : String) (cursor : ℕ) : SnapshotReply :=
  if canDelta m cursor then .eventBatch matchId (m.getDelta cursor) else .snapshot (m.getSnapshot m.getHeadSeqNo)

/-! ## Client -/

structure ClientView where
  /-- the last snapshot -/
  hydrated : Option MatchSnapshot
  /-- the events folded since -/
  applied : List DeltaEvent
  lastSeenSeqNo : ℕ
deriving DecidableEq

def ClientView.fresh : ClientView := ⟨none, [], 0⟩

def applySnapshotState (data : MatchSnapshot) : ClientView := ⟨some data, [], data.lastEventSeqNo⟩

/-- one event of a batch: what the cursor has passed is skipped -/
def foldEvent (v : ClientView) (e : DeltaEvent) : ClientView :=
  if e.seqNo ≤ v.lastSeenSeqNo then v else { v with applied := v.applied ++ [e], lastSeenSeqNo := e.seqNo }

def applyEventBatchState (v : ClientView) (matchId : String) (events : List DeltaEvent) : ClientView :=
  match v.hydrated with
  | none => v
  | some s => if s.matchId ≠ matchId then v else events.foldl foldEvent v

def ClientView.receive (v : ClientView) : SnapshotReply → ClientView
  | .snapshot s => applySnapshotState s
  | .eventBatch matchId events => applyEventBatchState v matchId events

/-! ## One client and the machine -/

structure Sync where
  machine : Machine
  client : ClientView
  /-- cursors on their way to the server -/
  requests : List ℕ
  /-- replies on their way to the client, oldest first -/
  replies : List SnapshotReply

inductive SyncOp where
  | act (a : Machine.Action)
  | requestSnapshot
  /-- the i-th request is handled -/
  | handle (matchId : String) (i : ℕ)
  | receive

def Sync.step (J : StringOps) (s : Sync) : SyncOp → Sync
  | .act a => { s with machine := s.machine.act J a }
  | .requestSnapshot => { s with requests := s.requests ++ [s.client.lastSeenSeqNo] }
  | .handle matchId i =>
    match s.requests[i]? with
    | none => s
    | some cursor =>
      { s with
        requests := s.requests.eraseIdx i
        replies := s.replies ++ [handleRequestSnapshot s.machine matchId cursor] }
  | .receive =>
    match s.replies with
    | [] => s
    | r :: rest => { s with client := s.client.receive r, replies := rest }

def Sync.start (matchId roomId : String) (players : List PlayerInfo) : Sync :=
  ⟨Machine.create matchId roomId players, .fresh, [], []⟩

/-! ## Statement -/

/-- a snapshot at the head, or the entries after the cursor -/
def ReplyExact (m : Machine) (cursor : ℕ) : SnapshotReply → Prop
  | .snapshot s => s = m.getSnapshot m.eventLog.length
  | .eventBatch _ events => cursor ≤ m.eventLog.length ∧ events.map DeltaEvent.entry = m.eventLog.drop cursor ∧
      events.map DeltaEvent.seqNo = List.range' (cursor + 1) (m.eventLog.length - cursor)

/-- the client has folded exactly the entries between its snapshot and its cursor -/
def ClientExact (log : List EventLogEntry) (v : ClientView) : Prop :=
  v.lastSeenSeqNo ≤ log.length ∧
    match v.hydrated with
    | none => v.applied = [] ∧ v.lastSeenSeqNo = 0
    | some s => s.lastEventSeqNo ≤ v.lastSeenSeqNo ∧
        v.applied.map DeltaEvent.entry = (log.drop s.lastEventSeqNo).take (v.lastSeenSeqNo - s.lastEventSeqNo)

/-! ## Replies -/

theorem reply_exact {m : Machine} (h : m.SeqInv) (matchId : String) (cursor : ℕ) :
    ReplyExact m cursor (handleRequestSnapshot m matchId cursor) := by
  unfold handleRequestSnapshot
  split_ifs with hd
  · simp only [canDelta, Bool.and_eq_true, decide_eq_true_eq] at hd
    exact ⟨h.head ▸ hd.2, Machine.getDelta_entries h cursor, Machine.getDelta_seqNos h cursor⟩
  · exact congrArg m.getSnapshot h.head

/-! ## The fold of a batch -/

/-- consecutive events from at most the cursor on: the cursor moves to the last one, and what is new is folded -/
theorem foldl_foldEvent (events : List DeltaEvent) (v : ClientView) (c : ℕ) (hc : c ≤ v.lastSeenSeqNo)
    (hs : events.map DeltaEvent.seqNo = List.range' (c + 1) events.length) :
    events.foldl foldEvent v = { v with
      applied := v.applied ++ events.drop (v.lastSeenSeqNo - c)
      lastSeenSeqNo := max v.lastSeenSeqNo (c + events.length) } := by
  induction events generalizing v c with
  | nil => simp [Nat.max_eq_left hc]
  | cons e es ih =>
    rw [List.map_cons, List.length_cons, List.range'_succ] at hs
    obtain ⟨he, hes⟩ := List.cons.inj hs
    rw [List.foldl_cons]
    by_cases hskip : e.seqNo ≤ v.lastSeenSeqNo
    · have hstep : foldEvent v e = v := if_pos hskip
      have hdrop : v.lastSeenSeqNo - c = (v.lastSeenSeqNo - (c + 1)) + 1 := by omega
      rw [hstep, ih v (c + 1) (by omega) hes, hdrop, List.drop_succ_cons, List.length_cons]
      congr 2
      omega
    · have hstep : foldEvent v e = { v with applied := v.applied ++ [e], lastSeenSeqNo := e.seqNo } := if_neg hskip
      have hnow : v.lastSeenSeqNo - c = 0 := by omega
      have hlast : v.lastSeenSeqNo = c := by omega
      rw [hstep, ih _ (c + 1) (by simp only [he]; omega) hes]
      simp only [he, Nat.sub_self, List.drop_zero, hnow, List.append_assoc, List.singleton_append, List.length_cons]
      congr 1
      omega

/-! ## In flight -/

/-- a reply that takes a client at `cursor` or later to `head` -/
def ReplyInFlight (log : List EventLogEntry) (cursor head : ℕ) : SnapshotReply → Prop
  | .snapshot s => s.lastEventSeqNo = head
  | .eventBatch _ events => ∃ c ≤ cursor, c ≤ head ∧ events.map DeltaEvent.entry = (log.drop c).take (head - c) ∧
      events.map DeltaEvent.seqNo = List.range' (c + 1) (head - c)

/-- the heads of the replies grow, from `floor` on -/
def RepliesInFlight (log : List EventLogEntry) (cursor : ℕ) : ℕ → List SnapshotReply → Prop
  | floor, [] => floor ≤ log.length
  | floor, r :: rest => ∃ head, floor ≤ head ∧ ReplyInFlight log cursor head r ∧ RepliesInFlight log cursor head rest

theorem RepliesInFlight.le_length {log : List EventLogEntry} {cursor floor : ℕ} {replies : List SnapshotReply}
    (h : RepliesInFlight log cursor floor replies) : floor ≤ log.length := by
  induction replies generalizing floor with
  | nil => exact h
  | cons r rest ih =>
    obtain ⟨head, hle, -, hrest⟩ := h
    exact hle.trans (ih hrest)

theorem ReplyInFlight.grows {log : List EventLogEntry} {cursor head : ℕ} {r : SnapshotReply}
    (h : ReplyInFlight log cursor head r) (hle : head ≤ log.length) (es : List EventLogEntry) :
    ReplyInFlight (log ++ es) cursor head r := by
  cases r with
  | snapshot s => exact h
  | eventBatch matchId events =>
    obtain ⟨c, hc, hch, hentries, hseq⟩ := h
    refine ⟨c, hc, hch, ?_, hseq⟩
    rw [hentries, List.drop_append_of_le_length (hch.trans hle), List.take_append_of_le_length]
    rw [List.length_drop]
    omega

/-- more entries in the log, a client further on, and an earlier floor -/
theorem RepliesInFlight.mono {log : List EventLogEntry} {cursor floor cursor' floor' : ℕ}
    {replies : List SnapshotReply} (h : RepliesInFlight log cursor floor replies) (es : List EventLogEntry)
    (hc : cursor ≤ cursor') (hf : floor' ≤ floor) : RepliesInFlight (log ++ es) cursor' floor' replies := by
  induction replies generalizing floor floor' with
  | nil =>
    simp only [RepliesInFlight, List.length_append] at h ⊢
    omega
  | cons r rest ih =>
    obtain ⟨head, hle, hr, hrest⟩ := h
    refine ⟨head, hf.trans hle, ?_, ih hrest le_rfl⟩
    have hgrown := hr.grows hrest.le_length es
    cases r with
    | snapshot s => exact hgrown
    | eventBatch matchId events =>
      obtain ⟨c, hcc, hrestc⟩ := hgrown
      exact ⟨c, hcc.trans hc, hrestc⟩

theorem RepliesInFlight.snoc {log : List EventLogEntry} {cursor floor : ℕ} {replies : List SnapshotReply}
    (h : RepliesInFlight log cursor floor replies) {r : SnapshotReply} (hr : ReplyInFlight log cursor log.length r) :
    RepliesInFlight log cursor floor (replies ++ [r]) := by
  induction replies generalizing floor with
  | nil => exact ⟨log.length, h, hr, le_rfl⟩
  | cons x rest ih =>
    obtain ⟨head, hle, hx, hrest⟩ := h
    exact ⟨head, hle, hx, ih hrest⟩

/-! ## Invariant -/

structure SyncInv (s : Sync) : Prop where
  seq : s.machine.SeqInv
  exact : ClientExact s.machine.eventLog s.client
  requests : ∀ c ∈ s.requests, c ≤ s.client.lastSeenSeqNo
  replies : RepliesInFlight s.machine.eventLog s.client.lastSeenSeqNo s.client.lastSeenSeqNo s.replies

theorem ClientExact.grows {log : List EventLogEntry} {v : ClientView} (h : ClientExact log v)
    (es : List EventLogEntry) : ClientExact (log ++ es) v := by
  obtain ⟨hle, hv⟩ := h
  refine ⟨by rw [List.length_append]; omega, ?_⟩
  cases hs : v.hydrated with
  | none =>
    rw [hs] at hv
    exact hv
  | some s =>
    rw [hs] at hv
    obtain ⟨h1, h2⟩ := hv
    refine ⟨h1, ?_⟩
    rw [h2, List.drop_append_of_le_length (h1.trans hle), List.take_append_of_le_length]
    rw [List.length_drop]
    omega

/-- a reply moves the client to its head, or is ignored -/
theorem receive_exact {log : List EventLogEntry} {v : ClientView} {r : SnapshotReply} {head : ℕ}
    (hv : ClientExact log v) (hhead : v.lastSeenSeqNo ≤ head) (hle : head ≤ log.length)
    (hr : ReplyInFlight log v.lastSeenSeqNo head r) :
    ClientExact log (v.receive r) ∧ v.lastSeenSeqNo ≤ (v.receive r).lastSeenSeqNo ∧
      (v.receive r).lastSeenSeqNo ≤ head := by
  cases r with
  | snapshot s =>
    obtain rfl : s.lastEventSeqNo = head := hr
    refine ⟨⟨hle, le_rfl, ?_⟩, hhead, le_rfl⟩
    simp [ClientView.receive, applySnapshotState]
  | eventBatch matchId events =>
    obtain ⟨c, hc, hch, hentries, hseq⟩ := hr
    simp only [ClientView.receive, applyEventBatchState]
    cases hs : v.hydrated with
    | none => exact ⟨hv, le_rfl, hhead⟩
    | some s =>
      simp only
      split_ifs
      · exact ⟨hv, le_rfl, hhead⟩
      · have hlen : events.length = head - c := by
          have := congrArg List.length hseq
          simpa using this
        rw [foldl_foldEvent events v c hc (hlen ▸ hseq), hlen]
        have hmax : max v.lastSeenSeqNo (c + (head - c)) = head := by omega
        obtain ⟨hvl, hvs⟩ := hv
        rw [hs] at hvs
        refine ⟨⟨by simp only [hmax]; exact hle, ?_⟩, by simp only [hmax]; exact hhead, by simp only [hmax]; exact le_rfl⟩
        simp only [hs, hmax]
        refine ⟨hvs.1.trans hhead, ?_⟩
        -- what was folded, and what is new
        rw [List.map_append, hvs.2, List.map_drop, hentries, List.drop_take, List.drop_drop]
        have h1 : c + (v.lastSeenSeqNo - c) = s.lastEventSeqNo + (v.lastSeenSeqNo - s.lastEventSeqNo) := by omega
        have h2 : head - c - (v.lastSeenSeqNo - c) = head - v.lastSeenSeqNo := by omega
        have h3 : head - s.lastEventSeqNo =
            (v.lastSeenSeqNo - s.lastEventSeqNo) + (head - v.lastSeenSeqNo) := by omega
        rw [h1, h2, h3, ← List.drop_drop, ← List.take_add]

/-- **Every step keeps client and log together.** -/
theorem step_syncInv (J : StringOps) (s : Sync) (o : SyncOp) (h : SyncInv s) : SyncInv (s.step J o) := by
  cases o with
  | act a =>
    have hlog : ∃ es, (s.machine.act J a).eventLog = s.machine.eventLog ++ es := by
      cases a with
      | call o =>
        obtain ⟨es, hes, -⟩ := Machine.change_appends (Machine.step_change J s.machine o)
        exact ⟨es, hes⟩
      | failover => exact ⟨[], by simp [Machine.act, Machine.failover_eventLog]⟩
    obtain ⟨es, hes⟩ := hlog
    have hseq : (s.machine.act J a).SeqInv := by
      cases a with
      | call o => exact (Machine.change_appends (Machine.step_change J s.machine o)).seqInv h.seq
      | failover => exact Machine.failover_seqInv J h.seq
    refine ⟨hseq, ?_, h.requests, ?_⟩
    · simp only [Sync.step, hes]
      exact h.exact.grows es
    · simp only [Sync.step, hes]
      exact h.replies.mono es le_rfl le_rfl
  | requestSnapshot =>
    refine ⟨h.seq, h.exact, ?_, h.replies⟩
    intro c hc
    rcases List.mem_append.1 hc with hc | hc
    · exact h.requests c hc
    · exact (List.mem_singleton.1 hc).le
  | handle matchId i =>
    simp only [Sync.step]
    cases hi : s.requests[i]? with
    | none => exact h
    | some cursor =>
      have hcursor : cursor ≤ s.client.lastSeenSeqNo := h.requests cursor (List.mem_of_getElem? hi)
      refine ⟨h.seq, h.exact, fun c hc => h.requests c (List.mem_of_mem_eraseIdx hc), h.replies.snoc ?_⟩
      have hexact := reply_exact h.seq matchId cursor
      cases hr : handleRequestSnapshot s.machine matchId cursor with
      | snapshot x =>
        rw [hr] at hexact
        exact congrArg MatchSnapshot.lastEventSeqNo hexact
      | eventBatch id events =>
        rw [hr] at hexact
        obtain ⟨hle, hentries, hseq⟩ := hexact
        refine ⟨cursor, hcursor, hle, ?_, hseq⟩
        rw [hentries, List.take_of_length_le (by simp)]
  | receive =>
    simp only [Sync.step]
    cases hr : s.replies with
    | nil => exact h
    | cons r rest =>
      have hflight := h.replies
      rw [hr] at hflight
      obtain ⟨head, hhead, hrx, hrest⟩ := hflight
      obtain ⟨hexact, hup, hto⟩ := receive_exact h.exact hhead hrest.le_length hrx
      refine ⟨h.seq, hexact, fun c hc => (h.requests c hc).trans hup, ?_⟩
      have := hrest.mono [] hup hto
      rwa [List.append_nil] at this

theorem syncInv_start (matchId roomId : String) (players : List PlayerInfo) :
    SyncInv (Sync.start matchId roomId players) where
  seq := rfl
  exact := ⟨le_rfl, rfl, rfl⟩
  requests := by simp [Sync.start]
  replies := le_rfl

theorem run_syncInv (J : StringOps) (matchId roomId : String) (players : List PlayerInfo) (ops : List SyncOp) :
    SyncInv (run (Sync.step J) (Sync.start matchId roomId players) ops) :=
  run_inv (Sync.step J) (fun _ _ => True) SyncInv (fun s o _ h => step_syncInv J s o h) _ ops
    ((along_const _ _ _ _).2 fun _ _ => trivial) (syncInv_start matchId roomId players)

/-- **Event sequence and delta replay are gap-free.** In every reachable machine, whatever the calls and failovers: the
sequence numbers are 1 to n, the head is n, a CARD_RESOLVED names its own number, deltas compose at every pair of
cursors, and the reply to every cursor is a snapshot at the head or exactly the events after the cursor. And in every run
of a client against the machine, the client has folded exactly the log between its last snapshot and its cursor. -/
theorem event_sequence_gap_free (J : StringOps) (matchId roomId : String) (players : List PlayerInfo) :
    (∀ acts : List Machine.Action,
      let m := Machine.reach J matchId roomId players acts
      let n := m.eventLog.length
      m.eventLog.map EventLogEntry.seqNo = List.range' 1 n ∧ m.getHeadSeqNo = n ∧
        (∀ e ∈ m.eventLog, ∀ p, e.event = .cardResolved p → p.seqNo = e.seqNo) ∧
        (∀ a b, a ≤ b → b ≤ n →
          m.getDelta a = (m.getDelta a).takeWhile (fun e => e.seqNo ≤ b) ++ m.getDelta b) ∧
        ∀ cursor, ReplyExact m cursor (handleRequestSnapshot m matchId cursor)) ∧
      ∀ ops : List SyncOp,
        let s := run (Sync.step J) (Sync.start matchId roomId players) ops
        ClientExact s.machine.eventLog s.client := by
  refine ⟨fun acts => ?_, fun ops => (run_syncInv J matchId roomId players ops).exact⟩
  have h := Machine.reach_logInv J matchId roomId players acts
  exact ⟨h.seq.seqNos, h.seq.head, h.resolved, fun a b hab _ => Machine.getDelta_split h.seq hab,
    fun cursor => reply_exact h.seq matchId cursor⟩

end Arena.Api
