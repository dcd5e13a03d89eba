/-
The reads of the reconnect path (`getHeadSeqNo`, `getFloorSeqNo`, `getDelta`, `getSnapshot`).

A replayed event is the log entry with the match id and its sequence number as its id; `event` is its `type` and
`payload`. Where sequence numbers are positions (`SeqInv`), a delta is the log behind the cursor (`getDelta_eq_drop`),
and everything a client is sent follows from that.
-/
import Arena.GameCore.CardLog

namespace Arena.GameCore

open Arena.Lib Arena.Shared

/-- one entry of `EventBatchPayload["events"]` -/
structure DeltaEvent where
  id : String
  event : MatchEvent
  timestamp : Time
  seqNo : ℕ
deriving DecidableEq

/-- the log entry of a replayed event -/
def DeltaEvent.entry (e : DeltaEvent) : EventLogEntry := ⟨e.event, e.timestamp, e.seqNo⟩

structure MatchSnapshot where
  matchId : String
  status : MatchStatus
  currentRoundNo : ℕ
  players : List PlayerInfo
  currentQuestion : Option QuestionState
  roundEndTime : Option Time
  lastEventSeqNo : ℕ
  candidateTopics : Option (List String)
  voteCounts : Option (JsMap String ℕ)
  phaseEndsAt : Option Time
  bannedTopics : Option (List String)
  activeTopics : Option (List String)
deriving DecidableEq

namespace Machine

/-! ## Reads -/

def getHeadSeqNo (m : Machine) : ℕ := (m.eventLog.getLast?.map EventLogEntry.seqNo).getD 0

def getFloorSeqNo (m : Machine) : ℕ := (m.eventLog.head?.map EventLogEntry.seqNo).getD 0

/-- a log entry as a client receives it -/
def deltaEvent (m : Machine) (e : EventLogEntry) : DeltaEvent :=
  ⟨m.state.id ++ ":" ++ toString e.seqNo, e.event, e.timestamp, e.seqNo⟩

def getDelta (m : Machine) (lastSeenSeqNo : ℕ) : List DeltaEvent :=
  (m.eventLog.filter fun e => lastSeenSeqNo < e.seqNo).map m.deltaEvent

def getSnapshot (m : Machine) (lastEventSeqNo : ℕ) : MatchSnapshot where
  matchId := m.state.id
  status := m.state.status
  currentRoundNo := m.state.currentRoundNo
  players := m.state.players.entries.map Prod.snd
  currentQuestion := m.currentRound.map Round.question
  roundEndTime := m.currentRound.map Round.endsAt
  lastEventSeqNo := lastEventSeqNo
  candidateTopics := m.state.candidateTopics
  voteCounts := match m.state.candidateTopics with
    | some (c :: cs) => some (tallyTopicVotes (m.state.topicVotes.getD JsMap.empty) (c :: cs))
    | _ => none
  phaseEndsAt := m.state.phaseEndsAt
  bannedTopics := m.state.bannedTopics
  activeTopics := m.state.activeTopics

@[simp] theorem deltaEvent_seqNo (m : Machine) (e : EventLogEntry) : (m.deltaEvent e).seqNo = e.seqNo := rfl

/-! ## Positions -/

theorem SeqInv.counter {m : Machine} (h : SeqInv m) : m.eventSeqCounter = m.eventLog.length := by
  have := congrArg List.length h
  simpa using this.symm

theorem SeqInv.seqNos {m : Machine} (h : SeqInv m) :
    m.eventLog.map EventLogEntry.seqNo = List.range' 1 m.eventLog.length := by
  conv_rhs => rw [← h.counter]
  exact h

/-- the i-th entry has sequence number i + 1 -/
theorem SeqInv.getElem {m : Machine} (h : SeqInv m) (i : ℕ) (hi : i < m.eventLog.length) :
    (m.eventLog[i]).seqNo = i + 1 := by
  have hget : (m.eventLog.map EventLogEntry.seqNo)[i]? = some (m.eventLog[i]).seqNo := by simp [hi]
  rw [h.seqNos, List.getElem?_range' hi] at hget
  have := Option.some.inj hget
  omega

theorem SeqInv.head {m : Machine} (h : SeqInv m) : m.getHeadSeqNo = m.eventLog.length := by
  unfold getHeadSeqNo
  rw [← List.getLast?_map, h.seqNos]
  cases m.eventLog.length with
  | zero => rfl
  | succ n => simp [List.range'_1_concat, Nat.add_comm]

/-- the entries above a cursor, of entries numbered from `n + 1` on -/
theorem filter_above (l : List EventLogEntry) (n c : ℕ) (h : l.map EventLogEntry.seqNo = List.range' (n + 1) l.length) :
    l.filter (fun e => c < e.seqNo) = l.drop (c - n) := by
  induction l generalizing n with
  | nil => simp
  | cons e l ih =>
    rw [List.map_cons, List.length_cons, List.range'_succ] at h
    obtain ⟨he, hl⟩ := List.cons.inj h
    have htail := ih (n + 1) hl
    rw [List.filter_cons, htail]
    by_cases hc : c < e.seqNo
    · have h1 : c - (n + 1) = 0 := by omega
      have h2 : c - n = 0 := by omega
      simp [hc, h1, h2]
    · have h1 : c - n = (c - (n + 1)) + 1 := by omega
      simp [hc, h1]

/-- **A delta is the log behind the cursor.** -/
theorem getDelta_eq_drop {m : Machine} (h : SeqInv m) (c : ℕ) : m.getDelta c = (m.eventLog.drop c).map m.deltaEvent := by
  rw [getDelta, filter_above m.eventLog 0 c h.seqNos, Nat.sub_zero]

theorem getDelta_entries {m : Machine} (h : SeqInv m) (c : ℕ) :
    (m.getDelta c).map DeltaEvent.entry = m.eventLog.drop c := by
  have hcomp : DeltaEvent.entry ∘ m.deltaEvent = id := rfl
  rw [getDelta_eq_drop h, List.map_map, hcomp, List.map_id]

theorem getDelta_seqNos {m : Machine} (h : SeqInv m) (c : ℕ) :
    (m.getDelta c).map DeltaEvent.seqNo = List.range' (c + 1) (m.eventLog.length - c) := by
  have hcomp : DeltaEvent.seqNo ∘ m.deltaEvent = EventLogEntry.seqNo := rfl
  rw [getDelta_eq_drop h, List.map_map, hcomp, List.map_drop, h.seqNos, List.drop_range', Nat.mul_one,
    Nat.add_comm 1]

/-- the first `b - a` events of a delta are those up to `b` -/
theorem getDelta_upTo {m : Machine} (h : SeqInv m) (a b : ℕ) :
    (m.getDelta a).takeWhile (fun e => e.seqNo ≤ b) = ((m.eventLog.drop a).take (b - a)).map m.deltaEvent := by
  have hsplit : m.getDelta a = ((m.eventLog.drop a).take (b - a)).map m.deltaEvent ++
      ((m.eventLog.drop a).drop (b - a)).map m.deltaEvent := by
    rw [← List.map_append, List.take_append_drop, getDelta_eq_drop h]
  have hfirst : ∀ e ∈ ((m.eventLog.drop a).take (b - a)).map m.deltaEvent, (decide (e.seqNo ≤ b)) = true := by
    intro e he
    obtain ⟨x, hx, rfl⟩ := List.mem_map.1 he
    obtain ⟨i, hi, rfl⟩ := List.mem_iff_getElem.1 hx
    have hi' : i < b - a ∧ i < m.eventLog.length - a := by simpa using hi
    have hseq := h.getElem (a + i) (by omega)
    simp only [List.getElem_take, List.getElem_drop, deltaEvent_seqNo, hseq, decide_eq_true_eq]
    omega
  rw [hsplit, List.takeWhile_append_of_pos hfirst]
  have hrest : (((m.eventLog.drop a).drop (b - a)).map m.deltaEvent).takeWhile (fun e => e.seqNo ≤ b) = [] := by
    cases hl : (m.eventLog.drop a).drop (b - a) with
    | nil => rfl
    | cons x l =>
      have hx : ((m.eventLog.drop a).drop (b - a))[0]? = some x := by rw [hl]; rfl
      rw [List.drop_drop, List.getElem?_drop, Nat.add_zero] at hx
      obtain ⟨hlt, hx⟩ := List.getElem?_eq_some_iff.1 hx
      have hseq := h.getElem (a + (b - a)) hlt
      rw [hx] at hseq
      have hgt : ¬x.seqNo ≤ b := by omega
      simp [hgt]
  rw [hrest, List.append_nil]

/-- **Deltas compose.** -/
theorem getDelta_split {m : Machine} (h : SeqInv m) {a b : ℕ} (hab : a ≤ b) :
    m.getDelta a = (m.getDelta a).takeWhile (fun e => e.seqNo ≤ b) ++ m.getDelta b := by
  have hdrop : m.eventLog.drop b = (m.eventLog.drop a).drop (b - a) := by
    rw [List.drop_drop]
    congr 1
    omega
  calc m.getDelta a = (m.eventLog.drop a).map m.deltaEvent := getDelta_eq_drop h a
    _ = ((m.eventLog.drop a).take (b - a) ++ (m.eventLog.drop a).drop (b - a)).map m.deltaEvent := by
      rw [List.take_append_drop]
    _ = (m.getDelta a).takeWhile (fun e => e.seqNo ≤ b) ++ m.getDelta b := by
      rw [List.map_append, ← hdrop, getDelta_upTo h, getDelta_eq_drop h b]

end Machine

end Arena.GameCore
