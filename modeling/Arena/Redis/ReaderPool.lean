/-
The pool of blocking stream readers (`acquireBlockingReader`, `releaseBlockingReader`, `discardBlockingReader` of
`redis.streams.ts`, and the teardown `onModuleDestroy` of `redis.service.ts`).

Each function runs to its end without an await, so an operation is one step. A reader is the number of its connection,
an acquire call the number of its request; `requests` holds where each promise stands. A settled promise stays as it is,
which is the `settled` flag of the source. `removed` lists the waiters in the order they left the waiter list.

A release or a discard is made by the holder of a reader: the step of a request that holds none does nothing. An
acquire tests its signal a second time after it has enqueued; nothing runs in between, so the test is left out.

- `PoolInv`: kept by every operation; readers are held once, never idle while held, at most `blockingReaderPoolMax`;
- `pool_sound_iff`: every state of a run is sound exactly if no reader is discarded while somebody waits;
- `discard_strands`: after one discard a waiter stays while fifteen readers are in use.
-/
import Arena.Lib.JsMap
import Arena.Lib.Run

namespace Arena.Redis

open Arena.Lib

/-! ## Model -/

/-- `BLOCKING_READER_POOL_MAX` -/
def blockingReaderPoolMax : ℕ := 16

/-- where the promise of an acquire call stands -/
inductive Request where
  | waiting (signal : Option ℕ)
  | holding (reader : ℕ)
  /-- resolved to `null` at once: shut down, or aborted before the call -/
  | refused
  /-- a waiter resolved to `null` by an abort or by the shutdown -/
  | cancelled
  /-- the reader was given back, or thrown away -/
  | returned
deriving DecidableEq, Repr

structure ReaderPool where
  pool : List ℕ
  inUse : JsSet ℕ
  waiters : List ℕ
  shuttingDown : Bool
  lastWaiterDepth : ℕ
  /-- the signals that have fired -/
  aborted : List ℕ
  /-- connections duplicated so far -/
  minted : ℕ
  /-- connections disconnected so far -/
  closed : List ℕ
  requests : List Request
  removed : List ℕ
deriving DecidableEq

namespace ReaderPool

def init : ReaderPool := ⟨[], JsSet.empty, [], false, 0, [], 0, [], [], []⟩

/-- the promise of request `i` resolves, unless it has -/
def settle (s : ReaderPool) (i : ℕ) (outcome : Request) : ReaderPool :=
  match s.requests[i]? with
  | some (.waiting _) => { s with requests := s.requests.set i outcome }
  | _ => s

/-- a waiter leaves the list -/
def takeOff (s : ReaderPool) (i : ℕ) : ReaderPool :=
  { s with waiters := s.waiters.erase i, removed := s.removed ++ [i], lastWaiterDepth := (s.waiters.erase i).length }

def onAbort (s : ReaderPool) (i : ℕ) : ReaderPool := ((if i ∈ s.waiters then s.takeOff i else s).settle i .cancelled)

def enqueue (s : ReaderPool) (signal : Option ℕ) : ReaderPool :=
  { s with
    requests := s.requests ++ [.waiting signal]
    waiters := s.waiters ++ [s.requests.length]
    lastWaiterDepth := s.waiters.length + 1 }

def acquireBlockingReader (s : ReaderPool) (signal : Option ℕ) : ReaderPool :=
  if s.shuttingDown || signal.any s.aborted.contains then { s with requests := s.requests ++ [.refused] }
  else
    match s.pool.getLast? with
    | some idle =>
      { s with
        pool := s.pool.dropLast
        inUse := s.inUse.add idle
        requests := s.requests ++ [.holding idle] }
    | none =>
      if s.inUse.elems.length < blockingReaderPoolMax then
        { s with
          minted := s.minted + 1
          inUse := s.inUse.add s.minted
          requests := s.requests ++ [.holding s.minted] }
      else s.enqueue signal

def releaseBlockingReader (s : ReaderPool) (reader : ℕ) : ReaderPool :=
  let s1 := { s with inUse := s.inUse.delete reader }
  if s1.shuttingDown then { s1 with closed := s1.closed ++ [reader] }
  else
    match s1.waiters with
    | waiter :: _ => ({ s1.takeOff waiter with inUse := s1.inUse.add reader }).settle waiter (.holding reader)
    | [] =>
      if s1.pool.length < blockingReaderPoolMax then { s1 with pool := s1.pool ++ [reader] }
      else { s1 with closed := s1.closed ++ [reader] }

def discardBlockingReader (s : ReaderPool) (reader : ℕ) : ReaderPool :=
  { s with inUse := s.inUse.delete reader, closed := s.closed ++ [reader] }

/-- the waiter at the head of the list is resolved to `null` -/
def drainOne (s : ReaderPool) (i : ℕ) : ReaderPool := (s.takeOff i).settle i .cancelled

/-- `onModuleDestroy` -/
def shutdown (s : ReaderPool) : ReaderPool :=
  let s1 := s.waiters.foldl drainOne { s with shuttingDown := true }
  { s1 with
    lastWaiterDepth := 0
    pool := []
    inUse := JsSet.empty
    closed := s1.closed ++ s1.pool ++ s1.inUse.elems }

/-- the request waits for the signal -/
def listens (s : ReaderPool) (signal i : ℕ) : Bool := s.requests[i]? = some (.waiting (some signal))

/-- a signal fires once and calls every `onAbort` registered on it -/
def abort (s : ReaderPool) (signal : ℕ) : ReaderPool :=
  if signal ∈ s.aborted then s
  else (s.waiters.filter (s.listens signal)).foldl onAbort { s with aborted := signal :: s.aborted }

/-- the reader a request holds -/
def heldBy (s : ReaderPool) (i : ℕ) : Option ℕ :=
  match s.requests[i]? with
  | some (.holding r) => some r
  | _ => none

/-- the holder lets go of its reader -/
def letGo (s : ReaderPool) (i : ℕ) : ReaderPool := { s with requests := s.requests.set i .returned }

end ReaderPool

inductive PoolOp where
  | acquire (signal : Option ℕ)
  | release (request : ℕ)
  | discard (request : ℕ)
  | abort (signal : ℕ)
  | shutdown
deriving DecidableEq, Repr

def ReaderPool.step (s : ReaderPool) : PoolOp → ReaderPool
  | .acquire signal => s.acquireBlockingReader signal
  | .release i =>
    match s.heldBy i with
    | some r => (s.letGo i).releaseBlockingReader r
    | none => s
  | .discard i =>
    match s.heldBy i with
    | some r => (s.letGo i).discardBlockingReader r
    | none => s
  | .abort signal => s.abort signal
  | .shutdown => s.shutdown

namespace ReaderPool

/-! ## Requests -/

def Holds (s : ReaderPool) (i r : ℕ) : Prop := s.requests[i]? = some (.holding r)

def Waits (s : ReaderPool) (i : ℕ) : Prop := ∃ signal, s.requests[i]? = some (.waiting signal)

theorem heldBy_eq {s : ReaderPool} {i r : ℕ} : s.heldBy i = some r ↔ s.Holds i r := by
  unfold heldBy Holds
  split
  · rename_i r' h
    simp [h]
  · rename_i h
    simp only [false_iff, reduceCtorEq]
    exact fun hr => h r hr

theorem settle_waits {s : ReaderPool} {i : ℕ} (h : s.Waits i) (outcome : Request) :
    s.settle i outcome = { s with requests := s.requests.set i outcome } := by
  obtain ⟨signal, h⟩ := h
  simp [settle, h]

/-! ## Invariant -/

/-- who has which reader -/
structure ReaderInv (s : ReaderPool) : Prop where
  idle_nodup : s.pool.Nodup
  idle_minted : ∀ r ∈ s.pool, r < s.minted
  held_minted : ∀ i r, s.Holds i r → r < s.minted
  one_holder : ∀ i j r, s.Holds i r → s.Holds j r → i = j
  held_not_idle : ∀ i r, s.Holds i r → r ∉ s.pool
  in_use : s.shuttingDown = false → ∀ r, r ∈ s.inUse.elems ↔ ∃ i, s.Holds i r
  bounded : s.pool.length + s.inUse.elems.length ≤ blockingReaderPoolMax

/-- who waits, and who has left the list -/
structure WaiterInv (s : ReaderPool) : Prop where
  waiters_nodup : s.waiters.Nodup
  waiting : ∀ i, i ∈ s.waiters ↔ s.Waits i
  removed_nodup : s.removed.Nodup
  removed_settled : ∀ i ∈ s.removed, i < s.requests.length ∧ ¬s.Waits i
  cancelled_removed : ∀ i, s.requests[i]? = some .cancelled → i ∈ s.removed
  depth : s.lastWaiterDepth = s.waiters.length

structure PoolInv (s : ReaderPool) : Prop where
  readers : s.ReaderInv
  waits : s.WaiterInv
  down : s.shuttingDown = true → s.pool = [] ∧ s.inUse.elems = [] ∧ s.waiters = []
  unfired : ∀ i signal : ℕ, s.requests[i]? = some (.waiting (some signal)) → signal ∉ s.aborted

theorem init_poolInv : init.PoolInv :=
  ⟨⟨by simp [init], by simp [init], by simp [init, Holds], by simp [init, Holds], by simp [init, Holds],
      by simp [init, Holds, JsSet.empty], by simp [init, JsSet.empty]⟩,
    ⟨by simp [init], by simp [init, Waits], by simp [init], by simp [init], by simp [init], by simp [init]⟩,
    by simp [init], by simp [init]⟩

variable {s : ReaderPool}

/-! ## Waiters -/

theorem WaiterInv.congr (h : s.WaiterInv) {s' : ReaderPool} (hw : s'.waiters = s.waiters)
    (hq : s'.requests = s.requests) (hr : s'.removed = s.removed) (hd : s'.lastWaiterDepth = s.lastWaiterDepth) :
    s'.WaiterInv := by
  constructor
  · rw [hw]; exact h.waiters_nodup
  · simpa only [Waits, hw, hq] using h.waiting
  · rw [hr]; exact h.removed_nodup
  · simpa only [Waits, hr, hq] using h.removed_settled
  · simpa only [hr, hq] using h.cancelled_removed
  · rw [hw, hd]; exact h.depth

/-- a waiter that leaves the list is settled with it, and is on record -/
theorem WaiterInv.leave (h : s.WaiterInv) {i : ℕ} (hi : i ∈ s.waiters) {outcome : Request}
    (ho : ∀ signal, outcome ≠ .waiting signal) (inUse : JsSet ℕ) :
    WaiterInv { s.takeOff i with inUse := inUse, requests := s.requests.set i outcome } := by
  have hw := (h.waiting i).1 hi
  constructor
  · exact h.waiters_nodup.erase i
  · intro j
    have := h.waiting j
    have := h.waiters_nodup.mem_erase_iff (a := j) (b := i)
    grind [takeOff, Waits]
  · have := h.removed_settled i
    grind [takeOff, h.removed_nodup]
  · have := h.removed_settled
    grind [takeOff, Waits]
  · have := h.cancelled_removed
    grind [takeOff]
  · rfl

/-- a call that does not wait adds a settled request -/
theorem WaiterInv.answered (h : s.WaiterInv) {x : Request} (hx : ∀ signal, x ≠ .waiting signal) (hc : x ≠ .cancelled) :
    WaiterInv { s with requests := s.requests ++ [x] } := by
  constructor
  · exact h.waiters_nodup
  · have := h.waiting
    grind [Waits]
  · exact h.removed_nodup
  · have := h.removed_settled
    grind [Waits]
  · have := h.cancelled_removed
    grind
  · exact h.depth

theorem WaiterInv.enqueue (h : s.WaiterInv) (signal : Option ℕ) : (s.enqueue signal).WaiterInv := by
  have hnew : s.requests.length ∉ s.waiters := by
    have := h.waiting s.requests.length
    grind [Waits]
  constructor
  · have := h.waiters_nodup
    grind [ReaderPool.enqueue]
  · have := h.waiting
    grind [ReaderPool.enqueue, Waits]
  · exact h.removed_nodup
  · have := h.removed_settled
    grind [ReaderPool.enqueue, Waits]
  · have := h.cancelled_removed
    grind [ReaderPool.enqueue]
  · have := h.depth
    grind [ReaderPool.enqueue]

theorem WaiterInv.letGo (h : s.WaiterInv) {i r : ℕ} (hi : s.Holds i r) : (s.letGo i).WaiterInv := by
  constructor
  · exact h.waiters_nodup
  · have := h.waiting
    grind [ReaderPool.letGo, Waits, Holds]
  · exact h.removed_nodup
  · have := h.removed_settled
    grind [ReaderPool.letGo, Waits]
  · have := h.cancelled_removed
    grind [ReaderPool.letGo]
  · exact h.depth

/-- what the cancellation of the waiters `l` leaves alone, and what it does to the list -/
structure Drained (l : List ℕ) (s s' : ReaderPool) : Prop where
  pool : s'.pool = s.pool
  inUse : s'.inUse = s.inUse
  shuttingDown : s'.shuttingDown = s.shuttingDown
  minted : s'.minted = s.minted
  aborted : s'.aborted = s.aborted
  holds : ∀ i r, s'.Holds i r ↔ s.Holds i r
  waiters : ∀ i, i ∈ s'.waiters ↔ i ∈ s.waiters ∧ i ∉ l
  cancelled : ∀ i ∈ l, s'.requests[i]? = some .cancelled
  others : ∀ i, i ∉ l → s'.requests[i]? = s.requests[i]?

theorem drainOne_eq (h : s.WaiterInv) {i : ℕ} (hi : i ∈ s.waiters) :
    s.drainOne i = { s.takeOff i with requests := s.requests.set i .cancelled } :=
  settle_waits (s := s.takeOff i) ((h.waiting i).1 hi) .cancelled

theorem drainOne_drained (h : s.WaiterInv) {i : ℕ} (hi : i ∈ s.waiters) :
    (s.drainOne i).WaiterInv ∧ Drained [i] s (s.drainOne i) := by
  rw [drainOne_eq h hi]
  refine ⟨h.leave hi (by simp) s.inUse, rfl, rfl, rfl, rfl, rfl, ?_, ?_, ?_, ?_⟩
  · have := (h.waiting i).1 hi
    grind [takeOff, Holds, Waits]
  · have := fun j => h.waiters_nodup.mem_erase_iff (a := j) (b := i)
    grind [takeOff]
  · have := (h.waiting i).1 hi
    grind [takeOff, Waits]
  · grind [takeOff]

/-- waiters of the list are cancelled one after the other -/
theorem foldl_drainOne (l : List ℕ) (hn : l.Nodup) (h : s.WaiterInv) (hl : ∀ i ∈ l, i ∈ s.waiters) :
    (l.foldl drainOne s).WaiterInv ∧ Drained l s (l.foldl drainOne s) := by
  induction l generalizing s with
  | nil => exact ⟨h, rfl, rfl, rfl, rfl, rfl, by simp, by simp, by simp, by simp⟩
  | cons i l ih =>
    obtain ⟨hnot, hn⟩ := List.nodup_cons.1 hn
    obtain ⟨h1, d1⟩ := drainOne_drained h (hl i List.mem_cons_self)
    have hl1 : ∀ j ∈ l, j ∈ (s.drainOne i).waiters := fun j hj =>
      (d1.waiters j).2 ⟨hl j (List.mem_cons_of_mem i hj), by rintro h; exact hnot (List.mem_singleton.1 h ▸ hj)⟩
    obtain ⟨h2, d2⟩ := ih hn h1 hl1
    refine ⟨h2, d2.pool.trans d1.pool, d2.inUse.trans d1.inUse, d2.shuttingDown.trans d1.shuttingDown,
      d2.minted.trans d1.minted, d2.aborted.trans d1.aborted, fun j r => (d2.holds j r).trans (d1.holds j r),
      fun j => ?_, fun j hj => ?_, fun j hj => ?_⟩
    · rw [List.foldl_cons, d2.waiters, d1.waiters]
      simp [and_assoc]
    · rcases List.mem_cons.1 hj with rfl | hj
      · exact (d2.others j hnot).trans (d1.cancelled j List.mem_cons_self)
      · exact d2.cancelled j hj
    · rw [List.mem_cons, not_or] at hj
      exact (d2.others j hj.2).trans (d1.others j (by simpa using hj.1))

/-- an abort listener is a waiter's, so it finds the waiter in the list -/
theorem foldl_onAbort (l : List ℕ) (hn : l.Nodup) (h : s.WaiterInv) (hl : ∀ i ∈ l, i ∈ s.waiters) :
    l.foldl onAbort s = l.foldl drainOne s := by
  induction l generalizing s with
  | nil => rfl
  | cons i l ih =>
    obtain ⟨hnot, hn⟩ := List.nodup_cons.1 hn
    have hi := hl i List.mem_cons_self
    obtain ⟨h1, d1⟩ := drainOne_drained h hi
    have hone : s.onAbort i = s.drainOne i := by simp [onAbort, drainOne, hi]
    rw [List.foldl_cons, List.foldl_cons, hone]
    refine ih hn h1 fun j hj => (d1.waiters j).2 ⟨hl j (List.mem_cons_of_mem i hj), ?_⟩
    rintro hji
    exact hnot (List.mem_singleton.1 hji ▸ hj)

/-! ## Readers -/

/-- readers stay where they are -/
theorem ReaderInv.of_holds (h : s.ReaderInv) {s' : ReaderPool} (hp : s'.pool = s.pool) (hu : s'.inUse = s.inUse)
    (hd : s'.shuttingDown = s.shuttingDown) (hm : s'.minted = s.minted)
    (hh : ∀ i r, s'.Holds i r ↔ s.Holds i r) : s'.ReaderInv := by
  constructor
  · rw [hp]; exact h.idle_nodup
  · rw [hp, hm]; exact h.idle_minted
  · simpa only [hh, hm] using h.held_minted
  · simpa only [hh] using h.one_holder
  · simpa only [hh, hp] using h.held_not_idle
  · simpa only [hh, hu, hd] using h.in_use
  · rw [hp, hu]; exact h.bounded

theorem holds_append (s : ReaderPool) (x : Request) (i r : ℕ) :
    Holds { s with requests := s.requests ++ [x] } i r ↔
      s.Holds i r ∨ i = s.requests.length ∧ x = .holding r := by
  grind [Holds]

/-- a reader nobody holds goes to a new request -/
theorem ReaderInv.lend (h : s.ReaderInv) (hup : s.shuttingDown = false) {r : ℕ} (hr : ∀ i, ¬s.Holds i r)
    {idle : List ℕ} (hsub : idle.Sublist s.pool) (hnot : r ∉ idle) {minted : ℕ} (hle : s.minted ≤ minted)
    (hlt : r < minted) (hroom : idle.length + s.inUse.elems.length < blockingReaderPoolMax) :
    ReaderInv { s with
      pool := idle, minted := minted, inUse := s.inUse.add r, requests := s.requests ++ [.holding r] } := by
  have hadd := holds_append s (.holding r)
  have hfree : r ∉ s.inUse.elems := fun hm => by
    obtain ⟨i, hi⟩ := (h.in_use hup r).1 hm
    exact hr i hi
  constructor
  · exact h.idle_nodup.sublist hsub
  · exact fun x hx => (h.idle_minted x (hsub.subset hx)).trans_le hle
  · intro i x hi
    rcases (hadd i _).1 hi with hi | ⟨-, hx⟩
    · exact (h.held_minted i x hi).trans_le hle
    · cases hx
      exact hlt
  · intro i j x hi hj
    rcases (hadd i _).1 hi with hi | ⟨hi, hx⟩ <;> rcases (hadd j _).1 hj with hj | ⟨hj, hy⟩
    · exact h.one_holder i j x hi hj
    · cases hy
      exact absurd hi (hr i)
    · cases hx
      exact absurd hj (hr j)
    · rw [hi, hj]
  · intro i x hi hx
    rcases (hadd i _).1 hi with hi | ⟨-, hr'⟩
    · exact h.held_not_idle i x hi (hsub.subset hx)
    · cases hr'
      exact hnot hx
  · intro _ x
    rw [JsSet.mem_add, h.in_use hup x]
    constructor
    · rintro (rfl | ⟨i, hi⟩)
      · exact ⟨_, (hadd _ _).2 (.inr ⟨rfl, rfl⟩)⟩
      · exact ⟨i, (hadd _ _).2 (.inl hi)⟩
    · rintro ⟨i, hi⟩
      rcases (hadd i _).1 hi with hi | ⟨-, hx⟩
      · exact .inr ⟨i, hi⟩
      · cases hx
        exact .inl rfl
  · rw [JsSet.length_add hfree]
    exact hroom

/-- the reader of a request that lets go is in use by nobody -/
theorem ReaderInv.giveBack (h : s.ReaderInv) {i r : ℕ} (hi : s.Holds i r) :
    ReaderInv { s.letGo i with inUse := s.inUse.delete r } ∧ ∀ j, ¬(s.letGo i).Holds j r := by
  have hh : ∀ j x, (s.letGo i).Holds j x ↔ s.Holds j x ∧ x ≠ r := by
    intro j x
    have := h.one_holder i j r hi
    grind [letGo, Holds]
  refine ⟨⟨h.idle_nodup, h.idle_minted, fun j x hj => h.held_minted j x ((hh j x).1 hj).1,
    fun j k x hj hk => h.one_holder j k x ((hh j x).1 hj).1 ((hh k x).1 hk).1,
    fun j x hj => h.held_not_idle j x ((hh j x).1 hj).1, fun hup x => ?_, ?_⟩, fun j hj => ((hh j r).1 hj).2 rfl⟩
  · rw [JsSet.mem_delete, h.in_use hup x]
    exact ⟨fun ⟨hx, j, hj⟩ => ⟨j, (hh j x).2 ⟨hj, hx⟩⟩, fun ⟨j, hj⟩ => ⟨((hh j x).1 hj).2, j, ((hh j x).1 hj).1⟩⟩
  · have hle : (s.inUse.delete r).elems.length ≤ s.inUse.elems.length := List.length_filter_le _ _
    have := h.bounded
    exact (Nat.add_le_add_left hle _).trans this

/-- a reader given back is pooled -/
theorem ReaderInv.repool (h : s.ReaderInv) {r : ℕ} (hr : ∀ i, ¬s.Holds i r) (hlt : r < s.minted) (hnot : r ∉ s.pool)
    (hroom : s.pool.length + s.inUse.elems.length < blockingReaderPoolMax) :
    ReaderInv { s with pool := s.pool ++ [r] } := by
  constructor
  · exact List.nodup_append.2 ⟨h.idle_nodup, List.nodup_singleton r, by grind⟩
  · have := h.idle_minted
    grind
  · exact h.held_minted
  · exact h.one_holder
  · intro i x hi hx
    rcases List.mem_append.1 hx with hx | hx
    · exact h.held_not_idle i x hi hx
    · exact hr i (List.mem_singleton.1 hx ▸ hi)
  · exact h.in_use
  · simp only [List.length_append, List.length_singleton]
    omega

/-- a reader given back goes to the waiter at the head of the list -/
theorem ReaderInv.handOver (h : s.ReaderInv) (hup : s.shuttingDown = false) {r w : ℕ} (hr : ∀ i, ¬s.Holds i r)
    (hlt : r < s.minted) (hnot : r ∉ s.pool) (hw : s.Waits w)
    (hroom : s.pool.length + s.inUse.elems.length < blockingReaderPoolMax) :
    ReaderInv { s.takeOff w with inUse := s.inUse.add r, requests := s.requests.set w (.holding r) } := by
  have hset : ∀ i x, (s.requests.set w (.holding r))[i]? = some (.holding x) ↔ s.Holds i x ∨ i = w ∧ x = r := by
    obtain ⟨signal, hw⟩ := hw
    intro i x
    grind [Holds]
  have hfree : r ∉ s.inUse.elems := fun hm => by
    obtain ⟨i, hi⟩ := (h.in_use hup r).1 hm
    exact hr i hi
  constructor
  · exact h.idle_nodup
  · exact h.idle_minted
  · intro i x hi
    rcases (hset i x).1 hi with hi | ⟨-, rfl⟩
    · exact h.held_minted i x hi
    · exact hlt
  · intro i j x hi hj
    rcases (hset i x).1 hi with hi | ⟨hi, hx⟩ <;> rcases (hset j x).1 hj with hj | ⟨hj, hy⟩
    · exact h.one_holder i j x hi hj
    · exact absurd (hy ▸ hi) (hr i)
    · exact absurd (hx ▸ hj) (hr j)
    · rw [hi, hj]
  · intro i x hi
    rcases (hset i x).1 hi with hi | ⟨-, rfl⟩
    · exact h.held_not_idle i x hi
    · exact hnot
  · intro _ x
    rw [JsSet.mem_add, h.in_use hup x]
    constructor
    · rintro (rfl | ⟨i, hi⟩)
      · exact ⟨w, (hset w x).2 (.inr ⟨rfl, rfl⟩)⟩
      · exact ⟨i, (hset i x).2 (.inl hi)⟩
    · rintro ⟨i, hi⟩
      rcases (hset i x).1 hi with hi | ⟨-, rfl⟩
      · exact .inr ⟨i, hi⟩
      · exact .inl rfl
  · simp only [takeOff, JsSet.length_add hfree]
    exact hroom

/-! ## Operations -/

theorem acquire_poolInv (h : s.PoolInv) (signal : Option ℕ) : (s.acquireBlockingReader signal).PoolInv := by
  have hold : ∀ x, (∀ g, x = .waiting (some g) → g ∉ s.aborted) → ∀ i g : ℕ,
      (s.requests ++ [x])[i]? = some (.waiting (some g)) → g ∉ s.aborted := by
    have := h.unfired
    grind
  unfold acquireBlockingReader
  by_cases hoff : (s.shuttingDown || signal.any s.aborted.contains) = true
  · rw [if_pos hoff]
    exact ⟨h.readers.of_holds rfl rfl rfl rfl fun i r => by simp [holds_append],
      h.waits.answered (by simp) (by simp), h.down, hold .refused (by simp)⟩
  · rw [if_neg hoff]
    have hup : s.shuttingDown = false := by simp_all
    have hanswered : ∀ r, WaiterInv { s with requests := s.requests ++ [.holding r] } := fun r =>
      h.waits.answered (by simp) (by simp)
    split
    · rename_i idle hidle
      obtain ⟨l, hpool⟩ := List.getLast?_eq_some_iff.1 hidle
      have hmem : idle ∈ s.pool := by simp [hpool]
      have hlast : idle ∉ s.pool.dropLast := by
        have hn := h.readers.idle_nodup
        rw [hpool] at hn ⊢
        simpa using (List.nodup_append.1 hn).2.2 idle
      refine ⟨h.readers.lend hup (fun i hi => h.readers.held_not_idle i idle hi hmem) (List.dropLast_sublist _) hlast
        le_rfl (h.readers.idle_minted idle hmem) ?_, (hanswered idle).congr rfl rfl rfl rfl, by simp [hup],
        hold _ (by simp)⟩
      have := h.readers.bounded
      have : s.pool.length ≠ 0 := by simp [hpool]
      rw [List.length_dropLast]
      omega
    · rename_i hempty
      have hpool : s.pool = [] := List.getLast?_eq_none_iff.1 hempty
      by_cases hroom : s.inUse.elems.length < blockingReaderPoolMax
      · rw [if_pos hroom]
        refine ⟨h.readers.lend hup (fun i hi => ?_) (List.Sublist.refl _) (by simp [hpool]) (Nat.le_succ _)
          (Nat.lt_succ_self _) (by simpa [hpool] using hroom), (hanswered _).congr rfl rfl rfl rfl, by simp [hup],
          hold _ (by simp)⟩
        exact absurd (h.readers.held_minted i _ hi) (lt_irrefl _)
      · rw [if_neg hroom]
        refine ⟨h.readers.of_holds rfl rfl rfl rfl fun i r => by simp [enqueue, Holds, List.getElem?_append]; grind,
          h.waits.enqueue signal, by simp [enqueue, hup], hold _ fun g hg => ?_⟩
        obtain rfl : signal = some g := by simpa using hg
        simpa [hup] using hoff

/-- what a request held is in use, and counted in the bound, until the shutdown -/
theorem ReaderInv.room (h : s.ReaderInv) (hup : s.shuttingDown = false) {i r : ℕ} (hi : s.Holds i r) :
    s.pool.length + (s.inUse.delete r).elems.length < blockingReaderPoolMax := by
  have := JsSet.length_delete ((h.in_use hup r).2 ⟨i, hi⟩)
  have := h.bounded
  omega

theorem PoolInv.letGo_unfired (h : s.PoolInv) (i : ℕ) :
    ∀ j g : ℕ, (s.letGo i).requests[j]? = some (.waiting (some g)) → g ∉ s.aborted := by
  have := h.unfired
  grind [letGo]

theorem release_poolInv (h : s.PoolInv) {i r : ℕ} (hi : s.Holds i r) :
    ((s.letGo i).releaseBlockingReader r).PoolInv := by
  obtain ⟨hread, hfree⟩ := h.readers.giveBack hi
  have hwait := h.waits.letGo hi
  have hlt := h.readers.held_minted i r hi
  have hnot := h.readers.held_not_idle i r hi
  have hold : ∀ j g : ℕ, (s.letGo i).requests[j]? = some (.waiting (some g)) → g ∉ s.aborted := h.letGo_unfired i
  unfold releaseBlockingReader
  by_cases hdown : s.shuttingDown = true
  · obtain ⟨hp, hu, hw⟩ := h.down hdown
    rw [if_pos (by simpa [letGo] using hdown)]
    exact ⟨hread.of_holds rfl rfl rfl rfl fun _ _ => Iff.rfl, hwait.congr rfl rfl rfl rfl,
      fun _ => ⟨hp, by simp [letGo, JsSet.delete, hu], hw⟩, hold⟩
  · rw [if_neg (by simpa [letGo] using hdown)]
    have hup : s.shuttingDown = false := by simpa using hdown
    have hroom := h.readers.room hup hi
    split
    · rename_i w rest hw
      have hmem : w ∈ (s.letGo i).waiters := by
        have : (s.letGo i).waiters = w :: rest := hw
        simp [this]
      have hwaits := (hwait.waiting w).1 hmem
      rw [settle_waits (by exact hwaits)]
      refine ⟨hread.handOver hup hfree hlt hnot hwaits hroom, hwait.leave hmem (by simp) _, fun hd =>
        absurd (hd.symm.trans hup) (by simp), fun j g hj => hold j g ?_⟩
      grind [takeOff]
    · rw [if_pos (by exact lt_of_le_of_lt (Nat.le_add_right _ _) hroom)]
      exact ⟨hread.repool hfree hlt hnot hroom, hwait.congr rfl rfl rfl rfl, fun hd =>
        absurd (hd.symm.trans hup) (by simp), hold⟩

theorem discard_poolInv (h : s.PoolInv) {i r : ℕ} (hi : s.Holds i r) :
    ((s.letGo i).discardBlockingReader r).PoolInv := by
  obtain ⟨hread, -⟩ := h.readers.giveBack hi
  refine ⟨hread.of_holds rfl rfl rfl rfl fun _ _ => Iff.rfl, (h.waits.letGo hi).congr rfl rfl rfl rfl, fun hd => ?_,
    h.letGo_unfired i⟩
  obtain ⟨hp, hu, hw⟩ := h.down hd
  exact ⟨hp, by simp [discardBlockingReader, letGo, JsSet.delete, hu], hw⟩

theorem abort_poolInv (h : s.PoolInv) (signal : ℕ) : (s.abort signal).PoolInv := by
  unfold abort
  split_ifs
  · exact h
  · set s0 : ReaderPool := { s with aborted := signal :: s.aborted }
    have h0 : s0.WaiterInv := h.waits.congr rfl rfl rfl rfl
    have hr0 : s0.ReaderInv := h.readers.of_holds rfl rfl rfl rfl fun _ _ => Iff.rfl
    have hn : (s.waiters.filter (s.listens signal)).Nodup := h.waits.waiters_nodup.filter _
    have hl : ∀ i ∈ s.waiters.filter (s.listens signal), i ∈ s0.waiters := fun i hi => (List.mem_filter.1 hi).1
    rw [foldl_onAbort _ hn h0 hl]
    obtain ⟨hw, d⟩ := foldl_drainOne _ hn h0 hl
    refine ⟨hr0.of_holds d.pool d.inUse d.shuttingDown d.minted d.holds, hw, fun hd => ?_, fun i g hi hg => ?_⟩
    · obtain ⟨hp, hu, hnone⟩ := h.down (d.shuttingDown ▸ hd)
      refine ⟨d.pool.trans hp, (congrArg JsSet.elems d.inUse).trans hu, List.eq_nil_iff_forall_not_mem.2 fun i hi => ?_⟩
      exact List.not_mem_nil (hnone ▸ ((d.waiters i).1 hi).1)
    · -- a request that still waits kept its promise; had it listened to the signal it would be off the list
      have hin := (d.waiters i).1 ((hw.waiting i).2 ⟨_, hi⟩)
      have hwas : s.requests[i]? = some (.waiting (some g)) := (d.others i hin.2).symm.trans hi
      rw [d.aborted] at hg
      rcases List.mem_cons.1 hg with rfl | hg
      · exact hin.2 (List.mem_filter.2 ⟨hin.1, by simpa [listens] using hwas⟩)
      · exact h.unfired i g hwas hg

theorem shutdown_poolInv (h : s.PoolInv) : s.shutdown.PoolInv := by
  set s0 : ReaderPool := { s with shuttingDown := true }
  have h0 : s0.WaiterInv := h.waits.congr rfl rfl rfl rfl
  obtain ⟨hw, d⟩ := foldl_drainOne s.waiters h.waits.waiters_nodup h0 fun _ hi => hi
  have hnone : (s.waiters.foldl drainOne s0).waiters = [] :=
    List.eq_nil_iff_forall_not_mem.2 fun i hi => ((d.waiters i).1 hi).2 ((d.waiters i).1 hi).1
  have hdown : (s.waiters.foldl drainOne s0).shuttingDown = true := d.shuttingDown
  refine ⟨⟨List.nodup_nil, by simp [shutdown], fun i r hi => ?_, fun i j r hi hj => ?_, by simp [shutdown], ?_,
    by simp [shutdown, JsSet.empty]⟩, hw.congr rfl rfl rfl ?_, fun _ => ⟨rfl, rfl, hnone⟩, fun i g hi => ?_⟩
  · exact d.minted ▸ h.readers.held_minted i r ((d.holds i r).1 hi)
  · exact h.readers.one_holder i j r ((d.holds i r).1 hi) ((d.holds j r).1 hj)
  · exact fun hup => absurd (hup.symm.trans hdown) (by simp)
  · rw [hw.depth, hnone]
    rfl
  · have := (hw.waiting i).2 ⟨_, hi⟩
    simp [hnone] at this

theorem step_poolInv (h : s.PoolInv) (o : PoolOp) : (s.step o).PoolInv := by
  cases o with
  | acquire signal => exact acquire_poolInv h signal
  | release i =>
    simp only [step]
    split
    · rename_i hi
      exact release_poolInv h (heldBy_eq.1 hi)
    · exact h
  | discard i =>
    simp only [step]
    split
    · rename_i hi
      exact discard_poolInv h (heldBy_eq.1 hi)
    · exact h
  | abort signal => exact abort_poolInv h signal
  | shutdown => exact shutdown_poolInv h

/-! ## Nobody waits beside free capacity -/

/-- while somebody waits every reader is in use -/
def Saturated (s : ReaderPool) : Prop :=
  s.waiters ≠ [] → s.shuttingDown = false → s.inUse.elems.length = blockingReaderPoolMax

/-- no holder throws its reader away while somebody waits -/
def Spares (s : ReaderPool) : PoolOp → Prop
  | .discard i => (s.heldBy i).isSome = true → s.waiters = []
  | _ => True

/-- a pool with room for one more reader has no waiter -/
theorem Saturated.no_waiter (hs : s.Saturated) (hup : s.shuttingDown = false)
    (hroom : s.inUse.elems.length < blockingReaderPoolMax) : s.waiters = [] := by
  by_contra hne
  exact absurd (hs hne hup) (Nat.ne_of_lt hroom)

theorem acquire_saturated (h : s.PoolInv) (hs : s.Saturated) (signal : Option ℕ) :
    (s.acquireBlockingReader signal).Saturated := by
  unfold acquireBlockingReader
  by_cases hoff : (s.shuttingDown || signal.any s.aborted.contains) = true
  · rw [if_pos hoff]
    exact hs
  · rw [if_neg hoff]
    have hup : s.shuttingDown = false := by simp_all
    have hbound := h.readers.bounded
    split
    · rename_i idle hidle
      have hne : s.pool.length ≠ 0 := by
        intro hzero
        simp [List.length_eq_zero_iff.1 hzero] at hidle
      exact fun hne' => absurd (hs.no_waiter hup (by omega)) hne'
    · by_cases hroom : s.inUse.elems.length < blockingReaderPoolMax
      · rw [if_pos hroom]
        exact fun hne => absurd (hs.no_waiter hup hroom) hne
      · rw [if_neg hroom]
        intro _ _
        simp only [enqueue]
        omega

theorem release_saturated (h : s.PoolInv) (hs : s.Saturated) {i r : ℕ} (hi : s.Holds i r) :
    ((s.letGo i).releaseBlockingReader r).Saturated := by
  unfold releaseBlockingReader
  by_cases hdown : s.shuttingDown = true
  · rw [if_pos (by simpa [letGo] using hdown)]
    exact fun _ hup => absurd (hup.symm.trans hdown) (by simp)
  · rw [if_neg (by simpa [letGo] using hdown)]
    have hup : s.shuttingDown = false := by simpa using hdown
    split
    · rename_i w rest hw
      have hwas : s.waiters = w :: rest := hw
      have hwaits : (s.letGo i).Waits w := ((h.waits.letGo hi).waiting w).1 (by simp [letGo, hwas])
      rw [settle_waits (by exact hwaits)]
      intro _ _
      have hfull := hs (by simp [hwas]) hup
      have hdel := JsSet.length_delete ((h.readers.in_use hup r).2 ⟨i, hi⟩)
      have hadd : ((s.inUse.delete r).add r).elems.length = (s.inUse.delete r).elems.length + 1 :=
        JsSet.length_add fun hm => (JsSet.mem_delete.1 hm).1 rfl
      exact hadd.trans (hdel.trans hfull)
    · rename_i hw
      split_ifs <;> exact fun hne => absurd hw hne

theorem discard_saturated (h : s.PoolInv) (hs : s.Saturated) {i r : ℕ} (hi : s.Holds i r) :
    ((s.letGo i).discardBlockingReader r).Saturated ↔ s.waiters = [] := by
  constructor
  · intro hsat
    by_contra hne
    by_cases hdown : s.shuttingDown = true
    · exact hne (h.down hdown).2.2
    · have hup : s.shuttingDown = false := by simpa using hdown
      have hdel := JsSet.length_delete ((h.readers.in_use hup r).2 ⟨i, hi⟩)
      have hfull := hs hne hup
      have hleft : (s.inUse.delete r).elems.length = blockingReaderPoolMax := hsat hne hup
      omega
  · exact fun hw hne => absurd hw hne

theorem abort_saturated (h : s.PoolInv) (hs : s.Saturated) (signal : ℕ) : (s.abort signal).Saturated := by
  unfold abort
  split_ifs
  · exact hs
  · set s0 : ReaderPool := { s with aborted := signal :: s.aborted }
    have h0 : s0.WaiterInv := h.waits.congr rfl rfl rfl rfl
    have hn : (s.waiters.filter (s.listens signal)).Nodup := h.waits.waiters_nodup.filter _
    have hl : ∀ i ∈ s.waiters.filter (s.listens signal), i ∈ s0.waiters := fun i hi => (List.mem_filter.1 hi).1
    rw [foldl_onAbort _ hn h0 hl]
    obtain ⟨-, d⟩ := foldl_drainOne _ hn h0 hl
    intro hne hup
    obtain ⟨i, hi⟩ := List.exists_mem_of_ne_nil _ hne
    have hsome : s.waiters ≠ [] := List.ne_nil_of_mem ((d.waiters i).1 hi).1
    rw [d.inUse]
    exact hs hsome (d.shuttingDown.symm.trans hup)

/-- **One step.** Only a discard beside a waiter frees a reader that nobody is given. -/
theorem step_saturated (h : s.PoolInv) (hs : s.Saturated) (o : PoolOp) : (s.step o).Saturated ↔ s.Spares o := by
  cases o with
  | acquire signal => exact iff_of_true (acquire_saturated h hs signal) trivial
  | release i =>
    refine iff_of_true ?_ trivial
    simp only [step]
    split
    · rename_i hi
      exact release_saturated h hs (heldBy_eq.1 hi)
    · exact hs
  | discard i =>
    simp only [step, Spares]
    split
    · rename_i hi
      simp only [hi, Option.isSome_some, true_imp_iff]
      exact discard_saturated h hs (heldBy_eq.1 hi)
    · rename_i hi
      exact iff_of_true hs (by simp [hi])
  | abort signal => exact iff_of_true (abort_saturated h hs signal) trivial
  | shutdown =>
    refine iff_of_true (fun _ hup => ?_) trivial
    have hdown : s.shutdown.shuttingDown = true := by
      obtain ⟨-, d⟩ := foldl_drainOne (s := { s with shuttingDown := true }) s.waiters h.waits.waiters_nodup
        (h.waits.congr rfl rfl rfl rfl) fun _ hi => hi
      exact d.shuttingDown
    exact absurd (hup.symm.trans hdown) (by simp)

/-! ## The pool over a run -/

/-- a reader has one place, a waiter that was cancelled has left once, and nobody waits beside free capacity -/
structure Sound (s : ReaderPool) : Prop where
  bounded : s.pool.length + s.inUse.elems.length ≤ blockingReaderPoolMax
  one_holder : ∀ i j r, s.Holds i r → s.Holds j r → i = j
  held_not_idle : ∀ i r, s.Holds i r → r ∉ s.pool
  idle_once : s.pool.Nodup
  aborted_left : ∀ i signal : ℕ, s.requests[i]? = some (.waiting (some signal)) → signal ∉ s.aborted
  shutDown_left : s.shuttingDown = true → ∀ i, ¬s.Waits i
  cancelled_once : ∀ i, s.requests[i]? = some .cancelled → s.removed.count i = 1 ∧ i ∉ s.waiters
  saturated : s.Saturated

theorem PoolInv.sound_iff (h : s.PoolInv) : s.Sound ↔ s.Saturated := by
  refine ⟨Sound.saturated, fun hs => ⟨h.readers.bounded, h.readers.one_holder, h.readers.held_not_idle,
    h.readers.idle_nodup, h.unfired, fun hd i hi => ?_, fun i hi => ⟨?_, fun hm => ?_⟩, hs⟩⟩
  · have hmem := (h.waits.waiting i).2 hi
    rw [(h.down hd).2.2] at hmem
    exact List.not_mem_nil hmem
  · exact List.count_eq_one_of_mem h.waits.removed_nodup (h.waits.cancelled_removed i hi)
  · exact (h.waits.removed_settled i (h.waits.cancelled_removed i hi)).2 ((h.waits.waiting i).1 hm)

/-- **The pool is sound in every state of a run exactly if** no reader is ever discarded while somebody waits. -/
theorem pool_sound_iff (ops : List PoolOp) :
    Along step (fun s o => (s.step o).Sound) init ops ↔ Along step Spares init ops := by
  refine along_congr step (fun _ _ => True) _ _ (fun s => s.PoolInv ∧ s.Saturated) ?_ ?_ init ops (along_true _ _ _)
    ⟨init_poolInv, fun hne => absurd rfl hne⟩
  · exact fun s o _ hspares hinv => ⟨step_poolInv hinv.1 o, (step_saturated hinv.1 hinv.2 o).2 hspares⟩
  · exact fun s o _ hinv => (step_poolInv hinv.1 o).sound_iff.trans (step_saturated hinv.1 hinv.2 o)

/-- sixteen polls read, a seventeenth waits, and the read of the first one fails -/
def readFails : List PoolOp := List.replicate 17 (.acquire none) ++ [.discard 0]

/-- **A failed read strands a waiter**: it waits on while only fifteen readers are in use. -/
theorem discard_strands : (run step init readFails).waiters = [16] ∧
    (run step init readFails).inUse.elems.length = 15 ∧
    ¬Along step (fun s o => (s.step o).Sound) init readFails := by
  refine ⟨by decide +kernel, by decide +kernel, fun h => ?_⟩
  have hlast : (run step init readFails).Sound := ((along_append _ _ _ _ _).1 h).2.1
  exact absurd (hlast.saturated (by decide +kernel) (by decide +kernel)) (by decide +kernel)

end ReaderPool

end Arena.Redis
