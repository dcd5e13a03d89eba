/-
The command streams a node reads (`match-command.service.ts`).

One timer and one loop per match read the commands of the matches a node owns. A read iteration first takes over the
idle entries of a dead owner, then reads new ones, and applies them one after the other; when it ends, the next one is
started at once, or by the timer. Every `await` is a step boundary, so registrations come and go while an iteration
waits. A registration is an object; `aborted` are those whose signal is raised.

- `PollInv`: the iterations in flight are those of `inFlight`, one for a match; the timer runs unless every registered
  match is still waiting for its consumer group;
- `step_pollInv`: every step keeps it;
- `commands_one_at_a_time`: in every run, the commands of a match are applied one at a time, none is taken up after the
  match was deregistered, and no registered match is left unread.
-/
import Arena.Lib.Run
import Arena.Lib.JsMap
import Arena.Shared.State

namespace Arena.Api

open Arena.Lib Arena.Shared

/-! ## Model -/

def batch : ℕ := 128

def maxSweepEntries : ℕ := batch * 4

def claimIntervalMs : Time := 5000

def minBlockingIterationMs : Time := 500

structure Registration where
  id : ℕ
  /-- 0 is never -/
  lastClaimAt : Time
deriving DecidableEq

/-- where a read iteration waits, with the entries it has processed; `claim*` is inside `claimIdleEntries` -/
inductive PollAwait where
  | claim (cursor : String) (processed : ℕ)
  | claimEntry (entry nextCursor : String) (rest : List String) (processed : ℕ)
  | claimed (processed : ℕ)
  | read (processed : ℕ)
  | readEntry (entry : String) (rest : List String) (processed : ℕ)
  /-- `pollOnce` has returned -/
  | returned (processed : ℕ)
  | rearming (rearm : Bool)
deriving DecidableEq

structure Iteration where
  matchId : String
  /-- the registration whose signal it watches -/
  reg : ℕ
  startedAt : Time
  stage : PollAwait
deriving DecidableEq

/-- what an awaited call answers -/
inductive PollReply where
  | failed
  | claimed (nextCursor : String) (entries : List String)
  | entries (entries : List String)
  | done

structure CommandPolls where
  registered : JsMap String Registration
  /-- the next registration object -/
  nextReg : ℕ
  aborted : List ℕ
  inFlight : JsSet String
  pollTimer : Bool
  /-- `registerMatch` calls that wait for their consumer group -/
  creating : List String
  iterations : List Iteration
  clock : Time

namespace CommandPolls

def init : CommandPolls := ⟨JsMap.empty, 0, [], JsSet.empty, false, [], [], 0⟩

def isAborted (s : CommandPolls) (reg : ℕ) : Bool := s.aborted.contains reg

/-- an iteration up to its first await -/
def firstAwait (s : CommandPolls) (reg : Registration) : PollAwait :=
  if s.clock - reg.lastClaimAt < claimIntervalMs then .claimed 0 else .claim "0-0" 0

def schedulePoll (s : CommandPolls) (matchId : String) (reg : Registration) : CommandPolls :=
  if s.inFlight.has matchId then s
  else if s.isAborted reg.id then s
  else if (s.registered.get matchId).map Registration.id ≠ some reg.id then s
  else
    { s with
      inFlight := s.inFlight.add matchId
      iterations := s.iterations ++ [⟨matchId, reg.id, s.clock, s.firstAwait reg⟩] }

def dispatchPolls (s : CommandPolls) : CommandPolls :=
  s.registered.entries.foldl (fun s e => s.schedulePoll e.1 e.2) s

def ensurePolling (s : CommandPolls) : CommandPolls := { s with pollTimer := true }.dispatchPolls

def registerMatch (s : CommandPolls) (matchId : String) : CommandPolls :=
  if (s.registered.get matchId).isSome then s
  else
    { s with
      registered := s.registered.set matchId ⟨s.nextReg, 0⟩
      nextReg := s.nextReg + 1
      creating := s.creating ++ [matchId] }

/-- the consumer group is created, or its error logged -/
def groupCreated (s : CommandPolls) (i : ℕ) : CommandPolls :=
  match s.creating[i]? with
  | none => s
  | some _ => { s with creating := s.creating.eraseIdx i }.ensurePolling

/-- the signal of the registration is raised, and it is gone -/
def dropRegistration (s : CommandPolls) (matchId : String) : CommandPolls :=
  match s.registered.get matchId with
  | some reg => { s with aborted := reg.id :: s.aborted, registered := s.registered.delete matchId }
  | none => s

def deregisterMatch (s : CommandPolls) (matchId : String) : CommandPolls :=
  let s' := s.dropRegistration matchId
  if s'.registered.size = 0 then { s' with pollTimer := false } else s'

def onModuleDestroy (s : CommandPolls) : CommandPolls :=
  { s with
    pollTimer := false
    aborted := s.registered.entries.map (fun e => e.2.id) ++ s.aborted
    registered := JsMap.empty }

/-! ### One iteration -/

/-- after a batch of the sweep; true when the sweep has drained the pending entries -/
def afterBatch (aborted : Bool) (cursor : String) (processed : ℕ) : PollAwait × Bool :=
  if cursor ≠ "0-0" ∧ processed < maxSweepEntries then
    (if aborted then .claimed processed else .claim cursor processed, false)
  else (.claimed processed, decide (cursor = "0-0") && !aborted)

/-- the entries of a claimed batch -/
def claimLoop (aborted : Bool) (nextCursor : String) (entries : List String) (processed : ℕ) : PollAwait × Bool :=
  match entries with
  | [] => afterBatch aborted nextCursor processed
  | entry :: rest =>
    if aborted then (.claimed processed, false)
    else if maxSweepEntries ≤ processed then afterBatch aborted nextCursor processed
    else (.claimEntry entry nextCursor rest processed, false)

def readLoop (aborted : Bool) (entries : List String) (processed : ℕ) : PollAwait :=
  match entries with
  | [] => .returned processed
  | entry :: rest => if aborted then .returned processed else .readEntry entry rest processed

/-- the iteration goes on to its next await; an error in the sweep loses its count -/
def next (s : CommandPolls) (it : Iteration) (reply : PollReply) : PollAwait × Bool :=
  match it.stage with
  | .claim _ processed =>
    match reply with
    | .claimed nextCursor entries => claimLoop (s.isAborted it.reg) nextCursor entries processed
    | _ => (.returned 0, false)
  | .claimEntry _ nextCursor rest processed =>
    match reply with
    | .done => claimLoop (s.isAborted it.reg) nextCursor rest (processed + 1)
    | _ => (.returned 0, false)
  | .claimed processed => (if s.isAborted it.reg then .returned processed else .read processed, false)
  | .read processed =>
    match reply with
    | .entries entries => (readLoop (s.isAborted it.reg) entries processed, false)
    | _ => (.returned processed, false)
  | .readEntry _ rest processed =>
    match reply with
    | .done => (readLoop (s.isAborted it.reg) rest (processed + 1), false)
    | _ => (.returned processed, false)
  | .returned processed =>
    (.rearming (decide (0 < processed) || decide (minBlockingIterationMs ≤ s.clock - it.startedAt)), false)
  | .rearming rearm => (.rearming rearm, false)

/-- a drained sweep is noted on its registration -/
def goOn (s : CommandPolls) (i : ℕ) (it : Iteration) (reply : PollReply) : CommandPolls :=
  { s with
    iterations := s.iterations.set i { it with stage := (s.next it reply).1 }
    registered := if (s.next it reply).2 then
        s.registered.modify it.matchId fun r => if r.id = it.reg then { r with lastClaimAt := s.clock } else r
      else s.registered }

/-- the iteration leaves `inFlight`, and the next one may start -/
def finish (s : CommandPolls) (i : ℕ) (matchId : String) (rearm : Bool) : CommandPolls :=
  let s' := { s with inFlight := s.inFlight.delete matchId, iterations := s.iterations.eraseIdx i }
  if rearm then
    match s'.registered.get matchId with
    | some current => s'.schedulePoll matchId current
    | none => s'
  else s'

def iterate (s : CommandPolls) (i : ℕ) (reply : PollReply) : CommandPolls :=
  match s.iterations[i]? with
  | none => s
  | some it =>
    match it.stage with
    | .rearming rearm => s.finish i it.matchId rearm
    | _ => s.goOn i it reply

inductive PollOp where
  | registerMatch (matchId : String)
  | groupCreated (i : ℕ)
  | deregisterMatch (matchId : String)
  | pollTick
  | iterate (i : ℕ) (reply : PollReply)
  | advance (ms : Time)
  | onModuleDestroy

def step (s : CommandPolls) : PollOp → CommandPolls
  | .registerMatch matchId => s.registerMatch matchId
  | .groupCreated i => s.groupCreated i
  | .deregisterMatch matchId => s.deregisterMatch matchId
  | .pollTick => if s.pollTimer then s.dispatchPolls else s
  | .iterate i reply => s.iterate i reply
  | .advance ms => { s with clock := s.clock + max ms 0 }
  | .onModuleDestroy => s.onModuleDestroy

/-! ## Statement -/

/-- the match whose command a step starts to apply -/
def takenUp (s : CommandPolls) : PollOp → Option String
  | .iterate i reply =>
    match s.iterations[i]? with
    | none => none
    | some it =>
      match (s.next it reply).1 with
      | .claimEntry .. => some it.matchId
      | .readEntry .. => some it.matchId
      | _ => none
  | _ => none

/-- XREADGROUP returns at most COUNT entries -/
def ReadsBatch (_ : CommandPolls) : PollOp → Prop
  | .iterate _ (.entries entries) => entries.length ≤ batch
  | _ => True

instance (s : CommandPolls) : (o : PollOp) → Decidable (ReadsBatch s o)
  | .iterate _ (.entries entries) => inferInstanceAs (Decidable (entries.length ≤ batch))
  | .iterate _ .failed => .isTrue trivial
  | .iterate _ (.claimed _ _) => .isTrue trivial
  | .iterate _ .done => .isTrue trivial
  | .registerMatch _ => .isTrue trivial
  | .groupCreated _ => .isTrue trivial
  | .deregisterMatch _ => .isTrue trivial
  | .pollTick => .isTrue trivial
  | .advance _ => .isTrue trivial
  | .onModuleDestroy => .isTrue trivial

end CommandPolls

/-- the entries an iteration has processed or still holds -/
def PollAwait.load : PollAwait → ℕ
  | .claim _ processed => processed
  | .claimEntry _ _ _ processed => processed + 1
  | .claimed processed => processed
  | .read processed => processed
  | .readEntry _ rest processed => processed + 1 + rest.length
  | .returned processed => processed
  | .rearming _ => 0

/-- the bound on it -/
def PollAwait.limit : PollAwait → ℕ
  | .readEntry .. => maxSweepEntries + batch
  | .returned _ => maxSweepEntries + batch
  | .rearming _ => maxSweepEntries + batch
  | _ => maxSweepEntries

namespace CommandPolls

structure PollInv (s : CommandPolls) : Prop where
  /-- one iteration for a match -/
  distinct : (s.iterations.map Iteration.matchId).Nodup
  flight : ∀ m, s.inFlight.has m = true ↔ m ∈ s.iterations.map Iteration.matchId
  /-- an iteration whose signal is not raised watches the registration of its match -/
  watched : ∀ it ∈ s.iterations, s.isAborted it.reg = false →
    (s.registered.get it.matchId).map Registration.id = some it.reg
  live : ∀ m r, s.registered.get m = some r → s.isAborted r.id = false
  unique : ∀ m m' r r', s.registered.get m = some r → s.registered.get m' = some r' → r.id = r'.id → m = m'
  fresh : ∀ m r, s.registered.get m = some r → r.id < s.nextReg
  freshAborted : ∀ id ∈ s.aborted, id < s.nextReg
  timer : s.pollTimer = false → ∀ m, (s.registered.get m).isSome = true → m ∈ s.creating
  count : ∀ it ∈ s.iterations, it.stage.load ≤ it.stage.limit

theorem pollInv_init : PollInv init where
  distinct := List.nodup_nil
  flight := by simp [init]
  watched := by simp [init]
  live := by simp [init, JsMap.get, JsMap.empty, getEntry]
  unique := by simp [init, JsMap.get, JsMap.empty, getEntry]
  fresh := by simp [init, JsMap.get, JsMap.empty, getEntry]
  freshAborted := by simp [init]
  timer := by simp [init, JsMap.get, JsMap.empty, getEntry]
  count := by simp [init]

/-! ## Polls -/

/-- the parts a poll leaves alone -/
structure SamePolls (s s' : CommandPolls) : Prop where
  registered : s'.registered = s.registered
  nextReg : s'.nextReg = s.nextReg
  aborted : s'.aborted = s.aborted
  pollTimer : s'.pollTimer = s.pollTimer
  creating : s'.creating = s.creating

theorem schedulePoll_same (s : CommandPolls) (matchId : String) (reg : Registration) :
    SamePolls s (s.schedulePoll matchId reg) := by
  unfold schedulePoll
  split_ifs <;> exact ⟨rfl, rfl, rfl, rfl, rfl⟩

theorem firstAwait_count (s : CommandPolls) (reg : Registration) :
    (s.firstAwait reg).load ≤ (s.firstAwait reg).limit := by
  unfold firstAwait
  split_ifs <;> exact Nat.zero_le _

theorem schedulePoll_inv {s : CommandPolls} (h : PollInv s) (matchId : String) (reg : Registration) :
    PollInv (s.schedulePoll matchId reg) := by
  unfold schedulePoll
  split_ifs with hf ha hr
  · exact h
  · exact h
  · exact h
  · have hnew : matchId ∉ s.iterations.map Iteration.matchId := fun hmem => hf ((h.flight matchId).2 hmem)
    refine ⟨?_, ?_, ?_, h.live, h.unique, h.fresh, h.freshAborted, h.timer, ?_⟩
    · rw [List.map_append]
      refine List.nodup_append.2 ⟨h.distinct, by simp, fun a hmem b hb hab => hnew ?_⟩
      obtain rfl : b = matchId := List.mem_singleton.1 hb
      exact hab ▸ hmem
    · intro m
      rw [JsSet.has_add, Bool.or_eq_true, decide_eq_true_eq, h.flight m, List.map_append, List.mem_append]
      simp [or_comm]
    · intro it hit hlive
      rcases List.mem_append.1 hit with hit | hit
      · exact h.watched it hit hlive
      · rw [List.mem_singleton.1 hit]
        simpa using hr
    · intro it hit
      rcases List.mem_append.1 hit with hit | hit
      · exact h.count it hit
      · rw [List.mem_singleton.1 hit]
        exact firstAwait_count s reg

theorem schedulePoll_flight {s : CommandPolls} (h : PollInv s) {matchId : String} {reg : Registration}
    (hr : s.registered.get matchId = some reg) : (s.schedulePoll matchId reg).inFlight.has matchId = true := by
  unfold schedulePoll
  split_ifs with hf ha hne
  · exact hf
  · rw [h.live matchId reg hr] at ha
    cases ha
  · rw [hr] at hne
    exact absurd rfl hne
  · simp [JsSet.has_add]

theorem schedulePoll_keeps (s : CommandPolls) (matchId : String) (reg : Registration) {m : String}
    (h : s.inFlight.has m = true) : (s.schedulePoll matchId reg).inFlight.has m = true := by
  unfold schedulePoll
  split_ifs
  · exact h
  · exact h
  · exact h
  · rw [JsSet.has_add, h, Bool.or_true]

/-- **A round of polls** starts an iteration for every registered match that has none. -/
theorem dispatchPolls_inv {s : CommandPolls} (h : PollInv s) : PollInv s.dispatchPolls ∧ SamePolls s s.dispatchPolls ∧
    ∀ m, (s.registered.get m).isSome = true → s.dispatchPolls.inFlight.has m = true := by
  have hfold : ∀ (l : List (String × Registration)) (t : CommandPolls), PollInv t → SamePolls s t →
      (∀ e ∈ l, s.registered.get e.1 = some e.2) →
      let t' := l.foldl (fun t e => t.schedulePoll e.1 e.2) t
      PollInv t' ∧ SamePolls s t' ∧ (∀ m, t.inFlight.has m = true → t'.inFlight.has m = true) ∧
        ∀ e ∈ l, t'.inFlight.has e.1 = true := by
    intro l
    induction l with
    | nil => exact fun t ht hs _ => ⟨ht, hs, fun _ hm => hm, by simp⟩
    | cons e l ih =>
      intro t ht hs hl
      have hget : t.registered.get e.1 = some e.2 := by
        rw [hs.registered]
        exact hl e List.mem_cons_self
      have hsame := schedulePoll_same t e.1 e.2
      have hs' : SamePolls s (t.schedulePoll e.1 e.2) :=
        ⟨hsame.registered.trans hs.registered, hsame.nextReg.trans hs.nextReg, hsame.aborted.trans hs.aborted,
          hsame.pollTimer.trans hs.pollTimer, hsame.creating.trans hs.creating⟩
      obtain ⟨h1, h2, h3, h4⟩ := ih _ (schedulePoll_inv ht e.1 e.2) hs' fun x hx => hl x (List.mem_cons_of_mem e hx)
      refine ⟨h1, h2, fun m hm => h3 m (schedulePoll_keeps t e.1 e.2 hm), ?_⟩
      intro x hx
      rcases List.mem_cons.1 hx with rfl | hx
      · exact h3 x.1 (schedulePoll_flight ht hget)
      · exact h4 x hx
  obtain ⟨h1, h2, -, h4⟩ := hfold s.registered.entries s h ⟨rfl, rfl, rfl, rfl, rfl⟩ fun e he => JsMap.get_of_mem he
  refine ⟨h1, h2, fun m hm => ?_⟩
  obtain ⟨r, hr⟩ := Option.isSome_iff_exists.1 hm
  exact h4 (m, r) (JsMap.mem_of_get hr)

/-! ## Registrations -/

theorem isAborted_of_ge {s : CommandPolls} (h : PollInv s) {id : ℕ} (hid : s.nextReg ≤ id) :
    s.isAborted id = false := by
  by_contra hc
  have hmem : id ∈ s.aborted := by simpa [isAborted] using hc
  have hlt := h.freshAborted id hmem
  omega

theorem registerMatch_inv {s : CommandPolls} (h : PollInv s) (matchId : String) :
    PollInv (s.registerMatch matchId) := by
  unfold registerMatch
  split_ifs with hsome
  · exact h
  · have hnone : s.registered.get matchId = none := by simpa using hsome
    refine ⟨h.distinct, h.flight, ?_, ?_, ?_, ?_, ?_, ?_, h.count⟩
    · intro it hit hlive
      have hw := h.watched it hit hlive
      have hne : matchId ≠ it.matchId := by
        intro heq
        rw [← heq, hnone] at hw
        cases hw
      simpa only [JsMap.get_set, if_neg hne] using hw
    · intro m r hr
      rw [JsMap.get_set] at hr
      split_ifs at hr with hm
      · obtain rfl := Option.some.inj hr
        exact isAborted_of_ge h le_rfl
      · exact h.live m r hr
    · intro m m' r r' hr hr' hid
      rw [JsMap.get_set] at hr hr'
      split_ifs at hr hr' with hm hm' hm'
      · exact hm.symm.trans hm'
      · obtain rfl := Option.some.inj hr
        have hlt := h.fresh m' r' hr'
        simp only at hid
        omega
      · obtain rfl := Option.some.inj hr'
        have hlt := h.fresh m r hr
        simp only at hid
        omega
      · exact h.unique m m' r r' hr hr' hid
    · intro m r hr
      rw [JsMap.get_set] at hr
      split_ifs at hr with hm
      · obtain rfl := Option.some.inj hr
        exact Nat.lt_succ_self _
      · exact Nat.lt_succ_of_lt (h.fresh m r hr)
    · exact fun id hid => Nat.lt_succ_of_lt (h.freshAborted id hid)
    · intro ht m hm
      rw [JsMap.get_set] at hm
      split_ifs at hm with heq
      · exact List.mem_append_right _ (List.mem_singleton.2 heq.symm)
      · exact List.mem_append_left _ (h.timer ht m hm)

theorem ensurePolling_inv {s : CommandPolls} (h : PollInv s) (creating : List String) :
    PollInv { s with creating := creating }.ensurePolling := by
  have hon : PollInv { s with creating := creating, pollTimer := true } :=
    ⟨h.distinct, h.flight, h.watched, h.live, h.unique, h.fresh, h.freshAborted, nofun, h.count⟩
  exact (dispatchPolls_inv hon).1

theorem groupCreated_inv {s : CommandPolls} (h : PollInv s) (i : ℕ) : PollInv (s.groupCreated i) := by
  unfold groupCreated
  split
  · exact h
  · exact ensurePolling_inv h _

/-- a state with fewer registrations, the signals of the others raised -/
theorem PollInv.fewer {s s' : CommandPolls} (h : PollInv s) (hit : s'.iterations = s.iterations)
    (hflight : s'.inFlight = s.inFlight) (hnext : s'.nextReg = s.nextReg)
    (hsub : ∀ m r, s'.registered.get m = some r → s.registered.get m = some r)
    (haborted : ∀ id, s'.isAborted id = true ↔ s.isAborted id = true ∨
      ∃ m r, s.registered.get m = some r ∧ r.id = id ∧ s'.registered.get m = none)
    (htimer : s'.pollTimer = false → ∀ m, (s'.registered.get m).isSome = true → m ∈ s'.creating) : PollInv s' := by
  refine ⟨by rw [hit]; exact h.distinct, by rw [hit, hflight]; exact h.flight, ?_, ?_, ?_, ?_, ?_, htimer,
    by rw [hit]; exact h.count⟩
  · intro it hmem hlive
    rw [hit] at hmem
    have hold : s.isAborted it.reg = false := by
      by_contra hc
      rw [(haborted it.reg).2 (.inl (by simpa using hc))] at hlive
      cases hlive
    have hw := h.watched it hmem hold
    obtain ⟨r, hr, hid⟩ := Option.map_eq_some_iff.1 hw
    cases hr' : s'.registered.get it.matchId with
    | some r' =>
      obtain rfl := Option.some.inj ((hsub _ _ hr').symm.trans hr)
      rw [Option.map_some, hid]
    | none =>
      rw [(haborted it.reg).2 (.inr ⟨it.matchId, r, hr, hid, hr'⟩)] at hlive
      cases hlive
  · intro m r hr
    by_contra hc
    rcases (haborted r.id).1 (by simpa using hc) with hold | ⟨m', r', hr', hid, hnone⟩
    · rw [h.live m r (hsub m r hr)] at hold
      cases hold
    · obtain rfl := h.unique m' m r' r hr' (hsub m r hr) hid
      rw [hr] at hnone
      cases hnone
  · exact fun m m' r r' hr hr' hid => h.unique m m' r r' (hsub _ _ hr) (hsub _ _ hr') hid
  · intro m r hr
    rw [hnext]
    exact h.fresh m r (hsub m r hr)
  · intro id hid
    rw [hnext]
    have hmem : s'.isAborted id = true := by simpa [isAborted] using hid
    rcases (haborted id).1 hmem with hold | ⟨m, r, hr, rfl, -⟩
    · exact h.freshAborted id (by simpa [isAborted] using hold)
    · exact h.fresh m r hr

theorem size_eq_zero {K V : Type} [DecidableEq K] {m : JsMap K V} (h : m.size = 0) (k : K) : m.get k = none := by
  have hnil : m.entries = [] := List.length_eq_zero_iff.1 h
  simp [JsMap.get, hnil, getEntry]

theorem dropRegistration_inv {s : CommandPolls} (h : PollInv s) (matchId : String) :
    PollInv (s.dropRegistration matchId) := by
  unfold dropRegistration
  split
  · rename_i reg hr
    refine h.fewer rfl rfl rfl ?_ ?_ ?_
    · intro m r hm
      rw [JsMap.get_delete] at hm
      split_ifs at hm
      exact hm
    · intro id
      simp only [isAborted, List.contains_cons, Bool.or_eq_true, beq_iff_eq, JsMap.get_delete]
      constructor
      · rintro (rfl | hold)
        · exact .inr ⟨matchId, reg, hr, rfl, if_pos rfl⟩
        · exact .inl hold
      · rintro (hold | ⟨m, r, hm, rfl, hnone⟩)
        · exact .inr hold
        · split_ifs at hnone with heq
          · subst heq
            obtain rfl := Option.some.inj (hr.symm.trans hm)
            exact .inl rfl
          · rw [hm] at hnone
            cases hnone
    · intro ht m hm
      rw [JsMap.get_delete] at hm
      split_ifs at hm
      · cases hm
      · exact h.timer ht m hm
  · exact h

/-- the timer stops when nothing is registered -/
theorem deregisterMatch_inv {s : CommandPolls} (h : PollInv s) (matchId : String) :
    PollInv (s.deregisterMatch matchId) := by
  have hgone := dropRegistration_inv h matchId
  unfold deregisterMatch
  simp only []
  split_ifs with hsize
  · refine ⟨hgone.distinct, hgone.flight, hgone.watched, hgone.live, hgone.unique, hgone.fresh, hgone.freshAborted, ?_,
      hgone.count⟩
    intro _ m hm
    simp only [size_eq_zero hsize m] at hm
    cases hm
  · exact hgone

theorem onModuleDestroy_inv {s : CommandPolls} (h : PollInv s) : PollInv s.onModuleDestroy := by
  have hnone : ∀ m, (JsMap.empty : JsMap String Registration).get m = none := fun m => rfl
  refine h.fewer rfl rfl rfl ?_ ?_ ?_
  · intro m r hr
    cases hr
  · intro id
    simp only [isAborted, onModuleDestroy, List.contains_eq_mem, List.mem_append, List.mem_map, decide_eq_true_eq]
    constructor
    · rintro (⟨e, he, rfl⟩ | hold)
      · exact .inr ⟨e.1, e.2, JsMap.get_of_mem he, rfl, hnone _⟩
      · exact .inl hold
    · rintro (hold | ⟨m, r, hr, rfl, -⟩)
      · exact .inr hold
      · exact .inl ⟨(m, r), JsMap.mem_of_get hr, rfl⟩
  · intro _ m hm
    cases hm

/-! ## Iterations -/

theorem afterBatch_count (aborted : Bool) (cursor : String) {processed : ℕ} (h : processed ≤ maxSweepEntries) :
    (afterBatch aborted cursor processed).1.load ≤ (afterBatch aborted cursor processed).1.limit := by
  unfold afterBatch
  split_ifs <;> exact h

theorem claimLoop_count (aborted : Bool) (nextCursor : String) (entries : List String) {processed : ℕ}
    (h : processed ≤ maxSweepEntries) : (claimLoop aborted nextCursor entries processed).1.load ≤
      (claimLoop aborted nextCursor entries processed).1.limit := by
  unfold claimLoop
  split
  · exact afterBatch_count aborted nextCursor h
  · split_ifs with ha hfull
    · exact h
    · exact afterBatch_count aborted nextCursor h
    · exact Nat.lt_of_not_le hfull

theorem readLoop_count (aborted : Bool) {entries : List String} {processed : ℕ}
    (h : processed + entries.length ≤ maxSweepEntries + batch) :
    (readLoop aborted entries processed).load ≤ (readLoop aborted entries processed).limit := by
  cases entries with
  | nil => exact h
  | cons entry rest =>
    simp only [List.length_cons] at h
    have hrest : processed + 1 + rest.length ≤ maxSweepEntries + batch := by omega
    have hdone : processed ≤ maxSweepEntries + batch := by omega
    unfold readLoop
    split_ifs
    · exact hdone
    · exact hrest

theorem next_count (s : CommandPolls) (it : Iteration) (reply : PollReply) (h : it.stage.load ≤ it.stage.limit)
    (hb : ∀ entries, reply = .entries entries → entries.length ≤ batch) :
    (s.next it reply).1.load ≤ (s.next it reply).1.limit := by
  have hnone : (PollAwait.returned 0).load ≤ (PollAwait.returned 0).limit := Nat.zero_le _
  unfold next
  split
  · rename_i cursor processed hstage
    rw [hstage] at h
    cases reply with
    | claimed nextCursor entries => exact claimLoop_count _ _ _ h
    | _ => exact hnone
  · rename_i entry nextCursor rest processed hstage
    rw [hstage] at h
    cases reply with
    | done => exact claimLoop_count _ _ _ h
    | _ => exact hnone
  · rename_i processed hstage
    rw [hstage] at h
    have hsweep : processed ≤ maxSweepEntries := h
    have hdone : processed ≤ maxSweepEntries + batch := hsweep.trans (Nat.le_add_right _ _)
    split_ifs
    · exact hdone
    · exact hsweep
  · rename_i processed hstage
    rw [hstage] at h
    have hsweep : processed ≤ maxSweepEntries := h
    have hdone : processed ≤ maxSweepEntries + batch := hsweep.trans (Nat.le_add_right _ _)
    cases reply with
    | entries entries => exact readLoop_count _ (Nat.add_le_add hsweep (hb entries rfl))
    | _ => exact hdone
  · rename_i entry rest processed hstage
    rw [hstage] at h
    have hload : processed + 1 + rest.length ≤ maxSweepEntries + batch := h
    have hdone : processed ≤ maxSweepEntries + batch := by omega
    cases reply with
    | done => exact readLoop_count _ hload
    | _ => exact hdone
  · exact Nat.zero_le _
  · exact Nat.zero_le _

/-- replacing an element by one with the same image -/
theorem map_set_same {α β : Type} (f : α → β) {l : List α} {i : ℕ} {x y : α} (hx : l[i]? = some x) (hf : f y = f x) :
    (l.set i y).map f = l.map f := by
  obtain ⟨hi, rfl⟩ := List.getElem?_eq_some_iff.1 hx
  rw [List.map_set, hf, ← List.getElem_map f (h := by simpa using hi), List.set_getElem_self]

theorem goOn_inv {s : CommandPolls} (h : PollInv s) {i : ℕ} {it : Iteration} (hit : s.iterations[i]? = some it)
    (reply : PollReply) (hb : ∀ entries, reply = .entries entries → entries.length ≤ batch) :
    PollInv (s.goOn i it reply) := by
  have hmem : it ∈ s.iterations := List.mem_of_getElem? hit
  have hids : (s.goOn i it reply).iterations.map Iteration.matchId = s.iterations.map Iteration.matchId :=
    map_set_same Iteration.matchId hit rfl
  have hget : ∀ m, ((s.goOn i it reply).registered.get m).map Registration.id = (s.registered.get m).map Registration.id
      := by
    intro m
    simp only [goOn]
    split_ifs
    · rw [JsMap.get_modify]
      split_ifs
      · rw [Option.map_map]
        refine Option.map_congr fun r _ => ?_
        simp only [Function.comp_apply]
        split_ifs <;> rfl
      · rfl
    · rfl
  have hsome : ∀ m r, (s.goOn i it reply).registered.get m = some r →
      ∃ r', s.registered.get m = some r' ∧ r'.id = r.id := by
    intro m r hr
    have hmap := hget m
    rw [hr] at hmap
    exact Option.map_eq_some_iff.1 hmap.symm
  refine ⟨by rw [hids]; exact h.distinct, fun m => by rw [hids]; exact h.flight m, ?_, ?_, ?_, ?_, h.freshAborted, ?_,
    ?_⟩
  · intro x hx hlive
    rw [hget]
    rcases List.mem_or_eq_of_mem_set hx with hx | rfl
    · exact h.watched x hx hlive
    · exact h.watched it hmem hlive
  · intro m r hr
    obtain ⟨r', hr', hid⟩ := hsome m r hr
    rw [← hid]
    exact h.live m r' hr'
  · intro m m' r r' hr hr' hid
    obtain ⟨x, hx, hxid⟩ := hsome m r hr
    obtain ⟨y, hy, hyid⟩ := hsome m' r' hr'
    exact h.unique m m' x y hx hy (hxid.trans (hid.trans hyid.symm))
  · intro m r hr
    obtain ⟨r', hr', hid⟩ := hsome m r hr
    rw [← hid]
    exact h.fresh m r' hr'
  · intro ht m hm
    refine h.timer ht m ?_
    obtain ⟨r, hr⟩ := Option.isSome_iff_exists.1 hm
    obtain ⟨r', hr', -⟩ := hsome m r hr
    rw [hr']
    rfl
  · intro x hx
    rcases List.mem_or_eq_of_mem_set hx with hx | rfl
    · exact h.count x hx
    · exact next_count s it reply (h.count it hmem) hb

/-- an iteration that ends leaves its match free -/
theorem ended_inv {s : CommandPolls} (h : PollInv s) {i : ℕ} {it : Iteration} (hit : s.iterations[i]? = some it) :
    PollInv { s with inFlight := s.inFlight.delete it.matchId, iterations := s.iterations.eraseIdx i } := by
  have hperm : (s.iterations.map Iteration.matchId).Perm
      (it.matchId :: (s.iterations.eraseIdx i).map Iteration.matchId) := by
    obtain ⟨hi, rfl⟩ := List.getElem?_eq_some_iff.1 hit
    exact ((List.getElem_cons_eraseIdx_perm hi).symm.map Iteration.matchId)
  obtain ⟨hnot, hrest⟩ := List.nodup_cons.1 (hperm.nodup_iff.1 h.distinct)
  refine ⟨hrest, ?_, fun x hx => h.watched x (List.mem_of_mem_eraseIdx hx), h.live, h.unique, h.fresh, h.freshAborted,
    h.timer, fun x hx => h.count x (List.mem_of_mem_eraseIdx hx)⟩
  intro m
  rw [JsSet.has_delete, Bool.and_eq_true, h.flight m, hperm.mem_iff, List.mem_cons]
  by_cases hm : m = it.matchId
  · subst hm
    simpa using hnot
  · simp [hm]

theorem finish_inv {s : CommandPolls} (h : PollInv s) {i : ℕ} {it : Iteration} (hit : s.iterations[i]? = some it)
    (rearm : Bool) : PollInv (s.finish i it.matchId rearm) := by
  have hended := ended_inv h hit
  unfold finish
  simp only []
  split_ifs
  · split
    · exact schedulePoll_inv hended _ _
    · exact hended
  · exact hended

theorem step_pollInv (s : CommandPolls) (o : PollOp) (hb : ReadsBatch s o) (h : PollInv s) : PollInv (s.step o) := by
  cases o with
  | registerMatch matchId => exact registerMatch_inv h matchId
  | groupCreated i => exact groupCreated_inv h i
  | deregisterMatch matchId => exact deregisterMatch_inv h matchId
  | pollTick =>
    simp only [step]
    split_ifs
    · exact (dispatchPolls_inv h).1
    · exact h
  | iterate i reply =>
    have hbatch : ∀ entries, reply = .entries entries → entries.length ≤ batch := by
      rintro entries rfl
      exact hb
    simp only [step, iterate]
    split
    · exact h
    · rename_i it hit
      split
      · exact finish_inv h hit _
      · exact goOn_inv h hit reply hbatch
  | advance ms =>
    exact ⟨h.distinct, h.flight, h.watched, h.live, h.unique, h.fresh, h.freshAborted, h.timer, h.count⟩
  | onModuleDestroy => exact onModuleDestroy_inv h

/-! ## Runs -/

theorem afterBatch_await (aborted : Bool) (cursor : String) (processed : ℕ) :
    (afterBatch aborted cursor processed).1 = .claimed processed ∨
      (afterBatch aborted cursor processed).1 = .claim cursor processed := by
  unfold afterBatch
  split_ifs
  · exact .inl rfl
  · exact .inr rfl
  · exact .inl rfl

/-- an entry is taken up only while the signal is not raised -/
theorem next_takes {s : CommandPolls} {it : Iteration} (reply : PollReply)
    (h : (∃ entry cursor rest n, (s.next it reply).1 = .claimEntry entry cursor rest n) ∨
      ∃ entry rest n, (s.next it reply).1 = .readEntry entry rest n) : s.isAborted it.reg = false := by
  by_contra hc
  have ha : s.isAborted it.reg = true := by simpa using hc
  have hclaim : ∀ cursor entries n, (∀ e c r k, (claimLoop true cursor entries n).1 ≠ .claimEntry e c r k) ∧
      ∀ e r k, (claimLoop true cursor entries n).1 ≠ .readEntry e r k := by
    intro cursor entries n
    cases entries with
    | nil => rcases afterBatch_await true cursor n with hx | hx <;> simp [claimLoop, hx]
    | cons e rest => simp [claimLoop]
  have hread : ∀ entries n, (∀ e c r k, readLoop true entries n ≠ .claimEntry e c r k) ∧
      ∀ e r k, readLoop true entries n ≠ .readEntry e r k := by
    intro entries n
    cases entries <;> simp [readLoop]
  have hnot : (∀ e c r k, (s.next it reply).1 ≠ .claimEntry e c r k) ∧
      ∀ e r k, (s.next it reply).1 ≠ .readEntry e r k := by
    unfold next
    rw [ha]
    split
    · cases reply <;> first | exact hclaim _ _ _ | simp
    · cases reply <;> first | exact hclaim _ _ _ | simp
    · simp
    · cases reply <;> first | exact hread _ _ | simp
    · cases reply <;> first | exact hread _ _ | simp
    · simp
    · simp
  rcases h with ⟨e, c, r, n, he⟩ | ⟨e, r, n, he⟩
  · exact hnot.1 e c r n he
  · exact hnot.2 e r n he

theorem PollInv.takenUp {s : CommandPolls} (h : PollInv s) {o : PollOp} {m : String}
    (ht : CommandPolls.takenUp s o = some m) : (s.registered.get m).isSome = true := by
  cases o with
  | iterate i reply =>
    unfold CommandPolls.takenUp at ht
    cases hit : s.iterations[i]? with
    | none =>
      simp only [hit] at ht
      cases ht
    | some it =>
      simp only [hit] at ht
      have htakes : s.isAborted it.reg = false ∧ it.matchId = m := by
        split at ht
        · rename_i hn
          exact ⟨next_takes reply (.inl ⟨_, _, _, _, hn⟩), Option.some.inj ht⟩
        · rename_i hn
          exact ⟨next_takes reply (.inr ⟨_, _, _, hn⟩), Option.some.inj ht⟩
        · cases ht
      obtain ⟨hlive, rfl⟩ := htakes
      have hw := h.watched it (List.mem_of_getElem? hit) hlive
      obtain ⟨r, hr, -⟩ := Option.map_eq_some_iff.1 hw
      rw [hr]
      rfl
  | _ => cases ht

/-- **The commands of a match are applied one at a time.** In every run of registrations, ticks and awaited replies: a
match has one read iteration at most, so its entries are applied one after the other; none is taken up once the match is
deregistered; a registered match is being read, or waits for its consumer group, or is read from the next tick of the
timer; and an iteration processes no more than a sweep and a batch. -/
theorem commands_one_at_a_time (ops : List PollOp) (hb : Along step ReadsBatch init ops) :
    let s := run step init ops
    (∀ m, s.iterations.countP (fun it => it.matchId = m) ≤ 1) ∧
      (∀ o m, takenUp s o = some m → (s.registered.get m).isSome = true) ∧
      (∀ m, (s.registered.get m).isSome = true →
        (∃ it ∈ s.iterations, it.matchId = m) ∨ m ∈ s.creating ∨
          s.pollTimer = true ∧ ∃ it ∈ (s.step .pollTick).iterations, it.matchId = m) ∧
      ∀ it ∈ s.iterations, it.stage.load ≤ 640 := by
  intro s
  have h : PollInv s := run_inv step ReadsBatch PollInv step_pollInv init ops hb pollInv_init
  refine ⟨?_, fun o m ht => h.takenUp ht, ?_, ?_⟩
  · intro m
    have hcount := List.nodup_iff_count_le_one.1 h.distinct m
    rw [List.count_eq_countP, List.countP_map] at hcount
    refine le_of_eq_of_le (List.countP_congr fun it _ => ?_) hcount
    simp
  · intro m hm
    by_cases hcreating : m ∈ s.creating
    · exact .inr (.inl hcreating)
    · have htimer : s.pollTimer = true := by
        by_contra hoff
        exact hcreating (h.timer (by simpa using hoff) m hm)
      refine .inr (.inr ⟨htimer, ?_⟩)
      obtain ⟨hinv, -, hall⟩ := dispatchPolls_inv h
      have hstep : s.step .pollTick = s.dispatchPolls := if_pos htimer
      rw [hstep]
      exact List.mem_map.1 ((hinv.flight m).1 (hall m hm))
  · intro it hit
    refine (h.count it hit).trans ?_
    cases it.stage <;> simp [PollAwait.limit, maxSweepEntries, batch]

/-- two matches are read; m1 sweeps one entry, reads a full batch and is given up while the first command of the batch is
applied: the others are not taken up -/
theorem commands_one_at_a_time_two :
    let ops : List PollOp := [.advance 10000, .registerMatch "m1", .groupCreated 0, .registerMatch "m2", .groupCreated 0,
      .iterate 0 (.claimed "0-0" ["a"]), .iterate 0 .done, .iterate 0 .done,
      .iterate 0 (.entries (List.replicate batch "b")), .deregisterMatch "m1"]
    let s := run step init ops
    s.iterations.map Iteration.matchId = ["m1", "m2"] ∧ takenUp s (.iterate 0 .done) = none ∧
      s.iterations.map (fun it => it.stage.load) = [129, 0] ∧
      s.iterations.countP (fun it => it.matchId = "m1") ≤ 1 ∧ ∀ it ∈ s.iterations, it.stage.load ≤ 640 := by
  intro ops s
  have hall := commands_one_at_a_time ops (by decide +kernel)
  exact ⟨by decide +kernel, by decide +kernel, by decide +kernel, hall.1 "m1", hall.2.2.2⟩

end CommandPolls

end Arena.Api
