/-
The state machine cache of one node (`match.service.ts`), with machines as objects.

`getStateMachine` checks the map, waits for Redis and the question lookup and then sets the map, so two calls that miss
build two machines. A call keeps the object it was given, writes to it, and `persistStateMachine` serializes whatever
object the map holds when its turn comes (`runPersistExclusive` runs one persist at a time, in order). What a call does
when its persist is not APPLIED differs from one call site to the next: `PersistSite.cleanup`.

A call is named by its position in `calls`; between two awaits of one call any step of another may come. Whether the
fenced CAS is APPLIED is left open, and a Redis call that throws may have written. Other owners write the blob at any
time.
-/
import Arena.Api.CanonicalLog

namespace Arena.Api

open Arena.Lib Arena.Shared Arena.GameCore

/-! ## Call sites -/

/-- the places that write to a machine and persist it -/
inductive PersistSite where
  | startMatchLoop
  | topicVotingTimerCallback
  | executeRound
  | triggerMilestoneCardOffers
  | scheduleBotAnswers
  | scheduleBotCardPlays
  | handleActiveRoundEnd
  | endRoundEvaluated
  | endRoundResult
  | finishMatchLoopInner
  | forceFinishMatchForDisband
  | applyAnswerCommand
  | applyCardPickCommand
  | applyCardPlayCommand
  | applyVoteBanTopic
  | disconnectMatchPlayer
  | leaveMatchPlayer
  | reconnectPlayer
deriving DecidableEq

inductive PersistOutcome where
  | applied
  | retry
  | blind
  /-- a Redis call throws, before or after the write -/
  | threw (written : Bool)
deriving DecidableEq

def PersistOutcome.written : PersistOutcome → Bool
  | .applied => true
  | .threw written => written
  | _ => false

inductive Cleanup where
  | keep
  | evict
  /-- evict, and `Object.assign` the machine from the blob taken before the write -/
  | rollback
deriving DecidableEq

/-- what a call does once its persist is back; no site catches a throw to evict -/
def PersistSite.cleanup (site : PersistSite) : PersistOutcome → Cleanup
  | .applied => .keep
  | .threw _ => .keep
  | _ =>
    match site with
    | .topicVotingTimerCallback => .rollback
    | .triggerMilestoneCardOffers => .rollback
    | .scheduleBotAnswers => .rollback
    | .scheduleBotCardPlays => .rollback
    | .applyVoteBanTopic => .rollback
    | .applyAnswerCommand => .evict
    | .applyCardPickCommand => .evict
    | .applyCardPlayCommand => .evict
    | .disconnectMatchPlayer => .evict
    | .leaveMatchPlayer => .evict
    | _ => .keep

/-! ## State -/

/-- what a call knows of the machine it was given -/
structure Work where
  ref : ℕ
  /-- the blob before the first write of the call -/
  undo : Option WireMatch
  /-- the events its writes logged -/
  logged : List EventLogEntry
deriving DecidableEq

/-- after a write that took the object from `m` to `m'` -/
def Work.wrote (w : Work) (m m' : Machine) : Work :=
  ⟨w.ref, w.undo.orElse fun _ => some m.serialize, w.logged ++ m'.eventLog.drop m.eventLog.length⟩

@[simp] theorem Work.wrote_ref (w : Work) (m m' : Machine) : (w.wrote m m').ref = w.ref := rfl

/-- a call of one site, by the await it waits at -/
inductive CallState where
  | reading
  /-- the blob does not decode, and is about to be deleted -/
  | dropping
  /-- the decoded machine, and the blob it came from; its answer key is being looked up -/
  | hydrating (m : Machine) (blob : WireMatch)
  | holding (w : Work)
  | queued (w : Work)
  | writing (w : Work) (blob : WireMatch)
  | settled (w : Work) (outcome : PersistOutcome)
  /-- over, with writes that were not APPLIED -/
  | abandoned (ref : ℕ)
  | done
deriving DecidableEq

/-- a call that wrote and was not APPLIED has given its writes up -/
def CallState.ended (w : Work) (outcome : PersistOutcome) : CallState :=
  if outcome ≠ .applied ∧ w.undo ≠ none then .abandoned w.ref else .done

/-- the object a call was given -/
def CallState.ref : CallState → Option ℕ
  | .holding w => some w.ref
  | .queued w => some w.ref
  | .writing w _ => some w.ref
  | .settled w _ => some w.ref
  | .abandoned ref => some ref
  | _ => none

theorem CallState.ended_ref {w : Work} {outcome : PersistOutcome} {ref : ℕ} (h : (ended w outcome).ref = some ref) :
    ref = w.ref := by
  unfold ended at h
  split_ifs at h
  · exact (Option.some.inj h).symm
  · cases h

structure MatchService where
  /-- every machine object of the match that a call of this node was given -/
  heap : List Machine
  /-- the entry of `stateMachines` -/
  stateMachine : Option ℕ
  /-- `match:state` -/
  state : Option WireMatch
  calls : List (PersistSite × CallState)
  persistChain : List ℕ
deriving DecidableEq

namespace MatchService

/-- a node that has not seen the match -/
def idle (state : Option WireMatch) : MatchService := ⟨[], none, state, [], []⟩

/-- the node that created it -/
def createMatch (matchId roomId : String) (players : List PlayerInfo) : MatchService :=
  ⟨[Machine.create matchId roomId players], some 0, some (Machine.create matchId roomId players).serialize, [], []⟩

def setCall (s : MatchService) (i : ℕ) (c : CallState) : MatchService :=
  { s with calls := s.calls.modify i fun x => (x.1, c) }

def callAt (s : MatchService) (i : ℕ) : Option CallState := s.calls[i]?.map Prod.snd

/-! ## Steps -/

inductive ServiceOp where
  | getStateMachine (site : PersistSite)
  | readState (i : ℕ)
  | dropState (i : ℕ)
  /-- with what the question lookup of `rehydrateCorrectAnswer` found -/
  | install (i : ℕ) (correctAnswer : Option String)
  | evictStateMachine
  | mutate (i : ℕ) (o : Op)
  | persistStateMachine (i : ℕ)
  /-- the next persist of the chain takes its blob -/
  | serialize
  /-- and is answered -/
  | reply (outcome : PersistOutcome)
  | cleanup (i : ℕ)
  /-- a call whose persist was APPLIED goes on with its machine -/
  | proceed (i : ℕ) (site : PersistSite)
  /-- another owner writes the blob, or it expires -/
  | otherWrite (state : Option WireMatch)

def getStateMachine (s : MatchService) (site : PersistSite) : MatchService :=
  match s.stateMachine with
  | some ref => { s with calls := s.calls ++ [(site, .holding ⟨ref, none, []⟩)] }
  | none => { s with calls := s.calls ++ [(site, .reading)] }

def readState (J : StringOps) (s : MatchService) (i : ℕ) : MatchService :=
  match s.callAt i with
  | some .reading =>
    match s.state with
    | none => s.setCall i .done
    | some blob =>
      match Machine.deserialize J (some blob) with
      | .error _ => s.setCall i .dropping
      | .ok m => s.setCall i (.hydrating m blob)
  | _ => s

def dropState (s : MatchService) (i : ℕ) : MatchService :=
  match s.callAt i with
  | some .dropping => { s with state := none }.setCall i .done
  | _ => s

def install (s : MatchService) (i : ℕ) (correctAnswer : Option String) : MatchService :=
  match s.callAt i with
  | some (.hydrating m _) =>
    { s with
      heap := s.heap ++ [Cluster.rehydrated m correctAnswer]
      stateMachine := some s.heap.length }.setCall i (.holding ⟨s.heap.length, none, []⟩)
  | _ => s

def evictStateMachine (s : MatchService) : MatchService := { s with stateMachine := none }

/-- `attachCorrectAnswer` is called by the hydration alone -/
def isWrite : Op → Bool
  | .attachCorrectAnswer _ => false
  | _ => true

def mutate (J : StringOps) (s : MatchService) (i : ℕ) (o : Op) : MatchService :=
  match s.callAt i with
  | some (.holding w) =>
    match s.heap[w.ref]? with
    | some m =>
      if isWrite o then
        { s with heap := s.heap.set w.ref (m.step J o) }.setCall i (.holding (w.wrote m (m.step J o)))
      else s
    | none => s
  | _ => s

def persistStateMachine (s : MatchService) (i : ℕ) : MatchService :=
  match s.callAt i with
  | some (.holding w) => { s with persistChain := s.persistChain ++ [i] }.setCall i (.queued w)
  | _ => s

/-- the start of `persistStateMachineInner`: an empty map is BLIND -/
def serialize (s : MatchService) : MatchService :=
  match s.persistChain with
  | [] => s
  | i :: rest =>
    match s.callAt i with
    | some (.queued w) =>
      match s.stateMachine.bind fun ref => s.heap[ref]? with
      | none => { s with persistChain := rest }.setCall i (.settled w .blind)
      | some m => s.setCall i (.writing w m.serialize)
    | _ => s

def reply (s : MatchService) (outcome : PersistOutcome) : MatchService :=
  match s.persistChain with
  | [] => s
  | i :: rest =>
    match s.callAt i with
    | some (.writing w blob) =>
      { s with
        state := if outcome.written then some blob else s.state
        persistChain := rest }.setCall i (.settled w outcome)
    | _ => s

/-- `Object.assign` from the blob taken before the write -/
def rollback (J : StringOps) (s : MatchService) (w : Work) : MatchService :=
  match w.undo.map fun blob => Machine.deserialize J (some blob) with
  | some (.ok canonical) => { s with heap := s.heap.set w.ref canonical }
  | _ => s

def cleanup (J : StringOps) (s : MatchService) (i : ℕ) : MatchService :=
  match s.calls[i]? with
  | some (site, .settled w outcome) =>
    match site.cleanup outcome with
    | .keep => s.setCall i (.ended w outcome)
    | .evict => s.evictStateMachine.setCall i (.ended w outcome)
    | .rollback => (s.evictStateMachine.rollback J w).setCall i (.ended w outcome)
  | _ => s

/-- `endRound` and `executeRound` write and persist the machine they hold several times -/
def proceed (s : MatchService) (i : ℕ) (site : PersistSite) : MatchService :=
  match s.callAt i with
  | some (.settled w .applied) => { s with calls := s.calls.set i (site, .holding ⟨w.ref, none, []⟩) }
  | _ => s

def step (J : StringOps) (s : MatchService) : ServiceOp → MatchService
  | .getStateMachine site => s.getStateMachine site
  | .readState i => s.readState J i
  | .dropState i => s.dropState i
  | .install i key => s.install i key
  | .evictStateMachine => s.evictStateMachine
  | .mutate i o => s.mutate J i o
  | .persistStateMachine i => s.persistStateMachine i
  | .serialize => s.serialize
  | .reply outcome => s.reply outcome
  | .cleanup i => s.cleanup J i
  | .proceed i site => s.proceed i site
  | .otherWrite state => { s with state := state }

/-! ## What a step can do -/

inductive Moved (J : StringOps) (s : MatchService) : ServiceOp → MatchService → Prop where
  | same (o : ServiceOp) : Moved J s o s
  | hit (site : PersistSite) (ref : ℕ) (h : s.stateMachine = some ref) :
      Moved J s (.getStateMachine site) { s with calls := s.calls ++ [(site, .holding ⟨ref, none, []⟩)] }
  | miss (site : PersistSite) (h : s.stateMachine = none) :
      Moved J s (.getStateMachine site) { s with calls := s.calls ++ [(site, .reading)] }
  | noState (i : ℕ) (hc : s.callAt i = some .reading) : Moved J s (.readState i) (s.setCall i .done)
  | undecodable (i : ℕ) (hc : s.callAt i = some .reading) : Moved J s (.readState i) (s.setCall i .dropping)
  | decoded (i : ℕ) (blob : WireMatch) (m : Machine) (hc : s.callAt i = some .reading) (hs : s.state = some blob)
      (hd : Machine.deserialize J (some blob) = .ok m) : Moved J s (.readState i) (s.setCall i (.hydrating m blob))
  | dropped (i : ℕ) (hc : s.callAt i = some .dropping) :
      Moved J s (.dropState i) ({ s with state := none }.setCall i .done)
  | installed (i : ℕ) (m : Machine) (blob : WireMatch) (key : Option String)
      (hc : s.callAt i = some (.hydrating m blob)) :
      Moved J s (.install i key) ({ s with
        heap := s.heap ++ [Cluster.rehydrated m key]
        stateMachine := some s.heap.length }.setCall i (.holding ⟨s.heap.length, none, []⟩))
  | evicted : Moved J s .evictStateMachine s.evictStateMachine
  | mutated (i : ℕ) (o : Op) (w : Work) (m : Machine) (hc : s.callAt i = some (.holding w))
      (hm : s.heap[w.ref]? = some m) (ho : isWrite o = true) :
      Moved J s (.mutate i o) ({ s with heap := s.heap.set w.ref (m.step J o) }.setCall i
        (.holding (w.wrote m (m.step J o))))
  | queued (i : ℕ) (w : Work) (hc : s.callAt i = some (.holding w)) :
      Moved J s (.persistStateMachine i) ({ s with persistChain := s.persistChain ++ [i] }.setCall i (.queued w))
  | blind (i : ℕ) (rest : List ℕ) (w : Work) (hp : s.persistChain = i :: rest) (hc : s.callAt i = some (.queued w)) :
      Moved J s .serialize ({ s with persistChain := rest }.setCall i (.settled w .blind))
  | serialized (i : ℕ) (rest : List ℕ) (w : Work) (ref : ℕ) (m : Machine) (hp : s.persistChain = i :: rest)
      (hc : s.callAt i = some (.queued w)) (hs : s.stateMachine = some ref) (hm : s.heap[ref]? = some m) :
      Moved J s .serialize (s.setCall i (.writing w m.serialize))
  | replied (i : ℕ) (rest : List ℕ) (w : Work) (blob : WireMatch) (outcome : PersistOutcome)
      (hp : s.persistChain = i :: rest) (hc : s.callAt i = some (.writing w blob)) :
      Moved J s (.reply outcome) ({ s with
        state := if outcome.written then some blob else s.state
        persistChain := rest }.setCall i (.settled w outcome))
  | keeps (i : ℕ) (site : PersistSite) (w : Work) (outcome : PersistOutcome)
      (hc : s.calls[i]? = some (site, .settled w outcome)) (hk : site.cleanup outcome = .keep) :
      Moved J s (.cleanup i) (s.setCall i (.ended w outcome))
  | evicts (i : ℕ) (site : PersistSite) (w : Work) (outcome : PersistOutcome)
      (hc : s.calls[i]? = some (site, .settled w outcome)) (hk : site.cleanup outcome ≠ .keep) :
      Moved J s (.cleanup i) (s.evictStateMachine.setCall i (.ended w outcome))
  | rollsBack (i : ℕ) (site : PersistSite) (w : Work) (outcome : PersistOutcome) (blob : WireMatch) (m : Machine)
      (hc : s.calls[i]? = some (site, .settled w outcome)) (hk : site.cleanup outcome = .rollback)
      (hu : w.undo = some blob) (hd : Machine.deserialize J (some blob) = .ok m) :
      Moved J s (.cleanup i) ({ s.evictStateMachine with heap := s.heap.set w.ref m }.setCall i (.ended w outcome))
  | proceeds (i : ℕ) (w : Work) (site : PersistSite) (hc : s.callAt i = some (.settled w .applied)) :
      Moved J s (.proceed i site) { s with calls := s.calls.set i (site, .holding ⟨w.ref, none, []⟩) }
  | wrote (state : Option WireMatch) : Moved J s (.otherWrite state) { s with state := state }

theorem cleanup_moved (J : StringOps) (s : MatchService) (i : ℕ) : Moved J s (.cleanup i) (s.cleanup J i) := by
  unfold cleanup
  split
  · rename_i site w outcome hc
    cases hk : site.cleanup outcome with
    | keep => exact .keeps i site w outcome hc hk
    | evict => exact .evicts i site w outcome hc (by rw [hk]; decide)
    | rollback =>
      simp only [rollback]
      split
      · rename_i canonical hd
        obtain ⟨blob, hu, hd⟩ := Option.map_eq_some_iff.1 hd
        exact .rollsBack i site w outcome blob canonical hc hk hu hd
      · exact .evicts i site w outcome hc (by rw [hk]; decide)
  · exact .same _

theorem step_moved (J : StringOps) (s : MatchService) (o : ServiceOp) : Moved J s o (s.step J o) := by
  cases o with
  | getStateMachine site =>
    simp only [step, getStateMachine]
    split
    · exact .hit site _ (by assumption)
    · exact .miss site (by assumption)
  | readState i =>
    simp only [step, readState]
    split
    · split
      · exact .noState i (by assumption)
      · split
        · exact .undecodable i (by assumption)
        · exact .decoded i _ _ (by assumption) (by assumption) (by assumption)
    · exact .same _
  | dropState i =>
    simp only [step, dropState]
    split
    · exact .dropped i (by assumption)
    · exact .same _
  | install i key =>
    simp only [step, install]
    split
    · exact .installed i _ _ key (by assumption)
    · exact .same _
  | evictStateMachine => exact .evicted
  | mutate i o =>
    simp only [step, mutate]
    split
    · split
      · split_ifs with ho
        · exact .mutated i o _ _ (by assumption) (by assumption) ho
        · exact .same _
      · exact .same _
    · exact .same _
  | persistStateMachine i =>
    simp only [step, persistStateMachine]
    split
    · exact .queued i _ (by assumption)
    · exact .same _
  | serialize =>
    simp only [step, serialize]
    split
    · exact .same _
    · split
      · split
        · exact .blind _ _ _ (by assumption) (by assumption)
        · rename_i m hm
          obtain ⟨ref, hs, hm⟩ := Option.bind_eq_some_iff.1 hm
          exact .serialized _ _ _ ref m (by assumption) (by assumption) hs hm
      · exact .same _
  | reply outcome =>
    simp only [step, reply]
    split
    · exact .same _
    · split
      · exact .replied _ _ _ _ outcome (by assumption) (by assumption)
      · exact .same _
  | cleanup i => exact cleanup_moved J s i
  | proceed i site =>
    simp only [step, proceed]
    split
    · exact .proceeds i _ site (by assumption)
    · exact .same _
  | otherWrite state => exact .wrote state

/-! ## Calls and objects -/

theorem callAt_setCall_cases {s : MatchService} {i j : ℕ} {c c' : CallState} (h : (s.setCall i c).callAt j = some c') :
    c' = c ∨ (j ≠ i ∧ s.callAt j = some c') := by
  by_cases hij : i = j
  · subst hij
    left
    simp only [callAt, setCall, List.getElem?_modify, if_true] at h
    obtain ⟨x, hx, rfl⟩ := Option.map_eq_some_iff.1 h
    obtain ⟨y, -, rfl⟩ := Option.map_eq_some_iff.1 hx
    rfl
  · right
    refine ⟨fun hji => hij hji.symm, ?_⟩
    simpa [callAt, setCall, List.getElem?_modify, hij] using h

theorem callAt_setCall {s : MatchService} {i j : ℕ} {c c' : CallState} (h : (s.setCall i c).callAt j = some c') :
    c' = c ∨ s.callAt j = some c' := (callAt_setCall_cases h).imp_right And.right

theorem callAt_append {calls : List (PersistSite × CallState)} {x : PersistSite × CallState} {j : ℕ} {c : CallState}
    (h : (calls ++ [x])[j]?.map Prod.snd = some c) : c = x.2 ∨ calls[j]?.map Prod.snd = some c := by
  obtain ⟨y, hy, rfl⟩ := Option.map_eq_some_iff.1 h
  rcases List.mem_append.1 (List.mem_of_getElem? hy) with hmem | hmem
  · by_cases hj : j < calls.length
    · right
      rw [List.getElem?_append_left hj] at hy
      rw [hy]
      rfl
    · rw [List.getElem?_append_right (not_lt.1 hj)] at hy
      left
      rw [List.mem_singleton.1 (List.mem_of_getElem? hy)]
  · left
    rw [List.mem_singleton.1 hmem]

theorem callAt_set {calls : List (PersistSite × CallState)} {x : PersistSite × CallState} {i j : ℕ} {c : CallState}
    (h : (calls.set i x)[j]?.map Prod.snd = some c) : c = x.2 ∨ calls[j]?.map Prod.snd = some c := by
  rw [List.getElem?_set] at h
  split_ifs at h
  · exact .inl (Option.some.inj h).symm
  · cases h
  · exact .inr h

theorem callAt_of_call {s : MatchService} {i : ℕ} {site : PersistSite} {c : CallState}
    (h : s.calls[i]? = some (site, c)) : s.callAt i = some c := by
  rw [callAt, h]
  rfl

/-- an object of the map was in the map before, and its log is only appended to -/
structure Grows (s s' : MatchService) : Prop where
  length : s.heap.length ≤ s'.heap.length
  map : ∀ ref, ref < s.heap.length → s'.stateMachine = some ref → s.stateMachine = some ref
  log : ∀ ref m', ref < s.heap.length → s'.stateMachine = some ref → s'.heap[ref]? = some m' →
    ∃ m, s.heap[ref]? = some m ∧ m.eventLog <+: m'.eventLog

theorem Grows.of_heap {s s' : MatchService} (hh : s'.heap = s.heap)
    (hm : ∀ ref, s'.stateMachine = some ref → s.stateMachine = some ref) : Grows s s' where
  length := by rw [hh]
  map := fun ref _ h => hm ref h
  log := fun ref m' _ _ h => ⟨m', by rw [← hh]; exact h, List.prefix_refl _⟩

theorem Grows.of_none {s s' : MatchService} (hl : s.heap.length ≤ s'.heap.length) (hn : s'.stateMachine = none) :
    Grows s s' where
  length := hl
  map := fun ref _ h => by rw [hn] at h; cases h
  log := fun ref m' _ h => by rw [hn] at h; cases h

/-- **No step shortens the log of an object in the map**, and none brings an object back into it. -/
theorem Moved.grows {J : StringOps} {s s' : MatchService} {o : ServiceOp} (h : Moved J s o s') : Grows s s' := by
  cases h with
  | installed i m blob key hc =>
    refine ⟨by simp [setCall], ?_, ?_⟩
    · intro ref hlt hx
      obtain rfl : s.heap.length = ref := Option.some.inj hx
      exact absurd hlt (lt_irrefl _)
    · intro ref m' hlt hx
      obtain rfl : s.heap.length = ref := Option.some.inj hx
      exact absurd hlt (lt_irrefl _)
  | evicted => exact .of_none le_rfl rfl
  | mutated i o w m hc hm ho =>
    refine ⟨by simp [setCall], fun ref _ hx => hx, ?_⟩
    intro ref m' hlt _ hx
    simp only [setCall, List.getElem?_set] at hx
    split_ifs at hx with h1 h2
    · obtain rfl := Option.some.inj hx
      subst h1
      obtain ⟨es, hlog, -⟩ := Machine.change_appends (Machine.step_change J m o)
      exact ⟨m, hm, by rw [hlog]; exact List.prefix_append _ _⟩
    · exact ⟨m', hx, List.prefix_refl _⟩
  | evicts => exact .of_none le_rfl rfl
  | rollsBack => exact .of_none (by simp [setCall, evictStateMachine]) rfl
  | _ => exact .of_heap rfl fun _ hx => hx

/-- the map and the calls name objects that exist -/
structure RefInv (s : MatchService) : Prop where
  map : ∀ ref, s.stateMachine = some ref → ref < s.heap.length
  calls : ∀ i c, s.callAt i = some c → ∀ ref, c.ref = some ref → ref < s.heap.length

/-- a step changes one call -/
theorem RefInv.of_call {s s' : MatchService} (h : RefInv s) (hg : Grows s s')
    (hmap : ∀ ref, s'.stateMachine = some ref → s.stateMachine = some ref) (c : CallState)
    (hc : ∀ ref, c.ref = some ref → ref < s.heap.length)
    (hcalls : ∀ j c', s'.callAt j = some c' → c' = c ∨ s.callAt j = some c') : RefInv s' := by
  refine ⟨fun ref hx => lt_of_lt_of_le (h.map ref (hmap ref hx)) hg.length, ?_⟩
  intro j c' hc' ref href
  rcases hcalls j c' hc' with rfl | hold
  · exact lt_of_lt_of_le (hc ref href) hg.length
  · exact lt_of_lt_of_le (h.calls j c' hold ref href) hg.length

theorem Moved.refInv {J : StringOps} {s s' : MatchService} {o : ServiceOp} (hm : Moved J s o s') (h : RefInv s) :
    RefInv s' := by
  have hg := hm.grows
  have hold : ∀ {i : ℕ} {c c' : CallState}, s.callAt i = some c → c'.ref = c.ref →
      ∀ ref, c'.ref = some ref → ref < s.heap.length :=
    fun hc hr ref hx => h.calls _ _ hc ref (hr ▸ hx)
  cases hm with
  | same => exact h
  | hit site ref hs =>
    refine h.of_call hg (fun _ hx => hx) (.holding ⟨ref, none, []⟩) ?_ fun _ _ => callAt_append
    rintro _ ⟨rfl⟩
    exact h.map ref hs
  | miss => exact h.of_call hg (fun _ hx => hx) .reading (fun _ hx => by cases hx) fun _ _ => callAt_append
  | installed i m blob key hc =>
    refine ⟨?_, ?_⟩
    · intro ref hx
      obtain rfl : s.heap.length = ref := Option.some.inj hx
      simp [setCall]
    · intro j c' hc' ref href
      rcases callAt_setCall hc' with rfl | hx
      · obtain rfl : s.heap.length = ref := Option.some.inj href
        simp [setCall]
      · exact lt_of_lt_of_le (hold hx rfl ref href) hg.length
  | evicted => exact h.of_call hg (fun _ hx => by cases hx) .done (fun _ hx => by cases hx) fun _ _ => .inr
  | mutated i o w m hc _ _ =>
    exact h.of_call hg (fun _ hx => hx) (.holding (w.wrote m (m.step J o))) (hold hc rfl) fun _ _ => callAt_setCall
  | queued i w hc => exact h.of_call hg (fun _ hx => hx) (.queued w) (hold hc rfl) fun _ _ => callAt_setCall
  | blind i rest w _ hc => exact h.of_call hg (fun _ hx => hx) (.settled w .blind) (hold hc rfl) fun _ _ => callAt_setCall
  | serialized i rest w ref m _ hc _ _ =>
    exact h.of_call hg (fun _ hx => hx) (.writing w m.serialize) (hold hc rfl) fun _ _ => callAt_setCall
  | replied i rest w blob outcome _ hc =>
    exact h.of_call hg (fun _ hx => hx) (.settled w outcome) (hold hc rfl) fun _ _ => callAt_setCall
  | keeps i site w outcome hc _ =>
    refine h.of_call hg (fun _ hx => hx) (.ended w outcome) (fun ref hx => ?_) fun _ _ => callAt_setCall
    exact h.calls i _ (callAt_of_call hc) ref (CallState.ended_ref hx ▸ rfl)
  | evicts i site w outcome hc _ =>
    refine h.of_call hg (fun _ hx => by cases hx) (.ended w outcome) (fun ref hx => ?_) fun _ _ => callAt_setCall
    exact h.calls i _ (callAt_of_call hc) ref (CallState.ended_ref hx ▸ rfl)
  | rollsBack i site w outcome blob m hc _ _ _ =>
    refine h.of_call hg (fun _ hx => by cases hx) (.ended w outcome) (fun ref hx => ?_) fun _ _ => callAt_setCall
    exact h.calls i _ (callAt_of_call hc) ref (CallState.ended_ref hx ▸ rfl)
  | proceeds i w site hc =>
    exact h.of_call hg (fun _ hx => hx) (.holding ⟨w.ref, none, []⟩) (hold hc rfl) fun _ _ => callAt_set
  | wrote state => exact h.of_call hg (fun _ hx => hx) .done (fun _ hx => by cases hx) fun _ _ => .inr
  | noState => exact h.of_call hg (fun _ hx => hx) .done (fun _ hx => by cases hx) fun _ _ => callAt_setCall
  | undecodable => exact h.of_call hg (fun _ hx => hx) .dropping (fun _ hx => by cases hx) fun _ _ => callAt_setCall
  | decoded i blob m _ _ _ =>
    exact h.of_call hg (fun _ hx => hx) (.hydrating m blob) (fun _ hx => by cases hx) fun _ _ => callAt_setCall
  | dropped => exact h.of_call hg (fun _ hx => hx) .done (fun _ hx => by cases hx) fun _ _ => callAt_setCall

/-- the node that created the match, or one that has not seen it -/
inductive Fresh : MatchService → Prop where
  | idle (state : Option WireMatch) : Fresh (idle state)
  | created (matchId roomId : String) (players : List PlayerInfo) : Fresh (createMatch matchId roomId players)

theorem Fresh.no_calls {s : MatchService} (h : Fresh s) (i : ℕ) : s.callAt i = none := by
  cases h <;> rfl

theorem Fresh.refInv {s : MatchService} (h : Fresh s) : RefInv s := by
  refine ⟨?_, fun i c hc => by rw [h.no_calls] at hc; cases hc⟩
  intro ref hs
  cases h with
  | idle state => cases hs
  | created matchId roomId players =>
    obtain rfl : 0 = ref := Option.some.inj hs
    exact Nat.one_pos

end MatchService

end Arena.Api
