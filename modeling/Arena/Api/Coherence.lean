/-
What a node stores and what it serves from memory.

`persistStateMachine` does not take the machine of its caller: it serializes the object the map holds when its turn
comes. And a caller whose persist is not APPLIED drops its writes only where its call site says so.

- `step_persistInv`: with the caller's own object in the map at every serialization, a blob in flight holds what its
  caller logged;
- `applied_persist_contains`: then an APPLIED persist stores it;
- `two_machines_lose_write`: two calls that miss the cache together, and an APPLIED persist without the caller's event;
- `step_cleanInv`, `failed_persist_leaves_no_trace`: when every failed persist is cleaned up and a hydration installs
  what is still stored, no later call is given a machine with abandoned writes;
- `refused_write_is_served`: `startMatchLoop`, like the other calls of the game loop, returns after a RETRY, and the next
  call is given its unpersisted transition.
-/
import Arena.Api.MatchService

namespace Arena.Api

open Arena.Lib Arena.Shared Arena.GameCore

/-! ## Statements -/

def CallState.queuedWork : CallState → Option Work
  | .queued w => some w
  | _ => none

def CallState.writingWork : CallState → Option Work
  | .writing w _ => some w
  | _ => none

def CallState.settlement : CallState → Option (Work × PersistOutcome)
  | .settled w outcome => some (w, outcome)
  | _ => none

def CallState.hydration : CallState → Option (Machine × WireMatch)
  | .hydrating m blob => some (m, blob)
  | _ => none

namespace MatchService

open Cluster (eventLogOf eventLogOf_serialize)

/-- the persist whose turn it is finds the map empty, or holding its caller's machine -/
def SameMachine (s : MatchService) : ServiceOp → Prop
  | .serialize => ∀ w ∈ (s.persistChain.head?.bind s.callAt).bind CallState.queuedWork,
      ∀ ref ∈ s.stateMachine, ref = w.ref
  | _ => True

/-- an APPLIED persist stores every event its caller's writes logged -/
def AppliedContains (s : MatchService) : ServiceOp → Prop
  | .reply .applied => ∀ w ∈ (s.persistChain.head?.bind s.callAt).bind CallState.writingWork,
      ∃ b ∈ (s.reply .applied).state, ∀ e ∈ w.logged, e ∈ eventLogOf b
  | _ => True

/-- a persist that was not APPLIED is cleaned up, and a hydration installs the blob that is still stored -/
def CleansUp (s : MatchService) : ServiceOp → Prop
  | .cleanup i => ∀ call ∈ s.calls[i]?, ∀ x ∈ call.2.settlement, x.2 ≠ .applied → x.1.undo ≠ none →
      call.1.cleanup x.2 = .keep → s.stateMachine ≠ some x.1.ref
  | .install i _ => ∀ x ∈ (s.callAt i).bind CallState.hydration, s.state = some x.2
  | _ => True

/-- a call is given a machine without abandoned writes from the map, or one with the log of the stored blob -/
def ServesCanonical (s : MatchService) : ServiceOp → Prop
  | .getStateMachine _ => ∀ ref ∈ s.stateMachine, CallState.abandoned ref ∉ s.calls.map Prod.snd
  | .install i key => ∀ x ∈ (s.callAt i).bind CallState.hydration,
      ∃ b ∈ s.state, (Cluster.rehydrated x.1 key).eventLog = eventLogOf b
  | _ => True

instance (s : MatchService) : (o : ServiceOp) → Decidable (SameMachine s o)
  | .serialize => inferInstanceAs (Decidable (∀ w ∈ (s.persistChain.head?.bind s.callAt).bind CallState.queuedWork,
      ∀ ref ∈ s.stateMachine, ref = w.ref))
  | .getStateMachine _ => .isTrue trivial
  | .readState _ => .isTrue trivial
  | .dropState _ => .isTrue trivial
  | .install _ _ => .isTrue trivial
  | .evictStateMachine => .isTrue trivial
  | .mutate _ _ => .isTrue trivial
  | .persistStateMachine _ => .isTrue trivial
  | .reply _ => .isTrue trivial
  | .cleanup _ => .isTrue trivial
  | .proceed _ _ => .isTrue trivial
  | .otherWrite _ => .isTrue trivial

instance (s : MatchService) : (o : ServiceOp) → Decidable (CleansUp s o)
  | .cleanup i => inferInstanceAs (Decidable (∀ call ∈ s.calls[i]?, ∀ x ∈ call.2.settlement, x.2 ≠ .applied →
      x.1.undo ≠ none → call.1.cleanup x.2 = .keep → s.stateMachine ≠ some x.1.ref))
  | .install i _ =>
    inferInstanceAs (Decidable (∀ x ∈ (s.callAt i).bind CallState.hydration, s.state = some x.2))
  | .getStateMachine _ => .isTrue trivial
  | .readState _ => .isTrue trivial
  | .dropState _ => .isTrue trivial
  | .evictStateMachine => .isTrue trivial
  | .mutate _ _ => .isTrue trivial
  | .persistStateMachine _ => .isTrue trivial
  | .serialize => .isTrue trivial
  | .reply _ => .isTrue trivial
  | .proceed _ _ => .isTrue trivial
  | .otherWrite _ => .isTrue trivial

/-! ## What an APPLIED persist stores -/

/-- while the object is in the map it has what the call logged, and a blob in flight has it -/
def CallKept (s : MatchService) : CallState → Prop
  | .holding w => s.stateMachine = some w.ref → ∀ m, s.heap[w.ref]? = some m → ∀ e ∈ w.logged, e ∈ m.eventLog
  | .queued w => s.stateMachine = some w.ref → ∀ m, s.heap[w.ref]? = some m → ∀ e ∈ w.logged, e ∈ m.eventLog
  | .writing w blob => ∀ e ∈ w.logged, e ∈ eventLogOf blob
  | _ => True

structure PersistInv (s : MatchService) : Prop where
  refs : RefInv s
  calls : ∀ i c, s.callAt i = some c → CallKept s c

theorem CallKept.grows {s s' : MatchService} (hg : Grows s s') {c : CallState}
    (hr : ∀ ref, c.ref = some ref → ref < s.heap.length) (h : CallKept s c) : CallKept s' c := by
  have hkept : ∀ w : Work, w.ref < s.heap.length →
      (s.stateMachine = some w.ref → ∀ m, s.heap[w.ref]? = some m → ∀ e ∈ w.logged, e ∈ m.eventLog) →
      s'.stateMachine = some w.ref → ∀ m, s'.heap[w.ref]? = some m → ∀ e ∈ w.logged, e ∈ m.eventLog := by
    intro w hlt hw hs m' hm' e he
    obtain ⟨m, hm, hlog⟩ := hg.log w.ref m' hlt hs hm'
    exact hlog.subset (hw (hg.map w.ref hlt hs) m hm e he)
  cases c with
  | holding w => exact hkept w (hr w.ref rfl) h
  | queued w => exact hkept w (hr w.ref rfl) h
  | writing w blob => exact h
  | _ => trivial

/-- a step changes one call, and keeps the others -/
theorem PersistInv.of_call {J : StringOps} {s s' : MatchService} {o : ServiceOp} (h : PersistInv s)
    (hm : Moved J s o s') (c : CallState) (hc : CallKept s' c)
    (hcalls : ∀ j c', s'.callAt j = some c' → c' = c ∨ s.callAt j = some c') : PersistInv s' := by
  refine ⟨hm.refInv h.refs, ?_⟩
  intro j c' hc'
  rcases hcalls j c' hc' with rfl | hold
  · exact hc
  · exact (h.calls j c' hold).grows hm.grows (h.refs.calls j c' hold)

theorem callKept_ended (s : MatchService) (w : Work) (outcome : PersistOutcome) :
    CallKept s (CallState.ended w outcome) := by
  unfold CallState.ended
  split_ifs <;> trivial

/-- **Every step whose persist serializes its caller's machine keeps the invariant.** -/
theorem step_persistInv (J : StringOps) (s : MatchService) (o : ServiceOp) (hg : SameMachine s o) (h : PersistInv s) :
    PersistInv (s.step J o) := by
  have hmoved := step_moved J s o
  generalize s.step J o = s' at hmoved
  have hof := h.of_call hmoved
  cases hmoved with
  | same => exact h
  | hit site ref hs =>
    exact hof (.holding ⟨ref, none, []⟩) (fun _ _ _ e he => by cases he) fun _ _ => callAt_append
  | miss => exact hof .reading trivial fun _ _ => callAt_append
  | installed i m blob key hc =>
    exact hof (.holding ⟨s.heap.length, none, []⟩) (fun _ _ _ e he => by cases he) fun _ _ => callAt_setCall
  | mutated i o w m hc hm ho =>
    refine hof (.holding (w.wrote m (m.step J o))) ?_ fun _ _ => callAt_setCall
    intro hs m' hm' e he
    have hkept : CallKept s (.holding w) := h.calls i _ hc
    obtain ⟨es, hlog, -⟩ := Machine.change_appends (Machine.step_change J m o)
    have hm' : m' = m.step J o := by
      simp only [setCall, Work.wrote_ref, List.getElem?_set, if_true, h.refs.calls i _ hc w.ref rfl] at hm'
      exact (Option.some.inj hm').symm
    rw [hm']
    rcases List.mem_append.1 he with he | he
    · rw [hlog]
      exact List.mem_append_left _ (hkept hs m hm e he)
    · exact List.mem_of_mem_drop he
  | queued i w hc =>
    have hkept : CallKept s (.holding w) := h.calls i _ hc
    exact hof (.queued w) hkept fun _ _ => callAt_setCall
  | serialized i rest w ref m hp hc hs hm =>
    have hkept : CallKept s (.queued w) := h.calls i _ hc
    have hw : w ∈ (s.persistChain.head?.bind s.callAt).bind CallState.queuedWork := by
      rw [hp, List.head?_cons, Option.bind_some, hc]
      rfl
    obtain rfl : ref = w.ref := hg w hw ref hs
    refine hof (.writing w m.serialize) ?_ fun _ _ => callAt_setCall
    intro e he
    rw [eventLogOf_serialize]
    exact hkept hs m hm e he
  | proceeds i w site hc =>
    exact hof (.holding ⟨w.ref, none, []⟩) (fun _ _ _ e he => by cases he) fun _ _ => callAt_set
  | keeps i site w outcome => exact hof _ (callKept_ended _ w outcome) fun _ _ => callAt_setCall
  | evicts i site w outcome => exact hof _ (callKept_ended _ w outcome) fun _ _ => callAt_setCall
  | rollsBack i site w outcome => exact hof _ (callKept_ended _ w outcome) fun _ _ => callAt_setCall
  | blind i rest w => exact hof (.settled w .blind) trivial fun _ _ => callAt_setCall
  | replied i rest w blob outcome => exact hof (.settled w outcome) trivial fun _ _ => callAt_setCall
  | noState => exact hof .done trivial fun _ _ => callAt_setCall
  | undecodable => exact hof .dropping trivial fun _ _ => callAt_setCall
  | decoded i blob m => exact hof (.hydrating m blob) trivial fun _ _ => callAt_setCall
  | dropped => exact hof .done trivial fun _ _ => callAt_setCall
  | evicted => exact hof .done trivial fun _ _ => .inr
  | wrote state => exact hof .done trivial fun _ _ => .inr

/-- **An APPLIED persist contains its caller's writes.** In every run of the node in which each persist that is
serialized finds the map empty or holding the machine of its caller, every APPLIED persist stores a blob with all the
events its caller logged. -/
theorem applied_persist_contains (J : StringOps) (s : MatchService) (ops : List ServiceOp) (h0 : Fresh s)
    (hg : Along (step J) SameMachine s ops) : Along (step J) AppliedContains s ops := by
  have hinv : PersistInv s := ⟨h0.refInv, fun i c hc => by rw [h0.no_calls] at hc; cases hc⟩
  refine along_of_inv (step J) SameMachine AppliedContains PersistInv (step_persistInv J) ?_ s ops hg hinv
  intro s o _ h
  cases o with
  | reply outcome =>
    cases outcome with
    | applied =>
      intro w hw
      obtain ⟨c, hc, hw⟩ := Option.bind_eq_some_iff.1 hw
      obtain ⟨i, hi, hc⟩ := Option.bind_eq_some_iff.1 hc
      obtain ⟨rest, hp⟩ := List.head?_eq_some_iff.1 hi
      cases c with
      | writing x blob =>
        obtain rfl : x = w := Option.some.inj hw
        have hkept : CallKept s (.writing x blob) := h.calls i _ hc
        refine ⟨blob, ?_, hkept⟩
        simp only [reply, hp, hc]
        rfl
      | _ => cases hw
    | _ => trivial
  | _ => trivial

/-- the blob of a two-player match in the lobby -/
def lobby : WireMatch := (Machine.create "m1" "r1" [freshPlayer "alice", freshPlayer "bob"]).serialize

/-- a disconnect of `player` by the i-th call -/
def disconnects (i : ℕ) (player : String) : List ServiceOp :=
  [.mutate i (.disconnectPlayer player fun _ => 0), .persistStateMachine i]

theorem applied_persist_contains_alice :
    let ops : List ServiceOp := [.getStateMachine .disconnectMatchPlayer, .readState 0, .install 0 none] ++
      disconnects 0 "alice" ++ [.serialize, .reply .applied]
    ((run (step StringOps.ascii) (idle (some lobby)) ops).state.map eventLogOf).map List.length = some 1 ∧
      Along (step StringOps.ascii) AppliedContains (idle (some lobby)) ops := by
  refine ⟨by decide +kernel, ?_⟩
  exact applied_persist_contains StringOps.ascii (idle (some lobby)) _ (.idle _) (by decide +kernel)

/-- two calls miss the cache; the second machine takes the place of the first before its persist is serialized -/
def twoMisses : List ServiceOp :=
  [.getStateMachine .disconnectMatchPlayer, .getStateMachine .disconnectMatchPlayer, .readState 0, .readState 1,
    .install 0 none] ++ disconnects 0 "alice" ++ [.install 1 none, .serialize]

/-- **Two machines, one write.** The persist of alice's disconnect is APPLIED with a blob that does not have it. -/
theorem two_machines_lose_write :
    Fresh (idle (some lobby)) ∧
      ¬Along (step StringOps.ascii) AppliedContains (idle (some lobby)) (twoMisses ++ [.reply .applied]) := by
  refine ⟨.idle _, fun h => ?_⟩
  have hlast : AppliedContains (run (step StringOps.ascii) (idle (some lobby)) twoMisses) (.reply .applied) :=
    ((along_append _ _ _ twoMisses [.reply .applied]).1 h).2.1
  revert hlast
  simp only [AppliedContains]
  decide +kernel

/-! ## What is served from memory -/

/-- abandoned objects are out of the map, and a hydration has the log of the blob it read -/
def CallClean (s : MatchService) : CallState → Prop
  | .abandoned ref => s.stateMachine ≠ some ref
  | .hydrating m blob => m.eventLog = eventLogOf blob
  | _ => True

structure CleanInv (s : MatchService) : Prop where
  refs : RefInv s
  calls : ∀ i c, s.callAt i = some c → CallClean s c

theorem CallClean.grows {s s' : MatchService} (hg : Grows s s') {c : CallState}
    (hr : ∀ ref, c.ref = some ref → ref < s.heap.length) (h : CallClean s c) : CallClean s' c := by
  cases c with
  | abandoned ref => exact fun hs => h (hg.map ref (hr ref rfl) hs)
  | hydrating m blob => exact h
  | _ => trivial

theorem CleanInv.of_call {J : StringOps} {s s' : MatchService} {o : ServiceOp} (h : CleanInv s)
    (hm : Moved J s o s') (c : CallState) (hc : CallClean s' c)
    (hcalls : ∀ j c', s'.callAt j = some c' → c' = c ∨ s.callAt j = some c') : CleanInv s' := by
  refine ⟨hm.refInv h.refs, ?_⟩
  intro j c' hc'
  rcases hcalls j c' hc' with rfl | hold
  · exact hc
  · exact (h.calls j c' hold).grows hm.grows (h.refs.calls j c' hold)

/-- a call that ends leaves its object out of the map, unless it wrote nothing or was APPLIED -/
theorem callClean_ended {s : MatchService} {w : Work} {outcome : PersistOutcome}
    (h : outcome ≠ .applied → w.undo ≠ none → s.stateMachine ≠ some w.ref) :
    CallClean s (CallState.ended w outcome) := by
  unfold CallState.ended
  split_ifs with hx
  · exact h hx.1 hx.2
  · trivial

/-- **Every step that cleans up keeps abandoned objects out of the map.** -/
theorem step_cleanInv (J : StringOps) (s : MatchService) (o : ServiceOp) (hg : CleansUp s o) (h : CleanInv s) :
    CleanInv (s.step J o) := by
  have hmoved := step_moved J s o
  generalize s.step J o = s' at hmoved
  have hof := h.of_call hmoved
  cases hmoved with
  | same => exact h
  | hit site ref hs => exact hof (.holding ⟨ref, none, []⟩) trivial fun _ _ => callAt_append
  | miss => exact hof .reading trivial fun _ _ => callAt_append
  | installed i m blob key hc => exact hof (.holding ⟨s.heap.length, none, []⟩) trivial fun _ _ => callAt_setCall
  | mutated i o w m hc hm ho => exact hof (.holding (w.wrote m (m.step J o))) trivial fun _ _ => callAt_setCall
  | queued i w hc => exact hof (.queued w) trivial fun _ _ => callAt_setCall
  | serialized i rest w ref m => exact hof (.writing w m.serialize) trivial fun _ _ => callAt_setCall
  | proceeds i w site hc => exact hof (.holding ⟨w.ref, none, []⟩) trivial fun _ _ => callAt_set
  | keeps i site w outcome hc hk =>
    refine hof _ (callClean_ended fun ha hu => ?_) fun _ _ => callAt_setCall
    exact hg (site, .settled w outcome) hc (w, outcome) rfl ha hu hk
  | evicts i site w outcome => exact hof _ (callClean_ended fun _ _ hs => by cases hs) fun _ _ => callAt_setCall
  | rollsBack i site w outcome => exact hof _ (callClean_ended fun _ _ hs => by cases hs) fun _ _ => callAt_setCall
  | blind i rest w => exact hof (.settled w .blind) trivial fun _ _ => callAt_setCall
  | replied i rest w blob outcome => exact hof (.settled w outcome) trivial fun _ _ => callAt_setCall
  | noState => exact hof .done trivial fun _ _ => callAt_setCall
  | undecodable => exact hof .dropping trivial fun _ _ => callAt_setCall
  | decoded i blob m hc hs hd => exact hof (.hydrating m blob) (Machine.deserialize_decoded hd).1 fun _ _ => callAt_setCall
  | dropped => exact hof .done trivial fun _ _ => callAt_setCall
  | evicted => exact hof .done trivial fun _ _ => .inr
  | wrote state => exact hof .done trivial fun _ _ => .inr

/-- **A failed persist leaves no trace in memory.** In every run of the node in which every persist that is not APPLIED
is cleaned up by its call site, and every hydration installs the blob that is still stored, no call is given a machine
with abandoned writes, and a call that loads its machine is given the log of the stored blob. -/
theorem failed_persist_leaves_no_trace (J : StringOps) (s : MatchService) (ops : List ServiceOp) (h0 : Fresh s)
    (hg : Along (step J) CleansUp s ops) : Along (step J) ServesCanonical s ops := by
  have hinv : CleanInv s := ⟨h0.refInv, fun i c hc => by rw [h0.no_calls] at hc; cases hc⟩
  refine along_of_inv (step J) CleansUp ServesCanonical CleanInv (step_cleanInv J) ?_ s ops hg hinv
  intro s o ho h
  cases o with
  | getStateMachine site =>
    intro ref hs hmem
    obtain ⟨call, hcall, hx⟩ := List.mem_map.1 hmem
    obtain ⟨i, hi⟩ := List.mem_iff_getElem?.1 hcall
    have hclean := h.calls i (.abandoned ref) (by rw [callAt, hi, ← hx]; rfl)
    exact hclean hs
  | install i key =>
    intro x hx
    obtain ⟨c, hc, hy⟩ := Option.bind_eq_some_iff.1 hx
    refine ⟨x.2, ho x hx, ?_⟩
    rw [Cluster.rehydrated_eventLog]
    cases c with
    | hydrating m blob =>
      obtain rfl : (m, blob) = x := Option.some.inj hy
      exact h.calls i _ hc
    | _ => cases hy
  | _ => trivial

/-- alice's disconnect is refused and its call site evicts -/
def refused : List ServiceOp :=
  [.getStateMachine .disconnectMatchPlayer, .readState 0, .install 0 none] ++ disconnects 0 "alice" ++
    [.serialize, .reply .retry, .cleanup 0]

theorem failed_persist_leaves_no_trace_alice :
    (run (step StringOps.ascii) (idle (some lobby)) refused).callAt 0 = some (.abandoned 0) ∧
      Along (step StringOps.ascii) ServesCanonical (idle (some lobby))
        (refused ++ [.getStateMachine .applyAnswerCommand, .readState 1, .install 1 none]) := by
  refine ⟨by decide +kernel, ?_⟩
  exact failed_persist_leaves_no_trace StringOps.ascii (idle (some lobby)) _ (.idle _) (by decide +kernel)

/-- `startMatchLoop` enters the countdown and its persist is refused -/
def startRefused : List ServiceOp :=
  [.getStateMachine .startMatchLoop, .readState 0, .install 0 none, .mutate 0 (.transition .countdown fun _ => 0),
    .persistStateMachine 0, .serialize, .reply .retry, .cleanup 0]

/-- **A phantom transition is served.** After the RETRY the machine stays in the map, and the next call is given a match
in COUNTDOWN whose stored blob is still in CREATED. -/
theorem refused_write_is_served :
    Fresh (idle (some lobby)) ∧
      ¬Along (step StringOps.ascii) ServesCanonical (idle (some lobby))
        (startRefused ++ [.getStateMachine .applyAnswerCommand]) ∧
      (run (step StringOps.ascii) (idle (some lobby)) startRefused).heap.map (fun m => m.state.status) = [.countdown] ∧
      (run (step StringOps.ascii) (idle (some lobby)) startRefused).state = some lobby := by
  refine ⟨.idle _, fun h => ?_, by decide +kernel, by decide +kernel⟩
  have hlast : ServesCanonical (run (step StringOps.ascii) (idle (some lobby)) startRefused)
      (.getStateMachine .applyAnswerCommand) := ((along_append _ _ _ startRefused [_]).1 h).2.1
  revert hlast
  simp only [ServesCanonical]
  decide +kernel

end MatchService

end Arena.Api
