/-
What a step of the command stream can do, said once.

- `Moved`: a step leaves the stored blob or replaces it by one that was being written, and changes one node in one of
  the listed ways;
- `Grown`: every copy of the machine after a step (stored, cached, being written, being loaded) is a copy from before
  it, or one that an apply, another call, a decode or an answer key has changed. A property of copies that these keep
  holds of all copies along every run, whatever the persists return and whoever owns the match (`step_every`).
-/
import Arena.Api.Commands

namespace Arena.Api

open Arena.Lib Arena.Shared Arena.GameCore

/-- a copy that a node has cached, is writing or is loading -/
def Consumer.Has (node : Consumer) (c : Copy) : Prop :=
  node.machine = some c ∨ (∃ d, node.delivery = some d ∧ d.stage = .writing c) ∨ c ∈ node.writes ∨ c ∈ node.hydrations

/-! ## Writes -/

theorem Copy.mem_commands {c : Copy} {e : StreamEntry} : e ∈ c.commands ↔ ∃ x ∈ c.trace, x.cause = .command e := by
  unfold Copy.commands
  rw [List.mem_filterMap]
  refine exists_congr fun x => and_congr_right fun _ => ?_
  cases x.cause <;> simp

theorem Copy.write_same (c : Copy) (cause : Cause) : c.write cause c.machine = c := by simp [Copy.write]

theorem Copy.write_of_ne {c : Copy} {m : Machine} (h : m ≠ c.machine) (cause : Cause) :
    c.write cause m =
      ⟨m, c.trace ++ [⟨cause, c.machine.eventLog.length, m.eventLog.drop c.machine.eventLog.length⟩]⟩ := by
  simp [Copy.write, h]

@[simp] theorem Copy.write_machine (c : Copy) (cause : Cause) (m : Machine) : (c.write cause m).machine = m := by
  unfold Copy.write
  split_ifs with h
  · exact h.symm
  · rfl

/-- a write adds the commands of its cause, if it changes anything -/
theorem Copy.mem_commands_write {c : Copy} {cause : Cause} {m : Machine} {e : StreamEntry} :
    e ∈ (c.write cause m).commands ↔ e ∈ c.commands ∨ (m ≠ c.machine ∧ cause = .command e) := by
  by_cases h : m = c.machine
  · rw [h, Copy.write_same]
    simp
  · rw [Copy.write_of_ne h]
    simp only [Copy.mem_commands, List.mem_append, List.mem_singleton]
    constructor
    · rintro ⟨x, hx | rfl, hc⟩
      · exact .inl ⟨x, hx, hc⟩
      · exact .inr ⟨h, hc⟩
    · rintro (⟨x, hx, hc⟩ | ⟨-, hc⟩)
      · exact ⟨x, .inl hx, hc⟩
      · exact ⟨_, .inr rfl, hc⟩

namespace Commands

/-! ## What a step can do -/

/-- the steps that take the stored blob away: it expires, or a read finds that it does not decode -/
def Drops (J : StringOps) (s : Commands) : CommandOp → Prop
  | .expire => True
  | .readState _ => ∀ c m, s.state = some c → Machine.deserialize J (some c.machine.serialize) ≠ .ok m
  | .missing _ => ∀ c m, s.state = some c → Machine.deserialize J (some c.machine.serialize) ≠ .ok m
  | _ => False

/-- blob and stored commands after a step that writes no blob -/
def Kept (J : StringOps) (s : Commands) (o : CommandOp) (st : Option Copy × List StreamEntry) : Prop :=
  st = (s.state, s.stored) ∨ (Drops J s o ∧ st = (none, s.stored))

theorem Kept.refl (J : StringOps) (s : Commands) (o : CommandOp) : Kept J s o (s.state, s.stored) := .inl rfl

/-- blob and stored commands after the reply of a persist -/
def afterReply (s : Commands) (blob : Copy) (outcome : PersistOutcome) : Option Copy × List StreamEntry :=
  if outcome.written then (some blob, blob.commands ++ s.stored) else (s.state, s.stored)

/-- a step leaves a blob and the stored commands, and changes one node -/
inductive Moved (J : StringOps) (s : Commands) :
    CommandOp → Option Copy × List StreamEntry → String → Consumer → Prop where
  | same (o : CommandOp) (n : String) (st : Option Copy × List StreamEntry) (hst : Kept J s o st) :
      Moved J s o st n (s.nodes n)
  | delivered (n : String) (id : ℕ) (e : StreamEntry) (he : s.stream[id]? = some (some e))
      (hd : (s.nodes n).delivery = none) :
      Moved J s (.deliver n id) (s.state, s.stored) n { s.nodes n with delivery := some ⟨e, false, .checking⟩ }
  | staged (o : CommandOp) (n : String) (d : Delivery) (stage : Stage) (st : Option Copy × List StreamEntry)
      (hst : Kept J s o st) (hd : (s.nodes n).delivery = some d) (hfrom : d.stage.canAbort = true)
      (hto : stage.canAbort = true) :
      Moved J s o st n { s.nodes n with delivery := some { d with stage := stage } }
  | ended (o : CommandOp) (n : String) (d : Delivery) (st : Option Copy × List StreamEntry) (hst : Kept J s o st)
      (hd : (s.nodes n).delivery = some d) (hfrom : d.stage.canAbort = true) :
      Moved J s o st n { s.nodes n with delivery := none }
  | looked (n : String) (now : Clock) (d : Delivery) (c : Copy) (hd : (s.nodes n).delivery = some d)
      (hs : d.stage = .fetching) (hm : (s.nodes n).machine = some c) :
      Moved J s (.look n now) (s.state, s.stored) n { s.nodes n with
        machine := some (c.write (.command d.entry) (dispatchBuiltin J c.machine d.entry.envelope now).1)
        delivery := some ⟨d.entry, (dispatchBuiltin J c.machine d.entry.envelope now).1 ≠ c.machine,
          (dispatchBuiltin J c.machine d.entry.envelope now).2.stage⟩ }
  | blind (n : String) (d : Delivery) (hd : (s.nodes n).delivery = some d) (hs : d.stage = .queued)
      (hm : (s.nodes n).machine = none) :
      Moved J s (.takeBlob n) (s.state, s.stored) n
        { s.nodes n with delivery := some { d with stage := .settled .blind } }
  | took (n : String) (d : Delivery) (c : Copy) (hd : (s.nodes n).delivery = some d) (hs : d.stage = .queued)
      (hm : (s.nodes n).machine = some c) :
      Moved J s (.takeBlob n) (s.state, s.stored) n
        { s.nodes n with delivery := some { d with stage := .writing c } }
  | replied (n : String) (d : Delivery) (blob : Copy) (outcome : PersistOutcome)
      (hd : (s.nodes n).delivery = some d) (hs : d.stage = .writing blob) :
      Moved J s (.reply n outcome) (s.afterReply blob outcome) n
        { s.nodes n with delivery := some { d with stage := .settled outcome } }
  | settled (n : String) (d : Delivery) (hd : (s.nodes n).delivery = some d) (hs : d.stage = .settled .applied) :
      Moved J s (.finish n) (s.state, s.stored) n { s.nodes n with delivery := some { d with stage := .marking } }
  | threw (n : String) (d : Delivery) (written : Bool) (hd : (s.nodes n).delivery = some d)
      (hs : d.stage = .settled (.threw written)) :
      Moved J s (.finish n) (s.state, s.stored) n { s.nodes n with delivery := none }
  | refused (n : String) (d : Delivery) (outcome : PersistOutcome) (hd : (s.nodes n).delivery = some d)
      (hs : d.stage = .settled outcome) :
      Moved J s (.finish n) (s.state, s.stored) n { s.nodes n with machine := none, delivery := none }
  | crashed (n : String) : Moved J s (.crash n) (s.state, s.stored) n Consumer.idle
  | called (n : String) (c : Copy) (o : Op) (hm : (s.nodes n).machine = some c)
      (hw : MatchService.isWrite o = true) :
      Moved J s (.call n o) (s.state, s.stored) n
        { s.nodes n with machine := some (c.write (causeOf s.delivered o) (c.machine.step J o)) }
  | botAnswered (n : String) (sim : BotAnswer) (now : Clock) (c : Copy) (hm : (s.nodes n).machine = some c) :
      Moved J s (.botAnswer n sim now) (s.state, s.stored) n { s.nodes n with
        machine := some (c.write (.botAnswer sim)
          (c.machine.step J (.submitAnswer sim.userId sim.answer (now 0) (some sim.submissionId) (laterClock now)))) }
  | persisting (n : String) (c : Copy) (hm : (s.nodes n).machine = some c) :
      Moved J s (.persist n) (s.state, s.stored) n { s.nodes n with writes := (s.nodes n).writes ++ [c] }
  | persisted (n : String) (i : ℕ) (blob : Copy) (outcome : PersistOutcome)
      (hb : (s.nodes n).writes[i]? = some blob) :
      Moved J s (.persisted n i outcome) (s.afterReply blob outcome) n
        { s.nodes n with writes := (s.nodes n).writes.eraseIdx i }
  | evicted (n : String) :
      Moved J s (.evictStateMachine n) (s.state, s.stored) n { s.nodes n with machine := none }
  | missed (n : String) :
      Moved J s (.getStateMachine n) (s.state, s.stored) n { s.nodes n with reads := (s.nodes n).reads + 1 }
  | unread (n : String) (st : Option Copy × List StreamEntry) (hst : Kept J s (.readState n) st) :
      Moved J s (.readState n) st n { s.nodes n with reads := (s.nodes n).reads - 1 }
  | decoded (n : String) (c : Copy) (m : Machine) (hs : s.state = some c)
      (hm : Machine.deserialize J (some c.machine.serialize) = .ok m) :
      Moved J s (.readState n) (s.state, s.stored) n { s.nodes n with
        reads := (s.nodes n).reads - 1, hydrations := (s.nodes n).hydrations ++ [⟨m, c.trace⟩] }
  | installed (n : String) (i : ℕ) (key : Option String) (c : Copy) (hi : (s.nodes n).hydrations[i]? = some c) :
      Moved J s (.install n i key) (s.state, s.stored) n { s.nodes n with
        machine := some ⟨Cluster.rehydrated c.machine key, c.trace⟩
        hydrations := (s.nodes n).hydrations.eraseIdx i }

/-- a state is what a move leaves -/
def MovesTo (J : StringOps) (s : Commands) (o : CommandOp) (s' : Commands) : Prop :=
  ∃ st n node, s'.state = st.1 ∧ s'.stored = st.2 ∧ s'.nodes = Function.update s.nodes n node ∧ Moved J s o st n node

variable {J : StringOps} {s : Commands}

theorem MovesTo.stay {o : CommandOp} {s' : Commands} (h1 : s'.state = s.state) (h2 : s'.stored = s.stored)
    (h3 : s'.nodes = s.nodes) : MovesTo J s o s' :=
  ⟨(s.state, s.stored), "", s.nodes "", h1, h2, by rw [h3, Function.update_eq_self], .same o "" _ (.refl J s o)⟩

theorem MovesTo.node {o : CommandOp} {n : String} {node : Consumer} (h : Moved J s o (s.state, s.stored) n node) :
    MovesTo J s o (s.setNode n node) := ⟨_, n, node, rfl, rfl, rfl, h⟩

theorem MovesTo.storing {o : CommandOp} {n : String} {node : Consumer} {blob : Copy} {outcome : PersistOutcome}
    (h : Moved J s o (s.afterReply blob outcome) n node) : MovesTo J s o ((s.store blob outcome).setNode n node) := by
  refine ⟨_, n, node, ?_, ?_, ?_, h⟩
  all_goals
    simp only [store, afterReply, setNode]
    split_ifs <;> rfl

theorem append_moves (o : CommandOp) (env : CommandEnvelope) (roundNo : Option ℕ) :
    MovesTo J s o (s.append env roundNo) := by
  unfold append
  split_ifs
  · exact .stay rfl rfl rfl
  · exact .stay rfl rfl rfl

theorem handleSubmitAnswer_moves (n userId : String) (payload : SubmitAnswerPayload) (eventId : String) (now : Time) :
    MovesTo J s (.handleSubmitAnswer n userId payload eventId now)
      (s.handleSubmitAnswer n userId payload eventId now) := by
  unfold handleSubmitAnswer
  split
  · exact .stay rfl rfl rfl
  · split_ifs
    · exact .stay rfl rfl rfl
    · exact append_moves _ _ _
    · exact .stay rfl rfl rfl

theorem forward_moves (env : CommandEnvelope) : MovesTo J s (.forward env) (s.forward env) := by
  unfold forward
  split
  · exact .stay rfl rfl rfl
  · exact append_moves _ _ _

theorem deadLetter_moves (id : ℕ) : MovesTo J s (.deadLetter id) (s.deadLetter id) := by
  unfold deadLetter
  split
  · exact .stay rfl rfl rfl
  · exact .stay rfl rfl rfl

theorem deliver_moves (n : String) (id : ℕ) : MovesTo J s (.deliver n id) (s.deliver n id) := by
  unfold deliver
  split
  · rename_i e he hd
    split_ifs
    · exact .stay rfl rfl rfl
    · exact ⟨_, n, _, rfl, rfl, rfl, .delivered n id e he hd⟩
  · exact .stay rfl rfl rfl

theorem sismember_moves (n : String) : MovesTo J s (.sismember n) (s.sismember n) := by
  unfold sismember
  split
  · rename_i d hd
    split
    · rename_i hs
      have hfrom : d.stage.canAbort = true := by rw [hs]; rfl
      have go : ∀ stage : Stage, stage.canAbort = true → MovesTo J s (.sismember n) (s.setStage n d stage) :=
        fun stage hto => .node (.staged _ n d stage _ (.refl ..) hd hfrom hto)
      split_ifs
      · split
        · exact go _ rfl
        · exact go _ rfl
      · exact go _ rfl
    · exact .stay rfl rfl rfl
  · exact .stay rfl rfl rfl

theorem missing_moves (n : String) : MovesTo J s (.missing n) (s.missing J n) := by
  unfold missing
  split
  · exact .stay rfl rfl rfl
  · exact .stay rfl rfl rfl
  · rename_i hm hdecode
    have hdrop : Drops J s (.missing n) := by
      intro c m hs hok
      refine hdecode m ?_
      rw [hs, Option.map_some, hok]
    have hst : Kept J s (.missing n) (none, s.stored) := .inr ⟨hdrop, rfl⟩
    unfold withoutMachine
    have stays : MovesTo J s (.missing n) { s with state := none } :=
      ⟨(none, s.stored), "", s.nodes "", rfl, rfl, (Function.update_eq_self "" s.nodes).symm, .same _ "" _ hst⟩
    split
    · rename_i d hd
      have go : ∀ stage : Stage, d.stage.canAbort = true → stage.canAbort = true →
          MovesTo J s (.missing n) ({ s with state := none }.setStage n d stage) :=
        fun stage hfrom hto => ⟨_, n, _, rfl, rfl, rfl, .staged _ n d stage _ hst hd hfrom hto⟩
      have stop : d.stage.canAbort = true → MovesTo J s (.missing n) ({ s with state := none }.endDelivery n) :=
        fun hfrom => ⟨_, n, _, rfl, rfl, rfl, .ended _ n d _ hst hd hfrom⟩
      split
      · rename_i hs _
        exact go _ (by rw [hs]; rfl) rfl
      · rename_i hs _
        exact stop (by rw [hs]; rfl)
      · rename_i hs _
        exact stop (by rw [hs]; rfl)
      · rename_i hs _
        exact stop (by rw [hs]; rfl)
      · rename_i hs _ _
        exact go _ (by rw [hs]; rfl) rfl
      · exact stays
    · exact stays

theorem look_moves (n : String) (now : Clock) : MovesTo J s (.look n now) (s.look J n now) := by
  unfold look
  split
  · rename_i d c hd hm
    split
    · rename_i hs
      exact .node (.looked n now d c hd hs hm)
    · exact .stay rfl rfl rfl
  · exact .stay rfl rfl rfl

theorem takeBlob_moves (n : String) : MovesTo J s (.takeBlob n) (s.takeBlob n) := by
  unfold takeBlob
  split
  · rename_i d hd
    split
    · rename_i hs
      split
      · rename_i hm
        exact .node (.blind n d hd hs hm)
      · rename_i c hm
        exact .node (.took n d c hd hs hm)
    · exact .stay rfl rfl rfl
  · exact .stay rfl rfl rfl

theorem reply_moves (n : String) (outcome : PersistOutcome) :
    MovesTo J s (.reply n outcome) (s.reply n outcome) := by
  unfold reply
  split
  · rename_i d hd
    split
    · rename_i blob hs
      have hnode : (s.store blob outcome).nodes = s.nodes := by
        unfold store
        split_ifs <;> rfl
      rw [setStage, hnode]
      exact .storing (.replied n d blob outcome hd hs)
    · exact .stay rfl rfl rfl
  · exact .stay rfl rfl rfl

theorem finish_moves (n : String) : MovesTo J s (.finish n) (s.finish n) := by
  unfold finish
  split
  · rename_i d hd
    split
    · rename_i hs
      exact .node (.settled n d hd hs)
    · rename_i written hs
      exact .node (.threw n d written hd hs)
    · rename_i outcome _ _ hs
      exact .node (.refused n d outcome hd hs)
    · exact .stay rfl rfl rfl
  · exact .stay rfl rfl rfl

theorem sadd_moves (n : String) (ok : Bool) : MovesTo J s (.sadd n ok) (s.sadd n ok) := by
  unfold sadd
  split
  · rename_i d hd
    split
    · rename_i hs
      exact ⟨_, n, _, rfl, rfl, rfl, .staged _ n d _ _ (.refl ..) hd (by rw [hs]; rfl) rfl⟩
    · exact .stay rfl rfl rfl
  · exact .stay rfl rfl rfl

theorem recover_moves (n : String) (held : Bool) : MovesTo J s (.recover n held) (s.recover n held) := by
  unfold recover
  split
  · rename_i d c hd hm
    split
    · rename_i hs
      have hfrom : d.stage.canAbort = true := by rw [hs]; rfl
      split_ifs
      · exact .node (.staged _ n d _ _ (.refl ..) hd hfrom rfl)
      · exact .node (.ended _ n d _ (.refl ..) hd hfrom)
    · exact .stay rfl rfl rfl
  · exact .stay rfl rfl rfl

theorem xack_moves (n : String) : MovesTo J s (.xack n) (s.xack n) := by
  unfold xack
  split
  · rename_i d hd
    split
    · rename_i hs
      exact ⟨_, n, _, rfl, rfl, rfl, .ended _ n d _ (.refl ..) hd (by rw [hs]; rfl)⟩
    · exact .stay rfl rfl rfl
  · exact .stay rfl rfl rfl

theorem abort_moves (n : String) : MovesTo J s (.abort n) (s.abort n) := by
  unfold abort
  split
  · rename_i d hd
    split_ifs with hs
    · exact .node (.ended _ n d _ (.refl ..) hd hs)
    · exact .stay rfl rfl rfl
  · exact .stay rfl rfl rfl

theorem call_moves (n : String) (o : Op) : MovesTo J s (.call n o) (s.call J n o) := by
  unfold call
  split
  · rename_i c hm
    split_ifs with hw
    · exact .node (.called n c o hm hw)
    · exact .stay rfl rfl rfl
  · exact .stay rfl rfl rfl

theorem botAnswer_moves (n : String) (sim : BotAnswer) (now : Clock) :
    MovesTo J s (.botAnswer n sim now) (s.botAnswer J n sim now) := by
  unfold botAnswer
  split
  · rename_i c hm
    split
    · exact .stay rfl rfl rfl
    · split_ifs
      · exact .stay rfl rfl rfl
      · exact .node (.botAnswered n sim now c hm)
  · exact .stay rfl rfl rfl

theorem persist_moves (n : String) : MovesTo J s (.persist n) (s.persist n) := by
  unfold persist
  split
  · rename_i c hm
    exact .node (.persisting n c hm)
  · exact .stay rfl rfl rfl

theorem persisted_moves (n : String) (i : ℕ) (outcome : PersistOutcome) :
    MovesTo J s (.persisted n i outcome) (s.persisted n i outcome) := by
  unfold persisted
  split
  · rename_i blob hb
    exact .storing (.persisted n i blob outcome hb)
  · exact .stay rfl rfl rfl

theorem readState_moves (n : String) : MovesTo J s (.readState n) (s.readState J n) := by
  unfold readState
  split_ifs
  · exact .stay rfl rfl rfl
  · split
    · exact .node (.unread n _ (.refl ..))
    · rename_i c hs
      split
      · rename_i e he
        refine ⟨(none, s.stored), n, _, rfl, rfl, rfl, .unread n _ (.inr ⟨?_, rfl⟩)⟩
        intro c' m hs' hok
        rw [hs, Option.some.injEq] at hs'
        rw [hs', hok] at he
        cases he
      · rename_i m hm
        exact .node (.decoded n c m hs hm)

/-- every step is a move -/
theorem step_moves (J : StringOps) (s : Commands) (o : CommandOp) : MovesTo J s o (s.step J o) := by
  cases o with
  | handleSubmitAnswer n userId payload eventId now => exact handleSubmitAnswer_moves n userId payload eventId now
  | forward env => exact forward_moves env
  | forwardInvalid => exact .stay rfl rfl rfl
  | deadLetter id => exact deadLetter_moves id
  | deliver n id => exact deliver_moves n id
  | sismember n => exact sismember_moves n
  | missing n => exact missing_moves n
  | look n now => exact look_moves n now
  | takeBlob n => exact takeBlob_moves n
  | reply n outcome => exact reply_moves n outcome
  | finish n => exact finish_moves n
  | sadd n ok => exact sadd_moves n ok
  | recover n held => exact recover_moves n held
  | xack n => exact xack_moves n
  | abort n => exact abort_moves n
  | crash n => exact .node (.crashed n)
  | call n o => exact call_moves n o
  | botAnswer n sim now => exact botAnswer_moves n sim now
  | persist n => exact persist_moves n
  | persisted n i outcome => exact persisted_moves n i outcome
  | evictStateMachine n => exact .node (.evicted n)
  | getStateMachine n =>
    simp only [step, getStateMachine]
    split
    · exact .stay rfl rfl rfl
    · exact .node (.missed n)
  | readState n => exact readState_moves n
  | install n i key =>
    simp only [step, install]
    split
    · exact .stay rfl rfl rfl
    · rename_i c hi
      exact .node (.installed n i key c hi)
  | expire =>
    exact ⟨(none, s.stored), "", s.nodes "", rfl, rfl, (Function.update_eq_self "" s.nodes).symm,
      .same _ "" _ (.inr ⟨trivial, rfl⟩)⟩

/-! ## Copies -/

/-- a copy that is stored, cached, being written or being loaded -/
def Has (s : Commands) (c : Copy) : Prop := s.state = some c ∨ ∃ n, (s.nodes n).Has c

/-- how a copy after a step comes from one before it -/
inductive Grown (J : StringOps) (s : Commands) : CommandOp → Copy → Copy → Prop where
  | same (o : CommandOp) (c : Copy) : Grown J s o c c
  | applied (n : String) (now : Clock) (d : Delivery) (c : Copy) (hd : (s.nodes n).delivery = some d)
      (hs : d.stage = .fetching) (hm : (s.nodes n).machine = some c) :
      Grown J s (.look n now) c
        (c.write (.command d.entry) (dispatchBuiltin J c.machine d.entry.envelope now).1)
  | called (n : String) (o : Op) (c : Copy) (hm : (s.nodes n).machine = some c)
      (hw : MatchService.isWrite o = true) :
      Grown J s (.call n o) c (c.write (causeOf s.delivered o) (c.machine.step J o))
  | botAnswered (n : String) (sim : BotAnswer) (now : Clock) (c : Copy) (hm : (s.nodes n).machine = some c) :
      Grown J s (.botAnswer n sim now) c (c.write (.botAnswer sim)
        (c.machine.step J (.submitAnswer sim.userId sim.answer (now 0) (some sim.submissionId) (laterClock now))))
  | decoded (n : String) (c : Copy) (m : Machine) (hs : s.state = some c)
      (hm : Machine.deserialize J (some c.machine.serialize) = .ok m) : Grown J s (.readState n) c ⟨m, c.trace⟩
  | keyed (n : String) (i : ℕ) (key : Option String) (c : Copy) :
      Grown J s (.install n i key) c ⟨Cluster.rehydrated c.machine key, c.trace⟩

theorem Kept.has {o : CommandOp} {st : Option Copy × List StreamEntry} (h : Kept J s o st) {c : Copy}
    (hc : st.1 = some c) : s.state = some c := by
  rcases h with rfl | ⟨-, rfl⟩
  · exact hc
  · cases hc

/-- the blob after a step was stored or being written before it -/
theorem Moved.stored {o : CommandOp} {st : Option Copy × List StreamEntry} {n : String} {node : Consumer}
    (h : Moved J s o st n node) {c : Copy} (hc : st.1 = some c) : s.state = some c ∨ (s.nodes n).Has c := by
  have reply : ∀ {blob : Copy} {outcome : PersistOutcome}, (s.nodes n).Has blob →
      (s.afterReply blob outcome).1 = some c → s.state = some c ∨ (s.nodes n).Has c := by
    intro blob outcome hb hx
    unfold afterReply at hx
    split_ifs at hx
    · obtain rfl : blob = c := Option.some.inj hx
      exact .inr hb
    · exact .inl hx
  cases h with
  | same o n st hst => exact .inl (hst.has hc)
  | staged o n d stage st hst => exact .inl (hst.has hc)
  | ended o n d st hst => exact .inl (hst.has hc)
  | unread n st hst => exact .inl (hst.has hc)
  | replied n d blob outcome hd hs => exact reply (.inr (.inl ⟨d, hd, hs⟩)) hc
  | persisted n i blob outcome hb => exact reply (.inr (.inr (.inl (List.mem_of_getElem? hb)))) hc
  | _ => exact .inl hc

/-- a copy of the node after a step comes from one before it -/
theorem Moved.grown {o : CommandOp} {st : Option Copy × List StreamEntry} {n : String} {node : Consumer}
    (h : Moved J s o st n node) {c : Copy} (hc : node.Has c) :
    ∃ c', (s.state = some c' ∨ (s.nodes n).Has c') ∧ Grown J s o c' c := by
  have old : (s.nodes n).Has c → ∃ c', (s.state = some c' ∨ (s.nodes n).Has c') ∧ Grown J s o c' c :=
    fun hc => ⟨c, .inr hc, .same o c⟩
  have staged : ∀ {d : Delivery}, ({ s.nodes n with delivery := some d } : Consumer).Has c →
      (∀ blob, d.stage ≠ .writing blob) → (s.nodes n).Has c := by
    rintro d (hx | ⟨d', hd, hs⟩ | hx) hne
    · exact .inl hx
    · obtain rfl := Option.some.inj hd
      exact absurd hs (hne c)
    · exact .inr (.inr hx)
  have ended : ({ s.nodes n with delivery := none } : Consumer).Has c → (s.nodes n).Has c := by
    rintro (hx | ⟨d, hd, -⟩ | hx)
    · exact .inl hx
    · cases hd
    · exact .inr (.inr hx)
  have cached : ∀ {m : Option Copy}, ({ s.nodes n with machine := m } : Consumer).Has c →
      m = some c ∨ (s.nodes n).Has c := by
    rintro m (hx | hx)
    · exact .inl hx
    · exact .inr (.inr hx)
  cases h with
  | same => exact old hc
  | delivered n id e => exact old (staged hc (by simp))
  | staged o n d stage st hst hd hfrom hto =>
    refine old (staged hc ?_)
    rintro blob rfl
    cases hto
  | ended => exact old (ended hc)
  | looked n now d c0 hd hs hm =>
    rcases hc with hx | ⟨d', hd', hs'⟩ | hx
    · obtain rfl := Option.some.inj hx
      exact ⟨c0, .inr (.inl hm), .applied n now d c0 hd hs hm⟩
    · obtain rfl := Option.some.inj hd'
      generalize (dispatchBuiltin J c0.machine d.entry.envelope now).2 = v at hs'
      cases v <;> cases hs'
    · exact old (.inr (.inr hx))
  | blind n d => exact old (staged hc (by simp))
  | took n d c0 hd hs hm =>
    rcases hc with hx | ⟨d', hd', hs'⟩ | hx
    · exact old (.inl hx)
    · obtain rfl := Option.some.inj hd'
      obtain rfl := Stage.writing.inj hs'
      exact old (.inl hm)
    · exact old (.inr (.inr hx))
  | replied n d blob outcome => exact old (staged hc (by simp))
  | settled n d => exact old (staged hc (by simp))
  | threw => exact old (ended hc)
  | refused =>
    rcases hc with hx | ⟨d, hd, -⟩ | hx
    · cases hx
    · cases hd
    · exact old (.inr (.inr hx))
  | crashed =>
    rcases hc with hx | ⟨d, hd, -⟩ | hx | hx
    · cases hx
    · cases hd
    · cases hx
    · cases hx
  | called n c0 o hm hw =>
    rcases cached hc with hx | hx
    · obtain rfl := Option.some.inj hx
      exact ⟨c0, .inr (.inl hm), .called n o c0 hm hw⟩
    · exact old hx
  | botAnswered n sim now c0 hm =>
    rcases cached hc with hx | hx
    · obtain rfl := Option.some.inj hx
      exact ⟨c0, .inr (.inl hm), .botAnswered n sim now c0 hm⟩
    · exact old hx
  | persisting n c0 hm =>
    rcases hc with hx | hx | hx | hx
    · exact old (.inl hx)
    · exact old (.inr (.inl hx))
    · rcases List.mem_append.1 hx with hx | hx
      · exact old (.inr (.inr (.inl hx)))
      · obtain rfl := List.mem_singleton.1 hx
        exact old (.inl hm)
    · exact old (.inr (.inr (.inr hx)))
  | persisted n i blob outcome hb =>
    rcases hc with hx | hx | hx | hx
    · exact old (.inl hx)
    · exact old (.inr (.inl hx))
    · exact old (.inr (.inr (.inl (List.mem_of_mem_eraseIdx hx))))
    · exact old (.inr (.inr (.inr hx)))
  | evicted =>
    rcases cached hc with hx | hx
    · cases hx
    · exact old hx
  | missed => exact old hc
  | unread => exact old hc
  | decoded n c0 m hs hm =>
    rcases hc with hx | hx | hx | hx
    · exact old (.inl hx)
    · exact old (.inr (.inl hx))
    · exact old (.inr (.inr (.inl hx)))
    · rcases List.mem_append.1 hx with hx | hx
      · exact old (.inr (.inr (.inr hx)))
      · obtain rfl := List.mem_singleton.1 hx
        exact ⟨c0, .inl hs, .decoded n c0 m hs hm⟩
  | installed n i key c0 hi =>
    rcases hc with hx | hx | hx | hx
    · obtain rfl := Option.some.inj hx
      exact ⟨c0, .inr (.inr (.inr (.inr (List.mem_of_getElem? hi)))), .keyed n i key c0⟩
    · exact old (.inr (.inl hx))
    · exact old (.inr (.inr (.inl hx)))
    · exact old (.inr (.inr (.inr (List.mem_of_mem_eraseIdx hx))))

/-- **Provenance.** Every copy after a step comes from a copy before it. -/
theorem step_grown (J : StringOps) (s : Commands) (o : CommandOp) {c : Copy} (hc : (s.step J o).Has c) :
    ∃ c', s.Has c' ∧ Grown J s o c' c := by
  obtain ⟨st, n, node, hstate, -, hnodes, hmoved⟩ := step_moves J s o
  have lift : ∀ {c' : Copy}, (s.state = some c' ∨ (s.nodes n).Has c') → s.Has c' :=
    fun h => h.imp id fun hx => ⟨n, hx⟩
  rcases hc with hx | ⟨k, hx⟩
  · rw [hstate] at hx
    exact ⟨c, lift (hmoved.stored hx), .same o c⟩
  · rw [hnodes, Function.update_apply] at hx
    split_ifs at hx
    · obtain ⟨c', hc', hgrown⟩ := hmoved.grown hx
      exact ⟨c', lift hc', hgrown⟩
    · exact ⟨c, .inr ⟨k, hx⟩, .same o c⟩

/-- a property of all copies -/
def Every (P : Copy → Prop) (s : Commands) : Prop := ∀ c, s.Has c → P c

theorem step_every {P : Copy → Prop} {o : CommandOp} (hP : ∀ c c', Grown J s o c c' → P c → P c') (h : Every P s) :
    Every P (s.step J o) := by
  intro c hc
  obtain ⟨c', hc', hgrown⟩ := step_grown J s o hc
  exact hP c' c hgrown (h c' hc')

theorem every_init {P : Copy → Prop} {creator : String} {m : Machine} (h : P ⟨m, []⟩) : Every P (init creator m) := by
  rintro c (hx | ⟨n, hx⟩)
  · obtain rfl := Option.some.inj hx
    exact h
  · simp only [init, Function.update_apply] at hx
    split_ifs at hx
    · rcases hx with hx | ⟨d, hd, -⟩ | hx | hx
      · obtain rfl := Option.some.inj hx
        exact h
      · cases hd
      · cases hx
      · cases hx
    · rcases hx with hx | ⟨d, hd, -⟩ | hx | hx
      · cases hx
      · cases hd
      · cases hx
      · cases hx

/-! ## The log of a copy -/

/-- what a copy's trace says was logged stands in its log -/
def LogsKept (c : Copy) : Prop := ∀ x ∈ c.trace, x.logged <+: c.machine.eventLog.drop x.start

theorem LogsKept.write {c : Copy} (h : LogsKept c) (cause : Cause) {m : Machine}
    (hm : c.machine.eventLog <+: m.eventLog) : LogsKept (c.write cause m) := by
  by_cases hne : m = c.machine
  · rw [hne, Copy.write_same]
    exact h
  · rw [Copy.write_of_ne hne]
    intro x hx
    rcases List.mem_append.1 hx with hx | hx
    · exact (h x hx).trans (hm.drop x.start)
    · obtain rfl := List.mem_singleton.1 hx
      exact List.prefix_refl _

theorem step_log_extends (J : StringOps) (m : Machine) (o : Op) : m.eventLog <+: (m.step J o).eventLog := by
  obtain ⟨es, hes, -⟩ := Machine.change_appends (Machine.step_change J m o)
  rw [hes]
  exact List.prefix_append _ _

theorem dispatch_log_extends (J : StringOps) (m : Machine) (env : CommandEnvelope) (now : Clock) :
    m.eventLog <+: (dispatchBuiltin J m env now).1.eventLog := by
  have ha := dispatchBuiltin_applies J m env now
  generalize dispatchBuiltin J m env now = r at ha
  cases ha with
  | nothing => exact List.prefix_refl _
  | answer => exact step_log_extends J m _
  | disconnect => exact step_log_extends J m _
  | pick => exact step_log_extends J m _
  | play => exact step_log_extends J m _
  | vote => exact step_log_extends J m _

theorem Grown.logsKept {o : CommandOp} {c c' : Copy} (h : Grown J s o c c') (hc : LogsKept c) : LogsKept c' := by
  cases h with
  | same => exact hc
  | applied n now d c => exact hc.write _ (dispatch_log_extends J _ _ _)
  | called n o c => exact hc.write _ (step_log_extends J _ _)
  | botAnswered n sim now c => exact hc.write _ (step_log_extends J _ _)
  | decoded n c m hs hm =>
    intro x hx
    have hlog : m.eventLog = c.machine.eventLog :=
      (Machine.deserialize_decoded hm).1.trans (Cluster.eventLogOf_serialize c.machine)
    rw [show (⟨m, c.trace⟩ : Copy).machine.eventLog = c.machine.eventLog from hlog]
    exact hc x hx
  | keyed n i key c =>
    intro x hx
    rw [show (⟨Cluster.rehydrated c.machine key, c.trace⟩ : Copy).machine.eventLog = c.machine.eventLog from
      Cluster.rehydrated_eventLog c.machine key]
    exact hc x hx

end Commands

end Arena.Api
