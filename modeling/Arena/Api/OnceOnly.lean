/-
Commands take effect at most once.

An entry whose applied marker is missing (the owner crashed before the SADD, or the SADD failed) is applied again unless
the machine shows its evidence. `OnceOnly` says of a copy of the machine that no entry has taken effect on it twice, and
that none took effect after a later command of the player, or a reconnect, had superseded it.

- `Timely`: the condition on the steps. An entry that the machine would still take has not been superseded, and its
  evidence was not erased after it took effect;
- `once_only`: in every run whose steps meet it, every copy is `OnceOnly`: the stored blob, and every cached, written or
  loading machine of every node;
- `disconnected_twice`: a disconnect takes effect, its marker is lost in a crash, the player reconnects, and the
  redelivery disconnects the player again.
-/
import Arena.Api.Evidence

namespace Arena.Api

open Arena.Lib Arena.Shared Arena.GameCore

/-! ## Statement -/

/-- a later vote or answer of the player, or a reconnect after a disconnect was first delivered -/
def Cause.supersedes (cause : Cause) (e : StreamEntry) : Bool :=
  match e.envelope.body, cause with
  | .submitAnswer .., .command later =>
    later.envelope.body.isAnswer && later.envelope.userId = e.envelope.userId && decide (e.id < later.id)
  | .voteBanTopic .., .command later =>
    later.envelope.body.isVote && later.envelope.userId = e.envelope.userId && decide (e.id < later.id)
  | .playerDisconnect, .reconnect p delivered => p = e.envelope.userId && delivered.contains e.id
  | _, _ => false

/-- no entry took effect after it was superseded -/
def InOrder (trace : List Effect) : Prop :=
  trace.Pairwise fun x y => ∀ e, y.cause = .command e → x.cause.supersedes e = false

def OnceOnly (c : Copy) : Prop := (c.commands.map fun e => e.envelope.eventId).Nodup ∧ InOrder c.trace

/-- the evidence of an entry was not erased after it took effect -/
def Intact (trace : List Effect) (e : StreamEntry) : Prop :=
  trace.Pairwise fun x y => x.cause = .command e → y.cause.erases e.envelope = false

/-- the commands of a cause -/
def Cause.entries : Cause → List StreamEntry
  | .command e => [e]
  | _ => []

theorem Copy.commands_write {c : Copy} {m : Machine} (h : m ≠ c.machine) (cause : Cause) :
    (c.write cause m).commands = c.commands ++ cause.entries := by
  rw [Copy.write_of_ne h]
  unfold Copy.commands
  rw [List.filterMap_append]
  cases cause <;> rfl

namespace Commands

/-- the condition on a step -/
def Timely (s : Commands) : CommandOp → Prop
  | .look n now => ∀ d ∈ (s.nodes n).delivery, ∀ c ∈ (s.nodes n).machine, d.stage = .fetching →
      awaits c.machine d.entry.envelope (now 0) = true →
        (∀ x ∈ c.trace, x.cause.supersedes d.entry = false) ∧ Intact c.trace d.entry
  | _ => True

/-- the calls of the round loop and of the bots name players -/
def NamesPlayers : CommandOp → Prop
  | .call _ o => o.namesPlayers
  | .botAnswer _ sim _ => sim.userId ≠ ""
  | _ => True

/-! ## Entries of the stream -/

variable {J : StringOps} {s : Commands}

/-- a step leaves the stream or appends to it, an entry with a new event id -/
theorem step_stream (J : StringOps) (s : Commands) (o : CommandOp) :
    (s.step J o).stream = s.stream ∨
      ∃ x, (s.step J o).stream = s.stream ++ [x] ∧ ∀ e, x = some e → s.isFresh e.envelope.eventId = true := by
  have appended : ∀ env roundNo, (s.append env roundNo).stream = s.stream ∨ ∃ x,
      (s.append env roundNo).stream = s.stream ++ [x] ∧ ∀ e, x = some e → s.isFresh e.envelope.eventId = true := by
    intro env roundNo
    unfold append
    split_ifs with hf
    · exact .inr ⟨_, rfl, by rintro e ⟨rfl⟩; exact hf⟩
    · exact .inl rfl
  cases o with
  | handleSubmitAnswer n userId payload eventId now =>
    simp only [step, handleSubmitAnswer]
    split
    · exact .inl rfl
    · split_ifs
      · exact .inl rfl
      · exact appended _ _
      · exact .inl rfl
  | forward env =>
    simp only [step, forward]
    split
    · exact .inl rfl
    · exact appended _ _
  | forwardInvalid =>
    refine .inr ⟨none, rfl, ?_⟩
    intro e he
    cases he
  | _ =>
    refine .inl ?_
    simp only [step, deadLetter, deliver, sismember, missing, withoutMachine, look, takeBlob, reply, finish, sadd, recover,
      xack, abort, call, botAnswer, persist, persisted, evictStateMachine, getStateMachine, readState, install, setStage,
      endDelivery, store, setNode]
    repeat' split
    all_goals rfl

theorem isFresh_ne {eventId : String} (h : s.isFresh eventId = true) {e : StreamEntry} (he : some e ∈ s.stream) :
    e.envelope.eventId ≠ eventId := by
  have hall := List.all_eq_true.1 h (some e) he
  simpa using hall

/-- an entry in the hands of a node was there before the step, or is taken from the stream -/
theorem Moved.delivery {o : CommandOp} {st : Option Copy × List StreamEntry} {n : String} {node : Consumer}
    (h : Moved J s o st n node) {d : Delivery} (hd : node.delivery = some d) :
    some d.entry ∈ s.stream ∨ ∃ d', (s.nodes n).delivery = some d' ∧ d.entry = d'.entry := by
  cases h with
  | delivered n id e he _ =>
    obtain rfl := Option.some.inj hd
    exact .inl (List.mem_of_getElem? he)
  | staged o n d' stage st hst hd' =>
    obtain rfl := Option.some.inj hd
    exact .inr ⟨d', hd', rfl⟩
  | looked n now d' c hd' =>
    obtain rfl := Option.some.inj hd
    exact .inr ⟨d', hd', rfl⟩
  | blind n d' hd' =>
    obtain rfl := Option.some.inj hd
    exact .inr ⟨d', hd', rfl⟩
  | took n d' c hd' =>
    obtain rfl := Option.some.inj hd
    exact .inr ⟨d', hd', rfl⟩
  | replied n d' blob outcome hd' =>
    obtain rfl := Option.some.inj hd
    exact .inr ⟨d', hd', rfl⟩
  | settled n d' hd' =>
    obtain rfl := Option.some.inj hd
    exact .inr ⟨d', hd', rfl⟩
  | ended => cases hd
  | threw => cases hd
  | refused => cases hd
  | crashed => cases hd
  | _ => exact .inr ⟨d, hd, rfl⟩

/-- a command of a copy was one of a copy before the step, or is in the hands of a node -/
theorem Grown.mem_commands {o : CommandOp} {c c' : Copy} (h : Grown J s o c c') {e : StreamEntry}
    (he : e ∈ c'.commands) : e ∈ c.commands ∨ ∃ n d, (s.nodes n).delivery = some d ∧ d.entry = e := by
  cases h with
  | same => exact .inl he
  | applied n now d c hd hs hm =>
    rcases Copy.mem_commands_write.1 he with he | ⟨-, hcause⟩
    · exact .inl he
    · exact .inr ⟨n, d, hd, Cause.command.inj hcause⟩
  | called n o c hm hw =>
    rcases Copy.mem_commands_write.1 he with he | ⟨-, hcause⟩
    · exact .inl he
    · cases o <;> cases hcause
  | botAnswered n sim now c hm =>
    rcases Copy.mem_commands_write.1 he with he | ⟨-, hcause⟩
    · exact .inl he
    · cases hcause
  | decoded n c m hs hm => exact .inl he
  | keyed n i key c => exact .inl he

/-- what is delivered and what took effect is in the stream, where an event id names one entry -/
structure StreamInv (s : Commands) : Prop where
  ids : ∀ e e', some e ∈ s.stream → some e' ∈ s.stream → e.envelope.eventId = e'.envelope.eventId → e = e'
  delivered : ∀ n d, (s.nodes n).delivery = some d → some d.entry ∈ s.stream
  copies : Every (fun c => ∀ e ∈ c.commands, some e ∈ s.stream) s

theorem streamInv_init (creator : String) (m : Machine) : StreamInv (init creator m) where
  ids := fun e e' he => nomatch he
  delivered := by
    intro n d hd
    simp only [init, Function.update_apply] at hd
    split_ifs at hd <;> cases hd
  copies := every_init (by simp [Copy.commands])

theorem step_streamInv (J : StringOps) (s : Commands) (o : CommandOp) (h : StreamInv s) : StreamInv (s.step J o) := by
  have hsub : ∀ {x}, x ∈ s.stream → x ∈ (s.step J o).stream := by
    intro x hx
    rcases step_stream J s o with hs | ⟨y, hs, -⟩
    · rw [hs]
      exact hx
    · rw [hs]
      exact List.mem_append_left _ hx
  refine ⟨?_, ?_, ?_⟩
  · intro e e' he he' hid
    rcases step_stream J s o with hs | ⟨y, hs, hfresh⟩
    · rw [hs] at he he'
      exact h.ids e e' he he' hid
    · rw [hs, List.mem_append, List.mem_singleton] at he he'
      rcases he with he | rfl
      · rcases he' with he' | rfl
        · exact h.ids e e' he he' hid
        · exact absurd hid (isFresh_ne (hfresh e' rfl) he)
      · rcases he' with he' | he'
        · exact absurd hid.symm (isFresh_ne (hfresh e rfl) he')
        · exact (Option.some.inj he').symm
  · intro k d hd
    obtain ⟨st, n, node, -, -, hnodes, hmoved⟩ := step_moves J s o
    rw [hnodes, Function.update_apply] at hd
    split_ifs at hd with hk
    · rcases hmoved.delivery hd with hx | ⟨d', hd', hentry⟩
      · exact hsub hx
      · rw [hentry]
        exact hsub (h.delivered n d' hd')
    · exact hsub (h.delivered k d hd)
  · intro c' hc' e he
    obtain ⟨c, hc, hgrown⟩ := step_grown J s o hc'
    rcases hgrown.mem_commands he with hx | ⟨n, d, hd, rfl⟩
    · exact hsub (h.copies c hc e hx)
    · exact hsub (h.delivered n d hd)

/-! ## Copies -/

structure OnceInv (c : Copy) : Prop where
  wire : Machine.WireInv c.machine
  mirror : Machine.MirrorInv c.machine
  once : c.commands.Nodup
  inOrder : InOrder c.trace
  evidence : ∀ e ∈ c.commands, Intact c.trace e → Evidence e.envelope c.machine

theorem pairwise_concat {α : Type} {R : α → α → Prop} {l : List α} {a : α} :
    (l ++ [a]).Pairwise R ↔ l.Pairwise R ∧ ∀ x ∈ l, R x a := by
  simp [List.pairwise_append]

/-- a write keeps the invariant: it keeps the evidence it does not erase, and a command it records is new -/
theorem OnceInv.write {c : Copy} (h : OnceInv c) {cause : Cause} {m : Machine} (hwire : Machine.WireInv m)
    (hmirror : Machine.MirrorInv m)
    (hkeep : ∀ env, cause.erases env = false → Evidence env c.machine → Evidence env m)
    (hnew : m ≠ c.machine → ∀ e, cause = .command e →
      (∀ x ∈ c.trace, x.cause.supersedes e = false) ∧ e ∉ c.commands ∧ Evidence e.envelope m) :
    OnceInv (c.write cause m) := by
  by_cases hne : m = c.machine
  · rw [hne, Copy.write_same]
    exact h
  · refine ⟨by rwa [Copy.write_machine], by rwa [Copy.write_machine], ?_, ?_, ?_⟩
    · rw [Copy.commands_write hne]
      cases cause with
      | command e =>
        have hfresh : e ∉ c.commands := (hnew hne e rfl).2.1
        exact List.nodup_append.2 ⟨h.once, List.nodup_singleton e, by
          rintro a ha b hb rfl
          exact hfresh (List.mem_singleton.1 hb ▸ ha)⟩
      | _ => simpa [Cause.entries] using h.once
    · rw [Copy.write_of_ne hne]
      exact pairwise_concat.2 ⟨h.inOrder, fun x hx e he => (hnew hne e he).1 x hx⟩
    · intro e he hintact
      rw [Copy.write_machine]
      rw [Copy.write_of_ne hne] at hintact
      obtain ⟨hold, hspared⟩ := pairwise_concat.1 hintact
      rcases Copy.mem_commands_write.1 he with he | ⟨-, hcause⟩
      · obtain ⟨x, hx, hxc⟩ := Copy.mem_commands.1 he
        exact hkeep _ (hspared x hx hxc) (h.evidence e he hold)
      · exact (hnew hne e hcause).2.2

theorem OnceInv.step {c : Copy} (h : OnceInv c) {cause : Cause} {o : Op} (hn : o.namesPlayers)
    (hcause : ∀ e, cause ≠ .command e)
    (herase : ∀ env, cause.erases env = false → ∃ delivered, (causeOf delivered o).erases env = false) :
    OnceInv (c.write cause (c.machine.step J o)) := by
  have hc := Machine.step_change J c.machine o
  refine h.write (Machine.change_wireInv hc h.wire) (Machine.change_mirrorInv hc hn h.mirror) ?_ ?_
  · intro env he hev
    obtain ⟨delivered, hd⟩ := herase env he
    exact change_evidence hc delivered hd hev
  · intro _ e he
    exact absurd he (hcause e)

theorem other_erases (env : CommandEnvelope) : Cause.other.erases env = false := by
  unfold Cause.erases
  cases env.body <;> rfl

/-- a command calls the machine once; what it erases, its cause erases -/
theorem dispatch_keeps (J : StringOps) {m : Machine} (e : StreamEntry) (now : Clock) (hw : Machine.WireInv m)
    (hm : Machine.MirrorInv m) :
    Machine.WireInv (dispatchBuiltin J m e.envelope now).1 ∧ Machine.MirrorInv (dispatchBuiltin J m e.envelope now).1 ∧
      ∀ env, (Cause.command e).erases env = false → Evidence env m →
        Evidence env (dispatchBuiltin J m e.envelope now).1 := by
  have ha := dispatchBuiltin_applies J m e.envelope now
  have made : ∀ {o : Op}, o.namesPlayers →
      (∀ env, (Cause.command e).erases env = false → (causeOf [] o).erases env = false) →
      Machine.WireInv (m.step J o) ∧ Machine.MirrorInv (m.step J o) ∧
        ∀ env, (Cause.command e).erases env = false → Evidence env m → Evidence env (m.step J o) := by
    intro o hn he
    have hc := Machine.step_change J m o
    exact ⟨Machine.change_wireInv hc hw, Machine.change_mirrorInv hc hn hm,
      fun env hx hev => change_evidence hc [] (he env hx) hev⟩
  generalize dispatchBuiltin J m e.envelope now = r at ha
  cases ha with
  | nothing => exact ⟨hw, hm, fun env _ hev => hev⟩
  | answer answer sid cid ts hb _ =>
    refine made e.envelope.userId_ne fun env hx => ?_
    unfold Cause.erases at hx ⊢
    cases hbody : env.body with
    | submitAnswer =>
      rw [hbody] at hx
      simpa [causeOf, hb, CommandBody.isAnswer] using hx
    | _ => rfl
  | disconnect => exact made trivial fun env _ => other_erases env
  | pick => exact made trivial fun env _ => other_erases env
  | play cid cardId seq target input hb hc hp =>
    refine made ?_ fun env _ => other_erases env
    change input.playedByPlayerId ≠ ""
    rw [hp]
    exact e.envelope.userId_ne
  | vote => exact made trivial fun env _ => other_erases env

/-- a timely apply -/
theorem OnceInv.apply {c : Copy} (h : OnceInv c) (e : StreamEntry) (now : Clock)
    (ht : awaits c.machine e.envelope (now 0) = true →
      (∀ x ∈ c.trace, x.cause.supersedes e = false) ∧ Intact c.trace e) :
    OnceInv (c.write (.command e) (dispatchBuiltin J c.machine e.envelope now).1) := by
  obtain ⟨hwire, hmirror, hkeep⟩ := dispatch_keeps J e now h.wire h.mirror
  refine h.write hwire hmirror hkeep ?_
  rintro hne e' ⟨rfl⟩
  have haw : awaits c.machine e.envelope (now 0) = true := by
    by_contra hno
    exact hne (dispatch_unchanged (Bool.eq_false_iff.2 hno))
  obtain ⟨hsup, hintact⟩ := ht haw
  refine ⟨hsup, fun hmem => ?_, dispatch_evidence hne⟩
  -- an entry that took effect and kept its evidence is not awaited
  have hnot := (h.evidence e hmem hintact).not_awaits (now 0)
  rw [haw] at hnot
  cases hnot

theorem Grown.onceInv {o : CommandOp} {c c' : Copy} (hg : Grown J s o c c') (ht : Timely s o) (hn : NamesPlayers o)
    (h : OnceInv c) : OnceInv c' := by
  cases hg with
  | same => exact h
  | applied n now d c hd hs hm => exact h.apply d.entry now (ht d hd c hm hs)
  | called n o c hm hw =>
    refine h.step hn ?_ fun env he => ⟨s.delivered, he⟩
    intro e he
    cases o <;> cases he
  | botAnswered n sim now c hm =>
    refine h.step hn nofun fun env he => ⟨[], ?_⟩
    unfold Cause.erases at he ⊢
    cases hbody : env.body with
    | submitAnswer =>
      rw [hbody] at he
      exact he
    | _ => rfl
  | decoded n c m hs hm =>
    have hrec : m = c.machine.recovered := Machine.deserialize_eq h.wire hm
    subst hrec
    exact ⟨Machine.recovered_wireInv _ h.wire, rfl, h.once, h.inOrder,
      fun e he hi => (h.evidence e he hi).recovered h.mirror⟩
  | keyed n i key c =>
    unfold Cluster.rehydrated
    split
    · rename_i key
      have hc := Machine.step_change J c.machine (.attachCorrectAnswer key)
      refine ⟨Machine.change_wireInv hc h.wire, Machine.change_mirrorInv hc trivial h.mirror, h.once, h.inOrder, ?_⟩
      intro e he hi
      exact change_evidence hc [] (other_erases e.envelope) (h.evidence e he hi)
    · exact h

/-! ## Result -/

/-- **At most once.** In every run from a created match in which an entry that reaches a machine which would still take it
has not been superseded, and has not lost its evidence after it took effect, no event id takes effect twice and none takes
effect after it was superseded: in the stored blob, and in every machine and blob of every node. -/
theorem once_only (J : StringOps) (creator matchId roomId : String) (players : List PlayerInfo)
    (hd : (players.map PlayerInfo.id).Nodup) (ops : List CommandOp) (hn : ∀ o ∈ ops, NamesPlayers o)
    (ht : Along (step J) Timely (init creator (Machine.create matchId roomId players)) ops) :
    Every OnceOnly (run (step J) (init creator (Machine.create matchId roomId players)) ops) := by
  have h : Every OnceInv (run (step J) (init creator (Machine.create matchId roomId players)) ops) := by
    refine run_inv (step J) (fun s o => Timely s o ∧ NamesPlayers o) (Every OnceInv) ?_ _ ops ?_ (every_init ?_)
    · exact fun s o ho hs => step_every (fun c c' hg => hg.onceInv ho.1 ho.2) hs
    · exact along_and _ _ _ _ _ ht ((along_const _ _ _ _).2 hn)
    · exact ⟨Machine.wireInv_create matchId roomId players hd, Machine.mirrorInv_create matchId roomId players,
        List.nodup_nil, List.Pairwise.nil, fun e he => nomatch he⟩
  have hstream : StreamInv (run (step J) (init creator (Machine.create matchId roomId players)) ops) :=
    run_inv (step J) (fun _ _ => True) StreamInv (fun s o _ hs => step_streamInv J s o hs) _ ops
      ((along_const _ _ _ _).2 fun _ _ => trivial) (streamInv_init creator _)
  intro c hc
  refine ⟨(h c hc).once.map_on ?_, (h c hc).inOrder⟩
  intro e he e' he' hid
  exact hstream.ids e e' (hstream.copies c hc e he) (hstream.copies c hc e' he') hid

/-! ## Schedules -/

instance (trace : List Effect) (e : StreamEntry) : Decidable (Intact trace e) :=
  inferInstanceAs (Decidable (trace.Pairwise _))

instance (s : Commands) : (o : CommandOp) → Decidable (Timely s o)
  | .look n now => inferInstanceAs (Decidable (∀ d ∈ (s.nodes n).delivery, ∀ c ∈ (s.nodes n).machine,
      d.stage = .fetching → awaits c.machine d.entry.envelope (now 0) = true →
        (∀ x ∈ c.trace, x.cause.supersedes d.entry = false) ∧ Intact c.trace d.entry))
  | .handleSubmitAnswer .. | .forward .. | .forwardInvalid | .deadLetter .. | .deliver .. | .sismember ..
  | .missing .. | .takeBlob .. | .reply .. | .finish .. | .sadd .. | .recover .. | .xack .. | .abort ..
  | .crash .. | .call .. | .botAnswer .. | .persist .. | .persisted .. | .evictStateMachine ..
  | .getStateMachine .. | .readState .. | .install .. | .expire => .isTrue trivial

instance : (o : CommandOp) → Decidable (NamesPlayers o)
  | .call _ o => inferInstanceAs (Decidable o.namesPlayers)
  | .botAnswer _ sim _ => inferInstanceAs (Decidable (sim.userId ≠ ""))
  | .handleSubmitAnswer .. | .forward .. | .forwardInvalid | .deadLetter .. | .deliver .. | .sismember ..
  | .missing .. | .look .. | .takeBlob .. | .reply .. | .finish .. | .sadd .. | .recover .. | .xack .. | .abort ..
  | .crash .. | .persist .. | .persisted .. | .evictStateMachine .. | .getStateMachine .. | .readState ..
  | .install .. | .expire => .isTrue trivial

/-- node `n` comes back after a crash and loads the machine again -/
def comesBack (n : String) : List CommandOp :=
  [.crash n, .getStateMachine n, .readState n, .install n 0 (some "4")]

/-- alice's answer is applied and stored; the owner crashes before the SADD, and the entry is delivered again -/
def replayed : List CommandOp :=
  opens "n1" ++ [submits "n1" "alice" "s1" "e1" 1 1000] ++ takes "n1" 0 1000 ++ writes "n1" .applied ++
    comesBack "n1" ++ takes "n1" 0 3000

theorem once_only_alice :
    let s := run (step StringOps.ascii) (init "n1" twoPlayers) replayed
    s.delivered = [0, 0] ∧ s.applied = [] ∧ s.state.map (fun c => c.commands.length) = some 1 ∧ Every OnceOnly s := by
  refine ⟨by decide +kernel, by decide +kernel, by decide +kernel, ?_⟩
  exact once_only StringOps.ascii "n1" "m1" "r1" [freshPlayer "alice", freshPlayer "bob"] (by decide) replayed
    (by decide) (by decide +kernel)

/-- alice's disconnect is applied and stored, the owner crashes before the SADD, alice reconnects, and the entry is
delivered again -/
def twice : List CommandOp :=
  opens "n1" ++ [.forward ⟨"d1", "m1", "n2", 0, "alice", .playerDisconnect, by decide, by decide⟩] ++
    takes "n1" 0 1000 ++ writes "n1" .applied ++ comesBack "n1" ++
    [.call "n1" (.reconnectPlayer "alice" (clockAt 2000))] ++ stores "n1" ++ takes "n1" 0 3000 ++ writes "n1" .applied

/-- **A disconnect takes effect twice.** The stored blob holds the same entry two times, the second time after the
reconnect that superseded it. -/
theorem disconnected_twice : ¬Every OnceOnly (run (step StringOps.ascii) (init "n1" twoPlayers) twice) := by
  intro h
  have hstored : ∃ c ∈ (run (step StringOps.ascii) (init "n1" twoPlayers) twice).state,
      ¬(c.commands.map fun e => e.envelope.eventId).Nodup := by decide +kernel
  obtain ⟨c, hc, hdup⟩ := hstored
  exact hdup (h c (.inl hc)).1

end Commands

end Arena.Api
