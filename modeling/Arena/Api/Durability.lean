/-
Acknowledged commands and the stored blob.

An entry is acknowledged after its apply was persisted, was rejected, or was found to be a duplicate. The duplicate is
looked up in the cached machine, and a persist that throws leaves its write there: the next delivery finds the write in
memory and acknowledges an entry that was never stored.

- `AckDurable`: at an XACK the effect of the entry is in the stored blob, or the entry has none, neither in this
  delivery nor in the node's memory nor in any blob stored so far;
- `Keeps`: the condition on the steps. A persist of a changed machine that throws has written; no load replaces the
  machine while a command waits for its persist; what is stored stays stored;
- `acked_is_durable`: in every run whose steps meet it, every XACK is durable;
- `thrown_persist_acked`: the persist of an answer throws, and the redelivery is acknowledged without it.
-/
import Arena.Api.CommandSteps

namespace Arena.Api

open Arena.Lib Arena.Shared Arena.GameCore

/-! ## Statement -/

/-- the effect of an entry is in a blob: what it did, and the events it logged -/
def Copy.Contains (c : Copy) (e : StreamEntry) : Prop :=
  ∃ x ∈ c.trace, x.cause = .command e ∧ x.logged <+: (Cluster.eventLogOf c.machine.serialize).drop x.start

instance (c : Copy) (e : StreamEntry) : Decidable (c.Contains e) :=
  inferInstanceAs (Decidable (∃ x ∈ c.trace, _))

/-- the blob a delivery is writing -/
def Delivery.blob (d : Delivery) : Option Copy :=
  match d.stage with
  | .writing blob => some blob
  | _ => none

def Stage.isAcking : Stage → Bool
  | .acking .. => true
  | _ => false

/-- the commands whose effect is in a blob, if there is one -/
def commandsOf (state : Option Copy) : List StreamEntry := (state.map Copy.commands).getD []

namespace Commands

/-- the commands whose effect is stored -/
def storedCommands (s : Commands) : List StreamEntry := commandsOf s.state

/-- the entry has no effect -/
def HasNoEffect (s : Commands) (n : String) (d : Delivery) : Prop :=
  d.changed = false ∧ d.entry ∉ s.stored ∧ ∀ c ∈ (s.nodes n).machine, d.entry ∉ c.commands

/-- an XACK comes for an entry whose effect is stored, or that has none -/
def AckDurable (s : Commands) : CommandOp → Prop
  | .xack n => ∀ d ∈ (s.nodes n).delivery, d.stage.isAcking = true →
      (∃ c ∈ s.state, c.Contains d.entry) ∨ s.HasNoEffect n d
  | _ => True

/-- what is stored is also in the blob -/
def BuildsOn (s : Commands) (blob : Copy) : Prop := ∀ e ∈ s.storedCommands, e ∈ blob.commands

instance (s : Commands) (blob : Copy) : Decidable (s.BuildsOn blob) :=
  inferInstanceAs (Decidable (∀ e ∈ s.storedCommands, e ∈ blob.commands))

def isReadable (J : StringOps) (s : Commands) : Bool :=
  match s.state.map fun c => Machine.deserialize J (some c.machine.serialize) with
  | some (.error _) => false
  | _ => true

/-- the condition on a step -/
def Keeps (J : StringOps) (s : Commands) : CommandOp → Prop
  | .reply n outcome => ∀ d ∈ (s.nodes n).delivery, ∀ blob ∈ d.blob,
      (outcome.written = true → s.BuildsOn blob) ∧ (outcome = .threw false → d.changed = false)
  | .persisted n i outcome => ∀ blob ∈ (s.nodes n).writes[i]?, outcome.written = true → s.BuildsOn blob
  | .install n _ _ => ∀ d ∈ (s.nodes n).delivery, d.stage = .queued → d.changed = false
  | .expire => s.storedCommands = []
  | .readState _ => s.isReadable J = false → s.storedCommands = []
  | .missing _ => s.isReadable J = false → s.storedCommands = []
  | _ => True

end Commands

/-! ## Invariant -/

/-- the stages in which the effect of an apply may not be stored yet -/
def Stage.pending : Stage → Bool
  | .queued => true
  | .writing _ => true
  | .settled .retry => true
  | .settled .blind => true
  | _ => false

theorem Stage.not_pending_of_canAbort {stage : Stage} (h : stage.canAbort = true) : stage.pending = false := by
  cases stage <;> first | rfl | cases h

/-- one node, over the commands that are stored -/
structure NodeInv (cs : List StreamEntry) (node : Consumer) : Prop where
  hydrated : ∀ c ∈ node.hydrations, ∀ e ∈ c.commands, e ∈ cs
  cached : ∀ c, node.machine = some c → ∀ e ∈ c.commands, e ∈ cs ∨
    ∃ d, node.delivery = some d ∧ d.entry = e ∧ d.changed = true ∧ d.stage.pending = true
  changed : ∀ d, node.delivery = some d → d.changed = true → d.stage.pending = false → d.entry ∈ cs
  queued : ∀ d c, node.delivery = some d → d.changed = true → d.stage = .queued → node.machine = some c →
    d.entry ∈ c.commands
  writing : ∀ d blob, node.delivery = some d → d.changed = true → d.stage = .writing blob → d.entry ∈ blob.commands

namespace NodeInv

variable {cs cs' : List StreamEntry} {node : Consumer} {d : Delivery}

theorem mono (h : NodeInv cs node) (hcs : ∀ e ∈ cs, e ∈ cs') : NodeInv cs' node where
  hydrated := fun c hc e he => hcs e (h.hydrated c hc e he)
  cached := fun c hc e he => (h.cached c hc e he).imp (hcs e) id
  changed := fun d hd hch hp => hcs _ (h.changed d hd hch hp)
  queued := h.queued
  writing := h.writing

/-- while the effect of no delivery is pending, all that is cached is stored -/
theorem all_stored (h : NodeInv cs node) (hp : ∀ d, node.delivery = some d → d.changed = true → d.stage.pending = false)
    {c : Copy} (hc : node.machine = some c) {e : StreamEntry} (he : e ∈ c.commands) : e ∈ cs := by
  rcases h.cached c hc e he with he | ⟨d, hd, -, hch, hpend⟩
  · exact he
  · rw [hp d hd hch] at hpend
    cases hpend

theorem idle : NodeInv cs Consumer.idle where
  hydrated := by simp [Consumer.idle]
  cached := by simp [Consumer.idle]
  changed := by simp [Consumer.idle]
  queued := by simp [Consumer.idle]
  writing := by simp [Consumer.idle]

/-- the delivery goes to a stage in which nothing is pending -/
theorem stage (h : NodeInv cs node) (hp : ∀ d, node.delivery = some d → d.changed = true → d.stage.pending = false)
    (d' : Option Delivery) (hnew : ∀ d, d' = some d → d.stage.pending = false)
    (hch : ∀ d, d' = some d → d.changed = true → d.entry ∈ cs) : NodeInv cs { node with delivery := d' } where
  hydrated := h.hydrated
  cached := fun c hc e he => .inl (h.all_stored hp hc he)
  changed := fun d hd hchanged _ => hch d hd hchanged
  queued := by
    intro d c hd _ hs
    have hpend := hnew d hd
    rw [hs] at hpend
    cases hpend
  writing := by
    intro d blob hd _ hs
    have hpend := hnew d hd
    rw [hs] at hpend
    cases hpend

/-- another machine is cached, while no command waits for its persist -/
theorem cache (h : NodeInv cs node) (m : Option Copy) (hm : ∀ c, m = some c → ∀ e ∈ c.commands, e ∈ cs ∨
      ∃ d, node.delivery = some d ∧ d.entry = e ∧ d.changed = true ∧ d.stage.pending = true)
    (hq : ∀ d c, node.delivery = some d → d.changed = true → d.stage = .queued → m = some c → d.entry ∈ c.commands) :
    NodeInv cs { node with machine := m } where
  hydrated := h.hydrated
  cached := hm
  changed := h.changed
  queued := hq
  writing := h.writing

/-- a write of another call -/
theorem write (h : NodeInv cs node) {c : Copy} (hc : node.machine = some c) (cause : Cause)
    (hcause : ∀ e, cause ≠ .command e) (m : Machine) : NodeInv cs { node with machine := some (c.write cause m) } := by
  have hback : ∀ e, e ∈ (c.write cause m).commands ↔ e ∈ c.commands := by
    intro e
    rw [Copy.mem_commands_write]
    exact or_iff_left fun hx => hcause e hx.2
  refine h.cache _ ?_ ?_
  · rintro c' ⟨rfl⟩ e he
    exact h.cached c hc e ((hback e).1 he)
  · rintro d c' hd hch hs ⟨rfl⟩
    exact (hback _).2 (h.queued d c hd hch hs hc)

end NodeInv

namespace Commands

variable {J : StringOps} {s : Commands}

theorem causeOf_ne (delivered : List ℕ) (o : Op) (e : StreamEntry) : causeOf delivered o ≠ .command e := by
  cases o <;> simp [causeOf]

theorem Kept.builds {o : CommandOp} {st : Option Copy × List StreamEntry} (h : Kept J s o st) (hk : Keeps J s o) :
    ∀ e ∈ s.storedCommands, e ∈ commandsOf st.1 := by
  rcases h with rfl | ⟨hdrop, rfl⟩
  · exact fun e he => he
  · have unreadable : (∀ c m, s.state = some c → Machine.deserialize J (some c.machine.serialize) ≠ .ok m) →
        (s.isReadable J = false → s.storedCommands = []) → s.storedCommands = [] := by
      intro hd hempty
      cases hs : s.state with
      | none => simp [storedCommands, commandsOf, hs]
      | some c =>
        refine hempty ?_
        cases hx : Machine.deserialize J (some c.machine.serialize) with
        | error e => simp [isReadable, hs, hx]
        | ok m => exact absurd hx (hd c m hs)
    have hempty : s.storedCommands = [] := by
      cases o with
      | expire => exact hk
      | readState n => exact unreadable hdrop hk
      | missing n => exact unreadable hdrop hk
      | _ => cases hdrop
    intro e he
    rw [hempty] at he
    cases he

/-- a stored command stays stored -/
theorem Moved.builds {o : CommandOp} {st : Option Copy × List StreamEntry} {n : String} {node : Consumer}
    (h : Moved J s o st n node) (hk : Keeps J s o) : ∀ e ∈ s.storedCommands, e ∈ commandsOf st.1 := by
  have reply : ∀ {blob : Copy} {outcome : PersistOutcome}, (outcome.written = true → s.BuildsOn blob) →
      ∀ e ∈ s.storedCommands, e ∈ commandsOf (s.afterReply blob outcome).1 := by
    intro blob outcome hb e he
    unfold afterReply
    split_ifs with hw
    · exact hb hw e he
    · exact he
  cases h with
  | same o n st hst => exact hst.builds hk
  | staged o n d stage st hst => exact hst.builds hk
  | ended o n d st hst => exact hst.builds hk
  | unread n st hst => exact hst.builds hk
  | replied n d blob outcome hd hs => exact reply (hk d hd blob (by simp [Delivery.blob, hs])).1
  | persisted n i blob outcome hb => exact reply (hk blob hb)
  | _ => exact fun e he => he

/-- what was ever stored is stored still -/
theorem Moved.stored_subset {o : CommandOp} {st : Option Copy × List StreamEntry} {n : String} {node : Consumer}
    (h : Moved J s o st n node) (hb : ∀ e ∈ s.storedCommands, e ∈ commandsOf st.1)
    (hs : ∀ e ∈ s.stored, e ∈ s.storedCommands) : ∀ e ∈ st.2, e ∈ commandsOf st.1 := by
  have kept : st.2 = s.stored → ∀ e ∈ st.2, e ∈ commandsOf st.1 := by
    intro hx e he
    rw [hx] at he
    exact hb e (hs e he)
  have reply : ∀ {blob : Copy} {outcome : PersistOutcome}, st = s.afterReply blob outcome →
      ∀ e ∈ st.2, e ∈ commandsOf st.1 := by
    intro blob outcome hx
    unfold afterReply at hx
    split_ifs at hx
    · intro e he
      rw [hx] at he
      rcases List.mem_append.1 he with he | he
      · rw [hx]
        exact he
      · exact hb e (hs e he)
    · exact kept (by rw [hx])
  have still : ∀ {o' : CommandOp}, Kept J s o' st → ∀ e ∈ st.2, e ∈ commandsOf st.1 := by
    rintro o' (hx | ⟨-, hx⟩)
    · exact kept (by rw [hx])
    · exact kept (by rw [hx])
  cases h with
  | same o n st hst => exact still hst
  | staged o n d stage st hst => exact still hst
  | ended o n d st hst => exact still hst
  | unread n st hst => exact still hst
  | replied n d blob outcome hd hs => exact reply rfl
  | persisted n i blob outcome hb => exact reply rfl
  | _ => exact kept rfl

/-- an apply changes the machine only on its way to the persist -/
theorem looked_queued {c : Copy} {env : CommandEnvelope} {now : Clock}
    (h : (dispatchBuiltin J c.machine env now).1 ≠ c.machine) :
    (dispatchBuiltin J c.machine env now).2.stage = .queued := by
  have hv : (dispatchBuiltin J c.machine env now).2 = .persist := by
    by_contra hne
    exact h (dispatchBuiltin_unchanged hne)
  rw [hv]
  rfl

/-- the synchronous part of an apply -/
theorem nodeInv_looked {cs : List StreamEntry} {node : Consumer} {d : Delivery} {c : Copy} {m : Machine} {stage : Stage}
    (h : NodeInv cs node) (hd : node.delivery = some d) (hp : d.stage.pending = false) (hc : node.machine = some c)
    (hq : m ≠ c.machine → stage = .queued) : NodeInv cs { node with
      machine := some (c.write (.command d.entry) m)
      delivery := some ⟨d.entry, m ≠ c.machine, stage⟩ } where
  hydrated := h.hydrated
  cached := by
    rintro c' ⟨rfl⟩ e he
    rcases Copy.mem_commands_write.1 he with he | ⟨hne, hcause⟩
    · refine .inl (h.all_stored ?_ hc he)
      intro d' hd' _
      rw [hd, Option.some.injEq] at hd'
      rw [← hd', hp]
    · refine .inr ⟨_, rfl, Cause.command.inj hcause, by simpa using hne, ?_⟩
      rw [hq hne]
      rfl
  changed := by
    rintro d' ⟨rfl⟩ hch hpend
    rw [hq (by simpa using hch)] at hpend
    cases hpend
  queued := by
    rintro d' c' ⟨rfl⟩ hch - ⟨rfl⟩
    exact Copy.mem_commands_write.2 (.inr ⟨by simpa using hch, rfl⟩)
  writing := by
    rintro d' blob ⟨rfl⟩ hch hs
    rw [hq (by simpa using hch)] at hs
    cases hs

/-- the reply of a persist -/
theorem nodeInv_replied {cs : List StreamEntry} {node : Consumer} {d : Delivery} {blob : Copy}
    {outcome : PersistOutcome} (h : NodeInv cs node) (hd : node.delivery = some d) (hs : d.stage = .writing blob)
    (hw : outcome.written = true → cs = blob.commands) (ht : outcome = .threw false → d.changed = false) :
    NodeInv cs { node with delivery := some { d with stage := .settled outcome } } := by
  -- the write of a changed machine is stored, or still pending
  have done : d.changed = true → d.entry ∈ cs ∨ (Stage.settled outcome).pending = true := by
    intro hch
    cases outcome with
    | applied => exact .inl (hw rfl ▸ h.writing d blob hd hch hs)
    | retry => exact .inr rfl
    | blind => exact .inr rfl
    | threw written =>
      cases written with
      | false =>
        rw [ht rfl] at hch
        cases hch
      | true => exact .inl (hw rfl ▸ h.writing d blob hd hch hs)
  refine ⟨h.hydrated, ?_, ?_, ?_, ?_⟩
  · intro c hc e he
    rcases h.cached c hc e he with he | ⟨d', hd', rfl, hch, -⟩
    · exact .inl he
    · rw [hd, Option.some.injEq] at hd'
      subst hd'
      rcases done hch with hx | hx
      · exact .inl hx
      · exact .inr ⟨_, rfl, rfl, hch, hx⟩
  · rintro d' ⟨rfl⟩ hch hpend
    rcases done hch with hx | hx
    · exact hx
    · exact absurd hx (by simpa using hpend)
  · rintro d' c ⟨rfl⟩ - hx
    cases hx
  · rintro d' blob' ⟨rfl⟩ - hx
    cases hx

theorem Moved.nodeInv {o : CommandOp} {st : Option Copy × List StreamEntry} {n : String} {node : Consumer}
    (hmoved : Moved J s o st n node) (hk : Keeps J s o) (hn : NodeInv s.storedCommands (s.nodes n)) :
    NodeInv (commandsOf st.1) node := by
  have h : NodeInv (commandsOf st.1) (s.nodes n) := hn.mono (hmoved.builds hk)
  -- the delivery `d` is at a stage where nothing is pending
  have quiet : ∀ {d : Delivery}, (s.nodes n).delivery = some d → d.stage.pending = false →
      ∀ d', (s.nodes n).delivery = some d' → d'.changed = true → d'.stage.pending = false := by
    intro d hd hp d' hd' _
    rw [hd, Option.some.injEq] at hd'
    rw [← hd', hp]
  have ends : (∀ d', (s.nodes n).delivery = some d' → d'.changed = true → d'.stage.pending = false) →
      NodeInv (commandsOf st.1) { s.nodes n with delivery := none } :=
    fun hp => h.stage hp none (by simp) (by simp)
  have goesOn : ∀ {d : Delivery} {stage : Stage}, (s.nodes n).delivery = some d → d.stage.pending = false →
      stage.pending = false →
      NodeInv (commandsOf st.1) { s.nodes n with delivery := some { d with stage := stage } } := by
    intro d stage hd hp hnew
    refine h.stage (quiet hd hp) _ ?_ ?_
    · rintro d' ⟨rfl⟩
      exact hnew
    · rintro d' ⟨rfl⟩ hch
      exact h.changed d hd hch hp
  cases hmoved with
  | same => exact h
  | delivered n id e he hd =>
    refine h.stage (by simp [hd]) _ ?_ ?_
    · rintro d' ⟨rfl⟩
      rfl
    · rintro d' ⟨rfl⟩ hch
      cases hch
  | staged o n d stage st hst hd hfrom hto =>
    exact goesOn hd (Stage.not_pending_of_canAbort hfrom) (Stage.not_pending_of_canAbort hto)
  | ended o n d st hst hd hfrom => exact ends (quiet hd (Stage.not_pending_of_canAbort hfrom))
  | looked n now d c hd hs hm => exact nodeInv_looked h hd (by rw [hs]; rfl) hm looked_queued
  | blind n d hd hs hm =>
    refine ⟨h.hydrated, ?_, ?_, ?_, ?_⟩
    · intro c hc
      rw [hm] at hc
      cases hc
    · rintro d' ⟨rfl⟩ - hpend
      cases hpend
    · rintro d' c ⟨rfl⟩ - hx
      cases hx
    · rintro d' blob ⟨rfl⟩ - hx
      cases hx
  | took n d c hd hs hm =>
    refine ⟨h.hydrated, ?_, ?_, ?_, ?_⟩
    · intro c' hc e he
      rcases h.cached c' hc e he with he | ⟨d', hd', rfl, hch, -⟩
      · exact .inl he
      · rw [hd, Option.some.injEq] at hd'
        subst hd'
        exact .inr ⟨_, rfl, rfl, hch, rfl⟩
    · rintro d' ⟨rfl⟩ - hpend
      cases hpend
    · rintro d' c' ⟨rfl⟩ - hx
      cases hx
    · rintro d' blob ⟨rfl⟩ hch ⟨rfl⟩
      exact h.queued d c hd hch hs hm
  | replied n d blob outcome hd hs =>
    refine nodeInv_replied h hd hs ?_ (hk d hd blob (by simp [Delivery.blob, hs])).2
    intro hw
    simp [afterReply, hw, commandsOf]
  | settled n d hd hs => exact goesOn hd (by rw [hs]; rfl) rfl
  | threw n d written hd hs => exact ends (quiet hd (by rw [hs]; rfl))
  | refused n d outcome hd hs =>
    exact ⟨h.hydrated, by simp, by simp, by simp, by simp⟩
  | crashed n => exact .idle
  | called n c o hm hw => exact h.write hm _ (causeOf_ne _ o) _
  | botAnswered n sim now c hm => exact h.write hm _ (by simp) _
  | persisting n c hm => exact ⟨h.hydrated, h.cached, h.changed, h.queued, h.writing⟩
  | persisted n i blob outcome hb => exact ⟨h.hydrated, h.cached, h.changed, h.queued, h.writing⟩
  | evicted n => exact h.cache none (by simp) (by simp)
  | missed n => exact ⟨h.hydrated, h.cached, h.changed, h.queued, h.writing⟩
  | unread n st hst => exact ⟨h.hydrated, h.cached, h.changed, h.queued, h.writing⟩
  | decoded n c m hs hm =>
    refine ⟨?_, h.cached, h.changed, h.queued, h.writing⟩
    intro c' hc' e he
    rcases List.mem_append.1 hc' with hc' | hc'
    · exact h.hydrated c' hc' e he
    · obtain rfl := List.mem_singleton.1 hc'
      rw [hs]
      exact he
  | installed n i key c hi =>
    have hcached : ∀ c', some (⟨Cluster.rehydrated c.machine key, c.trace⟩ : Copy) = some c' → ∀ e ∈ c'.commands,
        e ∈ commandsOf s.state := by
      rintro c' ⟨rfl⟩ e he
      exact h.hydrated c (List.mem_of_getElem? hi) e he
    have hcache : NodeInv (commandsOf s.state)
        { s.nodes n with machine := some ⟨Cluster.rehydrated c.machine key, c.trace⟩ } := by
      refine h.cache _ (fun c' hc' e he => .inl (hcached c' hc' e he)) ?_
      intro d c' hd hch hs
      rw [hk d hd hs] at hch
      cases hch
    refine ⟨?_, hcache.cached, hcache.changed, hcache.queued, hcache.writing⟩
    intro c' hc' e he
    exact h.hydrated c' (List.mem_of_mem_eraseIdx hc') e he

structure DurabilityInv (s : Commands) : Prop where
  stored : ∀ e ∈ s.stored, e ∈ s.storedCommands
  nodes : ∀ n, NodeInv s.storedCommands (s.nodes n)

theorem durabilityInv_init (creator : String) (m : Machine) : DurabilityInv (init creator m) where
  stored := by simp [init]
  nodes := by
    intro n
    simp only [init, Function.update_apply]
    split_ifs
    · exact NodeInv.idle.cache _ (by rintro c ⟨rfl⟩ e he; cases he) (by simp [Consumer.idle])
    · exact .idle

/-- one step keeps the invariant -/
theorem step_durabilityInv (J : StringOps) (s : Commands) (o : CommandOp) (hk : Keeps J s o) (h : DurabilityInv s) :
    DurabilityInv (s.step J o) := by
  obtain ⟨st, n, node, hstate, hstored, hnodes, hmoved⟩ := step_moves J s o
  have hb := hmoved.builds hk
  have hcs : (s.step J o).storedCommands = commandsOf st.1 := by rw [storedCommands, hstate]
  refine ⟨?_, ?_⟩
  · rw [hstored, hcs]
    exact hmoved.stored_subset hb h.stored
  · intro k
    rw [hnodes, hcs, Function.update_apply]
    split_ifs with hkn
    · exact hmoved.nodeInv hk (h.nodes n)
    · exact (h.nodes k).mono hb

/-! ## Result -/

/-- **Acknowledged means durable.** In every run from a created match in which no persist of a changed machine throws
without having written, no load replaces the machine of a command that waits for its persist, and what is stored stays
stored, every XACK comes for an entry whose effect is in the stored blob, or that has no effect. -/
theorem acked_is_durable (J : StringOps) (creator : String) (m : Machine) (ops : List CommandOp)
    (hk : Along (step J) (Keeps J) (init creator m) ops) : Along (step J) AckDurable (init creator m) ops := by
  refine along_of_inv (step J) (Keeps J) AckDurable (fun s => DurabilityInv s ∧ Every LogsKept s) ?_ ?_ _ ops hk
    ⟨durabilityInv_init creator m, every_init (by simp [LogsKept])⟩
  · rintro s o hko ⟨h, hlogs⟩
    exact ⟨step_durabilityInv J s o hko h, step_every (fun c c' hg => hg.logsKept) hlogs⟩
  · rintro s o - ⟨h, hlogs⟩
    cases o with
    | xack n =>
      intro d hd hack
      have hp : d.stage.pending = false := by
        cases hs : d.stage <;> simp [hs, Stage.isAcking] at hack
        rfl
      have hn := h.nodes n
      by_cases hmem : d.entry ∈ s.storedCommands
      · -- the effect is stored, with the events it logged
        left
        cases hs : s.state with
        | none => simp [storedCommands, commandsOf, hs] at hmem
        | some c =>
          rw [storedCommands, hs] at hmem
          obtain ⟨x, hx, hcause⟩ := Copy.mem_commands.1 hmem
          refine ⟨c, rfl, x, hx, hcause, ?_⟩
          rw [Cluster.eventLogOf_serialize]
          exact hlogs c (.inl hs) x hx
      · right
        refine ⟨?_, fun hx => hmem (h.stored _ hx), ?_⟩
        · cases hch : d.changed with
          | false => rfl
          | true => exact absurd (hn.changed d hd hch hp) hmem
        · intro c hc he
          refine hmem (hn.all_stored ?_ hc he)
          intro d' hd' _
          rw [Option.mem_def.1 hd, Option.some.injEq] at hd'
          rw [← hd', hp]
    | _ => trivial

/-! ## Schedules -/

instance (s : Commands) (n : String) (d : Delivery) : Decidable (s.HasNoEffect n d) :=
  inferInstanceAs (Decidable (_ ∧ _ ∧ _))

instance (J : StringOps) (s : Commands) : (o : CommandOp) → Decidable (Keeps J s o)
  | .reply n outcome => inferInstanceAs (Decidable (∀ d ∈ (s.nodes n).delivery, ∀ blob ∈ d.blob,
      (outcome.written = true → s.BuildsOn blob) ∧ (outcome = .threw false → d.changed = false)))
  | .persisted n i outcome =>
    inferInstanceAs (Decidable (∀ blob ∈ (s.nodes n).writes[i]?, outcome.written = true → s.BuildsOn blob))
  | .install n _ _ =>
    inferInstanceAs (Decidable (∀ d ∈ (s.nodes n).delivery, d.stage = .queued → d.changed = false))
  | .expire => inferInstanceAs (Decidable (s.storedCommands = []))
  | .readState _ => inferInstanceAs (Decidable (s.isReadable J = false → s.storedCommands = []))
  | .missing _ => inferInstanceAs (Decidable (s.isReadable J = false → s.storedCommands = []))
  | .handleSubmitAnswer .. | .forward .. | .forwardInvalid | .deadLetter .. | .deliver .. | .sismember ..
  | .look .. | .takeBlob .. | .finish .. | .sadd .. | .recover .. | .xack .. | .abort .. | .crash .. | .call ..
  | .botAnswer .. | .persist .. | .evictStateMachine .. | .getStateMachine .. => .isTrue trivial

/-- alice answers, and the entry is acknowledged -/
def answered : List CommandOp :=
  opens "n1" ++ stores "n1" ++ [submits "n1" "alice" "s1" "e1" 1 1000] ++ takes "n1" 0 1000 ++ writes "n1" .applied ++
    [.sadd "n1" true, .xack "n1"]

theorem acked_is_durable_alice :
    (run (step StringOps.ascii) (init "n1" twoPlayers) answered).acked = [0] ∧
      Along (step StringOps.ascii) AckDurable (init "n1" twoPlayers) answered := by
  refine ⟨by decide +kernel, ?_⟩
  exact acked_is_durable StringOps.ascii "n1" twoPlayers answered (by decide +kernel)

/-- the persist of the answer throws; the entry is handed to the node again, and is found in its memory -/
def thrown : List CommandOp :=
  opens "n1" ++ stores "n1" ++ [submits "n1" "alice" "s1" "e1" 1 1000] ++ takes "n1" 0 1000 ++
    writes "n1" (.threw false) ++ takes "n1" 0 2000 ++ [.recover "n1" true]

/-- **A thrown persist is acknowledged.** The answer is in the memory of the node and in no stored blob, and its entry
is acknowledged. -/
theorem thrown_persist_acked :
    ¬Along (step StringOps.ascii) AckDurable (init "n1" twoPlayers) (thrown ++ [.xack "n1"]) := by
  intro h
  have hlast : AckDurable (run (step StringOps.ascii) (init "n1" twoPlayers) thrown) (.xack "n1") :=
    ((along_append _ _ _ thrown [_]).1 h).2.1
  revert hlast
  simp only [AckDurable]
  decide +kernel

end Commands

end Arena.Api
