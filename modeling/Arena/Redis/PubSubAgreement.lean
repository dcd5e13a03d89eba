/-
The handler map and the subscriber connection.

- `AgreeInv`, `run_agreeInv`: every channel is in order in every run without a late hand-off;
- `registry_agrees`: so handler map and connection agree whenever nothing is in flight or owed; and no wait is in vain;
- `late_handOff_leaks`: after a late hand-off a channel stays subscribed that nobody listens to.
-/
import Arena.Redis.PubSubChannels

namespace Arena.Redis.PubSub

open Arena.Lib

namespace State

section Agreement

variable {H : Type} {s t u : State H} {i : ℕ} {o : Op H} {ch : String}

/-- what every state without a late hand-off keeps -/
structure AgreeInv (s : State H) : Prop where
  block : BlockInv s
  rebuild : RebuildOk s
  channel : ∀ ch, ChannelOk s ch

theorem AgreeInv.touch (h : AgreeInv s) (ho : s.ops[i]? = some o)
    (ht : Touches s t i o.channel ∧ ChannelOk t o.channel) : RebuildOk t ∧ ∀ ch, ChannelOk t ch := by
  refine ⟨ht.1.rebuildOk h.rebuild, fun ch => ?_⟩
  by_cases hne : ch = o.channel
  · rw [hne]
    exact ht.2
  · exact ht.1.channelOk h.block.lanes ho hne (h.channel ch)

/-- a step of an operation that is in no chain -/
theorem AgreeInv.idle {own : String} (h : AgreeInv s) (ht : Touches s t i own)
    (hout : ∀ x, s.ops[i]? = some x → x.phase.isChained = false) (hhand : t.handlers = s.handlers)
    (hchains : t.chains = s.chains) (hlive : ∀ ch, t.isLive ch = s.isLive ch) : RebuildOk t ∧ ∀ ch, ChannelOk t ch :=
  ⟨ht.rebuildOk h.rebuild, fun ch => ht.idle_channelOk h.block.lanes hout hhand hchains (hlive ch) (h.channel ch)⟩

theorem rebuildOk_of_none (h : s.reset = none) : RebuildOk s := by
  intro v cur c hv
  rw [h] at hv
  cases hv

theorem agreeInv_init : AgreeInv (init : State H) :=
  ⟨blockInv_init, rebuildOk_of_none rfl,
    fun _ => .of_gone rfl (by simp [init]) (by simp [init, runner]) rfl (by simp [init])⟩

/-- the drain is over, and a connection without subscriptions is rebuilt from the map -/
theorem AgreeInv.rebuildStart (h : AgreeInv s) : RebuildOk s.rebuild ∧ ∀ ch, ChannelOk s.rebuild ch := by
  refine visitNext_agree (s := s.mint) rfl (fun ch => (h.channel ch).base) ?_ ?_ ?_
  · intro ch hch
    cases hch
  · intro ch hch
    cases hch
  · intro ch _ hlive
    rw [isLive_mint] at hlive
    cases hlive

/-- a SUBSCRIBE of the rebuild has settled -/
theorem AgreeInv.rebuildReply {v : List String} {cur : String} {c : Call} (h : AgreeInv s)
    (hreset : s.reset = some (.rebuilding v cur c)) (r : Reply) :
    let s1 := s.takeEffect c.conn cur true r
    let t := if r = .ok then s1.visitNext v c.conn else s1.failReset
    RebuildOk t ∧ ∀ ch, ChannelOk t ch := by
  intro s1 t
  have hsub := (h.rebuild v cur c hreset).1
  have hrunner : ∀ ch, s1.runner ch = s.runner ch := fun ch => runner_congr (by simp [s1]) fun j _ => by simp [s1]
  have hhand : s1.handlers = s.handlers := by simp [s1]
  have hsub1 : s1.subscriber = s.subscriber := by simp [s1]
  have hbase : ∀ ch, s1.handlers.get ch ≠ some [] ∧
      (∀ o c, s1.runner ch = some o → o.phase = .subscribing c → s1.handlers.get ch = some [o.handler]) ∧
      ∀ o, s1.runner ch = some o → o.phase.ceases = true → s1.handlers.get ch = none := by
    intro ch
    rw [hrunner, hhand]
    exact (h.channel ch).base
  have hcov : ∀ ch, s1.handlers.get ch = none → s1.isLive ch = true →
      ∃ o c, s1.runner ch = some o ∧ o.phase.undoes = some c ∧ s1.subscriber = some c.conn := by
    intro ch hnone hlive
    rw [hhand] at hnone
    rw [hrunner, hsub1]
    exact (h.channel ch).undoing hreset hnone hlive
  by_cases hr : r = .ok
  · have ht : t = s1.visitNext v c.conn := if_pos hr
    rw [ht]
    refine visitNext_agree (hsub1.trans hsub) hbase ?_ ?_ hcov
    · intro ch hch
      rw [hhand]
      exact (h.channel ch).passed v cur c hreset hch
    · intro ch hch
      simp only [s1, isLive_takeEffect]
      split_ifs with hcur
      · rfl
      · have hne : ch ≠ cur := fun he => hcur ⟨by simp [hr], hsub, he⟩
        exact (h.channel ch).rebuilt v cur c hreset hch hne
  · have ht : t = s1.failReset := if_neg hr
    rw [ht]
    refine ⟨rebuildOk_of_none rfl, fun ch => ?_⟩
    obtain ⟨hne, hsubs, hcease⟩ := hbase ch
    refine ⟨hne, hsubs, hcease, ?_, ?_, ?_, ?_, ?_⟩
    · intro v cur c hv
      cases hv
    · intro v cur c hv
      cases hv
    · intro _ hpend
      cases hpend
    · intro hnone hlive
      obtain ⟨o, c, ho, hu, hs⟩ := hcov ch hnone hlive
      exact ⟨o, ho, .inl ⟨c, hu, hs⟩⟩
    · intro v c hv
      cases hv

/-- a channel on which nothing runs, while no reset runs or is owed -/
theorem AgreeInv.agreed (h : AgreeInv s) (hr : s.reset = none) (hp : s.resetPending = false)
    (hrun : s.runner ch = none) : s.isLive ch = true ↔ s.hasHandlers ch = true := by
  have hc := h.channel ch
  constructor
  · intro hlive
    cases hget : s.handlers.get ch with
    | none =>
      obtain ⟨x, hx, -⟩ := hc.covered hget hlive
      rw [hrun] at hx
      cases hx
    | some l =>
      have hpos : 0 < l.length := List.length_pos_of_ne_nil fun hnil => hc.nonempty (hnil ▸ hget)
      simp [hasHandlers, hget, hpos]
  · intro hhas
    have hget : s.handlers.get ch ≠ none := by
      intro hnone
      rw [hasHandlers_of_none hnone] at hhas
      cases hhas
    rcases hc.agreed hr hp hget with hlive | ⟨x, c, hx, -⟩
    · exact hlive
    · rw [hrun] at hx
      cases hx

/-- when every operation has settled, none runs -/
theorem runner_of_settled (h : ∀ o ∈ s.ops, o.phase = .settled) (ch : String) : s.runner ch = none := by
  unfold runner
  cases s.chains ch with
  | nil => rfl
  | cons j rest =>
    simp only [List.head?_cons, Option.bind_some]
    cases hx : s.ops[j]? with
    | none => rfl
    | some x => simp [Option.filter, h x (List.mem_of_getElem? hx), Phase.isRunning]

theorem AgreeInv.enter (h : AgreeInv s) (kind : Kind) (channel : String) (handler : H) :
    RebuildOk (s.enter kind channel handler) ∧ ∀ ch, ChannelOk (s.enter kind channel handler) ch := by
  unfold State.enter
  generalize hu : ({ s with ops := s.ops ++ [Op.mk kind channel handler .admitted false] } : State H) = u
  obtain ⟨ht, hhand, hchains, hlive⟩ := awaitResetBarrier_facts u s.ops.length channel
  have hnew : Touches s u s.ops.length channel := by
    subst hu
    refine touches_own (fun j hj => ?_) (fun _ _ => rfl) rfl rfl rfl rfl rfl rfl le_rfl
    rw [List.getElem?_append]
    split_ifs with hlt
    · rfl
    · rw [List.getElem?_eq_none (by simp; omega), List.getElem?_eq_none (by omega)]
  subst hu
  exact h.idle (hnew.trans ht) (fun x hx => by simp at hx) hhand hchains hlive

variable [DecidableEq H]

theorem AgreeInv.resume (h : AgreeInv s) (ho : s.ops[i]? = some o) (hcan : s.canRun (.op i) = true) :
    RebuildOk (s.resume i o) ∧ ∀ ch, ChannelOk (s.resume i o) ch := by
  have hl := h.block.lanes
  simp only [canRun, ho] at hcan
  unfold State.resume
  cases hp : o.phase with
  | atBarrier r =>
    have hout : ∀ x, s.ops[i]? = some x → x.phase.isChained = false := by
      intro x hx
      obtain rfl := Option.some.inj (ho.symm.trans hx)
      rw [hp]
      rfl
    simp only
    split_ifs
    · obtain ⟨ht, hhand, hchains, hlive⟩ := awaitResetBarrier_facts s i o.channel
      exact h.idle ht hout hhand hchains hlive
    · exact h.idle (touches_setPhase s i _ o.channel) hout rfl rfl fun _ => rfl
  | admitted =>
    exact h.touch ho ⟨touches_chain s i o, chain_channelOk hl ho (by rw [hp]; rfl) (h.channel _)⟩
  | queued =>
    simp only [hp, decide_eq_true_eq] at hcan
    have hidle : o.phase.isRunning = false := by rw [hp]; rfl
    have hflight := touches_inFlight s (s.inFlight.add i) i o.channel
    have hc : ChannelOk { s with inFlight := s.inFlight.add i } o.channel :=
      hflight.channelOk_of rfl rfl rfl (h.channel _)
    have hlu : LaneInv { s with inFlight := s.inFlight.add i } := hl.congr rfl rfl
    refine h.touch ho ?_
    unfold runInFlight
    cases o.kind with
    | subscribe =>
      obtain ⟨ht, hok⟩ := doSubscribe_channelOk hlu ho hcan hidle hc
      exact ⟨hflight.trans ht, hok⟩
    | unsubscribe =>
      obtain ⟨ht, hok⟩ := doUnsubscribe_channelOk hlu (hflight.rebuildOk h.rebuild) ho hcan hidle hc
      exact ⟨hflight.trans ht, hok⟩
  | handedOff r =>
    simp only [hp] at hcan
    have hh := hl.head i o ho (by rw [hp]; rfl)
    exact h.touch ho ⟨touches_finish s i o, handedOff_finish_channelOk hl ho hh hp hcan (h.channel _)⟩
  | _ => exact ⟨h.rebuild, h.channel⟩

/-- **One step.** -/
theorem AgreeInv.step (h : AgreeInv s) (e : Event H) (hlate : s.lateHandOff e = false) : AgreeInv (s.step e) := by
  have hblock := h.block.step e
  suffices hstep : RebuildOk (s.step e) ∧ ∀ ch, ChannelOk (s.step e) ch from ⟨hblock, hstep.1, hstep.2⟩
  have hstay : RebuildOk s ∧ ∀ ch, ChannelOk s ch := ⟨h.rebuild, h.channel⟩
  cases e with
  | call kind channel handler => exact h.enter kind channel handler
  | run x =>
    simp only [State.step]
    split_ifs with hcan
    · cases x with
      | op i =>
        simp only
        split
        · exact h.resume ‹_› hcan
        · exact hstay
      | reset => exact h.rebuildStart
    · exact hstay
  | reply x r =>
    cases x with
    | op i =>
      simp only [State.step]
      split
      · rename_i o ho
        split_ifs with harr
        · obtain ⟨c, hcall, harr'⟩ := (Option.any_eq_true _ _).1 harr
          have hrun := running_of_call (p := o.phase) (by rw [hcall]; rfl)
          have hh := h.block.lanes.head i o ho hrun
          exact h.touch ho (replied_channelOk h.block.lanes h.rebuild ho hh hcall harr' hlate (h.channel _))
        · exact hstay
      · exact hstay
    | reset =>
      simp only [State.step]
      split
      · rename_i v cur c hreset
        split_ifs with harr hr
        · have hreply := h.rebuildReply hreset r
          simp only [if_pos hr] at hreply
          exact hreply
        · have hreply := h.rebuildReply hreset r
          simp only [if_neg hr] at hreply
          exact hreply
        · exact hstay
      · exact hstay

theorem run_agreeInv (es : List (Event H)) (hg : Along step (fun s e => s.lateHandOff e = false) init es) :
    AgreeInv (run step init es) :=
  run_inv step (fun s e => s.lateHandOff e = false) AgreeInv (fun _ e he h => h.step e he) init es hg agreeInv_init

/-- **Registry and connection.** In every run without a late hand-off the connection is subscribed to exactly the
channels that have handlers, whenever nothing is in flight or owed. In every run, once no Redis call is out, whoever has
not finished waits, through others, for a party that can run, and nobody for itself. -/
theorem registry_agrees (es : List (Event H)) :
    let s := run step init es
    (Along step (fun s e => s.lateHandOff e = false) init es → s.Quiescent →
      ∀ ch, s.isLive ch = true ↔ s.hasHandlers ch = true) ∧
    (s.calls = [] →
      (∀ (i : ℕ) (o : Op H), s.ops[i]? = some o → o.phase ≠ .settled →
        ∃ x, Relation.ReflTransGen (Waits s) (.op i) x ∧ s.canRun x = true) ∧
      ∀ x, ¬Relation.TransGen (Waits s) x x) := by
  intro s
  have hblock : BlockInv s := run_blockInv es
  refine ⟨fun hg hq ch => ?_, fun hc => ⟨fun i o ho hs => hblock.unblocked hc ho hs, hblock.waits_acyclic hc⟩⟩
  exact (run_agreeInv es hg).agreed hq.2.1 hq.2.2 (runner_of_settled hq.1 ch)

end Agreement

/-- three channels, and the end of one whose UNSUBSCRIBE fails: the reset rebuilds the connection -/
def resetRun : List (Event ℕ) :=
  [.call .subscribe "b" 1, .run (.op 0), .run (.op 0), .reply (.op 0) .ok,
   .call .subscribe "a" 2, .run (.op 1), .run (.op 1), .reply (.op 1) .ok,
   .call .subscribe "c" 3, .run (.op 2), .run (.op 2), .reply (.op 2) .ok,
   .call .unsubscribe "c" 3, .run (.op 3), .run (.op 3), .call .unsubscribe "b" 1,
   .reply (.op 3) .failedBefore, .run .reset]

/-- the run goes on without a late hand-off: `b` is unsubscribed on the new connection -/
theorem registry_agrees_reset :
    let es := resetRun ++ [.run (.op 4), .run (.op 4), .reply .reset .ok, .reply (.op 4) .ok, .reply .reset .ok,
      .run (.op 3)]
    (∀ ch, (run step init es).isLive ch = true ↔ (run step init es).hasHandlers ch = true) ∧
      ∀ x, ¬Relation.TransGen (Waits (run step init es)) x x :=
  ⟨(registry_agrees _).1 (by decide +kernel) (by decide +kernel), ((registry_agrees _).2 (by decide +kernel)).2⟩

/-- It goes on with one: the last UNSUBSCRIBE of `b` fails after the reset has subscribed `b` on the new connection.
Everything settles, and `b` is subscribed without a handler. -/
theorem late_handOff_leaks :
    let es := resetRun ++ [.run (.op 4), .run (.op 4), .reply .reset .ok, .reply (.op 4) .failedBefore,
      .reply .reset .ok, .run (.op 3), .run (.op 4)]
    (run step init es).Quiescent ∧ (run step init es).isLive "b" = true ∧
      (run step init es).hasHandlers "b" = false := by
  decide +kernel

end State

end Arena.Redis.PubSub
