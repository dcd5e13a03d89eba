/-
A channel of the pub/sub registry: its handler list, its subscription and the operation that runs on it.

- `ChannelOk`: the operation that took the last handler still has an UNSUBSCRIBE out on the current connection, or waits
  for a reset that will replace the connection; a rebuild subscribes what has handlers;
- `Touches`: a step of an operation is no matter of the other channels;
- `lateHandOff`: an operation whose last UNSUBSCRIBE failed on the connection that a running reset has already rebuilt
  for its channel takes that reset for one still to come;
- `doSubscribe_channelOk`, `doUnsubscribe_channelOk`, `replied_channelOk`: what each step leaves on its own channel;
- `visitNext_agree`: what the rebuild leaves on all of them.
-/
import Arena.Redis.PubSubWaits

namespace Arena.Redis.PubSub

open Arena.Lib

/-- the UNSUBSCRIBE that is out -/
def Phase.undoes : Phase → Option Call
  | .reconciling c _ => some c
  | .unsubscribing c => some c
  | _ => none

/-- the operation has taken the last handler of its channel -/
def Phase.ceases : Phase → Bool
  | .reconciling _ _ => true
  | .unsubscribing _ => true
  | .handedOff _ => true
  | _ => false

/-- the operation hands off when its UNSUBSCRIBE fails -/
def Op.givesUp {H : Type} (o : Op H) : Bool :=
  match o.phase with
  | .reconciling _ attempt => decide (reconcileRetries ≤ attempt + 1)
  | .unsubscribing _ => true
  | _ => false

namespace State

/-- an operation whose last UNSUBSCRIBE fails meets a reset that has already subscribed its channel, or is about to -/
def lateHandOff {H : Type} (s : State H) : Event H → Bool
  | .reply (.op i) .failedBefore =>
    match s.ops[i]?, s.reset with
    | some o, some (.rebuilding _ channel _) => o.givesUp && (s.isLive o.channel || decide (channel = o.channel))
    | _, _ => false
  | _ => false

section Channels

variable {H : Type} {s t u : State H} {i : ℕ} {o : Op H} {ch : String}

/-- the operation that runs on a channel -/
def runner (s : State H) (ch : String) : Option (Op H) :=
  (s.chains ch).head?.bind fun i => s.ops[i]?.filter fun o => o.phase.isRunning

/-! ## Who runs -/

theorem runner_congr (hchains : t.chains ch = s.chains ch)
    (hops : ∀ j ∈ s.chains ch, t.ops[j]? = s.ops[j]?) : t.runner ch = s.runner ch := by
  unfold runner
  rw [hchains]
  cases hc : s.chains ch with
  | nil => rfl
  | cons j rest =>
    simp only [List.head?_cons, Option.bind_some]
    rw [hops j (by rw [hc]; exact List.mem_cons_self)]

theorem runner_eq (hh : (s.chains o.channel).head? = some i) (ho : s.ops[i]? = some o)
    (hr : o.phase.isRunning = true) : s.runner o.channel = some o := by
  simp [runner, hh, ho, Option.filter, hr]

theorem runner_queued (hh : (s.chains o.channel).head? = some i) (ho : s.ops[i]? = some o)
    (hr : o.phase.isRunning = false) : s.runner o.channel = none := by
  simp [runner, hh, ho, Option.filter, hr]

theorem runner_finish (h : LaneInv s) (hh : (s.chains o.channel).head? = some i)
    (hops : u.ops = s.ops) (hchains : u.chains = s.chains) : (u.finish i o).runner o.channel = none := by
  have hchain := chain_eq hh
  have htail : (u.finish i o).chains o.channel = (s.chains o.channel).tail := by
    simp only [finish, setPhase, hchains, Function.update_self]
  unfold runner
  rw [htail]
  cases hc : (s.chains o.channel).tail with
  | nil => rfl
  | cons j rest =>
    have hnodup := h.nodup o.channel
    rw [hchain, hc, List.nodup_cons] at hnodup
    have hij : i ≠ j := fun hij => hnodup.1 (hij ▸ List.mem_cons_self)
    have hmem : j ∈ s.chains o.channel := by
      rw [hchain, hc]
      exact List.mem_cons_of_mem _ List.mem_cons_self
    obtain ⟨x, hx, hxch, -⟩ := h.sound o.channel j hmem
    have hget : (u.finish i o).ops[j]? = some x := by
      rw [show (u.finish i o).ops[j]? = u.ops[j]? from getElem?_setPhase_ne _ hij _, hops, hx]
    -- only the head of a chain runs
    have hidle : x.phase.isRunning = false := by
      by_contra hrun
      have hhead := h.head j x hx (by simpa using hrun)
      rw [hxch, hh] at hhead
      exact hij (Option.some.inj hhead)
    simp [hget, Option.filter, hidle]

theorem runner_issue (ho : s.ops[i]? = some o) (hh : (s.chains o.channel).head? = some i) (hops : u.ops = s.ops)
    (hchains : u.chains = s.chains) (conn : ℕ) (p : Call → Phase) (hp : ∀ c, (p c).isRunning = true) :
    (u.issue i conn p).runner o.channel = some { o with phase := p ⟨conn, u.issued⟩ } := by
  have hget : (u.issue i conn p).ops[i]? = some { o with phase := p ⟨conn, u.issued⟩ } :=
    getElem?_setPhase_self (s := { u with issued := u.issued + 1 }) (hops.symm ▸ ho) _
  have hhead : ((u.issue i conn p).chains o.channel).head? = some i := by
    rw [show (u.issue i conn p).chains = s.chains from hchains]
    exact hh
  exact runner_eq (o := { o with phase := p ⟨conn, u.issued⟩ }) hhead hget (hp _)

theorem runner_handOff (ho : s.ops[i]? = some o) (hh : (s.chains o.channel).head? = some i) (hops : u.ops = s.ops)
    (hchains : u.chains = s.chains) :
    ∃ x, (u.handOff i).runner o.channel = some x ∧ x.phase = .handedOff u.outcomes.length := by
  obtain ⟨x, hx, hxch⟩ : ∃ x, (u.resetSubscriber (some i)).ops[i]? = some x ∧ x.channel = o.channel := by
    cases hr : u.reset with
    | some y =>
      obtain ⟨x, hx, -, hch, -⟩ := get_detach (s := u) (i := i) (hops.symm ▸ ho)
      refine ⟨x, ?_, hch⟩
      simpa only [resetSubscriber, hr] using hx
    | none =>
      refine ⟨o, ?_, rfl⟩
      simpa only [resetSubscriber, hr, hops] using ho
  have hget : (u.handOff i).ops[i]? = some { x with phase := .handedOff u.outcomes.length } :=
    getElem?_setPhase_self hx _
  have hhead : ((u.handOff i).chains x.channel).head? = some i := by
    rw [show (u.handOff i).chains = u.chains from (resetSubscriber_facts u (some i)).1, hchains, hxch]
    exact hh
  refine ⟨{ x with phase := .handedOff u.outcomes.length }, ?_, rfl⟩
  rw [← hxch]
  exact runner_eq (o := { x with phase := .handedOff u.outcomes.length }) hhead hget rfl

/-! ## A channel -/

/-- how the handlers, the subscription and the operation of a channel stand to each other -/
structure ChannelOk (s : State H) (ch : String) : Prop where
  nonempty : s.handlers.get ch ≠ some []
  subscribing : ∀ o c, s.runner ch = some o → o.phase = .subscribing c → s.handlers.get ch = some [o.handler]
  ceasing : ∀ o, s.runner ch = some o → o.phase.ceases = true → s.handlers.get ch = none
  /-- the iterator has passed entries of the map -/
  passed : ∀ v cur c, s.reset = some (.rebuilding v cur c) → ch ∈ v → s.handlers.get ch ≠ none
  rebuilt : ∀ v cur c, s.reset = some (.rebuilding v cur c) → ch ∈ v → ch ≠ cur → s.isLive ch = true
  agreed : s.reset = none → s.resetPending = false → s.handlers.get ch ≠ none →
    s.isLive ch = true ∨ ∃ o c, s.runner ch = some o ∧ o.phase = .subscribing c ∧ s.subscriber = some c.conn
  covered : s.handlers.get ch = none → s.isLive ch = true → ∃ o, s.runner ch = some o ∧
    ((∃ c, o.phase.undoes = some c ∧ s.subscriber = some c.conn) ∨
      (∃ d, s.reset = some (.draining d)) ∧ o.phase = .handedOff s.outcomes.length)
  /-- behind the rebuild's SUBSCRIBE of a channel that has lost its handlers stands an UNSUBSCRIBE -/
  overtaken : ∀ v c, s.reset = some (.rebuilding v ch c) → s.handlers.get ch = none →
    ∃ o d, s.runner ch = some o ∧ o.phase.undoes = some d ∧ s.subscriber = some d.conn ∧ c.ticket < d.ticket

/-- the rebuild subscribes on the current connection -/
def RebuildOk (s : State H) : Prop :=
  ∀ v cur c, s.reset = some (.rebuilding v cur c) → s.subscriber = some c.conn ∧ c.ticket < s.issued

/-- the second state differs from the first at one operation and its channel -/
structure Touches (s t : State H) (i : ℕ) (own : String) : Prop where
  ops : ∀ j, i ≠ j → t.ops[j]? = s.ops[j]?
  chains : ∀ ch, ch ≠ own → t.chains ch = s.chains ch
  list : ∀ ch, ch ≠ own → t.handlers.get ch = s.handlers.get ch
  live : ∀ ch, ch ≠ own → t.isLive ch = s.isLive ch
  subscriber : ∀ k, s.subscriber = some k → t.subscriber = some k
  rebuilding : ∀ v' cur c, t.reset = some (.rebuilding v' cur c) →
    ∃ v, s.reset = some (.rebuilding v cur c) ∧ ∀ ch ∈ v', ch ∈ v
  draining : ∀ d, s.reset = some (.draining d) → ∃ d', t.reset = some (.draining d')
  idle : t.reset = none → t.resetPending = false → s.reset = none ∧ s.resetPending = false
  outcomes : t.outcomes = s.outcomes
  issued : s.issued ≤ t.issued

theorem Touches.refl (s : State H) (i : ℕ) (own : String) : Touches s s i own :=
  ⟨fun _ _ => rfl, fun _ _ => rfl, fun _ _ => rfl, fun _ _ => rfl, fun _ h => h, fun v _ _ h => ⟨v, h, fun _ => id⟩,
    fun d h => ⟨d, h⟩, fun hr hp => ⟨hr, hp⟩, rfl, le_rfl⟩

theorem Touches.trans {own : String} (h : Touches s t i own) (k : Touches t u i own) : Touches s u i own where
  ops j hj := (k.ops j hj).trans (h.ops j hj)
  chains ch hne := (k.chains ch hne).trans (h.chains ch hne)
  list ch hne := (k.list ch hne).trans (h.list ch hne)
  live ch hne := (k.live ch hne).trans (h.live ch hne)
  subscriber n hn := k.subscriber n (h.subscriber n hn)
  rebuilding v'' cur c hv := by
    obtain ⟨v', hv', hin'⟩ := k.rebuilding v'' cur c hv
    obtain ⟨v, hv, hin⟩ := h.rebuilding v' cur c hv'
    exact ⟨v, hv, fun ch hch => hin ch (hin' ch hch)⟩
  draining d hd := by
    obtain ⟨d', hd'⟩ := h.draining d hd
    exact k.draining d' hd'
  idle hr hp := h.idle (k.idle hr hp).1 (k.idle hr hp).2
  outcomes := k.outcomes.trans h.outcomes
  issued := h.issued.trans k.issued

/-- a channel whose handlers, subscription and runner stay is as it was -/
theorem Touches.channelOk_of {own : String} (h : Touches s t i own) (hlist : t.handlers.get ch = s.handlers.get ch)
    (hlive : t.isLive ch = s.isLive ch) (hrunner : t.runner ch = s.runner ch) (hc : ChannelOk s ch) :
    ChannelOk t ch := by
  refine ⟨?_, ?_, ?_, ?_, ?_, ?_, ?_, ?_⟩
  · rw [hlist]
    exact hc.nonempty
  · rw [hrunner, hlist]
    exact hc.subscribing
  · rw [hrunner, hlist]
    exact hc.ceasing
  · intro v cur c hr hin
    obtain ⟨v', hr', hin'⟩ := h.rebuilding v cur c hr
    rw [hlist]
    exact hc.passed v' cur c hr' (hin' ch hin)
  · intro v cur c hr hin hcur
    obtain ⟨v', hr', hin'⟩ := h.rebuilding v cur c hr
    rw [hlive]
    exact hc.rebuilt v' cur c hr' (hin' ch hin) hcur
  · intro hr hp hget
    obtain ⟨hr', hp'⟩ := h.idle hr hp
    rw [hlist] at hget
    rw [hlive, hrunner]
    refine (hc.agreed hr' hp' hget).imp_right ?_
    rintro ⟨x, c, hx, hxp, hsub⟩
    exact ⟨x, c, hx, hxp, h.subscriber _ hsub⟩
  · intro hget hlv
    rw [hlist] at hget
    rw [hlive] at hlv
    rw [hrunner, h.outcomes]
    obtain ⟨x, hx, hor⟩ := hc.covered hget hlv
    refine ⟨x, hx, ?_⟩
    rcases hor with ⟨c, hu, hsub⟩ | ⟨⟨d, hd⟩, hoff⟩
    · exact .inl ⟨c, hu, h.subscriber _ hsub⟩
    · exact .inr ⟨h.draining d hd, hoff⟩
  · intro v c hr hget
    obtain ⟨v', hr', -⟩ := h.rebuilding v ch c hr
    rw [hlist] at hget
    rw [hrunner]
    obtain ⟨x, d, hx, hu, hsub, hlt⟩ := hc.overtaken v' c hr' hget
    exact ⟨x, d, hx, hu, h.subscriber _ hsub, hlt⟩

/-- what happens at one operation is no matter of the other channels -/
theorem Touches.channelOk (h : Touches s t i o.channel) (hl : LaneInv s) (ho : s.ops[i]? = some o)
    (hne : ch ≠ o.channel) (hc : ChannelOk s ch) : ChannelOk t ch := by
  refine h.channelOk_of (h.list ch hne) (h.live ch hne) ?_ hc
  refine runner_congr (h.chains ch hne) fun j hj => h.ops j ?_
  rintro rfl
  obtain ⟨x, hx, hxch, -⟩ := hl.sound ch i hj
  obtain rfl := Option.some.inj (ho.symm.trans hx)
  exact hne hxch.symm

theorem Touches.rebuildOk {own : String} (h : Touches s t i own) (hr : RebuildOk s) : RebuildOk t := by
  intro v' cur c hv'
  obtain ⟨v, hv, -⟩ := h.rebuilding v' cur c hv'
  obtain ⟨hsub, hlt⟩ := hr v cur c hv
  exact ⟨h.subscriber _ hsub, hlt.trans_le h.issued⟩

/-! ### Single changes -/

/-- nothing changes but the operation, its chain and the calls issued -/
theorem touches_own {own : String} (hops : ∀ j, i ≠ j → t.ops[j]? = s.ops[j]?)
    (hchains : ∀ ch, ch ≠ own → t.chains ch = s.chains ch) (hh : t.handlers = s.handlers)
    (hsub : t.subscriber = s.subscriber) (hon : t.subscribed = s.subscribed) (hr : t.reset = s.reset)
    (hp : t.resetPending = s.resetPending) (hout : t.outcomes = s.outcomes) (hi : s.issued ≤ t.issued) :
    Touches s t i own where
  ops := hops
  chains := hchains
  list _ _ := by rw [hh]
  live _ _ := by simp only [isLive, hsub, hon]
  subscriber _ hk := hsub.trans hk
  rebuilding v cur c hv := ⟨v, hr ▸ hv, fun _ => id⟩
  draining d hd := ⟨d, hr.trans hd⟩
  idle hn hf := ⟨hr ▸ hn, hp ▸ hf⟩
  outcomes := hout
  issued := hi

theorem touches_setPhase (s : State H) (i : ℕ) (p : Phase) (own : String) : Touches s (s.setPhase i p) i own :=
  touches_own (fun _ hij => getElem?_setPhase_ne s hij p) (fun _ _ => rfl) rfl rfl rfl rfl rfl rfl le_rfl

theorem touches_inFlight (s : State H) (f : JsSet ℕ) (i : ℕ) (own : String) :
    Touches s { s with inFlight := f } i own :=
  touches_own (fun _ _ => rfl) (fun _ _ => rfl) rfl rfl rfl rfl rfl rfl le_rfl

theorem touches_finish (s : State H) (i : ℕ) (o : Op H) : Touches s (s.finish i o) i o.channel :=
  touches_own (fun _ hij => getElem?_setPhase_ne _ hij _) (fun _ hne => Function.update_of_ne hne _ _) rfl rfl rfl rfl
    rfl rfl le_rfl

theorem touches_chain (s : State H) (i : ℕ) (o : Op H) : Touches s (s.chain i o) i o.channel :=
  touches_own (fun _ hij => getElem?_setPhase_ne _ hij _) (fun _ hne => Function.update_of_ne hne _ _) rfl rfl rfl rfl
    rfl rfl le_rfl

theorem touches_issue (s : State H) (i conn : ℕ) (p : Call → Phase) (own : String) :
    Touches s (s.issue i conn p) i own :=
  touches_own (fun _ hij => getElem?_setPhase_ne _ hij _) (fun _ _ => rfl) rfl rfl rfl rfl rfl rfl (Nat.le_succ _)

/-- a connection that was just duplicated has no subscriptions -/
theorem isLive_mint (s : State H) (ch : String) : s.mint.isLive ch = false := by
  simp [isLive, mint]

theorem isLive_none (hs : s.subscriber = none) (ch : String) : s.isLive ch = false := by
  simp [isLive, hs]

theorem isLive_ensureSubscriber (s : State H) (ch : String) : s.ensureSubscriber.1.isLive ch = s.isLive ch := by
  unfold ensureSubscriber
  split
  · rfl
  · rename_i hs
    rw [isLive_mint, isLive_none hs]

theorem ensureSubscriber_subscriber (s : State H) :
    s.ensureSubscriber.1.subscriber = some s.ensureSubscriber.2 := by
  unfold ensureSubscriber
  split
  · assumption
  · rfl

theorem touches_ensureSubscriber (s : State H) (i : ℕ) (own : String) : Touches s s.ensureSubscriber.1 i own := by
  have hlive := isLive_ensureSubscriber s
  unfold ensureSubscriber at hlive ⊢
  split
  · exact .refl s i own
  · rename_i hs
    refine ⟨fun _ _ => rfl, fun _ _ => rfl, fun _ _ => rfl, fun ch _ => ?_, fun k hk => ?_,
      fun v _ _ h => ⟨v, h, fun _ => id⟩, fun d h => ⟨d, h⟩, fun hr hp => ⟨hr, hp⟩, rfl, le_rfl⟩
    · rw [isLive_mint, isLive_none hs]
    · rw [hs] at hk
      cases hk

theorem touches_set (s : State H) (i : ℕ) (own : String) (l : List H) :
    Touches s { s with handlers := s.handlers.set own l } i own where
  ops _ _ := rfl
  chains _ _ := rfl
  list ch hne := by simp [Ne.symm hne]
  live _ _ := rfl
  subscriber _ hk := hk
  rebuilding v _ _ hv := ⟨v, hv, fun _ => id⟩
  draining d hd := ⟨d, hd⟩
  idle hr hp := ⟨hr, hp⟩
  outcomes := rfl
  issued := le_rfl

theorem forget_rebuilding {r : Option Reset} {v' : List String} {cur : String} {c : Call}
    (h : r.map (Reset.forget ch) = some (.rebuilding v' cur c)) :
    ∃ v, r = some (.rebuilding v cur c) ∧ v' = v.filter (· ≠ ch) := by
  cases r with
  | none => cases h
  | some x =>
    cases x with
    | draining d => cases h
    | rebuilding v current call =>
      simp only [Option.map_some, Reset.forget, Option.some.injEq, Reset.rebuilding.injEq] at h
      obtain ⟨rfl, rfl, rfl⟩ := h
      exact ⟨v, rfl, rfl⟩

theorem touches_dropEntry (s : State H) (i : ℕ) (own : String) :
    Touches s (s.dropEntry own) i own where
  ops _ _ := rfl
  chains _ _ := rfl
  list ch hne := by simp [dropEntry, JsMap.get_delete, Ne.symm hne]
  live _ _ := rfl
  subscriber _ hk := hk
  rebuilding v' cur c hv := by
    obtain ⟨v, hv', rfl⟩ := forget_rebuilding hv
    exact ⟨v, hv', fun ch hch => (List.mem_filter.1 hch).1⟩
  draining d hd := ⟨d, by simp only [dropEntry, hd, Option.map_some, Reset.forget]⟩
  idle hr hp := ⟨by simpa [dropEntry] using hr, hp⟩
  outcomes := rfl
  issued := le_rfl

theorem isLive_takeEffect (s : State H) (conn : ℕ) (own ch : String) (on : Bool) (r : Reply) :
    (s.takeEffect conn own on r).isLive ch =
      if r ≠ .failedBefore ∧ s.subscriber = some conn ∧ ch = own then on else s.isLive ch := by
  by_cases hr : r = .failedBefore
  · simp [takeEffect, hr]
  · simp only [takeEffect, isLive, hr, not_false_eq_true, ne_eq, true_and]
    cases hs : s.subscriber with
    | none => simp
    | some k =>
      simp only [Option.any_some, Option.some.injEq]
      by_cases hk : k = conn
      · subst hk
        by_cases hch : ch = own
        · simp [hch]
        · simp [hch]
      · simp [hk]

theorem touches_takeEffect (s : State H) (conn : ℕ) (own : String) (on : Bool) (r : Reply) (i : ℕ) :
    Touches s (s.takeEffect conn own on r) i own := by
  have hlive := isLive_takeEffect s conn own
  unfold takeEffect at hlive ⊢
  split_ifs with hr
  · exact .refl s i own
  · refine ⟨fun _ _ => rfl, fun _ _ => rfl, fun _ _ => rfl, fun ch hne => ?_, fun _ hk => hk,
      fun v _ _ h => ⟨v, h, fun _ => id⟩, fun d h => ⟨d, h⟩, fun hr hp => ⟨hr, hp⟩, rfl, le_rfl⟩
    have h := hlive ch on r
    rw [if_neg hr] at h
    rw [h, if_neg (fun hand => hne hand.2.2)]

theorem touches_resetSubscriber (s : State H) (i : ℕ) (own : String) :
    Touches s (s.resetSubscriber (some i)) i own := by
  unfold resetSubscriber
  cases hr : s.reset with
  | some x =>
    refine touches_own (fun j hij => ?_) (fun _ _ => rfl) rfl rfl rfl rfl rfl rfl le_rfl
    rw [getElem?_detach]
    simp [hij]
  | none =>
    refine ⟨fun _ _ => rfl, fun _ _ => rfl, fun _ _ => rfl, fun _ _ => rfl, fun _ hk => hk, fun v _ _ h => ?_,
      fun d h => ?_, fun hn _ => ?_, rfl, le_rfl⟩
    · cases h
    · rw [hr] at h
      cases h
    · cases hn

theorem touches_handOff (s : State H) (i : ℕ) (own : String) : Touches s (s.handOff i) i own :=
  (touches_resetSubscriber s i own).trans (touches_setPhase _ i _ own)

/-! ### The channel of the operation -/

theorem ChannelOk.of_some {l : List H} (hget : t.handlers.get ch = some l) (hl : l ≠ [])
    (hsub : ∀ o c, t.runner ch = some o → o.phase = .subscribing c → l = [o.handler])
    (hcease : ∀ o, t.runner ch = some o → o.phase.ceases = false)
    (hrebuilt : ∀ v cur c, t.reset = some (.rebuilding v cur c) → ch ∈ v → ch ≠ cur → t.isLive ch = true)
    (hagreed : t.reset = none → t.resetPending = false →
      t.isLive ch = true ∨ ∃ o c, t.runner ch = some o ∧ o.phase = .subscribing c ∧ t.subscriber = some c.conn) :
    ChannelOk t ch where
  nonempty h := hl (Option.some.inj (hget.symm.trans h))
  subscribing o c hr hp := by rw [hget, hsub o c hr hp]
  ceasing o hr hp := by
    rw [hcease o hr] at hp
    cases hp
  passed _ _ _ _ _ := by simp [hget]
  rebuilt := hrebuilt
  agreed hr hp _ := hagreed hr hp
  covered h := by simp [hget] at h
  overtaken _ _ _ h := by simp [hget] at h

/-- an UNSUBSCRIBE is out for a channel without handlers -/
theorem ChannelOk.of_undoing {x : Op H} {d : Call} (hget : t.handlers.get ch = none)
    (hv : ∀ v cur c, t.reset = some (.rebuilding v cur c) → ch ∉ v) (hrun : t.runner ch = some x)
    (hu : x.phase.undoes = some d) (hlive : t.isLive ch = true → t.subscriber = some d.conn)
    (hover : ∀ v c, t.reset = some (.rebuilding v ch c) → t.subscriber = some d.conn ∧ c.ticket < d.ticket) :
    ChannelOk t ch where
  nonempty h := by simp [hget] at h
  subscribing o c hr hp := by
    obtain rfl := Option.some.inj (hrun.symm.trans hr)
    simp [hp, Phase.undoes] at hu
  ceasing _ _ _ := hget
  passed v cur c hr hin := absurd hin (hv v cur c hr)
  rebuilt v cur c hr hin := absurd hin (hv v cur c hr)
  agreed _ _ h := absurd hget h
  covered _ hlv := ⟨x, hrun, .inl ⟨d, hu, hlive hlv⟩⟩
  overtaken v c hr _ := by
    obtain ⟨hsub, hlt⟩ := hover v c hr
    exact ⟨x, d, hrun, hu, hsub, hlt⟩

/-- nobody listens, and the connection is not subscribed -/
theorem ChannelOk.of_gone (hget : t.handlers.get ch = none)
    (hv : ∀ v cur c, t.reset = some (.rebuilding v cur c) → ch ∉ v)
    (hrun : ∀ x, t.runner ch = some x → x.phase.call = none) (hlive : t.isLive ch = false)
    (hover : ∀ v c, t.reset ≠ some (.rebuilding v ch c)) : ChannelOk t ch where
  nonempty h := by simp [hget] at h
  subscribing o c hr hp := by
    have hcall := hrun o hr
    simp [hp, Phase.call] at hcall
  ceasing _ _ _ := hget
  passed v cur c hr hin := absurd hin (hv v cur c hr)
  rebuilt v cur c hr hin := absurd hin (hv v cur c hr)
  agreed _ _ h := absurd hget h
  covered _ hlv := by
    rw [hlive] at hlv
    cases hlv
  overtaken v c hr _ := absurd hr (hover v c)

/-- the iterator has passed no channel without handlers -/
theorem ChannelOk.not_passed (hc : ChannelOk s ch) (hget : s.handlers.get ch = none) (v : List String) (cur : String)
    (c : Call) (hr : s.reset = some (.rebuilding v cur c)) : ch ∉ v := fun hin => hc.passed v cur c hr hin hget

/-- an UNSUBSCRIBE that has taken effect leaves its channel unsubscribed on the current connection -/
theorem ChannelOk.undone {c : Call} {r : Reply} (hc : ChannelOk s ch) (hb : RebuildOk s) (hrun : s.runner ch = some o)
    (hu : o.phase.undoes = some c) (harr : s.arrives c r = true) (hr : r ≠ .failedBefore) :
    (s.takeEffect c.conn ch false r).isLive ch = false ∧ ∀ v d, s.reset ≠ some (.rebuilding v ch d) := by
  have hget : s.handlers.get ch = none := hc.ceasing o hrun (by
    cases hp : o.phase <;> simp [hp, Phase.undoes] at hu <;> rfl)
  have hfirst : s.firstInLine c = true := by simpa [arrives, hr] using harr
  constructor
  · rw [isLive_takeEffect]
    split_ifs with hcur
    · rfl
    · by_contra hlive
      obtain ⟨x, hx, hor⟩ := hc.covered hget (by simpa using hlive)
      obtain rfl := Option.some.inj (hrun.symm.trans hx)
      rcases hor with ⟨d, hd, hsub⟩ | ⟨-, hoff⟩
      · obtain rfl := Option.some.inj (hu.symm.trans hd)
        exact hcur ⟨hr, hsub, rfl⟩
      · simp [hoff, Phase.undoes] at hu
  · intro v d hreset
    obtain ⟨x, e, hx, he, hsub, hlt⟩ := hc.overtaken v d hreset hget
    obtain rfl := Option.some.inj (hrun.symm.trans hx)
    obtain rfl := Option.some.inj (hu.symm.trans he)
    -- the rebuild's call is on the same connection, and older
    have hsame : d.conn = c.conn := Option.some.inj ((hb v ch d hreset).1.symm.trans hsub)
    have hmem : d ∈ s.calls := List.mem_append_right _ (by simp [hreset, Reset.call])
    have hline := List.all_eq_true.1 hfirst d hmem
    simp only [hsame, ne_eq, not_true_eq_false, decide_false, Bool.false_or, decide_eq_true_eq] at hline
    omega

/-! ### Starts -/

/-- `ensureSubscriber` leaves everything but the connection -/
theorem ensureSubscriber_frame (s : State H) : s.ensureSubscriber.1.handlers = s.handlers ∧
    s.ensureSubscriber.1.ops = s.ops ∧ s.ensureSubscriber.1.chains = s.chains ∧
    s.ensureSubscriber.1.reset = s.reset ∧ s.ensureSubscriber.1.resetPending = s.resetPending := by
  unfold ensureSubscriber
  split <;> exact ⟨rfl, rfl, rfl, rfl, rfl⟩

theorem doSubscribe_channelOk (hl : LaneInv s) (ho : s.ops[i]? = some o)
    (hh : (s.chains o.channel).head? = some i) (hidle : o.phase.isRunning = false) (hc : ChannelOk s o.channel) :
    Touches s (s.doSubscribe i o) i o.channel ∧ ChannelOk (s.doSubscribe i o) o.channel := by
  obtain ⟨hhand, hops, hchains, hreset, hpending⟩ := ensureSubscriber_frame s
  have hlive := isLive_ensureSubscriber s o.channel
  have hsub := ensureSubscriber_subscriber s
  have hrunner := runner_queued hh ho hidle
  have hensure := touches_ensureSubscriber s i o.channel
  unfold doSubscribe
  simp only
  generalize s.ensureSubscriber = e at *
  rw [hhand]
  cases hget : s.handlers.get o.channel with
  | none =>
    -- the channel has no handler: a SUBSCRIBE goes out
    have hset := touches_set e.1 i o.channel ([] ++ [o.handler])
    rw [hhand] at hset
    simp only [Option.getD_none, List.length_nil, lt_irrefl, if_false]
    refine ⟨(hensure.trans hset).trans (touches_issue _ i _ _ _), ?_⟩
    have hrun := runner_issue (u := { e.1 with handlers := s.handlers.set o.channel ([] ++ [o.handler]) }) ho hh hops
      hchains e.2 .subscribing fun _ => rfl
    refine .of_some (l := [o.handler]) (by simp [issue, setPhase]) (by simp) ?_ ?_ ?_ ?_
    · intro x c hx _
      obtain rfl := Option.some.inj (hrun.symm.trans hx)
      rfl
    · intro x hx
      obtain rfl := Option.some.inj (hrun.symm.trans hx)
      rfl
    · intro v cur c hr hin _
      exact absurd hin (hc.not_passed hget v cur c (hreset.symm.trans hr))
    · exact fun _ _ => .inr ⟨_, _, hrun, rfl, hsub⟩
  | some l =>
    -- it has one already, and no operation runs on it
    have hset := touches_set e.1 i o.channel (l ++ [o.handler])
    rw [hhand] at hset
    have hpos : 0 < l.length := List.length_pos_of_ne_nil fun hnil => hc.nonempty (hnil ▸ hget)
    simp only [Option.getD_some, if_pos hpos]
    refine ⟨(hensure.trans hset).trans (touches_finish _ i o), ?_⟩
    have hrun := runner_finish (u := { e.1 with handlers := s.handlers.set o.channel (l ++ [o.handler]) }) hl hh hops
      hchains
    refine .of_some (l := l ++ [o.handler]) (by simp [finish, setPhase]) (by simp) ?_ ?_ ?_ ?_
    · intro x c hx
      rw [hrun] at hx
      cases hx
    · intro x hx
      rw [hrun] at hx
      cases hx
    · intro v cur c hr hin hcur
      exact hlive.trans (hc.rebuilt v cur c (hreset.symm.trans hr) hin hcur)
    · intro hr hp
      rcases hc.agreed (hreset.symm.trans hr) (hpending.symm.trans hp) (by simp [hget]) with hlv | ⟨x, c, hx, -⟩
      · exact .inl (hlive.trans hlv)
      · rw [hrunner] at hx
        cases hx

theorem not_mem_forgotten {r : Option Reset} {v : List String} {cur : String} {c : Call}
    (h : r.map (Reset.forget ch) = some (.rebuilding v cur c)) : ch ∉ v := by
  obtain ⟨w, -, rfl⟩ := forget_rebuilding h
  simp

theorem dropEntry_get (s : State H) (ch : String) : (s.dropEntry ch).handlers.get ch = none := by
  simp [dropEntry, JsMap.get_delete]

theorem hasHandlers_dropEntry (s : State H) (ch : String) : (s.dropEntry ch).hasHandlers ch = false := by
  simp [hasHandlers, dropEntry_get]

/-- the last handler is gone, and the operation's UNSUBSCRIBE is out -/
theorem channelOk_dropEntry_issue (hb : RebuildOk s) (ho : s.ops[i]? = some o)
    (hh : (s.chains o.channel).head? = some i) {sub : ℕ} (hsub : s.subscriber = some sub) (p : Call → Phase)
    (hp : ∀ c, (p c).isRunning = true) (hu : ∀ c, (p c).undoes = some c) :
    ChannelOk ((s.dropEntry o.channel).issue i sub p) o.channel := by
  have hrun := runner_issue (u := s.dropEntry o.channel) ho hh rfl rfl sub p hp
  refine .of_undoing (dropEntry_get s o.channel) (fun v cur c hr => not_mem_forgotten hr) hrun (hu _) (fun _ => hsub) ?_
  intro v c hr
  obtain ⟨w, hr', -⟩ := forget_rebuilding hr
  exact ⟨hsub, (hb w _ c hr').2⟩

/-- the last handler is gone, and there is no connection -/
theorem channelOk_dropEntry_finish (hb : RebuildOk s) (hl : LaneInv s) (hh : (s.chains o.channel).head? = some i)
    (hsub : s.subscriber = none) : ChannelOk ((s.dropEntry o.channel).finish i o) o.channel := by
  have hrun := runner_finish (u := s.dropEntry o.channel) hl hh rfl rfl
  refine .of_gone (dropEntry_get s o.channel) (fun v cur c hr => not_mem_forgotten hr) ?_ (isLive_none hsub _) ?_
  · intro x hx
    rw [hrun] at hx
    cases hx
  · intro v c hr
    obtain ⟨w, hr', -⟩ := forget_rebuilding hr
    have hsome := (hb w _ c hr').1
    rw [hsub] at hsome
    cases hsome

/-! ### An UNSUBSCRIBE that has settled -/

theorem ceases_of_undoes {p : Phase} {c : Call} (h : p.undoes = some c) : p.ceases = true := by
  cases p <;> first | rfl | cases h

theorem running_of_ceases {p : Phase} (h : p.ceases = true) : p.isRunning = true := by
  cases p <;> first | rfl | cases h

section Undoes

variable {c : Call} {r : Reply}

/-- it took effect, and its operation settles -/
theorem undone_finish_channelOk (hl : LaneInv s) (hb : RebuildOk s) (ho : s.ops[i]? = some o)
    (hh : (s.chains o.channel).head? = some i) (hu : o.phase.undoes = some c) (hc : ChannelOk s o.channel)
    (harr : s.arrives c r = true) (hr : r ≠ .failedBefore) :
    ChannelOk ((s.takeEffect c.conn o.channel false r).finish i o) o.channel := by
  have hrun := runner_eq hh ho (running_of_ceases (ceases_of_undoes hu))
  have hget := hc.ceasing o hrun (ceases_of_undoes hu)
  obtain ⟨hlive, hno⟩ := hc.undone hb hrun hu harr hr
  have hnone := runner_finish (u := s.takeEffect c.conn o.channel false r) hl hh (by simp) (by simp)
  refine .of_gone ?_ ?_ ?_ hlive ?_
  · simpa [finish, setPhase] using hget
  · intro v cur d hv
    exact hc.not_passed hget v cur d (by simpa [finish, setPhase] using hv)
  · intro x hx
    rw [hnone] at hx
    cases hx
  · intro v d hv
    exact hno v d (by simpa [finish, setPhase] using hv)

/-- it failed, and its operation tries again on the same connection -/
theorem undone_retry_channelOk (hb : RebuildOk s) (ho : s.ops[i]? = some o)
    (hh : (s.chains o.channel).head? = some i) (hu : o.phase.undoes = some c) (hc : ChannelOk s o.channel)
    (harr : s.arrives c r = true) (attempt : ℕ) :
    ChannelOk ((s.takeEffect c.conn o.channel false r).issue i c.conn (.reconciling · attempt)) o.channel := by
  have hrun := runner_eq hh ho (running_of_ceases (ceases_of_undoes hu))
  have hget := hc.ceasing o hrun (ceases_of_undoes hu)
  have hnew := runner_issue (u := s.takeEffect c.conn o.channel false r) ho hh (by simp) (by simp) c.conn
    (.reconciling · attempt) fun _ => rfl
  refine .of_undoing ?_ ?_ hnew rfl ?_ ?_
  · simpa [issue, setPhase] using hget
  · intro v cur d hv
    exact hc.not_passed hget v cur d (by simpa [issue, setPhase] using hv)
  · intro hlive
    by_cases hr : r = .failedBefore
    · -- the old call covered the subscription, and the new one is on its connection
      have hold : s.isLive o.channel = true := by simpa [issue, setPhase, takeEffect, hr, isLive] using hlive
      obtain ⟨x, hx, hor⟩ := hc.covered hget hold
      obtain rfl := Option.some.inj (hrun.symm.trans hx)
      rcases hor with ⟨d, hd, hsub⟩ | ⟨-, hoff⟩
      · obtain rfl := Option.some.inj (hu.symm.trans hd)
        simpa [issue, setPhase] using hsub
      · simp [hoff, Phase.undoes] at hu
    · have hgone := (hc.undone hb hrun hu harr hr).1
      change (s.takeEffect c.conn o.channel false r).isLive o.channel = true at hlive
      rw [hgone] at hlive
      cases hlive
  · intro v d hv
    have hv' : s.reset = some (.rebuilding v o.channel d) := by simpa [issue, setPhase] using hv
    obtain ⟨x, e, hx, he, hsub, -⟩ := hc.overtaken v d hv' hget
    obtain rfl := Option.some.inj (hrun.symm.trans hx)
    obtain rfl := Option.some.inj (hu.symm.trans he)
    refine ⟨by simpa [issue, setPhase] using hsub, ?_⟩
    simpa using (hb v _ d hv').2

/-- it failed for the last time: no reset that runs has rebuilt the channel already -/
theorem undone_handOff_channelOk (hb : RebuildOk s) (ho : s.ops[i]? = some o)
    (hh : (s.chains o.channel).head? = some i) (hu : o.phase.undoes = some c) (hc : ChannelOk s o.channel)
    (harr : s.arrives c r = true)
    (hlate : r = .failedBefore → ∀ v cur d, s.reset = some (.rebuilding v cur d) →
      s.isLive o.channel = false ∧ cur ≠ o.channel) :
    ChannelOk ((s.takeEffect c.conn o.channel false r).handOff i) o.channel := by
  have hrun := runner_eq hh ho (running_of_ceases (ceases_of_undoes hu))
  have hget := hc.ceasing o hrun (ceases_of_undoes hu)
  -- whatever a running rebuild has done, it has not been for this channel
  have hgone : ∀ v cur d, s.reset = some (.rebuilding v cur d) →
      (s.takeEffect c.conn o.channel false r).isLive o.channel = false ∧ cur ≠ o.channel := by
    intro v cur d hv
    by_cases hr : r = .failedBefore
    · simpa [takeEffect, hr] using hlate hr v cur d hv
    · obtain ⟨hlive, hno⟩ := hc.undone hb hrun hu harr hr
      refine ⟨hlive, ?_⟩
      rintro rfl
      exact hno v d hv
  have htouch := touches_handOff (s.takeEffect c.conn o.channel false r) i o.channel
  have hthand : ((s.takeEffect c.conn o.channel false r).handOff i).handlers = s.handlers := by
    simp only [handOff, setPhase, resetSubscriber]
    split <;> simp [detach]
  have hlivet : ((s.takeEffect c.conn o.channel false r).handOff i).isLive o.channel =
      (s.takeEffect c.conn o.channel false r).isLive o.channel := by
    simp only [handOff, setPhase, resetSubscriber]
    split <;> rfl
  obtain ⟨x, hx, hxp⟩ := runner_handOff (u := s.takeEffect c.conn o.channel false r) ho hh (by simp) (by simp)
  refine ⟨?_, ?_, ?_, ?_, ?_, ?_, ?_, ?_⟩
  · simp [hthand, hget]
  · intro y d hy hyp
    obtain rfl := Option.some.inj (hx.symm.trans hy)
    rw [hxp] at hyp
    cases hyp
  · simp [hthand, hget]
  · intro v cur d hv hin
    obtain ⟨v', hv', hin'⟩ := htouch.rebuilding v cur d hv
    exact absurd (hin' _ hin) (hc.not_passed hget v' cur d (by simpa using hv'))
  · intro v cur d hv hin
    obtain ⟨v', hv', hin'⟩ := htouch.rebuilding v cur d hv
    exact absurd (hin' _ hin) (hc.not_passed hget v' cur d (by simpa using hv'))
  · simp [hthand, hget]
  · intro _ hlive
    rw [hlivet] at hlive
    refine ⟨x, hx, .inr ⟨?_, by rw [hxp, htouch.outcomes]⟩⟩
    cases hreset : s.reset with
    | none =>
      refine ⟨(s.inFlight.delete i).elems, ?_⟩
      simp only [handOff, setPhase, resetSubscriber, takeEffect_reset, hreset, takeEffect_inFlight]
    | some y =>
      cases y with
      | draining d => exact htouch.draining d (by simpa using hreset)
      | rebuilding v cur d =>
        rw [(hgone v cur d hreset).1] at hlive
        cases hlive
  · intro v d hv _
    obtain ⟨v', hv', -⟩ := htouch.rebuilding v _ d hv
    exact absurd rfl (hgone v' _ d (by simpa using hv')).2

end Undoes

/-- a running operation that has waited for a reset, and has been waiting in vain no longer, settles -/
theorem handedOff_finish_channelOk {r : ℕ} (hl : LaneInv s) (ho : s.ops[i]? = some o)
    (hh : (s.chains o.channel).head? = some i) (hp : o.phase = .handedOff r) (he : s.ended r = true)
    (hc : ChannelOk s o.channel) : ChannelOk (s.finish i o) o.channel := by
  have hrun := runner_eq hh ho (by rw [hp]; rfl)
  have hget := hc.ceasing o hrun (by rw [hp]; rfl)
  have hnone := runner_finish (u := s) hl hh rfl rfl
  refine .of_gone hget (fun v cur d hv => hc.not_passed hget v cur d hv) ?_ ?_ ?_
  · intro x hx
    rw [hnone] at hx
    cases hx
  · change s.isLive o.channel = false
    by_contra hlive
    obtain ⟨x, hx, hor⟩ := hc.covered hget (by simpa using hlive)
    obtain rfl := Option.some.inj (hrun.symm.trans hx)
    rcases hor with ⟨d, hd, -⟩ | ⟨-, hoff⟩
    · simp [hp, Phase.undoes] at hd
    · -- the reset it waits for has ended, and another runs
      obtain rfl := Phase.handedOff.inj (hp.symm.trans hoff)
      simp [ended] at he
  · intro v d hv
    obtain ⟨x, e, hx, hu, -⟩ := hc.overtaken v d hv hget
    obtain rfl := Option.some.inj (hrun.symm.trans hx)
    simp [hp, Phase.undoes] at hu

/-! ### Outside of the chains -/

theorem touches_startReset (s : State H) (i : ℕ) (own : String) : Touches s (s.resetSubscriber none) i own := by
  unfold resetSubscriber
  cases hr : s.reset with
  | some x => exact .refl s i own
  | none =>
    refine ⟨fun _ _ => rfl, fun _ _ => rfl, fun _ _ => rfl, fun _ _ => rfl, fun _ hk => hk, fun v _ _ h => ?_,
      fun d h => ?_, fun hn _ => ?_, rfl, le_rfl⟩
    · cases h
    · rw [hr] at h
      cases h
    · cases hn

/-- an operation outside of the chains is no channel's runner -/
theorem Touches.idle_channelOk {own : String} (h : Touches s t i own) (hl : LaneInv s)
    (hout : ∀ x, s.ops[i]? = some x → x.phase.isChained = false) (hhand : t.handlers = s.handlers)
    (hchains : t.chains = s.chains) (hlive : t.isLive ch = s.isLive ch) (hc : ChannelOk s ch) : ChannelOk t ch := by
  refine h.channelOk_of (by rw [hhand]) hlive (runner_congr (by rw [hchains]) fun j hj => h.ops j ?_) hc
  rintro rfl
  obtain ⟨x, hx, -, hx'⟩ := hl.sound ch i hj
  rw [hout x hx] at hx'
  cases hx'

theorem awaitResetBarrier_facts (s : State H) (i : ℕ) (own : String) :
    Touches s (s.awaitResetBarrier i) i own ∧ (s.awaitResetBarrier i).handlers = s.handlers ∧
      (s.awaitResetBarrier i).chains = s.chains ∧ ∀ ch, (s.awaitResetBarrier i).isLive ch = s.isLive ch := by
  unfold awaitResetBarrier
  split_ifs with hr
  · exact ⟨touches_setPhase s i _ own, rfl, rfl, fun _ => rfl⟩
  · refine ⟨(touches_startReset s i own).trans (touches_setPhase _ i _ own), ?_⟩
    have hnone : s.reset = none := by simpa using hr
    simp only [resetSubscriber, hnone]
    exact ⟨rfl, rfl, fun _ => rfl⟩
  · exact ⟨touches_setPhase s i _ own, rfl, rfl, fun _ => rfl⟩

/-- a chained operation that has not started is no runner either -/
theorem chain_channelOk (hl : LaneInv s) (ho : s.ops[i]? = some o) (hc : o.phase.isChained = false)
    (hch : ChannelOk s o.channel) : ChannelOk (s.chain i o) o.channel := by
  refine (touches_chain s i o).channelOk_of rfl rfl ?_ hch
  have hnew : (s.chain i o).ops[i]? = some { o with phase := .queued } := getElem?_setPhase_self (s := s) ho _
  have hchains : (s.chain i o).chains o.channel = s.chains o.channel ++ [i] := Function.update_self ..
  unfold runner
  rw [hchains]
  cases hq : s.chains o.channel with
  | nil => simp [hnew, Option.filter, Phase.isRunning]
  | cons j rest =>
    have hij : i ≠ j := by
      rintro rfl
      obtain ⟨x, hx, -, hx'⟩ := hl.sound o.channel i (by rw [hq]; exact List.mem_cons_self)
      obtain rfl := Option.some.inj (ho.symm.trans hx)
      rw [hc] at hx'
      cases hx'
    simp only [List.cons_append, List.head?_cons, Option.bind_some]
    rw [show (s.chain i o).ops[j]? = s.ops[j]? from getElem?_setPhase_ne _ hij _]

/-! ### The rebuild -/

/-- **The iterator.** The next entry is visited, or all of them have been. -/
theorem visitNext_agree {visited : List String} {sub : ℕ} (hsub : s.subscriber = some sub)
    (hbase : ∀ ch, s.handlers.get ch ≠ some [] ∧
      (∀ o c, s.runner ch = some o → o.phase = .subscribing c → s.handlers.get ch = some [o.handler]) ∧
      ∀ o, s.runner ch = some o → o.phase.ceases = true → s.handlers.get ch = none)
    (hpassed : ∀ ch ∈ visited, s.handlers.get ch ≠ none) (hlive : ∀ ch ∈ visited, s.isLive ch = true)
    (hcov : ∀ ch, s.handlers.get ch = none → s.isLive ch = true →
      ∃ o c, s.runner ch = some o ∧ o.phase.undoes = some c ∧ s.subscriber = some c.conn) :
    RebuildOk (s.visitNext visited sub) ∧ ∀ ch, ChannelOk (s.visitNext visited sub) ch := by
  unfold visitNext
  cases hf : s.handlers.entries.find? fun e => e.1 ∉ visited ∧ 0 < e.2.length with
  | some e =>
    have hget : s.handlers.get e.1 = some e.2 := JsMap.get_of_mem (List.mem_of_find?_eq_some hf)
    constructor
    · intro v cur c hv
      simp only [Option.some.injEq, Reset.rebuilding.injEq] at hv
      obtain ⟨-, -, rfl⟩ := hv
      exact ⟨hsub, Nat.lt_succ_self _⟩
    · intro ch
      obtain ⟨hne, hsubs, hcease⟩ := hbase ch
      refine ⟨hne, hsubs, hcease, ?_, ?_, ?_, ?_, ?_⟩
      · intro v cur c hv hin
        simp only [Option.some.injEq, Reset.rebuilding.injEq] at hv
        obtain ⟨rfl, rfl, rfl⟩ := hv
        rcases List.mem_append.1 hin with hin | hin
        · exact hpassed ch hin
        · rw [List.mem_singleton.1 hin]
          simp [hget]
      · intro v cur c hv hin hcur
        simp only [Option.some.injEq, Reset.rebuilding.injEq] at hv
        obtain ⟨rfl, rfl, rfl⟩ := hv
        exact hlive ch ((List.mem_append.1 hin).resolve_right fun hlast => hcur (List.mem_singleton.1 hlast))
      · intro hn
        cases hn
      · intro hnone hlv
        obtain ⟨o, c, ho, hu, hs⟩ := hcov ch hnone hlv
        exact ⟨o, ho, .inl ⟨c, hu, hs⟩⟩
      · intro v c hv hnone
        simp only [Option.some.injEq, Reset.rebuilding.injEq] at hv
        obtain ⟨-, rfl, -⟩ := hv
        rw [hget] at hnone
        cases hnone
  | none =>
    constructor
    · intro v cur c hv
      cases hv
    · intro ch
      obtain ⟨hne, hsubs, hcease⟩ := hbase ch
      refine ⟨hne, hsubs, hcease, ?_, ?_, ?_, ?_, ?_⟩
      · intro v cur c hv
        cases hv
      · intro v cur c hv
        cases hv
      · intro _ _ hsome
        obtain ⟨l, hl⟩ := Option.ne_none_iff_exists'.1 hsome
        left
        by_contra hlv
        have hpos : 0 < l.length := List.length_pos_of_ne_nil fun hnil => hne (hnil ▸ hl)
        have hout : ch ∉ visited := fun hin => hlv (hlive ch hin)
        simpa [hout, hpos] using List.find?_eq_none.1 hf (ch, l) (JsMap.mem_of_get hl)
      · intro hnone hlv
        obtain ⟨o, c, ho, hu, hs⟩ := hcov ch hnone hlv
        exact ⟨o, ho, .inl ⟨c, hu, hs⟩⟩
      · intro v c hv
        cases hv

theorem ChannelOk.base (hc : ChannelOk s ch) : s.handlers.get ch ≠ some [] ∧
    (∀ o c, s.runner ch = some o → o.phase = .subscribing c → s.handlers.get ch = some [o.handler]) ∧
    ∀ o, s.runner ch = some o → o.phase.ceases = true → s.handlers.get ch = none :=
  ⟨hc.nonempty, hc.subscribing, hc.ceasing⟩

/-- while a rebuild runs, what it subscribes in vain is being undone -/
theorem ChannelOk.undoing {v : List String} {cur : String} {c : Call} {r : Reply} (hc : ChannelOk s ch)
    (hreset : s.reset = some (.rebuilding v cur c)) (hget : s.handlers.get ch = none)
    (hlive : (s.takeEffect c.conn cur true r).isLive ch = true) :
    ∃ o d, s.runner ch = some o ∧ o.phase.undoes = some d ∧ s.subscriber = some d.conn := by
  by_cases hcur : ch = cur
  · obtain ⟨o, d, ho, hu, hsub, -⟩ := hc.overtaken v c (hcur ▸ hreset) hget
    exact ⟨o, d, ho, hu, hsub⟩
  · rw [isLive_takeEffect, if_neg (fun h => hcur h.2.2)] at hlive
    obtain ⟨o, ho, ⟨d, hu, hsub⟩ | ⟨⟨d, hd⟩, -⟩⟩ := hc.covered hget hlive
    · exact ⟨o, d, ho, hu, hsub⟩
    · rw [hreset] at hd
      cases hd

theorem hasHandlers_of_none (hget : s.handlers.get ch = none) : s.hasHandlers ch = false := by
  simp [hasHandlers, hget]

variable [DecidableEq H]

/-- a handler that is not there, one of several, or the last one -/
theorem removeHandler_cases (s : State H) (ch : String) (handler : H) :
    s.removeHandler ch handler = (s, false) ∨
      (∃ l, s.handlers.get ch ≠ none ∧ l ≠ [] ∧
        s.removeHandler ch handler = ({ s with handlers := s.handlers.set ch l }, true)) ∨
      s.removeHandler ch handler = (s.dropEntry ch, true) := by
  unfold removeHandler
  cases hget : s.handlers.get ch with
  | none => exact .inl rfl
  | some l =>
    simp only
    by_cases hmem : handler ∈ l
    · by_cases hlast : (l.erase handler).length = 0
      · exact .inr (.inr (by rw [if_pos hmem, if_pos hlast]))
      · refine .inr (.inl ⟨l.erase handler, by simp, ?_, by rw [if_pos hmem, if_neg hlast]⟩)
        intro hnil
        rw [hnil] at hlast
        exact hlast rfl
    · exact .inl (by rw [if_neg hmem])

theorem doUnsubscribe_channelOk (hl : LaneInv s) (hb : RebuildOk s) (ho : s.ops[i]? = some o)
    (hh : (s.chains o.channel).head? = some i) (hidle : o.phase.isRunning = false) (hc : ChannelOk s o.channel) :
    Touches s (s.doUnsubscribe i o) i o.channel ∧ ChannelOk (s.doUnsubscribe i o) o.channel := by
  have hrunner := runner_queued hh ho hidle
  unfold doUnsubscribe
  rcases removeHandler_cases s o.channel o.handler with h | ⟨l, hget, hl', h⟩ | h
  · -- the list stays, so the operation changes nothing
    simp only [h, Bool.not_false, Bool.true_or, if_true]
    refine ⟨touches_finish s i o, (touches_finish s i o).channelOk_of rfl rfl ?_ hc⟩
    rw [runner_finish hl hh rfl rfl, hrunner]
  · -- other handlers are left
    have hset := touches_set s i o.channel l
    have hpos : 0 < l.length := List.length_pos_of_ne_nil hl'
    have hhas : ({ s with handlers := s.handlers.set o.channel l } : State H).hasHandlers o.channel = true := by
      simp [hasHandlers, hpos]
    simp only [h, hhas, Bool.or_true, if_true]
    refine ⟨hset.trans (touches_finish _ i o), ?_⟩
    have hrun := runner_finish (u := { s with handlers := s.handlers.set o.channel l }) hl hh rfl rfl
    refine .of_some (l := l) (by simp [finish, setPhase]) hl' ?_ ?_ ?_ ?_
    · intro x c hx
      rw [hrun] at hx
      cases hx
    · intro x hx
      rw [hrun] at hx
      cases hx
    · exact hc.rebuilt
    · intro hr hp
      rcases hc.agreed hr hp hget with hlv | ⟨x, c, hx, -⟩
      · exact .inl hlv
      · rw [hrunner] at hx
        cases hx
  · -- the last one is gone
    have hdrop := touches_dropEntry s i o.channel
    simp only [h, hasHandlers_dropEntry, Bool.not_true, Bool.or_false, Bool.false_eq_true, if_false]
    cases hsub : (s.dropEntry o.channel).subscriber with
    | none => exact ⟨hdrop.trans (touches_finish _ i o), channelOk_dropEntry_finish hb hl hh hsub⟩
    | some sub =>
      exact ⟨hdrop.trans (touches_issue _ i _ _ _),
        channelOk_dropEntry_issue hb ho hh hsub .unsubscribing (fun _ => rfl) fun _ => rfl⟩

/-! ### Replies -/

theorem replied_subscribing_channelOk {c : Call} {r : Reply} (hl : LaneInv s) (hb : RebuildOk s)
    (ho : s.ops[i]? = some o) (hh : (s.chains o.channel).head? = some i) (hp : o.phase = .subscribing c)
    (hc : ChannelOk s o.channel) :
    Touches s (s.replied i o r) i o.channel ∧ ChannelOk (s.replied i o r) o.channel := by
  have hrun := runner_eq hh ho (by rw [hp]; rfl)
  have hget := hc.subscribing o c hrun hp
  have heff := touches_takeEffect s c.conn o.channel true r i
  have hframe := frame_takeEffect s c.conn o.channel true r
  have hkeep := takeEffect_handlers s c.conn o.channel true r
  have hlive := isLive_takeEffect s c.conn o.channel o.channel true r
  have hreset := takeEffect_reset s c.conn o.channel true r
  have hpending := takeEffect_resetPending s c.conn o.channel true r
  simp only [replied, hp]
  generalize s.takeEffect c.conn o.channel true r = t at *
  have hlt : LaneInv t := hl.congr hframe.ops hframe.chains
  have hot : t.ops[i]? = some o := hframe.ops ▸ ho
  have hht : (t.chains o.channel).head? = some i := hframe.chains ▸ hh
  by_cases hr : r = .ok
  · rw [if_pos hr]
    refine ⟨heff.trans (touches_finish t i o), ?_⟩
    have hnone := runner_finish hlt hht rfl rfl
    refine .of_some (l := [o.handler]) (by simpa [finish, setPhase, hkeep] using hget) (by simp) ?_ ?_ ?_ ?_
    · intro x d hx
      rw [hnone] at hx
      cases hx
    · intro x hx
      rw [hnone] at hx
      cases hx
    · intro v cur d hv hin hcur
      have hold := hc.rebuilt v cur d (hreset.symm.trans hv) hin hcur
      change t.isLive o.channel = true
      rw [hlive, hold]
      split_ifs <;> rfl
    · intro hn hpend
      left
      change t.isLive o.channel = true
      rw [hlive]
      rcases hc.agreed (hreset.symm.trans hn) (hpending.symm.trans hpend) (by simp [hget]) with
        hlv | ⟨x, d, hx, hxp, hsub⟩
      · rw [hlv]
        split_ifs <;> rfl
      · -- its own SUBSCRIBE is the one that has succeeded
        obtain rfl := Option.some.inj (hrun.symm.trans hx)
        obtain rfl := Phase.subscribing.inj (hp.symm.trans hxp)
        rw [if_pos ⟨by simp [hr], hsub, rfl⟩]
  · rw [if_neg hr]
    have hdrop : t.removeHandler o.channel o.handler = (t.dropEntry o.channel, true) := by
      simp [removeHandler, hkeep, hget]
    have hbt := heff.rebuildOk hb
    simp only [hdrop, reconcileAfterFailedSubscribe, hasHandlers_dropEntry, Bool.false_eq_true, if_false]
    have htouch := heff.trans (touches_dropEntry t i o.channel)
    cases hsub : (t.dropEntry o.channel).subscriber with
    | none => exact ⟨htouch.trans (touches_finish _ i o), channelOk_dropEntry_finish hbt hlt hht hsub⟩
    | some sub =>
      exact ⟨htouch.trans (touches_issue _ i _ _ _),
        channelOk_dropEntry_issue hbt hot hht hsub (.reconciling · 0) (fun _ => rfl) fun _ => rfl⟩

/-- **A reply.** An operation that goes on without a late hand-off leaves its channel in order. -/
theorem replied_channelOk {c : Call} {r : Reply} (hl : LaneInv s) (hb : RebuildOk s) (ho : s.ops[i]? = some o)
    (hh : (s.chains o.channel).head? = some i) (hcall : o.phase.call = some c) (harr : s.arrives c r = true)
    (hlate : s.lateHandOff (.reply (.op i) r) = false) (hc : ChannelOk s o.channel) :
    Touches s (s.replied i o r) i o.channel ∧ ChannelOk (s.replied i o r) o.channel := by
  -- where the operation gives up, no running reset has subscribed its channel
  have hearly : o.givesUp = true → r = .failedBefore → ∀ v cur d, s.reset = some (.rebuilding v cur d) →
      s.isLive o.channel = false ∧ cur ≠ o.channel := by
    rintro hup rfl v cur d hv
    simpa [lateHandOff, ho, hv, hup] using hlate
  cases hp : o.phase with
  | subscribing d => exact replied_subscribing_channelOk hl hb ho hh hp hc
  | reconciling d attempt =>
    have hu : o.phase.undoes = some d := by rw [hp]; rfl
    obtain rfl : d = c := by simpa [hp, Phase.call] using hcall
    have heff := touches_takeEffect s d.conn o.channel false r i
    simp only [replied, hp]
    split_ifs with hr hmore
    · exact ⟨heff.trans (touches_finish _ i o), undone_finish_channelOk hl hb ho hh hu hc harr (by simp [hr])⟩
    · exact ⟨heff.trans (touches_issue _ i _ _ _), undone_retry_channelOk hb ho hh hu hc harr (attempt + 1)⟩
    · have hup : o.givesUp = true := by simpa [Op.givesUp, hp] using hmore
      exact ⟨heff.trans (touches_handOff _ i _), undone_handOff_channelOk hb ho hh hu hc harr (hearly hup)⟩
  | unsubscribing d =>
    have hu : o.phase.undoes = some d := by rw [hp]; rfl
    obtain rfl : d = c := by simpa [hp, Phase.call] using hcall
    have heff := touches_takeEffect s d.conn o.channel false r i
    have hget := hc.ceasing o (runner_eq hh ho (by rw [hp]; rfl)) (by rw [hp]; rfl)
    have hnone : (s.takeEffect d.conn o.channel false r).hasHandlers o.channel = false :=
      hasHandlers_of_none (by simpa using hget)
    simp only [replied, hp, hnone, Bool.or_false, decide_eq_true_eq]
    split_ifs with hr
    · exact ⟨heff.trans (touches_finish _ i o), undone_finish_channelOk hl hb ho hh hu hc harr (by simp [hr])⟩
    · have hup : o.givesUp = true := by simp [Op.givesUp, hp]
      exact ⟨heff.trans (touches_handOff _ i _), undone_handOff_channelOk hb ho hh hu hc harr (hearly hup)⟩
  | _ => simp [hp, Phase.call] at hcall

end Channels

end State

end Arena.Redis.PubSub
