/-
What becomes of popped tickets, over every interleaving of users, readers and groups.

- `GroupStage.pending`, `MatchInv.account`: the outcomes of a group and its pending tickets are the tickets it popped;
- `Place`, `MatchInv.held`: a ticket is in one place, the queue, one group or one launched match;
- `tickets_conserved`: while no step of a run loses a ticket, each popped ticket of a finished group has one outcome, no
  ticket is in two launched groups, and the queue holds no ticket that its user gave up;
- `gone_user_requeued`: alice leaves while her group waits for its room; it is not created, and she is queued again.
-/
import Arena.Api.Matchmaking

namespace Arena.Api

open Arena.Lib

/-! ## Statement -/

def AfterFail.tickets : AfterFail → List MatchmakingTicket
  | .addPlayers successful todo _ => successful ++ todo
  | .failAll todo => todo

/-- the tickets without an outcome -/
def GroupStage.pending : GroupStage → List MatchmakingTicket
  | .createRoom players => players
  | .requeueAll todo => todo
  | .addPlayers successful todo => successful ++ todo
  | .findPlayer successful player todo => player :: (successful ++ todo)
  | .failPlayer (.report true) _ after => after.tickets
  | .failPlayer _ player after => player :: after.tickets
  | .fillBots successful | .joinSockets successful _ | .forceStart successful => successful
  | .failAll todo | .notify todo => todo
  | .closeRoom | .done => []

/-- the tickets a group may still launch or put back -/
def GroupStage.held : GroupStage → List MatchmakingTicket
  | .createRoom players => players
  | .requeueAll todo => todo
  | .addPlayers successful todo => successful ++ todo
  | .findPlayer successful player todo => player :: (successful ++ todo)
  | .failPlayer (.report _) _ after => after.tickets
  | .failPlayer _ player after => player :: after.tickets
  | .fillBots successful | .joinSockets successful _ | .forceStart successful => successful
  | .failAll todo => todo
  | .closeRoom | .notify _ | .done => []

/-- the players that are to be in the room -/
def AfterFail.seated : AfterFail → List MatchmakingTicket
  | .addPlayers successful _ _ => successful
  | .failAll _ => []

def GroupStage.seated : GroupStage → List MatchmakingTicket
  | .addPlayers successful _ | .findPlayer successful _ _ | .fillBots successful | .joinSockets successful _
  | .forceStart successful => successful
  | .failPlayer _ _ after => after.seated
  | _ => []

/-- whether the match may have been launched -/
def GroupStage.afterLaunch : GroupStage → Bool
  | .notify _ | .done => true
  | _ => false

namespace Matchmaking

/-- the tickets of a group that have an outcome -/
def outcomesOf (s : Matchmaking) (g : ℕ) : List MatchmakingTicket := (s.outcomes.filter (·.1 = g)).map fun o => o.2.1

structure Conserved (s : Matchmaking) : Prop where
  /-- each ticket of a finished group has one outcome -/
  outcome : ∀ g grp, s.groups g = some grp → grp.stage = .done → ∀ t ∈ grp.popped, (s.outcomesOf g).count t = 1
  /-- a user who was sent MATCHED is in the match -/
  matched : ∀ o ∈ s.outcomes, o.2.2 = .matched →
    ∃ m ∈ s.launched, m.group = o.1 ∧ o.2.1 ∈ m.players ∧ o.2.1.userId ∈ m.roster
  /-- no ticket is in two launched groups -/
  once : ∀ m ∈ s.launched, ∀ m' ∈ s.launched, ∀ t ∈ m.players, ∀ t' ∈ m'.players, t.id = t'.id → m = m'
  /-- the ticket of a user in the queue is of the last enqueue, and the user has not left since -/
  wanted : ∀ u t, s.queue.ticket u = some t → s.wanted u = some t

/-- a ticket whose outcome is to be queued again is in the queue then -/
def Restores (s : Matchmaking) (o : MatchmakingOp) : Prop :=
  ∀ g t, (step s o).outcomes = s.outcomes ++ [(g, t, .requeued)] →
    (step s o).queue.ticket t.userId = some t ∧ t.userId ∈ (step s o).queue.zset

/-- a step of a group that loses no ticket: no notification throws, a failure path puts back only what its user still
wants, `addTicket` does not fail after it took effect, nor at all when the room was not created -/
def StageKeeps (s : Matchmaking) (f : StepFaults) : GroupStage → Prop
  | .requeueAll (t :: _) => f.add.added = true ∧ s.wanted t.userId = some t
  | .failPlayer .requeue player _ => f.add.lost = false ∧ s.wanted player.userId = some player
  | .failPlayer (.report _) _ _ | .notify (_ :: _) => f.emitErr = false
  | _ => True

/-- a step that loses no ticket -/
def Keeps (s : Matchmaking) : MatchmakingOp → Prop
  | .pop _ _ reply => reply ≠ .lost
  | .worker g f => ∀ grp ∈ s.groups g, StageKeeps s f grp.stage
  | _ => True

instance (s : Matchmaking) (f : StepFaults) : (stage : GroupStage) → Decidable (StageKeeps s f stage)
  | .requeueAll (t :: _) => inferInstanceAs (Decidable (f.add.added = true ∧ s.wanted t.userId = some t))
  | .failPlayer .requeue player _ =>
    inferInstanceAs (Decidable (f.add.lost = false ∧ s.wanted player.userId = some player))
  | .failPlayer (.report _) _ _ | .notify (_ :: _) => inferInstanceAs (Decidable (f.emitErr = false))
  | .createRoom _ | .requeueAll [] | .addPlayers _ _ | .findPlayer _ _ _ | .failPlayer .cleanup _ _ | .fillBots _
  | .joinSockets _ _ | .forceStart _ | .failAll _ | .closeRoom | .notify [] | .done => .isTrue trivial

instance (s : Matchmaking) : (o : MatchmakingOp) → Decidable (Keeps s o)
  | .pop _ _ reply => inferInstanceAs (Decidable (reply ≠ .lost))
  | .worker g f => inferInstanceAs (Decidable (∀ grp ∈ s.groups g, StageKeeps s f grp.stage))
  | .enqueue _ _ | .leave _ _ | .expire _ | .readQueue _ | .prune _ => .isTrue trivial

/-! ## Invariant -/

/-- where a ticket is -/
inductive Place where
  | unused
  | queued (userId : String)
  | inGroup (g : ℕ) (userId : String)
  | launchedIn (g : ℕ)
deriving DecidableEq

structure GroupInv (s : Matchmaking) (place : ℕ → Place) (g : ℕ) (grp : Group) : Prop where
  account : (s.outcomesOf g ++ grp.stage.pending).Perm grp.popped
  users : (grp.popped.map MatchmakingTicket.userId).Nodup
  held : ∀ t ∈ grp.stage.held, place t.id = .inGroup g t.userId
  room : ∀ t ∈ grp.stage.seated, t.userId ∈ grp.room
  notify : ∀ todo, grp.stage = .notify todo → ∃ m ∈ s.launched, m.group = g ∧ ∀ t ∈ todo, t ∈ m.players

structure MatchInv (s : Matchmaking) (place : ℕ → Place) : Prop where
  queued : ∀ u t, s.queue.ticket u = some t → t.userId = u ∧ place t.id = .queued u ∧ s.wanted u = some t
  fresh : ∀ i, s.nextId ≤ i → place i = .unused
  groups : ∀ g grp, s.groups g = some grp → GroupInv s place g grp
  untouched : ∀ g, s.groups g = none → s.outcomesOf g = []
  launchedGroups : (s.launched.map LaunchedMatch.group).Nodup
  launched : ∀ m ∈ s.launched, (∃ grp, s.groups m.group = some grp ∧ grp.stage.afterLaunch = true) ∧
    ∀ t ∈ m.players, place t.id = .launchedIn m.group ∧ t.userId ∈ m.roster
  matched : ∀ o ∈ s.outcomes, o.2.2 = .matched → ∃ m ∈ s.launched, m.group = o.1 ∧ o.2.1 ∈ m.players

theorem MatchInv.conserved {s : Matchmaking} {place : ℕ → Place} (h : MatchInv s place) : Conserved s where
  outcome := by
    intro g grp hg hs t ht
    have hgrp := h.groups g grp hg
    have hperm := hgrp.account
    rw [hs, GroupStage.pending, List.append_nil] at hperm
    rw [hperm.count_eq]
    exact List.count_eq_one_of_mem hgrp.users.of_map ht
  matched := by
    intro o ho hm
    obtain ⟨m, hmem, hgroup, hplayer⟩ := h.matched o ho hm
    exact ⟨m, hmem, hgroup, hplayer, ((h.launched m hmem).2 _ hplayer).2⟩
  once := by
    intro m hm m' hm' t ht t' ht' hid
    have hplace := ((h.launched m hm).2 t ht).1
    rw [hid, ((h.launched m' hm').2 t' ht').1] at hplace
    exact List.inj_on_of_nodup_map h.launchedGroups hm hm' (Place.launchedIn.inj hplace).symm
  wanted u t ht := (h.queued u t ht).2.2

/-! ## Adding a ticket -/

/-- the tickets of `q'` are those of `q` and `p` -/
def TicketsFrom (q : QueueStore) (p : MatchmakingTicket) (q' : QueueStore) : Prop :=
  ∀ u t, q'.ticket u = some t → q.ticket u = some t ∨ u = p.userId ∧ t = p

section AddTicket

variable {q q' : QueueStore} {p : MatchmakingTicket}

theorem TicketsFrom.command {c : QueueStore → QueueStore} (err : Bool)
    (hc : ∀ q', TicketsFrom q p q' → TicketsFrom q p (c q')) (h : TicketsFrom q p q') :
    TicketsFrom q p (q'.command err c) := by
  unfold QueueStore.command
  split_ifs
  · exact h
  · exact hc q' h

theorem TicketsFrom.set (h : TicketsFrom q p q') : TicketsFrom q p (q'.set p) := by
  intro u t hu
  simp only [QueueStore.set, Function.update_apply] at hu
  split_ifs at hu with heq
  · exact .inr ⟨heq, (Option.some.inj hu).symm⟩
  · exact h u t hu

theorem TicketsFrom.del (h : TicketsFrom q p q') (u : String) : TicketsFrom q p (q'.del u) := by
  intro u' t hu
  simp only [QueueStore.del, Function.update_apply] at hu
  split_ifs at hu
  exact h u' t hu

theorem zadd_ticket (q : QueueStore) (u : String) : (q.zadd u).ticket = q.ticket := by
  unfold QueueStore.zadd
  split_ifs
  · rfl
  · rfl

theorem TicketsFrom.zadd (h : TicketsFrom q p q') (u : String) : TicketsFrom q p (q'.zadd u) := by
  intro u' t hu
  rw [zadd_ticket] at hu
  exact h u' t hu

theorem addTicket_from (q : QueueStore) (p : MatchmakingTicket) (f : AddFaults) :
    TicketsFrom q p (q.addTicket p f).1 := by
  have hwritten : TicketsFrom q p
      (QueueStore.command f.zaddErr (·.zadd p.userId) (QueueStore.command f.setErr (·.set p) q)) :=
    .command _ (fun _ h => h.zadd _) (.command _ (fun _ h => h.set) fun _ _ h => .inl h)
  unfold QueueStore.addTicket
  split_ifs
  · exact hwritten
  · exact hwritten
  · exact .command _ (fun _ h => h) (.command _ (fun _ h => h.del _) hwritten)

/-- both commands took effect: the ticket is in the queue -/
theorem addTicket_added (q : QueueStore) (p : MatchmakingTicket) (f : AddFaults) (h : f.added = true) :
    (q.addTicket p f).1.ticket p.userId = some p ∧ p.userId ∈ (q.addTicket p f).1.zset := by
  obtain ⟨hset, hzadd⟩ : f.setErr = false ∧ f.zaddErr = false := by simpa [AddFaults.added] using h
  unfold QueueStore.addTicket
  simp only [h, Bool.or_true, if_true, QueueStore.command, hset, hzadd, Bool.false_eq_true, if_false]
  refine ⟨?_, ?_⟩
  · rw [zadd_ticket]
    exact Function.update_self _ _ _
  · unfold QueueStore.zadd
    split_ifs with hmem
    · exact hmem
    · exact List.mem_append_right _ List.mem_cons_self

/-- a call whose reply is not lost throws exactly when the ticket was not added -/
theorem addTicket_throws (q : QueueStore) (p : MatchmakingTicket) (f : AddFaults) (h : f.lost = false) :
    (q.addTicket p f).2 = !f.added := by
  unfold QueueStore.addTicket
  cases hadded : f.added with
  | true => simp [h]
  | false =>
    simp only [h, Bool.or_self, Bool.false_eq_true, if_false, Bool.not_false]
    split_ifs
    · rfl
    · rfl

end AddTicket

/-! ## One step of a group -/

section GroupStep

variable {s s' : Matchmaking} {place place' : ℕ → Place} {g : ℕ} {grp : Group}

theorem outcomesOf_append (new : List (MatchmakingTicket × TicketOutcome))
    (hout : s'.outcomes = s.outcomes ++ new.map fun o => (g, o.1, o.2)) (g' : ℕ) :
    s'.outcomesOf g' = s.outcomesOf g' ++ if g' = g then new.map Prod.fst else [] := by
  unfold outcomesOf
  rw [hout, List.filter_append, List.map_append]
  congr 1
  split_ifs with heq
  · subst heq
    rw [List.filter_eq_self.2, List.map_map]
    · rfl
    · intro o ho
      obtain ⟨x, -, rfl⟩ := List.mem_map.1 ho
      exact decide_eq_true rfl
  · rw [List.filter_eq_nil_iff.2, List.map_nil]
    intro o ho
    obtain ⟨x, -, rfl⟩ := List.mem_map.1 ho
    simpa using fun hg => heq hg.symm

/-- A step of group `g`: it adds outcomes, moves some of the tickets it holds, and may launch its match. -/
theorem MatchInv.step_group (h : MatchInv s place) (hg : s.groups g = some grp) (stage : GroupStage)
    (room : List String) (new : List (MatchmakingTicket × TicketOutcome))
    (hgroups : s'.groups = Function.update s.groups g (some { grp with stage := stage, room := room }))
    (hout : s'.outcomes = s.outcomes ++ new.map fun o => (g, o.1, o.2)) (hnext : s'.nextId = s.nextId)
    (hqueue : ∀ u t, s'.queue.ticket u = some t → t.userId = u ∧ place' t.id = .queued u ∧ s'.wanted u = some t)
    (hplace : ∀ i, place' i ≠ place i → ∃ t ∈ grp.stage.held, t.id = i)
    (haccount : (new.map Prod.fst ++ stage.pending).Perm grp.stage.pending)
    (hheld : ∀ t ∈ stage.held, place' t.id = .inGroup g t.userId)
    (hroom : ∀ t ∈ stage.seated, t.userId ∈ room)
    (hnotify : ∀ todo, stage = .notify todo → ∃ m ∈ s'.launched, m.group = g ∧ ∀ t ∈ todo, t ∈ m.players)
    (hafter : grp.stage.afterLaunch = true → stage.afterLaunch = true)
    (hlaunched : s'.launched = s.launched ∨ ∃ m, s'.launched = s.launched ++ [m] ∧ m.group = g ∧
      grp.stage.afterLaunch = false ∧ stage.afterLaunch = true ∧
      ∀ t ∈ m.players, place' t.id = .launchedIn g ∧ t.userId ∈ m.roster)
    (hmatched : ∀ o ∈ new, o.2 = .matched → ∃ m ∈ s'.launched, m.group = g ∧ o.1 ∈ m.players) :
    MatchInv s' place' := by
  have hgrp := h.groups g grp hg
  -- places outside the group stay
  have hstays : ∀ i, (∀ u, place i ≠ .inGroup g u) → place' i = place i := by
    intro i hi
    by_contra hne
    obtain ⟨t, ht, rfl⟩ := hplace i hne
    exact hi t.userId (hgrp.held t ht)
  have hgrow : ∀ m ∈ s.launched, m ∈ s'.launched := by
    intro m hm
    rcases hlaunched with heq | ⟨m', heq, -⟩
    · rw [heq]
      exact hm
    · rw [heq]
      exact List.mem_append_left _ hm
  have hold : ∀ m ∈ s.launched, (∃ grp', s'.groups m.group = some grp' ∧ grp'.stage.afterLaunch = true) ∧
      ∀ t ∈ m.players, place' t.id = .launchedIn m.group ∧ t.userId ∈ m.roster := by
    intro m hm
    obtain ⟨⟨grp', hgrp', ha⟩, hplayers⟩ := h.launched m hm
    constructor
    · rw [hgroups, Function.update_apply]
      split_ifs with heq
      · refine ⟨_, rfl, hafter ?_⟩
        rw [heq, hg] at hgrp'
        rw [Option.some.inj hgrp']
        exact ha
      · exact ⟨grp', hgrp', ha⟩
    · intro t ht
      obtain ⟨hp, hr⟩ := hplayers t ht
      rw [hstays t.id (by simp [hp])]
      exact ⟨hp, hr⟩
  refine ⟨hqueue, ?_, ?_, ?_, ?_, ?_, ?_⟩
  · intro i hi
    have hun := h.fresh i (hnext ▸ hi)
    rw [hstays i (by simp [hun])]
    exact hun
  · intro g' grp' hg'
    rw [hgroups, Function.update_apply] at hg'
    split_ifs at hg' with heq
    · subst heq
      obtain rfl := Option.some.inj hg'
      refine ⟨?_, hgrp.users, hheld, hroom, hnotify⟩
      rw [outcomesOf_append new hout, if_pos rfl, List.append_assoc]
      exact (haccount.append_left _).trans hgrp.account
    · have hinv := h.groups g' grp' hg'
      refine ⟨?_, hinv.users, ?_, hinv.room, ?_⟩
      · rw [outcomesOf_append new hout, if_neg heq, List.append_nil]
        exact hinv.account
      · intro t ht
        have hp := hinv.held t ht
        rw [hstays t.id (by simp [hp, heq])]
        exact hp
      · intro todo hs
        obtain ⟨m, hm, hmg, hplayers⟩ := hinv.notify todo hs
        exact ⟨m, hgrow m hm, hmg, hplayers⟩
  · intro g' hg'
    rw [hgroups, Function.update_apply] at hg'
    split_ifs at hg' with heq
    rw [outcomesOf_append new hout, if_neg heq, List.append_nil]
    exact h.untouched g' hg'
  · rcases hlaunched with heq | ⟨m, heq, hm, hbefore, -⟩
    · rw [heq]
      exact h.launchedGroups
    · rw [heq, List.map_append, List.nodup_append]
      refine ⟨h.launchedGroups, List.nodup_singleton _, ?_⟩
      intro a ha b hb hab
      obtain rfl := List.mem_singleton.1 hb
      obtain ⟨m', hm', rfl⟩ := List.mem_map.1 ha
      obtain ⟨⟨grp', hgrp', hafter'⟩, -⟩ := h.launched m' hm'
      rw [hab, hm, hg] at hgrp'
      rw [← Option.some.inj hgrp', hbefore] at hafter'
      cases hafter'
  · intro m hm
    rcases hlaunched with heq | ⟨m', heq, hmg, -, hafter', hplayers⟩
    · exact hold m (heq ▸ hm)
    · rw [heq] at hm
      rcases List.mem_append.1 hm with hm | hm
      · exact hold m hm
      · obtain rfl := List.mem_singleton.1 hm
        rw [hmg]
        refine ⟨⟨{ grp with stage := stage, room := room }, ?_, hafter'⟩, hplayers⟩
        rw [hgroups, Function.update_self]
  · intro o ho ho'
    rw [hout] at ho
    rcases List.mem_append.1 ho with ho | ho
    · obtain ⟨m, hm, hmg, hp⟩ := h.matched o ho ho'
      exact ⟨m, hgrow m hm, hmg, hp⟩
    · obtain ⟨x, hx, rfl⟩ := List.mem_map.1 ho
      exact hmatched x hx ho'

/-- a step that moves no ticket -/
theorem MatchInv.advance (h : MatchInv s place) (hg : s.groups g = some grp) (stage : GroupStage) (room : List String)
    (haccount : stage.pending.Perm grp.stage.pending) (hheld : ∀ t ∈ stage.held, t ∈ grp.stage.held)
    (hroom : ∀ t ∈ stage.seated, t.userId ∈ room) (hnotify : ∀ todo, stage ≠ .notify todo)
    (hafter : grp.stage.afterLaunch = true → stage.afterLaunch = true) :
    MatchInv (s.setGroup g { grp with stage := stage, room := room }) place :=
  h.step_group hg stage room [] rfl (List.append_nil _).symm rfl h.queued (fun _ hne => absurd rfl hne) haccount
    (fun t ht => (h.groups g grp hg).held t (hheld t ht)) hroom (fun todo hs => absurd hs (hnotify todo)) hafter
    (.inl rfl) (fun _ ho => absurd ho List.not_mem_nil)

theorem GroupInv.pending_users (h : GroupInv s place g grp) :
    (grp.stage.pending.map MatchmakingTicket.userId).Nodup := by
  have hperm := (h.account.map MatchmakingTicket.userId).nodup_iff.2 h.users
  rw [List.map_append, List.nodup_append] at hperm
  exact hperm.2.1

/-- a place that moves is not that of another user's ticket -/
theorem GroupInv.unmoved (h : GroupInv s place g grp) {p t : MatchmakingTicket} (hp : p ∈ grp.stage.held)
    (ht : t ∈ grp.stage.held) (hne : t.userId ≠ p.userId) (x : Place) :
    Function.update place p.id x t.id = .inGroup g t.userId := by
  have hplace := h.held t ht
  rw [Function.update_of_ne, hplace]
  intro hid
  rw [hid, h.held p hp] at hplace
  exact hne (Place.inGroup.inj hplace).2.symm

theorem requeue_outcomes (s : Matchmaking) (g : ℕ) (p : MatchmakingTicket) (f : AddFaults) :
    (s.requeue g p f).outcomes = s.outcomes ++
      (if f.added then [(p, TicketOutcome.requeued)] else []).map fun o => (g, o.1, o.2) := by
  unfold requeue
  split_ifs
  · rfl
  · exact (List.append_nil _).symm

theorem requeue_rest (s : Matchmaking) (g : ℕ) (p : MatchmakingTicket) (f : AddFaults) :
    (s.requeue g p f).queue = (s.queue.addTicket p f).1 ∧ (s.requeue g p f).groups = s.groups ∧
      (s.requeue g p f).nextId = s.nextId ∧ (s.requeue g p f).wanted = s.wanted ∧
      (s.requeue g p f).launched = s.launched := by
  unfold requeue
  split_ifs
  · exact ⟨rfl, rfl, rfl, rfl, rfl⟩
  · exact ⟨rfl, rfl, rfl, rfl, rfl⟩

/-- a ticket that its user still wants is put back, or is not -/
theorem MatchInv.requeue (h : MatchInv s place) (hg : s.groups g = some grp) (p : MatchmakingTicket) (f : AddFaults)
    (stage : GroupStage) (hp : p ∈ grp.stage.held) (hw : s.wanted p.userId = some p)
    (haccount : ((if f.added then [p] else []) ++ stage.pending).Perm grp.stage.pending)
    (hheld : ∀ t ∈ stage.held, t ∈ grp.stage.held ∧ t.userId ≠ p.userId)
    (hroom : ∀ t ∈ stage.seated, t ∈ grp.stage.seated) (hnotify : ∀ todo, stage ≠ .notify todo)
    (hafter : grp.stage.afterLaunch = true → stage.afterLaunch = true) :
    MatchInv ((s.requeue g p f).setGroup g { grp with stage := stage })
      (Function.update place p.id (.queued p.userId)) := by
  have hgrp := h.groups g grp hg
  obtain ⟨hqueue, hgroups, hnext, hwanted, hlaunched⟩ := requeue_rest s g p f
  refine h.step_group hg stage grp.room (if f.added then [(p, .requeued)] else []) ?_ (requeue_outcomes s g p f) hnext
    ?_ ?_ ?_ ?_ ?_ (fun todo hs => absurd hs (hnotify todo)) hafter (.inl hlaunched) ?_
  · simp only [setGroup, hgroups]
  · intro u t hu
    simp only [setGroup, hqueue, hwanted] at hu ⊢
    rcases addTicket_from s.queue p f u t hu with hold | ⟨rfl, rfl⟩
    · obtain ⟨huser, hplace, hwant⟩ := h.queued u t hold
      refine ⟨huser, ?_, hwant⟩
      rw [Function.update_of_ne, hplace]
      intro hid
      rw [hid, hgrp.held p hp] at hplace
      cases hplace
    · exact ⟨rfl, Function.update_self _ _ _, hw⟩
  · intro i hi
    refine ⟨p, hp, ?_⟩
    by_contra hne
    exact hi (Function.update_of_ne (Ne.symm hne) _ _)
  · rw [apply_ite (List.map Prod.fst)]
    exact haccount
  · intro t ht
    obtain ⟨ht', hne⟩ := hheld t ht
    exact hgrp.unmoved hp ht' hne _
  · intro t ht
    exact hgrp.room t (hroom t ht)
  · intro o ho hm
    split_ifs at ho
    · obtain rfl := List.mem_singleton.1 ho
      cases hm
    · cases ho

/-- an outcome that leaves the queue alone -/
theorem MatchInv.settle (h : MatchInv s place) (hg : s.groups g = some grp) (p : MatchmakingTicket) (o : TicketOutcome)
    (stage : GroupStage) (haccount : (p :: stage.pending).Perm grp.stage.pending)
    (hheld : ∀ t ∈ stage.held, t ∈ grp.stage.held) (hroom : ∀ t ∈ stage.seated, t ∈ grp.stage.seated)
    (hnotify : ∀ todo, stage = .notify todo → ∃ todo', grp.stage = .notify todo' ∧ ∀ t ∈ todo, t ∈ todo')
    (hafter : grp.stage.afterLaunch = true → stage.afterLaunch = true)
    (hmatched : o = .matched → ∃ todo, grp.stage = .notify todo ∧ p ∈ todo) :
    MatchInv ((s.record g p o).setGroup g { grp with stage := stage }) place := by
  have hgrp := h.groups g grp hg
  refine h.step_group hg stage grp.room [(p, o)] rfl rfl rfl h.queued (fun _ hne => absurd rfl hne) haccount
    (fun t ht => hgrp.held t (hheld t ht)) (fun t ht => hgrp.room t (hroom t ht)) ?_ hafter (.inl rfl) ?_
  · intro todo hs
    obtain ⟨todo', hs', hsub⟩ := hnotify todo hs
    obtain ⟨m, hm, hmg, hplayers⟩ := hgrp.notify todo' hs'
    exact ⟨m, hm, hmg, fun t ht => hplayers t (hsub t ht)⟩
  · intro x hx hm
    obtain rfl := List.mem_singleton.1 hx
    obtain ⟨todo, hs, hp⟩ := hmatched hm
    obtain ⟨m, hmem, hmg, hplayers⟩ := hgrp.notify todo hs
    exact ⟨m, hmem, hmg, hplayers p hp⟩

theorem MatchInv.launch (h : MatchInv s place) (hg : s.groups g = some grp) {successful : List MatchmakingTicket}
    (hs : grp.stage = .forceStart successful) :
    MatchInv ({ s with launched := s.launched ++ [LaunchedMatch.mk g successful grp.room] }.setGroup g
        { grp with stage := .notify successful })
      (fun i => if i ∈ successful.map MatchmakingTicket.id then .launchedIn g else place i) := by
  have hgrp := h.groups g grp hg
  have hheld := hgrp.held
  have hroom := hgrp.room
  rw [hs] at hheld hroom
  have hmem : ∀ t ∈ successful, t.id ∈ successful.map MatchmakingTicket.id := fun t ht => List.mem_map_of_mem ht
  refine h.step_group hg (.notify successful) grp.room [] rfl (List.append_nil _).symm rfl ?_ ?_ ?_ ?_ ?_ ?_ ?_ ?_ ?_
  · intro u t hu
    obtain ⟨huser, hplace, hwant⟩ := h.queued u t hu
    refine ⟨huser, ?_, hwant⟩
    rw [if_neg, hplace]
    intro hid
    obtain ⟨t', ht', hid'⟩ := List.mem_map.1 hid
    rw [← hid', hheld t' ht'] at hplace
    cases hplace
  · intro i hi
    have hid : i ∈ successful.map MatchmakingTicket.id := by
      by_contra hnot
      exact hi (if_neg hnot)
    obtain ⟨t, ht, hti⟩ := List.mem_map.1 hid
    refine ⟨t, ?_, hti⟩
    rw [hs]
    exact ht
  · rw [hs]
    exact List.Perm.refl _
  · intro t ht
    cases ht
  · intro t ht
    cases ht
  · intro todo hnotify
    obtain rfl := GroupStage.notify.inj hnotify
    exact ⟨_, List.mem_append_right _ List.mem_cons_self, rfl, fun t ht => ht⟩
  · intro hafter
    rfl
  · refine .inr ⟨_, rfl, rfl, by rw [hs]; rfl, rfl, ?_⟩
    intro t ht
    exact ⟨if_pos (hmem t ht), hroom t ht⟩
  · intro o ho
    cases ho

/-- the rows keep the players that are to be in the room -/
theorem MatchInv.recovered (h : MatchInv s place) (hg : s.groups g = some grp) (f : StepFaults)
    {successful todo : List MatchmakingTicket} {player : MatchmakingTicket}
    (hs : grp.stage = .findPlayer successful player todo) :
    MatchInv (s.findPlayer g grp f successful player todo) place := by
  have hroom := (h.groups g grp hg).room
  rw [hs] at hroom
  have hfail : ∀ recovering, MatchInv (s.setGroup g
      { grp with stage := .failPlayer .cleanup player (.addPlayers successful todo recovering) }) place := by
    intro recovering
    refine h.advance hg (.failPlayer .cleanup player (.addPlayers successful todo recovering)) grp.room ?_ ?_ hroom
      (by simp) (by rw [hs]; simp [GroupStage.afterLaunch])
    · rw [hs]
      exact List.Perm.refl _
    · rw [hs]
      exact fun t ht => ht
  unfold findPlayer
  by_cases hcall : f.call ≠ .ok
  · rw [if_pos hcall]
    exact hfail false
  rw [if_neg hcall]
  by_cases hmem : player.userId ∉ grp.room
  · rw [if_pos hmem]
    exact hfail true
  rw [if_neg hmem]
  by_cases hredis : f.redisErr = true
  · rw [if_pos hredis]
    exact hfail false
  rw [if_neg hredis]
  rw [not_not] at hmem
  have hperm : (successful ++ [player] ++ todo).Perm (player :: (successful ++ todo)) := by
    rw [List.append_assoc]
    exact List.perm_middle
  refine h.advance hg (.addPlayers (successful ++ [player]) todo) grp.room ?_ ?_ ?_ (by simp)
    (by rw [hs]; simp [GroupStage.afterLaunch])
  · rw [hs]
    exact hperm
  · rw [hs]
    exact fun t ht => hperm.mem_iff.1 ht
  · intro t ht
    rcases List.mem_append.1 ht with ht | ht
    · exact hroom t ht
    · rw [List.mem_singleton.1 ht]
      exact hmem

theorem MatchInv.added (h : MatchInv s place) (hg : s.groups g = some grp) (f : StepFaults)
    {successful todo : List MatchmakingTicket} {player : MatchmakingTicket}
    (hs : grp.stage = .addPlayers successful (player :: todo)) :
    MatchInv (s.addPlayer g grp f successful player todo) place := by
  have hroom := (h.groups g grp hg).room
  rw [hs] at hroom
  have hgrow : ∀ t ∈ successful, t.userId ∈ if f.call = .failed then grp.room else grp.room ++ [player.userId] := by
    intro t ht
    split_ifs
    · exact hroom t ht
    · exact List.mem_append_left _ (hroom t ht)
  unfold addPlayer
  by_cases hok : (f.call = .ok && !f.redisErr) = true
  · rw [if_pos hok]
    have hcall : f.call = .ok := by
      rw [Bool.and_eq_true, decide_eq_true_eq] at hok
      exact hok.1
    refine h.advance hg (.addPlayers (successful ++ [player]) todo) _ ?_ ?_ ?_ (by simp)
      (by rw [hs]; simp [GroupStage.afterLaunch])
    · rw [hs, GroupStage.pending, GroupStage.pending, List.append_assoc]
      exact List.Perm.refl _
    · rw [hs, GroupStage.held, GroupStage.held, List.append_assoc]
      exact fun t ht => ht
    · intro t ht
      rcases List.mem_append.1 ht with ht | ht
      · exact hgrow t ht
      · rw [List.mem_singleton.1 ht, hcall]
        exact List.mem_append_right _ List.mem_cons_self
  · rw [if_neg hok]
    refine h.advance hg (.findPlayer successful player todo) _ ?_ ?_ hgrow (by simp)
      (by rw [hs]; simp [GroupStage.afterLaunch])
    · rw [hs]
      exact List.perm_middle.symm
    · rw [hs]
      exact fun t ht => List.perm_middle.symm.mem_iff.1 ht

theorem MatchInv.failed (h : MatchInv s place) (hg : s.groups g = some grp) (f : StepFaults) {stage : FailStage}
    {player : MatchmakingTicket} {after : AfterFail} (hs : grp.stage = .failPlayer stage player after)
    (hk : StageKeeps s f grp.stage) : ∃ place', MatchInv (s.failPlayer g grp f player after stage) place' := by
  have hgrp := h.groups g grp hg
  have husers := hgrp.pending_users
  have hroom := hgrp.room
  have hbefore : ∀ next : GroupStage, grp.stage.afterLaunch = true → next.afterLaunch = true := by
    rw [hs]
    intro next hafter
    cases hafter
  rw [hs] at hroom hk
  have hseated : ∀ t ∈ after.seated, t ∈ after.tickets := by
    intro t ht
    cases after with
    | addPlayers successful todo recovering => exact List.mem_append_left _ ht
    | failAll todo => cases ht
  cases stage with
  | cleanup =>
    refine ⟨place, ?_⟩
    have hothers : ∀ t ∈ after.seated, t.userId ≠ player.userId := by
      intro t ht heq
      rw [hs] at husers
      refine (List.nodup_cons.1 husers).1 ?_
      rw [← heq]
      exact List.mem_map_of_mem (hseated t ht)
    have hrows : ∀ t ∈ after.seated,
        t.userId ∈ if f.call = .failed then grp.room else grp.room.filter (· ≠ player.userId) := by
      intro t ht
      split_ifs
      · exact hroom t ht
      · exact List.mem_filter.2 ⟨hroom t ht, by simpa using hothers t ht⟩
    simp only [failPlayer]
    by_cases hok : (f.call = .ok && !f.redisErr) = true
    · rw [if_pos hok]
      refine h.advance hg (.failPlayer .requeue player after) _ ?_ ?_ hrows (by simp) (hbefore _)
      · rw [hs]
        exact List.Perm.refl _
      · rw [hs]
        exact fun t ht => ht
    · rw [if_neg hok]
      refine h.advance hg (.failPlayer (.report false) player after) _ ?_ ?_ hrows (by simp) (hbefore _)
      · rw [hs]
        exact List.Perm.refl _
      · rw [hs]
        exact fun t ht => List.mem_cons_of_mem _ ht
  | requeue =>
    obtain ⟨hlost, hwanted⟩ := hk
    refine ⟨Function.update place player.id (.queued player.userId), ?_⟩
    simp only [failPlayer]
    rw [addTicket_throws _ _ _ hlost, Bool.not_not]
    refine h.requeue hg player f.add (.failPlayer (.report f.add.added) player after) ?_ hwanted ?_ ?_ ?_ (by simp)
      (hbefore _)
    · rw [hs]
      exact List.mem_cons_self
    · rw [hs]
      cases f.add.added with
      | true => exact List.Perm.refl _
      | false => exact List.Perm.refl _
    · intro t ht
      rw [hs] at husers ⊢
      refine ⟨List.mem_cons_of_mem _ ht, fun heq => (List.nodup_cons.1 husers).1 ?_⟩
      rw [← heq]
      exact List.mem_map_of_mem ht
    · rw [hs]
      exact fun t ht => ht
  | report requeued =>
    refine ⟨place, ?_⟩
    have hemit : f.emitErr = false := hk
    have hresume : ∃ stage', grp.resume after = { grp with stage := stage' } ∧ stage'.pending = after.tickets ∧
        stage'.held = after.tickets ∧ stage'.seated = after.seated ∧ ∀ todo, stage' ≠ .notify todo := by
      cases after with
      | addPlayers successful todo recovering => exact ⟨_, rfl, rfl, rfl, rfl, by simp⟩
      | failAll todo => exact ⟨_, rfl, rfl, rfl, rfl, by simp⟩
    obtain ⟨stage', hstage', hpending, hheld, hseated', hnotify⟩ := hresume
    simp only [failPlayer, hemit, Bool.false_eq_true, if_false]
    rw [hstage']
    cases requeued with
    | true =>
      rw [if_pos rfl]
      refine h.advance hg stage' grp.room ?_ ?_ ?_ hnotify (hbefore _)
      · rw [hs, hpending]
        exact List.Perm.refl _
      · rw [hs, hheld]
        exact fun t ht => ht
      · rw [hseated']
        exact hroom
    | false =>
      rw [if_neg Bool.false_ne_true]
      refine h.settle hg player .error stage' ?_ ?_ ?_ (fun todo hn => absurd hn (hnotify todo)) (hbefore _)
        (fun he => by cases he)
      · rw [hs, hpending]
        exact List.Perm.refl _
      · rw [hs, hheld]
        exact fun t ht => ht
      · rw [hs, hseated']
        exact fun t ht => ht

/-- **A step of a group that loses no ticket.** -/
theorem groupStep_inv (h : MatchInv s place) (hg : s.groups g = some grp) (f : StepFaults)
    (hk : StageKeeps s f grp.stage) : ∃ place', MatchInv (s.groupStep g grp f) place' := by
  have hgrp := h.groups g grp hg
  have hroom := hgrp.room
  cases hs : grp.stage with
  | createRoom players =>
    have hbefore : ∀ next : GroupStage, grp.stage.afterLaunch = true → next.afterLaunch = true := by
      simp [hs, GroupStage.afterLaunch]
    refine ⟨place, ?_⟩
    cases players with
    | nil =>
      simp only [groupStep, hs]
      exact h.advance hg .done grp.room (by rw [hs]; exact List.Perm.refl _) (by simp [GroupStage.held])
        (by simp [GroupStage.seated]) (by simp) (hbefore _)
    | cons host players =>
      simp only [groupStep, hs]
      split_ifs
      · refine h.advance hg (.addPlayers [host] players) [host.userId] (by rw [hs]; exact List.Perm.refl _)
          (by rw [hs]; exact fun t ht => ht) ?_ (by simp) (hbefore _)
        intro t ht
        obtain rfl := List.mem_singleton.1 ht
        exact List.mem_cons_self
      · exact h.advance hg (.requeueAll (host :: players)) grp.room (by rw [hs]; exact List.Perm.refl _)
          (by rw [hs]; exact fun t ht => ht) (by simp [GroupStage.seated]) (by simp) (hbefore _)
  | requeueAll todo =>
    have hbefore : ∀ next : GroupStage, grp.stage.afterLaunch = true → next.afterLaunch = true := by
      simp [hs, GroupStage.afterLaunch]
    cases todo with
    | nil =>
      refine ⟨place, ?_⟩
      simp only [groupStep, hs]
      exact h.advance hg .done grp.room (by rw [hs]; exact List.Perm.refl _) (by simp [GroupStage.held])
        (by simp [GroupStage.seated]) (by simp) (hbefore _)
    | cons t todo =>
      rw [hs] at hk
      obtain ⟨hadded, hwanted⟩ := hk
      have husers := hgrp.pending_users
      rw [hs] at husers
      refine ⟨Function.update place t.id (.queued t.userId), ?_⟩
      simp only [groupStep, hs]
      refine h.requeue hg t f.add (.requeueAll todo) ?_ hwanted ?_ ?_ (by simp [GroupStage.seated]) (by simp)
        (hbefore _)
      · rw [hs]
        exact List.mem_cons_self
      · rw [hs, hadded]
        exact List.Perm.refl _
      · intro t' ht'
        rw [hs]
        refine ⟨List.mem_cons_of_mem _ ht', fun heq => (List.nodup_cons.1 husers).1 ?_⟩
        rw [← heq]
        exact List.mem_map_of_mem ht'
  | addPlayers successful todo =>
    cases todo with
    | nil =>
      have hbefore : ∀ next : GroupStage, grp.stage.afterLaunch = true → next.afterLaunch = true := by
        simp [hs, GroupStage.afterLaunch]
      rw [hs] at hroom
      refine ⟨place, ?_⟩
      simp only [groupStep, hs]
      refine h.advance hg (.fillBots successful) grp.room ?_ ?_ hroom (by simp) (hbefore _)
      · rw [hs, GroupStage.pending, GroupStage.pending, List.append_nil]
      · rw [hs, GroupStage.held, GroupStage.held, List.append_nil]
        exact fun t ht => ht
    | cons player todo =>
      refine ⟨place, ?_⟩
      simp only [groupStep, hs]
      exact h.added hg f hs
  | findPlayer successful player todo =>
    refine ⟨place, ?_⟩
    simp only [groupStep, hs]
    exact h.recovered hg f hs
  | failPlayer stage player after =>
    simp only [groupStep, hs]
    exact h.failed hg f hs hk
  | fillBots successful =>
    rw [hs] at hroom
    refine ⟨place, ?_⟩
    simp only [groupStep, hs]
    refine h.advance hg (.joinSockets successful successful) (grp.room ++ f.bots) (by rw [hs]; exact List.Perm.refl _)
      (by rw [hs]; exact fun t ht => ht) ?_ (by simp) (by simp [hs, GroupStage.afterLaunch])
    exact fun t ht => List.mem_append_left _ (hroom t ht)
  | joinSockets successful todo =>
    rw [hs] at hroom
    refine ⟨place, ?_⟩
    cases todo with
    | nil =>
      simp only [groupStep, hs]
      exact h.advance hg (.forceStart successful) grp.room (by rw [hs]; exact List.Perm.refl _)
        (by rw [hs]; exact fun t ht => ht) hroom (by simp) (by simp [hs, GroupStage.afterLaunch])
    | cons player todo =>
      simp only [groupStep, hs]
      split_ifs
      · exact h.advance hg (.failAll successful) grp.room (by rw [hs]; exact List.Perm.refl _)
          (by rw [hs]; exact fun t ht => ht) (by simp [GroupStage.seated]) (by simp)
          (by simp [hs, GroupStage.afterLaunch])
      · exact h.advance hg (.joinSockets successful todo) grp.room (by rw [hs]; exact List.Perm.refl _)
          (by rw [hs]; exact fun t ht => ht) hroom (by simp) (by simp [hs, GroupStage.afterLaunch])
  | forceStart successful =>
    simp only [groupStep, hs]
    split_ifs
    · exact ⟨_, h.launch hg hs⟩
    · exact ⟨place, h.advance hg (.failAll successful) grp.room (by rw [hs]; exact List.Perm.refl _)
        (by rw [hs]; exact fun t ht => ht) (by simp [GroupStage.seated]) (by simp)
        (by simp [hs, GroupStage.afterLaunch])⟩
  | failAll todo =>
    refine ⟨place, ?_⟩
    cases todo with
    | nil =>
      simp only [groupStep, hs]
      exact h.advance hg .closeRoom grp.room (by rw [hs]; exact List.Perm.refl _) (by simp [GroupStage.held])
        (by simp [GroupStage.seated]) (by simp) (by simp [hs, GroupStage.afterLaunch])
    | cons player todo =>
      simp only [groupStep, hs]
      exact h.advance hg (.failPlayer .cleanup player (.failAll todo)) grp.room (by rw [hs]; exact List.Perm.refl _)
        (by rw [hs]; exact fun t ht => ht) (by simp [GroupStage.seated, AfterFail.seated]) (by simp)
        (by simp [hs, GroupStage.afterLaunch])
  | closeRoom =>
    refine ⟨place, ?_⟩
    simp only [groupStep, hs]
    exact h.advance hg .done grp.room (by rw [hs]; exact List.Perm.refl _) (by simp [GroupStage.held])
      (by simp [GroupStage.seated]) (by simp) (by simp [GroupStage.afterLaunch])
  | notify todo =>
    refine ⟨place, ?_⟩
    cases todo with
    | nil =>
      simp only [groupStep, hs]
      exact h.advance hg .done grp.room (by rw [hs]; exact List.Perm.refl _) (by simp [GroupStage.held])
        (by simp [GroupStage.seated]) (by simp) (by simp [GroupStage.afterLaunch])
    | cons player todo =>
      rw [hs] at hk
      have hemit : f.emitErr = false := hk
      simp only [groupStep, hs, hemit, Bool.false_eq_true, if_false]
      refine h.settle hg player .matched (.notify todo) (by rw [hs]; exact List.Perm.refl _) (by simp [GroupStage.held])
        (by simp [GroupStage.seated]) ?_ (fun _ => rfl) ?_
      · intro todo' hn
        obtain rfl := GroupStage.notify.inj hn
        exact ⟨_, hs, fun t ht => List.mem_cons_of_mem _ ht⟩
      · exact fun _ => ⟨_, hs, List.mem_cons_self⟩
  | done =>
    refine ⟨place, ?_⟩
    simp only [groupStep, hs]
    exact h

end GroupStep

/-! ## Users, readers and pops -/

section Others

variable {s s' : Matchmaking} {place place' : ℕ → Place}

/-- a step that leaves groups and matches alone, and moves no ticket that is not in the queue -/
theorem MatchInv.queue_step (h : MatchInv s place) (hgroups : s'.groups = s.groups) (hout : s'.outcomes = s.outcomes)
    (hlaunched : s'.launched = s.launched)
    (hqueue : ∀ u t, s'.queue.ticket u = some t → t.userId = u ∧ place' t.id = .queued u ∧ s'.wanted u = some t)
    (hfresh : ∀ i, s'.nextId ≤ i → place' i = .unused)
    (hplace : ∀ i, place i ≠ .unused → place' i = place i) : MatchInv s' place' := by
  have hof : ∀ g, s'.outcomesOf g = s.outcomesOf g := fun g => by rw [outcomesOf, hout, outcomesOf]
  refine ⟨hqueue, hfresh, ?_, ?_, ?_, ?_, ?_⟩
  · intro g grp hg
    rw [hgroups] at hg
    have hgrp := h.groups g grp hg
    refine ⟨?_, hgrp.users, ?_, hgrp.room, ?_⟩
    · rw [hof]
      exact hgrp.account
    · intro t ht
      rw [hplace t.id (by simp [hgrp.held t ht])]
      exact hgrp.held t ht
    · rw [hlaunched]
      exact hgrp.notify
  · intro g hg
    rw [hof]
    exact h.untouched g (hgroups ▸ hg)
  · rw [hlaunched]
    exact h.launchedGroups
  · intro m hm
    rw [hlaunched] at hm
    obtain ⟨hgrp, hplayers⟩ := h.launched m hm
    refine ⟨hgroups ▸ hgrp, fun t ht => ?_⟩
    obtain ⟨hp, hr⟩ := hplayers t ht
    rw [hplace t.id (by simp [hp])]
    exact ⟨hp, hr⟩
  · rw [hout, hlaunched]
    exact h.matched

theorem MatchInv.enqueue (h : MatchInv s place) (u socketId : String) :
    MatchInv (step s (.enqueue u socketId)) (Function.update place s.nextId (.queued u)) := by
  have hunused := h.fresh s.nextId le_rfl
  have hother : ∀ i, place i ≠ .unused → Function.update place s.nextId (.queued u) i = place i := by
    intro i hi
    refine Function.update_of_ne ?_ _ _
    rintro rfl
    exact hi hunused
  refine h.queue_step rfl rfl rfl ?_ ?_ hother
  · intro u' t ht
    rcases addTicket_from s.queue ⟨u, socketId, s.nextId⟩ .none u' t ht with hold | ⟨rfl, rfl⟩
    · obtain ⟨huser, hplace, hwant⟩ := h.queued u' t hold
      have hne : u' ≠ u := by
        rintro rfl
        have hnew := (addTicket_added s.queue ⟨u', socketId, s.nextId⟩ .none rfl).1
        have heq : t = ⟨u', socketId, s.nextId⟩ := Option.some.inj (ht.symm.trans hnew)
        rw [heq, hunused] at hplace
        cases hplace
      refine ⟨huser, ?_, ?_⟩
      · rw [hother _ (by simp [hplace])]
        exact hplace
      · simp only [step]
        rw [Function.update_of_ne hne]
        exact hwant
    · exact ⟨rfl, Function.update_self _ _ _, Function.update_self _ _ _⟩
  · intro i hi
    have hlt : s.nextId < i := hi
    rw [Function.update_of_ne (by omega)]
    exact h.fresh i (by omega)

theorem del_ticket {q : QueueStore} {u u' : String} {t : MatchmakingTicket} (h : (q.del u).ticket u' = some t) :
    u' ≠ u ∧ q.ticket u' = some t := by
  simp only [QueueStore.del, Function.update_apply] at h
  split_ifs at h with heq
  exact ⟨heq, h⟩

/-- a ticket that `removeTicket` leaves is another user's, or of another socket -/
theorem removeTicket_ticket {q : QueueStore} {u u' : String} {socketId : Option String} {t : MatchmakingTicket}
    (h : (q.removeTicket u socketId).ticket u' = some t) :
    q.ticket u' = some t ∧ (u' = u → ∃ socket, socketId = some socket ∧ socket ≠ t.socketId) := by
  unfold QueueStore.removeTicket at h
  split at h
  · rename_i socket hnone
    refine ⟨h, ?_⟩
    rintro rfl
    rw [hnone] at h
    cases h
  · rename_i socket t' hsome
    split_ifs at h with hne
    · refine ⟨h, ?_⟩
      rintro rfl
      rw [hsome] at h
      obtain rfl := Option.some.inj h
      exact ⟨socket, rfl, fun heq => hne heq.symm⟩
    · obtain ⟨hu, hold⟩ := del_ticket (q := q) h
      exact ⟨hold, fun heq => absurd heq hu⟩
  · obtain ⟨hu, hold⟩ := del_ticket (q := q) h
    exact ⟨hold, fun heq => absurd heq hu⟩

theorem MatchInv.leave (h : MatchInv s place) (u : String) (socketId : Option String) :
    MatchInv (step s (.leave u socketId)) place := by
  refine h.queue_step rfl rfl rfl ?_ h.fresh fun _ _ => rfl
  intro u' t ht
  obtain ⟨hold, hsocket⟩ := removeTicket_ticket ht
  obtain ⟨huser, hplace, hwant⟩ := h.queued u' t hold
  refine ⟨huser, hplace, ?_⟩
  simp only [step, Function.update_apply]
  split_ifs with heq
  · obtain ⟨socket, rfl, hne⟩ := hsocket heq
    rw [← heq, hwant, Option.filter_some, if_pos]
    simpa using hne
  · exact hwant

/-- what a pop takes, and what it leaves -/
theorem atomicPopTickets_spec {q : QueueStore} (hq : ∀ u t, q.ticket u = some t → t.userId = u)
    (userIds : List String) : ((q.atomicPopTickets userIds).2.map MatchmakingTicket.userId).Sublist userIds ∧
      (∀ t ∈ (q.atomicPopTickets userIds).2, q.ticket t.userId = some t) ∧
      ∀ u t, (q.atomicPopTickets userIds).1.ticket u = some t → q.ticket u = some t ∧
        t ∉ (q.atomicPopTickets userIds).2 := by
  unfold QueueStore.atomicPopTickets
  split_ifs with hall
  · have hmem : ∀ t ∈ userIds.filterMap q.ticket, ∃ u ∈ userIds, q.ticket u = some t :=
      fun t ht => List.mem_filterMap.1 ht
    refine ⟨?_, ?_, ?_⟩
    · rw [List.map_filterMap]
      have hid : ∀ u ∈ userIds, (q.ticket u).map MatchmakingTicket.userId = some u := by
        intro u hu
        obtain ⟨t, ht⟩ := Option.isSome_iff_exists.1 (List.all_eq_true.1 hall u hu)
        rw [ht, Option.map_some, hq u t ht]
      rw [List.filterMap_congr hid, List.filterMap_some]
    · intro t ht
      obtain ⟨u, -, htu⟩ := hmem t ht
      rw [hq u t htu]
      exact htu
    · intro u t ht
      simp only at ht
      split_ifs at ht with hu
      refine ⟨ht, fun hpop => hu ?_⟩
      obtain ⟨u', hu', htu'⟩ := hmem t hpop
      rw [← hq u t ht, hq u' t htu']
      exact hu'
  · exact ⟨List.nil_sublist _, fun t ht => absurd ht List.not_mem_nil, fun u t ht => ⟨ht, List.not_mem_nil⟩⟩

/-- the place of a popped ticket is its group -/
def popPlace (place : ℕ → Place) (g : ℕ) (popped : List MatchmakingTicket) (i : ℕ) : Place :=
  match popped.find? (·.id = i) with
  | some t => .inGroup g t.userId
  | none => place i

section PopPlace

variable {g : ℕ} {popped : List MatchmakingTicket}

theorem popPlace_popped (hp : ∀ t ∈ popped, place t.id = .queued t.userId) {t : MatchmakingTicket} (ht : t ∈ popped) :
    popPlace place g popped t.id = .inGroup g t.userId := by
  unfold popPlace
  cases hf : popped.find? (·.id = t.id) with
  | none => simpa using List.find?_eq_none.1 hf t ht
  | some t' =>
    have hid : t'.id = t.id := by simpa using List.find?_some hf
    have hplace := hp t' (List.mem_of_find?_eq_some hf)
    rw [hid, hp t ht] at hplace
    rw [Place.queued.inj hplace]

theorem popPlace_other {i : ℕ} (hi : ∀ t ∈ popped, t.id ≠ i) : popPlace place g popped i = place i := by
  unfold popPlace
  rw [List.find?_eq_none.2 fun t ht => by simpa using hi t ht]

end PopPlace

theorem MatchInv.popped (h : MatchInv s place) {g : ℕ} (hnew : s.groups g = none) {userIds : List String}
    (hn : userIds.Nodup) :
    MatchInv ({ s with queue := (s.queue.atomicPopTickets userIds).1 }.setGroup g
        ⟨(s.queue.atomicPopTickets userIds).2, .createRoom (s.queue.atomicPopTickets userIds).2, []⟩)
      (popPlace place g (s.queue.atomicPopTickets userIds).2) := by
  obtain ⟨husers, htaken, hleft⟩ := atomicPopTickets_spec (fun u t ht => (h.queued u t ht).1) userIds
  generalize (s.queue.atomicPopTickets userIds).2 = popped at husers htaken hleft ⊢
  have hp : ∀ t ∈ popped, place t.id = .queued t.userId := fun t ht => (h.queued _ t (htaken t ht)).2.1
  have hstays : ∀ i, (∀ u, place i ≠ .queued u) → popPlace place g popped i = place i := by
    intro i hi
    refine popPlace_other fun t ht hid => ?_
    rw [← hid] at hi
    exact hi _ (hp t ht)
  refine ⟨?_, ?_, ?_, ?_, h.launchedGroups, ?_, h.matched⟩
  · intro u t ht
    obtain ⟨hold, hnot⟩ := hleft u t ht
    obtain ⟨huser, hplace, hwant⟩ := h.queued u t hold
    refine ⟨huser, ?_, hwant⟩
    rw [popPlace_other, hplace]
    intro t' ht' hid
    have hplace' := hp t' ht'
    rw [hid, hplace] at hplace'
    have hu := Place.queued.inj hplace'
    have heq := htaken t' ht'
    rw [← hu, hold] at heq
    rw [Option.some.inj heq] at hnot
    exact hnot ht'
  · intro i hi
    have hunused := h.fresh i hi
    rw [hstays i (by simp [hunused])]
    exact hunused
  · intro g' grp hg'
    simp only [setGroup, Function.update_apply] at hg'
    split_ifs at hg' with heq
    · subst heq
      obtain rfl := Option.some.inj hg'
      refine ⟨?_, husers.nodup hn, fun t ht => popPlace_popped hp ht, ?_, ?_⟩
      · have hnone : ({ s with queue := (s.queue.atomicPopTickets userIds).1 }.setGroup g'
            ⟨popped, .createRoom popped, []⟩).outcomesOf g' = [] := h.untouched g' hnew
        rw [hnone]
        exact List.Perm.refl _
      · intro t ht
        cases ht
      · intro todo hs
        cases hs
    · have hgrp := h.groups g' grp hg'
      refine ⟨hgrp.account, hgrp.users, ?_, hgrp.room, hgrp.notify⟩
      intro t ht
      have hplace := hgrp.held t ht
      rw [hstays t.id (by simp [hplace])]
      exact hplace
  · intro g' hg'
    simp only [setGroup, Function.update_apply] at hg'
    split_ifs at hg' with heq
    exact h.untouched g' hg'
  · intro m hm
    obtain ⟨⟨grp, hgrp, hafter⟩, hplayers⟩ := h.launched m hm
    refine ⟨⟨grp, ?_, hafter⟩, fun t ht => ?_⟩
    · simp only [setGroup, Function.update_apply]
      rw [if_neg]
      · exact hgrp
      · intro heq
        rw [heq, hnew] at hgrp
        cases hgrp
    · obtain ⟨hplace, hr⟩ := hplayers t ht
      rw [hstays t.id (by simp [hplace])]
      exact ⟨hplace, hr⟩

theorem MatchInv.pop (h : MatchInv s place) (g : ℕ) (userIds : List String) (reply : CallResult)
    (hreply : reply ≠ .lost) : ∃ place', MatchInv (s.pop g userIds reply) place' := by
  unfold Matchmaking.pop
  by_cases hw : s.groups g ≠ none ∨ ¬userIds.Nodup
  · rw [if_pos hw]
    exact ⟨place, h⟩
  · rw [if_neg hw]
    rw [not_or, not_not, not_not] at hw
    cases reply with
    | ok => exact ⟨_, h.popped hw.1 hw.2⟩
    | failed => exact ⟨place, h⟩
    | lost => exact absurd rfl hreply

/-- **A step that loses no ticket.** -/
theorem step_matchInv (h : MatchInv s place) (o : MatchmakingOp) (hk : Keeps s o) :
    ∃ place', MatchInv (step s o) place' := by
  cases o with
  | enqueue u socketId => exact ⟨_, h.enqueue u socketId⟩
  | leave u socketId => exact ⟨place, h.leave u socketId⟩
  | expire u =>
    refine ⟨place, h.queue_step rfl rfl rfl ?_ h.fresh fun _ _ => rfl⟩
    intro u' t ht
    exact h.queued u' t (del_ticket ht).2
  | readQueue reader => exact ⟨place, h.queue_step rfl rfl rfl h.queued h.fresh fun _ _ => rfl⟩
  | prune reader => exact ⟨place, h.queue_step rfl rfl rfl h.queued h.fresh fun _ _ => rfl⟩
  | pop g userIds reply => exact h.pop g userIds reply hk
  | worker g f =>
    simp only [step]
    cases hg : s.groups g with
    | none => exact ⟨place, h⟩
    | some grp => exact groupStep_inv h hg f (hk grp hg)

/-- the outcomes a step of a group adds -/
theorem groupStep_outcomes (s : Matchmaking) (g : ℕ) (grp : Group) (f : StepFaults) :
    (s.groupStep g grp f).outcomes = s.outcomes ∨
      (∃ t o, (s.groupStep g grp f).outcomes = s.outcomes ++ [(g, t, o)] ∧ o ≠ .requeued) ∨
      ∃ t, (s.groupStep g grp f).outcomes = (s.requeue g t f.add).outcomes ∧
        (s.groupStep g grp f).queue = (s.queue.addTicket t f.add).1 := by
  have hrequeue : ∀ t grp', ((s.requeue g t f.add).setGroup g grp').queue = (s.queue.addTicket t f.add).1 :=
    fun t _ => (requeue_rest s g t f.add).1
  cases hs : grp.stage with
  | requeueAll todo =>
    cases todo with
    | nil => exact .inl (by simp only [groupStep, hs]; rfl)
    | cons t todo => exact .inr (.inr ⟨t, by simp only [groupStep, hs]; rfl, by simp only [groupStep, hs, hrequeue]⟩)
  | failPlayer stage player after =>
    cases stage with
    | cleanup => exact .inl (by simp only [groupStep, hs, failPlayer]; rfl)
    | requeue =>
      exact .inr (.inr ⟨player, by simp only [groupStep, hs, failPlayer]; rfl,
        by simp only [groupStep, hs, failPlayer, hrequeue]⟩)
    | report requeued =>
      simp only [groupStep, hs, failPlayer]
      split_ifs
      · exact .inl rfl
      · exact .inl rfl
      · exact .inr (.inl ⟨player, .error, rfl, by simp⟩)
  | notify todo =>
    cases todo with
    | nil => exact .inl (by simp only [groupStep, hs]; rfl)
    | cons player todo =>
      simp only [groupStep, hs]
      split_ifs
      · exact .inl rfl
      · exact .inr (.inl ⟨player, .matched, rfl, by simp⟩)
  | createRoom players =>
    left
    cases players with
    | nil => simp only [groupStep, hs]; rfl
    | cons host players =>
      simp only [groupStep, hs]
      split_ifs
      · rfl
      · rfl
  | addPlayers successful todo =>
    left
    cases todo with
    | nil => simp only [groupStep, hs]; rfl
    | cons player todo =>
      simp only [groupStep, hs, addPlayer]
      split_ifs
      all_goals rfl
  | findPlayer successful player todo =>
    left
    simp only [groupStep, hs, findPlayer]
    split_ifs
    all_goals rfl
  | joinSockets successful todo =>
    left
    cases todo with
    | nil => simp only [groupStep, hs]; rfl
    | cons player todo =>
      simp only [groupStep, hs]
      split_ifs
      · rfl
      · rfl
  | forceStart successful =>
    left
    simp only [groupStep, hs]
    split_ifs
    · rfl
    · rfl
  | failAll todo =>
    left
    cases todo with
    | nil => simp only [groupStep, hs]; rfl
    | cons player todo => simp only [groupStep, hs]; rfl
  | fillBots successful => exact .inl (by simp only [groupStep, hs]; rfl)
  | closeRoom => exact .inl (by simp only [groupStep, hs]; rfl)
  | done => exact .inl (by simp only [groupStep, hs])

theorem step_restores (s : Matchmaking) (o : MatchmakingOp) : Restores s o := by
  intro g t hout
  have hsame : (step s o).outcomes ≠ s.outcomes := by
    rw [hout]
    simp
  cases o with
  | enqueue u socketId => exact absurd rfl hsame
  | leave u socketId => exact absurd rfl hsame
  | expire u => exact absurd rfl hsame
  | readQueue reader => exact absurd rfl hsame
  | prune reader => exact absurd rfl hsame
  | pop g' userIds reply =>
    refine absurd ?_ hsame
    simp only [step, pop]
    split_ifs
    · rfl
    · cases reply with
      | _ => rfl
  | worker g' f =>
    simp only [step] at hout hsame ⊢
    cases hg : s.groups g' with
    | none =>
      rw [hg] at hsame
      exact absurd rfl hsame
    | some grp =>
      simp only [hg] at hout hsame ⊢
      rcases groupStep_outcomes s g' grp f with h | ⟨t', o, h, hne⟩ | ⟨t', h, hqueue⟩
      · exact absurd h hsame
      · rw [h] at hout
        have heq := List.append_cancel_left hout
        simp only [List.cons.injEq, Prod.mk.injEq] at heq
        exact absurd heq.1.2.2 hne
      · rw [h, requeue_outcomes] at hout
        rw [hqueue]
        have heq := List.append_cancel_left hout
        split_ifs at heq with hadded
        · simp only [List.map_cons, List.map_nil, List.cons.injEq, Prod.mk.injEq] at heq
          rw [← heq.1.2.1]
          exact addTicket_added s.queue t' f.add hadded
        · cases heq

end Others

theorem matchInv_init : MatchInv init fun _ => .unused := by
  refine ⟨?_, fun _ _ => rfl, ?_, fun _ _ => rfl, List.nodup_nil, ?_, ?_⟩
  · intro u t ht
    cases ht
  · intro g grp hg
    cases hg
  · intro m hm
    cases hm
  · intro o ho
    cases ho

/-- **Tickets are conserved.** In a run without a step that loses a ticket: each ticket a finished group popped has one
outcome, a user who was sent MATCHED is in the launched match, a ticket put back is in the queue, no ticket is in two
launched groups, and no user who left or queued again has an old ticket in the queue; and each step brings a group
closer to its end. -/
theorem tickets_conserved (ops : List MatchmakingOp) (hk : Along step Keeps init ops) :
    let last := run step init ops
    Conserved last ∧ Along step Restores init ops ∧ ∀ g grp, last.groups g = some grp → grp.stage ≠ .done →
      ∀ f, ∃ grp', (step last (.worker g f)).groups g = some grp' ∧ grp'.stage.remaining < grp.stage.remaining := by
  intro last
  have hinv : ∃ place, MatchInv last place :=
    run_inv step Keeps (fun s => ∃ place, MatchInv s place) (fun _ o hk ⟨_, h⟩ => step_matchInv h o hk) init ops hk
      ⟨_, matchInv_init⟩
  obtain ⟨place, hinv⟩ := hinv
  refine ⟨hinv.conserved, ?_, ?_⟩
  · exact along_of_inv step Keeps Restores (fun _ => True) (fun _ _ _ _ => trivial) (fun s o _ _ => step_restores s o)
      init ops hk trivial
  · intro g grp hg hne f
    simp only [step, hg]
    exact groupStep_remaining last g grp f hne

/-- alice leaves while her group waits for its room, and the room is not created -/
def leavesInFlight : List MatchmakingOp :=
  [.enqueue "alice" "a1", .enqueue "bob" "b1", .pop 1 ["alice", "bob"] .ok, .leave "alice" (some "a1"),
    .worker 1 { StepFaults.none with call := .failed }] ++ List.replicate 3 (.worker 1 .none)

/-- **A user who left is queued again.** -/
theorem gone_user_requeued :
    (run step init leavesInFlight).queue.ticket "alice" = some ⟨"alice", "a1", 0⟩ ∧
      (run step init leavesInFlight).wanted "alice" = none ∧ ¬Conserved (run step init leavesInFlight) := by
  have hrun : (run step init leavesInFlight).queue.ticket "alice" = some ⟨"alice", "a1", 0⟩ ∧
      (run step init leavesInFlight).wanted "alice" = none := by decide +kernel
  refine ⟨hrun.1, hrun.2, fun h => ?_⟩
  have hwanted := h.wanted "alice" _ hrun.1
  rw [hrun.2] at hwanted
  cases hwanted

/-- bob's row cannot be inserted: he goes back to the queue, and alice's match is launched -/
def oneInsertFails : List MatchmakingOp :=
  [.enqueue "alice" "a1", .enqueue "bob" "b1", .pop 1 ["alice", "bob"] .ok, .worker 1 .none,
    .worker 1 { StepFaults.none with call := .failed }] ++ List.replicate 11 (.worker 1 .none)

theorem tickets_conserved_insert :
    let last := run step init oneInsertFails
    last.outcomes = [(1, ⟨"bob", "b1", 1⟩, .requeued), (1, ⟨"alice", "a1", 0⟩, .matched)] ∧
      (last.groups 1).map Group.stage = some .done ∧ Conserved last ∧ Along step Restores init oneInsertFails ∧
      ∀ g grp, last.groups g = some grp → grp.stage ≠ .done →
        ∀ f, ∃ grp', (step last (.worker g f)).groups g = some grp' ∧ grp'.stage.remaining < grp.stage.remaining := by
  intro last
  have hrun : last.outcomes = [(1, ⟨"bob", "b1", 1⟩, .requeued), (1, ⟨"alice", "a1", 0⟩, .matched)] ∧
      (last.groups 1).map Group.stage = some .done := by decide +kernel
  exact ⟨hrun.1, hrun.2, tickets_conserved oneInsertFails (by decide +kernel)⟩

end Matchmaking

end Arena.Api
