/-
The active effects of a player, and the players its cards were played on.

`playCard` and the replay file a temporary effect under the player who played the card; the recipients of the effect are
the `targetPlayerIds` of its CARD_RESOLVED.

- `activeEffects_log`: in every reachable machine the effects filed for a player are the temporary plays the log holds
  of that player, in log order;
- `effects_follow_targets_iff`: what `getActiveEffects` lists is what the log holds for the player as a target exactly
  when every temporary play targets its own caster and nobody else;
- `lock_listed_for_caster`: alice locks the options of bob, and the lock is listed for alice.
-/
import Arena.GameCore.CardLog

namespace Arena.GameCore

open Arena.Lib Arena.Shared

namespace Machine

/-! ## Statement -/

/-- the effect of a log entry for a player at a time: a temporary play that targets the player and is not over -/
def targetedEffect (playerId : String) (serverNow : Time) (e : EventLogEntry) : Option ActiveEffectSnapshot :=
  match e.event with
  | .cardResolved r =>
    match r.expiresAtServer with
    | some expires =>
      if r.resolution = .temporary ∧ playerId ∈ r.targetPlayerIds ∧ serverNow < expires then
        some ⟨e.seqNo, r.effect, expires - serverNow, getDurationMs r.effect, expires⟩
      else none
    | none => none
  | _ => none

/-- what a player is shown are the unexpired temporary plays on that player, once each, in log order and with no more
than the duration left -/
structure FollowsTargets (m : Machine) (playerId : String) (serverNow : Time) : Prop where
  exact : m.getActiveEffects playerId serverNow = m.eventLog.filterMap (targetedEffect playerId serverNow)
  ordered : ((m.getActiveEffects playerId serverNow).map ActiveEffectSnapshot.sourceSeqNo).Pairwise (· < ·)
  bounded : ∀ s ∈ m.getActiveEffects playerId serverNow, ∀ e ∈ m.eventLog, ∀ r, e.event = .cardResolved r →
    e.seqNo = s.sourceSeqNo → r.serverTimestamp ≤ serverNow → s.remainingMs ≤ s.persistedDurationMs

/-- a temporary card is played by a player on itself alone -/
def SelfPlay (m : Machine) : Action → Prop
  | .call (.playCard p _) => m.AcceptsPlay → isTemporaryEffectKind p.resolvedEffect = true →
    ∀ q, q ∈ p.targetPlayerIds ↔ q = p.playedByPlayerId
  | _ => True

/-! ## Effects and the log -/

/-- the effect a log entry files for a player -/
def filedEffect (playerId : String) (e : EventLogEntry) : Option ActiveEffect :=
  match e.event with
  | .cardResolved r =>
    if r.resolution = .temporary ∧ r.playedByPlayerId = playerId then
      some ⟨e.seqNo, r.effect, r.expiresAtServer.getD 0, getDurationMs r.effect⟩
    else none
  | _ => none

theorem pushEffect_get (effects : JsMap String (List ActiveEffect)) (p q : String) (e : ActiveEffect) :
    ((pushEffect effects p e).get q).getD [] = (effects.get q).getD [] ++ if p = q then [e] else [] := by
  unfold pushEffect
  by_cases h : p = q <;> simp [h]

theorem rehydrateEvent_effects (c : CardMirrors) (e : EventLogEntry) (q : String) :
    ((rehydrateEvent c e).activeEffects.get q).getD [] =
      (c.activeEffects.get q).getD [] ++ (filedEffect q e).toList := by
  unfold rehydrateEvent filedEffect
  cases e.event with
  | cardResolved r =>
    simp only [rehydrateCardResolved]
    by_cases ht : r.resolution = .temporary
    · rw [if_pos ht, pushEffect_get]
      by_cases hq : r.playedByPlayerId = q <;> simp [ht, hq]
    · simp [ht]
  | cardOffer r p ids s =>
    simp only [rehydrateCardOffer]
    split_ifs <;> simp
  | secondChanceGranted p r =>
    simp only
    split_ifs <;> simp
  | secondChanceConsumed p r =>
    simp only
    split_ifs <;> simp
  | _ => simp [rehydrateClassAssigned, rehydrateCardPicked]

theorem rehydrate_effects (log : List EventLogEntry) (c : CardMirrors) (q : String) :
    ((log.foldl rehydrateEvent c).activeEffects.get q).getD [] =
      (c.activeEffects.get q).getD [] ++ log.filterMap (filedEffect q) := by
  induction log generalizing c with
  | nil => simp
  | cons e log ih =>
    rw [List.foldl_cons, ih, rehydrateEvent_effects, List.append_assoc, List.filterMap_cons]
    cases filedEffect q e <;> rfl

/-- **The effects filed for a player are its own temporary plays**, in log order. -/
theorem activeEffects_log {m : Machine} (h : TableInv m) (q : String) :
    (m.cards.activeEffects.get q).getD [] = m.eventLog.filterMap (filedEffect q) := by
  obtain ⟨-, -, heff, -⟩ := CardMirrors.table_eq_iff.1 h
  rw [heff, rehydrateCardStateFromEventLog, rehydrate_effects]
  rfl

/-- the expiry of a temporary play lies its duration after the play -/
def Expires (_ : EventLogEntry) (r : CardResolved) : Prop :=
  r.resolution = .temporary → r.expiresAtServer = some (r.serverTimestamp + getDurationMs r.effect)

theorem change_expires {J : StringOps} {m m' : Machine} {o : Op} (hc : Change J m o m')
    (h : EachResolved Expires m.eventLog) : EachResolved Expires m'.eventLog := by
  refine change_eachResolved (fun m round p t => ?_) hc h
  by_cases ht : isTemporaryEffectKind p.resolvedEffect = true <;> simp [Expires, resolvedPayload, ht]

theorem reach_expires (J : StringOps) (matchId roomId : String) (players : List PlayerInfo) (acts : List Action) :
    EachResolved Expires (reach J matchId roomId players acts).eventLog := by
  refine run_inv (act J) (fun _ _ => True) (fun m => EachResolved Expires m.eventLog) (fun m a _ h => ?_) _ acts
    ((along_const _ _ _ _).2 fun _ _ => trivial) (by simp [EachResolved, create])
  cases a with
  | call o => exact change_expires (step_change J m o) h
  | failover =>
    simp only [act, failover_eventLog]
    exact h

/-! ## What is shown -/

/-- what a filed effect shows at a time -/
def shown (serverNow : Time) (a : ActiveEffect) : Option ActiveEffectSnapshot :=
  if serverNow < a.expiresAtServer then
    some ⟨a.sourceSeqNo, a.effect, a.expiresAtServer - serverNow, a.persistedDurationMs, a.expiresAtServer⟩
  else none

theorem getActiveEffects_shown (m : Machine) (q : String) (now : Time) :
    m.getActiveEffects q now = ((m.cards.activeEffects.get q).getD []).filterMap (shown now) := by
  unfold getActiveEffects
  induction (m.cards.activeEffects.get q).getD [] with
  | nil => rfl
  | cons a l ih =>
    rw [List.map_cons, List.filter_cons, ih, List.filterMap_cons]
    by_cases h : now < a.expiresAtServer
    · have hpos : 0 < a.expiresAtServer - now := by linarith
      simp [shown, h, max_eq_right hpos.le]
    · have hneg : a.expiresAtServer - now ≤ 0 := by linarith
      simp [shown, h, max_eq_left hneg]

/-- what a log entry shows of a player's own plays -/
def ownEffect (playerId : String) (serverNow : Time) (e : EventLogEntry) : Option ActiveEffectSnapshot :=
  (filedEffect playerId e).bind (shown serverNow)

theorem getActiveEffects_log {m : Machine} (h : TableInv m) (q : String) (now : Time) :
    m.getActiveEffects q now = m.eventLog.filterMap (ownEffect q now) := by
  rw [getActiveEffects_shown, activeEffects_log h, List.filterMap_filterMap]
  rfl

theorem ownEffect_some {q : String} {now : Time} {e : EventLogEntry} {s : ActiveEffectSnapshot}
    (h : ownEffect q now e = some s) : s.sourceSeqNo = e.seqNo ∧ ∃ r, e.event = .cardResolved r ∧
      r.resolution = .temporary ∧ s.remainingMs = r.expiresAtServer.getD 0 - now ∧
      s.persistedDurationMs = getDurationMs r.effect := by
  unfold ownEffect filedEffect at h
  cases hev : e.event with
  | cardResolved r =>
    simp only [hev] at h
    by_cases hr : r.resolution = .temporary ∧ r.playedByPlayerId = q
    · rw [if_pos hr, Option.bind_some, shown] at h
      split_ifs at h
      obtain rfl := Option.some.inj h
      exact ⟨rfl, r, rfl, hr.1, rfl, rfl⟩
    · rw [if_neg hr] at h
      cases h
  | _ =>
    rw [hev] at h
    cases h

/-- the sequence numbers of a log are increasing -/
theorem SeqInv.increasing {m : Machine} (h : SeqInv m) : (m.eventLog.map EventLogEntry.seqNo).Pairwise (· < ·) := by
  rw [h]
  exact List.pairwise_lt_range'

/-- **Order and bound hold of every reachable machine**, whoever was targeted. -/
theorem shown_ordered {m : Machine} (ht : TableInv m) (hs : SeqInv m) (q : String) (now : Time) :
    ((m.getActiveEffects q now).map ActiveEffectSnapshot.sourceSeqNo).Pairwise (· < ·) := by
  rw [getActiveEffects_log ht]
  refine hs.increasing.sublist ?_
  clear ht hs
  induction m.eventLog with
  | nil => exact List.Sublist.refl _
  | cons e log ih =>
    rw [List.filterMap_cons]
    cases he : ownEffect q now e with
    | none => exact ih.cons _
    | some s =>
      simp only [List.map_cons, (ownEffect_some he).1]
      exact ih.cons_cons _

theorem shown_bounded {m : Machine} (ht : TableInv m) (hs : SeqInv m) (hx : EachResolved Expires m.eventLog) (q : String)
    (now : Time) : ∀ s ∈ m.getActiveEffects q now, ∀ e ∈ m.eventLog, ∀ r, e.event = .cardResolved r →
      e.seqNo = s.sourceSeqNo → r.serverTimestamp ≤ now → s.remainingMs ≤ s.persistedDurationMs := by
  intro s hmem e he r hr hseq hnow
  rw [getActiveEffects_log ht, List.mem_filterMap] at hmem
  obtain ⟨e', he', hs'⟩ := hmem
  obtain ⟨hsrc, r', hr', htemp, hrem, hdur⟩ := ownEffect_some hs'
  have hnodup : (m.eventLog.map EventLogEntry.seqNo).Nodup := hs.increasing.imp fun hlt => Nat.ne_of_lt hlt
  have hsame : e = e' := List.inj_on_of_nodup_map hnodup he he' (hseq.trans hsrc)
  subst hsame
  obtain rfl := MatchEvent.cardResolved.inj (hr.symm.trans hr')
  rw [hrem, hdur, hx e he r hr htemp]
  simp only [Option.getD_some]
  linarith

/-! ## Exactly the own plays -/

/-- a temporary CARD_RESOLVED targets its caster alone -/
def SelfTarget (_ : EventLogEntry) (r : CardResolved) : Prop :=
  r.resolution = .temporary → ∀ q, q ∈ r.targetPlayerIds ↔ q = r.playedByPlayerId

theorem targeted_eq_own {log : List EventLogEntry} (hx : EachResolved Expires log) (h : EachResolved SelfTarget log)
    (q : String) (now : Time) : log.filterMap (targetedEffect q now) = log.filterMap (ownEffect q now) := by
  refine List.filterMap_congr fun e he => ?_
  unfold targetedEffect ownEffect filedEffect
  cases hev : e.event with
  | cardResolved r =>
    by_cases ht : r.resolution = .temporary
    · have hiff : q ∈ r.targetPlayerIds ↔ r.playedByPlayerId = q := (h e he r hev ht q).trans eq_comm
      simp only [hx e he r hev ht]
      by_cases hq : r.playedByPlayerId = q <;> simp [ht, hiff, hq, shown]
    · simp only [ht, false_and, if_false, Option.bind_none]
      cases r.expiresAtServer <;> rfl
  | _ => rfl

/-- a play on others shows: the effect is listed for its caster only -/
theorem self_of_follows {m : Machine} (ht : TableInv m) (hs : SeqInv m) (hx : EachResolved Expires m.eventLog)
    (h : ∀ q now, m.getActiveEffects q now = m.eventLog.filterMap (targetedEffect q now)) :
    EachResolved SelfTarget m.eventLog := by
  intro e he r hr htemp q
  have hnodup : (m.eventLog.map EventLogEntry.seqNo).Nodup := hs.increasing.imp fun hlt => Nat.ne_of_lt hlt
  -- one unit before its expiry the effect is still running
  let now := r.serverTimestamp + getDurationMs r.effect - 1
  have hexp := hx e he r hr htemp
  have hnow : now < r.serverTimestamp + getDurationMs r.effect := by simp [now]
  have hlists := h q now
  rw [getActiveEffects_log ht] at hlists
  constructor
  · intro hq
    have hshow : targetedEffect q now e = some ⟨e.seqNo, r.effect, r.serverTimestamp + getDurationMs r.effect - now,
        getDurationMs r.effect, r.serverTimestamp + getDurationMs r.effect⟩ := by
      simp [targetedEffect, hr, hexp, htemp, hq, hnow]
    have hmem := List.mem_filterMap.2 ⟨e, he, hshow⟩
    rw [← hlists, List.mem_filterMap] at hmem
    obtain ⟨e', he', hown⟩ := hmem
    have hsame : e = e' := List.inj_on_of_nodup_map hnodup he he' (ownEffect_some hown).1
    subst hsame
    by_contra hne
    simp [ownEffect, filedEffect, hr, Ne.symm hne] at hown
  · rintro rfl
    have hshow : ownEffect r.playedByPlayerId now e = some ⟨e.seqNo, r.effect,
        r.serverTimestamp + getDurationMs r.effect - now, getDurationMs r.effect,
        r.serverTimestamp + getDurationMs r.effect⟩ := by
      simp [ownEffect, filedEffect, hr, hexp, htemp, shown, hnow]
    have hmem := List.mem_filterMap.2 ⟨e, he, hshow⟩
    rw [hlists, List.mem_filterMap] at hmem
    obtain ⟨e', he', htarget⟩ := hmem
    unfold targetedEffect at htarget
    cases hev : e'.event with
    | cardResolved r' =>
      simp only [hev] at htarget
      cases hexp' : r'.expiresAtServer with
      | none =>
        rw [hexp'] at htarget
        cases htarget
      | some t =>
        simp only [hexp'] at htarget
        split_ifs at htarget with hc
        have hseq := congrArg ActiveEffectSnapshot.sourceSeqNo (Option.some.inj htarget)
        have hsame : e' = e := List.inj_on_of_nodup_map hnodup he' he hseq
        subst hsame
        obtain rfl := MatchEvent.cardResolved.inj (hev.symm.trans hr)
        exact hc.2.1
    | _ =>
      rw [hev] at htarget
      cases htarget

theorem step_self (J : StringOps) (m : Machine) (a : Action) :
    EachResolved SelfTarget (m.act J a).eventLog ↔ EachResolved SelfTarget m.eventLog ∧ SelfPlay m a := by
  cases a with
  | failover =>
    simp only [act, failover_eventLog, SelfPlay, and_true]
  | call o =>
    by_cases ho : ∀ p now, o ≠ .playCard p now
    · obtain ⟨es, hl, hes⟩ := change_unresolved (step_change J m o) ho
      have hself : SelfPlay m (.call o) := by
        cases o with
        | playCard p now => exact absurd rfl (ho p now)
        | _ => trivial
      simp only [act, hl, eachResolved_append, hself, and_true, and_iff_left_iff_imp]
      exact fun _ => eachResolved_other hes
    · simp only [ne_eq, not_forall, not_not] at ho
      obtain ⟨p, now, rfl⟩ := ho
      by_cases hacc : m.AcceptsPlay
      · obtain ⟨round, hr, hplay⟩ := playCard_accepted J p now hacc
        simp only [act, hplay, play_eventLog, eachResolved_append, eachResolved_play, SelfPlay, hacc, forall_const]
        by_cases htemp : isTemporaryEffectKind p.resolvedEffect = true <;>
          simp [SelfTarget, resolvedPayload, htemp]
      · simp [act, playCard_refused J p now hacc, SelfPlay, hacc]

/-- **Active effects follow the targets exactly as long as temporary cards are played on their own caster alone.** -/
theorem effects_follow_targets_iff (J : StringOps) (matchId roomId : String) (players : List PlayerInfo)
    (acts : List Action) :
    (∀ playerId serverNow, FollowsTargets (reach J matchId roomId players acts) playerId serverNow) ↔
      Along (act J) SelfPlay (Machine.create matchId roomId players) acts := by
  obtain ⟨hs, ht, -⟩ := reach_logInv J matchId roomId players acts
  have hx := reach_expires J matchId roomId players acts
  have hlog : EachResolved SelfTarget (reach J matchId roomId players acts).eventLog ↔
      Along (act J) SelfPlay (Machine.create matchId roomId players) acts := by
    have hstart : EachResolved SelfTarget (Machine.create matchId roomId players).eventLog := by
      simp [EachResolved, create]
    rw [reach, run_iff (act J) SelfPlay (fun m => EachResolved SelfTarget m.eventLog) (step_self J)]
    exact and_iff_right hstart
  rw [← hlog]
  constructor
  · exact fun h => self_of_follows ht hs hx fun q now => (h q now).exact
  · exact fun h q now => ⟨by rw [getActiveEffects_log ht, targeted_eq_own hx h], shown_ordered ht hs q now,
      shown_bounded ht hs hx q now⟩

/-- alice locks the options of bob for two seconds; the lock is listed for alice and not for bob, on the live machine
and after a failover -/
theorem lock_listed_for_caster :
    let play : PlayInput := ⟨"alice", .cb4, 5, .optionLock 2000, ["bob"], 1000, none, none⟩
    let acts : List Action := [.call (.transition .countdown fun _ => 0), .call (.transition .roundActive fun _ => 0),
      .call (.startRound ⟨"q1", "2 + 2?", ["3", "4", "5", "6"], "4", none⟩ none fun _ => 0),
      .call (.playCard play fun _ => 1000)]
    let m := reach StringOps.ascii "m1" "r1" [freshPlayer "alice", freshPlayer "bob"] acts
    let lock : ActiveEffectSnapshot := ⟨4, .optionLock 2000, 1500, 2000, 3000⟩
    m.getActiveEffects "alice" 1500 = [lock] ∧ (m.failover StringOps.ascii).getActiveEffects "alice" 1500 = [lock] ∧
      m.getActiveEffects "bob" 1500 = [] ∧ (m.failover StringOps.ascii).getActiveEffects "bob" 1500 = [] ∧
      ¬FollowsTargets m "bob" 1500 ∧ ¬FollowsTargets m "alice" 1500 := by
  intro play acts m lock
  have halice : m.getActiveEffects "alice" 1500 = [lock] := by decide +kernel
  have hbob : m.getActiveEffects "bob" 1500 = [] := by decide +kernel
  refine ⟨halice, by decide +kernel, hbob, by decide +kernel, fun h => ?_, fun h => ?_⟩
  · have hlog : m.eventLog.filterMap (targetedEffect "bob" 1500) = [lock] := by decide +kernel
    have := h.exact
    rw [hbob, hlog] at this
    cases this
  · have hlog : m.eventLog.filterMap (targetedEffect "alice" 1500) = [] := by decide +kernel
    have := h.exact
    rw [halice, hlog] at this
    cases this

end Machine

end Arena.GameCore
