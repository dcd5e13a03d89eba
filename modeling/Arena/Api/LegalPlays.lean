/-
Legal card plays over whole matches.

A CARD_RESOLVED is legal when its offer was made to the player and contains the card, the card was picked after the
player's latest offer and not resolved before, and its targets are match players who are not eliminated; a log is legal
when every CARD_RESOLVED is, and no round has more AOE resolutions than the cap.

- `legal_play_iff`: one play keeps a log legal exactly when it passes the checks `PlayChecks` on the machine;
- `ValidPlay.checks`: a card command has made them all;
- `plays_legal_iff`: a run is legal at every step exactly when every bot play still passes them as its timer fires;
- `eliminated_bot_plays`: a bot's timer fires in the next round, when the bot is out.
-/
import Arena.GameCore.CardTable
import Arena.GameCore.Eliminated
import Arena.Api.Placements
import Arena.Api.OwnerPath

namespace Arena.Api

open Arena.Lib Arena.Shared Arena.GameCore Arena.GameCore.Machine

/-! ## Statement -/

/-- the players named by the ROUND_EVALUATED events of a log -/
def eliminatedIn (log : List EventLogEntry) : List String := (eliminations log).map Prod.fst

/-- a CARD_RESOLVED that may follow `pre` -/
structure LegalResolved (roster : List String) (pre : List EventLogEntry) (r : CardResolved) : Prop where
  offered : ∃ e ∈ pre, e.seqNo = r.offerSeqNo ∧
    ∃ n ids seed, e.event = .cardOffer n r.playedByPlayerId ids seed ∧ r.cardId ∈ ids
  picked : PickedSince r.playedByPlayerId r.cardId pre
  fresh : ∀ e ∈ pre, e.event.resolves r.playedByPlayerId r.cardId = false
  targets : ∀ t ∈ r.targetPlayerIds, t ∈ roster ∧ t ∉ eliminatedIn pre

structure LegalLog (roster : List String) (log : List EventLogEntry) : Prop where
  plays : ∀ pre e post, log = pre ++ e :: post → ∀ r, e.event = .cardResolved r → LegalResolved roster pre r
  budget : ∀ n, aoeCount log n ≤ aoeCapPerRound

/-- a bot play that reaches `playCard` still has its offer, its pick and its bot: the card is among the picked cards of
the bot and not among the played ones, the offer is in the log, and a bot that plays on itself is not eliminated -/
def BotInTime (s : Owner) : Owner.OwnerOp → Prop
  | .botPlay i rnd now => ∀ play input, s.plays[i]? = some play →
    botPlayInput s.machine play rnd (now 0) = some input → s.machine.AcceptsPlay →
      (∃ ids, getCardOfferForPlayer s.machine play.botId play.offerSeqNo = some ids ∧ play.cardId ∈ ids) ∧
        (getPickedCards s.machine play.botId).has play.cardId = true ∧
        (s.machine.getPlayedCards play.botId).has play.cardId = false ∧
        (isAttackCard play.cardId = false → play.botId ∉ s.machine.state.eliminatedPlayerIds)
  | _ => True

/-! ## Logs -/

theorem legalLog_concat (roster : List String) (log : List EventLogEntry) (e : EventLogEntry) :
    LegalLog roster (log ++ [e]) ↔ LegalLog roster log ∧
      (∀ r, e.event = .cardResolved r → LegalResolved roster log r) ∧
        ∀ n, aoeCount (log ++ [e]) n ≤ aoeCapPerRound := by
  constructor
  · intro h
    refine ⟨⟨fun pre x post hl => ?_, fun n => ?_⟩, h.plays log e [] rfl, h.budget⟩
    · exact h.plays pre x (post ++ [e]) (by rw [hl, List.append_assoc, List.cons_append])
    · refine le_trans ?_ (h.budget n)
      rw [aoeCount, aoeCount, List.countP_append]
      omega
  · rintro ⟨hlog, he, hbudget⟩
    refine ⟨fun pre x post hl r hr => ?_, hbudget⟩
    rcases List.eq_nil_or_concat post with rfl | ⟨post', y, rfl⟩
    · obtain ⟨rfl, hx⟩ := List.append_inj' hl rfl
      obtain rfl := (List.cons.inj hx).1
      exact he r hr
    · rw [List.concat_eq_append, ← List.cons_append, ← List.append_assoc] at hl
      exact hlog.plays pre x post' (List.append_inj' hl rfl).1 r hr

/-- entries without a CARD_RESOLVED leave a log as legal as it was -/
theorem legalLog_append (roster : List String) (log es : List EventLogEntry)
    (hes : ∀ e ∈ es, ∀ r, e.event ≠ .cardResolved r) : LegalLog roster (log ++ es) ↔ LegalLog roster log := by
  induction es using List.reverseRecOn with
  | nil => simp
  | append_singleton es e ih =>
    have hlast := hes e (by simp)
    have hno : ∀ n, e.event.isAoe n = false := by
      intro n
      unfold MatchEvent.isAoe
      split
      · rename_i r hr
        exact absurd hr (hlast r)
      · rfl
    rw [← List.append_assoc, legalLog_concat, ← ih fun x hx => hes x (List.mem_append_left _ hx)]
    refine and_iff_left_of_imp fun h => ⟨fun r hr => absurd hr (hlast r), fun n => ?_⟩
    rw [aoeCount, List.countP_append, List.countP_singleton, hno n]
    exact h.budget n

theorem legalLog_nil (roster : List String) : LegalLog roster [] :=
  ⟨fun pre e post hl => absurd hl (by simp), fun n => Nat.zero_le _⟩

/-! ## What holds of every machine of a run -/

structure OwnerFacts (roster : List String) (m : Machine) : Prop where
  log : LogInv m
  sizes : OfferSizes m.eventLog
  wire : WireInv m
  eliminations : EliminationsInv m
  out : OutInv m
  keys : m.state.players.keys = roster

theorem ownerFacts_create (matchId roomId : String) (players : List PlayerInfo)
    (hd : (players.map PlayerInfo.id).Nodup) :
    OwnerFacts (players.map PlayerInfo.id) (Machine.create matchId roomId players) where
  log := logInv_create matchId roomId players
  sizes := by simp [OfferSizes, Machine.create]
  wire := wireInv_create matchId roomId players hd
  eliminations := eliminationsInv_create matchId roomId players
  out := outInv_create matchId roomId players hd
  keys := create_keys matchId roomId players hd

theorem act_ownerFacts (J : StringOps) (roster : List String) (m : Machine) (a : Action) (h : OwnerFacts roster m) :
    OwnerFacts roster (m.act J a) where
  log := act_logInv J m a h.log
  sizes := act_offerSizes J m a h.sizes
  wire := act_wireInv J m a h.wire
  eliminations := act_eliminationsInv J m a h.wire h.eliminations
  out := act_outInv J m a h.wire h.out
  keys := by
    cases a with
    | call o => exact (change_keys (step_change J m o)).trans h.keys
    | failover =>
      rcases failover_cases J m h.wire with hf | hf <;> simp only [act, hf]
      · exact h.keys
      · exact h.keys

/-! ## One play -/

variable {J : StringOps} {roster : List String} {m : Machine}

/-- the cards of an entry that is this offer to this player -/
def offerAt (playerId : String) (offerSeqNo : ℕ) (e : EventLogEntry) : Option (List CardId) :=
  match e.event with
  | .cardOffer _ p ids _ => if e.seqNo = offerSeqNo ∧ p = playerId then some ids else none
  | _ => none

theorem offerAt_eq_some {playerId : String} {offerSeqNo : ℕ} {e : EventLogEntry} {ids : List CardId} :
    offerAt playerId offerSeqNo e = some ids ↔
      e.seqNo = offerSeqNo ∧ ∃ n seed, e.event = .cardOffer n playerId ids seed := by
  unfold offerAt
  split
  · rename_i q ids' seed hev
    rw [hev]
    by_cases hq : e.seqNo = offerSeqNo ∧ q = playerId
    · obtain ⟨hseq, rfl⟩ := hq
      simp [hseq]
    · simp only [hq, if_false, MatchEvent.cardOffer.injEq, false_iff, not_and, not_exists, reduceCtorEq]
      exact fun hseq _ _ _ hqp => absurd ⟨hseq, hqp⟩ hq
  · rename_i hno
    simp only [false_iff, not_and, not_exists, reduceCtorEq]
    exact fun _ n seed hev => hno n playerId ids seed hev

theorem getCardOfferForPlayer_log (hs : SeqInv m) (hsizes : OfferSizes m.eventLog) (p : String) (seq : ℕ) (c : CardId) :
    (∃ ids, getCardOfferForPlayer m p seq = some ids ∧ c ∈ ids) ↔
      ∃ e ∈ m.eventLog, e.seqNo = seq ∧ ∃ n ids seed, e.event = .cardOffer n p ids seed ∧ c ∈ ids := by
  have hlook : getCardOfferForPlayer m p seq =
      (m.eventLog.findSome? (offerAt p seq)).filter fun ids => ids.length = 3 := rfl
  rw [hlook]
  constructor
  · rintro ⟨ids, hfound, hc⟩
    rw [Option.filter_eq_some_iff] at hfound
    obtain ⟨e, he, hids⟩ := List.exists_of_findSome?_eq_some hfound.1
    obtain ⟨hseq, n, seed, hev⟩ := offerAt_eq_some.1 hids
    exact ⟨e, he, hseq, n, ids, seed, hev, hc⟩
  · rintro ⟨e, he, hseq, n, ids, seed, hev, hc⟩
    have hhit := offerAt_eq_some.2 ⟨hseq, n, seed, hev⟩
    cases hfound : m.eventLog.findSome? (offerAt p seq) with
    | none =>
      have hnone := List.findSome?_eq_none_iff.1 hfound e he
      rw [hhit] at hnone
      cases hnone
    | some ids' =>
      -- sequence numbers name entries
      obtain ⟨e', he', hids'⟩ := List.exists_of_findSome?_eq_some hfound
      obtain ⟨hseq', n', seed', hev'⟩ := offerAt_eq_some.1 hids'
      have hnodup : (m.eventLog.map EventLogEntry.seqNo).Nodup := by
        rw [hs]
        exact List.nodup_range'
      obtain rfl : e = e' := List.inj_on_of_nodup_map hnodup he he' (hseq.trans hseq'.symm)
      obtain ⟨-, -, rfl, -⟩ := MatchEvent.cardOffer.inj (hev.symm.trans hev')
      refine ⟨ids, ?_, hc⟩
      rw [Option.filter_eq_some_iff]
      exact ⟨rfl, by simpa using hsizes e he n p ids seed hev⟩

/-- the checks that keep a log legal -/
structure PlayChecks (roster : List String) (m : Machine) (p : PlayInput) : Prop where
  offered : ∃ ids, getCardOfferForPlayer m p.playedByPlayerId p.offerSeqNo = some ids ∧ p.cardId ∈ ids
  picked : (getPickedCards m p.playedByPlayerId).has p.cardId = true
  unplayed : (m.getPlayedCards p.playedByPlayerId).has p.cardId = false
  targets : ∀ t ∈ p.targetPlayerIds, t ∈ roster ∧ t ∉ m.state.eliminatedPlayerIds
  budget : 1 < p.targetPlayerIds.length → ∀ r, m.currentRound = some r →
    m.getAoeCountForRound r.roundNo < aoeCapPerRound

theorem legalResolved_iff (hf : OwnerFacts roster m) (round : Round) (p : PlayInput) :
    LegalResolved roster m.eventLog (m.resolvedPayload round p) ↔
      (∃ ids, getCardOfferForPlayer m p.playedByPlayerId p.offerSeqNo = some ids ∧ p.cardId ∈ ids) ∧
        (getPickedCards m p.playedByPlayerId).has p.cardId = true ∧
        (m.getPlayedCards p.playedByPlayerId).has p.cardId = false ∧
        ∀ t ∈ p.targetPlayerIds, t ∈ roster ∧ t ∉ m.state.eliminatedPlayerIds := by
  have hids : eliminatedIn m.eventLog = m.state.eliminatedPlayerIds := hf.eliminations.ids
  constructor
  · intro h
    refine ⟨(getCardOfferForPlayer_log hf.log.seq hf.sizes _ _ _).2 h.offered, ?_, ?_, ?_⟩
    · exact (picked_log hf.log.table hf.sizes _ _ h.fresh).2 h.picked
    · exact (unplayed_log hf.log.table _ _).2 h.fresh
    · rw [← hids]
      exact h.targets
  · intro ⟨hoff, hpick, hnew, htargets⟩
    have hfresh := (unplayed_log hf.log.table _ _).1 hnew
    refine ⟨(getCardOfferForPlayer_log hf.log.seq hf.sizes _ _ _).1 hoff, ?_, hfresh, ?_⟩
    · exact (picked_log hf.log.table hf.sizes _ _ hfresh).1 hpick
    · rw [hids]
      exact htargets

/-- what one resolution does to the AOE counts -/
theorem aoeCount_resolved (log : List EventLogEntry) (r : CardResolved) (t : Time) (seq : ℕ)
    (hlog : ∀ n, aoeCount log n ≤ aoeCapPerRound) :
    (∀ n, aoeCount (log ++ [⟨.cardResolved r, t, seq⟩]) n ≤ aoeCapPerRound) ↔
      (1 < r.targetPlayerIds.length → aoeCount log r.roundNo < aoeCapPerRound) := by
  have hone : ∀ n, aoeCount (log ++ [⟨.cardResolved r, t, seq⟩]) n =
      aoeCount log n + if r.roundNo = n ∧ 1 < r.targetPlayerIds.length then 1 else 0 := by
    intro n
    rw [aoeCount, List.countP_append, List.countP_singleton, ← aoeCount]
    simp [MatchEvent.isAoe]
  constructor
  · intro h hmany
    have hn := h r.roundNo
    rw [hone, if_pos ⟨rfl, hmany⟩] at hn
    omega
  · intro h n
    rw [hone]
    split_ifs with hn
    · obtain ⟨rfl, hmany⟩ := hn
      exact h hmany
    · exact hlog n

/-- **A play keeps a log legal exactly when it passes the checks.** -/
theorem legal_play_iff (hf : OwnerFacts roster m) (hl : LegalLog roster m.eventLog) (p : PlayInput) (now : Clock)
    (hacc : m.AcceptsPlay) :
    LegalLog roster (m.step J (.playCard p now)).eventLog ↔ PlayChecks roster m p := by
  obtain ⟨round, hr, hplay⟩ := playCard_accepted J p now hacc
  have hsplit : m.playEntries round p now =
      [⟨.cardResolved (m.resolvedPayload round p), now 0, m.eventSeqCounter + 1⟩] ++
        (m.playEntries round p now).tail := rfl
  have htail : ∀ e ∈ (m.playEntries round p now).tail, ∀ r, e.event ≠ .cardResolved r := by
    intro e he r hev
    have hno := playEntries_tail m round p now e he
    rw [hev] at hno
    cases hno
  rw [hplay, play_eventLog, hsplit, ← List.append_assoc, legalLog_append roster _ _ htail, legalLog_concat,
    aoeCount_resolved _ _ _ _ hl.budget]
  simp only [MatchEvent.cardResolved.injEq, forall_eq', legalResolved_iff hf]
  have hcount : aoeCount m.eventLog round.roundNo = m.getAoeCountForRound round.roundNo :=
    (aoe_log hf.log.table round.roundNo).symm
  constructor
  · rintro ⟨_, ⟨hoff, hpick, hnew, htargets⟩, hbudget⟩
    refine ⟨hoff, hpick, hnew, htargets, fun hmany r hr' => ?_⟩
    obtain rfl := Option.some.inj (hr.symm.trans hr')
    rw [← hcount]
    exact hbudget hmany
  · intro h
    refine ⟨hl, ⟨h.offered, h.picked, h.unplayed, h.targets⟩, fun hmany => ?_⟩
    have := h.budget hmany round hr
    rw [← hcount] at this
    exact this

/-- a refused play changes nothing -/
theorem legal_play_refused (hl : LegalLog roster m.eventLog) (p : PlayInput) (now : Clock) (hacc : ¬m.AcceptsPlay) :
    LegalLog roster (m.step J (.playCard p now)).eventLog := by
  rw [playCard_refused J p now hacc]
  exact hl

/-- **A card command passes the checks.** -/
theorem ValidPlay.checks {p : PlayInput} (hf : OwnerFacts roster m) (h : ValidPlay m p) : PlayChecks roster m p where
  offered := h.offered
  picked := h.picked
  unplayed := h.unplayed
  budget := h.budget
  targets := fun t ht => by
    have helig := h.targets t ht
    unfold isEligible at helig
    cases hi : m.state.players.get t with
    | none =>
      rw [hi] at helig
      cases helig
    | some i =>
      rw [hi, Option.any_some, decide_eq_true_eq] at helig
      refine ⟨?_, fun hout => ?_⟩
      · rw [← hf.keys]
        exact (JsMap.mem_keys _ _).2 ⟨i, hi⟩
      · rcases hf.out.out t hout i hi with hgone | hgone
        · exact helig.1 hgone
        · exact helig.2.1 hgone

/-! ## Bot plays -/

theorem botPlayInput_some {play : BotPlay} {rnd : Random} {t : Time} {p : PlayInput}
    (h : botPlayInput m play rnd t = some p) : p.playedByPlayerId = play.botId ∧ p.cardId = play.cardId ∧
      p.offerSeqNo = play.offerSeqNo ∧ ∃ target, botTarget m play rnd = some target ∧ p.targetPlayerIds = [target] := by
  unfold botPlayInput at h
  cases hr : m.currentRound with
  | none =>
    rw [hr] at h
    cases h
  | some round =>
    simp only [hr] at h
    split_ifs at h
    cases ht : botTarget m play rnd with
    | none =>
      rw [ht] at h
      cases h
    | some target =>
      simp only [ht] at h
      split at h
      · cases h
      · obtain rfl := Option.some.inj h
        exact ⟨rfl, rfl, rfl, target, rfl, rfl⟩

/-- for a bot the target of an attack is always legal, and the AOE budget is never touched -/
theorem bot_checks_iff (hf : OwnerFacts roster m) {play : BotPlay} (hbot : play.botId ∈ roster) {rnd : Random} {t : Time}
    {p : PlayInput} (h : botPlayInput m play rnd t = some p) : PlayChecks roster m p ↔
      (∃ ids, getCardOfferForPlayer m play.botId play.offerSeqNo = some ids ∧ play.cardId ∈ ids) ∧
        (getPickedCards m play.botId).has play.cardId = true ∧ (m.getPlayedCards play.botId).has play.cardId = false ∧
        (isAttackCard play.cardId = false → play.botId ∉ m.state.eliminatedPlayerIds) := by
  obtain ⟨hby, hcard, hseq, target, htarget, htargets⟩ := botPlayInput_some h
  constructor
  · intro hc
    refine ⟨?_, ?_, ?_, fun hdefence => ?_⟩
    · rw [← hby, ← hcard, ← hseq]
      exact hc.offered
    · rw [← hby, ← hcard]
      exact hc.picked
    · rw [← hby, ← hcard]
      exact hc.unplayed
    · rw [botTarget, hdefence, if_neg Bool.false_ne_true] at htarget
      obtain rfl := Option.some.inj htarget
      exact (hc.targets play.botId (by rw [htargets]; exact List.mem_singleton_self _)).2
  · intro ⟨hoff, hpick, hnew, hself⟩
    refine ⟨?_, ?_, ?_, ?_, fun hmany => ?_⟩
    · rw [hby, hcard, hseq]
      exact hoff
    · rw [hby, hcard]
      exact hpick
    · rw [hby, hcard]
      exact hnew
    · intro t ht
      rw [htargets, List.mem_singleton] at ht
      subst ht
      unfold botTarget at htarget
      split_ifs at htarget with hattack
      · have hsurvives := (List.mem_filter.1 (Random.mem_of_choose htarget)).1
        exact ⟨hf.keys ▸ hf.out.known t hsurvives, hf.out.surviving t hsurvives⟩
      · obtain rfl := Option.some.inj htarget
        exact ⟨hbot, hself (by simpa using hattack)⟩
    · rw [htargets] at hmany
      exact absurd hmany (by simp)

/-! ## Runs -/

/-- the players a task has read off a machine -/
def RoundTask.players : RoundTask → List String
  | .offering _ _ ids => ids
  | .scheduling _ ids _ => ids
  | _ => []

structure LegalRun (roster : List String) (s : Owner) : Prop where
  facts : s.Every (OwnerFacts roster)
  legal : s.Every fun m => LegalLog roster m.eventLog
  tasks : ∀ t ∈ s.tasks, ∀ id ∈ t.players, id ∈ roster
  plays : ∀ b ∈ s.plays, b.botId ∈ roster

theorem step_facts (J : StringOps) {s : Owner} (o : Owner.OwnerOp) (h : s.Every (OwnerFacts roster)) :
    (s.step J o).Every (OwnerFacts roster) :=
  Owner.step_every (fun m o _ _ hm => act_ownerFacts J roster m (.call o) hm)
    (fun m hm => act_ownerFacts J roster m .failover hm) s o
    (fun p t _ hm => act_ownerFacts J roster s.machine (.call (.playCard p t)) hm)
    (fun _ botIds rnd now _ n ids _ _ => Owner.makeOffers_keeps J
      (fun m o _ hm => act_ownerFacts J roster m (.call o) hm) s.machine ids n botIds rnd now) h

theorem call_legalLog (J : StringOps) {m : Machine} {o : Op} (ho : ∀ p t, o ≠ .playCard p t)
    (h : LegalLog roster m.eventLog) : LegalLog roster (m.step J o).eventLog := by
  obtain ⟨es, hl, hes⟩ := change_unresolved (step_change J m o) ho
  rw [hl]
  exact (legalLog_append roster _ _ hes).2 h

theorem step_legal (J : StringOps) {s : Owner} (o : Owner.OwnerOp) (ho : BotInTime s o) (h : LegalRun roster s) :
    (s.step J o).Every fun m => LegalLog roster m.eventLog := by
  refine Owner.step_every (I := fun m => LegalLog roster m.eventLog) (fun m o ho _ hm => call_legalLog J ho hm) ?_ s o
    ?_ (fun _ botIds rnd now _ n ids _ _ => Owner.makeOffers_keeps (I := fun m => LegalLog roster m.eventLog) J
      (fun m o ho hm => call_legalLog J ho hm) s.machine ids n botIds rnd now) h.legal
  · intro m hm
    rw [failover_eventLog]
    exact hm
  · intro p t hown hm
    by_cases hacc : s.machine.AcceptsPlay
    · refine (legal_play_iff h.facts.1 hm p t hacc).2 ?_
      cases hown with
      | command env now p hv => exact hv.checks h.facts.1
      | bot i rnd now play p hp hi =>
        exact (bot_checks_iff h.facts.1 (h.plays play (List.mem_of_getElem? hp)) hi).2 (ho play p hp hi hacc)
    · exact legal_play_refused hm p t hacc

/-- tasks and bot plays name match players -/
theorem step_named (J : StringOps) {s : Owner} (o : Owner.OwnerOp) (h : LegalRun roster s) :
    (∀ t ∈ (s.step J o).tasks, ∀ id ∈ t.players, id ∈ roster) ∧ ∀ b ∈ (s.step J o).plays, b.botId ∈ roster := by
  have hsurvivors : ∀ id ∈ s.machine.state.survivingPlayerIds, id ∈ roster := by
    intro id hid
    rw [← h.facts.1.keys]
    exact h.facts.1.out.known id hid
  refine Owner.step_tasks J s o ?_ h.tasks h.plays
  exact
    { starting := fun _ _ hid => absurd hid List.not_mem_nil
      started := fun _ _ _ hid => absurd hid List.not_mem_nil
      offering := fun _ _ _ => hsurvivors
      persisting := fun _ _ _ hid => absurd hid List.not_mem_nil
      scheduling := fun _ _ => hsurvivors
      plays := fun _ _ _ hids botId hbot _ _ _ => hids botId hbot }

theorem step_legalRun (J : StringOps) {s : Owner} (o : Owner.OwnerOp) (ho : BotInTime s o) (h : LegalRun roster s) :
    LegalRun roster (s.step J o) :=
  ⟨step_facts J o h.facts, step_legal J o ho h, (step_named J o h).1, (step_named J o h).2⟩

/-- a step from a legal run stays legal exactly when a bot play in it is in time -/
theorem step_legal_iff (J : StringOps) {s : Owner} (o : Owner.OwnerOp) (h : LegalRun roster s) :
    LegalLog roster (s.step J o).machine.eventLog ↔ BotInTime s o := by
  refine ⟨fun hlegal => ?_, fun ho => (step_legal J o ho h).1⟩
  cases o with
  | botPlay i rnd now =>
    intro play p hp hi hacc
    simp only [Owner.step, Owner.botPlay, hp, hi] at hlegal
    exact (bot_checks_iff h.facts.1 (h.plays play (List.mem_of_getElem? hp)) hi).1
      ((legal_play_iff (J := J) h.facts.1 h.legal.1 p (laterClock now) hacc).1 hlegal)
  | _ => trivial

/-- **Card plays are legal at every step of a match exactly when its bots play in time.** -/
theorem plays_legal_iff (J : StringOps) (matchId roomId : String) (players : List PlayerInfo)
    (hd : (players.map PlayerInfo.id).Nodup) (ops : List Owner.OwnerOp) :
    Along (Owner.step J) (fun s o => LegalLog (players.map PlayerInfo.id) (s.step J o).machine.eventLog)
        (Owner.init (Machine.create matchId roomId players)) ops ↔
      Along (Owner.step J) BotInTime (Owner.init (Machine.create matchId roomId players)) ops := by
  refine along_congr (Owner.step J) (fun _ _ => True) _ BotInTime (LegalRun (players.map PlayerInfo.id))
    (fun s o _ ho h => step_legalRun J o ho h) (fun s o _ h => step_legal_iff J o h) _ ops (along_true _ _ _) ?_
  refine ⟨⟨ownerFacts_create matchId roomId players hd, by simp [Owner.init]⟩, ⟨legalLog_nil _, by simp [Owner.init]⟩,
    by simp [Owner.init], by simp [Owner.init]⟩

/-- bob is offered cards, and nobody plays -/
theorem plays_legal_iff_start :
    Along (Owner.step StringOps.ascii)
      (fun s o => LegalLog ["alice", "bob"] (s.step StringOps.ascii o).machine.eventLog)
      (Owner.init (Machine.create "m1" "r1" [freshPlayer "alice", freshPlayer "bob"]))
      (Owner.starts 0 ++ [.save, .restore 0]) :=
  (plays_legal_iff StringOps.ascii "m1" "r1" [freshPlayer "alice", freshPlayer "bob"] (by decide) _).2
    ⟨trivial, trivial, trivial, trivial, trivial, trivial⟩

/-- the play a log ends with -/
def lastPlay (log : List EventLogEntry) : Option CardResolved :=
  match log.getLast? with
  | some ⟨.cardResolved r, _, _⟩ => some r
  | _ => none

theorem lastPlay_some {log : List EventLogEntry} {r : CardResolved} (h : lastPlay log = some r) :
    ∃ e, log = log.dropLast ++ [e] ∧ e.event = .cardResolved r := by
  unfold lastPlay at h
  split at h
  · rename_i r' t n hlast
    obtain rfl := Option.some.inj h
    obtain ⟨pre, rfl⟩ := List.getLast?_eq_some_iff.1 hlast
    exact ⟨⟨.cardResolved r', t, n⟩, by simp, rfl⟩
  · cases h

/-- a log is not legal when its last play hits a player who was eliminated before -/
theorem not_legal_of_eliminated {roster : List String} {log : List EventLogEntry} {targets : List String} {t : String}
    (hlast : (lastPlay log).map CardResolved.targetPlayerIds = some targets) (ht : t ∈ targets)
    (hout : t ∈ eliminatedIn log.dropLast) : ¬LegalLog roster log := by
  intro h
  obtain ⟨r, hr, rfl⟩ := Option.map_eq_some_iff.1 hlast
  obtain ⟨e, hlog, he⟩ := lastPlay_some hr
  exact ((h.plays _ e [] hlog r he).targets t ht).2 hout

/-- alice, bob and the bot robo survive four rounds; in the fifth robo is offered cards and its play is armed -/
def offeredRobo : List Owner.OwnerOp :=
  .call (.transition .countdown (Owner.clockAt 0)) :: Owner.survives ["alice", "bob", "robo"] 4 0 ++ Owner.starts 80000 ++
    [.milestone 0 (Owner.clockAt 80000), .offers 0 ["robo"] (fun _ => Owner.firstOne) fun _ => Owner.clockAt 80000,
      .offersStored 0, .scheduleBots 0 ["robo"] fun _ => Owner.firstOne]

/-- robo is eliminated in the fifth round; its timer is held up until the sixth, where it plays TN-3 on itself -/
theorem eliminated_bot_plays :
    let players := [freshPlayer "alice", freshPlayer "bob", freshPlayer "robo"]
    let ops := offeredRobo ++ Owner.ends ["alice", "bob"] 80000 ++ Owner.starts 100000
    let s := run (Owner.step StringOps.ascii) (Owner.init (Machine.create "m1" "r1" players)) ops
    let late : Owner.OwnerOp := .botPlay 0 Owner.firstOne (Owner.clockAt 100500)
    (lastPlay (s.step StringOps.ascii late).machine.eventLog).map
        (fun r => (r.playedByPlayerId, r.cardId, r.roundNo, r.targetPlayerIds)) = some ("robo", .tn3, 6, ["robo"]) ∧
      "robo" ∈ eliminatedIn s.machine.eventLog ∧
      ¬Along (Owner.step StringOps.ascii)
        (fun s o => LegalLog (players.map PlayerInfo.id) (s.step StringOps.ascii o).machine.eventLog)
        (Owner.init (Machine.create "m1" "r1" players)) (ops ++ [late]) := by
  intro players ops s late
  have hrun : (lastPlay (s.step StringOps.ascii late).machine.eventLog).map
      (fun r => (r.playedByPlayerId, r.cardId, r.roundNo, r.targetPlayerIds)) = some ("robo", .tn3, 6, ["robo"]) ∧
      "robo" ∈ eliminatedIn s.machine.eventLog ∧
      (lastPlay (s.step StringOps.ascii late).machine.eventLog).map CardResolved.targetPlayerIds = some ["robo"] ∧
      "robo" ∈ eliminatedIn (s.step StringOps.ascii late).machine.eventLog.dropLast := by decide +kernel
  obtain ⟨hplay, hout, htargets, hbefore⟩ := hrun
  refine ⟨hplay, hout, fun h => ?_⟩
  have hlast := ((along_append _ _ _ _ _).1 h).2
  have hs : run (Owner.step StringOps.ascii) (Owner.init (Machine.create "m1" "r1" players)) ops = s := rfl
  rw [hs] at hlast
  clear_value s
  exact not_legal_of_eliminated htargets List.mem_cons_self hbefore hlast.1

end Arena.Api
