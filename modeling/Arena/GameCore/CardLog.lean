/-
The card events of the log.

Four calls log a card event and write the card mirrors: the class assignment, an offer, a pick and a play. Every other
call leaves the card events and the mirrors alone, the second chances apart.

- `change_noCards`: the calls that log no card event;
- `play_cards`: what a play writes;
- `failover_built`: a failover keeps the log, and rebuilds counter and mirrors from it or changes nothing;
- `reach_logInv`: in every reachable machine sequence numbers are positions, the mirrors are the replay of the log (the
  second chances apart), and a CARD_RESOLVED names its own sequence number.
-/
import Arena.GameCore.Failover

namespace Arena.GameCore

open Arena.Lib Arena.Shared

/-- the events the hands, picks, plays and effects are rebuilt from -/
def MatchEvent.isCardEvent : MatchEvent → Bool
  | .classAssigned .. => true
  | .cardOffer .. => true
  | .cardPicked .. => true
  | .cardResolved .. => true
  | _ => false

/-- the calls that log one -/
def Op.isCardCall : Op → Bool
  | .classAssignment .. => true
  | .pickOffer .. => true
  | .pickCard .. => true
  | .playCard .. => true
  | _ => false

/-- the mirrors without the second chances -/
def CardMirrors.table (c : CardMirrors) : CardMirrors := { c with secondChancePlayers := JsSet.empty }

theorem CardMirrors.table_eq_iff {c c' : CardMirrors} : c.table = c'.table ↔
    c.playerClasses = c'.playerClasses ∧ c.playerHands = c'.playerHands ∧ c.activeEffects = c'.activeEffects ∧
      c.playerPlayedCards = c'.playerPlayedCards ∧ c.playerPickedCards = c'.playerPickedCards ∧
      c.aoeCountByRound = c'.aoeCountByRound := by
  simp [CardMirrors.table]

namespace Machine

/-! ## Calls without card events -/

/-- the log grows by entries that are no card event, and the mirrors stay -/
def KeepsCards (m m' : Machine) : Prop :=
  (∃ es : List EventLogEntry, m'.eventLog = m.eventLog ++ es ∧ ∀ e ∈ es, e.event.isCardEvent = false) ∧
    m'.cards.table = m.cards.table

theorem KeepsCards.of_eq {m m' : Machine} (hl : m'.eventLog = m.eventLog) (hc : m'.cards.table = m.cards.table) :
    KeepsCards m m' := ⟨⟨[], by simp [hl], by simp⟩, hc⟩

theorem KeepsCards.of_log {m m' : Machine} (e : EventLogEntry) (he : e.event.isCardEvent = false)
    (hl : m'.eventLog = m.eventLog ++ [e]) (hc : m'.cards.table = m.cards.table) : KeepsCards m m' :=
  ⟨⟨[e], hl, by simpa using he⟩, hc⟩

theorem KeepsCards.trans {a b c : Machine} (h : KeepsCards a b) (k : KeepsCards b c) : KeepsCards a c := by
  obtain ⟨⟨es, h1, h2⟩, h3⟩ := h
  obtain ⟨⟨fs, k1, k2⟩, k3⟩ := k
  refine ⟨⟨es ++ fs, by rw [k1, h1, List.append_assoc], ?_⟩, k3.trans h3⟩
  intro e he
  rcases List.mem_append.1 he with he | he
  · exact h2 e he
  · exact k2 e he

theorem enterStatus_cards (m : Machine) (target : MatchStatus) (now : Clock) :
    (m.enterStatus target now).cards = m.cards := by
  cases target <;> rfl

theorem consumeChance_keepsCards (m : Machine) (round : Round) (p : String) (retry : Bool) (now : Time) :
    KeepsCards m (m.consumeChance round p retry now) := by
  unfold consumeChance
  split_ifs
  · exact .of_log _ rfl rfl rfl
  · exact .of_eq rfl rfl

theorem determineWinner_keepsCards (m : Machine) (now : Clock) : KeepsCards m (m.determineWinner now).1 := by
  unfold determineWinner
  split
  · exact .of_eq rfl rfl
  · split_ifs with h
    · exact .of_eq rfl rfl
    · simp only [tieBreak, h, if_false]
      exact .of_log _ rfl rfl rfl
  · simp only [tieBreak]
    split_ifs
    · exact .of_eq rfl rfl
    · exact .of_log _ rfl rfl rfl

/-- **A call other than the four card calls logs no card event.** -/
theorem change_noCards {J : StringOps} {m m' : Machine} {o : Op} (h : Change J m o m') (ho : o.isCardCall = false) :
    KeepsCards m m' := by
  cases h with
  | same o => exact .of_eq rfl rfl
  | transition target now _ =>
    refine .of_log _ rfl (enterStatus_eventLog _ target now).1 ?_
    rw [enterStatus_cards]
    rfl
  | startRound q d now _ => exact .of_log _ rfl rfl rfl
  | answer round p a ts sid retry now _ _ _ _ _ =>
    have h1 := consumeChance_keepsCards m round (newAnswer J round p a ts sid).playerId retry (now 0)
    exact h1.trans (.of_log _ rfl rfl rfl)
  | evaluated round now _ _ => exact .of_log _ rfl rfl rfl
  | evaluateStuck round now _ _ => exact .of_eq rfl rfl
  | winner now => exact determineWinner_keepsCards m now
  | finish now => exact (determineWinner_keepsCards m now).trans (.of_log _ rfl rfl rfl)
  | offline p player now _ => exact .of_eq rfl rfl
  | disconnect p player now _ _ => exact .of_log _ rfl rfl rfl
  | reconnect p player now _ => exact .of_log _ rfl rfl rfl
  | attach round key _ _ => exact .of_eq rfl rfl
  | initRejected c d now _ => exact .of_eq rfl rfl
  | initVoting c d now _ =>
    have h1 : KeepsCards m ((m.resetTopics (m.candidatesFor c)).logEvent
        (.stateTransition m.state.status .topicVoting) (now 0)) := .of_log _ rfl rfl rfl
    exact h1.trans (.of_log _ rfl rfl rfl)
  | vote votes p t e now => exact .of_log _ rfl rfl rfl
  | resolveTopics n r now => exact .of_log _ rfl rfl rfl
  | classes => cases ho
  | offer => cases ho
  | pick => cases ho
  | play => cases ho

/-! ## Plays -/

/-- a play is accepted in the state it meets -/
def AcceptsPlay (m : Machine) : Prop :=
  m.state.status = .roundActive ∧ ∃ round, m.currentRound = some round ∧ round.status = .active

theorem playCard_accepted (J : StringOps) {m : Machine} (p : PlayInput) (now : Clock) (h : m.AcceptsPlay) :
    ∃ round, m.currentRound = some round ∧ m.step J (.playCard p now) =
      (m.logEvent (.cardResolved (m.resolvedPayload round p)) (now 0)).applyPlay round p (m.eventSeqCounter + 1) now := by
  obtain ⟨hs, round, hr, hactive⟩ := h
  refine ⟨round, hr, ?_⟩
  simp [step, exec, playCard_eq, hr, hs, hactive]

theorem playCard_refused (J : StringOps) {m : Machine} (p : PlayInput) (now : Clock) (h : ¬m.AcceptsPlay) :
    m.step J (.playCard p now) = m := by
  simp only [step, exec, Outcome.wrap_fst, playCard_eq]
  cases hr : m.currentRound with
  | none => rfl
  | some round =>
    have hguard : m.state.status ≠ .roundActive ∨ round.status ≠ .active := by
      by_contra hc
      simp only [not_or, not_not] at hc
      exact h ⟨hc.1, round, hr, hc.2⟩
    simp only [if_pos hguard]

/-- what a play writes to the mirrors -/
theorem play_cards (m : Machine) (round : Round) (p : PlayInput) (now : Clock) :
    let m' := (m.logEvent (.cardResolved (m.resolvedPayload round p)) (now 0)).applyPlay round p
      (m.eventSeqCounter + 1) now
    m'.cards.playerClasses = m.cards.playerClasses ∧ m'.cards.playerHands = m.cards.playerHands ∧
      m'.cards.playerPlayedCards = addCard m.cards.playerPlayedCards p.playedByPlayerId p.cardId ∧
      m'.cards.playerPickedCards = m.cards.playerPickedCards.modify p.playedByPlayerId (·.delete p.cardId) ∧
      m'.cards.aoeCountByRound = (if 1 < p.targetPlayerIds.length then countAoe m.cards.aoeCountByRound round.roundNo
        else m.cards.aoeCountByRound) ∧
      m'.cards.activeEffects = (if isTemporaryEffectKind p.resolvedEffect then
        pushEffect m.cards.activeEffects p.playedByPlayerId ⟨m.eventSeqCounter + 1, p.resolvedEffect,
          p.serverNow + getDurationMs p.resolvedEffect, getDurationMs p.resolvedEffect⟩ else m.cards.activeEffects) := by
  unfold applyPlay
  by_cases hs : p.resolvedEffect = .secondChance
  · have ht : isTemporaryEffectKind CardEffect.secondChance = false := rfl
    simp [hs, ht]
  · by_cases ht : isTemporaryEffectKind p.resolvedEffect = true <;> simp [hs, ht]

/-- the entries after the CARD_RESOLVED of a play are no card events -/
theorem playEntries_tail (m : Machine) (round : Round) (p : PlayInput) (now : Clock) :
    ∀ e ∈ (m.playEntries round p now).tail, e.event.isCardEvent = false := by
  unfold playEntries
  split_ifs <;> simp [MatchEvent.isCardEvent]

/-! ## The payload of a CARD_RESOLVED -/

/-- every CARD_RESOLVED of the log satisfies `P`, with its entry -/
def EachResolved (P : EventLogEntry → CardResolved → Prop) (log : List EventLogEntry) : Prop :=
  ∀ e ∈ log, ∀ p, e.event = .cardResolved p → P e p

/-- every CARD_RESOLVED names the sequence number of its entry -/
def ResolvedInv (log : List EventLogEntry) : Prop :=
  ∀ e ∈ log, ∀ p, e.event = .cardResolved p → p.seqNo = e.seqNo

theorem eachResolved_append {P : EventLogEntry → CardResolved → Prop} {log es : List EventLogEntry} :
    EachResolved P (log ++ es) ↔ EachResolved P log ∧ EachResolved P es := by
  simp only [EachResolved, List.mem_append, or_imp, forall_and]

theorem eachResolved_other {P : EventLogEntry → CardResolved → Prop} {es : List EventLogEntry}
    (h : ∀ e ∈ es, ∀ p, e.event ≠ .cardResolved p) : EachResolved P es := fun e he p hp => absurd hp (h e he p)

theorem eachResolved_noCards {P : EventLogEntry → CardResolved → Prop} {es : List EventLogEntry}
    (h : ∀ e ∈ es, e.event.isCardEvent = false) : EachResolved P es := by
  refine eachResolved_other fun e he p hp => ?_
  have hne := h e he
  rw [hp] at hne
  cases hne

/-- a play logs one CARD_RESOLVED -/
theorem eachResolved_play {P : EventLogEntry → CardResolved → Prop} (m : Machine) (round : Round) (p : PlayInput)
    (now : Clock) : EachResolved P (m.playEntries round p now) ↔
      P ⟨.cardResolved (m.resolvedPayload round p), now 0, m.eventSeqCounter + 1⟩ (m.resolvedPayload round p) := by
  constructor
  · exact fun h => h _ List.mem_cons_self _ rfl
  · intro h e he q hq
    rcases List.mem_cons.1 he with rfl | he
    · obtain rfl := MatchEvent.cardResolved.inj hq
      exact h
    · exact eachResolved_noCards (playEntries_tail m round p now) e he q hq

/-- a call other than a play logs no CARD_RESOLVED -/
theorem change_unresolved {J : StringOps} {m m' : Machine} {o : Op} (hc : Change J m o m')
    (ho : ∀ p now, o ≠ .playCard p now) :
    ∃ es : List EventLogEntry, m'.eventLog = m.eventLog ++ es ∧ ∀ e ∈ es, ∀ p, e.event ≠ .cardResolved p := by
  by_cases hcard : o.isCardCall = false
  · obtain ⟨⟨es, hl, hes⟩, -⟩ := change_noCards hc hcard
    refine ⟨es, hl, fun e he p hp => ?_⟩
    have hne := hes e he
    rw [hp] at hne
    cases hne
  cases hc with
  | same o => exact ⟨[], by simp⟩
  | classes ids s now => exact ⟨_, rfl, by simp⟩
  | offer p r s cards now _ => exact ⟨_, rfl, by simp⟩
  | pick p c hand r o e i now _ => exact ⟨_, rfl, by simp⟩
  | play round p now _ _ _ => exact absurd rfl (ho p now)
  | _ => exact absurd rfl hcard

/-- what holds of the payload a play writes holds of every CARD_RESOLVED -/
theorem change_eachResolved {J : StringOps} {P : EventLogEntry → CardResolved → Prop}
    (hP : ∀ (m : Machine) (round : Round) (p : PlayInput) (t : Time),
      P ⟨.cardResolved (m.resolvedPayload round p), t, m.eventSeqCounter + 1⟩ (m.resolvedPayload round p))
    {m m' : Machine} {o : Op} (hc : Change J m o m') (h : EachResolved P m.eventLog) : EachResolved P m'.eventLog := by
  by_cases ho : ∀ p now, o ≠ .playCard p now
  · obtain ⟨es, hl, hes⟩ := change_unresolved hc ho
    rw [hl]
    exact eachResolved_append.2 ⟨h, eachResolved_other hes⟩
  · simp only [ne_eq, not_forall, not_not] at ho
    obtain ⟨p, now, rfl⟩ := ho
    cases hc with
    | same o => exact h
    | play round p now _ _ _ =>
      rw [play_eventLog]
      exact eachResolved_append.2 ⟨h, (eachResolved_play m round p now).2 (hP m round p (now 0))⟩

theorem change_resolvedInv {J : StringOps} {m m' : Machine} {o : Op} (hc : Change J m o m')
    (h : ResolvedInv m.eventLog) : ResolvedInv m'.eventLog :=
  change_eachResolved (P := fun e p => p.seqNo = e.seqNo) (fun _ _ _ _ => rfl) hc h

/-! ## Mirrors and replay -/

/-- the mirrors are the replay of the log, the second chances apart -/
def TableInv (m : Machine) : Prop := m.cards.table = (rehydrateCardStateFromEventLog m.eventLog).table

theorem rehydrateEvent_table (c c' : CardMirrors) (e : EventLogEntry) (h : c.table = c'.table) :
    (rehydrateEvent c e).table = (rehydrateEvent c' e).table := by
  obtain ⟨h1, h2, h3, h4, h5, h6⟩ := CardMirrors.table_eq_iff.1 h
  unfold rehydrateEvent
  cases e.event with
  | cardOffer r p ids s =>
    simp only [rehydrateCardOffer]
    split_ifs <;> simp [CardMirrors.table, h1, h2, h3, h4, h5, h6]
  | secondChanceGranted p r =>
    simp only
    split_ifs <;> exact h
  | secondChanceConsumed p r =>
    simp only
    split_ifs <;> exact h
  | classAssigned _ a _ => simp [rehydrateClassAssigned, CardMirrors.table, h1, h2, h3, h4, h5, h6]
  | cardPicked r p c o e i => simp [rehydrateCardPicked, CardMirrors.table, h1, h2, h3, h4, h5, h6]
  | cardResolved p => simp [rehydrateCardResolved, CardMirrors.table, h1, h2, h3, h4, h5, h6]
  | _ => exact h

theorem rehydrateEvent_other (c : CardMirrors) (e : EventLogEntry) (he : e.event.isCardEvent = false) :
    (rehydrateEvent c e).table = c.table := by
  unfold rehydrateEvent
  cases hev : e.event with
  | classAssigned => simp [MatchEvent.isCardEvent, hev] at he
  | cardOffer => simp [MatchEvent.isCardEvent, hev] at he
  | cardPicked => simp [MatchEvent.isCardEvent, hev] at he
  | cardResolved => simp [MatchEvent.isCardEvent, hev] at he
  | secondChanceGranted p r =>
    simp only
    split_ifs <;> rfl
  | secondChanceConsumed p r =>
    simp only
    split_ifs <;> rfl
  | _ => rfl

theorem rehydrate_other (es : List EventLogEntry) (c : CardMirrors) (hes : ∀ e ∈ es, e.event.isCardEvent = false) :
    (es.foldl rehydrateEvent c).table = c.table := by
  induction es generalizing c with
  | nil => rfl
  | cons e es ih =>
    rw [List.foldl_cons, ih _ fun x hx => hes x (List.mem_cons_of_mem e hx)]
    exact rehydrateEvent_other c e (hes e List.mem_cons_self)

/-- one card event, mirrored by the reducer step, and entries that are no card events -/
theorem TableInv.of_log {m m' : Machine} (h : TableInv m) (e : EventLogEntry) (es : List EventLogEntry)
    (hl : m'.eventLog = m.eventLog ++ e :: es) (hes : ∀ x ∈ es, x.event.isCardEvent = false)
    (hc : m'.cards.table = (rehydrateEvent m.cards e).table) : TableInv m' := by
  unfold TableInv
  rw [hl, rehydrate_append, List.foldl_cons, rehydrate_other es _ hes, hc]
  exact rehydrateEvent_table _ _ e h

theorem change_tableInv {J : StringOps} {m m' : Machine} {o : Op} (hc : Change J m o m') (h : TableInv m) :
    TableInv m' := by
  by_cases ho : o.isCardCall = false
  · obtain ⟨⟨es, hl, hes⟩, ht⟩ := change_noCards hc ho
    unfold TableInv
    rw [hl, rehydrate_append, rehydrate_other es _ hes, ht]
    exact h
  have hnil : ∀ x ∈ ([] : List EventLogEntry), x.event.isCardEvent = false := by simp
  cases hc with
  | same o => exact h
  | classes ids s now => exact h.of_log _ [] rfl hnil rfl
  | offer p r s cards now hl => exact h.of_log _ [] rfl hnil (by simp [rehydrateEvent, rehydrateCardOffer, hl])
  | pick p c hand r o e i now hh => exact h.of_log _ [] rfl hnil (by simp [rehydrateEvent, rehydrateCardPicked, hh])
  | play round p now _ _ _ =>
    refine h.of_log _ _ (play_eventLog m round p _ now) (playEntries_tail m round p now) ?_
    obtain ⟨h1, h2, h3, h4, h5, h6⟩ := play_cards m round p now
    refine CardMirrors.table_eq_iff.2 ⟨h1, h2, h6.trans ?_, h3, h4, h5⟩
    by_cases ht : isTemporaryEffectKind p.resolvedEffect = true <;>
      simp [rehydrateEvent, rehydrateCardResolved, resolvedPayload, ht]
  | _ => exact absurd rfl ho

/-! ## Failovers -/

/-- **A failover keeps the log.** It rebuilds counter and mirrors from it, or changes nothing. -/
theorem failover_built (J : StringOps) (m : Machine) :
    m.failover J = m ∨ ((m.failover J).eventLog = m.eventLog ∧
      (m.failover J).eventSeqCounter = m.eventLog.foldl (fun acc e => max e.seqNo acc) 0 ∧
      (m.failover J).cards = rehydrateCardStateFromEventLog m.eventLog) := by
  unfold failover
  cases hd : deserialize J (some m.serialize) with
  | error e => exact .inl rfl
  | ok m' =>
    obtain ⟨-, hcounter, hcards⟩ := deserialize_ok hd
    have hsame : m'.eventLog = m.eventLog := (deserialize_decoded hd).1.trans (backfill_encode m.eventLog)
    rw [hsame] at hcounter hcards
    exact .inr ⟨hsame, hcounter, hcards⟩

theorem failover_eventLog (J : StringOps) (m : Machine) : (m.failover J).eventLog = m.eventLog := by
  rcases failover_built J m with h | h
  · rw [h]
  · exact h.1

theorem failover_seqInv (J : StringOps) {m : Machine} (h : SeqInv m) : SeqInv (m.failover J) := by
  rcases failover_built J m with hf | ⟨hl, hc, -⟩
  · rw [hf]
    exact h
  · unfold SeqInv
    rw [hl, hc, foldl_max_seqNo m.eventLog m.eventSeqCounter h]
    exact h

theorem failover_tableInv (J : StringOps) {m : Machine} (h : TableInv m) : TableInv (m.failover J) := by
  rcases failover_built J m with hf | ⟨hl, -, hc⟩
  · rw [hf]
    exact h
  · unfold TableInv
    rw [hl, hc]

theorem act_tableInv (J : StringOps) {m : Machine} (a : Action) (h : TableInv m) : TableInv (m.act J a) := by
  cases a with
  | call o => exact change_tableInv (step_change J m o) h
  | failover => exact failover_tableInv J h

/-- sequence numbers, mirrors and CARD_RESOLVED payloads of a machine with its log -/
structure LogInv (m : Machine) : Prop where
  seq : SeqInv m
  table : TableInv m
  resolved : ResolvedInv m.eventLog

theorem act_logInv (J : StringOps) (m : Machine) (a : Action) (h : LogInv m) : LogInv (m.act J a) := by
  refine ⟨?_, act_tableInv J a h.table, ?_⟩
  · cases a with
    | call o => exact (change_appends (step_change J m o)).seqInv h.seq
    | failover => exact failover_seqInv J h.seq
  · cases a with
    | call o => exact change_resolvedInv (step_change J m o) h.resolved
    | failover =>
      simp only [act, failover_eventLog]
      exact h.resolved

theorem logInv_create (matchId roomId : String) (players : List PlayerInfo) :
    LogInv (Machine.create matchId roomId players) := ⟨rfl, rfl, by simp [ResolvedInv, create]⟩

/-- **Log and mirrors agree** in every reachable machine, whatever the calls and failovers. -/
theorem reach_logInv (J : StringOps) (matchId roomId : String) (players : List PlayerInfo) (acts : List Action) :
    LogInv (reach J matchId roomId players acts) :=
  run_inv (act J) (fun _ _ => True) LogInv (fun m a _ h => act_logInv J m a h) _ acts
    ((along_const _ _ _ _).2 fun _ _ => trivial) (logInv_create matchId roomId players)

end Machine

end Arena.GameCore
