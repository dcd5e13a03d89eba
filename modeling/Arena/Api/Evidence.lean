/-
What a machine shows of a command that took effect on it.

The machine keeps no list of applied entries. When a redelivered entry is not in the applied set, it is recognised by what
its kind has left behind: the submission id of the player's answer in the current round, the player being offline, the
card being out of the hand or among the played ones, the stamp of a vote in the log.

- `Evidence`: what each kind leaves behind, and `dispatch_evidence`: a command that changes the machine leaves it;
- `awaits`: the machine would still take such a command of this player. It does not when the evidence is there
  (`Evidence.not_awaits`), and then the command changes nothing (`dispatch_unchanged`);
- `Cause.erases`: what takes the evidence away again. Every other call keeps it (`change_evidence`), and so does a
  failover (`Evidence.recovered`).
-/
import Arena.Api.AnswerRounds

namespace Arena.Api

open Arena.Lib Arena.Shared Arena.GameCore Arena.GameCore.Machine

/-! ## Evidence -/

/-- offline, and not to be disconnected again -/
def Offline (m : Machine) (userId : String) : Prop :=
  ∀ p, m.state.players.get userId = some p → p.isOnline = false ∧ p.status ≠ .active

/-- what a machine shows of a command that took effect -/
def Evidence (env : CommandEnvelope) (m : Machine) : Prop :=
  match env.body with
  | .submitAnswer _ submissionId _ _ => ∀ r, m.currentRound = some r →
      (r.answers.get env.userId).map AnswerState.submissionId = some submissionId
  | .playerDisconnect => Offline m env.userId
  | .cardPick _ cardId _ => ∀ id ∈ findCard cardId, id ∉ getHand m env.userId
  | .cardPlay _ cardId _ _ => ∀ id ∈ findCard cardId, (m.getPlayedCards env.userId).has id = true
  | .voteBanTopic .. => hasVoteEvent m env.eventId = true

/-- the machine would still take the command: a round is open to the player, the player is online, the card is in the
hand or not played, voting is open, and the duplicate check of the kind finds nothing -/
def awaits (m : Machine) (env : CommandEnvelope) (t : Time) : Bool :=
  match env.body with
  | .submitAnswer _ submissionId _ _ => (openRound m env.userId t).isSome &&
      (m.currentRound.bind fun r => r.answers.get env.userId).map AnswerState.submissionId ≠ some submissionId
  | .playerDisconnect => (m.state.players.get env.userId).any fun p => p.isOnline || p.status = .active
  | .cardPick _ cardId _ => (findCard cardId).any fun id => (getHand m env.userId).contains id
  | .cardPlay _ cardId _ _ => (findCard cardId).any fun id => !(m.getPlayedCards env.userId).has id
  | .voteBanTopic .. => !isTopicVotingClosed m t && !hasVoteEvent m env.eventId

def CommandBody.isAnswer : CommandBody → Bool
  | .submitAnswer .. => true
  | _ => false

def CommandBody.isVote : CommandBody → Bool
  | .voteBanTopic .. => true
  | _ => false

/-- the writes that take the evidence of a command away: the next round or another answer of the player, a reconnect, a
new offer -/
def Cause.erases (cause : Cause) (env : CommandEnvelope) : Bool :=
  match env.body, cause with
  | .submitAnswer .., .startRound => true
  | .submitAnswer .., .answer p => p = env.userId
  | .submitAnswer .., .botAnswer sim => sim.userId = env.userId
  | .submitAnswer .., .command e => e.envelope.body.isAnswer && e.envelope.userId = env.userId
  | .playerDisconnect, .reconnect p _ => p = env.userId
  | .cardPick .., .pickOffer p => p = env.userId
  | _, _ => false

/-! ## Evidence makes a command a duplicate -/

theorem Evidence.not_awaits {env : CommandEnvelope} {m : Machine} (h : Evidence env m) (t : Time) :
    awaits m env t = false := by
  unfold Evidence at h
  unfold awaits
  cases hb : env.body with
  | submitAnswer answer sid cid ts =>
    rw [hb] at h
    cases hr : m.currentRound with
    | none => simp [openRound, hr]
    | some r =>
      have hsid := h r hr
      simp [hsid]
  | playerDisconnect =>
    rw [hb] at h
    cases hp : m.state.players.get env.userId with
    | none => simp
    | some p => simp [h p hp]
  | cardPick cid cardId seq =>
    rw [hb] at h
    cases hc : findCard cardId with
    | none => simp [hc]
    | some id => simpa [hc] using h id hc
  | cardPlay cid cardId seq target =>
    rw [hb] at h
    cases hc : findCard cardId with
    | none => simp [hc]
    | some id => simpa [hc] using h id hc
  | voteBanTopic topic cid =>
    rw [hb] at h
    simp [h]

section Unchanged

variable {J : StringOps} {m : Machine}

/-- an answer that changes the machine found a round open to its player -/
theorem submitAnswer_unchanged {p text : String} {ts : Time} {sid : Option String} {now : Clock}
    (h : openRound m p ts = none) : m.step J (.submitAnswer p text ts sid now) = m := by
  have hc := step_change J m (.submitAnswer p text ts sid now)
  generalize m.step J (.submitAnswer p text ts sid now) = m' at hc
  cases hc with
  | same => rfl
  | answer round p text ts sid retry now hr hactive hts hp hretry =>
    rw [openRound_of_answer hr hactive hts hp hretry] at h
    cases h

theorem disconnectPlayer_unchanged {p : String} {now : Clock} (h : Offline m p) :
    m.step J (.disconnectPlayer p now) = m := by
  have hc := step_change J m (.disconnectPlayer p now)
  generalize m.step J (.disconnectPlayer p now) = m' at hc
  cases hc with
  | same => rfl
  | offline p player now hg =>
    have hself : (m.state.players.modify p fun q => { q with isOnline := false }) = m.state.players := by
      refine JsMap.modify_self _ fun q hq => ?_
      rw [← (h q hq).1]
    rw [hself]
    rfl
  | disconnect p player now hg hs => exact absurd hs (h player hg).2

theorem pickCard_unchanged {p : String} {id : CardId} {seq : ℕ} {eventId commandId : Option String} {now : Clock}
    (h : id ∉ getHand m p) : m.step J (.pickCard p id seq eventId commandId now) = m := by
  simp only [Machine.step, Machine.exec, Outcome.wrap_fst, Machine.pickCard]
  unfold getHand at h
  split
  · rfl
  · rename_i hand hh
    have hno : hand.contains id = false := by simpa [hh] using h
    simp only [hno, Bool.not_false, if_true]

/-- **A command that is not awaited changes nothing.** -/
theorem dispatch_unchanged {env : CommandEnvelope} {now : Clock} (h : awaits m env (now 0) = false) :
    (dispatchBuiltin J m env now).1 = m := by
  have hclosed : ∀ topic cid, env.body = .voteBanTopic topic cid → isTopicVotingClosed m (now 0) = true →
      (dispatchBuiltin J m env now).1 = m := by
    intro topic cid hb hx
    simp [dispatchBuiltin, hb, applyVoteBanTopic, hx]
  have ha := dispatchBuiltin_applies J m env now
  generalize dispatchBuiltin J m env now = r at ha hclosed
  unfold awaits at h
  cases ha with
  | nothing => rfl
  | answer answer sid cid ts hb hnew =>
    rw [hb] at h
    refine submitAnswer_unchanged ?_
    simp only [hnew, ne_eq, not_false_eq_true, decide_true, Bool.and_true] at h
    simpa using h
  | disconnect hb =>
    rw [hb] at h
    have hoff : Offline m env.userId := fun p hp => by simpa [hp] using h
    exact disconnectPlayer_unchanged (J := J) hoff
  | pick cid cardId seq id hb hc =>
    rw [hb] at h
    refine pickCard_unchanged (J := J) ?_
    simpa [hc] using h
  | play cid cardId seq target input hb hc hp hnew =>
    rw [hb] at h
    simp [hc, hnew] at h
  | vote topic cid hb hnew =>
    rw [hb] at h
    refine hclosed topic cid hb ?_
    simpa [hnew] using h

end Unchanged

/-! ## What takes effect leaves evidence -/

theorem hasVoteEvent_concat {m : Machine} {log : List EventLogEntry} {e : EventLogEntry}
    {matchId p topic eventId : String} (h : m.eventLog = log ++ [e])
    (he : e.event = .topicVoteSubmitted matchId p topic (some eventId)) : hasVoteEvent m eventId = true := by
  unfold hasVoteEvent
  rw [h]
  simp [he]

theorem disconnectPlayer_offline (J : StringOps) (m : Machine) (p : String) (now : Clock) :
    Offline (m.step J (.disconnectPlayer p now)) p := by
  simp only [Machine.step, Machine.exec, Machine.disconnectPlayer]
  intro q hq
  split at hq
  · rename_i hnone
    rw [hnone] at hq
    cases hq
  · rename_i player hplayer
    split_ifs at hq with hs
    · simp only [JsMap.get_modify, if_true, hplayer, Option.map_some, Option.some.injEq] at hq
      rw [← hq]
      refine ⟨rfl, fun hactive => ?_⟩
      have hstatus : player.status = .active := hactive
      simp [hstatus] at hs
    · simp only [logEvent_state, JsMap.get_modify, if_true, hplayer, Option.map_some, Option.some.injEq] at hq
      rw [← hq]
      exact ⟨rfl, by simp⟩

theorem applyPlay_played (m : Machine) (round : Round) (p : PlayInput) (n : ℕ) (now : Clock) :
    (m.applyPlay round p n now).cards.playerPlayedCards =
      addCard m.cards.playerPlayedCards p.playedByPlayerId p.cardId := by
  unfold applyPlay
  split_ifs <;> rfl

theorem addCard_has (sets : JsMap String (JsSet CardId)) (p q : String) (c d : CardId) :
    (((addCard sets p c).get q).getD JsSet.empty).has d =
      ((decide (p = q) && decide (d = c)) || ((sets.get q).getD JsSet.empty).has d) := by
  unfold addCard
  rw [JsMap.get_set]
  by_cases hq : p = q
  · subst hq
    simp [JsSet.has_add]
  · simp [hq]

/-- **A command that changes the machine leaves its evidence.** -/
theorem dispatch_evidence {J : StringOps} {m : Machine} {env : CommandEnvelope} {now : Clock}
    (h : (dispatchBuiltin J m env now).1 ≠ m) : Evidence env (dispatchBuiltin J m env now).1 := by
  have ha := dispatchBuiltin_applies J m env now
  generalize dispatchBuiltin J m env now = r at ha h
  unfold Evidence
  cases ha with
  | nothing => exact absurd rfl h
  | answer answer sid cid ts hb hnew =>
    rw [hb]
    have hc := step_change J m (.submitAnswer env.userId answer (now 0) (some sid) (laterClock now))
    generalize m.step J (.submitAnswer env.userId answer (now 0) (some sid) (laterClock now)) = m' at hc h
    cases hc with
    | same => exact absurd rfl h
    | answer round p text ts sid retry now' hr =>
      rintro r ⟨rfl⟩
      simp [newAnswer]
  | disconnect hb =>
    rw [hb]
    exact disconnectPlayer_offline J m env.userId now
  | pick cid cardId seq id hb hid =>
    rw [hb]
    have hc := step_change J m (.pickCard env.userId id seq (some env.eventId) (some cid) now)
    generalize m.step J (.pickCard env.userId id seq (some env.eventId) (some cid) now) = m' at hc h
    cases hc with
    | same => exact absurd rfl h
    | pick p c hand r o e i now' hh =>
      intro id' hid'
      obtain rfl : id = id' := Option.some.inj (hid.symm.trans hid')
      simp [getHand]
  | play cid cardId seq target input hb hid hp hnew =>
    rw [hb]
    have hc := step_change J m (.playCard input (laterClock now))
    generalize m.step J (.playCard input (laterClock now)) = m' at hc h
    cases hc with
    | same => exact absurd rfl h
    | play round p now' hr =>
      intro id' hid'
      obtain rfl : input.cardId = id' := Option.some.inj (hid.symm.trans hid')
      simp only [getPlayedCards, applyPlay_played, addCard_has, hp, decide_true, Bool.and_self, Bool.true_or]
  | vote topic cid hb hnew =>
    rw [hb]
    have hc := step_change J m (.voteBanTopic env.userId topic (some env.eventId) (laterClock now))
    generalize m.step J (.voteBanTopic env.userId topic (some env.eventId) (laterClock now)) = m' at hc h
    cases hc with
    | same => exact absurd rfl h
    | vote votes p t e now' =>
      have hstamp : truthy (some env.eventId) = some env.eventId := by simp [truthy, Option.filter, env.eventId_ne]
      rw [hstamp]
      exact hasVoteEvent_concat rfl rfl

/-! ## What keeps evidence -/

section Kept

variable {J : StringOps} {m m' : Machine} {o : Op}

/-- only a new round and an answer of the player touch the player's answer; the round may be dropped -/
theorem change_answer_of (hc : Change J m o m') {p : String} (hs : ∀ q d now, o ≠ .startRound q d now)
    (ha : ∀ a t sid now, o ≠ .submitAnswer p a t sid now) {r' : Round} (hr' : m'.currentRound = some r') :
    ∃ r, m.currentRound = some r ∧ r'.answers.get p = r.answers.get p := by
  by_cases hq : o.isQuiet = true
  · obtain ⟨r, hr, key, rfl⟩ := change_quiet_round hc hq r' hr'
    exact ⟨r, hr, rfl⟩
  · cases hc with
    | same => exact ⟨r', hr', rfl⟩
    | startRound q d now => exact absurd rfl (hs q d now)
    | answer round p' a ts sid retry now hr =>
      obtain rfl := Option.some.inj hr'
      have hne : p' ≠ p := fun h => ha a ts sid now (by rw [h])
      exact ⟨round, hr, by simp [hne]⟩
    | evaluated round now hr =>
      obtain rfl := Option.some.inj hr'
      exact ⟨round, hr, rfl⟩
    | evaluateStuck round now hr =>
      obtain rfl := Option.some.inj hr'
      exact ⟨round, hr, rfl⟩
    | play round p' now hr =>
      rw [(applyPlay_frame _ round p' _ now).2] at hr'
      exact ⟨r', hr', rfl⟩
    | _ => exact absurd rfl hq

theorem Offline.of_eq {p : String} (h : Offline m p) (he : m'.state.players = m.state.players) : Offline m' p := by
  intro i hi
  rw [he] at hi
  exact h i hi

theorem Offline.modify {p q : String} (h : Offline m p) {f : PlayerInfo → PlayerInfo}
    (he : m'.state.players = m.state.players.modify q f)
    (hf : ∀ i, q = p → i.isOnline = false → i.status ≠ .active → (f i).isOnline = false ∧ (f i).status ≠ .active) :
    Offline m' p := by
  intro i hi
  rw [he, JsMap.get_modify] at hi
  split_ifs at hi with hq
  · obtain ⟨j, hj, rfl⟩ := Option.map_eq_some_iff.1 hi
    exact hf j hq (h j hj).1 (h j hj).2
  · exact h i hi

/-- a settled player is awarded or eliminated -/
theorem settleInfo_offline (answers : JsMap String AnswerState) (q : String) (i : PlayerInfo) (hon : i.isOnline = false)
    (hs : i.status ≠ .active) :
    (settleInfo answers q i).isOnline = false ∧ (settleInfo answers q i).status ≠ .active := by
  unfold settleInfo
  split
  · split_ifs
    · exact ⟨hon, hs⟩
    · exact ⟨hon, by simp⟩
  · exact ⟨hon, by simp⟩

theorem foldl_settle_offline (answers : JsMap String AnswerState) (l : List String) {p : String} (m : Machine)
    (h : Offline m p) : Offline (m.withPlayers (l.foldl (settlePlayer answers) m.state.players)) p := by
  induction l generalizing m with
  | nil => exact h.of_eq rfl
  | cons q l ih =>
    have h1 : Offline (m.withPlayers (settlePlayer answers m.state.players q)) p :=
      h.modify rfl fun i _ hon hs => settleInfo_offline answers q i hon hs
    exact (ih _ h1).of_eq rfl

/-- a player who is offline stays so until a reconnect -/
theorem change_offline (hc : Change J m o m') {p : String} (ho : ∀ now, o ≠ .reconnectPlayer p now)
    (h : Offline m p) : Offline m' p := by
  cases hc with
  | transition target now _ => cases target <;> exact h.of_eq rfl
  | answer round q a ts sid retry now _ _ _ _ _ =>
    exact h.of_eq (congrArg MatchState.players (consumeChance_frame m round q retry (now 0)).1)
  | evaluated round now _ _ => exact (foldl_settle_offline round.answers (m.roundPlayers round) m h).of_eq rfl
  | evaluateStuck round now _ _ => exact (foldl_settle_offline round.answers (m.roundPlayers round) m h).of_eq rfl
  | winner now => exact h.of_eq (congrArg MatchState.players (determineWinner_frame m now).1)
  | finish now =>
    have hs := (determineWinner_frame m now).1
    cases hw : (m.determineWinner now).2 with
    | none => exact h.of_eq (by simp only [crown, logEvent_state, hs])
    | some w =>
      have hp : ((m.determineWinner now).1.crown (some w) now).state.players =
          m.state.players.modify w fun p => { p with status := .winner } := by
        simp only [crown, logEvent_state, hs]
      exact h.modify hp fun i _ hon _ => ⟨hon, by simp⟩
  | offline q player now _ => exact h.modify rfl fun i _ _ hs => ⟨rfl, hs⟩
  | disconnect q player now _ _ => exact h.modify rfl fun i _ _ _ => ⟨rfl, by simp⟩
  | reconnect q player now _ => exact h.modify rfl fun i hq => absurd (by rw [hq]) (ho now)
  | play round q now _ _ _ => exact h.of_eq (congrArg MatchState.players (applyPlay_frame _ round q _ now).1)
  | _ => exact h.of_eq rfl

theorem consumeChance_hands (m : Machine) (round : Round) (p : String) (retry : Bool) (now : Time) :
    (m.consumeChance round p retry now).cards.playerHands = m.cards.playerHands ∧
      (m.consumeChance round p retry now).cards.playerPlayedCards = m.cards.playerPlayedCards := by
  unfold consumeChance
  split_ifs <;> exact ⟨rfl, rfl⟩

theorem applyPlay_hands (m : Machine) (round : Round) (p : PlayInput) (n : ℕ) (now : Clock) :
    (m.applyPlay round p n now).cards.playerHands = m.cards.playerHands := by
  unfold applyPlay
  split_ifs <;> rfl

/-- a card comes back to a hand by an offer only -/
theorem change_hand (hc : Change J m o m') {p : String} (ho : ∀ r seed now, o ≠ .pickOffer p r seed now) {id : CardId}
    (h : id ∉ getHand m p) : id ∉ getHand m' p := by
  have keep : m'.cards.playerHands = m.cards.playerHands → id ∉ getHand m' p := by
    intro he
    rw [getHand, he]
    exact h
  cases hc with
  | transition target now _ => cases target <;> exact keep rfl
  | answer round q a ts sid retry now _ _ _ _ _ => exact keep (consumeChance_hands m round q retry (now 0)).1
  | winner now => exact keep (congrArg CardMirrors.playerHands (determineWinner_frame m now).2.2)
  | finish now => exact keep (congrArg CardMirrors.playerHands (determineWinner_frame m now).2.2)
  | offer q r seed cards now _ =>
    have hne : q ≠ p := fun hq => ho r seed now (by rw [hq])
    simpa [getHand, hne] using h
  | pick q card hand r seq e i now hh =>
    by_cases hq : q = p
    · subst hq
      have hnot : id ∉ hand := by simpa [getHand, hh] using h
      simp [getHand, hnot]
    · simpa [getHand, hq] using h
  | play round q now _ _ _ => exact keep (applyPlay_hands _ round q _ now)
  | _ => exact keep rfl

/-- a card that was played stays so -/
theorem change_played (hc : Change J m o m') {p : String} {id : CardId} (h : (m.getPlayedCards p).has id = true) :
    (m'.getPlayedCards p).has id = true := by
  have keep : m'.cards.playerPlayedCards = m.cards.playerPlayedCards → (m'.getPlayedCards p).has id = true := by
    intro he
    rw [getPlayedCards, he]
    exact h
  cases hc with
  | transition target now _ => cases target <;> exact keep rfl
  | answer round q a ts sid retry now _ _ _ _ _ => exact keep (consumeChance_hands m round q retry (now 0)).2
  | winner now => exact keep (congrArg CardMirrors.playerPlayedCards (determineWinner_frame m now).2.2)
  | finish now => exact keep (congrArg CardMirrors.playerPlayedCards (determineWinner_frame m now).2.2)
  | play round q now _ _ _ =>
    rw [getPlayedCards, applyPlay_played, addCard_has]
    exact Bool.or_eq_true_iff.2 (.inr h)
  | _ => exact keep rfl

theorem hasVoteEvent_mono {eventId : String} (hl : m.eventLog <+: m'.eventLog) (h : hasVoteEvent m eventId = true) :
    hasVoteEvent m' eventId = true := by
  obtain ⟨es, hes⟩ := hl
  unfold hasVoteEvent at h ⊢
  rw [← hes, List.reverse_append, List.any_append, h, Bool.or_true]

/-- **Evidence stays** through every call that does not erase it. -/
theorem change_evidence (hc : Change J m o m') {env : CommandEnvelope} (delivered : List ℕ)
    (he : (Commands.causeOf delivered o).erases env = false) (h : Evidence env m) : Evidence env m' := by
  unfold Evidence at h ⊢
  unfold Cause.erases at he
  cases hb : env.body with
  | submitAnswer answer sid cid ts =>
    rw [hb] at h he
    intro r' hr'
    have hs : ∀ q d now, o ≠ .startRound q d now := by
      rintro q d now rfl
      cases he
    have ha : ∀ a t s now, o ≠ .submitAnswer env.userId a t s now := by
      rintro a t s now rfl
      simp [Commands.causeOf] at he
    obtain ⟨r, hr, hget⟩ := change_answer_of hc hs ha hr'
    rw [hget]
    exact h r hr
  | playerDisconnect =>
    rw [hb] at h he
    refine change_offline hc ?_ h
    rintro now rfl
    simp [Commands.causeOf] at he
  | cardPick cid cardId seq =>
    rw [hb] at h he
    intro id hid
    refine change_hand hc ?_ (h id hid)
    rintro r seed now rfl
    simp [Commands.causeOf] at he
  | cardPlay cid cardId seq target =>
    rw [hb] at h
    exact fun id hid => change_played hc (h id hid)
  | voteBanTopic topic cid =>
    rw [hb] at h
    obtain ⟨es, hes, -⟩ := change_appends hc
    exact hasVoteEvent_mono ⟨es, hes.symm⟩ h

/-- a failover keeps it: the mirrors are rebuilt from the log -/
theorem Evidence.recovered {env : CommandEnvelope} (h : Evidence env m) (hm : MirrorInv m) :
    Evidence env m.recovered := by
  have hcards : m.recovered.cards = m.cards := hm.symm
  unfold Evidence at h ⊢
  cases hb : env.body with
  | submitAnswer answer sid cid ts =>
    rw [hb] at h
    intro r' hr'
    obtain ⟨r, hr, rfl⟩ := Option.map_eq_some_iff.1 hr'
    exact h r hr
  | playerDisconnect =>
    rw [hb] at h
    exact h.of_eq rfl
  | cardPick cid cardId seq =>
    rw [hb] at h
    simp only [getHand, hcards]
    exact h
  | cardPlay cid cardId seq target =>
    rw [hb] at h
    simp only [getPlayedCards, hcards]
    exact h
  | voteBanTopic topic cid =>
    rw [hb] at h
    exact h

end Kept

end Arena.Api
