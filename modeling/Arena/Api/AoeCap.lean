/-
The AOE budget counters (`aoe-cap.ts`) against the match machine.

An AOE resolution is counted in four places: by `playCard` as it happens, by the replay that rebuilds the mirrors, by
`countAoeResolved` over the event log, and by an `AoeCapTracker` fed one event at a time. The round a resolution
belongs to is the round of its payload for the first three; the tracker keeps a round number of its own, which moves
when the persisted round number does, that is when a round starts.

- `change_keepsNumber`, `failover_keepsNumber`: but for `startRound`, every call and every failover keeps the match id
  and the round number;
- `act_roundMove`, `act_numbered`: a step logs the start of the next round or none, and CARD_RESOLVED for the round in
  play only;
- `mirrors_step`, `mirrors_run`: a tracker that mirrors the machine mirrors it after any calls and failovers;
- `aoe_counters_agree`: the machine's count, the count of the log and the tracker's count are one number.
-/
import Arena.GameCore.CardTable
import Arena.GameCore.Phases
import Arena.Api.CardCommands

namespace Arena.Api

open Arena.Lib Arena.Shared Arena.GameCore

/-! ## The counters -/

/-- the body of the loop of `countAoeResolved` -/
def countEvent (matchId : String) (roundNo count : ℕ) (e : EventLogEntry) : ℕ :=
  match e.event with
  | .cardResolved payload =>
    if payload.matchId ≠ matchId then count
    else if payload.roundNo ≠ roundNo then count
    else if 1 < payload.targetPlayerIds.length then count + 1
    else count
  | _ => count

/-- the CARD_RESOLVED events of the match and the round with more than one target -/
def countAoeResolved (events : List EventLogEntry) (matchId : String) (roundNo : ℕ) : ℕ :=
  events.foldl (countEvent matchId roundNo) 0

structure AoeCapTracker where
  matchId : String
  currentRoundNo : ℕ
  currentAoeCount : ℕ
deriving DecidableEq, Repr

namespace AoeCapTracker

def empty (matchId : String) : AoeCapTracker := ⟨matchId, 0, 0⟩

def rebuildFromLog (matchId : String) (currentRoundNo : ℕ) (events : List EventLogEntry) : AoeCapTracker :=
  ⟨matchId, currentRoundNo, countAoeResolved events matchId currentRoundNo⟩

def getCurrentRoundNo (t : AoeCapTracker) : ℕ := t.currentRoundNo

def getCurrentAoeCount (t : AoeCapTracker) : ℕ := t.currentAoeCount

def onCardResolved (t : AoeCapTracker) (event : CardResolved) : AoeCapTracker :=
  if event.matchId ≠ t.matchId then t
  else if event.roundNo ≠ t.currentRoundNo then t
  else if 1 < event.targetPlayerIds.length then { t with currentAoeCount := t.currentAoeCount + 1 }
  else t

def onEndRound (t : AoeCapTracker) (nextRoundNo : ℕ) : AoeCapTracker :=
  { t with currentRoundNo := nextRoundNo, currentAoeCount := 0 }

def isExhausted (t : AoeCapTracker) : Bool := aoeCapPerRound ≤ t.currentAoeCount

/-- the feed of one logged event: a resolution, or the boundary to the round that starts -/
def feed (t : AoeCapTracker) (e : EventLogEntry) : AoeCapTracker :=
  match e.event with
  | .cardResolved payload => t.onCardResolved payload
  | .roundStarted roundNo _ _ _ => t.onEndRound roundNo
  | _ => t

end AoeCapTracker

/-! ## The count of the log -/

/-- the event counts for the match and the round -/
def countsAs (matchId : String) (roundNo : ℕ) (e : EventLogEntry) : Bool :=
  match e.event with
  | .cardResolved payload =>
    payload.matchId = matchId ∧ payload.roundNo = roundNo ∧ 1 < payload.targetPlayerIds.length
  | _ => false

theorem countEvent_eq (matchId : String) (roundNo count : ℕ) (e : EventLogEntry) :
    countEvent matchId roundNo count e = count + if countsAs matchId roundNo e then 1 else 0 := by
  unfold countEvent countsAs
  split
  · rename_i payload hev
    by_cases hm : payload.matchId = matchId
    · by_cases hn : payload.roundNo = roundNo
      · simp only [hm, hn, ne_eq, not_true_eq_false, if_false, true_and, decide_eq_true_eq]
        split_ifs <;> rfl
      · simp [hn]
    · simp [hm]
  · simp

theorem countAoeResolved_eq (events : List EventLogEntry) (matchId : String) (roundNo : ℕ) :
    countAoeResolved events matchId roundNo = events.countP (countsAs matchId roundNo) := by
  unfold countAoeResolved
  induction events using List.reverseRecOn with
  | nil => rfl
  | append_singleton events e ih =>
    rw [List.foldl_append, ih, List.foldl_cons, List.foldl_nil, countEvent_eq, List.countP_append,
      List.countP_singleton]

theorem countAoeResolved_append (log es : List EventLogEntry) (matchId : String) (roundNo : ℕ) :
    countAoeResolved (log ++ es) matchId roundNo =
      countAoeResolved log matchId roundNo + countAoeResolved es matchId roundNo := by
  simp only [countAoeResolved_eq, List.countP_append]

theorem countAoeResolved_zero {es : List EventLogEntry} {matchId : String} {roundNo : ℕ}
    (h : Machine.EachResolved (fun _ p => p.roundNo ≠ roundNo) es) : countAoeResolved es matchId roundNo = 0 := by
  rw [countAoeResolved_eq, List.countP_eq_zero]
  intro e he
  unfold countsAs
  split
  · rename_i payload hev
    simp [h e he payload hev]
  · simp

/-! ## Round numbers -/

/-- a call that does not start a round keeps the number of the round in play -/
structure KeepsNumber (m m' : Machine) : Prop where
  id : m'.state.id = m.state.id
  roundNo : m'.state.currentRoundNo = m.state.currentRoundNo
  round : ∀ r', m'.currentRound = some r' → ∃ r, m.currentRound = some r ∧ r'.roundNo = r.roundNo

theorem KeepsNumber.of_same {m m' : Machine} (hs : m'.state.id = m.state.id)
    (hn : m'.state.currentRoundNo = m.state.currentRoundNo) (hr : m'.currentRound = m.currentRound) :
    KeepsNumber m m' :=
  ⟨hs, hn, fun r' hr' => ⟨r', hr ▸ hr', rfl⟩⟩

theorem KeepsNumber.of_round {m m' : Machine} {r r' : Round} (hs : m'.state.id = m.state.id)
    (hn : m'.state.currentRoundNo = m.state.currentRoundNo) (hr : m.currentRound = some r)
    (hr' : m'.currentRound = some r') (h : r'.roundNo = r.roundNo) : KeepsNumber m m' := by
  refine ⟨hs, hn, fun x hx => ⟨r, hr, ?_⟩⟩
  obtain rfl : r' = x := Option.some.inj (hr'.symm.trans hx)
  exact h

/-- only `startRound` moves the round number -/
theorem change_keepsNumber {J : StringOps} {m m' : Machine} {o : Op} (hc : Machine.Change J m o m')
    (ho : ∀ q d now, o ≠ .startRound q d now) : KeepsNumber m m' := by
  cases hc with
  | startRound q d now _ => exact absurd rfl (ho q d now)
  | transition target now _ =>
    cases target with
    | roundActive => exact ⟨rfl, rfl, fun r hr => nomatch hr⟩
    | _ => exact .of_same rfl rfl rfl
  | answer round p a ts sid retry now hr _ _ _ _ =>
    have hs := (Machine.consumeChance_frame m round p retry (now 0)).1
    exact .of_round (congrArg MatchState.id hs) (congrArg MatchState.currentRoundNo hs) hr rfl rfl
  | evaluated round now hr _ => exact .of_round rfl rfl hr rfl rfl
  | evaluateStuck round now hr _ => exact .of_round rfl rfl hr rfl rfl
  | winner now =>
    obtain ⟨hs, hr, -⟩ := Machine.determineWinner_frame m now
    exact .of_same (by rw [hs]) (by rw [hs]) hr
  | finish now =>
    obtain ⟨hs, hr, -⟩ := Machine.determineWinner_frame m now
    have hid : (m.determineWinner now).1.state.id = m.state.id := by rw [hs]
    have hno : (m.determineWinner now).1.state.currentRoundNo = m.state.currentRoundNo := by rw [hs]
    exact .of_same hid hno hr
  | attach round key hr _ => exact .of_round rfl rfl hr rfl rfl
  | play round p now _ _ _ =>
    obtain ⟨hs, hr⟩ := Machine.applyPlay_frame (m.logEvent (.cardResolved (m.resolvedPayload round p)) (now 0)) round p
      (m.eventSeqCounter + 1) now
    exact .of_same (congrArg MatchState.id hs) (congrArg MatchState.currentRoundNo hs) hr
  | _ => exact .of_same rfl rfl rfl

/-- and only `startRound` logs a ROUND_STARTED -/
theorem change_logsNoStart {J : StringOps} {m m' : Machine} {o : Op} (hc : Machine.Change J m o m')
    (ho : ∀ q d now, o ≠ .startRound q d now) :
    ∃ es : List EventLogEntry, m'.eventLog = m.eventLog ++ es ∧ ∀ e ∈ es, e.isRoundStarted = false := by
  by_cases hk : o.keepsRound = true
  · obtain ⟨es, h⟩ := Machine.change_logs hc hk
    exact ⟨es, h.log, h.started⟩
  · cases hc with
    | same => exact ⟨[], by simp⟩
    | startRound q d now _ => exact absurd rfl (ho q d now)
    | evaluated round now _ _ => exact ⟨_, rfl, by simp [EventLogEntry.isRoundStarted]⟩
    | evaluateStuck round now _ _ => exact ⟨[], (List.append_nil _).symm, by simp⟩
    | _ => exact absurd rfl hk

/-! ## Failovers -/

/-- **A failover keeps the match id and the round number.** -/
theorem failover_keepsNumber (J : StringOps) (m : Machine) : KeepsNumber m (m.failover J) := by
  unfold Machine.failover
  cases hd : Machine.deserialize J (some m.serialize) with
  | error e => exact .of_same rfl rfl rfl
  | ok m' =>
    obtain ⟨p, timing, hfrom⟩ := deserializeMatch_ok (Machine.deserialize_ok hd).1
    have hs : p.state = encodeState m.state := (Option.some.inj hfrom.parsed.state).symm
    have hstate : m'.state = decodeMatchState (encodeState m.state) p.players p.version timing := by
      rw [← hs]
      exact hfrom.state
    refine ⟨by rw [hstate]; rfl, by rw [hstate]; rfl, fun r hr => ?_⟩
    obtain ⟨x, hx, hdecoded⟩ := hfrom.of_round hr
    obtain ⟨_, _, rfl⟩ := decodeCurrentRound_ok hdecoded
    have hw : m.currentRound.map encodeRound = some x.1 := by
      rw [← show p.round.map Prod.fst = m.currentRound.map encodeRound from hfrom.parsed.round, hx]
      rfl
    obtain ⟨r0, hr0, hencoded⟩ := Option.map_eq_some_iff.1 hw
    have hn := (validateCurrentRoundShape_ok (hfrom.parsed.shape x hx)).1
    rw [← hencoded] at hn
    exact ⟨r0, hr0, (Option.some.inj hn).symm⟩

/-! ## Rounds of the log -/

/-- the round in play has the machine's round number, and every CARD_RESOLVED is of the match and of a round begun -/
structure Numbered (m : Machine) : Prop where
  round : ∀ r, m.currentRound = some r → r.roundNo = m.state.currentRoundNo
  resolved : Machine.EachResolved (fun _ p => p.matchId = m.state.id ∧ p.roundNo ≤ m.state.currentRoundNo) m.eventLog

/-- the log grew by one ROUND_STARTED of the next round, or by none at all -/
inductive RoundMove (m m' : Machine) (es : List EventLogEntry) : Prop where
  | boundary (e : EventLogEntry) (questionId : String) (question : QuestionState) (endsAt : Time)
      (he : e.event = .roundStarted (m.state.currentRoundNo + 1) questionId question endsAt) (hes : es = [e])
      (hid : m'.state.id = m.state.id) (hno : m'.state.currentRoundNo = m.state.currentRoundNo + 1)
      (hround : ∀ r, m'.currentRound = some r → r.roundNo = m.state.currentRoundNo + 1)
  | within (hk : KeepsNumber m m') (hes : ∀ e ∈ es, e.isRoundStarted = false)

/-- every step grows the log by a boundary or within a round -/
theorem act_roundMove (J : StringOps) (m : Machine) (a : Machine.Action) :
    ∃ es, (m.act J a).eventLog = m.eventLog ++ es ∧ RoundMove m (m.act J a) es := by
  cases a with
  | failover =>
    exact ⟨[], by simp [Machine.act, Machine.failover_eventLog], .within (failover_keepsNumber J m) (by simp)⟩
  | call o =>
    have hc := Machine.step_change J m o
    by_cases ho : ∀ q d now, o ≠ .startRound q d now
    · obtain ⟨es, hl, hes⟩ := change_logsNoStart hc ho
      exact ⟨es, hl, .within (change_keepsNumber hc ho) hes⟩
    · simp only [ne_eq, not_forall, not_not] at ho
      obtain ⟨q, d, now, rfl⟩ := ho
      simp only [Machine.act]
      generalize m.step J (.startRound q d now) = m' at hc ⊢
      cases hc with
      | same => exact ⟨[], by simp, .within (.of_same rfl rfl rfl) (by simp)⟩
      | startRound q d now _ =>
        refine ⟨_, rfl, .boundary _ _ _ _ rfl rfl rfl rfl fun r hr => ?_⟩
        rw [← Option.some.inj hr]
        rfl

theorem RoundMove.id {m m' : Machine} {es : List EventLogEntry} (h : RoundMove m m' es) : m'.state.id = m.state.id := by
  cases h with
  | boundary _ _ _ _ _ _ hid _ _ => exact hid
  | within hk _ => exact hk.id

theorem RoundMove.roundNo_le {m m' : Machine} {es : List EventLogEntry} (h : RoundMove m m' es) :
    m.state.currentRoundNo ≤ m'.state.currentRoundNo := by
  cases h with
  | boundary _ _ _ _ _ _ _ hno _ => omega
  | within hk _ => exact hk.roundNo.ge

/-- a step logs CARD_RESOLVED for the match and the round in play only -/
theorem act_resolved (J : StringOps) (m : Machine) (a : Machine.Action) (h : Numbered m) :
    Machine.EachResolved (fun _ p => p.matchId = m.state.id ∧ p.roundNo ≤ m.state.currentRoundNo)
      (m.act J a).eventLog := by
  cases a with
  | failover =>
    rw [Machine.act, Machine.failover_eventLog]
    exact h.resolved
  | call o =>
    have hc := Machine.step_change J m o
    by_cases ho : ∀ p now, o ≠ .playCard p now
    · obtain ⟨es, hl, hes⟩ := Machine.change_unresolved hc ho
      rw [Machine.act, hl]
      exact Machine.eachResolved_append.2 ⟨h.resolved, Machine.eachResolved_other hes⟩
    · simp only [ne_eq, not_forall, not_not] at ho
      obtain ⟨p, now, rfl⟩ := ho
      simp only [Machine.act]
      generalize m.step J (.playCard p now) = m' at hc ⊢
      cases hc with
      | same => exact h.resolved
      | play round p now hr _ _ =>
        rw [Machine.play_eventLog]
        exact Machine.eachResolved_append.2 ⟨h.resolved,
          (Machine.eachResolved_play m round p now).2 ⟨rfl, (h.round round hr).le⟩⟩

theorem act_numbered (J : StringOps) (m : Machine) (a : Machine.Action) (h : Numbered m) : Numbered (m.act J a) := by
  obtain ⟨es, -, hmove⟩ := act_roundMove J m a
  constructor
  · intro r hr
    cases hmove with
    | boundary _ _ _ _ _ _ _ hno hround => rw [hround r hr, hno]
    | within hk _ =>
      obtain ⟨r0, hr0, hn⟩ := hk.round r hr
      rw [hn, hk.roundNo, h.round r0 hr0]
  · intro e he p hp
    obtain ⟨hid, hno⟩ := act_resolved J m a h e he p hp
    exact ⟨hid.trans hmove.id.symm, hno.trans hmove.roundNo_le⟩

theorem numbered_create (matchId roomId : String) (players : List PlayerInfo) :
    Numbered (Machine.create matchId roomId players) :=
  ⟨fun _ hr => (nomatch hr), fun _ he => (nomatch he)⟩

/-! ## The tracker against the log -/

theorem onCardResolved_eq (t : AoeCapTracker) (p : CardResolved) :
    t.onCardResolved p =
      { t with currentAoeCount := t.currentAoeCount +
          if p.matchId = t.matchId ∧ p.roundNo = t.currentRoundNo ∧ 1 < p.targetPlayerIds.length then 1 else 0 } := by
  unfold AoeCapTracker.onCardResolved
  by_cases hm : p.matchId = t.matchId
  · by_cases hn : p.roundNo = t.currentRoundNo
    · by_cases ht : 1 < p.targetPlayerIds.length <;> simp [hm, hn, ht]
    · simp [hn]
  · simp [hm]

theorem feed_eq (t : AoeCapTracker) (e : EventLogEntry) (he : e.isRoundStarted = false) :
    t.feed e =
      { t with currentAoeCount := t.currentAoeCount + if countsAs t.matchId t.currentRoundNo e then 1 else 0 } := by
  unfold AoeCapTracker.feed countsAs
  cases hev : e.event with
  | cardResolved payload =>
    simp only [onCardResolved_eq, decide_eq_true_eq]
  | roundStarted => simp [EventLogEntry.isRoundStarted, hev] at he
  | _ => simp

/-- within a round the tracker adds what the log adds -/
theorem foldl_feed (es : List EventLogEntry) (t : AoeCapTracker) (hes : ∀ e ∈ es, e.isRoundStarted = false) :
    es.foldl AoeCapTracker.feed t =
      { t with currentAoeCount := t.currentAoeCount + countAoeResolved es t.matchId t.currentRoundNo } := by
  induction es using List.reverseRecOn with
  | nil => rfl
  | append_singleton es e ih =>
    rw [List.foldl_append, ih fun x hx => hes x (by simp [hx]), List.foldl_cons, List.foldl_nil,
      feed_eq _ _ (hes e (by simp)), countAoeResolved_eq, countAoeResolved_eq, List.countP_append,
      List.countP_singleton, Nat.add_assoc]

/-- the tracker stands where the machine and its log stand -/
structure Mirrors (t : AoeCapTracker) (m : Machine) : Prop where
  matchId : t.matchId = m.state.id
  roundNo : t.currentRoundNo = m.state.currentRoundNo
  count : t.currentAoeCount = countAoeResolved m.eventLog m.state.id m.state.currentRoundNo

theorem mirrors_rebuild (m : Machine) :
    Mirrors (.rebuildFromLog m.state.id m.state.currentRoundNo m.eventLog) m := ⟨rfl, rfl, rfl⟩

/-- **A tracker fed what a step logs mirrors the machine after the step.** -/
theorem mirrors_step {m m' : Machine} {es : List EventLogEntry} {t : AoeCapTracker} (h : Numbered m)
    (hl : m'.eventLog = m.eventLog ++ es) (hmove : RoundMove m m' es) (ht : Mirrors t m) :
    Mirrors (es.foldl AoeCapTracker.feed t) m' := by
  cases hmove with
  | boundary e q question endsAt he hes hid hno hround =>
    subst hes
    -- no CARD_RESOLVED of the log is of the round that starts
    have hold : countAoeResolved m.eventLog m.state.id (m.state.currentRoundNo + 1) = 0 :=
      countAoeResolved_zero fun x hx p hp => by have := (h.resolved x hx p hp).2; omega
    have hnew : countAoeResolved [e] m.state.id (m.state.currentRoundNo + 1) = 0 := by
      simp [countAoeResolved, countEvent, he]
    have hfeed : [e].foldl AoeCapTracker.feed t = t.onEndRound (m.state.currentRoundNo + 1) := by
      simp [AoeCapTracker.feed, he]
    rw [hfeed]
    refine ⟨ht.matchId.trans hid.symm, hno.symm, ?_⟩
    rw [hl, hid, hno, countAoeResolved_append, hold, hnew]
    rfl
  | within hk hes =>
    rw [foldl_feed es t hes]
    refine ⟨ht.matchId.trans hk.id.symm, ht.roundNo.trans hk.roundNo.symm, ?_⟩
    rw [hl, hk.id, hk.roundNo, countAoeResolved_append, ← ht.count, ← ht.matchId, ← ht.roundNo]

/-- and after any number of steps -/
theorem mirrors_run (J : StringOps) (acts : List Machine.Action) :
    ∀ (m : Machine) (t : AoeCapTracker), Numbered m → Mirrors t m →
      ∃ es, (run (Machine.act J) m acts).eventLog = m.eventLog ++ es ∧
        Mirrors (es.foldl AoeCapTracker.feed t) (run (Machine.act J) m acts) := by
  induction acts with
  | nil => exact fun m t _ ht => ⟨[], (List.append_nil _).symm, ht⟩
  | cons a acts ih =>
    intro m t h ht
    obtain ⟨es, hl, hmove⟩ := act_roundMove J m a
    obtain ⟨fs, hlog, hfed⟩ := ih _ _ (act_numbered J m a h) (mirrors_step h hl hmove ht)
    refine ⟨es ++ fs, ?_, ?_⟩
    · rw [run_cons, hlog, hl, List.append_assoc]
    · rw [run_cons, List.foldl_append]
      exact hfed

theorem reach_numbered (J : StringOps) (matchId roomId : String) (players : List PlayerInfo)
    (acts : List Machine.Action) : Numbered (Machine.reach J matchId roomId players acts) :=
  run_inv (Machine.act J) (fun _ _ => True) Numbered (fun m a _ h => act_numbered J m a h) _ acts
    ((along_const _ _ _ _).2 fun _ _ => trivial) (numbered_create matchId roomId players)

theorem reach_id (J : StringOps) (matchId roomId : String) (players : List PlayerInfo) (acts : List Machine.Action) :
    (Machine.reach J matchId roomId players acts).state.id = matchId := by
  refine run_inv (Machine.act J) (fun _ _ => True) (fun m => m.state.id = matchId) ?_ _ acts
    ((along_const _ _ _ _).2 fun _ _ => trivial) rfl
  intro m a _ h
  obtain ⟨es, -, hmove⟩ := act_roundMove J m a
  exact hmove.id.trans h

/-- the filter on the match drops nothing from the log of the match -/
theorem countAoeResolved_own {m : Machine} (h : Numbered m) (r : ℕ) :
    countAoeResolved m.eventLog m.state.id r = aoeCount m.eventLog r := by
  rw [countAoeResolved_eq, aoeCount]
  refine List.countP_congr fun e he => ?_
  unfold countsAs MatchEvent.isAoe
  cases hev : e.event with
  | cardResolved p => simp [(h.resolved e he p hev).1]
  | _ => simp

/-- what the machine counts is what the log counts -/
theorem getAoeCount_log {m : Machine} (h : Numbered m) (ht : Machine.TableInv m) (r : ℕ) :
    m.getAoeCountForRound r = countAoeResolved m.eventLog m.state.id r := by
  rw [Machine.aoe_log ht, countAoeResolved_own h]

theorem Mirrors.machine {t : AoeCapTracker} {m : Machine} (h : Mirrors t m) (hn : Numbered m)
    (ht : Machine.TableInv m) : t.getCurrentAoeCount = m.getAoeCountForRound m.state.currentRoundNo := by
  rw [getAoeCount_log hn ht]
  exact h.count

/-- **The AOE budget counters agree.** After any calls and failovers the machine's count of every round is the count
of the log; and a tracker rebuilt from the log at any earlier point, then fed every event logged since, stands at the
current round with the machine's count of it. -/
theorem aoe_counters_agree (J : StringOps) (matchId roomId : String) (players : List PlayerInfo)
    (before after : List Machine.Action) :
    let earlier := Machine.reach J matchId roomId players before
    let m := Machine.reach J matchId roomId players (before ++ after)
    let tracker := (m.eventLog.drop earlier.eventLog.length).foldl AoeCapTracker.feed
      (.rebuildFromLog matchId earlier.state.currentRoundNo earlier.eventLog)
    earlier.eventLog <+: m.eventLog ∧
      (∀ r, m.getAoeCountForRound r = countAoeResolved m.eventLog matchId r) ∧
      tracker.getCurrentRoundNo = m.state.currentRoundNo ∧
      tracker.getCurrentAoeCount = m.getAoeCountForRound m.state.currentRoundNo := by
  intro earlier m tracker
  have hrun : run (Machine.act J) earlier after = m := (run_append _ _ before after).symm
  have hid : m.state.id = matchId := reach_id J matchId roomId players (before ++ after)
  have hn : Numbered m := reach_numbered J matchId roomId players (before ++ after)
  have ht : Machine.TableInv m := (Machine.reach_logInv J matchId roomId players (before ++ after)).table
  have hstart : Mirrors (.rebuildFromLog matchId earlier.state.currentRoundNo earlier.eventLog) earlier := by
    have h := mirrors_rebuild earlier
    rwa [reach_id J matchId roomId players before] at h
  obtain ⟨es, hes, hfed⟩ := mirrors_run J after earlier _ (reach_numbered J matchId roomId players before) hstart
  rw [hrun] at hes hfed
  have htracker : es.foldl AoeCapTracker.feed
      (.rebuildFromLog matchId earlier.state.currentRoundNo earlier.eventLog) = tracker := by
    simp only [tracker, hes, List.drop_left]
  rw [htracker] at hfed
  refine ⟨⟨es, hes.symm⟩, fun r => ?_, hfed.roundNo, hfed.machine hn ht⟩
  rw [getAoeCount_log hn ht, hid]

end Arena.Api
