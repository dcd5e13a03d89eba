/-
Scores as a fold of the event log.

`evaluateRound` adds to the players' counters from the live answers map, while `submitAnswer` logs each answer. The
ledger reads the log alone, with the snapshot of each evaluated round as its only other input: for every ROUND_EVALUATED
event it keeps who started the round, who was eliminated, and the response time of each player's last ANSWER_SUBMITTED
since ROUND_STARTED (`RoundRecord`). `booksStep` runs the machine and keeps the records beside it; `run_books` says that
the machine is not affected.

- `AnswersInv`: the recorded answers of the round are the last responses of the log;
- `BooksInv.stats`: each player's counters are the ledger's;
- `scores_are_ledger`: over every run that evaluates each started round at most once.
-/
import Arena.GameCore.Snapshot

namespace Arena.GameCore

open Arena.Lib Arena.Shared

namespace Machine

/-! ## The ledger -/

/-- one entry of the log, for the last response of a player in the current round -/
def respond (p : String) (acc : Option Time) (e : EventLogEntry) : Option Time :=
  match e.event with
  | .roundStarted .. => none
  | .answerSubmitted q _ responseTimeMs => if q = p then some responseTimeMs else acc
  | _ => acc

/-- the response time of the player's last ANSWER_SUBMITTED since the last ROUND_STARTED -/
def lastResponse (p : String) (log : List EventLogEntry) : Option Time := log.foldl (respond p) none

/-- an evaluated round -/
structure RoundRecord where
  startingPlayers : List String
  eliminatedIds : List String
  lastResponse : String → Option Time

/-- the player started the round and was not eliminated -/
def RoundRecord.survivedBy (p : String) (r : RoundRecord) : Bool :=
  decide (p ∈ r.startingPlayers) && !decide (p ∈ r.eliminatedIds)

/-- the rounds evaluated by one step: one for each ROUND_EVALUATED it logs -/
def closedRounds (m m' : Machine) : List RoundRecord :=
  (m'.eventLog.drop m.eventLog.length).filterMap fun e =>
    match e.event, m.currentRound with
    | .roundEvaluated _ _ _ _ eliminatedIds, some round =>
      some ⟨round.startingPlayers.getD [], eliminatedIds, fun p => lastResponse p m.eventLog⟩
    | _, _ => none

/-- the response times of a player in the rounds it survived -/
def ledger (p : String) (rounds : List RoundRecord) : List Time :=
  (rounds.filter (RoundRecord.survivedBy p)).map fun r => (r.lastResponse p).getD 0

/-- the machine with the rounds evaluated so far -/
structure Books where
  machine : Machine
  rounds : List RoundRecord

def booksStep (J : StringOps) (b : Books) (a : Action) : Books :=
  ⟨b.machine.act J a, b.rounds ++ closedRounds b.machine (b.machine.act J a)⟩

theorem run_books (J : StringOps) (acts : List Action) (b : Books) :
    (run (booksStep J) b acts).machine = run (act J) b.machine acts :=
  run_proj (act J) (booksStep J) Books.machine (fun _ _ => rfl) b acts

/-! ## Answers and last responses -/

/-- the answers of the round are the last responses of the log -/
def AnswersInv (m : Machine) : Prop :=
  ∀ r, m.currentRound = some r → ∀ p, (r.answers.get p).map AnswerState.responseTimeMs = lastResponse p m.eventLog

theorem lastResponse_append (p : String) (log es : List EventLogEntry) :
    lastResponse p (log ++ es) = es.foldl (respond p) (lastResponse p log) := by
  simp [lastResponse, List.foldl_append]

theorem respond_quiet (p : String) (acc : Option Time) (e : EventLogEntry) (h : e.event.isRoundEvent = false) :
    respond p acc e = acc := by
  unfold respond
  split
  · simp_all [MatchEvent.isRoundEvent]
  · simp_all [MatchEvent.isRoundEvent]
  · rfl

theorem foldl_respond_quiet (p : String) (es : List EventLogEntry) (h : ∀ e ∈ es, e.event.isRoundEvent = false) :
    ∀ acc, es.foldl (respond p) acc = acc := by
  induction es with
  | nil => intro acc; rfl
  | cons e es ih =>
    intro acc
    rw [List.foldl_cons, respond_quiet p acc e (h e (by simp))]
    exact ih (fun x hx => h x (by simp [hx])) acc

theorem AppendsQuiet.lastResponse {m m' : Machine} (h : AppendsQuiet m m') (p : String) :
    lastResponse p m'.eventLog = Machine.lastResponse p m.eventLog := by
  obtain ⟨es, hl, hq⟩ := h
  rw [hl, lastResponse_append, foldl_respond_quiet p es hq]

theorem answer_lastResponse (m : Machine) (round : Round) (a : AnswerState) (retry : Bool) (now : Clock) (p : String) :
    lastResponse p (m.recordAnswer round a retry now).eventLog =
      if a.playerId = p then some a.responseTimeMs else lastResponse p m.eventLog := by
  rw [recordAnswer_eventLog, lastResponse_append, answerEntries]
  cases retry <;> rfl

theorem play_lastResponse (m : Machine) (round : Round) (i : PlayInput) (n : ℕ) (now : Clock) (p : String) :
    lastResponse p ((m.logEvent (.cardResolved (m.resolvedPayload round i)) (now 0)).applyPlay round i n now).eventLog =
      lastResponse p m.eventLog := by
  rw [play_eventLog, lastResponse_append, playEntries]
  split_ifs <;> rfl

theorem change_answersInv {J : StringOps} {m m' : Machine} {o : Op} (hc : Change J m o m') (h : AnswersInv m) :
    AnswersInv m' := by
  by_cases hq : o.isQuiet = true
  · intro r' hr' p
    obtain ⟨r, hr, key, rfl⟩ := change_quiet_round hc hq r' hr'
    rw [(change_quiet hc hq).lastResponse p]
    exact h r hr p
  · cases hc with
    | same o => exact h
    | startRound q d now _ =>
      intro r hr p
      obtain rfl := Option.some.inj hr
      simp only [beginRound, logEvent_eventLog, lastResponse_append]
      rfl
    | answer round p a ts sid retry now hr _ _ _ _ =>
      intro r hr' q
      obtain rfl := Option.some.inj hr'
      rw [answer_lastResponse, JsMap.get_set, newAnswer_playerId]
      by_cases hpq : p = q
      · rw [if_pos hpq, if_pos hpq]
        rfl
      · rw [if_neg hpq, if_neg hpq]
        exact h round hr q
    | evaluated round now hr _ =>
      intro r hr' p
      obtain rfl := Option.some.inj hr'
      simp only [settle, logEvent_eventLog, lastResponse_append]
      exact h round hr p
    | evaluateStuck round now hr _ =>
      intro r hr' p
      obtain rfl := Option.some.inj hr'
      exact h round hr p
    | play round i now hr _ _ =>
      intro r hr' p
      rw [(applyPlay_frame _ round i _ now).2] at hr'
      rw [play_lastResponse]
      exact h r hr' p
    | _ => exact absurd rfl hq

theorem recovered_answersInv {m : Machine} (h : AnswersInv m) : AnswersInv m.recovered := by
  intro r hr p
  obtain ⟨x, hx, rfl⟩ := Option.map_eq_some_iff.1 hr
  exact h x hx p

/-! ## Counters -/

/-- no player's counters change -/
def SameStats (m m' : Machine) : Prop :=
  ∀ p i', m'.state.players.get p = some i' → ∃ i, m.state.players.get p = some i ∧
    i'.correctAnswers = i.correctAnswers ∧ i'.totalResponseTimeMs = i.totalResponseTimeMs ∧ i'.score = i.score

theorem SameStats.of_eq {m m' : Machine} (h : m'.state.players = m.state.players) : SameStats m m' := by
  intro p i' hi'
  rw [h] at hi'
  exact ⟨i', hi', rfl, rfl, rfl⟩

theorem SameStats.modify {m m' : Machine} {id : String} {f : PlayerInfo → PlayerInfo}
    (h : m'.state.players = m.state.players.modify id f)
    (hf : ∀ i, (f i).correctAnswers = i.correctAnswers ∧ (f i).totalResponseTimeMs = i.totalResponseTimeMs ∧
      (f i).score = i.score) : SameStats m m' := by
  intro p i' hi'
  rw [h, JsMap.get_modify] at hi'
  split_ifs at hi' with hp
  · obtain ⟨i, hi, rfl⟩ := Option.map_eq_some_iff.1 hi'
    exact ⟨i, hi, hf i⟩
  · exact ⟨i', hi', rfl, rfl, rfl⟩

/-- only an evaluation writes the counters -/
theorem change_sameStats {J : StringOps} {m m' : Machine} {o : Op} (hc : Change J m o m')
    (ho : ∀ now, o ≠ .evaluateRound now) : SameStats m m' := by
  cases hc with
  | transition target now _ => cases target <;> exact .of_eq rfl
  | answer round p a ts sid retry now _ _ _ _ _ =>
    exact .of_eq (congrArg MatchState.players (consumeChance_frame m round p retry (now 0)).1)
  | evaluated round now _ _ => exact absurd rfl (ho now)
  | evaluateStuck round now _ _ => exact absurd rfl (ho now)
  | winner now => exact .of_eq (congrArg MatchState.players (determineWinner_frame m now).1)
  | finish now =>
    have hs := (determineWinner_frame m now).1
    cases hw : (m.determineWinner now).2 with
    | none => exact .of_eq (by simp only [crown, logEvent_state, hs])
    | some w =>
      have hp : ((m.determineWinner now).1.crown (some w) now).state.players =
          m.state.players.modify w fun p => { p with status := .winner } := by
        simp only [crown, logEvent_state, hs]
      exact .modify hp fun _ => ⟨rfl, rfl, rfl⟩
  | offline p player now _ => exact .modify rfl fun _ => ⟨rfl, rfl, rfl⟩
  | disconnect p player now _ _ => exact .modify rfl fun _ => ⟨rfl, rfl, rfl⟩
  | reconnect p player now _ => exact .modify rfl fun _ => ⟨rfl, rfl, rfl⟩
  | play round p now _ _ _ => exact .of_eq (congrArg MatchState.players (applyPlay_frame _ round p _ now).1)
  | _ => exact .of_eq rfl

/-! ## Records of one step -/

theorem closedRounds_append {m m' : Machine} {es : List EventLogEntry} (h : m'.eventLog = m.eventLog ++ es) :
    closedRounds m m' = es.filterMap fun e =>
      match e.event, m.currentRound with
      | .roundEvaluated _ _ _ _ eliminatedIds, some round =>
        some ⟨round.startingPlayers.getD [], eliminatedIds, fun p => lastResponse p m.eventLog⟩
      | _, _ => none := by
  unfold closedRounds
  rw [h, List.drop_left]

theorem closedRounds_none {m m' : Machine} {es : List EventLogEntry} (h : m'.eventLog = m.eventLog ++ es)
    (hn : ∀ e ∈ es, ∀ n k a b ids, e.event ≠ .roundEvaluated n k a b ids) : closedRounds m m' = [] := by
  rw [closedRounds_append h, List.filterMap_eq_nil_iff]
  intro e he
  split
  · rename_i heq _
    exact absurd heq (hn e he _ _ _ _ _)
  · rfl

/-- a step that is no evaluation closes no round -/
theorem change_closes_none {J : StringOps} {m m' : Machine} {o : Op} (hc : Change J m o m')
    (ho : ∀ now, o ≠ .evaluateRound now) : closedRounds m m' = [] := by
  by_cases hq : o.isQuiet = true
  · obtain ⟨es, hl, hes⟩ := change_quiet hc hq
    refine closedRounds_none hl ?_
    intro e he n k a b ids heq
    have := hes e he
    rw [heq] at this
    cases this
  · cases hc with
    | same o =>
      have hl : m.eventLog = m.eventLog ++ [] := (List.append_nil _).symm
      exact closedRounds_none hl (by simp)
    | startRound q d now _ => exact closedRounds_none rfl (by simp)
    | answer round p a ts sid retry now _ _ _ _ _ =>
      refine closedRounds_none (recordAnswer_eventLog m round _ retry now) ?_
      intro e he
      rcases List.mem_append.1 he with he | he
      · split_ifs at he
        · rw [List.mem_singleton] at he; subst he; nofun
        · cases he
      · rw [List.mem_singleton] at he; subst he; nofun
    | evaluated round now _ _ => exact absurd rfl (ho now)
    | evaluateStuck round now _ _ => exact absurd rfl (ho now)
    | play round p now _ _ _ =>
      refine closedRounds_none (play_eventLog m round p _ now) ?_
      intro e he
      rcases List.mem_cons.1 he with rfl | he
      · nofun
      · split_ifs at he
        · rw [List.mem_singleton] at he; subst he; nofun
        · cases he
    | _ => exact absurd rfl hq

/-! ## Machine and ledger agree -/

/-- the points of one survived round -/
def roundPoints (responseTimeMs : Time) : ℤ := (computeRoundScore responseTimeMs).total.floor

/-- the counters of a player are those of a list of response times -/
def StatsAre (i : PlayerInfo) (times : List Time) : Prop :=
  i.correctAnswers = times.length ∧ i.totalResponseTimeMs = times.sum ∧ i.score = (times.map roundPoints).sum

structure BooksInv (b : Books) : Prop where
  wire : WireInv b.machine
  snapshot : SnapshotInv b.machine
  answers : AnswersInv b.machine
  stats : ∀ p i, b.machine.state.players.get p = some i → StatsAre i (ledger p b.rounds)
  answered : ∀ r ∈ b.rounds, ∀ p, r.survivedBy p = true → ∃ t, r.lastResponse p = some t

theorem ledger_append (p : String) (a b : List RoundRecord) : ledger p (a ++ b) = ledger p a ++ ledger p b := by
  simp [ledger]

theorem ledger_single (p : String) (r : RoundRecord) :
    ledger p [r] = if r.survivedBy p then [(r.lastResponse p).getD 0] else [] := by
  unfold ledger
  by_cases h : r.survivedBy p = true
  · simp [h]
  · simp [h]

theorem StatsAre.of_sameStats {i i' : PlayerInfo} {times : List Time} (h : StatsAre i times)
    (hc : i'.correctAnswers = i.correctAnswers) (ht : i'.totalResponseTimeMs = i.totalResponseTimeMs)
    (hs : i'.score = i.score) : StatsAre i' times := by
  unfold StatsAre
  rw [hc, ht, hs]
  exact h

theorem StatsAre.award {i : PlayerInfo} {times : List Time} (h : StatsAre i times) (t : Time) :
    StatsAre (Machine.award t i) (times ++ [t]) := by
  obtain ⟨hc, ht, hs⟩ := h
  refine ⟨?_, ?_, ?_⟩
  · simp [Machine.award, hc]
  · simp [Machine.award, ht]
  · simp [Machine.award, hs, roundPoints]

/-- the record of a completed evaluation -/
def settleRecord (m : Machine) (round : Round) : RoundRecord :=
  ⟨round.startingPlayers.getD [], m.losersOf round, fun p => lastResponse p m.eventLog⟩

theorem settle_closes {m : Machine} {round : Round} (hr : m.currentRound = some round) (now : Clock) :
    closedRounds m (m.settle round now) = [m.settleRecord round] := by
  have hl : (m.settle round now).eventLog = m.eventLog ++ [⟨.roundEvaluated round.roundNo round.correctAnswer
      (m.survivorsOf round).length (m.losersOf round).length (m.losersOf round), now 0, m.eventSeqCounter + 1⟩] := rfl
  rw [closedRounds_append hl, hr]
  rfl

theorem settleRecord_survivedBy {m : Machine} (hs : SnapshotInv m) {round : Round} (hr : m.currentRound = some round)
    (p : String) :
    (m.settleRecord round).survivedBy p = true ↔ p ∈ m.roundPlayers round ∧ answeredRight round.answers p = true := by
  obtain ⟨l, hl⟩ := Option.ne_none_iff_exists'.1 (hs.taken round hr)
  simp only [RoundRecord.survivedBy, settleRecord, losersOf, roundPlayers, hl, Option.getD_some, List.mem_filter,
    Bool.and_eq_true, decide_eq_true_eq, Bool.not_eq_true', decide_eq_false_iff_not, not_and]
  constructor
  · rintro ⟨hp, hn⟩
    exact ⟨hp, by simpa using hn hp⟩
  · rintro ⟨hp, ha⟩
    exact ⟨hp, fun _ => by simp [ha]⟩

/-- a survivor's correct answer is its last response in the log -/
theorem answeredRight_lastResponse {m : Machine} (h : AnswersInv m) {round : Round} (hr : m.currentRound = some round)
    {p : String} (ha : answeredRight round.answers p = true) :
    ∃ a, round.answers.get p = some a ∧ a.isCorrect = true ∧ lastResponse p m.eventLog = some a.responseTimeMs := by
  unfold answeredRight at ha
  cases hg : round.answers.get p with
  | none => simp [hg] at ha
  | some a =>
    have hl := h round hr p
    rw [hg] at hl
    exact ⟨a, rfl, by simpa [hg] using ha, hl.symm⟩

/-- the evaluation books each starting player as the ledger does -/
theorem settle_stats {b : Books} (h : BooksInv b) {round : Round} (hr : b.machine.currentRound = some round)
    (now : Clock) (p : String) (i : PlayerInfo)
    (hi : (b.machine.settle round now).state.players.get p = some i) :
    StatsAre i (ledger p (b.rounds ++ [b.machine.settleRecord round])) := by
  have hget : (b.machine.settledPlayers round).get p = some i := hi
  rw [settledPlayers, foldl_settle_get round.answers _ (nodup_roundPlayers h.wire hr) p] at hget
  rw [ledger_append, ledger_single]
  have hiff := settleRecord_survivedBy h.snapshot hr p
  split_ifs at hget with hp
  · obtain ⟨j, hj, rfl⟩ := Option.map_eq_some_iff.1 hget
    have hold := h.stats p j hj
    by_cases ha : answeredRight round.answers p = true
    · -- a survivor: one more round, with the answer's response time
      obtain ⟨a, hg, hc, hlast⟩ := answeredRight_lastResponse h.answers hr ha
      have hrec : (b.machine.settleRecord round).lastResponse p = some a.responseTimeMs := hlast
      rw [if_pos (hiff.2 ⟨hp, ha⟩), hrec, settleInfo_right hg hc]
      exact hold.award a.responseTimeMs
    · -- eliminated: counters untouched
      rw [if_neg fun hsv => ha (hiff.1 hsv).2, settleInfo_wrong (by simpa using ha), List.append_nil]
      exact hold.of_sameStats rfl rfl rfl
  · rw [if_neg fun hsv => hp (hiff.1 hsv).1, List.append_nil]
    exact h.stats p i hget

/-- a step that closes no round and leaves the counters alone -/
theorem BooksInv.quiet {b : Books} (h : BooksInv b) {m' : Machine} (hw : WireInv m') (hs : SnapshotInv m')
    (ha : AnswersInv m') (hst : SameStats b.machine m') (hc : closedRounds b.machine m' = []) :
    BooksInv ⟨m', b.rounds ++ closedRounds b.machine m'⟩ := by
  rw [hc, List.append_nil]
  refine ⟨hw, hs, ha, ?_, h.answered⟩
  intro p i' hi'
  obtain ⟨i, hi, h1, h2, h3⟩ := hst p i' hi'
  exact (h.stats p i hi).of_sameStats h1 h2 h3

theorem change_booksInv {J : StringOps} {b : Books} {m' : Machine} {o : Op} (hc : Change J b.machine o m')
    (hg : EvalOnce b.machine (.call o)) (h : BooksInv b) :
    BooksInv ⟨m', b.rounds ++ closedRounds b.machine m'⟩ := by
  have hw := change_wireInv hc h.wire
  have hs := change_snapshotInv hc hg h.snapshot
  have ha := change_answersInv hc h.answers
  by_cases ho : ∀ now, o ≠ .evaluateRound now
  · exact h.quiet hw hs ha (change_sameStats hc ho) (change_closes_none hc ho)
  · cases hc with
    | same o =>
      have hl : b.machine.eventLog = b.machine.eventLog ++ [] := (List.append_nil _).symm
      exact h.quiet hw hs ha (.of_eq rfl) (closedRounds_none hl (by simp))
    | evaluated round now hr hf =>
      rw [settle_closes hr]
      refine ⟨hw, hs, ha, settle_stats h hr now, ?_⟩
      intro r hmem p hsv
      rcases List.mem_append.1 hmem with hmem | hmem
      · exact h.answered r hmem p hsv
      · rw [List.mem_singleton] at hmem
        subst hmem
        have hp := (settleRecord_survivedBy h.snapshot hr p).1 hsv
        obtain ⟨a, -, -, hlast⟩ := answeredRight_lastResponse h.answers hr hp.2
        exact ⟨a.responseTimeMs, hlast⟩
    | evaluateStuck round now hr hf =>
      -- the frozen list: nobody plays this round
      have hp := h.snapshot.stuck_round hg hr hf
      have hplayers : b.machine.settledPlayers round = b.machine.state.players := by rw [settledPlayers, hp]; rfl
      have hl : (b.machine.settleStuck round).eventLog = b.machine.eventLog ++ [] := (List.append_nil _).symm
      exact h.quiet hw hs ha (.of_eq hplayers) (closedRounds_none hl (by simp))
    | _ => exact absurd (fun now => nofun) ho

theorem booksStep_inv (J : StringOps) (b : Books) (a : Action) (hg : EvalOnce b.machine a) (h : BooksInv b) :
    BooksInv (booksStep J b a) := by
  cases a with
  | call o => exact change_booksInv (step_change J b.machine o) hg h
  | failover =>
    have hw := act_wireInv J b.machine .failover h.wire
    have hs := act_snapshotInv J b.machine .failover hg h.wire h.snapshot
    rcases failover_cases J b.machine h.wire with hf | hf
    · have hl : (b.machine.act J .failover).eventLog = b.machine.eventLog ++ [] := by rw [act, hf]; simp [recovered]
      refine h.quiet hw hs ?_ ?_ (closedRounds_none hl (by simp))
      · rw [act, hf]; exact recovered_answersInv h.answers
      · rw [act, hf]; exact .of_eq rfl
    · have hl : (b.machine.act J .failover).eventLog = b.machine.eventLog ++ [] := by rw [act, hf]; simp
      refine h.quiet hw hs ?_ ?_ (closedRounds_none hl (by simp))
      · rw [act, hf]; exact h.answers
      · rw [act, hf]; exact .of_eq rfl

/-- players as `createMatch` makes them: no points yet -/
def Unscored (i : PlayerInfo) : Prop := i.correctAnswers = 0 ∧ i.totalResponseTimeMs = 0 ∧ i.score = 0

instance (i : PlayerInfo) : Decidable (Unscored i) :=
  inferInstanceAs (Decidable (i.correctAnswers = 0 ∧ i.totalResponseTimeMs = 0 ∧ i.score = 0))

theorem booksInv_create (matchId roomId : String) (players : List PlayerInfo)
    (hd : (players.map PlayerInfo.id).Nodup) (hz : ∀ p ∈ players, Unscored p) :
    BooksInv ⟨Machine.create matchId roomId players, []⟩ := by
  refine ⟨wireInv_create matchId roomId players hd, snapshotInv_create matchId roomId players, ?_, ?_, ?_⟩
  · intro r hr
    cases hr
  · intro p i hi
    obtain ⟨hmem, -⟩ := create_player hi
    obtain ⟨h1, h2, h3⟩ := hz i hmem
    exact ⟨h1, h2, h3⟩
  · intro r hr
    cases hr

/-- **Scores are the fold of the event log.** In every run that evaluates each started round at most once, each player's
`correctAnswers` is the number of evaluated rounds it started and was not eliminated in, `totalResponseTimeMs` the sum of
its last logged response times there, and `score` the sum of their points. Each of these rounds has such a response, and
`evaluateRound` never dereferences a missing answer. -/
theorem scores_are_ledger (J : StringOps) (matchId roomId : String) (players : List PlayerInfo) (acts : List Action)
    (hd : (players.map PlayerInfo.id).Nodup) (hz : ∀ p ∈ players, Unscored p)
    (hg : Along (act J) EvalOnce (Machine.create matchId roomId players) acts) :
    let b := run (booksStep J) ⟨Machine.create matchId roomId players, []⟩ acts
    b.machine = reach J matchId roomId players acts ∧
      (∀ p i, b.machine.state.players.get p = some i →
        i.correctAnswers = (b.rounds.filter (RoundRecord.survivedBy p)).length ∧
        i.totalResponseTimeMs = ((b.rounds.filter (RoundRecord.survivedBy p)).map fun r => (r.lastResponse p).getD 0).sum ∧
        i.score = ((b.rounds.filter (RoundRecord.survivedBy p)).map fun r =>
          (computeRoundScore ((r.lastResponse p).getD 0)).total.floor).sum) ∧
      (∀ r ∈ b.rounds, ∀ p, r.survivedBy p = true → ∃ t, r.lastResponse p = some t) ∧
      ∀ now, (b.machine.evaluateRound now).2 ≠ .error .missingAnswer := by
  intro b
  have hmach : b.machine = reach J matchId roomId players acts := run_books J acts _
  have hg' : Along (booksStep J) (fun b a => EvalOnce b.machine a) ⟨Machine.create matchId roomId players, []⟩ acts :=
    along_proj (act J) (booksStep J) EvalOnce Books.machine (fun _ _ => rfl) _ acts hg
  have hinv : BooksInv b :=
    run_inv (booksStep J) (fun b a => EvalOnce b.machine a) BooksInv (fun b a ha hi => booksStep_inv J b a ha hi) _ acts
      hg' (booksInv_create matchId roomId players hd hz)
  refine ⟨hmach, ?_, hinv.answered, ?_⟩
  · intro p i hi
    obtain ⟨h1, h2, h3⟩ := hinv.stats p i hi
    refine ⟨?_, h2, ?_⟩
    · rw [h1, ledger, List.length_map]
    · rw [h3, ledger, List.map_map]
      rfl
  · intro now
    rw [evaluateRound_eq]
    cases b.machine.currentRound with
    | none => nofun
    | some round =>
      simp only []
      split_ifs <;> nofun

/-- one evaluated round: alice answers right after 100 ms, bob not at all -/
theorem scores_are_ledger_one_round :
    let acts : List Action := [.call (.transition .countdown fun _ => 0), .call (.transition .roundActive fun _ => 0),
      .call (.startRound ⟨"q1", "2 + 2?", ["3", "4", "5", "6"], "4", none⟩ none fun _ => 0),
      .call (.submitAnswer "alice" "b" 100 none fun _ => 100), .failover, .call (.evaluateRound fun _ => 15000)]
    let b := run (booksStep StringOps.ascii) ⟨Machine.create "m1" "r1" [freshPlayer "alice", freshPlayer "bob"], []⟩ acts
    (b.machine.state.players.get "alice").map PlayerInfo.correctAnswers = some 1 ∧
      ∀ i, b.machine.state.players.get "alice" = some i →
        i.correctAnswers = (b.rounds.filter (RoundRecord.survivedBy "alice")).length := by
  intro acts b
  have hg : Along (act StringOps.ascii) EvalOnce
      (Machine.create "m1" "r1" [freshPlayer "alice", freshPlayer "bob"]) acts := by decide +kernel
  refine ⟨by decide +kernel, ?_⟩
  intro i hi
  exact ((scores_are_ledger StringOps.ascii "m1" "r1" [freshPlayer "alice", freshPlayer "bob"] acts (by decide)
    (by decide) hg).2.1 "alice" i hi).1

end Machine

end Arena.GameCore
