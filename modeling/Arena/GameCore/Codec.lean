/-
The match codec (`match-state.codec.ts`) and `MatchStateMachine.serialize` / `deserialize`.

The wire value is the JSON object itself: `JSON.stringify` and `JSON.parse` are the identity on it, with `undefined`
fields dropped. Its types follow `DeserializedMatch`: what the decoder checks at run time may hold any JSON value
(`WireNumber`, `WireText`, an absent or ill-typed field is `none`), what it takes on trust has its static type. A blob
that is not JSON at all is `none`. Error texts omit the payload length the source appends.

Numbers are exact and finite, so the decoder's `Number.isFinite` guards on sums have no counterpart; a JSON number that
overflows to Infinity is an `invalid` wire number.

- `deserializeMatch_ok`: what an accepted blob, v1 or v2, decodes to;
- `WireInv`: status, phase deadline, result anchor and round of a live machine fit together as the decoder demands;
- `act_wireInv`: every call and every failover keeps it; `act_timed`: and no round ends before it starts;
- `codec_round_trip`: every reachable machine decodes to itself, but for the answer key;
- `failover_eq`, `failover_cases`: the machine a failover leaves.
-/
import Arena.GameCore.Rehydrate
import Arena.GameCore.Steps

namespace Arena.GameCore

open Arena.Lib Arena.Shared

/-! ## Wire format -/

inductive WireNumber where
  | undefined
  | null
  | number (q : Time)
  | invalid
deriving DecidableEq, Repr

inductive WireText where
  | undefined
  | text (s : String)
  | invalid
deriving DecidableEq, Repr

inductive WireStartingPlayers where
  /-- the string `__UNAVAILABLE__` -/
  | sentinel
  | ids (l : List String)
  | invalid
deriving DecidableEq, Repr

structure WireAnswer where
  playerId : WireText
  answer : WireText
  isCorrect : Option Bool
  responseTimeMs : WireNumber
  submittedAt : WireNumber
  submissionId : WireText
deriving DecidableEq, Repr

structure WireQuestion where
  id : WireText
  content : WireText
  options : Option (List String)
  difficulty : Option Difficulty
deriving DecidableEq, Repr

structure WireRound where
  matchId : String
  roundNo : Option ℕ
  question : Option WireQuestion
  startedAt : WireNumber
  endsAt : WireNumber
  status : Option RoundStatus
  correctAnswer : WireText
  startingPlayers : WireStartingPlayers
  /-- `none` for an entry that is not a pair of a string and an object -/
  answers : Option (List (Option (String × WireAnswer)))
deriving DecidableEq, Repr

structure WireState where
  id : String
  roomId : String
  status : MatchStatus
  currentRoundNo : ℕ
  totalRounds : ℕ
  players : Option (List (String × PlayerInfo))
  survivingPlayerIds : List String
  eliminatedPlayerIds : List String
  winnerId : Option String
  startedAt : WireNumber
  endedAt : Option Time
  phaseEndsAt : WireNumber
  roundResultStartedAt : WireNumber
  candidateTopics : Option (List String)
  topicVotes : Option (JsMap String String)
  bannedTopics : Option (List String)
  activeTopics : Option (List String)
deriving DecidableEq

structure WireEvent where
  event : MatchEvent
  timestamp : Time
  seqNo : Option ℕ
deriving DecidableEq

structure WireMatch where
  stateVersion : WireNumber
  state : Option WireState
  currentRound : Option WireRound
  eventLog : Option (List WireEvent)
deriving DecidableEq

inductive CodecError where
  | notJson
  | unsupportedVersion
  | invalidMatchData
  | timingNull
  | timingNotFinite
  | missingPhaseEndsAt
  | noRoundTiming
  | endsAtPrecedesStartedAt
  | phaseEndsAtMismatch
deriving DecidableEq, Repr

def CodecError.message : CodecError → String
  | .notJson => "Failed to parse MatchStateMachine JSON"
  | .unsupportedVersion => "Unsupported MatchStateMachine state version"
  | .invalidMatchData => "Invalid MatchStateMachine data"
  | .timingNull => "Invalid MatchStateMachine timing field: null not permitted"
  | .timingNotFinite => "Invalid MatchStateMachine timing field: expected finite number or null"
  | .missingPhaseEndsAt => "Invalid MatchStateMachine data: v2 blob missing phaseEndsAt"
  | .noRoundTiming => "Invalid MatchStateMachine data: currentRound has no reconstructable startedAt/endsAt"
  | .endsAtPrecedesStartedAt => "Invalid MatchStateMachine data: currentRound endsAt precedes startedAt"
  | .phaseEndsAtMismatch =>
    "Invalid MatchStateMachine data: v2 ROUND_ACTIVE phaseEndsAt does not match currentRound.endsAt"

/-! ## Encoder -/

def wireTime : Option Time → WireNumber
  | none => .null
  | some t => .number t

def encodeAnswer (a : AnswerState) : WireAnswer :=
  ⟨.text a.playerId, .text a.answer, some a.isCorrect, .number a.responseTimeMs, .number a.submittedAt,
    .text a.submissionId⟩

/-- the round without its `correctAnswer` -/
def encodeRound (r : Round) : WireRound where
  matchId := r.matchId
  roundNo := some r.roundNo
  question := some ⟨.text r.question.id, .text r.question.content, some r.question.options, r.question.difficulty⟩
  startedAt := .number r.startedAt
  endsAt := .number r.endsAt
  status := some r.status
  correctAnswer := .undefined
  startingPlayers := match r.startingPlayers with
    | none => .sentinel
    | some l => .ids l
  answers := some (r.answers.entries.map fun e => some (e.1, encodeAnswer e.2))

def encodeState (s : MatchState) : WireState where
  id := s.id
  roomId := s.roomId
  status := s.status
  currentRoundNo := s.currentRoundNo
  totalRounds := s.totalRounds
  players := some s.players.entries
  survivingPlayerIds := s.survivingPlayerIds
  eliminatedPlayerIds := s.eliminatedPlayerIds
  winnerId := s.winnerId
  startedAt := wireTime s.startedAt
  endedAt := s.endedAt
  phaseEndsAt := wireTime s.phaseEndsAt
  roundResultStartedAt := wireTime s.roundResultStartedAt
  candidateTopics := s.candidateTopics
  topicVotes := s.topicVotes
  bannedTopics := s.bannedTopics
  activeTopics := s.activeTopics

def serializeMatch (state : MatchState) (currentRound : Option Round) (eventLog : List EventLogEntry) : WireMatch where
  stateVersion := .number 2
  state := some (encodeState state)
  currentRound := currentRound.map encodeRound
  eventLog := some (eventLog.map fun e => ⟨e.event, e.timestamp, some e.seqNo⟩)

/-! ## Decoder -/

inductive StateVersion where
  | v1
  | v2
deriving DecidableEq, Repr

/-- the version gate: the integers 1 and 2 only -/
def supportedStateVersion : WireNumber → Option StateVersion
  | .number q => if q = 1 then some .v1 else if q = 2 then some .v2 else none
  | _ => none

/-- `none` is a missing field, `some none` a `null` -/
abbrev Timing := Option (Option Time)

def validateTimingField (value : WireNumber) (allowNull : Bool) : Except CodecError Timing :=
  match value with
  | .undefined => .ok none
  | .null => if allowNull then .ok (some none) else .error .timingNull
  | .number q => .ok (some (some q))
  | .invalid => .error .timingNotFinite

/-- one entry of `answers`, checked and decoded; a v1 answer may lack its submission id -/
def decodeAnswer (J : StringOps) (version : StateVersion) (playerId : String) (a : WireAnswer) : Option AnswerState :=
  match a.playerId, a.answer, a.isCorrect, a.responseTimeMs, a.submittedAt with
  | .text p, .text answer, some isCorrect, .number responseTimeMs, .number submittedAt =>
    if playerId ≠ p then none
    else
      match a.submissionId, version with
      | .text s, _ => some ⟨p, answer, s, isCorrect, responseTimeMs, submittedAt⟩
      | .undefined, .v1 =>
        some ⟨p, answer, "legacy-" ++ playerId ++ "-" ++ J.numberText submittedAt, isCorrect, responseTimeMs, submittedAt⟩
      | _, _ => none
  | _, _, _, _, _ => none

def decodeAnswers (J : StringOps) (version : StateVersion) :
    List (Option (String × WireAnswer)) → Option (List (String × AnswerState))
  | [] => some []
  | none :: _ => none
  | some e :: rest =>
    match decodeAnswer J version e.1 e.2, decodeAnswers J version rest with
    | some a, some l => some ((e.1, a) :: l)
    | _, _ => none

def decodeQuestion : Option WireQuestion → Option QuestionState
  | some ⟨.text id, .text content, some options, difficulty⟩ => some ⟨id, content, options, difficulty⟩
  | _ => none

/-- what `validateCurrentRoundShape` establishes -/
structure RoundShape where
  roundNo : ℕ
  question : QuestionState
  status : RoundStatus
  answers : List (String × AnswerState)
deriving DecidableEq

def validateCurrentRoundShape (J : StringOps) (round : WireRound) (version : StateVersion) : Option RoundShape :=
  if round.correctAnswer = .invalid then none
  else
    match round.answers.bind (decodeAnswers J version), decodeQuestion round.question, round.roundNo, round.status with
    | some answers, some question, some roundNo, some status => some ⟨roundNo, question, status, answers⟩
    | _, _, _, _ => none

structure ValidatedTimingFields where
  startedAt : Timing
  phaseEndsAt : Timing
  roundResultStartedAt : Timing
  currentRoundStartedAt : Timing
  currentRoundEndsAt : Timing
deriving DecidableEq

def validateMatchTiming (state : WireState) (round : Option WireRound) (version : StateVersion) :
    Except CodecError ValidatedTimingFields := do
  let startedAt ← validateTimingField state.startedAt true
  let phaseEndsAt ← validateTimingField state.phaseEndsAt true
  let roundResultStartedAt ← validateTimingField state.roundResultStartedAt true
  let currentRoundStartedAt ← validateTimingField ((round.map WireRound.startedAt).getD .undefined) true
  let currentRoundEndsAt ← validateTimingField ((round.map WireRound.endsAt).getD .undefined) true
  if version = .v2 ∧ phaseEndsAt = none then .error .missingPhaseEndsAt
  else .ok ⟨startedAt, phaseEndsAt, roundResultStartedAt, currentRoundStartedAt, currentRoundEndsAt⟩

/-- `phaseEndsAt` of a v1 blob from its persisted anchors -/
def backfillPhaseEndsAt (status : MatchStatus) (timing : ValidatedTimingFields) (roundResultStartedAt : Option Time) :
    Option Time :=
  match status with
  | .roundActive =>
    match timing.currentRoundEndsAt.join with
    | some e => some e
    | none => timing.currentRoundStartedAt.join.map (· + GameConfig.roundDurationMs)
  | .countdown => timing.startedAt.join.map (· + GameConfig.countdownDurationMs)
  | .roundResult => roundResultStartedAt.map (· + GameConfig.resultDisplayMs)
  | _ => none

def decodeMatchState (state : WireState) (players : List (String × PlayerInfo)) (version : StateVersion)
    (timing : ValidatedTimingFields) : MatchState :=
  let roundResultStartedAt := if state.status = .roundResult then timing.roundResultStartedAt.join else none
  let phaseEndsAt := timing.phaseEndsAt.getD (backfillPhaseEndsAt state.status timing roundResultStartedAt)
  { id := state.id
    roomId := state.roomId
    status := state.status
    currentRoundNo := state.currentRoundNo
    totalRounds := state.totalRounds
    players := JsMap.ofEntries players
    survivingPlayerIds := state.survivingPlayerIds
    eliminatedPlayerIds := state.eliminatedPlayerIds
    winnerId := state.winnerId
    startedAt := timing.startedAt.join
    endedAt := state.endedAt
    -- a v2 ROUND_RESULT deadline is recomputed from its anchor
    phaseEndsAt := if version = .v2 ∧ state.status = .roundResult then
        roundResultStartedAt.map (· + GameConfig.resultDisplayMs)
      else phaseEndsAt
    roundResultStartedAt := roundResultStartedAt
    candidateTopics := state.candidateTopics
    topicVotes := state.topicVotes
    bannedTopics := state.bannedTopics
    activeTopics := state.activeTopics }

def validateRoundTiming (version : StateVersion) (state : MatchState) (timing : ValidatedTimingFields)
    (startedAt endsAt : Option Time) : Except CodecError (Time × Time) :=
  match startedAt, endsAt with
  | some s, some e =>
    if e < s then .error .endsAtPrecedesStartedAt
    else if version = .v2 ∧ state.status = .roundActive ∧ timing.phaseEndsAt ≠ some (some e) then
      .error .phaseEndsAtMismatch
    else .ok (s, e)
  | _, _ => .error .noRoundTiming

def deserializeStartingPlayers : WireStartingPlayers → Option (List String)
  | .ids l => if l.Nodup then some l else none
  | _ => none

def decodeCurrentRound (round : WireRound) (shape : RoundShape) (version : StateVersion) (state : MatchState)
    (timing : ValidatedTimingFields) : Except CodecError Round :=
  let startedAt := timing.currentRoundStartedAt.join
  let endsAt := timing.currentRoundEndsAt.join
  let endsAt := if endsAt = none ∧ state.status = .roundActive then state.phaseEndsAt else endsAt
  let endsAt := if endsAt = none then startedAt.map (· + GameConfig.roundDurationMs) else endsAt
  let startedAt := if startedAt = none then endsAt.map (· - GameConfig.roundDurationMs) else startedAt
  match validateRoundTiming version state timing startedAt endsAt with
  | .error e => .error e
  | .ok (s, e) =>
    .ok
      { matchId := round.matchId
        roundNo := shape.roundNo
        question := shape.question
        startedAt := s
        endsAt := e
        answers := JsMap.ofEntries shape.answers
        status := shape.status
        startingPlayers := deserializeStartingPlayers round.startingPlayers
        correctAnswer := none }

/-- `seqNo` of a legacy entry is its position -/
def backfillEventSequence (eventLog : List WireEvent) : List EventLogEntry :=
  eventLog.zipIdx.map fun e => ⟨e.1.event, e.1.timestamp, e.1.seqNo.getD (e.2 + 1)⟩

structure DecodedMatch where
  state : MatchState
  currentRound : Option Round
  eventLog : List EventLogEntry
deriving DecidableEq

/-- `parseSerializedMatch`: version, state, players, event log and the round's shape -/
structure ParsedMatch where
  version : StateVersion
  state : WireState
  players : List (String × PlayerInfo)
  eventLog : List WireEvent
  round : Option (WireRound × RoundShape)
deriving DecidableEq

def parseSerializedMatch (J : StringOps) (json : Option WireMatch) : Except CodecError ParsedMatch :=
  match json with
  | none => .error .notJson
  | some parsed =>
    match supportedStateVersion parsed.stateVersion with
    | none => .error .unsupportedVersion
    | some version =>
      match parsed.state, parsed.state.bind WireState.players, parsed.eventLog with
      | some state, some players, some eventLog =>
        match parsed.currentRound with
        | none => .ok ⟨version, state, players, eventLog, none⟩
        | some round =>
          match validateCurrentRoundShape J round version with
          | none => .error .invalidMatchData
          | some shape => .ok ⟨version, state, players, eventLog, some (round, shape)⟩
      | _, _, _ => .error .invalidMatchData

def deserializeMatch (J : StringOps) (json : Option WireMatch) : Except CodecError DecodedMatch := do
  let p ← parseSerializedMatch J json
  let timing ← validateMatchTiming p.state (p.round.map Prod.fst) p.version
  let state := decodeMatchState p.state p.players p.version timing
  match p.round with
  | none => .ok ⟨state, none, backfillEventSequence p.eventLog⟩
  | some (round, shape) => do
    let currentRound ← decodeCurrentRound round shape p.version state timing
    .ok ⟨state, some currentRound, backfillEventSequence p.eventLog⟩

/-! ## What an accepted blob decodes to -/

/-- a timing field as it is read -/
def wireTiming : WireNumber → Timing
  | .null => some none
  | .number q => some (some q)
  | _ => none

theorem validateTimingField_ok {v : WireNumber} {t : Timing} (h : validateTimingField v true = .ok t) :
    t = wireTiming v ∧ v ≠ .invalid := by
  cases v with
  | undefined => exact ⟨(Except.ok.inj h).symm, by simp⟩
  | null => exact ⟨(Except.ok.inj h).symm, by simp⟩
  | number q => exact ⟨(Except.ok.inj h).symm, by simp⟩
  | invalid => cases h

/-- the timing fields of an accepted blob: none is ill-typed, and a v2 blob gives its deadline -/
structure TimingFrom (state : WireState) (round : Option WireRound) (version : StateVersion)
    (timing : ValidatedTimingFields) : Prop where
  fields : timing = ⟨wireTiming state.startedAt, wireTiming state.phaseEndsAt, wireTiming state.roundResultStartedAt,
    wireTiming ((round.map WireRound.startedAt).getD .undefined),
    wireTiming ((round.map WireRound.endsAt).getD .undefined)⟩
  stateValid : state.startedAt ≠ .invalid ∧ state.phaseEndsAt ≠ .invalid ∧ state.roundResultStartedAt ≠ .invalid
  roundValid : ∀ r ∈ round, r.startedAt ≠ .invalid ∧ r.endsAt ≠ .invalid
  deadline : version = .v2 → wireTiming state.phaseEndsAt ≠ none

theorem validateMatchTiming_ok {state : WireState} {round : Option WireRound} {version : StateVersion}
    {timing : ValidatedTimingFields} (h : validateMatchTiming state round version = .ok timing) :
    TimingFrom state round version timing := by
  simp only [validateMatchTiming, bind, Except.bind] at h
  split at h
  · cases h
  rename_i t1 h1
  split at h
  · cases h
  rename_i t2 h2
  split at h
  · cases h
  rename_i t3 h3
  split at h
  · cases h
  rename_i t4 h4
  split at h
  · cases h
  rename_i t5 h5
  obtain ⟨rfl, hstarted⟩ := validateTimingField_ok h1
  obtain ⟨rfl, hphase⟩ := validateTimingField_ok h2
  obtain ⟨rfl, hanchor⟩ := validateTimingField_ok h3
  obtain ⟨rfl, hroundStarted⟩ := validateTimingField_ok h4
  obtain ⟨rfl, hroundEnds⟩ := validateTimingField_ok h5
  split_ifs at h with hv
  refine ⟨(Except.ok.inj h).symm, ⟨hstarted, hphase, hanchor⟩, ?_, fun hversion hnone => hv ⟨hversion, hnone⟩⟩
  rintro r ⟨rfl⟩
  exact ⟨hroundStarted, hroundEnds⟩

/-- the deadline of the round that `decodeCurrentRound` settles on -/
def decodedEndsAt (state : MatchState) (timing : ValidatedTimingFields) : Option Time :=
  let endsAt := timing.currentRoundEndsAt.join
  let endsAt := if endsAt = none ∧ state.status = .roundActive then state.phaseEndsAt else endsAt
  if endsAt = none then timing.currentRoundStartedAt.join.map (· + GameConfig.roundDurationMs) else endsAt

section Round

variable {round : WireRound} {shape : RoundShape} {version : StateVersion} {state : MatchState}
  {timing : ValidatedTimingFields} {r : Round}

theorem decodeCurrentRound_ok (h : decodeCurrentRound round shape version state timing = .ok r) :
    ∃ startedAt endsAt, r =
      { matchId := round.matchId
        roundNo := shape.roundNo
        question := shape.question
        startedAt := startedAt
        endsAt := endsAt
        answers := JsMap.ofEntries shape.answers
        status := shape.status
        startingPlayers := deserializeStartingPlayers round.startingPlayers
        correctAnswer := none } := by
  simp only [decodeCurrentRound] at h
  split at h
  · cases h
  · rename_i s e _
    exact ⟨s, e, (Except.ok.inj h).symm⟩

/-- a decoded round has both times, in order; a v2 ROUND_ACTIVE deadline is the end of the round -/
theorem decodeCurrentRound_timing (h : decodeCurrentRound round shape version state timing = .ok r) :
    decodedEndsAt state timing = some r.endsAt ∧ r.startedAt ≤ r.endsAt ∧
      (version = .v2 → state.status = .roundActive → timing.phaseEndsAt = some (some r.endsAt)) := by
  simp only [decodeCurrentRound] at h
  split at h
  · cases h
  rename_i s e hv
  obtain rfl := Except.ok.inj h
  unfold validateRoundTiming at hv
  split at hv
  · rename_i s' e' _ he
    split_ifs at hv with hlt hmatch
    obtain ⟨rfl, rfl⟩ := Prod.mk.inj (Except.ok.inj hv)
    refine ⟨he, not_lt.1 hlt, fun hversion hactive => ?_⟩
    by_contra hne
    exact hmatch ⟨hversion, hactive, hne⟩
  · cases hv

end Round

theorem decodeAnswer_playerId {J : StringOps} {version : StateVersion} {playerId : String} {w : WireAnswer}
    {a : AnswerState} (h : decodeAnswer J version playerId w = some a) : a.playerId = playerId := by
  unfold decodeAnswer at h
  split at h
  · split_ifs at h with hne
    split at h
    · rw [← Option.some.inj h]
      exact (not_not.1 hne).symm
    · rw [← Option.some.inj h]
      exact (not_not.1 hne).symm
    · cases h
  · cases h

theorem decodeAnswers_playerIds {J : StringOps} {version : StateVersion}
    {l : List (Option (String × WireAnswer))} {answers : List (String × AnswerState)}
    (h : decodeAnswers J version l = some answers) : ∀ e ∈ answers, e.2.playerId = e.1 := by
  induction l generalizing answers with
  | nil =>
    obtain rfl := Option.some.inj h
    simp
  | cons x l ih =>
    cases x with
    | none => cases h
    | some x =>
      simp only [decodeAnswers] at h
      split at h
      · rename_i a rest ha hrest
        obtain rfl := Option.some.inj h
        rintro e (_ | ⟨_, he⟩)
        · exact decodeAnswer_playerId ha
        · exact ih hrest e he
      · cases h

theorem validateCurrentRoundShape_ok {J : StringOps} {round : WireRound} {version : StateVersion} {shape : RoundShape}
    (h : validateCurrentRoundShape J round version = some shape) :
    round.roundNo = some shape.roundNo ∧ round.answers.bind (decodeAnswers J version) = some shape.answers := by
  unfold validateCurrentRoundShape at h
  split_ifs at h
  split at h
  · rename_i answers question roundNo status hanswers _ hroundNo _
    obtain rfl := Option.some.inj h
    exact ⟨hroundNo, hanswers⟩
  · cases h

/-- what `parseSerializedMatch` takes from the blob it accepts -/
structure ParsedFrom (J : StringOps) (b : WireMatch) (p : ParsedMatch) : Prop where
  version : supportedStateVersion b.stateVersion = some p.version
  state : b.state = some p.state
  eventLog : p.eventLog = b.eventLog.getD []
  round : p.round.map Prod.fst = b.currentRound
  shape : ∀ x, p.round = some x → validateCurrentRoundShape J x.1 p.version = some x.2

theorem parseSerializedMatch_ok {J : StringOps} {b : WireMatch} {p : ParsedMatch}
    (h : parseSerializedMatch J (some b) = .ok p) : ParsedFrom J b p := by
  simp only [parseSerializedMatch] at h
  split at h
  · cases h
  rename_i version hversion
  split at h
  · rename_i state players log hstate _ hlog
    have hdefault : log = b.eventLog.getD [] := by rw [hlog, Option.getD_some]
    split at h
    · rename_i hround
      obtain rfl := Except.ok.inj h
      exact ⟨hversion, hstate, hdefault, hround.symm, fun x hx => by cases hx⟩
    · rename_i round hround
      split at h
      · cases h
      · rename_i shape hshape
        obtain rfl := Except.ok.inj h
        refine ⟨hversion, hstate, hdefault, hround.symm, ?_⟩
        rintro x ⟨rfl⟩
        exact hshape
  · cases h

/-- a decoded match and the stages it was decoded through -/
structure DecodedFrom (J : StringOps) (b : WireMatch) (d : DecodedMatch) (p : ParsedMatch)
    (timing : ValidatedTimingFields) : Prop where
  parsed : ParsedFrom J b p
  timed : TimingFrom p.state b.currentRound p.version timing
  state : d.state = decodeMatchState p.state p.players p.version timing
  eventLog : d.eventLog = backfillEventSequence (b.eventLog.getD [])
  noRound : p.round = none → d.currentRound = none
  round : ∀ x, p.round = some x → ∃ r, decodeCurrentRound x.1 x.2 p.version d.state timing = .ok r ∧
    d.currentRound = some r

/-- **What an accepted blob decodes to.** -/
theorem deserializeMatch_ok {J : StringOps} {b : WireMatch} {d : DecodedMatch}
    (h : deserializeMatch J (some b) = .ok d) : ∃ p timing, DecodedFrom J b d p timing := by
  unfold deserializeMatch at h
  cases hp : parseSerializedMatch J (some b) with
  | error e =>
    rw [hp] at h
    cases h
  | ok p =>
    have hparsed := parseSerializedMatch_ok hp
    simp only [hp, bind, Except.bind, hparsed.round, hparsed.eventLog] at h
    cases ht : validateMatchTiming p.state b.currentRound p.version with
    | error e =>
      rw [ht] at h
      cases h
    | ok timing =>
      simp only [ht] at h
      cases hround : p.round with
      | none =>
        simp only [hround] at h
        obtain rfl := Except.ok.inj h
        exact ⟨p, timing, hparsed, validateMatchTiming_ok ht, rfl, rfl, fun _ => rfl,
          fun x hx => by rw [hround] at hx; cases hx⟩
      | some x =>
        simp only [hround] at h
        cases hr : decodeCurrentRound x.1 x.2 p.version (decodeMatchState p.state p.players p.version timing) timing with
        | error e =>
          rw [hr] at h
          cases h
        | ok r =>
          simp only [hr] at h
          obtain rfl := Except.ok.inj h
          refine ⟨p, timing, hparsed, validateMatchTiming_ok ht, rfl, rfl,
            fun hx => (by rw [hround] at hx; cases hx), fun y hy => ?_⟩
          obtain rfl := Option.some.inj (hround.symm.trans hy)
          exact ⟨r, hr, rfl⟩

theorem DecodedFrom.of_round {J : StringOps} {b : WireMatch} {d : DecodedMatch} {p : ParsedMatch}
    {timing : ValidatedTimingFields} (h : DecodedFrom J b d p timing) {r : Round} (hr : d.currentRound = some r) :
    ∃ x, p.round = some x ∧ decodeCurrentRound x.1 x.2 p.version d.state timing = .ok r := by
  cases hx : p.round with
  | none =>
    rw [h.noRound hx] at hr
    cases hr
  | some x =>
    obtain ⟨r', hdecoded, hr'⟩ := h.round x hx
    obtain rfl := Option.some.inj (hr'.symm.trans hr)
    exact ⟨x, rfl, hdecoded⟩

namespace Machine

def serialize (m : Machine) : WireMatch := serializeMatch m.state m.currentRound m.eventLog

/-- `MatchStateMachine.deserialize`: the decoded data, the sequence counter and the rebuilt mirrors -/
def deserialize (J : StringOps) (json : Option WireMatch) : Except CodecError Machine :=
  (deserializeMatch J json).map fun d =>
    { state := d.state
      currentRound := d.currentRound
      eventLog := d.eventLog
      eventSeqCounter := d.eventLog.foldl (fun acc e => max e.seqNo acc) 0
      cards := rehydrateCardStateFromEventLog d.eventLog
      eliminatedFrozen := false }

/-- what is decoded: the counter and the mirrors are rebuilt from the decoded log -/
theorem deserialize_ok {J : StringOps} {b : WireMatch} {m : Machine} (h : deserialize J (some b) = .ok m) :
    deserializeMatch J (some b) = .ok ⟨m.state, m.currentRound, m.eventLog⟩ ∧
      m.eventSeqCounter = m.eventLog.foldl (fun acc e => max e.seqNo acc) 0 ∧
      m.cards = rehydrateCardStateFromEventLog m.eventLog := by
  unfold deserialize at h
  cases hd : deserializeMatch J (some b) with
  | error e =>
    rw [hd] at h
    cases h
  | ok d =>
    rw [hd] at h
    rw [← Except.ok.inj h]
    exact ⟨rfl, rfl, rfl⟩

/-- a decoded machine has the log of its blob, and no answer key -/
theorem deserialize_decoded {J : StringOps} {b : WireMatch} {m : Machine} (h : deserialize J (some b) = .ok m) :
    m.eventLog = backfillEventSequence (b.eventLog.getD []) ∧ ∀ r, m.currentRound = some r → r.correctAnswer = none := by
  obtain ⟨p, timing, hd⟩ := deserializeMatch_ok (deserialize_ok h).1
  refine ⟨hd.eventLog, fun r hr => ?_⟩
  obtain ⟨x, -, hdecoded⟩ := hd.of_round hr
  obtain ⟨_, _, rfl⟩ := decodeCurrentRound_ok hdecoded
  rfl

/-- owner failover: a fresh instance decoded from the serialized one; an undecodable blob leaves the machine -/
def failover (J : StringOps) (m : Machine) : Machine :=
  match deserialize J (some m.serialize) with
  | .ok m' => m'
  | .error _ => m

/-- a step of a match's life: a call on the live instance, or a failover -/
inductive Action where
  | call (o : Op)
  | failover

def act (J : StringOps) (m : Machine) : Action → Machine
  | .call o => m.step J o
  | .failover => m.failover J

/-- the callers' contract: a given round duration is not negative -/
def Action.validDuration : Action → Prop
  | .call (.startRound _ (some d) _) => 0 ≤ d
  | _ => True

instance : DecidablePred Action.validDuration := fun a => by
  unfold Action.validDuration
  split <;> infer_instance

/-! ## The decoder on what the machine writes -/

/-- the round as the wire carries it -/
def withoutKey (r : Round) : Round := { r with correctAnswer := none }

/-- what the decoder checks, of a live machine -/
structure WireInv (m : Machine) : Prop where
  active : m.state.status = .roundActive → m.state.phaseEndsAt = m.currentRound.map Round.endsAt
  result : m.state.status = .roundResult →
    m.state.phaseEndsAt = m.state.roundResultStartedAt.map (· + GameConfig.resultDisplayMs)
  anchor : m.state.status ≠ .roundResult → m.state.roundResultStartedAt = none
  keyed : ∀ r, m.currentRound = some r → ∀ e ∈ r.answers.entries, e.2.playerId = e.1
  starting : ∀ r, m.currentRound = some r → ∀ l, r.startingPlayers = some l → l.Nodup
  surviving : m.state.survivingPlayerIds.Nodup

/-- the part of it that decoding what the machine writes needs -/
structure Encodable (m : Machine) : Prop where
  active : m.state.status = .roundActive → ∀ r, m.currentRound = some r → m.state.phaseEndsAt = some r.endsAt
  result : m.state.status = .roundResult →
    m.state.phaseEndsAt = m.state.roundResultStartedAt.map (· + GameConfig.resultDisplayMs)
  anchor : m.state.status ≠ .roundResult → m.state.roundResultStartedAt = none
  keyed : ∀ r, m.currentRound = some r → ∀ e ∈ r.answers.entries, e.2.playerId = e.1
  starting : ∀ r, m.currentRound = some r → ∀ l, r.startingPlayers = some l → l.Nodup

theorem WireInv.encodable {m : Machine} (h : WireInv m) : Encodable m where
  active hs r hr := by rw [h.active hs, hr]; rfl
  result := h.result
  anchor := h.anchor
  keyed := h.keyed
  starting := h.starting

/-- the round does not end before it starts -/
def Timed (m : Machine) : Prop := ∀ r, m.currentRound = some r → r.startedAt ≤ r.endsAt

theorem decodeAnswer_encode (J : StringOps) (a : AnswerState) :
    decodeAnswer J .v2 a.playerId (encodeAnswer a) = some a := by
  simp [decodeAnswer, encodeAnswer]

theorem decodeAnswers_encode (J : StringOps) (l : List (String × AnswerState)) (h : ∀ e ∈ l, e.2.playerId = e.1) :
    decodeAnswers J .v2 (l.map fun e => some (e.1, encodeAnswer e.2)) = some l := by
  induction l with
  | nil => rfl
  | cons e l ih =>
    have hk : decodeAnswer J .v2 e.1 (encodeAnswer e.2) = some e.2 := by
      rw [← h e (by simp)]
      exact decodeAnswer_encode J e.2
    have ht := ih fun x hx => h x (by simp [hx])
    simp only [List.map_cons, decodeAnswers, ht, hk]

/-- an answer decodes only under its own player -/
theorem decodeAnswers_keyed {J : StringOps} {version : StateVersion} {l : List (String × AnswerState)}
    {l' : List (String × AnswerState)}
    (h : decodeAnswers J version (l.map fun e => some (e.1, encodeAnswer e.2)) = some l') :
    ∀ e ∈ l, e.2.playerId = e.1 := by
  induction l generalizing l' with
  | nil => simp
  | cons e l ih =>
    simp only [List.map_cons, decodeAnswers] at h
    split at h
    · rename_i a rest ha hrest
      have hkey : e.1 = e.2.playerId := by
        by_contra hne
        simp [decodeAnswer, encodeAnswer, hne] at ha
      rintro x (_ | ⟨_, hx⟩)
      · exact hkey.symm
      · exact ih hrest x hx
    · cases h

theorem backfill_encode (log : List EventLogEntry) :
    backfillEventSequence (log.map fun e => ⟨e.event, e.timestamp, some e.seqNo⟩) = log := by
  unfold backfillEventSequence
  rw [List.zipIdx_map, List.map_map]
  conv_rhs => rw [← List.map_id log, ← List.zipIdx_map_fst 0 log, List.map_map]
  rfl

theorem validate_wireTime (t : Option Time) : validateTimingField (wireTime t) true = .ok (some t) := by
  cases t <;> rfl

theorem wireTiming_wireTime (t : Option Time) : wireTiming (wireTime t) = some t := by
  cases t <;> rfl

theorem shape_encode (J : StringOps) (r : Round) (h : ∀ e ∈ r.answers.entries, e.2.playerId = e.1) :
    validateCurrentRoundShape J (encodeRound r) .v2 = some ⟨r.roundNo, r.question, r.status, r.answers.entries⟩ := by
  simp [validateCurrentRoundShape, encodeRound, decodeAnswers_encode J _ h, decodeQuestion]

theorem decodeState_encode (m : Machine) (h : Encodable m) (rs re : Timing) :
    decodeMatchState (encodeState m.state) m.state.players.entries .v2
      ⟨some m.state.startedAt, some m.state.phaseEndsAt, some m.state.roundResultStartedAt, rs, re⟩ = m.state := by
  -- the statuses are compared before the wire record is unfolded
  by_cases hs : (encodeState m.state).status = .roundResult
  · simp only [decodeMatchState, if_pos hs, true_and, Option.join_some, JsMap.ofEntries_entries]
    rw [← h.result hs]
    rfl
  · simp only [decodeMatchState, if_neg hs, true_and, Option.join_some, Option.getD_some, JsMap.ofEntries_entries]
    rw [← h.anchor hs]
    rfl

theorem decodeRound_encode (m : Machine) (h : Encodable m) (ht : Timed m) (r : Round) (hr : m.currentRound = some r) :
    decodeCurrentRound (encodeRound r) ⟨r.roundNo, r.question, r.status, r.answers.entries⟩ .v2 m.state
      ⟨some m.state.startedAt, some m.state.phaseEndsAt, some m.state.roundResultStartedAt, some (some r.startedAt),
        some (some r.endsAt)⟩ = .ok (withoutKey r) := by
  have hle : ¬r.endsAt < r.startedAt := not_lt.2 (ht r hr)
  have hph : m.state.status = .roundActive → m.state.phaseEndsAt = some r.endsAt := fun hs => h.active hs r hr
  have hst : deserializeStartingPlayers (encodeRound r).startingPlayers = r.startingPlayers := by
    cases hl : r.startingPlayers with
    | none => simp [encodeRound, hl, deserializeStartingPlayers]
    | some l => simp [encodeRound, hl, deserializeStartingPlayers, h.starting r hr l hl]
  have hv : validateRoundTiming .v2 m.state
      ⟨some m.state.startedAt, some m.state.phaseEndsAt, some m.state.roundResultStartedAt, some (some r.startedAt),
        some (some r.endsAt)⟩ (some r.startedAt) (some r.endsAt) = .ok (r.startedAt, r.endsAt) := by
    simp only [validateRoundTiming, hle, if_false, true_and, ne_eq, Option.some.injEq]
    rw [if_neg]
    rintro ⟨hs, hne⟩
    exact hne (hph hs)
  simp only [decodeCurrentRound, Option.join_some, reduceCtorEq, false_and, if_false, hv, hst]
  simp [withoutKey, encodeRound, JsMap.ofEntries_entries]

/-- the round's shape as the parser reads it back -/
def shapeOf (r : Round) : RoundShape := ⟨r.roundNo, r.question, r.status, r.answers.entries⟩

theorem parse_serialize (J : StringOps) (m : Machine)
    (h : ∀ r, m.currentRound = some r → ∀ e ∈ r.answers.entries, e.2.playerId = e.1) :
    parseSerializedMatch J (some (serializeMatch m.state m.currentRound m.eventLog)) =
      .ok ⟨.v2, encodeState m.state, m.state.players.entries,
        m.eventLog.map fun e => ⟨e.event, e.timestamp, some e.seqNo⟩,
        m.currentRound.map fun r => (encodeRound r, shapeOf r)⟩ := by
  have hv : supportedStateVersion (.number 2) = some .v2 := by simp [supportedStateVersion]
  cases hr : m.currentRound with
  | none => simp [parseSerializedMatch, serializeMatch, hv, encodeState]
  | some r => simp [parseSerializedMatch, serializeMatch, hv, encodeState, shape_encode J r (h r hr), shapeOf]

theorem timing_serialize (s : MatchState) (round : Option Round) :
    validateMatchTiming (encodeState s) (round.map encodeRound) .v2 =
      .ok ⟨some s.startedAt, some s.phaseEndsAt, some s.roundResultStartedAt,
        round.map fun r => some r.startedAt, round.map fun r => some r.endsAt⟩ := by
  have h1 : validateTimingField .undefined true = .ok none := rfl
  have h2 : ∀ t, validateTimingField (.number t) true = .ok (some (some t)) := fun _ => rfl
  cases round <;>
    simp [validateMatchTiming, encodeState, encodeRound, validate_wireTime, h1, h2, bind, Except.bind]

/-- the timing fields the decoder reads back -/
def timingOf (s : MatchState) (round : Option Round) : ValidatedTimingFields :=
  ⟨some s.startedAt, some s.phaseEndsAt, some s.roundResultStartedAt, round.map fun r => some r.startedAt,
    round.map fun r => some r.endsAt⟩

/-- decoding what the machine writes comes down to decoding its round -/
theorem deserialize_round (J : StringOps) (m : Machine) (h : Encodable m) :
    deserializeMatch J (some (serializeMatch m.state m.currentRound m.eventLog)) =
      match m.currentRound with
      | none => .ok ⟨m.state, none, m.eventLog⟩
      | some r =>
        match decodeCurrentRound (encodeRound r) (shapeOf r) .v2 m.state (timingOf m.state (some r)) with
        | .error e => .error e
        | .ok round => .ok ⟨m.state, some round, m.eventLog⟩ := by
  have hround : (m.currentRound.map fun r => (encodeRound r, shapeOf r)).map Prod.fst =
      m.currentRound.map encodeRound := by
    rw [Option.map_map]; rfl
  simp only [deserializeMatch, parse_serialize J m h.keyed, bind, Except.bind, hround, timing_serialize,
    decodeState_encode m h, backfill_encode]
  cases m.currentRound with
  | none => rfl
  | some r =>
    simp only [Option.map_some, timingOf]
    generalize decodeCurrentRound _ _ _ _ _ = decoded
    cases decoded <;> rfl

/-- a machine that meets the decoder's checks comes back unchanged but for the answer key -/
theorem deserialize_serialize (J : StringOps) (m : Machine) (h : Encodable m) (ht : Timed m) :
    deserializeMatch J (some (serializeMatch m.state m.currentRound m.eventLog)) =
      .ok ⟨m.state, m.currentRound.map withoutKey, m.eventLog⟩ := by
  rw [deserialize_round J m h]
  cases hr : m.currentRound with
  | none => rfl
  | some r =>
    have hd : decodeCurrentRound (encodeRound r) (shapeOf r) .v2 m.state (timingOf m.state (some r)) =
      .ok (withoutKey r) := decodeRound_encode m h ht r hr
    simp only [hd, Option.map_some]

/-- a round that ends before it starts is rejected -/
theorem deserialize_untimed (J : StringOps) (m : Machine) (h : Encodable m) (ht : ¬Timed m) :
    deserializeMatch J (some (serializeMatch m.state m.currentRound m.eventLog)) = .error .endsAtPrecedesStartedAt := by
  simp only [Timed, not_forall, not_le] at ht
  obtain ⟨r, hr, hlt⟩ := ht
  rw [deserialize_round J m h, hr]
  simp only [decodeCurrentRound, timingOf, Option.map_some, Option.join_some, reduceCtorEq, false_and, if_false,
    validateRoundTiming, hlt, if_true]

/-- a machine that decodes has its answers under their own players -/
theorem keyed_of_decoded {J : StringOps} {m m' : Machine} (h : deserialize J (some m.serialize) = .ok m') :
    ∀ r, m.currentRound = some r → ∀ e ∈ r.answers.entries, e.2.playerId = e.1 := by
  intro r hr
  have hv : supportedStateVersion (.number 2) = some .v2 := by simp [supportedStateVersion]
  cases hshape : validateCurrentRoundShape J (encodeRound r) .v2 with
  | none =>
    have hparse : parseSerializedMatch J (some m.serialize) = .error .invalidMatchData := by
      simp [parseSerializedMatch, serialize, serializeMatch, hv, encodeState, hr, hshape]
    simp [deserialize, deserializeMatch, hparse, bind, Except.bind, Except.map] at h
  | some shape => exact decodeAnswers_keyed (validateCurrentRoundShape_ok hshape).2

/-- what a machine and the machine its blob decodes to share, whether or not the decoder's other checks are met -/
theorem deserialize_kept {J : StringOps} {m m' : Machine} (h : deserialize J (some m.serialize) = .ok m') :
    m'.state.survivingPlayerIds = m.state.survivingPlayerIds ∧ m'.eventLog = m.eventLog ∧
      ∀ r, m.currentRound = some r → ∃ startedAt endsAt, m'.currentRound = some
        { withoutKey r with
          startedAt := startedAt
          endsAt := endsAt
          startingPlayers := r.startingPlayers.filter fun l => decide l.Nodup } := by
  have hlog : m'.eventLog = m.eventLog := by
    rw [(deserialize_decoded h).1]
    exact backfill_encode m.eventLog
  have hround : (m.currentRound.map fun r => (encodeRound r, shapeOf r)).map Prod.fst =
      m.currentRound.map encodeRound := by
    rw [Option.map_map]; rfl
  have hkeyed := keyed_of_decoded h
  simp only [deserialize, serialize, deserializeMatch, parse_serialize J m hkeyed, bind, Except.bind, hround,
    timing_serialize] at h
  cases hr : m.currentRound with
  | none =>
    simp only [hr, Option.map_none, Except.map] at h
    rw [← Except.ok.inj h] at hlog ⊢
    exact ⟨rfl, hlog, fun r hx => by cases hx⟩
  | some r =>
    simp only [hr, Option.map_some] at h
    cases hd : decodeCurrentRound (encodeRound r) (shapeOf r) .v2
        (decodeMatchState (encodeState m.state) m.state.players.entries .v2 (timingOf m.state (some r)))
        (timingOf m.state (some r)) with
    | error e =>
      simp only [timingOf, Option.map_some] at hd
      simp [hd, Except.map] at h
    | ok round =>
      obtain ⟨startedAt, endsAt, hdecoded⟩ := decodeCurrentRound_ok hd
      simp only [timingOf, Option.map_some] at hd
      simp only [hd, Except.map] at h
      rw [← Except.ok.inj h] at hlog ⊢
      refine ⟨rfl, hlog, ?_⟩
      rintro x ⟨rfl⟩
      refine ⟨startedAt, endsAt, ?_⟩
      simp only [hdecoded, shapeOf, JsMap.ofEntries_entries, withoutKey, encodeRound, Option.some.injEq, Round.mk.injEq,
        true_and, and_true]
      cases r.startingPlayers with
      | none => rfl
      | some l => simp [deserializeStartingPlayers, Option.filter]

/-! ## Every reachable machine meets the decoder's checks -/

theorem wireInv_create (matchId roomId : String) (players : List PlayerInfo)
    (hd : (players.map PlayerInfo.id).Nodup) : WireInv (Machine.create matchId roomId players) where
  active := nofun
  result := nofun
  anchor _ := rfl
  keyed _ hr := nomatch hr
  starting _ hr := nomatch hr
  surviving := hd

theorem nodup_roundPlayers {m : Machine} (h : WireInv m) {round : Round} (hr : m.currentRound = some round) :
    (m.roundPlayers round).Nodup := by
  unfold roundPlayers
  cases hl : round.startingPlayers with
  | none => exact h.surviving
  | some l => exact h.starting round hr l hl

/-- entering a status sets the timing fields the decoder expects there -/
theorem enterStatus_wireInv {m : Machine} (h : WireInv m) (target : MatchStatus) (now : Clock)
    (ht : target ≠ .created) : WireInv (m.enterStatus target now) := by
  cases target with
  | created => exact absurd rfl ht
  | topicVoting => exact { h with active := nofun, result := nofun, anchor := fun _ => rfl }
  | countdown => exact { h with active := nofun, result := nofun, anchor := fun _ => rfl }
  | roundResult => exact { h with active := nofun, result := fun _ => rfl, anchor := fun hn => absurd rfl hn }
  | finished => exact { h with active := nofun, result := nofun, anchor := fun _ => rfl }
  | roundEvaluating => exact { h with active := nofun, result := nofun, anchor := fun _ => rfl }
  | roundActive =>
    exact
      { active := fun _ => rfl
        result := nofun
        anchor := fun _ => rfl
        keyed := fun _ hr => nomatch hr
        starting := fun _ hr => nomatch hr
        surviving := h.surviving }

/-- a new version of the current round with the same deadline keeps the invariant -/
theorem WireInv.update_round {m m' : Machine} (h : WireInv m) {r r' : Round} (hr : m.currentRound = some r)
    (hr' : m'.currentRound = some r') (hs : m'.state.status = m.state.status)
    (hp : m'.state.phaseEndsAt = m.state.phaseEndsAt)
    (ha : m'.state.roundResultStartedAt = m.state.roundResultStartedAt) (hen : r'.endsAt = r.endsAt) (hk : ∀ e ∈ r'.answers.entries, e.2.playerId = e.1)
    (hsp : r'.startingPlayers = r.startingPlayers) (hsv : m'.state.survivingPlayerIds.Nodup) : WireInv m' where
  active hs' := by rw [hp, h.active (hs ▸ hs'), hr, hr', Option.map_some, Option.map_some, hen]
  result hs' := by rw [hp, ha]; exact h.result (hs ▸ hs')
  anchor hs' := by rw [ha]; exact h.anchor (hs ▸ hs')
  keyed x hx := by
    obtain rfl : r' = x := Option.some.inj (hr'.symm.trans hx)
    exact hk
  starting x hx l hl := by
    obtain rfl : r' = x := Option.some.inj (hr'.symm.trans hx)
    exact h.starting r hr l (hsp ▸ hl)
  surviving := hsv

theorem WireInv.of_eq {m m' : Machine} (h : WireInv m) (hs : m'.state.status = m.state.status)
    (hp : m'.state.phaseEndsAt = m.state.phaseEndsAt)
    (ha : m'.state.roundResultStartedAt = m.state.roundResultStartedAt) (hr : m'.currentRound = m.currentRound)
    (hsv : m'.state.survivingPlayerIds = m.state.survivingPlayerIds) : WireInv m' where
  active := by rw [hs, hp, hr]; exact h.active
  result := by rw [hs, hp, ha]; exact h.result
  anchor := by rw [hs, ha]; exact h.anchor
  keyed := by rw [hr]; exact h.keyed
  starting := by rw [hr]; exact h.starting
  surviving := by rw [hsv]; exact h.surviving

theorem change_wireInv {J : StringOps} {m m' : Machine} {o : Op} (hc : Change J m o m') (h : WireInv m) :
    WireInv m' := by
  cases hc with
  | same o => exact h
  | transition target now ht =>
    have h1 : WireInv (m.logEvent (.stateTransition m.state.status target) (now 0)) := h.of_eq rfl rfl rfl rfl rfl
    refine enterStatus_wireInv h1 target now ?_
    rintro rfl
    revert ht
    cases m.state.status <;> simp [validTransitions]
  | startRound q d now hs =>
    exact
      { active := fun _ => rfl
        result := fun hs' => absurd (hs.symm.trans hs') (by decide)
        anchor := fun _ => rfl
        keyed := fun r hr => by obtain rfl := Option.some.inj hr; simp [newRound, JsMap.empty]
        starting := fun r hr l hl => by
          obtain rfl := Option.some.inj hr
          obtain rfl := Option.some.inj hl
          exact h.surviving
        surviving := h.surviving }
  | answer round p a ts sid retry now hr _ _ _ _ =>
    obtain ⟨hs, -⟩ := consumeChance_frame m round p retry (now 0)
    refine h.update_round hr rfl ?_ ?_ ?_ rfl ?_ rfl ?_ <;>
      simp only [recordAnswer, logEvent_state, newAnswer, hs, h.surviving]
    intro e he
    rcases JsMap.mem_set_entries he with rfl | he
    · rfl
    · exact h.keyed round hr e he
  | evaluated round now hr _ =>
    exact h.update_round hr rfl rfl rfl rfl rfl (h.keyed round hr) rfl ((nodup_roundPlayers h hr).filter _)
  | evaluateStuck round now hr _ =>
    exact h.update_round hr rfl rfl rfl rfl rfl (h.keyed round hr) rfl ((nodup_roundPlayers h hr).filter _)
  | winner now =>
    obtain ⟨hs, hr, -⟩ := determineWinner_frame m now
    exact h.of_eq (by rw [hs]) (by rw [hs]) (by rw [hs]) hr (by rw [hs])
  | finish now =>
    obtain ⟨hs, hr, -⟩ := determineWinner_frame m now
    refine h.of_eq ?_ ?_ ?_ hr ?_ <;> simp only [crown, logEvent_state, hs]
  | offline p player now _ => exact h.of_eq rfl rfl rfl rfl rfl
  | disconnect p player now _ _ => exact h.of_eq rfl rfl rfl rfl rfl
  | reconnect p player now _ => exact h.of_eq rfl rfl rfl rfl rfl
  | attach round key hr _ => exact h.update_round hr rfl rfl rfl rfl rfl (h.keyed round hr) rfl h.surviving
  | initRejected c d now _ => exact h.of_eq rfl rfl rfl rfl rfl
  | initVoting c d now _ =>
    have h1 : WireInv (m.resetTopics (m.candidatesFor c)) := h.of_eq rfl rfl rfl rfl rfl
    have hactive : MatchStatus.topicVoting ≠ .roundActive := by decide
    have hresult : MatchStatus.topicVoting ≠ .roundResult := by decide
    exact { h1 with active := fun h => absurd h hactive, result := fun h => absurd h hresult, anchor := fun _ => rfl }
  | vote votes p t e now => exact h.of_eq rfl rfl rfl rfl rfl
  | resolveTopics n r now => exact h.of_eq rfl rfl rfl rfl rfl
  | classes ids s now => exact h.of_eq rfl rfl rfl rfl rfl
  | offer p r s cards now _ => exact h.of_eq rfl rfl rfl rfl rfl
  | pick p c hand r o e i now _ => exact h.of_eq rfl rfl rfl rfl rfl
  | play round p now hr _ _ =>
    obtain ⟨hs, hr'⟩ := applyPlay_frame (m.logEvent (.cardResolved (m.resolvedPayload round p)) (now 0)) round p
      (m.eventSeqCounter + 1) now
    exact h.of_eq (by rw [hs]; rfl) (by rw [hs]; rfl) (by rw [hs]; rfl) (by rw [hr']; rfl) (by rw [hs]; rfl)

theorem change_timed {J : StringOps} {m m' : Machine} {o : Op} (hc : Change J m o m')
    (hd : Action.validDuration (.call o)) (h : Timed m) : Timed m' := by
  -- a new version of the round keeps its two times
  have upd : ∀ {m' : Machine} {r r' : Round}, m.currentRound = some r → m'.currentRound = some r' →
      r'.startedAt = r.startedAt → r'.endsAt = r.endsAt → Timed m' := by
    intro m' r r' hr hr' hs he x hx
    obtain rfl : r' = x := Option.some.inj (hr'.symm.trans hx)
    rw [hs, he]
    exact h r hr
  cases hc with
  | transition target now _ =>
    cases target with
    | roundActive => exact fun r hr => nomatch hr
    | _ => exact h
  | startRound q d now _ =>
    intro r hr
    obtain rfl := Option.some.inj hr
    cases d with
    | none => simp [newRound, GameConfig.roundDurationMs]
    | some d => simpa [newRound, Action.validDuration] using hd
  | answer round p a ts sid retry now hr _ _ _ _ => exact upd hr rfl rfl rfl
  | evaluated round now hr _ => exact upd hr rfl rfl rfl
  | evaluateStuck round now hr _ => exact upd hr rfl rfl rfl
  | winner now =>
    unfold Timed
    rw [(determineWinner_frame m now).2.1]
    exact h
  | finish now =>
    have hr : ((m.determineWinner now).1.crown (m.determineWinner now).2 now).currentRound = m.currentRound :=
      (determineWinner_frame m now).2.1
    unfold Timed
    rw [hr]
    exact h
  | attach round key hr _ => exact upd hr rfl rfl rfl
  | play round p now _ _ _ =>
    unfold Timed
    rw [(applyPlay_frame _ round p _ now).2]
    exact h
  | _ => exact h

/-- the machine decoded from the serialized one -/
def recovered (m : Machine) : Machine where
  state := m.state
  currentRound := m.currentRound.map withoutKey
  eventLog := m.eventLog
  eventSeqCounter := m.eventLog.foldl (fun acc e => max e.seqNo acc) 0
  cards := rehydrateCardStateFromEventLog m.eventLog
  eliminatedFrozen := false

/-- what the blob of a timed machine decodes to -/
theorem deserialize_recovered (J : StringOps) (m : Machine) (hw : WireInv m) (ht : Timed m) :
    deserialize J (some m.serialize) = .ok m.recovered := by
  rw [deserialize, Machine.serialize, deserialize_serialize J m hw.encodable ht]
  rfl

/-- a blob that is accepted decodes to the recovered machine -/
theorem deserialize_eq {J : StringOps} {m m' : Machine} (hw : WireInv m)
    (h : deserialize J (some m.serialize) = .ok m') : m' = m.recovered := by
  by_cases ht : Timed m
  · rw [deserialize_recovered J m hw ht] at h
    exact (Except.ok.inj h).symm
  · rw [deserialize, Machine.serialize, deserialize_untimed J m hw.encodable ht] at h
    cases h

theorem failover_eq (J : StringOps) (m : Machine) (h : WireInv m) (ht : Timed m) : m.failover J = m.recovered := by
  simp only [failover, deserialize_recovered J m h ht]

/-- a failover leaves the decoded machine, or the blob is rejected and the machine stays -/
theorem failover_cases (J : StringOps) (m : Machine) (h : WireInv m) :
    m.failover J = m.recovered ∨ m.failover J = m := by
  by_cases ht : Timed m
  · exact .inl (failover_eq J m h ht)
  · right
    simp only [failover, deserialize, serialize, deserialize_untimed J m h.encodable ht, Except.map]

theorem recovered_wireInv (m : Machine) (h : WireInv m) : WireInv m.recovered := by
  cases hr : m.currentRound with
  | none => exact h.of_eq rfl rfl rfl (by simp [recovered, hr]) rfl
  | some r =>
    have hr' : m.recovered.currentRound = some (withoutKey r) := by simp [recovered, hr]
    exact h.update_round hr hr' rfl rfl rfl rfl (h.keyed r hr) rfl h.surviving

theorem act_wireInv (J : StringOps) (m : Machine) (a : Action) (h : WireInv m) : WireInv (m.act J a) := by
  cases a with
  | call o => exact change_wireInv (step_change J m o) h
  | failover =>
    rcases failover_cases J m h with hf | hf <;> simp only [act, hf]
    · exact recovered_wireInv m h
    · exact h

theorem act_timed (J : StringOps) (m : Machine) (a : Action) (hd : a.validDuration) (hw : WireInv m) (h : Timed m) :
    Timed (m.act J a) := by
  cases a with
  | call o => exact change_timed (step_change J m o) hd h
  | failover =>
    rw [act, failover_eq J m hw h]
    intro r hr
    obtain ⟨x, hx, rfl⟩ := Option.map_eq_some_iff.1 hr
    exact h x hx

/-- the machine reached from the constructor by a list of actions -/
def reach (J : StringOps) (matchId roomId : String) (players : List PlayerInfo) (acts : List Action) : Machine :=
  run (act J) (Machine.create matchId roomId players) acts

theorem reach_wireInv (J : StringOps) (matchId roomId : String) (players : List PlayerInfo) (acts : List Action)
    (hd : (players.map PlayerInfo.id).Nodup) : WireInv (reach J matchId roomId players acts) :=
  run_inv (act J) (fun _ _ => True) WireInv (fun m a _ hi => act_wireInv J m a hi) _ acts
    ((along_const _ (fun _ => True) _ _).2 fun _ _ => trivial) (wireInv_create matchId roomId players hd)

theorem reach_timed (J : StringOps) (matchId roomId : String) (players : List PlayerInfo) (acts : List Action)
    (hd : (players.map PlayerInfo.id).Nodup) (hv : ∀ a ∈ acts, a.validDuration) :
    Timed (reach J matchId roomId players acts) :=
  (run_inv (act J) (fun _ a => a.validDuration) (fun m => WireInv m ∧ Timed m)
    (fun m a ha hi => ⟨act_wireInv J m a hi.1, act_timed J m a ha hi.1 hi.2⟩) _ acts ((along_const _ _ _ _).2 hv)
    ⟨wireInv_create matchId roomId players hd, fun _ hr => nomatch hr⟩).2

/-- **Codec round trip on reachable machines.** Whatever was called before, and however often the match failed over, the
decoder accepts what the machine serializes and returns the same state, the same event log and the same round without
its answer key. -/
theorem codec_round_trip (J : StringOps) (matchId roomId : String) (players : List PlayerInfo) (acts : List Action)
    (hd : (players.map PlayerInfo.id).Nodup) (hv : ∀ a ∈ acts, a.validDuration) :
    let m := reach J matchId roomId players acts
    deserializeMatch J (some (serializeMatch m.state m.currentRound m.eventLog)) =
      .ok ⟨m.state, m.currentRound.map withoutKey, m.eventLog⟩ :=
  deserialize_serialize J _ (reach_wireInv J matchId roomId players acts hd).encodable
    (reach_timed J matchId roomId players acts hd hv)

/-- a run of one round with a failover, and its codec round trip -/
theorem codec_round_trip_one_round :
    let acts : List Action := [.call (.transition .countdown fun _ => 0), .call (.transition .roundActive fun _ => 5000),
      .call (.startRound ⟨"q1", "2 + 2?", ["3", "4", "5", "6"], "4", none⟩ (some 15000) fun _ => 5000),
      .call (.submitAnswer "alice" "b" 7000 (some "s1") fun _ => 7000), .failover,
      .call (.attachCorrectAnswer "4"), .call (.submitAnswer "bob" "A" 8000 none fun _ => 8000),
      .call (.transition .roundEvaluating fun _ => 20000), .call (.evaluateRound fun _ => 20000),
      .call (.transition .roundResult fun _ => 20001)]
    let m := reach StringOps.ascii "m1" "r1" [freshPlayer "alice", freshPlayer "bob"] acts
    deserializeMatch StringOps.ascii (some (serializeMatch m.state m.currentRound m.eventLog)) =
      .ok ⟨m.state, m.currentRound.map withoutKey, m.eventLog⟩ :=
  codec_round_trip StringOps.ascii "m1" "r1" _ _ (by decide) (by decide)

end Machine

end Arena.GameCore
