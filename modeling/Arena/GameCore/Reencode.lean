/-
Writing a decoded match again: which blobs decode to what they re-encode to.

The decoder is strict on version 2 only, and what it decodes is written as version 2. It checks the deadline of a
version 2 blob against the round in play and recomputes it from the result anchor; a version 1 blob may leave the
deadline out, and then it is backfilled from the same two places, but one that is given is taken as it is.

- `encode_decodes_iff`: what a decoded match decodes to once it is written, by its own deadline;
- `reencode_iff`: a blob re-encodes exactly if a deadline it gives in version 1 is the one its round or anchor implies;
- `reencoded_blob_deleted`: a version 1 blob whose re-encoding is rejected.
-/
import Arena.GameCore.Codec

namespace Arena.GameCore

open Arena.Lib Arena.Shared

/-! ## The deadline -/

/-- the deadline a ROUND_RESULT state implies -/
def resultDeadline (state : WireState) : WireNumber :=
  match state.roundResultStartedAt with
  | .number q => .number (q + GameConfig.resultDisplayMs)
  | _ => .null

/-- the deadline that is given is that of the round in play, or of the result on show -/
def DeadlineAgrees (state : WireState) (round : Option WireRound) : Prop :=
  (state.status = .roundActive → ∀ r, round = some r →
    state.phaseEndsAt ≠ .null ∧ ∀ q, r.endsAt = .number q → state.phaseEndsAt = .number q) ∧
  (state.status = .roundResult → state.phaseEndsAt = resultDeadline state)

/-- a version 1 blob gives no deadline, or one that agrees with the rest of the blob -/
def Coherent (b : WireMatch) : Prop := supportedStateVersion b.stateVersion = some .v1 →
  ∀ state, b.state = some state → state.phaseEndsAt ≠ .undefined → DeadlineAgrees state b.currentRound

/-- the deadline of a decoded match is the one its round or anchor implies -/
def Deadlined (d : DecodedMatch) : Prop :=
  (d.state.status = .roundActive → ∀ r, d.currentRound = some r → d.state.phaseEndsAt = some r.endsAt) ∧
  (d.state.status = .roundResult →
    d.state.phaseEndsAt = d.state.roundResultStartedAt.map (· + GameConfig.resultDisplayMs))

section Decoded

variable {J : StringOps} {state : WireState} {players : List (String × PlayerInfo)} {version : StateVersion}
  {round : WireRound} {shape : RoundShape} {timing : ValidatedTimingFields} {r : Round}

/-- in play, the deadline that is decoded is that of the round, unless version 1 gives another -/
theorem active_deadline (hs : state.status = .roundActive)
    (hphase : timing.phaseEndsAt = wireTiming state.phaseEndsAt) (hends : timing.currentRoundEndsAt = wireTiming round.endsAt)
    (hvalid : state.phaseEndsAt ≠ .invalid)
    (h : decodeCurrentRound round shape version (decodeMatchState state players version timing) timing = .ok r) :
    (decodeMatchState state players version timing).phaseEndsAt = some r.endsAt ↔
      (version = .v1 → state.phaseEndsAt ≠ .undefined →
        state.phaseEndsAt ≠ .null ∧ ∀ q, round.endsAt = .number q → state.phaseEndsAt = .number q) := by
  have hnot : ¬(version = .v2 ∧ state.status = .roundResult) := by
    rw [hs]
    simp
  have hdecoded : (decodeMatchState state players version timing).phaseEndsAt =
      (wireTiming state.phaseEndsAt).getD (backfillPhaseEndsAt .roundActive timing none) := by
    simp [decodeMatchState, hs, hphase]
  obtain ⟨hend, -, hstrict⟩ := decodeCurrentRound_timing h
  cases version with
  | v2 =>
    have hgiven := hstrict rfl hs
    rw [hphase] at hgiven
    simp [hdecoded, hgiven]
  | v1 =>
    have hstatus : (decodeMatchState state players .v1 timing).status = .roundActive := hs
    simp only [decodedEndsAt, hstatus, and_true, hdecoded, hends] at hend
    rw [hdecoded]
    cases hp : state.phaseEndsAt with
    | invalid => exact absurd hp hvalid
    | undefined =>
      -- the backfill reads the two fields that `decodeCurrentRound` reads
      simp only [hp, wireTiming, Option.getD_none, backfillPhaseEndsAt, hends] at hend ⊢
      cases he : round.endsAt <;> simp [he] at hend ⊢ <;> exact hend
    | null => simp [wireTiming]
    | number q =>
      simp only [hp, wireTiming, Option.getD_some] at hend ⊢
      cases he : round.endsAt <;> simp [he] at hend ⊢ <;> simp [hend]

/-- on show, the deadline that is decoded is that of the result, unless version 1 gives another -/
theorem result_deadline (hs : state.status = .roundResult)
    (hphase : timing.phaseEndsAt = wireTiming state.phaseEndsAt)
    (hanchor : timing.roundResultStartedAt = wireTiming state.roundResultStartedAt)
    (hvalid : state.phaseEndsAt ≠ .invalid) :
    (decodeMatchState state players version timing).phaseEndsAt =
        (decodeMatchState state players version timing).roundResultStartedAt.map (· + GameConfig.resultDisplayMs) ↔
      (version = .v1 → state.phaseEndsAt ≠ .undefined → state.phaseEndsAt = resultDeadline state) := by
  cases version with
  | v2 => simp [decodeMatchState, hs]
  | v1 =>
    simp only [decodeMatchState, hs, hphase, hanchor, reduceCtorEq, false_and, if_false, if_true, true_imp_iff]
    cases hp : state.phaseEndsAt with
    | invalid => exact absurd hp hvalid
    | undefined => simp [wireTiming, backfillPhaseEndsAt]
    | null => cases hr : state.roundResultStartedAt <;> simp [resultDeadline, wireTiming, hr]
    | number q => cases hr : state.roundResultStartedAt <;> simp [resultDeadline, wireTiming, hr]

end Decoded

/-! ## Re-encoding -/

/-- what the decoder makes sure of, but for the deadline -/
theorem decoded_encodable {J : StringOps} {b : WireMatch} {d : DecodedMatch}
    (h : deserializeMatch J (some b) = .ok d) (hd : Deadlined d) (m : Machine) (hs : m.state = d.state)
    (hr : m.currentRound = d.currentRound) : m.Encodable ∧ m.Timed ∧ m.currentRound.map Machine.withoutKey = d.currentRound := by
  obtain ⟨p, timing, hfrom⟩ := deserializeMatch_ok h
  refine ⟨⟨?_, ?_, ?_, ?_, ?_⟩, ?_, ?_⟩
  · intro hactive r hmr
    rw [hs] at hactive ⊢
    exact hd.1 hactive r (hr ▸ hmr)
  · rw [hs]
    exact hd.2
  · rw [hs, hfrom.state]
    intro hne
    simp only [decodeMatchState] at hne ⊢
    rw [if_neg hne]
  · intro r hmr e he
    obtain ⟨x, hx, hdecoded⟩ := hfrom.of_round (hr ▸ hmr)
    obtain ⟨_, _, rfl⟩ := decodeCurrentRound_ok hdecoded
    obtain ⟨l, -, hl⟩ := Option.bind_eq_some_iff.1 (validateCurrentRoundShape_ok (hfrom.parsed.shape x hx)).2
    exact decodeAnswers_playerIds hl e (JsMap.mem_ofEntries he)
  · intro r hmr l hl
    obtain ⟨x, -, hdecoded⟩ := hfrom.of_round (hr ▸ hmr)
    obtain ⟨_, _, rfl⟩ := decodeCurrentRound_ok hdecoded
    dsimp only [deserializeStartingPlayers] at hl
    split at hl
    · split_ifs at hl with hnodup
      obtain rfl := Option.some.inj hl
      exact hnodup
    · cases hl
  · intro r hmr
    obtain ⟨x, -, hdecoded⟩ := hfrom.of_round (hr ▸ hmr)
    exact (decodeCurrentRound_timing hdecoded).2.1
  · rw [hr]
    cases hdr : d.currentRound with
    | none => rfl
    | some r =>
      obtain ⟨x, -, hdecoded⟩ := hfrom.of_round hdr
      obtain ⟨_, _, rfl⟩ := decodeCurrentRound_ok hdecoded
      rfl

/-- the deadline that is decoded is implied exactly when version 1 gives no other -/
theorem deadlined_iff {J : StringOps} {b : WireMatch} {d : DecodedMatch} (h : deserializeMatch J (some b) = .ok d) :
    Deadlined d ↔ Coherent b := by
  obtain ⟨p, timing, ⟨hversion, hbstate, -, hbround, -⟩, ht, hstate, -, hnone, hsome⟩ := deserializeMatch_ok h
  have htiming := ht.fields
  have hvalid := ht.stateValid.2.1
  have hphase : timing.phaseEndsAt = wireTiming p.state.phaseEndsAt := by rw [htiming]
  have hanchor : timing.roundResultStartedAt = wireTiming p.state.roundResultStartedAt := by rw [htiming]
  have hstatus : d.state.status = p.state.status := by rw [hstate]; rfl
  have hcoherent : Coherent b ↔ (p.version = .v1 → p.state.phaseEndsAt ≠ .undefined →
      DeadlineAgrees p.state b.currentRound) := by
    unfold Coherent
    rw [hversion, hbstate, Option.some.injEq]
    exact ⟨fun hc hv => hc hv p.state rfl, fun hc hv state hst => Option.some.inj hst ▸ hc hv⟩
  have hactive : (d.state.status = .roundActive → ∀ r, d.currentRound = some r → d.state.phaseEndsAt = some r.endsAt) ↔
      (p.version = .v1 → p.state.phaseEndsAt ≠ .undefined → p.state.status = .roundActive →
        ∀ r, b.currentRound = some r → p.state.phaseEndsAt ≠ .null ∧
          ∀ q, r.endsAt = .number q → p.state.phaseEndsAt = .number q) := by
    rw [hstatus]
    cases hx : p.round with
    | none =>
      rw [← hbround, hnone hx, hx]
      simp
    | some x =>
      obtain ⟨r, hdecoded, hr⟩ := hsome x hx
      rw [hstate] at hdecoded
      rw [← hbround, hr, hx, hstate]
      have hends : timing.currentRoundEndsAt = wireTiming x.1.endsAt := by rw [htiming, ← hbround, hx]; rfl
      constructor
      · rintro hall hv1 hgiven hs _ ⟨rfl⟩
        exact (active_deadline hs hphase hends hvalid hdecoded).1 (hall hs r rfl) hv1 hgiven
      · rintro hall hs _ ⟨rfl⟩
        exact (active_deadline hs hphase hends hvalid hdecoded).2 fun hv1 hgiven => hall hv1 hgiven hs x.1 rfl
  have hresult : (d.state.status = .roundResult →
      d.state.phaseEndsAt = d.state.roundResultStartedAt.map (· + GameConfig.resultDisplayMs)) ↔
      (p.version = .v1 → p.state.phaseEndsAt ≠ .undefined → p.state.status = .roundResult →
        p.state.phaseEndsAt = resultDeadline p.state) := by
    rw [hstatus, hstate]
    constructor
    · exact fun hall hv1 hgiven hs => (result_deadline hs hphase hanchor hvalid).1 (hall hs) hv1 hgiven
    · exact fun hall hs => (result_deadline hs hphase hanchor hvalid).2 fun hv1 hgiven => hall hv1 hgiven hs
  rw [hcoherent, Deadlined, hactive, hresult]
  unfold DeadlineAgrees
  constructor
  · exact fun ⟨ha, hr⟩ hv1 hgiven => ⟨ha hv1 hgiven, hr hv1 hgiven⟩
  · exact fun hall => ⟨fun hv1 hgiven => (hall hv1 hgiven).1, fun hv1 hgiven => (hall hv1 hgiven).2⟩

/-- **Re-encoding.** An accepted blob decodes, once it is written again, to what it decoded to, exactly if it is of
version 2, or leaves the deadline out, or gives the one its round in play or its result anchor implies. -/
theorem reencode_iff (J : StringOps) (b : WireMatch) (d : DecodedMatch) (h : deserializeMatch J (some b) = .ok d) :
    deserializeMatch J (some (serializeMatch d.state d.currentRound d.eventLog)) = .ok d ↔ Coherent b := by
  rw [← deadlined_iff h]
  constructor
  · intro hagain
    -- what is written is of version 2
    refine (deadlined_iff hagain).2 fun hv1 => ?_
    simp [serializeMatch, supportedStateVersion] at hv1
  · intro hd
    obtain ⟨hencodable, htimed, hround⟩ :=
      decoded_encodable h hd ⟨d.state, d.currentRound, d.eventLog, 0,
        Machine.rehydrateCardStateFromEventLog d.eventLog, false⟩ rfl rfl
    have hagain := Machine.deserialize_serialize J _ hencodable htimed
    rw [hround] at hagain
    exact hagain

/-- a version 1 blob of a round in play that ends at 20000 -/
def versionOne (phaseEndsAt : WireNumber) : WireMatch where
  stateVersion := .number 1
  state := some
    { id := "m1"
      roomId := "r1"
      status := .roundActive
      currentRoundNo := 1
      totalRounds := 1
      players := some [("alice", freshPlayer "alice"), ("bob", freshPlayer "bob")]
      survivingPlayerIds := ["alice", "bob"]
      eliminatedPlayerIds := []
      winnerId := none
      startedAt := .number 0
      endedAt := none
      phaseEndsAt := phaseEndsAt
      roundResultStartedAt := .undefined
      candidateTopics := none
      topicVotes := none
      bannedTopics := none
      activeTopics := none }
  currentRound := some
    { matchId := "m1"
      roundNo := some 1
      question := some ⟨.text "q1", .text "2 + 2?", some ["3", "4", "5", "6"], none⟩
      startedAt := .number 5000
      endsAt := .number 20000
      status := some .active
      correctAnswer := .undefined
      startingPlayers := .ids ["alice", "bob"]
      answers := some [some ("alice", ⟨.text "alice", .text "b", some true, .number 1000, .number 6000, .undefined⟩)] }
  eventLog := some []

theorem reencode_iff_backfilled :
    ∃ d, deserializeMatch StringOps.ascii (some (versionOne .undefined)) = .ok d ∧
      deserializeMatch StringOps.ascii (some (serializeMatch d.state d.currentRound d.eventLog)) = .ok d := by
  have haccepted : (deserializeMatch StringOps.ascii (some (versionOne .undefined))).toOption.isSome = true := by
    decide +kernel
  cases hd : deserializeMatch StringOps.ascii (some (versionOne .undefined)) with
  | error e =>
    rw [hd] at haccepted
    cases haccepted
  | ok d =>
    refine ⟨d, rfl, (reencode_iff StringOps.ascii (versionOne .undefined) d hd).2 ?_⟩
    rintro - state ⟨rfl⟩ hgiven
    exact absurd rfl hgiven

/-- **A blob that is rejected once it is written again.** It gives a later deadline than its round has. -/
theorem reencoded_blob_deleted :
    ∃ d ∈ (deserializeMatch StringOps.ascii (some (versionOne (.number 30000)))).toOption,
      deserializeMatch StringOps.ascii (some (serializeMatch d.state d.currentRound d.eventLog)) =
        .error .phaseEndsAtMismatch := by
  decide +kernel

end Arena.GameCore
