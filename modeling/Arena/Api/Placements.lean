/-
Placements of a finished match, as `MatchService.buildScoreUpdateOps` computes them.

A player's elimination round is read back from the ROUND_EVALUATED events; the winner counts as having survived all
rounds, and every other player that no event eliminates counts as having survived none. So survivors that did not win
(the match was capped, or ran out of questions) rank behind everybody who was eliminated.

- `EliminationsInv`: the elimination list is the log's, and every evaluated round has a positive number;
- `placements_respect_survival_iff`: when the placements respect survival;
- `capped_survivor_last`: three players, of whom the second survivor of a capped match is placed last.
-/
import Arena.GameCore.Elo
import Arena.GameCore.Winner
import Arena.GameCore.Phases

namespace Arena.Api

open Arena.Lib Arena.Shared Arena.GameCore Arena.GameCore.Machine

/-! ## Definitions -/

structure PlayerScore where
  userId : String
  score : ℤ
  avgResponseMs : Option Time
deriving DecidableEq, Repr

def getPlayerScores (m : Machine) : List PlayerScore :=
  m.state.players.entries.map fun e =>
    ⟨e.1, e.2.score, if 0 < e.2.correctAnswers then some (e.2.totalResponseTimeMs / e.2.correctAnswers) else none⟩

/-- the eliminations one entry of the log records, with their round -/
def eliminationsOf (e : EventLogEntry) : List (String × ℕ) :=
  match e.event with
  | .roundEvaluated roundNo _ _ _ eliminatedIds => eliminatedIds.map fun p => (p, roundNo)
  | _ => []

def eliminations (log : List EventLogEntry) : List (String × ℕ) := log.flatMap eliminationsOf

/-- a later elimination of the same player overwrites an earlier one -/
def eliminatedRoundByUser (log : List EventLogEntry) : JsMap String ℕ := JsMap.ofEntries (eliminations log)

/-- the players as they are handed to `assignPlacements` -/
def placementInputs (m : Machine) (playerScores : List PlayerScore) : List PlacementInput :=
  playerScores.map fun p =>
    { userId := p.userId
      score := p.score
      avgResponseMs := p.avgResponseMs
      survivedRounds := some (if m.state.winnerId = some p.userId then m.state.totalRounds
        else ((eliminatedRoundByUser m.eventLog).get p.userId).getD 0)
      eliminatedInRound := none
      isWinner := m.state.winnerId = some p.userId }

def placedPlayers (C : Collation) (m : Machine) (playerScores : List PlayerScore) : List PlacedPlayer :=
  assignPlacements C (placementInputs m playerScores) m.state.winnerId

/-! ## Statement -/

/-- the log records that the player was eliminated in round `n` -/
def EliminatedIn (m : Machine) (p : String) (n : ℕ) : Prop := (p, n) ∈ eliminations m.eventLog

/-- the winner is first, survivors stand above eliminated players, and later eliminations above earlier ones -/
structure RespectsSurvival (m : Machine) (placed : List PlacedPlayer) : Prop where
  winner : ∀ w, m.state.winnerId = some w → ∃ a ∈ placed, a.player.userId = w ∧ a.placement = 1
  survivors : ∀ a ∈ placed, ∀ b ∈ placed, a.player.userId ∈ m.state.survivingPlayerIds →
    b.player.userId ∈ m.state.eliminatedPlayerIds → a.placement < b.placement
  later : ∀ a ∈ placed, ∀ b ∈ placed, ∀ n k, EliminatedIn m a.player.userId n → EliminatedIn m b.player.userId k →
    k < n → a.placement < b.placement

/-- the winner survived, or nobody was eliminated in a later round -/
def WinnerOutlasts (m : Machine) : Prop :=
  ∀ w n, m.state.winnerId = some w → EliminatedIn m w n → ∀ p k, EliminatedIn m p k → k ≤ n

/-! ## Eliminations and the log -/

structure EliminationsInv (m : Machine) : Prop where
  ids : (eliminations m.eventLog).map Prod.fst = m.state.eliminatedPlayerIds
  rounds : ∀ e ∈ eliminations m.eventLog, 0 < e.2
  current : ∀ r, m.currentRound = some r → 0 < r.roundNo

theorem eliminations_append (a b : List EventLogEntry) : eliminations (a ++ b) = eliminations a ++ eliminations b := by
  simp [eliminations]

theorem eliminationsOf_none {e : EventLogEntry} (h : e.isRoundEvaluated = false) : eliminationsOf e = [] := by
  unfold eliminationsOf
  split
  · rename_i heq
    simp [EventLogEntry.isRoundEvaluated, heq] at h
  · rfl

theorem eliminations_quiet {es : List EventLogEntry} (h : ∀ e ∈ es, e.isRoundEvaluated = false) :
    eliminations es = [] := by
  simp only [eliminations, List.flatMap_eq_nil_iff]
  exact fun e he => eliminationsOf_none (h e he)

/-- a step that logs no evaluation -/
theorem EliminationsInv.quiet {m m' : Machine} (h : EliminationsInv m) {es : List EventLogEntry}
    (hl : m'.eventLog = m.eventLog ++ es) (hes : ∀ e ∈ es, e.isRoundEvaluated = false)
    (hids : m'.state.eliminatedPlayerIds = m.state.eliminatedPlayerIds)
    (hr : ∀ r, m'.currentRound = some r → 0 < r.roundNo) : EliminationsInv m' := by
  have he : eliminations m'.eventLog = eliminations m.eventLog := by
    rw [hl, eliminations_append, eliminations_quiet hes, List.append_nil]
  refine ⟨?_, ?_, hr⟩
  · rw [he, hids]
    exact h.ids
  · rw [he]
    exact h.rounds

/-- no call but a completed evaluation eliminates anybody -/
theorem change_eliminatedIds {J : StringOps} {m m' : Machine} {o : Op} (hc : Change J m o m')
    (ho : ∀ now, o ≠ .evaluateRound now) : m'.state.eliminatedPlayerIds = m.state.eliminatedPlayerIds := by
  cases hc with
  | transition target now _ => cases target <;> rfl
  | answer round p a ts sid retry now _ _ _ _ _ =>
    exact congrArg MatchState.eliminatedPlayerIds (consumeChance_frame m round p retry (now 0)).1
  | evaluated round now _ _ => exact absurd rfl (ho now)
  | evaluateStuck round now _ _ => exact absurd rfl (ho now)
  | winner now => exact congrArg MatchState.eliminatedPlayerIds (determineWinner_frame m now).1
  | finish now =>
    have hs := (determineWinner_frame m now).1
    simp only [crown, logEvent_state, hs]
  | play round p now _ _ _ => exact congrArg MatchState.eliminatedPlayerIds (applyPlay_frame _ round p _ now).1
  | _ => rfl

/-- round numbers stay positive -/
theorem change_roundNo {J : StringOps} {m m' : Machine} {o : Op} (hc : Change J m o m')
    (h : ∀ r, m.currentRound = some r → 0 < r.roundNo) : ∀ r, m'.currentRound = some r → 0 < r.roundNo := by
  intro r' hr'
  by_cases hq : o.isQuiet = true
  · obtain ⟨r, hr, key, rfl⟩ := change_quiet_round hc hq r' hr'
    exact h r hr
  · cases hc with
    | same o => exact h r' hr'
    | startRound q d now _ =>
      obtain rfl := Option.some.inj hr'
      exact Nat.succ_pos _
    | answer round p a ts sid retry now hr _ _ _ _ =>
      obtain rfl := Option.some.inj hr'
      exact h round hr
    | evaluated round now hr _ =>
      obtain rfl := Option.some.inj hr'
      exact h round hr
    | evaluateStuck round now hr _ =>
      obtain rfl := Option.some.inj hr'
      exact h round hr
    | play round i now hr _ _ =>
      rw [(applyPlay_frame _ round i _ now).2] at hr'
      exact h r' hr'
    | _ => exact absurd rfl hq

theorem change_eliminationsInv {J : StringOps} {m m' : Machine} {o : Op} (hc : Change J m o m')
    (h : EliminationsInv m) : EliminationsInv m' := by
  have hround := change_roundNo hc h.current
  by_cases hk : o.keepsRound = true
  · obtain ⟨es, hes⟩ := change_logs hc hk
    refine h.quiet hes.log hes.evaluated (change_eliminatedIds hc ?_) hround
    rintro now rfl
    cases hk
  · cases hc with
    | same o => exact h
    | startRound q d now hs => exact h.quiet rfl (fun e he => by rw [List.mem_singleton.1 he]; rfl) rfl hround
    | evaluated round now hr hf =>
      have he : eliminations (m.settle round now).eventLog =
          eliminations m.eventLog ++ (m.losersOf round).map fun p => (p, round.roundNo) := by
        simp only [settle, logEvent_eventLog, eliminations_append]
        simp [eliminations, eliminationsOf]
      refine ⟨?_, ?_, hround⟩
      · rw [he, List.map_append, h.ids, List.map_map]
        exact congrArg _ (List.map_id _)
      · rw [he]
        intro e hmem
        rcases List.mem_append.1 hmem with hmem | hmem
        · exact h.rounds e hmem
        · obtain ⟨p, -, rfl⟩ := List.mem_map.1 hmem
          exact h.current round hr
    | evaluateStuck round now hr hf => exact h.quiet (List.append_nil _).symm (by simp) rfl hround
    | _ => exact absurd rfl hk

theorem act_eliminationsInv (J : StringOps) (m : Machine) (a : Action) (hw : WireInv m) (h : EliminationsInv m) :
    EliminationsInv (m.act J a) := by
  cases a with
  | call o => exact change_eliminationsInv (step_change J m o) h
  | failover =>
    rcases failover_cases J m hw with hf | hf
    · rw [act, hf]
      refine ⟨h.ids, h.rounds, ?_⟩
      intro r hr
      obtain ⟨x, hx, rfl⟩ := Option.map_eq_some_iff.1 hr
      exact h.current x hx
    · rw [act, hf]
      exact h

theorem eliminationsInv_create (matchId roomId : String) (players : List PlayerInfo) :
    EliminationsInv (Machine.create matchId roomId players) :=
  ⟨rfl, fun _ he => absurd he List.not_mem_nil, fun _ hr => by cases hr⟩

/-! ## Elimination rounds -/

/-- what the placements rest on: the roster, and the log's eliminations -/
structure FinalInv (m : Machine) : Prop where
  eliminations : EliminationsInv m
  eliminated_nodup : m.state.eliminatedPlayerIds.Nodup
  disjoint : ∀ p ∈ m.state.survivingPlayerIds, p ∉ m.state.eliminatedPlayerIds
  covers : ∀ p, p ∈ m.state.players.keys ↔ p ∈ m.state.survivingPlayerIds ∨ p ∈ m.state.eliminatedPlayerIds

theorem FinalInv.eliminated_iff {m : Machine} (h : FinalInv m) (p : String) :
    p ∈ m.state.eliminatedPlayerIds ↔ ∃ n, EliminatedIn m p n := by
  rw [← h.eliminations.ids]
  simp only [List.mem_map, EliminatedIn]
  constructor
  · rintro ⟨⟨q, n⟩, he, rfl⟩
    exact ⟨n, he⟩
  · rintro ⟨n, he⟩
    exact ⟨(p, n), he, rfl⟩

/-- the map of elimination rounds is the log's -/
theorem FinalInv.round_get {m : Machine} (h : FinalInv m) (p : String) (n : ℕ) :
    (eliminatedRoundByUser m.eventLog).get p = some n ↔ EliminatedIn m p n := by
  have hn : ((Api.eliminations m.eventLog).map Prod.fst).Nodup := by
    rw [h.eliminations.ids]
    exact h.eliminated_nodup
  have hentries : (eliminatedRoundByUser m.eventLog).entries = Api.eliminations m.eventLog := by
    have h0 := JsMap.foldl_set_entries (Api.eliminations m.eventLog) JsMap.empty hn (by simp)
    simpa [eliminatedRoundByUser, JsMap.ofEntries, JsMap.empty] using h0
  constructor
  · intro hg
    have hm := JsMap.mem_of_get hg
    rw [hentries] at hm
    exact hm
  · intro he
    apply JsMap.get_of_mem
    rw [hentries]
    exact he

theorem FinalInv.survivor_round {m : Machine} (h : FinalInv m) {p : String} (hp : p ∈ m.state.survivingPlayerIds) :
    (eliminatedRoundByUser m.eventLog).get p = none := by
  cases hg : (eliminatedRoundByUser m.eventLog).get p with
  | none => rfl
  | some n => exact absurd ((h.eliminated_iff p).2 ⟨n, (h.round_get p n).1 hg⟩) (h.disjoint p hp)

/-! ## Placed players -/

/-- the elimination round of a player that did not win, 0 for a survivor -/
def rankedRounds (m : Machine) (p : String) : ℕ := ((eliminatedRoundByUser m.eventLog).get p).getD 0

theorem placed_player {C : Collation} {m : Machine} {playerScores : List PlayerScore} {a : PlacedPlayer}
    (ha : a ∈ placedPlayers C m playerScores) : ∃ p ∈ playerScores, p.userId = a.player.userId ∧
      (m.state.winnerId ≠ some a.player.userId → roundsOf a.player = rankedRounds m a.player.userId) ∧
      a.player.isWinner = decide (m.state.winnerId = some a.player.userId) := by
  have hmem : a.player ∈ placementInputs m playerScores :=
    (assignPlacements_players C _ _).mem_iff.1 (List.mem_map_of_mem ha)
  obtain ⟨p, hp, heq⟩ := List.mem_map.1 hmem
  rw [← heq]
  refine ⟨p, hp, rfl, ?_, rfl⟩
  intro hw
  simp only [roundsOf, if_neg hw]
  rfl

theorem placed_exists (C : Collation) (m : Machine) {playerScores : List PlayerScore} {p : PlayerScore}
    (hp : p ∈ playerScores) : ∃ a ∈ placedPlayers C m playerScores, a.player.userId = p.userId := by
  have hmem := (assignPlacements_players C (placementInputs m playerScores) m.state.winnerId).mem_iff.2
    (List.mem_map_of_mem hp)
  obtain ⟨a, ha, heq⟩ := List.mem_map.1 hmem
  exact ⟨a, ha, by rw [heq]⟩

/-- the comparator's winner is the match's -/
theorem ranksAsWinner_iff {C : Collation} {m : Machine} {playerScores : List PlayerScore} {a : PlacedPlayer}
    (ha : a ∈ placedPlayers C m playerScores) :
    ranksAsWinner (effectiveWinnerId (placementInputs m playerScores) m.state.winnerId) a.player =
      decide (m.state.winnerId = some a.player.userId) := by
  obtain ⟨p, hp, hid, -, hflag⟩ := placed_player ha
  unfold ranksAsWinner
  cases heff : effectiveWinnerId (placementInputs m playerScores) m.state.winnerId with
  | none => exact hflag
  | some w =>
    have hw : m.state.winnerId = some w := (Option.filter_eq_some_iff.1 heff).1
    rw [hw]
    simp [eq_comm]

/-- the winner stands above everybody else -/
theorem placed_winner_lt {C : Collation} {m : Machine} {playerScores : List PlayerScore} {a b : PlacedPlayer}
    (ha : a ∈ placedPlayers C m playerScores) (hb : b ∈ placedPlayers C m playerScores)
    (hwa : m.state.winnerId = some a.player.userId) (hwb : m.state.winnerId ≠ some b.player.userId) :
    a.placement < b.placement := by
  refine placement_lt C _ _ ha hb ?_
  have h1 := (ranksAsWinner_iff ha).trans (decide_eq_true hwa)
  have h2 := (ranksAsWinner_iff hb).trans (decide_eq_false hwb)
  simp [placementKey, Prod.Lex.toLex_lt_toLex, h1, h2]

/-- of two players that did not win, the one with more rounds stands above -/
theorem placed_rounds_lt {C : Collation} {m : Machine} {playerScores : List PlayerScore} {a b : PlacedPlayer}
    (ha : a ∈ placedPlayers C m playerScores) (hb : b ∈ placedPlayers C m playerScores)
    (hwa : m.state.winnerId ≠ some a.player.userId) (hwb : m.state.winnerId ≠ some b.player.userId)
    (hr : rankedRounds m b.player.userId < rankedRounds m a.player.userId) : a.placement < b.placement := by
  refine placement_lt C _ _ ha hb ?_
  have h1 := (ranksAsWinner_iff ha).trans (decide_eq_false hwa)
  have h2 := (ranksAsWinner_iff hb).trans (decide_eq_false hwb)
  obtain ⟨-, -, -, ha', -⟩ := placed_player ha
  obtain ⟨-, -, -, hb', -⟩ := placed_player hb
  simp [placementKey, Prod.Lex.toLex_lt_toLex, h1, h2, ha' hwa, hb' hwb, hr]

/-- the winner's place is 1 -/
theorem placed_winner_first (C : Collation) (m : Machine) {playerScores : List PlayerScore} {p : PlayerScore}
    (hp : p ∈ playerScores) (hw : m.state.winnerId = some p.userId) :
    ∃ a ∈ placedPlayers C m playerScores, a.player.userId = p.userId ∧ a.placement = 1 := by
  obtain ⟨a, ha, hid⟩ := placed_exists C m hp
  obtain ⟨⟨x, i⟩, hx, rfl⟩ := List.mem_map.1 ha
  rw [List.mem_zipIdx_iff_getElem?] at hx
  -- whoever stands at the front is the winner
  obtain ⟨z, hz⟩ : ∃ z, (jsSort (comparePlaced C (effectiveWinnerId (placementInputs m playerScores) m.state.winnerId))
      (placementInputs m playerScores))[0]? = some z := by
    have hlt := (List.getElem?_eq_some_iff.1 hx).1
    exact ⟨_, List.getElem?_eq_getElem (Nat.zero_lt_of_lt hlt)⟩
  have hfront : (⟨z, 1⟩ : PlacedPlayer) ∈ placedPlayers C m playerScores :=
    List.mem_map.2 ⟨(z, 0), List.mem_zipIdx_iff_getElem?.2 hz, rfl⟩
  refine ⟨⟨z, 1⟩, hfront, ?_, rfl⟩
  by_contra hne
  have hlt := placed_winner_lt ha hfront (hw.trans (congrArg some hid.symm)) (by
    rw [hw]
    intro heq
    exact hne (Option.some.inj heq).symm)
  simp at hlt

/-! ## Finished matches -/

theorem mem_getPlayerScores {m : Machine} {p : String} (hp : p ∈ m.state.players.keys) :
    ∃ s ∈ getPlayerScores m, s.userId = p := by
  obtain ⟨e, he, rfl⟩ := List.mem_map.1 hp
  exact ⟨_, List.mem_map_of_mem he, rfl⟩

/-- `finishMatch` logs no evaluation and leaves the roster -/
theorem finish_finalInv {m : Machine} (hr : RosterInv m) (h : EliminationsInv m) (now : Clock) :
    FinalInv (m.finishMatch now) := by
  have hc : Change StringOps.ascii m (.finishMatch now) (m.finishMatch now) := step_change StringOps.ascii m _
  have hp := (finish_partition hr now)
  exact ⟨change_eliminationsInv hc h, hp.eliminated_nodup, hp.disjoint, hp.covers⟩

/-- the winner of a finished match: a player, and a survivor when one is left -/
theorem finish_winner {m : Machine} (hr : RosterInv m) (now : Clock) {f : Machine} (hf : f = m.finishMatch now) :
    (∀ w, f.state.winnerId = some w → w ∈ f.state.players.keys) ∧
      (f.state.survivingPlayerIds ≠ [] → ∃ w ∈ f.state.survivingPlayerIds, f.state.winnerId = some w) := by
  have hp : Partition f := hf ▸ finish_partition hr now
  have hframe := (determineWinner_frame m now).1
  have hs : f.state.survivingPlayerIds = m.state.survivingPlayerIds := by
    simp only [hf, finishMatch, crown, logEvent_state, hframe]
  have he : f.state.eliminatedPlayerIds = m.state.eliminatedPlayerIds := by
    simp only [hf, finishMatch, crown, logEvent_state, hframe]
  have hw : f.state.winnerId = (m.determineWinner now).2 := by rw [hf]; rfl
  rw [hw, hs]
  rcases determineWinner_cases hr now with ⟨hn, hnil, -⟩ | ⟨w, hmem, hw'⟩ | ⟨hnil, w, hw', htie⟩
  · rw [hn]
    exact ⟨by simp, fun h => absurd hnil h⟩
  · rw [hw']
    refine ⟨?_, fun _ => ⟨w, hmem, rfl⟩⟩
    rintro w' ⟨⟩
    exact (hp.covers w).2 (.inl (hs ▸ hmem))
  · obtain ⟨-, hmem, -, -⟩ := tieBreak_best htie
    rw [hw']
    refine ⟨?_, fun h => absurd hnil h⟩
    rintro w' ⟨⟩
    exact (hp.covers w).2 (.inr (he ▸ hmem))

/-- one of several survivors did not win -/
theorem other_survivor {l : List String} (hn : l.Nodup) (hl : 1 < l.length) (w : String) : ∃ s ∈ l, s ≠ w := by
  match l, hn, hl with
  | a :: b :: rest, hn, _ =>
    by_cases ha : a = w
    · refine ⟨b, by simp, ?_⟩
      rintro rfl
      simp [ha] at hn
    · exact ⟨a, by simp, ha⟩

theorem FinalInv.rankedRounds_eq {m : Machine} (h : FinalInv m) {p : String} {n : ℕ} (he : EliminatedIn m p n) :
    rankedRounds m p = n := by
  rw [rankedRounds, (h.round_get p n).2 he]
  rfl

section Finished

variable (C : Collation) {m : Machine} (hr : RosterInv m) (h : EliminationsInv m) (now : Clock)
include hr h

/-- with several survivors and an eliminated player, a survivor stands below the eliminated player -/
theorem survivor_below (e : String) (hl : 1 < (m.finishMatch now).state.survivingPlayerIds.length)
    (he : e ∈ (m.finishMatch now).state.eliminatedPlayerIds) :
    ∃ a ∈ placedPlayers C (m.finishMatch now) (getPlayerScores (m.finishMatch now)),
      ∃ b ∈ placedPlayers C (m.finishMatch now) (getPlayerScores (m.finishMatch now)),
        a.player.userId ∈ (m.finishMatch now).state.survivingPlayerIds ∧ b.player.userId = e ∧
          b.placement < a.placement := by
  have hf := finish_finalInv hr h now
  have hp := finish_partition hr now
  generalize hfeq : m.finishMatch now = f at *
  obtain ⟨w, hwmem, hw⟩ := (finish_winner hr now hfeq.symm).2 (by
    rintro hnil
    simp [hnil] at hl)
  obtain ⟨s, hs, hsw⟩ := other_survivor hp.surviving_nodup hl w
  obtain ⟨n, hn⟩ := (hf.eliminated_iff e).1 he
  obtain ⟨ps, hps, rfl⟩ := mem_getPlayerScores ((hp.covers s).2 (.inl hs))
  obtain ⟨pe, hpe, rfl⟩ := mem_getPlayerScores ((hp.covers e).2 (.inr he))
  obtain ⟨a, ha, hida⟩ := placed_exists C f hps
  obtain ⟨b, hb, hidb⟩ := placed_exists C f hpe
  have hew : pe.userId ≠ w := by
    rintro rfl
    exact hp.disjoint _ hwmem he
  refine ⟨a, ha, b, hb, hida ▸ hs, hidb, placed_rounds_lt hb ha ?_ ?_ ?_⟩
  · rw [hidb, hw]
    exact fun heq => hew (Option.some.inj heq).symm
  · rw [hida, hw]
    exact fun heq => hsw (Option.some.inj heq).symm
  · rw [hida, hidb, hf.rankedRounds_eq hn, rankedRounds, hf.survivor_round hs]
    exact hf.eliminations.rounds _ hn

theorem respects_iff :
    RespectsSurvival (m.finishMatch now) (placedPlayers C (m.finishMatch now) (getPlayerScores (m.finishMatch now))) ↔
      ((m.finishMatch now).state.survivingPlayerIds.length ≤ 1 ∨ (m.finishMatch now).state.eliminatedPlayerIds = []) ∧
        WinnerOutlasts (m.finishMatch now) := by
  have hf := finish_finalInv hr h now
  have hp := finish_partition hr now
  have hbelow := survivor_below C hr h now
  generalize hfeq : m.finishMatch now = f at *
  obtain ⟨hknown, hsurvivor⟩ := finish_winner hr now hfeq.symm
  constructor
  · intro hresp
    constructor
    · by_contra hno
      simp only [not_or, not_le] at hno
      obtain ⟨e, he⟩ := List.exists_mem_of_ne_nil _ hno.2
      obtain ⟨a, ha, b, hb, hs, hid, hlt⟩ := hbelow e hno.1 he
      exact absurd (hresp.survivors a ha b hb hs (hid ▸ he)) (not_lt.2 hlt.le)
    · intro w n hw hn p k hk
      by_contra hlt
      rw [not_le] at hlt
      have hpw : p ≠ w := by
        rintro rfl
        have := (hf.rankedRounds_eq hn).symm.trans (hf.rankedRounds_eq hk)
        omega
      obtain ⟨sw, hsw, rfl⟩ := mem_getPlayerScores (hknown w hw)
      obtain ⟨sp, hsp, rfl⟩ := mem_getPlayerScores ((hp.covers p).2 (.inr ((hf.eliminated_iff p).2 ⟨k, hk⟩)))
      obtain ⟨a, ha, hida⟩ := placed_exists C f hsw
      obtain ⟨b, hb, hidb⟩ := placed_exists C f hsp
      have h1 := hresp.later b hb a ha k n (hidb ▸ hk) (hida ▸ hn) hlt
      have h2 := placed_winner_lt ha hb (hw.trans (congrArg some hida.symm)) (by
        rw [hw, hidb]
        exact fun heq => hpw (Option.some.inj heq).symm)
      omega
  · rintro ⟨hfew, hlast⟩
    refine ⟨?_, ?_, ?_⟩
    · intro w hw
      obtain ⟨sw, hsw, rfl⟩ := mem_getPlayerScores (hknown w hw)
      exact placed_winner_first C f hsw hw
    · -- the only survivor is the winner
      intro a ha b hb hs he
      have hone : f.state.survivingPlayerIds.length ≤ 1 := by
        rcases hfew with hfew | hnil
        · exact hfew
        · rw [hnil] at he
          cases he
      obtain ⟨w, hwmem, hw⟩ := hsurvivor (List.ne_nil_of_mem hs)
      have haw : a.player.userId = w := by
        match hl : f.state.survivingPlayerIds, hone with
        | [], _ =>
          rw [hl] at hs
          cases hs
        | [x], _ =>
          rw [hl, List.mem_singleton] at hs hwmem
          rw [hs, hwmem]
      refine placed_winner_lt ha hb (hw.trans (congrArg some haw.symm)) ?_
      rw [hw]
      intro heq
      exact hp.disjoint _ hwmem (by rw [Option.some.inj heq]; exact he)
    · intro a ha b hb n k hn hk hlt
      by_cases hwb : f.state.winnerId = some b.player.userId
      · exact absurd (hlast _ k hwb hk _ n hn) (not_le.2 hlt)
      · by_cases hwa : f.state.winnerId = some a.player.userId
        · exact placed_winner_lt ha hb hwa hwb
        · refine placed_rounds_lt ha hb hwa hwb ?_
          rw [hf.rankedRounds_eq hn, hf.rankedRounds_eq hk]
          exact hlt

end Finished

/-- what a run in the runner's order carries -/
structure PlacingInv (m : Machine) : Prop where
  wire : WireInv m
  snapshot : SnapshotInv m
  roster : RosterInv m
  eliminations : EliminationsInv m

/-- **Placements respect survival** in a match finished after a run in the runner's order exactly when at most one player
survived or nobody was eliminated, and the winner, if eliminated, was eliminated in the last round that eliminated
anybody. -/
theorem placements_respect_survival_iff (J : StringOps) (C : Collation) (matchId roomId : String)
    (players : List PlayerInfo) (acts : List Action) (hd : (players.map PlayerInfo.id).Nodup)
    (ha : ∀ p ∈ players, p.status = .active)
    (hg : Along (act J) RunnerOrder (Machine.create matchId roomId players) acts) (now : Clock) :
    let f := (reach J matchId roomId players acts).finishMatch now
    RespectsSurvival f (placedPlayers C f (getPlayerScores f)) ↔
      (f.state.survivingPlayerIds.length ≤ 1 ∨ f.state.eliminatedPlayerIds = []) ∧ WinnerOutlasts f := by
  intro f
  have h : PlacingInv (reach J matchId roomId players acts) := by
    refine run_inv (act J) RunnerOrder PlacingInv ?_ _ acts hg
      ⟨wireInv_create matchId roomId players hd, snapshotInv_create matchId roomId players,
        rosterInv_create matchId roomId players hd ha, eliminationsInv_create matchId roomId players⟩
    intro s a hs hi
    exact ⟨act_wireInv J s a hi.wire, act_snapshotInv J s a hs.1 hi.wire hi.snapshot,
      act_rosterInv J s a hs hi.wire hi.snapshot hi.roster, act_eliminationsInv J s a hi.wire hi.eliminations⟩
  exact respects_iff C h.roster h.eliminations now

/-- alice is the last survivor: she is first and bob second -/
theorem placements_respect_survival_duel :
    let acts : List Action := [.call (.transition .countdown fun _ => 0)] ++
      roundCalls [.submitAnswer "alice" "b" 100 none fun _ => 100] ++ [.call (.transition .finished fun _ => 15000)]
    let f := (reach StringOps.ascii "m1" "r1" [freshPlayer "alice", freshPlayer "bob"] acts).finishMatch fun _ => 15000
    f.state.survivingPlayerIds = ["alice"] ∧ f.state.eliminatedPlayerIds = ["bob"] ∧
      RespectsSurvival f (placedPlayers Collation.codeUnits f (getPlayerScores f)) := by
  intro acts f
  have hs : f.state.survivingPlayerIds = ["alice"] := by decide +kernel
  have he : eliminations f.eventLog = [("bob", 1)] := by decide +kernel
  have hg : Along (act StringOps.ascii) RunnerOrder
      (Machine.create "m1" "r1" [freshPlayer "alice", freshPlayer "bob"]) acts := by decide +kernel
  refine ⟨hs, by decide +kernel, (placements_respect_survival_iff StringOps.ascii Collation.codeUnits "m1" "r1"
    [freshPlayer "alice", freshPlayer "bob"] acts (by decide) (by decide) hg fun _ => 15000).2 ⟨.inl ?_, ?_⟩⟩
  · exact le_of_eq (congrArg List.length hs)
  · intro w n _ hn p k hk
    have hn' : (w, n) ∈ [("bob", 1)] := he ▸ hn
    have hk' : (p, k) ∈ [("bob", 1)] := he ▸ hk
    simp only [List.mem_singleton, Prod.mk.injEq] at hn' hk'
    omega

/-- alice and bob survive the only round, carol does not, and no question is left: bob is placed below carol -/
theorem capped_survivor_last :
    let acts : List Action := [.call (.transition .countdown fun _ => 0)] ++
      roundCalls [.submitAnswer "alice" "b" 100 none fun _ => 100, .submitAnswer "bob" "b" 200 none fun _ => 200] ++
      [.call (.transition .roundResult fun _ => 15000), .call (.transition .finished fun _ => 18000)]
    let f := (reach StringOps.ascii "m1" "r1" [freshPlayer "alice", freshPlayer "bob", freshPlayer "carol"]
      acts).finishMatch fun _ => 18000
    Along (act StringOps.ascii) RunnerOrder
        (Machine.create "m1" "r1" [freshPlayer "alice", freshPlayer "bob", freshPlayer "carol"]) acts ∧
      f.state.survivingPlayerIds = ["alice", "bob"] ∧ f.state.eliminatedPlayerIds = ["carol"] ∧
      (placedPlayers Collation.codeUnits f (getPlayerScores f)).map (fun a => (a.player.userId, a.placement)) =
        [("alice", 1), ("carol", 2), ("bob", 3)] ∧
      ¬ RespectsSurvival f (placedPlayers Collation.codeUnits f (getPlayerScores f)) := by
  intro acts f
  have hs : f.state.survivingPlayerIds = ["alice", "bob"] := by decide +kernel
  have he : f.state.eliminatedPlayerIds = ["carol"] := by decide +kernel
  have hp : (placedPlayers Collation.codeUnits f (getPlayerScores f)).map (fun a => (a.player.userId, a.placement)) =
      [("alice", 1), ("carol", 2), ("bob", 3)] := by decide +kernel
  refine ⟨by decide +kernel, hs, he, hp, ?_⟩
  intro hresp
  obtain ⟨a, ha, hbob⟩ := List.mem_map.1 (hp ▸ (by simp : ("bob", 3) ∈ [("alice", 1), ("carol", 2), ("bob", 3)]))
  obtain ⟨b, hb, hcarol⟩ := List.mem_map.1 (hp ▸ (by simp : ("carol", 2) ∈ [("alice", 1), ("carol", 2), ("bob", 3)]))
  simp only [Prod.mk.injEq] at hbob hcarol
  have hlt := hresp.survivors a ha b hb (by rw [hs, hbob.1]; simp) (by rw [he, hcarol.1]; simp)
  omega

end Arena.Api
