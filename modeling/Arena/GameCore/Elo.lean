/-
The rating engine (`elo-engine.ts`): placements of a finished match and the multiplayer ELO update.

Ratings are integer columns. The doubles of the expected scores are rationals here and each rounded operation on them is
a field of `FloatOps`, so that every result holds whatever the rounding does; `Math.round` is exact. `localeCompare` is
the `compare` of a `Collation`, of which only that it is a total preorder is used.

- `comparePlaced_le`: the comparator orders by winner, survived rounds, score and speed, then by the collation;
- `placement_lt`: a player with the smaller (winner, survived rounds) rank is placed better, whatever the scores are;
- `elo_delta`: every result has `newElo - currentElo = delta`, and each input has exactly one result;
- `elo_clamped`: a loss leaves no rating below zero, of the ratings it is computed from.
-/
import Arena.GameCore.Engines

namespace Arena.GameCore

open Arena.Lib Arena.Shared

/-! ## Placements -/

/-- `localeCompare` of the language -/
structure Collation where
  compare : String → String → ℚ
  total : ∀ a b, compare a b ≤ 0 ∨ compare b a ≤ 0
  trans : ∀ a b c, compare a b ≤ 0 → compare b c ≤ 0 → compare a c ≤ 0

/-- code-unit order, which `localeCompare` follows on lower-case ASCII text -/
def Collation.codeUnits : Collation where
  compare := compareText
  total a b := by simp only [compareText_le]; exact le_total _ _
  trans a b c := by simp only [compareText_le]; exact le_trans

/-- the argument of `assignPlacements` for one player -/
structure PlacementInput where
  userId : String
  score : ℤ
  avgResponseMs : Option Time
  survivedRounds : Option ℕ
  eliminatedInRound : Option ℕ
  isWinner : Bool
deriving DecidableEq, Repr

structure PlacedPlayer where
  player : PlacementInput
  placement : ℕ
deriving DecidableEq, Repr

/-- the winner id when it names one of the players -/
def effectiveWinnerId (players : List PlacementInput) (winnerId : Option String) : Option String :=
  winnerId.filter fun w => w ≠ "" && players.any fun p => p.userId = w

/-- whether the comparator takes a player for the winner -/
def ranksAsWinner (effectiveWinner : Option String) (p : PlacementInput) : Bool :=
  match effectiveWinner with
  | some w => p.userId = w
  | none => p.isWinner

def roundsOf (p : PlacementInput) : ℕ := (p.survivedRounds.or p.eliminatedInRound).getD 0

/-- the last two keys of the comparator: average response time (a missing one counts as infinitely slow, and of a
difference with it only the sign matters), then the user id -/
def compareSpeed (C : Collation) (a b : PlacementInput) : ℚ :=
  match a.avgResponseMs, b.avgResponseMs with
  | some aSpeed, some bSpeed => if aSpeed ≠ bSpeed then aSpeed - bSpeed else C.compare a.userId b.userId
  | none, some _ => 1
  | some _, none => -1
  | none, none => C.compare a.userId b.userId

/-- the comparator between two players of whom both or neither won -/
def compareRounds (C : Collation) (a b : PlacementInput) : ℚ :=
  if roundsOf b ≠ roundsOf a then (roundsOf b : ℚ) - roundsOf a
  else if b.score ≠ a.score then (b.score : ℚ) - a.score
  else compareSpeed C a b

/-- the comparator of `assignPlacements` -/
def comparePlaced (C : Collation) (effectiveWinner : Option String) (a b : PlacementInput) : ℚ :=
  let aIsWinner := ranksAsWinner effectiveWinner a
  let bIsWinner := ranksAsWinner effectiveWinner b
  if aIsWinner && !bIsWinner then -1
  else if !aIsWinner && bIsWinner then 1
  else compareRounds C a b

def assignPlacements (C : Collation) (players : List PlacementInput) (winnerId : Option String) : List PlacedPlayer :=
  (jsSort (comparePlaced C (effectiveWinnerId players winnerId)) players).zipIdx.map fun p => ⟨p.1, p.2 + 1⟩

/-- the average response as a number, infinite when there is none -/
def speedOf (p : PlacementInput) : WithTop ℚ :=
  match p.avgResponseMs with
  | some t => (t : WithTop ℚ)
  | none => ⊤

/-- what is compared before the collation: the winner before the others, more rounds before fewer, score, speed -/
def placementKey (effectiveWinner : Option String) (p : PlacementInput) : ℕ ×ₗ ℤ ×ₗ ℤ ×ₗ WithTop ℚ :=
  toLex (if ranksAsWinner effectiveWinner p then 0 else 1, toLex (-(roundsOf p : ℤ), toLex (-p.score, speedOf p)))

theorem compareSpeed_le (C : Collation) (a b : PlacementInput) :
    compareSpeed C a b ≤ 0 ↔ speedOf a < speedOf b ∨ speedOf a = speedOf b ∧ C.compare a.userId b.userId ≤ 0 := by
  unfold compareSpeed speedOf
  cases a.avgResponseMs with
  | none =>
    cases b.avgResponseMs with
    | none => simp
    | some y => simp [not_le.2 (zero_lt_one (α := ℚ))]
  | some x =>
    cases b.avgResponseMs with
    | none => simp
    | some y =>
      by_cases h : x = y
      · simp [h]
      · simp [h, lt_iff_le_and_ne]

theorem compareRounds_le (C : Collation) (a b : PlacementInput) :
    compareRounds C a b ≤ 0 ↔ roundsOf b < roundsOf a ∨ roundsOf b = roundsOf a ∧ (b.score < a.score ∨
      b.score = a.score ∧ (speedOf a < speedOf b ∨ speedOf a = speedOf b ∧ C.compare a.userId b.userId ≤ 0)) := by
  unfold compareRounds
  split_ifs with hr hs
  · rw [sub_nonpos, Nat.cast_le]
    omega
  · rw [sub_nonpos, Int.cast_le]
    omega
  · rw [compareSpeed_le]
    simp only [ne_eq, not_not] at hr hs
    simp [hr, hs]

theorem comparePlaced_le (C : Collation) (w : Option String) (a b : PlacementInput) :
    comparePlaced C w a b ≤ 0 ↔
      placementKey w a < placementKey w b ∨ placementKey w a = placementKey w b ∧ C.compare a.userId b.userId ≤ 0 := by
  have hrest := compareRounds_le C a b
  simp only [comparePlaced, placementKey, Prod.Lex.toLex_lt_toLex, toLex_inj, Prod.mk.injEq, neg_inj, neg_lt_neg_iff,
    Nat.cast_lt, Nat.cast_inj]
  cases ranksAsWinner w a <;> cases ranksAsWinner w b
  · simp only [Bool.not_false, Bool.and_true, Bool.false_eq_true, if_false, Bool.and_false, lt_self_iff_false, false_or,
      true_and, hrest]
    grind
  · simp [not_le.2 (zero_lt_one (α := ℚ))]
  · simp
  · simp only [Bool.not_true, Bool.and_true, Bool.false_eq_true, if_false, if_true, Bool.and_false, lt_self_iff_false,
      false_or, true_and, hrest]
    grind

theorem comparePlaced_total (C : Collation) (w : Option String) (a b : PlacementInput) :
    comparePlaced C w a b ≤ 0 ∨ comparePlaced C w b a ≤ 0 := by
  rw [comparePlaced_le, comparePlaced_le]
  rcases lt_trichotomy (placementKey w a) (placementKey w b) with h | h | h
  · exact .inl (.inl h)
  · rcases C.total a.userId b.userId with hc | hc
    · exact .inl (.inr ⟨h, hc⟩)
    · exact .inr (.inr ⟨h.symm, hc⟩)
  · exact .inr (.inl h)

theorem comparePlaced_trans (C : Collation) (w : Option String) (a b c : PlacementInput)
    (hab : comparePlaced C w a b ≤ 0) (hbc : comparePlaced C w b c ≤ 0) : comparePlaced C w a c ≤ 0 := by
  rw [comparePlaced_le] at hab hbc ⊢
  rcases hab with hab | ⟨hab, hcab⟩
  · rcases hbc with hbc | ⟨hbc, -⟩
    · exact .inl (hab.trans hbc)
    · exact .inl (hbc ▸ hab)
  · rcases hbc with hbc | ⟨hbc, hcbc⟩
    · exact .inl (hab ▸ hbc)
    · exact .inr ⟨hab.trans hbc, C.trans _ _ _ hcab hcbc⟩

theorem assignPlacements_players (C : Collation) (players : List PlacementInput) (winnerId : Option String) :
    ((assignPlacements C players winnerId).map PlacedPlayer.player).Perm players := by
  have h : (assignPlacements C players winnerId).map PlacedPlayer.player =
      jsSort (comparePlaced C (effectiveWinnerId players winnerId)) players := by
    rw [assignPlacements, List.map_map]
    exact List.zipIdx_map_fst 0 _
  rw [h]
  exact jsSort_perm _ _

/-- a better key is a better placement -/
theorem placement_lt (C : Collation) (players : List PlacementInput) (winnerId : Option String) {a b : PlacedPlayer}
    (ha : a ∈ assignPlacements C players winnerId) (hb : b ∈ assignPlacements C players winnerId)
    (h : placementKey (effectiveWinnerId players winnerId) a.player <
      placementKey (effectiveWinnerId players winnerId) b.player) : a.placement < b.placement := by
  obtain ⟨⟨x, i⟩, hx, rfl⟩ := List.mem_map.1 ha
  obtain ⟨⟨y, j⟩, hy, rfl⟩ := List.mem_map.1 hb
  rw [List.mem_zipIdx_iff_getElem?] at hx hy
  have hsorted := jsSort_sorted (comparePlaced C (effectiveWinnerId players winnerId))
    (comparePlaced_total C _) (comparePlaced_trans C _) players
  by_contra hle
  have hji : j ≤ i := by simp only [not_lt] at hle; omega
  rcases hji.lt_or_eq with hlt | rfl
  · -- a later element never has the better key
    have hpair := List.pairwise_iff_getElem.1 hsorted j i (List.getElem?_eq_some_iff.1 hy).1
      (List.getElem?_eq_some_iff.1 hx).1 hlt
    rw [(List.getElem?_eq_some_iff.1 hy).2, (List.getElem?_eq_some_iff.1 hx).2, comparePlaced_le] at hpair
    rcases hpair with hk | ⟨hk, -⟩
    · exact absurd (h.trans hk) (lt_irrefl _)
    · exact absurd (hk ▸ h) (lt_irrefl _)
  · obtain rfl : x = y := Option.some.inj (hx.symm.trans hy)
    exact lt_irrefl _ h

/-! ## Ratings -/

/-- the double operations of the rating formula, on the rationals the doubles are -/
structure FloatOps where
  add : ℚ → ℚ → ℚ
  sub : ℚ → ℚ → ℚ
  mul : ℚ → ℚ → ℚ
  div : ℚ → ℚ → ℚ
  /-- `1 / (1 + Math.pow(10, (rJ - rI) / 400))` -/
  expected : ℤ → ℤ → ℚ

/-- exact arithmetic; `expected` is the formula's value for equal ratings and for ratings 400 apart -/
def FloatOps.exact : FloatOps where
  add a b := a + b
  sub a b := a - b
  mul a b := a * b
  div a b := a / b
  expected rI rJ := if rJ - rI = 400 then 1 / 11 else if rJ - rI = -400 then 10 / 11 else 1 / 2

def defaultElo : ℤ := 1200
def defaultKFactor : ℚ := 32

structure EloPlayerInput where
  userId : String
  currentElo : ℤ
  placement : ℕ
  score : ℤ
deriving DecidableEq, Repr

structure EloCalculationResult where
  userId : String
  currentElo : ℤ
  newElo : ℤ
  delta : ℤ
  placement : ℕ
  score : ℤ
deriving DecidableEq, Repr

/-- `Math.round` -/
def mathRound (x : ℚ) : ℤ := (x + 1 / 2).floor

/-- the score of one pairing, by placement -/
def actualAgainst (playerI playerJ : EloPlayerInput) : ℚ :=
  if playerI.placement < playerJ.placement then 1 else if playerI.placement = playerJ.placement then 1 / 2 else 0

/-- the loop over the opponents of player `i`: expected and actual sums -/
def eloSums (F : FloatOps) (players : List EloPlayerInput) (i : ℕ) (playerI : EloPlayerInput) : ℚ × ℚ :=
  players.zipIdx.foldl (fun sums p =>
    if p.2 = i then sums
    else (F.add sums.1 (F.expected playerI.currentElo p.1.currentElo), F.add sums.2 (actualAgainst playerI p.1))) (0, 0)

/-- the result of player `i` among at least two -/
def eloResult (F : FloatOps) (players : List EloPlayerInput) (kFactor : ℚ) (i : ℕ) (playerI : EloPlayerInput) :
    EloCalculationResult :=
  let kNorm := F.div kFactor ((players.length : ℚ) - 1)
  let sums := eloSums F players i playerI
  let rawDelta := F.mul kNorm (F.sub sums.2 sums.1)
  let newElo := max 0 (playerI.currentElo + mathRound rawDelta)
  ⟨playerI.userId, playerI.currentElo, newElo, newElo - playerI.currentElo, playerI.placement, playerI.score⟩

/-- the check that every `currentElo` is finite always passes: ratings are integers here -/
def calculateMultiplayerElo (F : FloatOps) (players : List EloPlayerInput) (kFactor : ℚ) : List EloCalculationResult :=
  match players with
  | [] => []
  | [p] => [⟨p.userId, p.currentElo, p.currentElo, 0, p.placement, p.score⟩]
  | players => players.zipIdx.map fun p => eloResult F players kFactor p.2 p.1

theorem calculateMultiplayerElo_users (F : FloatOps) (players : List EloPlayerInput) (kFactor : ℚ) :
    (calculateMultiplayerElo F players kFactor).map (fun r => (r.userId, r.currentElo)) =
      players.map fun p => (p.userId, p.currentElo) := by
  unfold calculateMultiplayerElo
  split
  · rfl
  · rfl
  · rw [List.map_map]
    conv_rhs => rw [← List.zipIdx_map_fst 0 players, List.map_map]
    rfl

/-- **The rating books balance.** -/
theorem elo_delta (F : FloatOps) (players : List EloPlayerInput) (kFactor : ℚ) (r : EloCalculationResult)
    (hr : r ∈ calculateMultiplayerElo F players kFactor) : r.newElo - r.currentElo = r.delta := by
  unfold calculateMultiplayerElo at hr
  split at hr
  · cases hr
  · obtain rfl := List.mem_singleton.1 hr
    exact sub_self _
  · obtain ⟨p, -, rfl⟩ := List.mem_map.1 hr
    rfl

/-- a rating that loses points is clamped at zero -/
theorem elo_clamped (F : FloatOps) (players : List EloPlayerInput) (kFactor : ℚ) (r : EloCalculationResult)
    (hr : r ∈ calculateMultiplayerElo F players kFactor) (hloss : r.delta < 0) : 0 ≤ r.newElo := by
  unfold calculateMultiplayerElo at hr
  split at hr
  · cases hr
  · obtain rfl := List.mem_singleton.1 hr
    exact absurd hloss (lt_irrefl 0)
  · obtain ⟨p, -, rfl⟩ := List.mem_map.1 hr
    exact le_max_left 0 _

end Arena.GameCore
