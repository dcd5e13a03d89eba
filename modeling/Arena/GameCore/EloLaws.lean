/-
The laws of the rating update (`calculateMultiplayerElo`) over exact numbers.

The numbers are any ordered field with a floor, so the rationals and the reals are instances. Of the expected score of a
pairing only an `Expectation` is used: it lies between 0 and 1, the two sides of a pairing add up to 1, and it grows with
the difference of the ratings. `logistic` is the formula of the source over the reals.

A pairing is worth the actual less the expected score (`margin`), which the other side has with the opposite sign.

- `rawDeltas_sum`: before rounding nothing is won or lost;
- `rawDelta_lt`: nobody moves by K or more;
- `rawDelta_mono`: of two equal ratings the better placed one moves up at least as far;
- `elo_laws`: these, and what rounding and the floor at 0 leave of them;
- `calculateMultiplayerElo_exact`: on whole ratings this is the rating engine with exact operations.
-/
import Arena.GameCore.Elo
import Mathlib.Algebra.BigOperators.Fin
import Mathlib.Algebra.Order.BigOperators.Group.Finset
import Mathlib.Analysis.SpecialFunctions.Pow.Real

namespace Arena.GameCore.EloLaws

/-! ## Model -/

structure EloPlayer (R : Type) where
  userId : String
  currentElo : R
  placement : R
  score : R

structure EloResult (R : Type) where
  userId : String
  currentElo : R
  newElo : R
  delta : R
  placement : R
  score : R

/-- `1 / (1 + Math.pow(10, (rJ - rI) / 400))`, of which only its laws are used -/
structure Expectation (R : Type) [Field R] [LinearOrder R] where
  of : R → R → R
  pos : ∀ a b, 0 < of a b
  lt_one : ∀ a b, of a b < 1
  complement : ∀ a b, of a b + of b a = 1
  mono : ∀ a b a' b', a - b ≤ a' - b' → of a b ≤ of a' b'

section Laws

variable {R : Type} [Field R] [LinearOrder R]

/-- the score of one pairing, by placement -/
def actualAgainst (playerI playerJ : EloPlayer R) : R :=
  if playerI.placement < playerJ.placement then 1 else if playerI.placement = playerJ.placement then 1 / 2 else 0

/-- the loop over the opponents of player `i`: expected and actual sums -/
def eloSums (E : Expectation R) (players : List (EloPlayer R)) (i : ℕ) (playerI : EloPlayer R) : R × R :=
  players.zipIdx.foldl (fun sums p =>
    if p.2 = i then sums
    else (sums.1 + E.of playerI.currentElo p.1.currentElo, sums.2 + actualAgainst playerI p.1)) (0, 0)

def rawDelta (E : Expectation R) (players : List (EloPlayer R)) (kFactor : R) (i : ℕ) (playerI : EloPlayer R) : R :=
  let kNorm := kFactor / ((players.length : R) - 1)
  let sums := eloSums E players i playerI
  kNorm * (sums.2 - sums.1)

/-- `Math.round` -/
def mathRound [FloorRing R] (x : R) : ℤ := ⌊x + 1 / 2⌋

/-- the result of player `i` among at least two -/
def eloResult [FloorRing R] (E : Expectation R) (players : List (EloPlayer R)) (kFactor : R) (i : ℕ)
    (playerI : EloPlayer R) : EloResult R :=
  let newElo := max 0 (playerI.currentElo + mathRound (rawDelta E players kFactor i playerI))
  ⟨playerI.userId, playerI.currentElo, newElo, newElo - playerI.currentElo, playerI.placement, playerI.score⟩

def calculateMultiplayerElo [FloorRing R] (E : Expectation R) (players : List (EloPlayer R)) (kFactor : R) :
    List (EloResult R) :=
  match players with
  | [] => []
  | [p] => [⟨p.userId, p.currentElo, p.currentElo, 0, p.placement, p.score⟩]
  | players => players.zipIdx.map fun p => eloResult E players kFactor p.2 p.1

/-- every player of two or more has the result computed from the whole list -/
theorem calculateMultiplayerElo_get [FloorRing R] (E : Expectation R) {players : List (EloPlayer R)} (kFactor : R)
    (hn : 2 ≤ players.length) (i : Fin players.length) :
    (calculateMultiplayerElo E players kFactor)[i.val]? = some (eloResult E players kFactor i players[i]) := by
  rcases players with _ | ⟨a, _ | ⟨b, rest⟩⟩
  · exact absurd hn (by simp)
  · exact absurd hn (by simp)
  · simp only [calculateMultiplayerElo, List.getElem?_map, List.getElem?_zipIdx, List.getElem?_eq_getElem i.isLt,
      Option.map_some, Nat.zero_add]
    rfl

/-! ## Sums over the opponents -/

theorem sum_zipIdx {α M : Type} [AddCommMonoid M] (l : List α) (f : α × ℕ → M) :
    (l.zipIdx.map f).sum = ∑ j : Fin l.length, f (l[j], j) := by
  have hofFn : l.zipIdx.map f = List.ofFn fun j : Fin l.length => f (l[j], j) := by
    apply List.ext_getElem
    · simp
    · intro n h1 h2
      simp
  rw [hofFn, List.sum_ofFn]

/-- what player `i` takes from the pairing with player `j`: the actual score less the expected one -/
def margin (E : Expectation R) (players : List (EloPlayer R)) (i j : Fin players.length) : R :=
  if j = i then 0
  else actualAgainst players[i] players[j] - E.of players[i].currentElo players[j].currentElo

theorem eloSums_foldl (E : Expectation R) (playerI : EloPlayer R) (i : ℕ) (l : List (EloPlayer R × ℕ)) (sums : R × R) :
    (l.foldl (fun sums p =>
        if p.2 = i then sums
        else (sums.1 + E.of playerI.currentElo p.1.currentElo, sums.2 + actualAgainst playerI p.1)) sums).2 -
      (l.foldl (fun sums p =>
        if p.2 = i then sums
        else (sums.1 + E.of playerI.currentElo p.1.currentElo, sums.2 + actualAgainst playerI p.1)) sums).1 =
      sums.2 - sums.1 + (l.map fun p =>
        if p.2 = i then 0 else actualAgainst playerI p.1 - E.of playerI.currentElo p.1.currentElo).sum := by
  induction l generalizing sums with
  | nil => simp
  | cons p l ih =>
    rw [List.foldl_cons, ih, List.map_cons, List.sum_cons]
    split_ifs
    · ring
    · ring

theorem rawDelta_eq (E : Expectation R) (players : List (EloPlayer R)) (kFactor : R) (i : Fin players.length) :
    rawDelta E players kFactor i players[i] =
      kFactor / ((players.length : R) - 1) * ∑ j, margin E players i j := by
  have hsum := eloSums_foldl E players[i] i players.zipIdx (0, 0)
  rw [sum_zipIdx] at hsum
  simp only [rawDelta, eloSums]
  rw [hsum]
  simp only [sub_self, zero_add, margin, Fin.ext_iff]

/-! ## One pairing -/

variable [IsStrictOrderedRing R]

theorem actualAgainst_nonneg (p q : EloPlayer R) : 0 ≤ actualAgainst p q := by
  unfold actualAgainst
  split_ifs <;> norm_num

theorem actualAgainst_le_one (p q : EloPlayer R) : actualAgainst p q ≤ 1 := by
  unfold actualAgainst
  split_ifs <;> norm_num

/-- the two sides of a pairing share one point -/
theorem actualAgainst_complement (p q : EloPlayer R) : actualAgainst p q + actualAgainst q p = 1 := by
  unfold actualAgainst
  rcases lt_trichotomy p.placement q.placement with h | h | h
  · simp [h, h.not_gt, h.ne']
  · norm_num [h]
  · simp [h, h.not_gt, h.ne']

/-- a better placement scores no less against the same opponent -/
theorem actualAgainst_mono {p q r : EloPlayer R} (h : p.placement < q.placement) :
    actualAgainst q r ≤ actualAgainst p r := by
  by_cases hp : p.placement < r.placement
  · rw [show actualAgainst p r = 1 from if_pos hp]
    exact actualAgainst_le_one q r
  · have hq : actualAgainst q r = 0 := by
      have hlt : r.placement < q.placement := lt_of_le_of_lt (not_lt.1 hp) h
      unfold actualAgainst
      rw [if_neg hlt.not_gt, if_neg hlt.ne']
    rw [hq]
    exact actualAgainst_nonneg p r

/-- what one side of a pairing takes the other one gives -/
theorem margin_antisymm (E : Expectation R) (players : List (EloPlayer R)) (i j : Fin players.length) :
    margin E players i j = -margin E players j i := by
  unfold margin
  by_cases h : j = i
  · rw [if_pos h, if_pos h.symm, neg_zero]
  · rw [if_neg h, if_neg (Ne.symm h)]
    have hactual := actualAgainst_complement players[i] players[j]
    have hexpected := E.complement players[i].currentElo players[j].currentElo
    linarith

theorem margin_abs_lt (E : Expectation R) (players : List (EloPlayer R)) (i j : Fin players.length) :
    |margin E players i j| < 1 := by
  unfold margin
  split_ifs
  · norm_num
  · have hpos := E.pos players[i].currentElo players[j].currentElo
    have hlt := E.lt_one players[i].currentElo players[j].currentElo
    have hnonneg := actualAgainst_nonneg players[i] players[j]
    have hone := actualAgainst_le_one players[i] players[j]
    rw [abs_lt]
    constructor <;> linarith

/-! ## The unrounded changes -/

/-- **Nothing is won or lost** before rounding. -/
theorem rawDeltas_sum (E : Expectation R) (players : List (EloPlayer R)) (kFactor : R) :
    ∑ i : Fin players.length, rawDelta E players kFactor i players[i] = 0 := by
  simp only [rawDelta_eq]
  rw [← Finset.mul_sum]
  -- swapping the two players of every pairing turns the sum into its opposite
  have hswap : ∑ i, ∑ j, margin E players i j = -∑ i, ∑ j, margin E players i j := by
    calc ∑ i, ∑ j, margin E players i j = ∑ j, ∑ i, margin E players i j := Finset.sum_comm
      _ = ∑ j, ∑ i, -margin E players j i :=
        Finset.sum_congr rfl fun j _ => Finset.sum_congr rfl fun i _ => margin_antisymm E players i j
      _ = -∑ i, ∑ j, margin E players i j := by simp only [Finset.sum_neg_distrib]
  have hzero : ∑ i, ∑ j, margin E players i j = 0 := by linarith
  rw [hzero, mul_zero]

/-- the margins of a player against `n - 1` opponents stay below `n - 1` -/
theorem margins_abs_lt (E : Expectation R) {players : List (EloPlayer R)} (hn : 2 ≤ players.length)
    (i : Fin players.length) : |∑ j, margin E players i j| < (players.length : R) - 1 := by
  obtain ⟨o, ho⟩ : ∃ o : Fin players.length, o ≠ i := by
    have : Nontrivial (Fin players.length) := Fin.nontrivial_iff_two_le.2 hn
    exact exists_ne i
  have hself : margin E players i i = 0 := if_pos rfl
  have hsplit : ∑ j, |margin E players i j| = ∑ j ∈ Finset.univ.erase i, |margin E players i j| := by
    rw [← Finset.add_sum_erase _ _ (Finset.mem_univ i), hself, abs_zero, zero_add]
  have hcard : ∑ _j ∈ Finset.univ.erase i, (1 : R) = (players.length : R) - 1 := by
    rw [Finset.sum_const, Finset.card_erase_of_mem (Finset.mem_univ i), Finset.card_univ, Fintype.card_fin, nsmul_one,
      Nat.cast_sub (by omega), Nat.cast_one]
  calc |∑ j, margin E players i j| ≤ ∑ j, |margin E players i j| := Finset.abs_sum_le_sum_abs _ _
    _ = ∑ j ∈ Finset.univ.erase i, |margin E players i j| := hsplit
    _ < ∑ _j ∈ Finset.univ.erase i, (1 : R) :=
      Finset.sum_lt_sum (fun j _ => (margin_abs_lt E players i j).le)
        ⟨o, Finset.mem_erase.2 ⟨ho, Finset.mem_univ o⟩, margin_abs_lt E players i o⟩
    _ = (players.length : R) - 1 := hcard

theorem opponents_pos {players : List (EloPlayer R)} (hn : 2 ≤ players.length) : 0 < (players.length : R) - 1 := by
  have : (2 : R) ≤ players.length := by exact_mod_cast hn
  linarith

/-- **Nobody moves by K or more.** -/
theorem rawDelta_lt (E : Expectation R) {players : List (EloPlayer R)} {kFactor : R} (hk : 0 < kFactor)
    (hn : 2 ≤ players.length) (i : Fin players.length) : |rawDelta E players kFactor i players[i]| < kFactor := by
  have hpos := opponents_pos hn
  rw [rawDelta_eq, abs_mul, abs_of_pos (div_pos hk hpos)]
  calc kFactor / ((players.length : R) - 1) * |∑ j, margin E players i j|
      < kFactor / ((players.length : R) - 1) * ((players.length : R) - 1) :=
        mul_lt_mul_of_pos_left (margins_abs_lt E hn i) (div_pos hk hpos)
    _ = kFactor := div_mul_cancel₀ kFactor hpos.ne'

/-- against each opponent the better placed of two equal ratings takes at least as much, their own pairing apart -/
theorem margin_le {E : Expectation R} {players : List (EloPlayer R)} {i j : Fin players.length}
    (helo : players[i].currentElo = players[j].currentElo) (hplace : players[i].placement < players[j].placement)
    (o : Fin players.length) : margin E players j (Equiv.swap i j o) ≤ margin E players i o := by
  have hij : i ≠ j := by
    rintro rfl
    exact lt_irrefl _ hplace
  by_cases hi : o = i
  · rw [hi, Equiv.swap_apply_left, margin, margin, if_pos rfl, if_pos rfl]
  · by_cases hj : o = j
    · -- their own pairing: the better placed one has the point, the expectation is a half
      have hzero : actualAgainst players[j] players[i] = 0 := by
        unfold actualAgainst
        rw [if_neg hplace.not_gt, if_neg hplace.ne']
      have hone : actualAgainst players[i] players[j] = 1 := if_pos hplace
      rw [hj, Equiv.swap_apply_right, margin, margin, if_neg hij, if_neg hij.symm, hzero, hone, helo]
      norm_num
    · rw [Equiv.swap_apply_of_ne_of_ne hi hj, margin, margin, if_neg hj, if_neg hi, helo]
      have hmono := actualAgainst_mono (r := players[o]) hplace
      linarith

/-- **Of two equal ratings the better placed one moves up at least as far.** -/
theorem rawDelta_mono (E : Expectation R) {players : List (EloPlayer R)} {kFactor : R} (hk : 0 < kFactor)
    (hn : 2 ≤ players.length) {i j : Fin players.length} (helo : players[i].currentElo = players[j].currentElo)
    (hplace : players[i].placement < players[j].placement) :
    rawDelta E players kFactor j players[j] ≤ rawDelta E players kFactor i players[i] := by
  rw [rawDelta_eq, rawDelta_eq]
  refine mul_le_mul_of_nonneg_left ?_ (div_pos hk (opponents_pos hn)).le
  calc ∑ o, margin E players j o = ∑ o, margin E players j (Equiv.swap i j o) :=
        (Equiv.sum_comp (Equiv.swap i j) fun o => margin E players j o).symm
    _ ≤ ∑ o, margin E players i o := Finset.sum_le_sum fun o _ => margin_le helo hplace o

/-! ## Rounding -/

section Rounding

variable [FloorRing R]

theorem mathRound_dist (x : R) : |(mathRound x : R) - x| ≤ 1 / 2 := by
  have hle := Int.floor_le (x + 1 / 2)
  have hlt := Int.lt_floor_add_one (x + 1 / 2)
  unfold mathRound
  rw [abs_le]
  constructor <;> linarith

theorem mathRound_mono {x y : R} (h : x ≤ y) : mathRound x ≤ mathRound y := Int.floor_le_floor (by linarith)

/-- what rounding takes and gives over all players is at most a half each -/
theorem rounded_sum (E : Expectation R) (players : List (EloPlayer R)) (kFactor : R) :
    |∑ i : Fin players.length, (mathRound (rawDelta E players kFactor i players[i]) : R)| ≤
      (players.length : R) / 2 := by
  have hdiff : ∑ i : Fin players.length, (mathRound (rawDelta E players kFactor i players[i]) : R) =
      ∑ i : Fin players.length,
        ((mathRound (rawDelta E players kFactor i players[i]) : R) - rawDelta E players kFactor i players[i]) := by
    rw [Finset.sum_sub_distrib, rawDeltas_sum, sub_zero]
  rw [hdiff]
  calc |∑ i : Fin players.length,
          ((mathRound (rawDelta E players kFactor i players[i]) : R) - rawDelta E players kFactor i players[i])|
      ≤ ∑ i : Fin players.length,
          |(mathRound (rawDelta E players kFactor i players[i]) : R) - rawDelta E players kFactor i players[i]| :=
        Finset.abs_sum_le_sum_abs _ _
    _ ≤ ∑ _i : Fin players.length, (1 / 2 : R) := Finset.sum_le_sum fun i _ => mathRound_dist _
    _ = (players.length : R) / 2 := by
      rw [Finset.sum_const, Finset.card_univ, Fintype.card_fin, nsmul_eq_mul, mul_one_div]

/-- **The laws of the rating update.** For two or more players: each result names its player, never falls below 0 and
has the change in `delta`; before rounding the changes add up to 0 and each is below K; rounded, they add up to at most
half a point a player; and of two players with one rating the better placed one gains at least as much. -/
theorem elo_laws (E : Expectation R) {kFactor : R} (hk : 0 < kFactor) (players : List (EloPlayer R))
    (hn : 2 ≤ players.length) :
    (∀ i : Fin players.length, ∃ r, (calculateMultiplayerElo E players kFactor)[i.val]? = some r ∧
      r.userId = players[i].userId ∧ r.currentElo = players[i].currentElo ∧
      r.newElo = max 0 (players[i].currentElo + mathRound (rawDelta E players kFactor i players[i])) ∧
      0 ≤ r.newElo ∧ r.delta = r.newElo - r.currentElo) ∧
    ∑ i : Fin players.length, rawDelta E players kFactor i players[i] = 0 ∧
    (∀ i : Fin players.length, |rawDelta E players kFactor i players[i]| < kFactor) ∧
    |∑ i : Fin players.length, (mathRound (rawDelta E players kFactor i players[i]) : R)| ≤ (players.length : R) / 2 ∧
    ∀ i j : Fin players.length, players[i].currentElo = players[j].currentElo →
      players[i].placement < players[j].placement →
      ∃ r s, (calculateMultiplayerElo E players kFactor)[i.val]? = some r ∧
        (calculateMultiplayerElo E players kFactor)[j.val]? = some s ∧ s.delta ≤ r.delta := by
  refine ⟨fun i => ?_, rawDeltas_sum E players kFactor, rawDelta_lt E hk hn, rounded_sum E players kFactor,
    fun i j helo hplace => ?_⟩
  · exact ⟨_, calculateMultiplayerElo_get E kFactor hn i, rfl, rfl, rfl, le_max_left _ _, rfl⟩
  · refine ⟨_, _, calculateMultiplayerElo_get E kFactor hn i, calculateMultiplayerElo_get E kFactor hn j, ?_⟩
    have hround : (mathRound (rawDelta E players kFactor j players[j]) : R) ≤
        mathRound (rawDelta E players kFactor i players[i]) := by
      exact_mod_cast mathRound_mono (rawDelta_mono E hk hn helo hplace)
    simp only [eloResult, helo]
    exact sub_le_sub_right (max_le_max le_rfl (by linarith)) _

end Rounding

end Laws

/-! ## The expectation of the source -/

/-- `Math.pow(10, (rJ - rI) / 400)` over the reals -/
noncomputable def odds (rI rJ : ℝ) : ℝ := 10 ^ ((rJ - rI) / 400)

theorem odds_pos (rI rJ : ℝ) : 0 < odds rI rJ := Real.rpow_pos_of_pos (by norm_num) _

theorem odds_mul (rI rJ : ℝ) : odds rI rJ * odds rJ rI = 1 := by
  unfold odds
  rw [← Real.rpow_add (by norm_num)]
  have hzero : (rJ - rI) / 400 + (rI - rJ) / 400 = 0 := by ring
  rw [hzero, Real.rpow_zero]

theorem odds_anti {a b a' b' : ℝ} (h : a - b ≤ a' - b') : odds a' b' ≤ odds a b := by
  unfold odds
  exact Real.rpow_le_rpow_of_exponent_le (by norm_num) (by linarith)

/-- **The formula of the source is an expectation.** -/
noncomputable def logistic : Expectation ℝ where
  of rI rJ := 1 / (1 + odds rI rJ)
  pos a b := by
    have := odds_pos a b
    positivity
  lt_one a b := by
    have := odds_pos a b
    rw [div_lt_one (by positivity)]
    linarith
  complement a b := by
    have hab := odds_pos a b
    have hba := odds_pos b a
    have hmul := odds_mul a b
    field_simp
    linarith
  mono a b a' b' h := by
    have := odds_pos a' b'
    have := odds_anti h
    gcongr

/-- the laws hold of the source's formula, at the default K and two players -/
theorem elo_laws_logistic :
    let players : List (EloPlayer ℝ) := [⟨"a", 1200, 1, 10⟩, ⟨"b", 1200, 2, 5⟩]
    ∃ r s, (calculateMultiplayerElo logistic players 32)[0]? = some r ∧
      (calculateMultiplayerElo logistic players 32)[1]? = some s ∧ s.delta ≤ r.delta := by
  intro players
  exact (elo_laws logistic (by norm_num : (0 : ℝ) < 32) players (le_refl 2)).2.2.2.2 ⟨0, Nat.zero_lt_two⟩
    ⟨1, Nat.one_lt_two⟩ rfl (by norm_num [players])

/-! ## The rating engine -/

/-- exact operations with a given expectation -/
def exactOps (E : Expectation ℚ) : FloatOps where
  add a b := a + b
  sub a b := a - b
  mul a b := a * b
  div a b := a / b
  expected rI rJ := E.of rI rJ

def ofInput (p : EloPlayerInput) : EloPlayer ℚ := ⟨p.userId, p.currentElo, p.placement, p.score⟩

def ofResult (r : EloCalculationResult) : EloResult ℚ :=
  ⟨r.userId, r.currentElo, r.newElo, r.delta, r.placement, r.score⟩

theorem actualAgainst_ofInput (p q : EloPlayerInput) :
    actualAgainst (ofInput p) (ofInput q) = GameCore.actualAgainst p q := by
  simp [actualAgainst, GameCore.actualAgainst, ofInput]

theorem zipIdx_ofInput (players : List EloPlayerInput) :
    (players.map ofInput).zipIdx = players.zipIdx.map fun p => (ofInput p.1, p.2) := by
  rw [List.zipIdx_map]
  rfl

theorem eloSums_ofInput (E : Expectation ℚ) (players : List EloPlayerInput) (i : ℕ) (p : EloPlayerInput) :
    eloSums E (players.map ofInput) i (ofInput p) = GameCore.eloSums (exactOps E) players i p := by
  unfold eloSums GameCore.eloSums
  rw [zipIdx_ofInput, List.foldl_map]
  simp only [actualAgainst_ofInput]
  rfl

theorem eloResult_ofInput (E : Expectation ℚ) (players : List EloPlayerInput) (kFactor : ℚ) (i : ℕ)
    (p : EloPlayerInput) : eloResult E (players.map ofInput) kFactor i (ofInput p) =
      ofResult (GameCore.eloResult (exactOps E) players kFactor i p) := by
  have hraw : rawDelta E (players.map ofInput) kFactor i (ofInput p) =
      (exactOps E).mul ((exactOps E).div kFactor ((players.length : ℚ) - 1))
        ((exactOps E).sub (GameCore.eloSums (exactOps E) players i p).2
          (GameCore.eloSums (exactOps E) players i p).1) := by
    simp only [rawDelta, eloSums_ofInput, List.length_map]
    rfl
  unfold eloResult GameCore.eloResult
  rw [hraw]
  simp only [ofResult, ofInput, EloResult.mk.injEq, true_and]
  constructor
  · push_cast
    rfl
  · push_cast
    exact ⟨rfl, trivial⟩

/-- **On whole ratings the laws are about the rating engine** with exact operations. -/
theorem calculateMultiplayerElo_exact (E : Expectation ℚ) (players : List EloPlayerInput) (kFactor : ℚ) :
    calculateMultiplayerElo E (players.map ofInput) kFactor =
      (GameCore.calculateMultiplayerElo (exactOps E) players kFactor).map ofResult := by
  rcases players with _ | ⟨a, _ | ⟨b, rest⟩⟩
  · rfl
  · simp [calculateMultiplayerElo, GameCore.calculateMultiplayerElo, ofInput, ofResult]
  · have hcalc : calculateMultiplayerElo E ((a :: b :: rest).map ofInput) kFactor =
        ((a :: b :: rest).map ofInput).zipIdx.map fun p =>
          eloResult E ((a :: b :: rest).map ofInput) kFactor p.2 p.1 := rfl
    have hengine : GameCore.calculateMultiplayerElo (exactOps E) (a :: b :: rest) kFactor =
        (a :: b :: rest).zipIdx.map fun p => GameCore.eloResult (exactOps E) (a :: b :: rest) kFactor p.2 p.1 := rfl
    rw [hcalc, hengine, zipIdx_ofInput, List.map_map, List.map_map]
    exact List.map_congr_left fun p _ => eloResult_ofInput E (a :: b :: rest) kFactor p.2 p.1

end Arena.GameCore.EloLaws
