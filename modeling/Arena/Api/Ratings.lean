/-
The ratings of users whose matches finish together: the transactions of `finishMatch` for any number of matches, statement
by statement under READ COMMITTED.

A transaction claims its match row, reads the ratings, writes the MatchPlayer rows one by one, increments the ratings
group by group and commits. A statement that meets a row of another transaction waits. The room update and the final
read of the match touch no rating and are left out.

- `RatingsInv.settles`: no increment is lost, so a rating is its first value plus the deltas recorded for its user;
- `FloorInv`, `step_floorInv`: a transaction clamps a loss at zero for the rating it has read, and an increment applies it
  to the rating committed by then. The floor stands while no other loss is committed in between;
- `ratings_books`: both, over every interleaving;
- `rating_below_zero`: two matches that bob loses, read before either commits.
-/
import Arena.Api.Results
import Arena.Lib.ReadCommitted

namespace Arena.Api

open Arena.Lib Arena.Shared Arena.GameCore Arena.GameCore.Machine

/-! ## Transactions -/

/-- the statement a finish transaction is at; without statements left it commits -/
inductive FinishStage where
  | claim
  | readRatings
  | recordRows (results : List EloCalculationResult) (todo : List PlayerScore)
  | incrementRatings (results : List EloCalculationResult) (todo : List (ℤ × List String))

/-- the results that a transaction has computed, from the ratings it has read -/
def FinishStage.results : FinishStage → List EloCalculationResult
  | .recordRows results _ | .incrementRatings results _ => results
  | _ => []

structure RatingTx where
  matchId : String
  isAdminTermination : Bool
  /-- the scores read before the transaction; none without a machine -/
  playerScores : Option (List PlayerScore)
  stage : FinishStage

structure Ratings where
  /-- whether a match is FINISHED -/
  finished : Rows ℕ String Bool
  /-- `User.elo` -/
  elo : Rows ℕ String ℤ
  /-- `MatchPlayer.eloDelta`, by match and user -/
  eloDelta : Rows ℕ (String × String) (Option ℤ)
  txs : ℕ → Option RatingTx

namespace Ratings

def init (elo : String → ℤ) : Ratings :=
  ⟨.settled fun _ => false, .settled elo, .settled fun _ => none, fun _ => none⟩

def setTx (s : Ratings) (t : ℕ) (tx : Option RatingTx) : Ratings := { s with txs := Function.update s.txs t tx }

def commit (s : Ratings) (t : ℕ) : Ratings :=
  { s with finished := s.finished.commit t, elo := s.elo.commit t, eloDelta := s.eloDelta.commit t }.setTx t none

def rollback (s : Ratings) (t : ℕ) : Ratings :=
  { s with finished := s.finished.rollback t, elo := s.elo.rollback t, eloDelta := s.eloDelta.rollback t }.setTx t none

/-- the conditional match claim; a match that is FINISHED makes the call a no-op -/
def claim (s : Ratings) (t : ℕ) (tx : RatingTx) : Ratings :=
  if !s.finished.free t tx.matchId then s
  else if s.finished.read t tx.matchId then s.commit t
  else
    { s with finished := s.finished.writes t [(tx.matchId, fun _ => true)] }.setTx t
      (some { tx with stage := if tx.isAdminTermination then .incrementRatings [] [] else .readRatings })

/-- the checks and the read of `buildScoreUpdateOps`; a failed check aborts the transaction -/
def readRatings (F : FloatOps) (C : Collation) (s : Ratings) (t : ℕ) (tx : RatingTx) (m : Machine) : Ratings :=
  match tx.playerScores with
  | none => s.rollback t
  | some playerScores =>
    if playerScores.length = 0 then s.rollback t
    else
      s.setTx t (some { tx with
        stage := .recordRows (eloResultsFor F C (fun u => some (s.elo.read t u)) m playerScores) playerScores })

/-- what `matchPlayer.updateMany` writes to `eloDelta` -/
def recordWrite (matchId : String) (results : List EloCalculationResult) (p : PlayerScore) :
    (String × String) × (Option ℤ → Option ℤ) :=
  ((matchId, p.userId), fun _ => ((eloResultByUser results).get p.userId).map EloCalculationResult.delta)

/-- one `matchPlayer.updateMany`; only a participant of the match has a row -/
def recordRow (roster : String → List String) (s : Ratings) (t : ℕ) (tx : RatingTx)
    (results : List EloCalculationResult) (p : PlayerScore) (todo : List PlayerScore) : Ratings :=
  let next := some { tx with stage := .recordRows results todo }
  if p.userId ∉ roster tx.matchId then s.setTx t next
  else if !s.eloDelta.free t (tx.matchId, p.userId) then s
  else { s with eloDelta := s.eloDelta.writes t [recordWrite tx.matchId results p] }.setTx t next

/-- what `user.updateMany` does to the ratings of one group -/
def groupWrites (g : ℤ × List String) : List (String × (ℤ → ℤ)) := g.2.map fun u => (u, fun x => x + g.1)

def incrementGroup (s : Ratings) (t : ℕ) (tx : RatingTx) (results : List EloCalculationResult) (g : ℤ × List String)
    (todo : List (ℤ × List String)) : Ratings :=
  if !(groupWrites g).all (fun w => s.elo.free t w.1) then s
  else { s with elo := s.elo.writes t (groupWrites g) }.setTx t (some { tx with stage := .incrementRatings results todo })

/-- the next statement of a transaction, with the machine as it is then -/
def statement (F : FloatOps) (C : Collation) (roster : String → List String) (s : Ratings) (t : ℕ) (m : Machine) :
    Ratings :=
  match s.txs t with
  | none => s
  | some tx =>
    match tx.stage with
    | .claim => s.claim t tx
    | .readRatings => s.readRatings F C t tx m
    | .recordRows results [] =>
      s.setTx t (some { tx with stage := .incrementRatings results (deltaToUserIds results).entries })
    | .recordRows results (p :: todo) => s.recordRow roster t tx results p todo
    | .incrementRatings results (g :: todo) => s.incrementGroup t tx results g todo
    | .incrementRatings _ [] => s.commit t

inductive RatingOp where
  /-- `finishMatch` opens a transaction -/
  | finishMatch (t : ℕ) (matchId : String) (isAdminTermination : Bool) (stateMachine : Option Machine)
  | statement (t : ℕ) (stateMachine : Machine)
  /-- a statement fails, a deadlock or a timeout aborts the transaction, or the node dies -/
  | fail (t : ℕ)

def step (F : FloatOps) (C : Collation) (roster : String → List String) (s : Ratings) : RatingOp → Ratings
  | .finishMatch t matchId isAdminTermination stateMachine =>
    match s.txs t with
    | some _ => s
    | none => s.setTx t (some ⟨matchId, isAdminTermination,
        if isAdminTermination then none else stateMachine.map getPlayerScores, .claim⟩)
  | .statement t stateMachine => s.statement F C roster t stateMachine
  | .fail t => s.rollback t

/-! ## Statement -/

/-- a call is for a match of the set, with a machine of that match -/
def RatingOp.Calls (J : StringOps) (matchIds : Finset String) (roomOf : String → String)
    (players : String → List PlayerInfo) : RatingOp → Prop
  | .finishMatch _ matchId _ stateMachine =>
    matchId ∈ matchIds ∧ ∀ m, stateMachine = some m → OfMatch J matchId (roomOf matchId) (players matchId) m
  | _ => True

/-- the rating of a user is its first value plus the deltas recorded in the user's rows -/
def Books (elo : String → ℤ) (matchIds : Finset String) (s : Ratings) : Prop :=
  ∀ u, s.elo.committed u = elo u + ∑ matchId ∈ matchIds, (s.eloDelta.committed (matchId, u)).getD 0

/-- what transaction `t` has computed so far -/
def results (s : Ratings) (t : ℕ) : List EloCalculationResult := ((s.txs t).map fun tx => tx.stage.results).getD []

/-- transaction `t` has read the rating of `u` and takes points from it -/
def TakesFrom (s : Ratings) (t : ℕ) (u : String) : Prop := ∃ r ∈ s.results t, r.userId = u ∧ r.delta < 0

/-- the next statement of transaction `t` commits its increments -/
def Commits (s : Ratings) (t : ℕ) : Bool :=
  match (s.txs t).map RatingTx.stage with
  | some (.incrementRatings _ []) => true
  | _ => false

instance (s : Ratings) (t : ℕ) (u : String) : Decidable (s.TakesFrom t u) :=
  inferInstanceAs (Decidable (∃ r ∈ s.results t, r.userId = u ∧ r.delta < 0))

/-- a loss of `u` is committed only while no other open transaction has read the rating of `u` for a loss -/
def LossesApart (u : String) (s : Ratings) : RatingOp → Prop
  | .statement t _ => s.Commits t → s.TakesFrom t u → ∀ t', t' ≠ t → ¬s.TakesFrom t' u
  | _ => True

/-! ## Moves of one transaction -/

/-- a step of transaction `t` -/
structure Moves (s : Ratings) (t : ℕ) (s' : Ratings) : Prop where
  finished : s.finished.Step t s'.finished
  elo : s.elo.Step t s'.elo
  eloDelta : s.eloDelta.Step t s'.eloDelta
  txs : ∀ t', t' ≠ t → s'.txs t' = s.txs t'

/-- the committed values of `s` -/
def Kept (s s' : Ratings) : Prop :=
  s'.finished.committed = s.finished.committed ∧ s'.elo.committed = s.elo.committed ∧
    s'.eloDelta.committed = s.eloDelta.committed

theorem Kept.refl (s : Ratings) : Kept s s := ⟨rfl, rfl, rfl⟩

theorem kept_setTx (s : Ratings) (t : ℕ) (tx : Option RatingTx) : Kept s (s.setTx t tx) := ⟨rfl, rfl, rfl⟩

theorem kept_rollback (s : Ratings) (t : ℕ) : Kept s (s.rollback t) := ⟨rfl, rfl, rfl⟩

theorem Moves.refl (s : Ratings) (t : ℕ) : Moves s t s := ⟨.same, .same, .same, fun _ _ => rfl⟩

theorem Moves.setTx {s s' : Ratings} {t : ℕ} (h : Moves s t s') (tx : Option RatingTx) : Moves s t (s'.setTx t tx) where
  finished := h.finished
  elo := h.elo
  eloDelta := h.eloDelta
  txs t' hne := (Function.update_of_ne hne _ _).trans (h.txs t' hne)

theorem moves_commit (s : Ratings) (t : ℕ) : Moves s t (s.commit t) :=
  ⟨.commit, .commit, .commit, fun _ hne => Function.update_of_ne hne _ _⟩

theorem moves_rollback (s : Ratings) (t : ℕ) : Moves s t (s.rollback t) :=
  ⟨.rollback, .rollback, .rollback, fun _ hne => Function.update_of_ne hne _ _⟩

@[simp] theorem setTx_txs (s : Ratings) (t : ℕ) (tx : Option RatingTx) : (s.setTx t tx).txs t = tx :=
  Function.update_self _ _ _

@[simp] theorem commit_txs (s : Ratings) (t : ℕ) : (s.commit t).txs t = none := Function.update_self _ _ _

@[simp] theorem rollback_txs (s : Ratings) (t : ℕ) : (s.rollback t).txs t = none := Function.update_self _ _ _

theorem results_of_txs {s : Ratings} {t : ℕ} {tx : RatingTx} (h : s.txs t = some tx) :
    s.results t = tx.stage.results := by
  simp [results, h]

@[simp] theorem setTx_results (s : Ratings) (t : ℕ) (tx : RatingTx) :
    (s.setTx t (some tx)).results t = tx.stage.results := results_of_txs (setTx_txs s t (some tx))

@[simp] theorem commit_results (s : Ratings) (t : ℕ) : (s.commit t).results t = [] := by simp [results]

@[simp] theorem rollback_results (s : Ratings) (t : ℕ) : (s.rollback t).results t = [] := by simp [results]

/-! ## What a transaction has written -/

/-- transaction `t` holds the claim on `M`, and versions of ratings and deltas that are these updates -/
structure Holds (s : Ratings) (t : ℕ) (M : Option String) (us : List (String × (ℤ → ℤ)))
    (ds : List ((String × String) × (Option ℤ → Option ℤ))) : Prop where
  finished : s.finished.Pending t (M.toList.map fun matchId => (matchId, fun _ => true))
  unfinished : ∀ matchId ∈ M, s.finished.committed matchId = false
  elo : s.elo.Pending t us
  eloDelta : s.eloDelta.Pending t ds

/-- results that a transaction computed, and the scores it computed them from -/
structure Drawn (roster : List String) (results : List EloCalculationResult) (scores : List PlayerScore) : Prop where
  nodup : (scores.map PlayerScore.userId).Nodup
  participants : ∀ p ∈ scores, p.userId ∈ roster
  users : (results.map EloCalculationResult.userId).Perm (scores.map PlayerScore.userId)
  balanced : ∀ r ∈ results, r.newElo - r.currentElo = r.delta
  clamped : ∀ r ∈ results, r.delta < 0 → 0 ≤ r.newElo

/-- the claim and the updates that the statements before a stage have made -/
inductive Written (roster : String → List String) : Option RatingTx → Option String → List (String × (ℤ → ℤ)) →
    List ((String × String) × (Option ℤ → Option ℤ)) → Prop where
  | idle : Written roster none none [] []
  | claim (tx : RatingTx) (hs : tx.stage = .claim) : Written roster (some tx) none [] []
  | readRatings (tx : RatingTx) (hs : tx.stage = .readRatings) : Written roster (some tx) (some tx.matchId) [] []
  | recordRows (tx : RatingTx) (results : List EloCalculationResult) (before todo : List PlayerScore)
      (hs : tx.stage = .recordRows results todo) (hd : Drawn (roster tx.matchId) results (before ++ todo)) :
      Written roster (some tx) (some tx.matchId) [] (before.map (recordWrite tx.matchId results))
  | incrementRatings (tx : RatingTx) (results : List EloCalculationResult) (scores : List PlayerScore)
      (before todo : List (ℤ × List String)) (hs : tx.stage = .incrementRatings results todo)
      (hd : Drawn (roster tx.matchId) results scores) (hg : (deltaToUserIds results).entries = before ++ todo) :
      Written roster (some tx) (some tx.matchId) (before.flatMap groupWrites)
        (scores.map (recordWrite tx.matchId results))

/-- a transaction runs for a match of the set, with scores of its players -/
def Called (matchIds : Finset String) (roster : String → List String) (tx : RatingTx) : Prop :=
  tx.matchId ∈ matchIds ∧ ∀ scores, tx.playerScores = some scores →
    (scores.map PlayerScore.userId).Nodup ∧ ∀ p ∈ scores, p.userId ∈ roster tx.matchId

structure TxInv (matchIds : Finset String) (roster : String → List String) (s : Ratings) (t : ℕ) : Prop where
  called : ∀ tx, s.txs t = some tx → Called matchIds roster tx
  written : ∃ M us ds, Holds s t M us ds ∧ Written roster (s.txs t) M us ds

section Transaction

variable {matchIds : Finset String} {roster : String → List String} {s s' : Ratings} {t t' : ℕ}

theorem Holds.other {M : Option String} {us : List (String × (ℤ → ℤ))}
    {ds : List ((String × String) × (Option ℤ → Option ℤ))} (h : Holds s t M us ds) (hm : Moves s t' s') (hne : t' ≠ t) :
    Holds s' t M us ds where
  finished := h.finished.other hm.finished hne
  unfinished := by
    intro matchId hM
    rw [h.finished.other_committed hm.finished hne]
    · exact h.unfinished matchId hM
    · simpa using hM
  elo := h.elo.other hm.elo hne
  eloDelta := h.eloDelta.other hm.eloDelta hne

/-- a transaction does not disturb another -/
theorem TxInv.other (h : TxInv matchIds roster s t) (hm : Moves s t' s') (hne : t' ≠ t) :
    TxInv matchIds roster s' t := by
  obtain ⟨M, us, ds, hh, hw⟩ := h.written
  have htx := hm.txs t hne.symm
  refine ⟨?_, M, us, ds, hh.other hm hne, ?_⟩
  · rw [htx]
    exact h.called
  · rw [htx]
    exact hw

theorem holds_commit (s : Ratings) (t : ℕ) : Holds (s.commit t) t none [] [] :=
  ⟨Rows.pending_commit _ t, by simp, Rows.pending_commit _ t, Rows.pending_commit _ t⟩

theorem holds_rollback (s : Ratings) (t : ℕ) : Holds (s.rollback t) t none [] [] :=
  ⟨Rows.pending_rollback _ t, by simp, Rows.pending_rollback _ t, Rows.pending_rollback _ t⟩

theorem txInv_commit (matchIds : Finset String) (roster : String → List String) (s : Ratings) (t : ℕ) :
    TxInv matchIds roster (s.commit t) t := by
  refine ⟨?_, none, [], [], holds_commit s t, ?_⟩
  · intro tx htx
    rw [commit_txs] at htx
    cases htx
  · rw [commit_txs]
    exact .idle

theorem txInv_rollback (matchIds : Finset String) (roster : String → List String) (s : Ratings) (t : ℕ) :
    TxInv matchIds roster (s.rollback t) t := by
  refine ⟨?_, none, [], [], holds_rollback s t, ?_⟩
  · intro tx htx
    rw [rollback_txs] at htx
    cases htx
  · rw [rollback_txs]
    exact .idle

/-- a commit with nothing to apply -/
theorem kept_commit (h : Holds s t none [] []) : Kept s (s.commit t) :=
  ⟨funext fun k => (Rows.commit_updates h.finished).2 k (by simp), funext fun k => (Rows.commit_updates h.elo).2 k (by simp),
    funext fun k => (Rows.commit_updates h.eloDelta).2 k (by simp)⟩

/-- the next stage of a transaction, with what it holds then -/
theorem TxInv.next {tx : RatingTx} {stage : FinishStage} {M : Option String} {us : List (String × (ℤ → ℤ))}
    {ds : List ((String × String) × (Option ℤ → Option ℤ))} (hc : Called matchIds roster tx) (hh : Holds s t M us ds)
    (hw : Written roster (some { tx with stage := stage }) M us ds) :
    TxInv matchIds roster (s.setTx t (some { tx with stage := stage })) t := by
  refine ⟨?_, M, us, ds, ⟨hh.finished, hh.unfinished, hh.elo, hh.eloDelta⟩, ?_⟩
  · intro tx' htx'
    rw [setTx_txs] at htx'
    obtain rfl := Option.some.inj htx'
    exact hc
  · rw [setTx_txs]
    exact hw

/-! ## The statements -/

/-- a statement of transaction `t` that commits nothing -/
structure Runs (matchIds : Finset String) (roster : String → List String) (s : Ratings) (t : ℕ) (s' : Ratings) :
    Prop where
  inv : TxInv matchIds roster s' t
  moves : Moves s t s'
  kept : Kept s s'
  /-- a result that is new is computed from the committed rating -/
  read : ∀ r ∈ s'.results t, r ∈ s.results t ∨ r.currentElo = s.elo.committed r.userId

theorem TxInv.waits (h : TxInv matchIds roster s t) : Runs matchIds roster s t s :=
  ⟨h, .refl s t, .refl s, fun _ hr => .inl hr⟩

theorem runs_rollback (matchIds : Finset String) (roster : String → List String) (s : Ratings) (t : ℕ) :
    Runs matchIds roster s t (s.rollback t) :=
  ⟨txInv_rollback matchIds roster s t, moves_rollback s t, kept_rollback s t, by simp⟩

section Statements

variable {tx : RatingTx}

theorem TxInv.claim (h : TxInv matchIds roster s t) (htx : s.txs t = some tx) (hs : tx.stage = .claim) :
    Runs matchIds roster s t (s.claim t tx) := by
  have hc := h.called tx htx
  obtain ⟨M, us, ds, hh, hw⟩ := h.written
  rw [htx] at hw
  cases hw with
  | readRatings tx' hs' => rw [hs] at hs'; cases hs'
  | recordRows tx' results before todo hs' => rw [hs] at hs'; cases hs'
  | incrementRatings tx' results scores before todo hs' => rw [hs] at hs'; cases hs'
  | claim tx' hs' =>
    unfold Ratings.claim
    by_cases hfree : (!s.finished.free t tx.matchId) = true
    · rw [if_pos hfree]
      exact h.waits
    rw [if_neg hfree]
    by_cases hfinished : s.finished.read t tx.matchId = true
    · rw [if_pos hfinished]
      exact ⟨txInv_commit matchIds roster s t, moves_commit s t, kept_commit hh, by simp⟩
    · rw [if_neg hfinished]
      rw [Bool.not_eq_true, Bool.not_eq_false'] at hfree
      have hnotread : s.finished.committed tx.matchId = false := by
        rw [← hh.finished.read (k := tx.matchId) (by simp)]
        simpa using hfinished
      have hclaimed : Holds { s with finished := s.finished.writes t [(tx.matchId, fun _ => true)] } t
          (some tx.matchId) [] [] := by
        refine ⟨hh.finished.writes _ (by simp), ?_, hh.elo, hh.eloDelta⟩
        intro matchId hM
        obtain rfl := Option.some.inj hM
        rw [Rows.writes_committed]
        exact hnotread
      have hmoves : Moves s t { s with finished := s.finished.writes t [(tx.matchId, fun _ => true)] } := by
        refine ⟨.writes _ ?_, .same, .same, fun _ _ => rfl⟩
        intro w hw
        obtain rfl := List.mem_singleton.1 hw
        exact hfree
      have hnone : (if tx.isAdminTermination = true then FinishStage.incrementRatings [] [] else .readRatings).results =
          [] := by
        split_ifs <;> rfl
      refine ⟨?_, hmoves.setTx _, ⟨Rows.writes_committed _ _ _, rfl, rfl⟩, by simp [hnone]⟩
      by_cases hadmin : tx.isAdminTermination = true
      · rw [if_pos hadmin]
        refine .next hc hclaimed (.incrementRatings _ [] [] [] [] rfl ⟨?_, ?_, ?_, ?_, ?_⟩ rfl)
        · exact List.nodup_nil
        · intro p hp
          cases hp
        · exact List.Perm.nil
        · intro r hr
          cases hr
        · intro r hr
          cases hr
      · rw [if_neg hadmin]
        exact .next hc hclaimed (.readRatings _ rfl)

/-- results computed from scores of the match's players -/
theorem drawn_results (F : FloatOps) (C : Collation) (users : String → Option ℤ) (m : Machine)
    {scores : List PlayerScore} {ids : List String} (hn : (scores.map PlayerScore.userId).Nodup)
    (hp : ∀ p ∈ scores, p.userId ∈ ids) : Drawn ids (eloResultsFor F C users m scores) scores :=
  ⟨hn, hp, eloResultsFor_users F C users m scores, fun r hr => elo_delta F _ _ r hr,
    fun r hr => elo_clamped F _ _ r hr⟩

theorem TxInv.readRatings (F : FloatOps) (C : Collation) (m : Machine) (h : TxInv matchIds roster s t)
    (htx : s.txs t = some tx) (hs : tx.stage = .readRatings) :
    Runs matchIds roster s t (s.readRatings F C t tx m) := by
  have hc := h.called tx htx
  obtain ⟨M, us, ds, hh, hw⟩ := h.written
  rw [htx] at hw
  cases hw with
  | claim tx' hs' => rw [hs] at hs'; cases hs'
  | recordRows tx' results before todo hs' => rw [hs] at hs'; cases hs'
  | incrementRatings tx' results scores before todo hs' => rw [hs] at hs'; cases hs'
  | readRatings tx' hs' =>
    unfold Ratings.readRatings
    split
    · exact runs_rollback matchIds roster s t
    · rename_i scores hscores
      split_ifs with hempty
      · exact runs_rollback matchIds roster s t
      · obtain ⟨hn, hp⟩ := hc.2 scores hscores
        refine ⟨.next hc hh (.recordRows _ _ [] scores rfl ?_), (Moves.refl s t).setTx _, kept_setTx s t _, ?_⟩
        · exact drawn_results F C _ m hn hp
        · intro r hr
          rw [setTx_results] at hr
          have hread := eloResultsFor_currentElo F C (fun u => some (s.elo.read t u)) m scores hr
          rw [Option.getD_some, hh.elo.read (by simp)] at hread
          exact .inr hread

/-- the keys of the rows written so far are new -/
theorem keys_recordWrite (matchId : String) (results : List EloCalculationResult) (scores : List PlayerScore) :
    (scores.map (recordWrite matchId results)).map Prod.fst =
      (scores.map PlayerScore.userId).map fun u => (matchId, u) := by
  rw [List.map_map, List.map_map]
  rfl

theorem TxInv.recordRow {results : List EloCalculationResult} {p : PlayerScore} {todo : List PlayerScore}
    (h : TxInv matchIds roster s t) (htx : s.txs t = some tx) (hs : tx.stage = .recordRows results (p :: todo)) :
    Runs matchIds roster s t (s.recordRow roster t tx results p todo) := by
  have hc := h.called tx htx
  obtain ⟨M, us, ds, hh, hw⟩ := h.written
  rw [htx] at hw
  cases hw with
  | claim tx' hs' => rw [hs] at hs'; cases hs'
  | readRatings tx' hs' => rw [hs] at hs'; cases hs'
  | incrementRatings tx' results' scores before todo' hs' => rw [hs] at hs'; cases hs'
  | recordRows tx' results' before todo' hs' hd =>
    rw [hs] at hs'
    obtain ⟨rfl, rfl⟩ := FinishStage.recordRows.inj hs'
    have hmem : p.userId ∈ roster tx.matchId := hd.participants p (by simp)
    unfold Ratings.recordRow
    rw [if_neg (not_not.2 hmem)]
    split_ifs with hfree
    · exact h.waits
    · rw [Bool.not_eq_true, Bool.not_eq_false'] at hfree
      have hkeys : ((before.map (recordWrite tx.matchId results)).map Prod.fst ++
          [recordWrite tx.matchId results p].map Prod.fst).Nodup := by
        have hsub : (before ++ [p]).Sublist (before ++ p :: todo) :=
          List.Sublist.append_left (List.singleton_sublist.2 (by simp)) before
        rw [← List.map_append, show before.map (recordWrite tx.matchId results) ++ [recordWrite tx.matchId results p] =
          (before ++ [p]).map (recordWrite tx.matchId results) by simp, keys_recordWrite]
        exact ((hsub.map PlayerScore.userId).nodup hd.nodup).map fun a b hab => (Prod.mk.inj hab).2
      have hdelta := hh.eloDelta.writes [recordWrite tx.matchId results p] hkeys
      have hheld : Holds { s with eloDelta := s.eloDelta.writes t [recordWrite tx.matchId results p] } t
          (some tx.matchId) [] ((before ++ [p]).map (recordWrite tx.matchId results)) := by
        refine ⟨hh.finished, hh.unfinished, hh.elo, ?_⟩
        rw [List.map_append]
        exact hdelta
      have hmoves : Moves s t { s with eloDelta := s.eloDelta.writes t [recordWrite tx.matchId results p] } := by
        refine ⟨.same, .same, .writes _ ?_, fun _ _ => rfl⟩
        intro w hw
        obtain rfl := List.mem_singleton.1 hw
        exact hfree
      refine ⟨.next hc hheld (.recordRows _ results (before ++ [p]) todo rfl ?_), hmoves.setTx _,
        ⟨rfl, rfl, Rows.writes_committed _ _ _⟩, ?_⟩
      · rw [List.append_assoc]
        exact hd
      · rw [setTx_results, results_of_txs htx, hs]
        exact fun r hr => .inl hr

theorem TxInv.rowsRecorded {results : List EloCalculationResult} (h : TxInv matchIds roster s t)
    (htx : s.txs t = some tx) (hs : tx.stage = .recordRows results []) :
    Runs matchIds roster s t
      (s.setTx t (some { tx with stage := .incrementRatings results (deltaToUserIds results).entries })) := by
  have hc := h.called tx htx
  obtain ⟨M, us, ds, hh, hw⟩ := h.written
  rw [htx] at hw
  cases hw with
  | claim tx' hs' => rw [hs] at hs'; cases hs'
  | readRatings tx' hs' => rw [hs] at hs'; cases hs'
  | incrementRatings tx' results' scores before todo' hs' => rw [hs] at hs'; cases hs'
  | recordRows tx' results' before todo' hs' hd =>
    rw [hs] at hs'
    obtain ⟨rfl, rfl⟩ := FinishStage.recordRows.inj hs'
    rw [List.append_nil] at hd
    refine ⟨.next hc hh (.incrementRatings _ results before [] _ rfl hd rfl), (Moves.refl s t).setTx _,
      kept_setTx s t _, ?_⟩
    rw [setTx_results, results_of_txs htx, hs]
    exact fun r hr => .inl hr

/-- each user is in one group -/
theorem groups_nodup {ids : List String} {results : List EloCalculationResult} {scores : List PlayerScore}
    (hd : Drawn ids results scores) :
    (((deltaToUserIds results).entries.flatMap groupWrites).map Prod.fst).Nodup := by
  have hn : (results.map EloCalculationResult.userId).Nodup := hd.users.nodup_iff.2 hd.nodup
  have hkeys : ((deltaToUserIds results).entries.flatMap groupWrites).map Prod.fst =
      (deltaToUserIds results).entries.flatMap Prod.snd := by
    rw [List.map_flatMap]
    refine List.flatMap_congr fun g _ => ?_
    rw [groupWrites, List.map_map]
    exact List.map_id _
  rw [hkeys, List.nodup_flatMap]
  constructor
  · intro g hg
    rw [group_users hg]
    exact (List.filter_sublist.map _).nodup hn
  · have hdeltas : (deltaToUserIds results).entries.Pairwise fun g g' => g.1 ≠ g'.1 :=
      List.pairwise_map.1 (deltaToUserIds results).nodup
    refine hdeltas.imp_of_mem ?_
    intro g g' hg hg' hne u hu hu'
    obtain ⟨r, hr, hru, hrd⟩ := (mem_deltaToUserIds hg u).1 hu
    obtain ⟨r', hr', hru', hrd'⟩ := (mem_deltaToUserIds hg' u).1 hu'
    have heq : r = r' := List.inj_on_of_nodup_map hn hr hr' (hru.trans hru'.symm)
    exact hne (by rw [← hrd, ← hrd', heq])

theorem TxInv.incrementGroup {results : List EloCalculationResult} {g : ℤ × List String}
    {todo : List (ℤ × List String)} (h : TxInv matchIds roster s t) (htx : s.txs t = some tx)
    (hs : tx.stage = .incrementRatings results (g :: todo)) :
    Runs matchIds roster s t (s.incrementGroup t tx results g todo) := by
  have hc := h.called tx htx
  obtain ⟨M, us, ds, hh, hw⟩ := h.written
  rw [htx] at hw
  cases hw with
  | claim tx' hs' => rw [hs] at hs'; cases hs'
  | readRatings tx' hs' => rw [hs] at hs'; cases hs'
  | recordRows tx' results' before todo' hs' => rw [hs] at hs'; cases hs'
  | incrementRatings tx' results' scores before todo' hs' hd hg =>
    rw [hs] at hs'
    obtain ⟨rfl, rfl⟩ := FinishStage.incrementRatings.inj hs'
    unfold Ratings.incrementGroup
    split_ifs with hfree
    · exact h.waits
    · rw [Bool.not_eq_true, Bool.not_eq_false', List.all_eq_true] at hfree
      have hkeys : ((before.flatMap groupWrites).map Prod.fst ++ (groupWrites g).map Prod.fst).Nodup := by
        have hall := groups_nodup hd
        rw [hg, List.flatMap_append, List.flatMap_cons, List.map_append, List.map_append, ← List.append_assoc] at hall
        exact (List.nodup_append.1 hall).1
      have hheld : Holds { s with elo := s.elo.writes t (groupWrites g) } t (some tx.matchId)
          ((before ++ [g]).flatMap groupWrites) (scores.map (recordWrite tx.matchId results)) := by
        refine ⟨hh.finished, hh.unfinished, ?_, hh.eloDelta⟩
        rw [List.flatMap_append, List.flatMap_singleton]
        exact hh.elo.writes _ hkeys
      have hmoves : Moves s t { s with elo := s.elo.writes t (groupWrites g) } :=
        ⟨.same, .writes _ hfree, .same, fun _ _ => rfl⟩
      refine ⟨.next hc hheld (.incrementRatings _ results scores (before ++ [g]) todo rfl hd ?_), hmoves.setTx _,
        ⟨rfl, Rows.writes_committed _ _ _, rfl⟩, ?_⟩
      · rw [hg, List.append_assoc]
        rfl
      · rw [setTx_results, results_of_txs htx, hs]
        exact fun r hr => .inl hr

end Statements

/-! ## The commit -/

/-- the commit of a finish of `matchId` with these results -/
structure Settles (s s' : Ratings) (matchId : String) (results : List EloCalculationResult) : Prop where
  distinct : (results.map EloCalculationResult.userId).Nodup
  unfinished : s.finished.committed matchId = false
  finished : s'.finished.committed matchId = true
  otherMatches : ∀ i, i ≠ matchId → s'.finished.committed i = s.finished.committed i ∧
    ∀ u, s'.eloDelta.committed (i, u) = s.eloDelta.committed (i, u)
  participants : ∀ r ∈ results, r.newElo - r.currentElo = r.delta ∧
    s'.elo.committed r.userId = s.elo.committed r.userId + r.delta ∧
    s'.eloDelta.committed (matchId, r.userId) = some r.delta
  clamped : ∀ r ∈ results, r.delta < 0 → 0 ≤ r.newElo
  others : ∀ u, u ∉ results.map EloCalculationResult.userId → s'.elo.committed u = s.elo.committed u ∧
    s'.eloDelta.committed (matchId, u) = s.eloDelta.committed (matchId, u)

/-- **A finish applies its results**, to the ratings that are committed by then. -/
theorem TxInv.settles {tx : RatingTx} {results : List EloCalculationResult} (h : TxInv matchIds roster s t)
    (htx : s.txs t = some tx) (hs : tx.stage = .incrementRatings results []) :
    Settles s (s.commit t) tx.matchId results := by
  obtain ⟨M, us, ds, hh, hw⟩ := h.written
  rw [htx] at hw
  cases hw with
  | claim tx' hs' => rw [hs] at hs'; cases hs'
  | readRatings tx' hs' => rw [hs] at hs'; cases hs'
  | recordRows tx' results' before todo' hs' => rw [hs] at hs'; cases hs'
  | incrementRatings tx' results' scores before todo' hs' hd hg =>
    rw [hs] at hs'
    obtain ⟨rfl, rfl⟩ := FinishStage.incrementRatings.inj hs'
    rw [List.append_nil] at hg
    subst hg
    obtain ⟨hclaim, hclaims⟩ := Rows.commit_updates hh.finished
    obtain ⟨helo, helos⟩ := Rows.commit_updates hh.elo
    obtain ⟨hdelta, hdeltas⟩ := Rows.commit_updates hh.eloDelta
    have hn : (results.map EloCalculationResult.userId).Nodup := hd.users.nodup_iff.2 hd.nodup
    rw [keys_recordWrite] at hdeltas
    refine ⟨hn, hh.unfinished _ rfl, hclaim (tx.matchId, fun _ => true) (by simp), ?_, ?_, hd.clamped, ?_⟩
    · intro i hi
      refine ⟨hclaims i (by simpa using hi), fun u => hdeltas (i, u) ?_⟩
      simp [hi.symm]
    · intro r hr
      refine ⟨hd.balanced r hr, ?_, ?_⟩
      · have hkey : r.delta ∈ (deltaToUserIds results).keys := group_keys results JsMap.empty r (.inl hr)
        obtain ⟨g, hg, hgr⟩ := List.mem_map.1 hkey
        have hmem : r.userId ∈ g.2 := (mem_deltaToUserIds hg r.userId).2 ⟨r, hr, rfl, hgr.symm⟩
        have hw : (r.userId, fun x => x + g.1) ∈ (deltaToUserIds results).entries.flatMap groupWrites :=
          List.mem_flatMap.2 ⟨g, hg, List.mem_map.2 ⟨r.userId, hmem, rfl⟩⟩
        rw [← hgr]
        exact helo _ hw
      · obtain ⟨p, hp, hpu⟩ := List.mem_map.1 (hd.users.mem_iff.1 (List.mem_map_of_mem hr))
        have hrow := hdelta _ (List.mem_map_of_mem hp)
        simp only [recordWrite, hpu, eloResultByUser_get hn hr] at hrow
        exact hrow
    · intro u hu
      constructor
      · refine helos u fun hmem => hu ?_
        obtain ⟨w, hw, rfl⟩ := List.mem_map.1 hmem
        obtain ⟨g, hg, hwg⟩ := List.mem_flatMap.1 hw
        obtain ⟨u, hug, rfl⟩ := List.mem_map.1 hwg
        obtain ⟨r, hr, rfl, -⟩ := (mem_deltaToUserIds hg u).1 hug
        exact List.mem_map_of_mem hr
      · refine hdeltas _ fun hmem => hu (hd.users.mem_iff.2 ?_)
        simpa using hmem

/-! ## Every interleaving -/

structure RatingsInv (elo : String → ℤ) (matchIds : Finset String) (roster : String → List String) (s : Ratings) :
    Prop where
  books : Books elo matchIds s
  /-- before a finish no delta is recorded -/
  unrecorded : ∀ i, s.finished.committed i = false → ∀ u, s.eloDelta.committed (i, u) = none
  txs : ∀ t, TxInv matchIds roster s t

variable {elo : String → ℤ}

theorem RatingsInv.runs (h : RatingsInv elo matchIds roster s) (hr : Runs matchIds roster s t s') :
    RatingsInv elo matchIds roster s' := by
  obtain ⟨hfinished, helo, hdelta⟩ := hr.kept
  refine ⟨?_, ?_, ?_⟩
  · intro u
    rw [helo, hdelta]
    exact h.books u
  · intro i hi u
    rw [hdelta]
    exact h.unrecorded i (hfinished ▸ hi) u
  · intro t'
    by_cases heq : t' = t
    · exact heq ▸ hr.inv
    · exact (h.txs t').other hr.moves fun heq' => heq heq'.symm

/-- one term of the sum of a participant changes -/
theorem Settles.books {matchId : String} {results : List EloCalculationResult} (hc : Settles s s' matchId results)
    (hmem : matchId ∈ matchIds) (hnone : ∀ u, s.eloDelta.committed (matchId, u) = none) (h : Books elo matchIds s) :
    Books elo matchIds s' := by
  intro u
  by_cases hu : u ∈ results.map EloCalculationResult.userId
  · obtain ⟨r, hr, rfl⟩ := List.mem_map.1 hu
    obtain ⟨-, helo, hdelta⟩ := hc.participants r hr
    have hterm : ∀ i, (s'.eloDelta.committed (i, r.userId)).getD 0 =
        (s.eloDelta.committed (i, r.userId)).getD 0 + if i = matchId then r.delta else 0 := by
      intro i
      by_cases hi : i = matchId
      · subst hi
        simp [hdelta, hnone]
      · rw [(hc.otherMatches i hi).2, if_neg hi, add_zero]
    calc s'.elo.committed r.userId = s.elo.committed r.userId + r.delta := helo
      _ = elo r.userId + ∑ i ∈ matchIds, (s.eloDelta.committed (i, r.userId)).getD 0 + r.delta := by rw [h]
      _ = elo r.userId + ∑ i ∈ matchIds, (s'.eloDelta.committed (i, r.userId)).getD 0 := by
        simp only [hterm, Finset.sum_add_distrib, Finset.sum_ite_eq', if_pos hmem, add_assoc]
  · rw [(hc.others u hu).1, h u]
    congr 1
    refine Finset.sum_congr rfl fun i _ => ?_
    by_cases hi : i = matchId
    · rw [hi, (hc.others u hu).2]
    · rw [(hc.otherMatches i hi).2]

theorem RatingsInv.settles {tx : RatingTx} {results : List EloCalculationResult} (h : RatingsInv elo matchIds roster s)
    (htx : s.txs t = some tx) (hs : tx.stage = .incrementRatings results []) :
    RatingsInv elo matchIds roster (s.commit t) := by
  have hc := (h.txs t).settles htx hs
  refine ⟨hc.books ((h.txs t).called tx htx).1 (h.unrecorded _ hc.unfinished) h.books, ?_, ?_⟩
  · intro i hi u
    have hne : i ≠ tx.matchId := by
      rintro rfl
      rw [hc.finished] at hi
      cases hi
    rw [(hc.otherMatches i hne).2]
    exact h.unrecorded i ((hc.otherMatches i hne).1 ▸ hi) u
  · intro t'
    by_cases heq : t' = t
    · exact heq ▸ txInv_commit matchIds roster s t
    · exact (h.txs t').other (moves_commit s t) fun heq' => heq heq'.symm

/-- a step runs a statement that commits nothing, or settles a match -/
theorem step_cases (J : StringOps) (F : FloatOps) (C : Collation) (roomOf : String → String)
    (players : String → List PlayerInfo) (hd : ∀ i ∈ matchIds, ((players i).map PlayerInfo.id).Nodup) (o : RatingOp)
    (ho : o.Calls J matchIds roomOf players)
    (h : ∀ t, TxInv matchIds (fun i => (players i).map PlayerInfo.id) s t) :
    (∃ t, Runs matchIds (fun i => (players i).map PlayerInfo.id) s t
        (step F C (fun i => (players i).map PlayerInfo.id) s o)) ∨
      ∃ t m tx results, o = .statement t m ∧ s.txs t = some tx ∧ tx.stage = .incrementRatings results [] ∧
        step F C (fun i => (players i).map PlayerInfo.id) s o = s.commit t := by
  cases o with
  | fail t => exact .inl ⟨t, runs_rollback _ _ s t⟩
  | finishMatch t matchId isAdminTermination stateMachine =>
    refine .inl ⟨t, ?_⟩
    simp only [step]
    cases htx : s.txs t with
    | some tx => exact (h t).waits
    | none =>
      obtain ⟨M, us, ds, hh, hw⟩ := (h t).written
      rw [htx] at hw
      cases hw
      refine ⟨⟨?_, none, [], [], ⟨hh.finished, hh.unfinished, hh.elo, hh.eloDelta⟩, ?_⟩, (Moves.refl s t).setTx _,
        kept_setTx s t _, by simp [FinishStage.results]⟩
      · intro tx htx'
        rw [setTx_txs] at htx'
        obtain rfl := Option.some.inj htx'
        refine ⟨ho.1, fun scores hscores => ?_⟩
        split_ifs at hscores
        obtain ⟨m, hm, rfl⟩ := Option.map_eq_some_iff.1 hscores
        have husers := ofMatch_users (hd matchId ho.1) (ho.2 m hm)
        rw [husers]
        refine ⟨hd matchId ho.1, fun p hp => ?_⟩
        change p.userId ∈ (players matchId).map PlayerInfo.id
        rw [← husers]
        exact List.mem_map_of_mem hp
      · rw [setTx_txs]
        exact .claim _ rfl
  | statement t m =>
    simp only [step, statement]
    cases htx : s.txs t with
    | none => exact .inl ⟨t, (h t).waits⟩
    | some tx =>
      cases hs : tx.stage with
      | claim =>
        simp only [hs]
        exact .inl ⟨t, (h t).claim htx hs⟩
      | readRatings =>
        simp only [hs]
        exact .inl ⟨t, (h t).readRatings F C m htx hs⟩
      | recordRows results todo =>
        cases todo with
        | nil =>
          simp only [hs]
          exact .inl ⟨t, (h t).rowsRecorded htx hs⟩
        | cons p todo =>
          simp only [hs]
          exact .inl ⟨t, (h t).recordRow htx hs⟩
      | incrementRatings results todo =>
        cases todo with
        | nil =>
          simp only [hs]
          exact .inr ⟨t, m, tx, results, rfl, htx, hs, rfl⟩
        | cons g todo =>
          simp only [hs]
          exact .inl ⟨t, (h t).incrementGroup htx hs⟩

/-! ## The floor -/

/-- the rating of `u` is not negative, and not below what an open transaction has read of it for a loss -/
structure FloorInv (u : String) (s : Ratings) : Prop where
  floor : 0 ≤ s.elo.committed u
  reads : ∀ t, ∀ r ∈ s.results t, r.userId = u → r.delta < 0 → r.currentElo ≤ s.elo.committed u

variable {u : String}

theorem Moves.results (h : Moves s t s') (hne : t' ≠ t) : s'.results t' = s.results t' := by
  rw [Ratings.results, h.txs t' hne, Ratings.results]

theorem FloorInv.runs (h : FloorInv u s) (hr : Runs matchIds roster s t s') : FloorInv u s' := by
  refine ⟨?_, ?_⟩
  · rw [hr.kept.2.1]
    exact h.floor
  · intro t' r hr' hu hloss
    rw [hr.kept.2.1]
    by_cases heq : t' = t
    · subst heq
      rcases hr.read r hr' with hold | hnow
      · exact h.reads t' r hold hu hloss
      · rw [hnow, hu]
    · rw [hr.moves.results heq] at hr'
      exact h.reads t' r hr' hu hloss

theorem FloorInv.rises (h : FloorInv u s) (hle : s.elo.committed u ≤ s'.elo.committed u)
    (hsub : ∀ t, ∀ r ∈ s'.results t, r ∈ s.results t) : FloorInv u s' :=
  ⟨h.floor.trans hle, fun t r hr hu hloss => (h.reads t r (hsub t r hr) hu hloss).trans hle⟩

/-- a commit that takes points from `u` leaves at least the rating it computed, and no other loss is open -/
theorem FloorInv.settles {tx : RatingTx} {results : List EloCalculationResult} (h : FloorInv u s)
    (hc : Settles s (s.commit t) tx.matchId results) (htx : s.txs t = some tx)
    (hs : tx.stage = .incrementRatings results []) (hapart : s.TakesFrom t u → ∀ t', t' ≠ t → ¬s.TakesFrom t' u) :
    FloorInv u (s.commit t) := by
  have hresults : s.results t = results := by
    rw [results_of_txs htx, hs]
    rfl
  have hother : ∀ t', ∀ r ∈ (s.commit t).results t', t' ≠ t ∧ r ∈ s.results t' := by
    intro t' r hr
    by_cases heq : t' = t
    · rw [heq, commit_results] at hr
      cases hr
    · rw [(moves_commit s t).results heq] at hr
      exact ⟨heq, hr⟩
  have hsub : ∀ t', ∀ r ∈ (s.commit t).results t', r ∈ s.results t' := fun t' r hr => (hother t' r hr).2
  by_cases hmem : u ∈ results.map EloCalculationResult.userId
  · obtain ⟨r, hr, rfl⟩ := List.mem_map.1 hmem
    obtain ⟨hdelta, helo, -⟩ := hc.participants r hr
    by_cases hloss : r.delta < 0
    · have hopen : r ∈ s.results t := by rwa [hresults]
      have hfloor : 0 ≤ (s.commit t).elo.committed r.userId := by
        calc 0 ≤ r.newElo := hc.clamped r hr hloss
          _ = r.currentElo + r.delta := by omega
          _ ≤ s.elo.committed r.userId + r.delta := by
            have hread := h.reads t r hopen rfl hloss
            omega
          _ = (s.commit t).elo.committed r.userId := helo.symm
      refine ⟨hfloor, fun t' r' hr' hu hloss' => ?_⟩
      obtain ⟨hne, hr'⟩ := hother t' r' hr'
      exact absurd ⟨r', hr', hu, hloss'⟩ (hapart ⟨r, hopen, rfl, hloss⟩ t' hne)
    · exact h.rises (by omega) hsub
  · exact h.rises (hc.others u hmem).1.ge hsub

theorem step_floorInv (J : StringOps) (F : FloatOps) (C : Collation) (roomOf : String → String)
    (players : String → List PlayerInfo) (hd : ∀ i ∈ matchIds, ((players i).map PlayerInfo.id).Nodup) (o : RatingOp)
    (ho : o.Calls J matchIds roomOf players) (hapart : LossesApart u s o)
    (htxs : ∀ t, TxInv matchIds (fun i => (players i).map PlayerInfo.id) s t) (h : FloorInv u s) :
    FloorInv u (step F C (fun i => (players i).map PlayerInfo.id) s o) := by
  rcases step_cases J F C roomOf players hd o ho htxs with ⟨t, hr⟩ | ⟨t, m, tx, results, rfl, htx, hs, hcommit⟩
  · exact h.runs hr
  · rw [hcommit]
    exact h.settles ((htxs t).settles htx hs) htx hs (hapart (by simp [Commits, htx, hs]))

end Transaction

theorem ratingsInv_init (elo : String → ℤ) (matchIds : Finset String) (roster : String → List String) :
    RatingsInv elo matchIds roster (init elo) where
  books u := by simp [init, Rows.settled]
  unrecorded i hi u := rfl
  txs t := by
    refine ⟨fun tx htx => (by cases htx), none, [], [], ⟨?_, by simp, ?_, ?_⟩, .idle⟩
    · exact Rows.pending_settled _ t
    · exact Rows.pending_settled _ t
    · exact Rows.pending_settled _ t

theorem floorInv_init (u : String) {elo : String → ℤ} (helo : ∀ u, 0 ≤ elo u) : FloorInv u (init elo) where
  floor := helo u
  reads t r hr := by cases hr

/-- **Ratings over every interleaving of finishes.** For any matches that share any users, with the statements of their
finish transactions interleaved and failing at will, every rating is its first value plus the deltas recorded for the
user; and the rating of a user is never below zero in a run in which a loss of the user is committed only while no other
finish has read the rating for a loss. -/
theorem ratings_books (J : StringOps) (F : FloatOps) (C : Collation) (matchIds : Finset String)
    (roomOf : String → String) (players : String → List PlayerInfo)
    (hd : ∀ i ∈ matchIds, ((players i).map PlayerInfo.id).Nodup) (elo : String → ℤ) (helo : ∀ u, 0 ≤ elo u)
    (ops : List RatingOp) (hops : ∀ o ∈ ops, o.Calls J matchIds roomOf players) :
    let roster := fun i => (players i).map PlayerInfo.id
    Books elo matchIds (run (step F C roster) (init elo) ops) ∧
      ∀ u, Along (step F C roster) (LossesApart u) (init elo) ops →
        Along (step F C roster) (fun s o => 0 ≤ (step F C roster s o).elo.committed u) (init elo) ops := by
  intro roster
  have hcalls : Along (step F C roster) (fun _ o => o.Calls J matchIds roomOf players) (init elo) ops :=
    (along_const _ _ _ _).2 hops
  have hstep : ∀ s o, o.Calls J matchIds roomOf players → RatingsInv elo matchIds roster s →
      RatingsInv elo matchIds roster (step F C roster s o) := by
    intro s o ho h
    rcases step_cases J F C roomOf players hd o ho h.txs with ⟨t, hr⟩ | ⟨t, m, tx, results, -, htx, hs, hcommit⟩
    · exact h.runs hr
    · rw [hcommit]
      exact h.settles htx hs
  refine ⟨(run_inv _ _ _ hstep _ ops hcalls (ratingsInv_init elo matchIds roster)).books, fun u hapart => ?_⟩
  have hfloor : ∀ s o, o.Calls J matchIds roomOf players ∧ LossesApart u s o →
      RatingsInv elo matchIds roster s ∧ FloorInv u s → FloorInv u (step F C roster s o) :=
    fun s o ho h => step_floorInv J F C roomOf players hd o ho.1 ho.2 h.1.txs h.2
  exact along_of_inv (step F C roster) _ _ (fun s => RatingsInv elo matchIds roster s ∧ FloorInv u s)
    (fun s o ho h => ⟨hstep s o ho.1 h.1, hfloor s o ho h⟩) (fun s o ho h => (hfloor s o ho h).floor) _ ops
    (along_and _ _ _ _ ops hcalls hapart) ⟨ratingsInv_init elo matchIds roster, floorInv_init u helo⟩

/-! ## Runs of given transactions -/

def RatingOp.tx : RatingOp → ℕ
  | .finishMatch t _ _ _ | .statement t _ | .fail t => t

/-- the losses of `u` in the transactions `ts` are apart -/
def LossesAmong (ts : List ℕ) (u : String) (s : Ratings) : RatingOp → Prop
  | .statement t _ => s.Commits t → s.TakesFrom t u → ∀ t' ∈ ts, t' ≠ t → ¬s.TakesFrom t' u
  | _ => True

instance (ts : List ℕ) (u : String) (s : Ratings) : ∀ o, Decidable (LossesAmong ts u s o)
  | .statement t _ => inferInstanceAs
      (Decidable (s.Commits t = true → s.TakesFrom t u → ∀ t' ∈ ts, t' ≠ t → ¬s.TakesFrom t' u))
  | .finishMatch .. | .fail _ => .isTrue trivial

section Untouched

variable (F : FloatOps) (C : Collation) (roster : String → List String)

theorem setTx_other {s : Ratings} {t t' : ℕ} (hne : t' ≠ t) (tx : Option RatingTx) : (s.setTx t tx).txs t' = s.txs t' :=
  Function.update_of_ne hne _ _

theorem statement_other {s : Ratings} {t t' : ℕ} (hne : t' ≠ t) (m : Machine) :
    (s.statement F C roster t m).txs t' = s.txs t' := by
  unfold statement
  split
  · rfl
  · split
    · unfold claim
      split_ifs
      · rfl
      · exact setTx_other hne none
      · exact setTx_other hne _
      · exact setTx_other hne _
    · unfold readRatings
      split
      · exact setTx_other hne none
      · split_ifs
        · exact setTx_other hne none
        · exact setTx_other hne _
    · exact setTx_other hne _
    · unfold recordRow
      split_ifs
      · rfl
      · exact setTx_other hne _
      · exact setTx_other hne _
    · unfold incrementGroup
      split_ifs
      · rfl
      · exact setTx_other hne _
    · exact setTx_other hne none

/-- a step leaves the other transactions where they are -/
theorem step_other {s : Ratings} {t' : ℕ} (o : RatingOp) (hne : t' ≠ o.tx) :
    (step F C roster s o).txs t' = s.txs t' := by
  cases o with
  | finishMatch t matchId isAdminTermination stateMachine =>
    simp only [step]
    split
    · rfl
    · exact setTx_other hne _
  | statement t m => exact statement_other F C roster hne m
  | fail t => exact setTx_other hne none

/-- only transactions that run can be in the way -/
theorem lossesApart_of_among (ts : List ℕ) (u : String) (elo : String → ℤ) (ops : List RatingOp)
    (hops : ∀ o ∈ ops, o.tx ∈ ts) (h : Along (step F C roster) (LossesAmong ts u) (init elo) ops) :
    Along (step F C roster) (LossesApart u) (init elo) ops := by
  refine along_of_inv (step F C roster) (fun s o => o.tx ∈ ts ∧ LossesAmong ts u s o) _
    (fun s => ∀ t, t ∉ ts → s.txs t = none) ?_ ?_ _ ops (along_and _ _ _ _ ops ((along_const _ _ _ _).2 hops) h)
    fun t ht => rfl
  · intro s o ho hidle t ht
    have hne : t ≠ o.tx := by
      rintro rfl
      exact ht ho.1
    rw [step_other F C roster o hne]
    exact hidle t ht
  · intro s o ho hidle
    cases o with
    | finishMatch t matchId isAdminTermination stateMachine => trivial
    | fail t => trivial
    | statement t m =>
      intro hcommits htakes t' hne htakes'
      by_cases hmem : t' ∈ ts
      · exact ho.2 hcommits htakes t' hmem hne htakes'
      · obtain ⟨r, hr, -⟩ := htakes'
        simp [results, hidle t' hmem] at hr

end Untouched

/-- a match that alice won against bob -/
def aliceBeatsBob (matchId : String) : Machine :=
  reach StringOps.ascii matchId "r1" [freshPlayer "alice", freshPlayer "bob"]
    ([.call (.transition .countdown fun _ => 0)] ++ roundCalls [.submitAnswer "alice" "b" 100 none fun _ => 100] ++
      [.call (.transition .finished fun _ => 15000), .call (.finishMatch fun _ => 15000)])

/-- both matches finish in one transaction each -/
def finishBoth : List RatingOp :=
  [.finishMatch 1 "m1" false (some (aliceBeatsBob "m1")), .finishMatch 2 "m2" false (some (aliceBeatsBob "m2"))]

/-- the claim and the read of a transaction, and the statements after them -/
def untilRead (t : ℕ) (matchId : String) : List RatingOp := List.replicate 2 (.statement t (aliceBeatsBob matchId))

def afterRead (t : ℕ) (matchId : String) : List RatingOp := List.replicate 6 (.statement t (aliceBeatsBob matchId))

/-- a rating read before the other match commits is a stale one -/
def staleRead : List RatingOp :=
  finishBoth ++ untilRead 1 "m1" ++ untilRead 2 "m2" ++ afterRead 1 "m1" ++ afterRead 2 "m2"

def freshRead : List RatingOp :=
  finishBoth ++ untilRead 1 "m1" ++ afterRead 1 "m1" ++ untilRead 2 "m2" ++ afterRead 2 "m2"

theorem finishBoth_calls (matchIds : Finset String) (h1 : "m1" ∈ matchIds) (h2 : "m2" ∈ matchIds) (rest : List RatingOp)
    (hrest : ∀ o ∈ rest, ∃ t m, o = .statement t m) : ∀ o ∈ finishBoth ++ rest, o.Calls StringOps.ascii matchIds
      (fun _ => "r1") (fun _ => [freshPlayer "alice", freshPlayer "bob"]) := by
  intro o ho
  rcases List.mem_append.1 ho with ho | ho
  · simp only [finishBoth, List.mem_cons, List.not_mem_nil, or_false] at ho
    rcases ho with rfl | rfl
    · exact ⟨h1, fun m hm => ⟨_, (Option.some.inj hm).symm⟩⟩
    · exact ⟨h2, fun m hm => ⟨_, (Option.some.inj hm).symm⟩⟩
  · obtain ⟨t, m, rfl⟩ := hrest o ho
    trivial

/-- **A rating below zero.** Bob has 10 points and loses two matches; both finishes read his rating before either
commits, and each takes the 10 points. -/
theorem rating_below_zero :
    let roster := fun _ : String => ["alice", "bob"]
    (∀ o ∈ staleRead, o.Calls StringOps.ascii {"m1", "m2"} (fun _ => "r1")
      fun _ => [freshPlayer "alice", freshPlayer "bob"]) ∧
    (run (step FloatOps.exact Collation.codeUnits roster) (init fun _ => 10) staleRead).elo.committed "bob" = -10 := by
  intro roster
  refine ⟨?_, by decide +kernel⟩
  have hcalls := finishBoth_calls {"m1", "m2"} (by simp) (by simp)
    (untilRead 1 "m1" ++ untilRead 2 "m2" ++ afterRead 1 "m1" ++ afterRead 2 "m2")
    (by simp [untilRead, afterRead])
  simpa only [staleRead, List.append_assoc] using hcalls

/-- bob loses both matches, the second from the rating that the first has left -/
theorem ratings_books_fresh :
    let roster := fun _ : String => [freshPlayer "alice", freshPlayer "bob"].map PlayerInfo.id
    let step := step FloatOps.exact Collation.codeUnits roster
    let last := run step (init fun _ => 20) freshRead
    last.eloDelta.committed ("m1", "bob") = some (-16) ∧ last.eloDelta.committed ("m2", "bob") = some (-4) ∧
      last.elo.committed "bob" = 0 ∧ Books (fun _ => 20) {"m1", "m2"} last ∧
      Along step (fun s o => 0 ≤ (step s o).elo.committed "bob") (init fun _ => 20) freshRead := by
  intro roster step last
  have hrun : last.eloDelta.committed ("m1", "bob") = some (-16) ∧ last.eloDelta.committed ("m2", "bob") = some (-4) ∧
      last.elo.committed "bob" = 0 := by decide +kernel
  have hcalls := finishBoth_calls {"m1", "m2"} (by simp) (by simp)
    (untilRead 1 "m1" ++ afterRead 1 "m1" ++ untilRead 2 "m2" ++ afterRead 2 "m2")
    (by simp [untilRead, afterRead])
  have hapart : Along step (LossesApart "bob") (init fun _ => 20) freshRead :=
    lossesApart_of_among _ _ _ [1, 2] "bob" _ freshRead (by decide +kernel) (by decide +kernel)
  obtain ⟨hbooks, hfloor⟩ := ratings_books StringOps.ascii FloatOps.exact Collation.codeUnits {"m1", "m2"}
    (fun _ => "r1") (fun _ => [freshPlayer "alice", freshPlayer "bob"]) (fun _ _ => by decide) (fun _ => 20)
    (fun _ => by decide) freshRead (by simpa only [freshRead, List.append_assoc] using hcalls)
  exact ⟨hrun.1, hrun.2.1, hrun.2.2, hbooks, hfloor "bob" hapart⟩

end Ratings

end Arena.Api
