/-
Settling a match in the database: `MatchService.finishMatch` and `buildScoreUpdateOps` (`match.service.ts`), and the
safety net of `RoomService.disbandRoom`.

`Db` holds the rows of one match: the match row, its MatchPlayer rows by user and the ratings of the users. Each
interactive transaction is one step; a throw inside it rolls it back. `increments` and `claims` record what was written:
the rating increments applied to each user's row, and every write of `winnerId` and `endedAt`. A call reads its machine
and scores before its transaction, so calls of several nodes are in flight together.

- `scoreUpdates_books`: after the score updates of a claiming call each participant has one more increment, the computed
  delta, and its MatchPlayer row says the same;
- `results_applied_once`: over every interleaving of calls.
-/
import Arena.Api.Placements

namespace Arena.Api

open Arena.Lib Arena.Shared Arena.GameCore Arena.GameCore.Machine

/-! ## Rows -/

structure MatchRow where
  status : MatchStatus
  winnerId : Option String
  endedAt : Option Time
deriving DecidableEq

structure MatchPlayerRow where
  score : ℤ
  cardsPlayed : ℕ
  classId : Option ClassId
  eloBefore : Option ℤ
  eloAfter : Option ℤ
  eloDelta : Option ℤ
deriving DecidableEq

/-- a row as `createMatch` inserts it -/
def MatchPlayerRow.fresh : MatchPlayerRow := ⟨0, 0, none, none, none, none⟩

/-- a write of the match row: `winnerId` and `endedAt`, and whether the writer was a normal finish -/
structure Claim where
  winnerId : Option String
  endedAt : Time
  isNormalFinish : Bool
deriving DecidableEq

structure Db where
  row : MatchRow
  roomFinished : Bool
  /-- `User.elo` by user id -/
  users : String → Option ℤ
  /-- the MatchPlayer rows of the match by user id -/
  rows : String → Option MatchPlayerRow
  /-- the foreign key of MatchPlayer -/
  fk : ∀ u, (rows u).isSome → (users u).isSome
  /-- the increments applied to each user's rating, oldest first -/
  increments : String → List ℤ
  claims : List Claim

/-- `tx.matchPlayer.updateMany` on one user of the match -/
def Db.updatePlayer (db : Db) (userId : String) (f : MatchPlayerRow → MatchPlayerRow) : Db :=
  { db with
    rows := fun u => if u = userId then (db.rows u).map f else db.rows u
    fk := by
      intro u hu
      apply db.fk u
      split_ifs at hu
      · simpa using hu
      · exact hu }

/-- `tx.user.updateMany` with `elo: increment` on the users in `ids` -/
def Db.incrementElo (db : Db) (ids : List String) (delta : ℤ) : Db :=
  { db with
    users := fun u => if u ∈ ids then (db.users u).map (· + delta) else db.users u
    increments := fun u => if u ∈ ids ∧ (db.users u).isSome then db.increments u ++ [delta] else db.increments u
    fk := by
      intro u hu
      have h := db.fk u hu
      split_ifs
      · simpa using h
      · exact h }

/-- `tx.match.updateMany` of a match that is not FINISHED yet -/
def Db.claim (db : Db) (c : Claim) : Db :=
  { db with row := ⟨.finished, c.winnerId, some c.endedAt⟩, claims := db.claims ++ [c] }

/-! ## Score updates -/

inductive FinishError where
  | stateMachineNotFound (matchId : String)
  | emptyPlayerScores (matchId : String)
deriving DecidableEq

def FinishError.message : FinishError → String
  | .stateMachineNotFound id => "Failed to finalize match " ++ id ++ ": state machine not found in memory or Redis"
  | .emptyPlayerScores id => "Failed to finalize match " ++ id ++ ": state machine has empty player scores"

/-- CARD_RESOLVED events per player -/
def cardsPlayedByUser (log : List EventLogEntry) : JsMap String ℕ :=
  log.foldl (fun counts e =>
    match e.event with
    | .cardResolved payload =>
      if payload.playedByPlayerId = "" then counts
      else counts.set payload.playedByPlayerId ((counts.get payload.playedByPlayerId).getD 0 + 1)
    | _ => counts) JsMap.empty

def classByUser (log : List EventLogEntry) : JsMap String ClassId :=
  log.foldl (fun classes e =>
    match e.event with
    | .classAssigned _ assignments _ => assignments.foldl (fun c a => c.set a.1 a.2) classes
    | _ => classes) JsMap.empty

/-- the rating results of a finish, from the ratings read in its transaction -/
def eloResultsFor (F : FloatOps) (C : Collation) (users : String → Option ℤ) (m : Machine)
    (playerScores : List PlayerScore) : List EloCalculationResult :=
  calculateMultiplayerElo F ((placedPlayers C m playerScores).map fun p =>
    ⟨p.player.userId, (users p.player.userId).getD defaultElo, p.placement, p.player.score⟩) defaultKFactor

/-- users with the same delta share one update -/
def deltaToUserIds (results : List EloCalculationResult) : JsMap ℤ (List String) :=
  results.foldl (fun groups r => groups.set r.delta ((groups.get r.delta).getD [] ++ [r.userId])) JsMap.empty

/-- what is written to the MatchPlayer row of one player -/
def playerUpdate (m : Machine) (results : JsMap String EloCalculationResult) (p : PlayerScore) (row : MatchPlayerRow) :
    MatchPlayerRow :=
  { row with
    score := p.score
    cardsPlayed := ((cardsPlayedByUser m.eventLog).get p.userId).getD 0
    classId := (classByUser m.eventLog).get p.userId
    eloBefore := (results.get p.userId).map EloCalculationResult.currentElo
    eloAfter := (results.get p.userId).map EloCalculationResult.newElo
    eloDelta := (results.get p.userId).map EloCalculationResult.delta }

def eloResultByUser (results : List EloCalculationResult) : JsMap String EloCalculationResult :=
  JsMap.ofEntries (results.map fun r => (r.userId, r))

/-- one `matchPlayer.updateMany` for each player -/
def updatePlayerRows (m : Machine) (results : List EloCalculationResult) (playerScores : List PlayerScore) (db : Db) :
    Db :=
  playerScores.foldl (fun db p => db.updatePlayer p.userId (playerUpdate m (eloResultByUser results) p)) db

/-- one `user.updateMany` for each group -/
def incrementRatings (results : List EloCalculationResult) (db : Db) : Db :=
  (deltaToUserIds results).entries.foldl (fun db g => db.incrementElo g.2 g.1) db

def applyScoreUpdates (F : FloatOps) (C : Collation) (db : Db) (m : Machine) (playerScores : List PlayerScore) : Db :=
  let eloResults := eloResultsFor F C db.users m playerScores
  incrementRatings eloResults (updatePlayerRows m eloResults playerScores db)

def buildScoreUpdateOps (F : FloatOps) (C : Collation) (matchId : String) (db : Db) (stateMachine : Option Machine)
    (playerScores : List PlayerScore) : Except FinishError Db :=
  match stateMachine with
  | none => .error (.stateMachineNotFound matchId)
  | some m =>
    if playerScores.length = 0 then .error (.emptyPlayerScores matchId)
    else .ok (applyScoreUpdates F C db m playerScores)

/-! ## Calls of `finishMatch` -/

/-- a call that has read its machine and waits for its transaction -/
structure FinishCall where
  winnerId : Option String
  isAdminTermination : Bool
  /-- the scores read before the transaction; none without a machine -/
  playerScores : Option (List PlayerScore)

/-- the transaction: the new rows and whether the call claimed the match -/
def finishTransaction (F : FloatOps) (C : Collation) (matchId : String) (db : Db) (call : FinishCall)
    (stateMachine : Option Machine) (now : Time) : Except FinishError (Db × Bool) :=
  if db.row.status = .finished then .ok (db, false)
  else
    let db1 := db.claim ⟨call.winnerId, now, !call.isAdminTermination⟩
    if call.isAdminTermination then .ok ({ db1 with roomFinished := true }, true)
    else
      match buildScoreUpdateOps F C matchId db1 (call.playerScores.bind fun _ => stateMachine)
        (call.playerScores.getD []) with
      | .error e => .error e
      | .ok db2 => .ok ({ db2 with roomFinished := true }, true)

structure Settling where
  db : Db
  calls : List FinishCall

inductive SettleOp where
  /-- `finishMatch` is called: unless it is an admin termination it reads the machine and its scores -/
  | finishMatch (winnerId : Option String) (isAdminTermination : Bool) (stateMachine : Option Machine)
  /-- the transaction of a pending call runs, with the machine as it is now, or fails at some await and rolls back -/
  | transaction (i : ℕ) (stateMachine : Machine) (fails : Bool) (now : Time)
  /-- the safety net of `disbandRoom`, after the room row is locked -/
  | disbandSafetyNet (now : Time)

def settleStep (F : FloatOps) (C : Collation) (matchId : String) (s : Settling) : SettleOp → Settling
  | .finishMatch winnerId isAdminTermination stateMachine =>
    { s with calls := s.calls ++ [⟨winnerId, isAdminTermination,
        if isAdminTermination then none else stateMachine.map getPlayerScores⟩] }
  | .transaction i stateMachine fails now =>
    match s.calls[i]? with
    | none => s
    | some call =>
      match if fails then none else (finishTransaction F C matchId s.db call (some stateMachine) now).toOption with
      | none => { s with calls := s.calls.eraseIdx i }
      | some (db, _) => ⟨db, s.calls.eraseIdx i⟩
  | .disbandSafetyNet now =>
    if s.db.row.status = .finished then s
    else { s with db := { s.db.claim ⟨s.db.row.winnerId, now, false⟩ with roomFinished := true } }

/-! ## Grouped increments -/

theorem group_get (results : List EloCalculationResult) (groups : JsMap ℤ (List String)) (d : ℤ) :
    ((results.foldl (fun groups r => groups.set r.delta ((groups.get r.delta).getD [] ++ [r.userId])) groups).get d).getD
      [] = (groups.get d).getD [] ++ (results.filter fun r => r.delta = d).map EloCalculationResult.userId := by
  induction results generalizing groups with
  | nil => simp
  | cons r results ih =>
    rw [List.foldl_cons, ih, JsMap.get_set]
    by_cases h : r.delta = d
    · simp [h]
    · simp [h]

theorem group_keys (results : List EloCalculationResult) (groups : JsMap ℤ (List String)) (r : EloCalculationResult)
    (h : r ∈ results ∨ r.delta ∈ groups.keys) :
    r.delta ∈ (results.foldl (fun groups r =>
      groups.set r.delta ((groups.get r.delta).getD [] ++ [r.userId])) groups).keys := by
  induction results generalizing groups with
  | nil => exact h.resolve_left List.not_mem_nil
  | cons x results ih =>
    rw [List.foldl_cons]
    apply ih
    rcases h with h | h
    · rcases List.mem_cons.1 h with rfl | h
      · exact .inr ((JsMap.mem_keys _ _).2 ⟨_, by rw [JsMap.get_set, if_pos rfl]⟩)
      · exact .inl h
    · refine .inr ?_
      rw [JsMap.keys_set]
      split_ifs
      · exact h
      · exact List.mem_append_left _ h

/-- the group of a delta is the users whose results have that delta -/
theorem group_users {results : List EloCalculationResult} {g : ℤ × List String}
    (hg : g ∈ (deltaToUserIds results).entries) :
    g.2 = (results.filter fun r => r.delta = g.1).map EloCalculationResult.userId := by
  have h := group_get results JsMap.empty g.1
  have hget : (deltaToUserIds results).get g.1 = some g.2 := JsMap.get_of_mem hg
  rw [deltaToUserIds] at hget
  rw [hget] at h
  exact h

/-- a user is in the group of a delta exactly when one of its results has that delta -/
theorem mem_deltaToUserIds {results : List EloCalculationResult} {g : ℤ × List String}
    (hg : g ∈ (deltaToUserIds results).entries) (u : String) :
    u ∈ g.2 ↔ ∃ r ∈ results, r.userId = u ∧ r.delta = g.1 := by
  rw [group_users hg]
  constructor
  · intro hu
    obtain ⟨r, hr, rfl⟩ := List.mem_map.1 hu
    rw [List.mem_filter] at hr
    exact ⟨r, hr.1, rfl, by simpa using hr.2⟩
  · rintro ⟨r, hr, rfl, hd⟩
    exact List.mem_map.2 ⟨r, List.mem_filter.2 ⟨hr, by simpa using hd⟩, rfl⟩

/-- the rows that the rating updates leave alone -/
theorem foldl_increment_frame (groups : List (ℤ × List String)) (db : Db) :
    (groups.foldl (fun db g => db.incrementElo g.2 g.1) db).rows = db.rows ∧
      (groups.foldl (fun db g => db.incrementElo g.2 g.1) db).row = db.row ∧
      (groups.foldl (fun db g => db.incrementElo g.2 g.1) db).claims = db.claims := by
  induction groups generalizing db with
  | nil => exact ⟨rfl, rfl, rfl⟩
  | cons g groups ih => exact ih (db.incrementElo g.2 g.1)

theorem foldl_increment_absent (u : String) (groups : List (ℤ × List String)) (h : ∀ g ∈ groups, u ∉ g.2) (db : Db) :
    (groups.foldl (fun db g => db.incrementElo g.2 g.1) db).increments u = db.increments u ∧
      (groups.foldl (fun db g => db.incrementElo g.2 g.1) db).users u = db.users u := by
  induction groups generalizing db with
  | nil => exact ⟨rfl, rfl⟩
  | cons g groups ih =>
    have hu := h g (by simp)
    obtain ⟨h1, h2⟩ := ih (fun g' hg' => h g' (by simp [hg'])) (db.incrementElo g.2 g.1)
    rw [List.foldl_cons, h1, h2]
    simp [Db.incrementElo, hu]

/-- a user that is in the group of `d` and in no other gets the increment `d`, once -/
theorem foldl_increment_once (u : String) (d : ℤ) (groups : List (ℤ × List String)) (hn : (groups.map Prod.fst).Nodup)
    (hu : ∀ g ∈ groups, u ∈ g.2 ↔ g.1 = d) (hd : d ∈ groups.map Prod.fst) (db : Db) (hrow : (db.users u).isSome) :
    (groups.foldl (fun db g => db.incrementElo g.2 g.1) db).increments u = db.increments u ++ [d] ∧
      (groups.foldl (fun db g => db.incrementElo g.2 g.1) db).users u = (db.users u).map (· + d) := by
  induction groups generalizing db with
  | nil => cases hd
  | cons g groups ih =>
    rw [List.map_cons, List.nodup_cons] at hn
    have hrest : ∀ g' ∈ groups, u ∈ g'.2 ↔ g'.1 = d := fun g' hg' => hu g' (by simp [hg'])
    have hg := hu g (by simp)
    rw [List.foldl_cons]
    by_cases heq : g.1 = d
    · -- the only group of the user: the rest leaves it alone
      have habsent : ∀ g' ∈ groups, u ∉ g'.2 := by
        intro g' hg' hmem
        have h1 := (hrest g' hg').1 hmem
        exact hn.1 (List.mem_map.2 ⟨g', hg', h1.trans heq.symm⟩)
      obtain ⟨h1, h2⟩ := foldl_increment_absent u groups habsent (db.incrementElo g.2 g.1)
      rw [h1, h2]
      simp [Db.incrementElo, hg.2 heq, hrow, heq]
    · have hnot : u ∉ g.2 := fun hmem => heq (hg.1 hmem)
      have hd' : d ∈ groups.map Prod.fst := by
        rcases List.mem_cons.1 hd with h | h
        · exact absurd h.symm heq
        · exact h
      have hkeep : (db.incrementElo g.2 g.1).users u = db.users u := by simp [Db.incrementElo, hnot]
      obtain ⟨h1, h2⟩ := ih hn.2 hrest hd' (db.incrementElo g.2 g.1) (by rw [hkeep]; exact hrow)
      rw [h1, h2, hkeep]
      simp [Db.incrementElo, hnot]

theorem incrementRatings_frame (results : List EloCalculationResult) (db : Db) :
    (incrementRatings results db).rows = db.rows ∧ (incrementRatings results db).row = db.row ∧
      (incrementRatings results db).claims = db.claims :=
  foldl_increment_frame _ db

theorem incrementRatings_absent (results : List EloCalculationResult) (db : Db) {u : String}
    (hu : u ∉ results.map EloCalculationResult.userId) :
    (incrementRatings results db).increments u = db.increments u ∧
      (incrementRatings results db).users u = db.users u := by
  refine foldl_increment_absent u _ ?_ db
  intro g hg hmem
  obtain ⟨r, hr, he, -⟩ := (mem_deltaToUserIds hg u).1 hmem
  exact hu (List.mem_map.2 ⟨r, hr, he⟩)

/-- **Grouping loses nothing.** Each user gets the delta of its own result, once. -/
theorem incrementRatings_once (results : List EloCalculationResult)
    (hn : (results.map EloCalculationResult.userId).Nodup) {r : EloCalculationResult} (hr : r ∈ results) (db : Db)
    (hrow : (db.users r.userId).isSome) :
    (incrementRatings results db).increments r.userId = db.increments r.userId ++ [r.delta] ∧
      (incrementRatings results db).users r.userId = (db.users r.userId).map (· + r.delta) := by
  refine foldl_increment_once r.userId r.delta _ (deltaToUserIds results).keys_nodup ?_
    (group_keys results JsMap.empty r (.inl hr)) db hrow
  intro g hg
  rw [mem_deltaToUserIds hg]
  constructor
  · rintro ⟨r', hr', he, hd⟩
    rw [← hd, List.inj_on_of_nodup_map hn hr' hr he]
  · intro hd
    exact ⟨r, hr, rfl, hd.symm⟩

/-! ## Rows of the players -/

section Rows

variable (m : Machine) (results : List EloCalculationResult)

theorem updatePlayerRows_frame (playerScores : List PlayerScore) (db : Db) :
    (updatePlayerRows m results playerScores db).users = db.users ∧
      (updatePlayerRows m results playerScores db).increments = db.increments ∧
      (updatePlayerRows m results playerScores db).row = db.row ∧
      (updatePlayerRows m results playerScores db).claims = db.claims := by
  induction playerScores generalizing db with
  | nil => exact ⟨rfl, rfl, rfl, rfl⟩
  | cons p playerScores ih => exact ih (db.updatePlayer p.userId (playerUpdate m (eloResultByUser results) p))

theorem updatePlayerRows_absent {u : String} (playerScores : List PlayerScore)
    (h : u ∉ playerScores.map PlayerScore.userId) (db : Db) :
    (updatePlayerRows m results playerScores db).rows u = db.rows u := by
  induction playerScores generalizing db with
  | nil => rfl
  | cons p playerScores ih =>
    simp only [List.map_cons, List.mem_cons, not_or] at h
    have hstep := ih h.2 (db.updatePlayer p.userId (playerUpdate m (eloResultByUser results) p))
    refine hstep.trans ?_
    simp [Db.updatePlayer, h.1]

theorem updatePlayerRows_row (playerScores : List PlayerScore) (hn : (playerScores.map PlayerScore.userId).Nodup)
    {p : PlayerScore} (hp : p ∈ playerScores) (db : Db) :
    (updatePlayerRows m results playerScores db).rows p.userId =
      (db.rows p.userId).map (playerUpdate m (eloResultByUser results) p) := by
  induction playerScores generalizing db with
  | nil => cases hp
  | cons q playerScores ih =>
    rw [List.map_cons, List.nodup_cons] at hn
    rcases List.mem_cons.1 hp with rfl | hp
    · refine (updatePlayerRows_absent m results playerScores hn.1 _).trans ?_
      simp [Db.updatePlayer]
    · have hne : p.userId ≠ q.userId := fun heq => hn.1 (heq ▸ List.mem_map_of_mem hp)
      refine (ih hn.2 hp (db.updatePlayer q.userId (playerUpdate m (eloResultByUser results) q))).trans ?_
      simp [Db.updatePlayer, hne]

end Rows

theorem eloResultByUser_get {results : List EloCalculationResult}
    (hn : (results.map EloCalculationResult.userId).Nodup) {r : EloCalculationResult} (hr : r ∈ results) :
    (eloResultByUser results).get r.userId = some r := by
  have hentries := JsMap.foldl_set_entries (results.map fun r => (r.userId, r)) JsMap.empty
    (by rw [List.map_map]; exact hn) (by simp)
  apply JsMap.get_of_mem
  rw [eloResultByUser, JsMap.ofEntries, hentries]
  exact List.mem_append_right _ (List.mem_map_of_mem hr)

/-! ## One claiming call -/

section Books

variable (F : FloatOps) (C : Collation)

/-- one result for each player scored -/
theorem eloResultsFor_users (users : String → Option ℤ) (m : Machine) (playerScores : List PlayerScore) :
    ((eloResultsFor F C users m playerScores).map EloCalculationResult.userId).Perm
      (playerScores.map PlayerScore.userId) := by
  have h := congrArg (List.map Prod.fst) (calculateMultiplayerElo_users F
    ((placedPlayers C m playerScores).map fun p =>
      ⟨p.player.userId, (users p.player.userId).getD defaultElo, p.placement, p.player.score⟩) defaultKFactor)
  rw [List.map_map, List.map_map, List.map_map] at h
  have hplaced : (placedPlayers C m playerScores).map (fun p => p.player.userId) =
      ((placedPlayers C m playerScores).map PlacedPlayer.player).map PlacementInput.userId := by
    rw [List.map_map]
    rfl
  have hinputs : (placementInputs m playerScores).map PlacementInput.userId = playerScores.map PlayerScore.userId := by
    rw [placementInputs, List.map_map]
    rfl
  have hp := (assignPlacements_players C (placementInputs m playerScores) m.state.winnerId).map PlacementInput.userId
  rw [hinputs] at hp
  have hleft : (eloResultsFor F C users m playerScores).map EloCalculationResult.userId =
      (placedPlayers C m playerScores).map (fun p => p.player.userId) := h
  rw [hleft, hplaced]
  exact hp

/-- a result starts from the rating that was read -/
theorem eloResultsFor_currentElo (users : String → Option ℤ) (m : Machine) (playerScores : List PlayerScore)
    {r : EloCalculationResult} (hr : r ∈ eloResultsFor F C users m playerScores) :
    r.currentElo = (users r.userId).getD defaultElo := by
  have hmem : (r.userId, r.currentElo) ∈
      (eloResultsFor F C users m playerScores).map fun r => (r.userId, r.currentElo) :=
    List.mem_map.2 ⟨r, hr, rfl⟩
  rw [eloResultsFor, calculateMultiplayerElo_users, List.map_map] at hmem
  obtain ⟨p, -, hp⟩ := List.mem_map.1 hmem
  obtain ⟨hid, helo⟩ := Prod.mk.inj hp
  rw [← helo, ← hid]

/-- what the books say of user `u` after a claim: the increments and rating of the user, and the row -/
structure Booked (before after : Db) (u : String) (r : EloCalculationResult) : Prop where
  increments : after.increments u = before.increments u ++ [r.delta]
  elo : after.users u = (before.users u).map (· + r.delta)
  row : ∃ row, after.rows u = some row ∧ row.eloBefore = some r.currentElo ∧ row.eloAfter = some r.newElo ∧
    row.eloDelta = some r.delta

/-- **The two accounts agree.** The rating of each participant is incremented by the delta its row records. -/
theorem scoreUpdates_books (db : Db) (m : Machine) (playerScores : List PlayerScore)
    (hn : (playerScores.map PlayerScore.userId).Nodup) {u : String} (hu : u ∈ playerScores.map PlayerScore.userId)
    (hrow : (db.rows u).isSome) :
    ∃ r ∈ eloResultsFor F C db.users m playerScores, r.userId = u ∧
      Booked db (applyScoreUpdates F C db m playerScores) u r := by
  have hperm := eloResultsFor_users F C db.users m playerScores
  have hnodup := hperm.nodup_iff.2 hn
  obtain ⟨r, hr, rfl⟩ := List.mem_map.1 (hperm.mem_iff.2 hu)
  obtain ⟨p, hp, hpu⟩ := List.mem_map.1 hu
  obtain ⟨row, hrow'⟩ := Option.isSome_iff_exists.1 hrow
  have hframe := updatePlayerRows_frame m (eloResultsFor F C db.users m playerScores) playerScores db
  have hrows := updatePlayerRows_row m (eloResultsFor F C db.users m playerScores) playerScores hn hp db
  have hget := eloResultByUser_get hnodup hr
  obtain ⟨hinc, helo⟩ := incrementRatings_once _ hnodup hr
    (updatePlayerRows m (eloResultsFor F C db.users m playerScores) playerScores db)
    (by rw [hframe.1]; exact db.fk _ hrow)
  have hrest := (incrementRatings_frame (eloResultsFor F C db.users m playerScores)
    (updatePlayerRows m (eloResultsFor F C db.users m playerScores) playerScores db)).1
  refine ⟨r, hr, rfl, ?_, ?_, ?_⟩
  · rw [applyScoreUpdates, hinc, hframe.2.1]
  · rw [applyScoreUpdates, helo, hframe.1]
  · refine ⟨playerUpdate m (eloResultByUser (eloResultsFor F C db.users m playerScores)) p row, ?_, ?_, ?_, ?_⟩
    · rw [applyScoreUpdates, hrest, ← hpu, hrows, hpu, hrow']
      rfl
    · rw [playerUpdate, hpu, hget]
      rfl
    · rw [playerUpdate, hpu, hget]
      rfl
    · rw [playerUpdate, hpu, hget]
      rfl

/-- users that did not play are left alone -/
theorem scoreUpdates_others (db : Db) (m : Machine) (playerScores : List PlayerScore) {u : String}
    (hu : u ∉ playerScores.map PlayerScore.userId) :
    (applyScoreUpdates F C db m playerScores).increments u = db.increments u ∧
      (applyScoreUpdates F C db m playerScores).users u = db.users u := by
  have hframe := updatePlayerRows_frame m (eloResultsFor F C db.users m playerScores) playerScores db
  have hres : u ∉ (eloResultsFor F C db.users m playerScores).map EloCalculationResult.userId :=
    fun hmem => hu ((eloResultsFor_users F C db.users m playerScores).mem_iff.1 hmem)
  obtain ⟨hinc, helo⟩ := incrementRatings_absent _
    (updatePlayerRows m (eloResultsFor F C db.users m playerScores) playerScores db) hres
  rw [applyScoreUpdates, hinc, helo, hframe.1, hframe.2.1]
  exact ⟨rfl, rfl⟩

theorem scoreUpdates_frame (db : Db) (m : Machine) (playerScores : List PlayerScore) :
    (applyScoreUpdates F C db m playerScores).row = db.row ∧
      (applyScoreUpdates F C db m playerScores).claims = db.claims := by
  have hframe := updatePlayerRows_frame m (eloResultsFor F C db.users m playerScores) playerScores db
  obtain ⟨-, hrow, hclaims⟩ := incrementRatings_frame (eloResultsFor F C db.users m playerScores)
    (updatePlayerRows m (eloResultsFor F C db.users m playerScores) playerScores db)
  rw [applyScoreUpdates, hrow, hclaims]
  exact hframe.2.2

end Books

/-! ## Every interleaving -/

/-- the rows of a match as `createMatch` leaves them -/
def Db.created (ids : List String) (users : String → Option ℤ) (h : ∀ u ∈ ids, (users u).isSome) : Db where
  row := ⟨.created, none, none⟩
  roomFinished := false
  users := users
  rows := fun u => if u ∈ ids then some .fresh else none
  fk := by
    intro u hu
    split_ifs at hu with hmem
    · exact h u hmem
    · cases hu
  increments := fun _ => []
  claims := []

/-- a machine of the match: any run from its creation -/
def OfMatch (J : StringOps) (matchId roomId : String) (players : List PlayerInfo) (m : Machine) : Prop :=
  ∃ acts, m = reach J matchId roomId players acts

/-- the machines a step reads are the match's -/
def SettleOp.Reads (P : Machine → Prop) : SettleOp → Prop
  | .finishMatch _ _ (some m) => P m
  | .transaction _ m _ _ => P m
  | _ => True

theorem ofMatch_users {J : StringOps} {matchId roomId : String} {players : List PlayerInfo} {m : Machine}
    (hd : (players.map PlayerInfo.id).Nodup) (h : OfMatch J matchId roomId players m) :
    (getPlayerScores m).map PlayerScore.userId = players.map PlayerInfo.id := by
  obtain ⟨acts, rfl⟩ := h
  have hkeys : (reach J matchId roomId players acts).state.players.keys =
      (Machine.create matchId roomId players).state.players.keys := by
    refine (run_inv (act J) (fun _ _ => True) (fun m => WireInv m ∧ m.state.players.keys =
      (Machine.create matchId roomId players).state.players.keys) ?_ _ acts ((along_const _ _ _ _).2 fun _ _ => trivial)
      ⟨wireInv_create matchId roomId players hd, rfl⟩).2
    rintro m a - ⟨hw, hk⟩
    refine ⟨act_wireInv J m a hw, ?_⟩
    cases a with
    | call o => exact (change_keys (step_change J m o)).trans hk
    | failover =>
      rcases failover_cases J m hw with hf | hf
      · rw [act, hf]
        exact hk
      · rw [act, hf]
        exact hk
  rw [getPlayerScores, List.map_map]
  exact hkeys.trans (create_keys matchId roomId players hd)

/-- the rows of a match that at most one call settled -/
structure AppliedOnce (F : FloatOps) (C : Collation) (P : Machine → Prop) (ids : List String) (db₀ db : Db) : Prop where
  once : db.claims.length ≤ 1
  unclaimed : db.claims = [] → db.row = db₀.row
  claimed : ∀ c ∈ db.claims, db.row = ⟨.finished, c.winnerId, some c.endedAt⟩
  /-- without a claim, or after a termination, nothing is booked -/
  unbooked : (∀ c ∈ db.claims, c.isNormalFinish = false) →
    db.users = db₀.users ∧ db.rows = db₀.rows ∧ ∀ u, db.increments u = []
  /-- after a normal finish every participant is booked with the delta of its result, and nobody else is -/
  booked : ∀ c ∈ db.claims, c.isNormalFinish = true → ∃ m, P m ∧ ∃ m', P m' ∧
    (∀ u ∈ ids, ∃ r ∈ eloResultsFor F C db₀.users m (getPlayerScores m'), r.userId = u ∧
      r.newElo - r.currentElo = r.delta ∧ db.increments u = [r.delta] ∧ db.users u = (db₀.users u).map (· + r.delta) ∧
      ∃ row, db.rows u = some row ∧ row.eloBefore = some r.currentElo ∧ row.eloAfter = some r.newElo ∧
        row.eloDelta = some r.delta) ∧
    ∀ u, u ∉ ids → db.increments u = [] ∧ db.users u = db₀.users u

/-- the three ways a transaction commits -/
theorem finishTransaction_cases {F : FloatOps} {C : Collation} {matchId : String} {db db' : Db} {call : FinishCall}
    {m : Machine} {now : Time} {claimed : Bool}
    (h : finishTransaction F C matchId db call (some m) now = .ok (db', claimed)) :
    (db.row.status = .finished ∧ db' = db) ∨
    (db.row.status ≠ .finished ∧ db' = { db.claim ⟨call.winnerId, now, false⟩ with roomFinished := true }) ∨
    (db.row.status ≠ .finished ∧ ∃ scores, call.playerScores = some scores ∧
      db' = { applyScoreUpdates F C (db.claim ⟨call.winnerId, now, true⟩) m scores with roomFinished := true }) := by
  unfold finishTransaction at h
  split_ifs at h with hs ha
  · obtain ⟨rfl, -⟩ := Prod.mk.inj (Except.ok.inj h)
    exact .inl ⟨hs, rfl⟩
  · obtain ⟨rfl, -⟩ := Prod.mk.inj (Except.ok.inj h)
    rw [ha]
    exact .inr (.inl ⟨hs, rfl⟩)
  · rw [Bool.not_eq_true] at ha
    cases hp : call.playerScores with
    | none => simp [hp, buildScoreUpdateOps] at h
    | some scores =>
      simp only [hp, buildScoreUpdateOps, Option.bind_some, Option.getD_some, ha, Bool.not_false] at h
      split_ifs at h with hlen
      obtain ⟨rfl, -⟩ := Prod.mk.inj (Except.ok.inj h)
      exact .inr (.inr ⟨hs, scores, rfl, rfl⟩)

structure SettlingInv (F : FloatOps) (C : Collation) (P : Machine → Prop) (ids : List String) (db₀ : Db)
    (s : Settling) : Prop where
  applied : AppliedOnce F C P ids db₀ s.db
  calls : ∀ call ∈ s.calls, ∀ scores, call.playerScores = some scores → ∃ m, P m ∧ scores = getPlayerScores m

section Interleaving

variable {F : FloatOps} {C : Collation} {P : Machine → Prop} {ids : List String} {db₀ : Db}

/-- an unfinished row has not been claimed -/
theorem AppliedOnce.not_claimed {db : Db} (h : AppliedOnce F C P ids db₀ db) (hs : db.row.status ≠ .finished) :
    db.claims = [] := by
  cases hc : db.claims with
  | nil => rfl
  | cons c rest => exact absurd (by rw [h.claimed c (by rw [hc]; simp)]) hs

/-- a termination of an unclaimed match -/
theorem AppliedOnce.terminate {db : Db} (h : AppliedOnce F C P ids db₀ db) (hc : db.claims = []) (w : Option String)
    (now : Time) (b : Bool) : AppliedOnce F C P ids db₀ { db.claim ⟨w, now, false⟩ with roomFinished := b } := by
  have hclaims : (db.claim ⟨w, now, false⟩).claims = [⟨w, now, false⟩] := by simp [Db.claim, hc]
  have honly : ∀ c ∈ (db.claim ⟨w, now, false⟩).claims, c = ⟨w, now, false⟩ := by simp [hclaims]
  refine ⟨?_, ?_, ?_, ?_, ?_⟩
  · simp [hclaims]
  · simp [hclaims]
  · intro c hmem
    rw [honly c hmem]
    rfl
  · intro _
    exact h.unbooked (by simp [hc])
  · intro c hmem hn
    rw [honly c hmem] at hn
    cases hn

/-- a normal finish of an unclaimed match -/
theorem AppliedOnce.settle {db : Db} (h : AppliedOnce F C P ids db₀ db) (hc : db.claims = [])
    (hids : ids.Nodup) (hrows : ∀ u ∈ ids, (db₀.rows u).isSome) (hP : ∀ m, P m →
      (getPlayerScores m).map PlayerScore.userId = ids) {m m' : Machine} (hm : P m) (hm' : P m') (w : Option String)
    (now : Time) (b : Bool) :
    AppliedOnce F C P ids db₀
      { applyScoreUpdates F C (db.claim ⟨w, now, true⟩) m (getPlayerScores m') with roomFinished := b } := by
  obtain ⟨husers, hrow, hinc⟩ := h.unbooked (by simp [hc])
  obtain ⟨hframe, hclaims⟩ := scoreUpdates_frame F C (db.claim ⟨w, now, true⟩) m (getPlayerScores m')
  have hclaims' : (applyScoreUpdates F C (db.claim ⟨w, now, true⟩) m (getPlayerScores m')).claims =
      [⟨w, now, true⟩] := by
    rw [hclaims]
    simp [Db.claim, hc]
  have honly : ∀ c ∈ (applyScoreUpdates F C (db.claim ⟨w, now, true⟩) m (getPlayerScores m')).claims,
      c = ⟨w, now, true⟩ := by simp [hclaims']
  have hscores := hP m' hm'
  have hsame : (db.claim ⟨w, now, true⟩).users = db₀.users := husers
  refine ⟨?_, ?_, ?_, ?_, ?_⟩
  · simp [hclaims']
  · simp [hclaims']
  · intro c hmem
    rw [honly c hmem]
    exact hframe
  · intro hall
    have := hall ⟨w, now, true⟩ (by simp [hclaims'])
    cases this
  · intro c hmem hn
    refine ⟨m, hm, m', hm', ?_, ?_⟩
    · intro u hu
      obtain ⟨r, hr, hru, hb⟩ := scoreUpdates_books F C (db.claim ⟨w, now, true⟩) m (getPlayerScores m')
        (by rw [hscores]; exact hids) (by rw [hscores]; exact hu) (by
          have := hrows u hu
          rw [← hrow] at this
          exact this)
      rw [hsame] at hr
      refine ⟨r, hr, hru, elo_delta F _ _ r hr, ?_, ?_, hb.row⟩
      · refine hb.increments.trans ?_
        rw [show (db.claim ⟨w, now, true⟩).increments u = [] from hinc u]
        rfl
      · rw [← hsame]
        exact hb.elo
    · intro u hu
      obtain ⟨h1, h2⟩ := scoreUpdates_others F C (db.claim ⟨w, now, true⟩) m (getPlayerScores m')
        (u := u) (by rw [hscores]; exact hu)
      exact ⟨h1.trans (hinc u), h2.trans (congrFun hsame u)⟩

theorem settleStep_inv (matchId : String) (hids : ids.Nodup) (hrows : ∀ u ∈ ids, (db₀.rows u).isSome)
    (hP : ∀ m, P m → (getPlayerScores m).map PlayerScore.userId = ids) (s : Settling) (o : SettleOp)
    (ho : o.Reads P) (h : SettlingInv F C P ids db₀ s) : SettlingInv F C P ids db₀ (settleStep F C matchId s o) := by
  cases o with
  | finishMatch w admin machine =>
    refine ⟨h.applied, ?_⟩
    intro call hcall scores hscores
    rcases List.mem_append.1 hcall with hcall | hcall
    · exact h.calls call hcall scores hscores
    · rw [List.mem_singleton.1 hcall] at hscores
      cases machine with
      | none => cases admin <;> cases hscores
      | some m =>
        cases admin with
        | true => cases hscores
        | false => exact ⟨m, ho, (Option.some.inj hscores).symm⟩
  | transaction i m fails now =>
    have hcalls : ∀ call ∈ s.calls.eraseIdx i, ∀ scores, call.playerScores = some scores →
        ∃ m, P m ∧ scores = getPlayerScores m :=
      fun call hcall => h.calls call (List.mem_of_mem_eraseIdx hcall)
    simp only [settleStep]
    split
    · exact h
    · rename_i call hcall
      split
      · exact ⟨h.applied, hcalls⟩
      · rename_i db claimed hok
        refine ⟨?_, hcalls⟩
        cases fails with
        | true => cases hok
        | false =>
          have hok' : finishTransaction F C matchId s.db call (some m) now = .ok (db, claimed) := by
            cases hres : finishTransaction F C matchId s.db call (some m) now with
            | error e => rw [hres] at hok; cases hok
            | ok x => rw [hres] at hok; exact congrArg _ (Option.some.inj hok)
          rcases finishTransaction_cases hok' with ⟨-, rfl⟩ | ⟨hs, rfl⟩ | ⟨hs, scores, hscores, rfl⟩
          · exact h.applied
          · exact h.applied.terminate (h.applied.not_claimed hs) _ now true
          · obtain ⟨m', hm', rfl⟩ := h.calls call (List.mem_of_getElem? hcall) scores hscores
            exact h.applied.settle (h.applied.not_claimed hs) hids hrows hP ho hm' _ now true
  | disbandSafetyNet now =>
    simp only [settleStep]
    split_ifs with hs
    · exact h
    · exact ⟨h.applied.terminate (h.applied.not_claimed hs) _ now true, h.calls⟩

end Interleaving

/-- **Results are applied at most once.** Over every interleaving of `finishMatch` calls (normal finishes and terminations)
and disbands of one match, with transactions failing at will: at most one of them writes the match row, which then holds
what it wrote; without a claim and after a termination no rating and no player row changes; and after a normal finish the
rating of every participant has been incremented once, by the delta of its result, which its player row records. -/
theorem results_applied_once (J : StringOps) (F : FloatOps) (C : Collation) (matchId roomId : String)
    (players : List PlayerInfo) (hd : (players.map PlayerInfo.id).Nodup) (users : String → Option ℤ)
    (hfk : ∀ u ∈ players.map PlayerInfo.id, (users u).isSome) (ops : List SettleOp)
    (hops : ∀ o ∈ ops, o.Reads (OfMatch J matchId roomId players)) :
    AppliedOnce F C (OfMatch J matchId roomId players) (players.map PlayerInfo.id)
      (Db.created (players.map PlayerInfo.id) users hfk)
      (run (settleStep F C matchId) ⟨Db.created (players.map PlayerInfo.id) users hfk, []⟩ ops).db := by
  refine (run_inv (settleStep F C matchId) (fun _ o => o.Reads (OfMatch J matchId roomId players))
    (SettlingInv F C (OfMatch J matchId roomId players) (players.map PlayerInfo.id)
      (Db.created (players.map PlayerInfo.id) users hfk)) ?_ _ ops ((along_const _ _ _ _).2 hops) ?_).applied
  · intro s o ho hs
    refine settleStep_inv matchId hd ?_ (fun m hm => ofMatch_users hd hm) s o ho hs
    intro u hu
    simp only [Db.created, if_pos hu]
    rfl
  · refine ⟨⟨by simp [Db.created], fun _ => rfl, ?_, fun _ => ⟨rfl, rfl, fun _ => rfl⟩, ?_⟩, ?_⟩
    · intro c hc
      cases hc
    · intro c hc
      cases hc
    · intro call hcall
      cases hcall

/-- the match alice won -/
def aliceWins : Machine :=
  (reach StringOps.ascii "m1" "r1" [freshPlayer "alice", freshPlayer "bob"]
    ([.call (.transition .countdown fun _ => 0)] ++ roundCalls [.submitAnswer "alice" "b" 100 none fun _ => 100] ++
      [.call (.transition .finished fun _ => 15000), .call (.finishMatch fun _ => 15000)]))

/-- a normal finish and an admin termination race, and the normal finish commits first -/
def finishRace : List SettleOp :=
  [.finishMatch (some "alice") false (some aliceWins), .finishMatch none true none, .transaction 0 aliceWins false 15100,
    .transaction 0 aliceWins false 15200]

theorem results_applied_once_race :
    let ids := [freshPlayer "alice", freshPlayer "bob"].map PlayerInfo.id
    let users : String → Option ℤ := fun u => if u ∈ ids then some 1200 else none
    ∃ hfk : ∀ u ∈ ids, (users u).isSome,
      let db := (run (settleStep FloatOps.exact Collation.codeUnits "m1") ⟨Db.created ids users hfk, []⟩ finishRace).db
      db.claims = [⟨some "alice", 15100, true⟩] ∧ db.increments "alice" = [16] ∧ db.increments "bob" = [-16] ∧
        AppliedOnce FloatOps.exact Collation.codeUnits
          (OfMatch StringOps.ascii "m1" "r1" [freshPlayer "alice", freshPlayer "bob"]) ids (Db.created ids users hfk)
          db := by
  intro ids users
  refine ⟨by decide, ?_⟩
  intro db
  have hm : OfMatch StringOps.ascii "m1" "r1" [freshPlayer "alice", freshPlayer "bob"] aliceWins := ⟨_, rfl⟩
  refine ⟨by decide +kernel, by decide +kernel, by decide +kernel, results_applied_once StringOps.ascii FloatOps.exact
    Collation.codeUnits "m1" "r1" [freshPlayer "alice", freshPlayer "bob"] (by decide) users (by decide) finishRace ?_⟩
  intro o ho
  simp only [finishRace, List.mem_cons, List.not_mem_nil, or_false] at ho
  rcases ho with rfl | rfl | rfl | rfl
  · exact hm
  · trivial
  · exact hm
  · exact hm

end Arena.Api
