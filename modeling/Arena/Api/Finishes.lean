/-
Who broadcasts MATCH_FINISHED: the natural finish (`finishMatchLoop` of `match-round-runner.ts`) and the disband of a
private room whose host went stale (`forceFinishMatchForDisband` of `game-loop.service.ts`, `handleHostStalePrivateRoom`
and `emitHostStaleDisbandEvents` of `presence.service.ts`), on all nodes, over the rows of one match (`Api.Results`).

A suspended call is a task of its node; it goes on with the reply of what it awaits. The machine a call reads comes with
the reply, as other code of the node has left it, so the results hold whatever that code does. Each database transaction
is one step. `finishMatch` answers a caller that lost the claim with the row of the match, like the one that won it. Only
MATCH_FINISHED is recorded of what is emitted.

- `claim_answered`: a finish that loses the claim goes on to its broadcast like one that won it;
- `match_finished_once`: while every finish that commits finds the match unfinished, at most one MATCH_FINISHED is
  emitted, with the winner of the row;
- `finished_twice`: a disband that wins the claim against the owner's finish.
-/
import Arena.Api.Results
import Arena.Lib.Run

namespace Arena.Api

open Arena.Lib Arena.Shared Arena.GameCore Arena.GameCore.Machine

/-! ## State -/

/-- the payload of MATCH_FINISHED; a finish of the loop sends the players, a disband the time -/
structure MatchFinished where
  matchId : String
  winnerId : Option String
  totalRounds : ℕ
  players : Option (List PlayerInfo)
  finishedAt : Option Time
deriving DecidableEq

structure FinishResult where
  matchId : String
  winnerId : Option String
  totalRounds : ℕ
  finishedAt : Time
deriving DecidableEq

/-- what `finishMatchLoopInner` awaits; `state` is read off the finished machine before the persist -/
inductive LoopStage where
  | assertOwnership
  | getStateMachine
  | persist (state : MatchState)
  | transaction (state : MatchState) (playerScores : Option (List PlayerScore))
  /-- the cleanup of `MatchService.finishMatch` after its transaction -/
  | finishMatch (state : MatchState)
  | release

/-- what `handleHostStalePrivateRoom` awaits -/
inductive DisbandStage where
  | release
  | awaitFinish
  | getStateMachine
  | persist (totalRounds : ℕ)
  | transaction (totalRounds : ℕ)
  /-- `finishMatch` has its answer, the command stream is being disposed -/
  | disposeStream (row : Option MatchRow) (totalRounds : ℕ)
  | disbandRoom (finishResult : Option FinishResult)
  /-- the Redis cleanup of `disbandRoom` -/
  | cleanup (finishResult : Option FinishResult) (safetyNetMatchIds : List String)

inductive FinishKind where
  | loop (stage : LoopStage)
  | disband (stage : DisbandStage)

structure NodeTask where
  node : String
  kind : FinishKind

/-- what an awaited call comes back with -/
structure FinishReply where
  /-- false when it throws, is refused or answers false -/
  ok : Bool
  /-- a transaction that throws may have committed all the same -/
  committed : Bool
  /-- the machine the call reads or holds as it goes on -/
  stateMachine : Option Machine
  now : Clock

structure Finishes where
  matchId : String
  db : Db
  tasks : List NodeTask
  /-- MATCH_FINISHED events sent to the room, oldest first -/
  emitted : List MatchFinished

namespace Finishes

/-- a match that is launched, with the rows `db` -/
def launched (matchId : String) (db : Db) : Finishes := ⟨matchId, db, [], []⟩

def await (s : Finishes) (node : String) (kind : FinishKind) : Finishes :=
  { s with tasks := s.tasks ++ [⟨node, kind⟩] }

def emit (s : Finishes) (e : MatchFinished) : Finishes := { s with emitted := s.emitted ++ [e] }

/-! ## Calls -/

def isFinishing (s : Finishes) (node : String) : Bool :=
  s.tasks.any fun t => t.node = node && match t.kind with
    | .loop _ => true
    | .disband _ => false

/-- `finishMatchLoop`: a second call on the node is a no-op while the first is in flight -/
def finishMatchLoop (s : Finishes) (node : String) : Finishes :=
  if s.isFinishing node then s else s.await node (.loop .assertOwnership)

/-- the second consecutive sweep that finds the host stale; the match is the room's current one -/
def handleHostStalePrivateRoom (s : Finishes) (node : String) : Finishes := s.await node (.disband .release)

/-! ## Stretches between awaits -/

/-- the transaction of `finishMatch`, and whether its reply arrives -/
def transact (F : FloatOps) (C : Collation) (s : Finishes) (call : FinishCall) (r : FinishReply) : Finishes × Bool :=
  if r.ok || r.committed then
    match finishTransaction F C s.matchId s.db call r.stateMachine (r.now 0) with
    | .error _ => (s, false)
    | .ok (db, _) => ({ s with db := db }, r.ok)
  else (s, false)

/-- `emitMatchFinished` -/
def finishedByLoop (matchId : String) (state : MatchState) : MatchFinished :=
  ⟨matchId, state.winnerId, state.currentRoundNo, some (state.players.entries.map Prod.snd), none⟩

def continueLoop (F : FloatOps) (C : Collation) (s : Finishes) (node : String) (r : FinishReply) :
    LoopStage → Finishes
  | .assertOwnership => if r.ok then s.await node (.loop .getStateMachine) else s
  | .getStateMachine =>
    if r.ok then
      match r.stateMachine with
      | none => s
      | some m =>
        match m.transition .finished r.now with
        | (_, .error _) => s
        | (m1, .ok _) => s.await node (.loop (.persist (m1.finishMatch r.now).state))
    else s
  | .persist state =>
    -- only an APPLIED persist authorizes the finish
    if r.ok then s.await node (.loop (.transaction state (r.stateMachine.map getPlayerScores))) else s
  | .transaction state playerScores =>
    let (s1, answered) := s.transact F C ⟨state.winnerId, false, playerScores⟩ r
    -- the returned row is not looked at
    if answered then s1.await node (.loop (.finishMatch state)) else s1
  | .finishMatch state => (s.emit (finishedByLoop s.matchId state)).await node (.loop .release)
  | .release => s

/-- the machine part of `forceFinishMatchForDisband` -/
def terminalize (m : Machine) (now : Clock) : Machine :=
  (if m.canTransition .finished then (m.transition .finished now).1 else m).finishMatch now

/-- what `forceFinishMatchForDisband` returns for the row `finishMatch` answered with -/
def forceFinishResult (matchId : String) (row : Option MatchRow) (totalRounds : ℕ) (now : Time) :
    Option FinishResult :=
  row.map fun match_ => ⟨matchId, match_.winnerId, totalRounds, match_.endedAt.getD now⟩

/-- the transaction of `disbandRoom`: the ids its safety net finished -/
def safetyNet (s : Finishes) (now : Time) : Finishes × List String :=
  if s.db.row.status = .finished then (s, [])
  else
    ({ s with db := { s.db.claim ⟨s.db.row.winnerId, now, false⟩ with roomFinished := true } }, [s.matchId])

def emitHostStaleDisbandEvents (s : Finishes) (finishResult : Option FinishResult) (safetyNetMatchIds : List String)
    (now : Time) : Finishes :=
  match finishResult with
  | some r => s.emit ⟨r.matchId, r.winnerId, r.totalRounds, none, some r.finishedAt⟩
  | none => safetyNetMatchIds.foldl (fun s matchId => s.emit ⟨matchId, none, 0, none, some now⟩) s

def continueDisband (F : FloatOps) (C : Collation) (s : Finishes) (node : String) (r : FinishReply) :
    DisbandStage → Finishes
  | .release =>
    if s.isFinishing node then s.await node (.disband .awaitFinish) else s.await node (.disband .getStateMachine)
  | .awaitFinish =>
    if s.isFinishing node then s.await node (.disband .awaitFinish) else s.await node (.disband (.disbandRoom none))
  | .getStateMachine =>
    if r.ok then
      match r.stateMachine with
      | none => s.await node (.disband (.transaction 0))
      | some m =>
        if m.state.status = .finished then s.await node (.disband (.transaction m.state.currentRoundNo))
        else s.await node (.disband (.persist (terminalize m r.now).state.currentRoundNo))
    else s.await node (.disband (.disbandRoom none))
  | .persist totalRounds =>
    -- the outcome is not looked at, a throw is
    if r.ok then s.await node (.disband (.transaction totalRounds)) else s.await node (.disband (.disbandRoom none))
  | .transaction totalRounds =>
    let (s1, answered) := s.transact F C ⟨none, true, none⟩ r
    if answered then s1.await node (.disband (.disposeStream (some s1.db.row) totalRounds))
    else s1.await node (.disband (.disbandRoom none))
  | .disposeStream row totalRounds =>
    s.await node (.disband (.disbandRoom (forceFinishResult s.matchId row totalRounds (r.now 0))))
  | .disbandRoom finishResult =>
    if r.ok || r.committed then
      let (s1, ids) := s.safetyNet (r.now 0)
      if r.ok then s1.await node (.disband (.cleanup finishResult ids)) else s1
    else s
  | .cleanup finishResult ids => s.emitHostStaleDisbandEvents finishResult ids (r.now 0)

/-! ## Steps -/

inductive FinishOp where
  | finishMatchLoop (node : String)
  | handleHostStalePrivateRoom (node : String)
  /-- the i-th suspended call goes on -/
  | resume (i : ℕ) (reply : FinishReply)
  | crash (node : String)

def continueTask (F : FloatOps) (C : Collation) (s : Finishes) (t : NodeTask) (r : FinishReply) : Finishes :=
  match t.kind with
  | .loop stage => s.continueLoop F C t.node r stage
  | .disband stage => s.continueDisband F C t.node r stage

def step (F : FloatOps) (C : Collation) (s : Finishes) : FinishOp → Finishes
  | .finishMatchLoop node => s.finishMatchLoop node
  | .handleHostStalePrivateRoom node => s.handleHostStalePrivateRoom node
  | .resume i r =>
    match s.tasks[i]? with
    | none => s
    | some t => { s with tasks := s.tasks.eraseIdx i }.continueTask F C t r
  | .crash node => { s with tasks := s.tasks.filter fun t => t.node ≠ node }

/-! ## Statement -/

def claims : FinishKind → Bool
  | .loop (.transaction _ _) | .disband (.transaction _) => true
  | _ => false

/-- a finish that commits finds the match not FINISHED yet -/
def ClaimsFirst (s : Finishes) : FinishOp → Prop
  | .resume i r => ∀ t ∈ s.tasks[i]?, claims t.kind = true → (r.ok || r.committed) = true →
      s.db.row.status ≠ .finished
  | _ => True

instance (s : Finishes) : (o : FinishOp) → Decidable (ClaimsFirst s o)
  | .resume i r => inferInstanceAs (Decidable (∀ t ∈ s.tasks[i]?, claims t.kind = true →
      (r.ok || r.committed) = true → s.db.row.status ≠ .finished))
  | .finishMatchLoop _ | .handleHostStalePrivateRoom _ | .crash _ => .isTrue trivial

/-! ## The transaction -/

section Transaction

variable {F : FloatOps} {C : Collation} {s : Finishes} {call : FinishCall} {r : FinishReply}

/-- a claiming transaction writes the row -/
theorem finishTransaction_row {matchId : String} {db db' : Db} {m : Option Machine} {now : Time} {claimed : Bool}
    (hrow : db.row.status ≠ .finished)
    (h : finishTransaction F C matchId db call m now = .ok (db', claimed)) :
    db'.row = ⟨.finished, call.winnerId, some now⟩ := by
  rw [finishTransaction, if_neg hrow] at h
  dsimp only at h
  split_ifs at h with hadmin
  · obtain ⟨rfl, -⟩ := Prod.mk.inj (Except.ok.inj h)
    rfl
  · cases hm : call.playerScores.bind fun _ => m with
    | none => simp [hm, buildScoreUpdateOps] at h
    | some m' =>
      simp only [hm, buildScoreUpdateOps] at h
      split_ifs at h with hlen
      obtain ⟨rfl, -⟩ := Prod.mk.inj (Except.ok.inj h)
      exact (scoreUpdates_frame F C _ m' _).1

/-- **A lost claim is answered.** On a finished match the transaction changes nothing, and its caller is answered as the
one that won. -/
theorem claim_answered (hrow : s.db.row.status = .finished) : s.transact F C call r = (s, r.ok) := by
  unfold transact
  split_ifs with hends
  · rw [finishTransaction, if_pos hrow]
  · have hok : r.ok = false := by
      simp only [Bool.or_eq_true, not_or, Bool.not_eq_true] at hends
      exact hends.1
    rw [hok]

/-- on an unfinished match it fails, or it writes the row -/
theorem transact_claims (F : FloatOps) (C : Collation) (call : FinishCall)
    (h : (r.ok || r.committed) = true → s.db.row.status ≠ .finished) :
    s.transact F C call r = (s, false) ∨
      ∃ db answered, s.transact F C call r = ({ s with db := db }, answered) ∧ s.db.row.status ≠ .finished ∧
        db.row = ⟨.finished, call.winnerId, some (r.now 0)⟩ := by
  unfold transact
  split_ifs with hends
  · cases ht : finishTransaction F C s.matchId s.db call r.stateMachine (r.now 0) with
    | error e => exact .inl rfl
    | ok result => exact .inr ⟨result.1, r.ok, rfl, h hends, finishTransaction_row (h hends) ht⟩
  · exact .inl rfl

end Transaction

/-! ## What is owed -/

/-- the winners that the events of a disband will carry -/
def announced (finishResult : Option FinishResult) (safetyNetMatchIds : List String) : List (Option String) :=
  match finishResult with
  | some r => [r.winnerId]
  | none => safetyNetMatchIds.map fun _ => none

/-- the winners a suspended call is still to broadcast -/
def owedBy : FinishKind → List (Option String)
  | .loop (.finishMatch state) => [state.winnerId]
  | .disband (.disposeStream (some row) _) => [row.winnerId]
  | .disband (.disbandRoom finishResult) => announced finishResult []
  | .disband (.cleanup finishResult ids) => announced finishResult ids
  | _ => []

/-- the winners broadcast so far and those still to be -/
def owed (s : Finishes) : List (Option String) :=
  s.emitted.map MatchFinished.winnerId ++ s.tasks.flatMap fun t => owedBy t.kind

section Owed

variable {s : Finishes}

theorem owed_await (s : Finishes) (node : String) (kind : FinishKind) :
    (s.await node kind).owed = s.owed ++ owedBy kind := by
  simp [owed, await]

theorem owed_emit (s : Finishes) (e : MatchFinished) : (s.emit e).owed.Perm (s.owed ++ [e.winnerId]) := by
  simp only [owed, emit, List.map_append, List.map_cons, List.map_nil, List.append_assoc]
  exact List.perm_append_comm.append_left _

/-- the resumed call is taken off the list -/
theorem owed_resume {i : ℕ} {t : NodeTask} (ht : s.tasks[i]? = some t) :
    s.owed.Perm ({ s with tasks := s.tasks.eraseIdx i }.owed ++ owedBy t.kind) := by
  obtain ⟨hi, rfl⟩ := List.getElem?_eq_some_iff.1 ht
  have htasks : (s.tasks.flatMap fun t => owedBy t.kind).Perm
      ((s.tasks.eraseIdx i).flatMap (fun t => owedBy t.kind) ++ owedBy s.tasks[i].kind) :=
    ((List.getElem_cons_eraseIdx_perm hi).symm.flatMap_right _).trans List.perm_append_comm
  rw [owed, owed, List.append_assoc]
  exact htasks.append_left _

theorem owed_disbandEvents (s : Finishes) (finishResult : Option FinishResult) (ids : List String) (now : Time) :
    (s.emitHostStaleDisbandEvents finishResult ids now).owed.Perm (s.owed ++ announced finishResult ids) := by
  cases finishResult with
  | some result => exact owed_emit s _
  | none =>
    induction ids generalizing s with
    | nil => simp [emitHostStaleDisbandEvents, announced]
    | cons id ids ih =>
      have hrest := (ih (s.emit ⟨id, none, 0, none, some now⟩)).trans ((owed_emit s _).append_right _)
      rw [List.append_assoc] at hrest
      exact hrest

theorem disbandEvents_db (s : Finishes) (finishResult : Option FinishResult) (ids : List String) (now : Time) :
    (s.emitHostStaleDisbandEvents finishResult ids now).db = s.db := by
  cases finishResult with
  | some result => rfl
  | none =>
    induction ids generalizing s with
    | nil => rfl
    | cons id ids ih => exact ih (s.emit _)

end Owed

/-! ## Invariant -/

/-- nothing is broadcast of an unfinished match, and at most its winner of a finished one -/
structure OnceInv (s : Finishes) : Prop where
  unfinished : s.db.row.status ≠ .finished → s.db.row.winnerId = none ∧ s.owed = []
  finished : s.db.row.status = .finished → s.owed.length ≤ 1 ∧ ∀ w ∈ s.owed, w = s.db.row.winnerId

/-- what a stretch of a call can do that owed `due`: it owes no more and leaves the row, or it finishes the match -/
inductive Settles (s : Finishes) (due : List (Option String)) (s' : Finishes) : Prop where
  | keeps (hrow : s'.db.row = s.db.row) (howed : s'.owed.Subperm (s.owed ++ due))
  | claims (hbefore : s.db.row.status ≠ .finished) (hafter : s'.db.row.status = .finished)
      (howed : s'.owed.Subperm (s.owed ++ due ++ [s'.db.row.winnerId]))

theorem OnceInv.settles {s s' : Finishes} {due : List (Option String)} {s0 : Finishes} (h : OnceInv s0)
    (hrow : s.db = s0.db) (hdue : s0.owed.Perm (s.owed ++ due)) (hs : Settles s due s') : OnceInv s' := by
  cases hs with
  | keeps hkept howed =>
    have hsub : s'.owed.Subperm s0.owed := howed.trans hdue.symm.subperm
    rw [hrow] at hkept
    refine ⟨fun hopen => ?_, fun hdone => ?_⟩
    · rw [hkept] at hopen ⊢
      obtain ⟨hw, hnone⟩ := h.unfinished hopen
      rw [hnone] at hsub
      exact ⟨hw, List.subperm_nil.1 hsub⟩
    · rw [hkept] at hdone ⊢
      obtain ⟨hlen, hall⟩ := h.finished hdone
      exact ⟨hsub.length_le.trans hlen, fun w hw => hall w (hsub.subset hw)⟩
  | claims hbefore hafter howed =>
    rw [hrow] at hbefore
    have hnone : s.owed ++ due = [] := by
      rw [← List.perm_nil, ← (h.unfinished hbefore).2]
      exact hdue.symm
    rw [hnone, List.nil_append] at howed
    refine ⟨fun hopen => absurd hafter hopen, fun _ => ⟨howed.length_le, fun w hw => ?_⟩⟩
    exact List.mem_singleton.1 (howed.subset hw)

/-! ## Stretches -/

section Stretches

variable {F : FloatOps} {C : Collation} {s : Finishes} {node : String} {r : FinishReply}

theorem settles_same (s : Finishes) (due : List (Option String)) : Settles s due s :=
  .keeps rfl (List.sublist_append_left _ _).subperm

/-- the call goes on and owes no more than before -/
theorem settles_await {due : List (Option String)} {kind : FinishKind} (h : (owedBy kind).Subperm due) :
    Settles s due (s.await node kind) := by
  refine .keeps rfl ?_
  rw [owed_await]
  exact (List.subperm_append_left _).2 h

/-- the call is answered nothing it would broadcast -/
theorem settles_silent {due : List (Option String)} {kind : FinishKind} (h : owedBy kind = []) :
    Settles s due (s.await node kind) :=
  settles_await (h ▸ List.nil_subperm)

/-- the call wins the claim and goes on to broadcast at most the winner it wrote -/
theorem settles_claim {due : List (Option String)} {db : Db} {w : Option String} {t : Option Time} {kind : FinishKind}
    (hopen : s.db.row.status ≠ .finished) (hrow : db.row = ⟨.finished, w, t⟩) (h : (owedBy kind).Subperm [w]) :
    Settles s due ({ s with db := db }.await node kind) := by
  refine .claims hopen (congrArg MatchRow.status hrow) ?_
  have hw : ({ s with db := db }.await node kind).db.row.winnerId = w := congrArg MatchRow.winnerId hrow
  rw [owed_await, hw, List.append_assoc]
  exact (List.subperm_append_left _).2 (h.trans (List.sublist_append_right _ _).subperm)

theorem continueLoop_settles (stage : LoopStage)
    (hfirst : claims (.loop stage) = true → (r.ok || r.committed) = true → s.db.row.status ≠ .finished) :
    Settles s (owedBy (.loop stage)) (s.continueLoop F C node r stage) := by
  cases stage with
  | assertOwnership =>
    simp only [continueLoop]
    split_ifs
    · exact settles_silent rfl
    · exact settles_same s _
  | getStateMachine =>
    simp only [continueLoop]
    split_ifs
    · cases r.stateMachine with
      | none => exact settles_same s _
      | some m =>
        dsimp only
        split
        · exact settles_same s _
        · exact settles_silent rfl
    · exact settles_same s _
  | persist state =>
    simp only [continueLoop]
    split_ifs
    · exact settles_silent rfl
    · exact settles_same s _
  | transaction state playerScores =>
    rcases transact_claims F C ⟨state.winnerId, false, playerScores⟩ (hfirst rfl) with
      ht | ⟨db, answered, ht, hopen, hrow⟩
    · simp only [continueLoop, ht]
      exact settles_same s _
    · simp only [continueLoop, ht]
      split_ifs
      · exact settles_claim hopen hrow (List.Subperm.refl _)
      · refine .claims hopen (congrArg MatchRow.status hrow) ?_
        exact ((List.sublist_append_left _ _).trans (List.sublist_append_left _ _)).subperm
  | finishMatch state =>
    refine .keeps rfl ?_
    have hrelease : owedBy (.loop .release) = [] := rfl
    rw [continueLoop, owed_await, hrelease, List.append_nil]
    exact (owed_emit s _).subperm
  | release => exact settles_same s _

theorem continueDisband_settles (stage : DisbandStage)
    (hnobody : s.db.row.status ≠ .finished → s.db.row.winnerId = none)
    (hfirst : claims (.disband stage) = true → (r.ok || r.committed) = true → s.db.row.status ≠ .finished) :
    Settles s (owedBy (.disband stage)) (s.continueDisband F C node r stage) := by
  cases stage with
  | release =>
    simp only [continueDisband]
    split_ifs
    · exact settles_silent rfl
    · exact settles_silent rfl
  | awaitFinish =>
    simp only [continueDisband]
    split_ifs
    · exact settles_silent rfl
    · exact settles_silent rfl
  | getStateMachine =>
    simp only [continueDisband]
    split_ifs
    · cases r.stateMachine with
      | none => exact settles_silent rfl
      | some m =>
        dsimp only
        split_ifs
        · exact settles_silent rfl
        · exact settles_silent rfl
    · exact settles_silent rfl
  | persist totalRounds =>
    simp only [continueDisband]
    split_ifs
    · exact settles_silent rfl
    · exact settles_silent rfl
  | transaction totalRounds =>
    rcases transact_claims F C ⟨none, true, none⟩ (hfirst rfl) with
      ht | ⟨db, answered, ht, hopen, hrow⟩
    · simp only [continueDisband, ht]
      exact settles_silent rfl
    · simp only [continueDisband, ht]
      split_ifs
      · exact settles_claim hopen hrow (by rw [owedBy, hrow])
      · exact settles_claim hopen hrow List.nil_subperm
  | disposeStream row totalRounds =>
    cases row with
    | none => exact settles_silent rfl
    | some row => exact settles_await (List.Subperm.refl _)
  | disbandRoom finishResult =>
    simp only [continueDisband, safetyNet]
    split_ifs with hends hok hdone hdone
    · exact settles_await (List.Subperm.refl _)
    · cases finishResult with
      | none => exact settles_claim hdone rfl (by rw [hnobody hdone]; exact List.Subperm.refl _)
      | some result =>
        refine .claims hdone rfl ?_
        rw [owed_await]
        exact (List.sublist_append_left _ _).subperm
    · exact settles_same s _
    · refine .claims hdone rfl ?_
      exact ((List.sublist_append_left _ _).trans (List.sublist_append_left _ _)).subperm
    · exact settles_same s _
  | cleanup finishResult ids =>
    rw [continueDisband]
    exact .keeps (congrArg Db.row (disbandEvents_db s _ _ _)) (owed_disbandEvents s _ _ _).subperm

end Stretches

/-! ## Steps and runs -/

section Runs

variable {F : FloatOps} {C : Collation}

theorem continueTask_inv {s : Finishes} (h : OnceInv s) {i : ℕ} {t : NodeTask} (ht : s.tasks[i]? = some t)
    (r : FinishReply) (hfirst : ClaimsFirst s (.resume i r)) :
    OnceInv ({ s with tasks := s.tasks.eraseIdx i }.continueTask F C t r) := by
  have hfirst' := hfirst t ht
  refine h.settles (s := { s with tasks := s.tasks.eraseIdx i }) rfl (owed_resume ht) ?_
  obtain ⟨node, kind⟩ := t
  cases kind with
  | loop stage => exact continueLoop_settles stage hfirst'
  | disband stage => exact continueDisband_settles stage (fun hopen => (h.unfinished hopen).1) hfirst'

theorem step_onceInv (s : Finishes) (o : FinishOp) (hfirst : ClaimsFirst s o) (h : OnceInv s) :
    OnceInv (s.step F C o) := by
  have hdue : s.owed.Perm (s.owed ++ []) := by rw [List.append_nil]
  cases o with
  | finishMatchLoop node =>
    refine h.settles rfl hdue ?_
    rw [step, finishMatchLoop]
    split_ifs
    · exact settles_same s _
    · exact settles_silent rfl
  | handleHostStalePrivateRoom node => exact h.settles rfl hdue (settles_silent rfl)
  | resume i r =>
    simp only [step]
    cases ht : s.tasks[i]? with
    | none => exact h
    | some t => exact continueTask_inv h ht r hfirst
  | crash node =>
    refine h.settles rfl hdue (.keeps rfl ?_)
    have htasks : (s.tasks.filter fun t => t.node ≠ node).Sublist s.tasks := List.filter_sublist
    rw [List.append_nil]
    exact ((htasks.flatMap _).append_left _).subperm

/-- **MATCH_FINISHED once.** Over any nodes and any interleaving of natural finishes and host-stale disbands of a match,
with calls that throw or lose their reply and nodes that crash, in which every finish that commits finds the match not
FINISHED yet: at most one MATCH_FINISHED is broadcast, and it carries the winner of the match row. -/
theorem match_finished_once (F : FloatOps) (C : Collation) (matchId : String) (db : Db)
    (hopen : db.row.status ≠ .finished) (hnobody : db.row.winnerId = none) (ops : List FinishOp)
    (hg : Along (step F C) ClaimsFirst (launched matchId db) ops) :
    (run (step F C) (launched matchId db) ops).emitted.length ≤ 1 ∧
      ∀ e ∈ (run (step F C) (launched matchId db) ops).emitted,
        e.winnerId = (run (step F C) (launched matchId db) ops).db.row.winnerId := by
  have hstart : OnceInv (launched matchId db) := ⟨fun _ => ⟨hnobody, rfl⟩, fun hdone => absurd hdone hopen⟩
  have h := run_inv (step F C) ClaimsFirst OnceInv step_onceInv _ ops hg hstart
  generalize run (step F C) (launched matchId db) ops = s at h ⊢
  have hsent : (s.emitted.map MatchFinished.winnerId).Sublist s.owed := List.sublist_append_left _ _
  by_cases hdone : s.db.row.status = .finished
  · obtain ⟨hlen, hall⟩ := h.finished hdone
    have hle := hsent.length_le.trans hlen
    rw [List.length_map] at hle
    exact ⟨hle, fun e he => hall _ (hsent.subset (List.mem_map_of_mem he))⟩
  · rw [(h.unfinished hdone).2, List.sublist_nil, List.map_eq_nil_iff] at hsent
    rw [hsent]
    exact ⟨Nat.zero_le 1, fun e he => absurd he List.not_mem_nil⟩

end Runs

/-! ## Schedules -/

/-- a call that succeeds, with the machine it reads -/
def succeeded (stateMachine : Option Machine) (now : Time) : FinishReply := ⟨true, false, stateMachine, fun _ => now⟩

/-- the match of `aliceWins`, before its last check -/
def lastRound : Machine :=
  reach StringOps.ascii "m1" "r1" [freshPlayer "alice", freshPlayer "bob"]
    ([.call (.transition .countdown fun _ => 0)] ++ roundCalls [.submitAnswer "alice" "b" 100 none fun _ => 100])

def ratedUsers : String → Option ℤ := fun u => if u = "alice" ∨ u = "bob" then some 1200 else none

theorem ratedUsers_fk : ∀ u ∈ [freshPlayer "alice", freshPlayer "bob"].map PlayerInfo.id, (ratedUsers u).isSome := by
  decide

/-- the match of alice and bob as it is launched -/
def aliceBob : Finishes :=
  launched "m1" (Db.created ([freshPlayer "alice", freshPlayer "bob"].map PlayerInfo.id) ratedUsers ratedUsers_fk)

/-- the finish on the owner, up to its transaction -/
def ownerFinish : List FinishOp :=
  [.finishMatchLoop "owner", .resume 0 (succeeded none 15000), .resume 0 (succeeded (some lastRound) 15000),
    .resume 0 (succeeded (some aliceWins) 15000)]

/-- the owner settles the match, and a sweep of its own node waits for it -/
def sweptOnOwner : List FinishOp :=
  ownerFinish ++ [.handleHostStalePrivateRoom "owner", .resume 1 (succeeded none 15050),
    .resume 0 (succeeded (some aliceWins) 15100), .resume 1 (succeeded none 15200), .resume 1 (succeeded none 15250),
    .resume 0 (succeeded none 15300), .resume 0 (succeeded none 15300), .resume 0 (succeeded none 15300)]

/-- nothing is lost or sent twice when the sweep sees the finish in flight -/
theorem match_finished_once_swept :
    let s := run (step FloatOps.exact Collation.codeUnits) aliceBob sweptOnOwner
    s.emitted.map MatchFinished.winnerId = [some "alice"] ∧ s.tasks.length = 0 ∧ s.emitted.length ≤ 1 ∧
      ∀ e ∈ s.emitted, e.winnerId = s.db.row.winnerId := by
  intro s
  have hg : (Along (step FloatOps.exact Collation.codeUnits) ClaimsFirst aliceBob sweptOnOwner ∧
      s.emitted.map MatchFinished.winnerId = [some "alice"]) ∧ s.tasks.length = 0 := by decide +kernel
  exact ⟨hg.1.2, hg.2, match_finished_once FloatOps.exact Collation.codeUnits "m1" _ (by decide) rfl sweptOnOwner
    hg.1.1⟩

/-- the sweep runs on another node and claims the match before the owner's finish -/
def sweptElsewhere : List FinishOp :=
  ownerFinish ++ [.handleHostStalePrivateRoom "leader", .resume 1 (succeeded none 15010),
    .resume 1 (succeeded (some aliceWins) 15020), .resume 1 (succeeded none 15030),
    .resume 0 (succeeded (some aliceWins) 15040), .resume 1 (succeeded none 15050), .resume 0 (succeeded none 15050),
    .resume 1 (succeeded none 15060), .resume 1 (succeeded none 15060)]

/-- both nodes broadcast MATCH_FINISHED, and the owner's names a winner that the row does not have -/
theorem finished_twice :
    let s := run (step FloatOps.exact Collation.codeUnits) aliceBob sweptElsewhere
    s.emitted.map MatchFinished.winnerId = [some "alice", none] ∧ s.db.row = ⟨.finished, none, some 15030⟩ ∧
      ¬(s.emitted.length ≤ 1 ∧ ∀ e ∈ s.emitted, e.winnerId = s.db.row.winnerId) := by
  decide +kernel

end Finishes

end Arena.Api
