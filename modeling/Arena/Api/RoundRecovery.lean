/-
The end of a round that was evaluated before its owner died (`match-round-recovery.ts`).

The blob has no answer key: recovery looks it up by the question. `lookup` is `findOne`; a question that is not found and
a call that throws are both `none`. Event payloads are typed, so the checks that `eliminatedIds` is an array of strings
have no counterpart.

- `recoverRoundEnd_kept`: both branches, the log and the recomputation, find what the evaluation found;
- `recovered_round_end`: after a decode at any later point of the phase, recovery returns what `evaluateRound` returned,
  except that it eliminates nobody in a round without its starting players;
- `run_recovers`: no round of a match that this version wrote is without them.
-/
import Arena.Api.EarlyTermination

namespace Arena.Api

open Arena.Lib Arena.Shared Arena.GameCore Arena.GameCore.Machine

/-! ## Recovery -/

structure RoundEndContext where
  survivingIds : List String
  eliminatedIds : List String
  correctAnswer : String
deriving DecidableEq, Repr

/-- `none` is UNAVAILABLE -/
def getRecoveryStartingPlayers (round : Round) : Option (List String) := round.startingPlayers

/-- the `eliminatedIds` of a ROUND_EVALUATED event of the round -/
def roundEvaluatedIn (roundNo : ℕ) : MatchEvent → Option (List String)
  | .roundEvaluated n _ _ _ eliminatedIds => if n = roundNo then some eliminatedIds else none
  | _ => none

def getRecoveryEliminatedIdsFromEventLog (roundEvaluatedEvents : List (List String)) (recoveryRound : Round)
    (startingPlayers : Option (List String)) (correctAnswer : String) : Option (List String) :=
  match roundEvaluatedEvents with
  | [eliminatedIds] =>
    if ¬eliminatedIds.Nodup then none
    else
      match startingPlayers with
      | none => none
      | some startingPlayers =>
        if correctAnswer = "" then none
        else if ¬∀ playerId ∈ eliminatedIds, playerId ∈ startingPlayers then none
        else
          let expectedEliminatedIds := eliminationsForRound startingPlayers recoveryRound.answers
          if expectedEliminatedIds.length = eliminatedIds.length ∧
              ∀ playerId ∈ eliminatedIds, playerId ∈ expectedEliminatedIds then some eliminatedIds
          else none
  | _ => none

def recoverRoundEnd (lookup : String → Option String) (m : Machine) (round : Round) : RoundEndContext :=
  let survivingIds := m.state.survivingPlayerIds
  let attached := round.correctAnswer.getD ""
  let correctAnswer := if attached = "" then (lookup round.question.id).getD "" else attached
  let startingPlayers := getRecoveryStartingPlayers round
  let roundEvaluatedEvents := m.eventLog.filterMap fun e => roundEvaluatedIn round.roundNo e.event
  match getRecoveryEliminatedIdsFromEventLog roundEvaluatedEvents round startingPlayers correctAnswer with
  | some eliminatedIds => ⟨survivingIds, eliminatedIds, correctAnswer⟩
  | none =>
    match startingPlayers with
    | none => ⟨survivingIds, [], correctAnswer⟩
    | some startingPlayers =>
      if correctAnswer = "" then
        ⟨survivingIds, startingPlayers.filter fun playerId => playerId ∉ survivingIds, correctAnswer⟩
      else ⟨survivingIds, eliminationsForRound startingPlayers round.answers, correctAnswer⟩

/-- the log is believed only if it has what the answers say -/
theorem eliminated_from_log {events : List (List String)} {round : Round} {starting : Option (List String)}
    {key : String} {ids : List String}
    (h : getRecoveryEliminatedIdsFromEventLog events round starting key = some ids) :
    events = [ids] ∧ starting ≠ none := by
  unfold getRecoveryEliminatedIdsFromEventLog at h
  split at h
  · cases starting with
    | none =>
      dsimp only at h
      split_ifs at h
    | some l =>
      dsimp only at h
      split_ifs at h with hdup hkey hin hmatch
      obtain rfl := Option.some.inj h
      exact ⟨rfl, by simp⟩
  · cases h

/-! ## The round that was evaluated -/

namespace Runner

/-- `handleActiveRoundEnd` up to its persist: what it leaves, and what it returns -/
def activeRoundEnd (m : Machine) (now : Clock) : Outcome Evaluation :=
  match m.transition .roundEvaluating now with
  | (m, .error e) => (m, .error e)
  | (m, .ok _) => m.evaluateRound now

theorem handleActiveRoundEnd_machine (s : Runner) :
    s.handleActiveRoundEnd.machine = (activeRoundEnd s.machine s.now).1 := by
  unfold handleActiveRoundEnd activeRoundEnd
  rcases s.machine.transition .roundEvaluating s.now with ⟨m, e | a⟩
  · rfl
  · exact awaitAfter_machine s _ _ endEndRound fun _ => rfl

/-- the evaluation `e` of `round`, as the machine still has it; `starting` is the snapshot it has left -/
structure Ended (round : Round) (e : Evaluation) (starting : Option (List String)) (m : Machine) (r : Round) :
    Prop where
  survivors : m.state.survivingPlayerIds = e.survivingIds
  current : m.currentRound = some r
  closed : r.status = .completed
  roundNo : r.roundNo = round.roundNo
  question : r.question = round.question
  answers : r.answers = round.answers
  starting : r.startingPlayers = starting
  logged : e.eliminatedIds ∈ m.eventLog.filterMap fun x => roundEvaluatedIn round.roundNo x.event

theorem activeRoundEnd_ended {m m' : Machine} {now : Clock} {round : Round} {e : Evaluation}
    (hr : m.currentRound = some round) (h : activeRoundEnd m now = (m', .ok e)) :
    Ended round e round.startingPlayers m' { round with status := .completed } ∧
      e.eliminatedIds = eliminationsForRound (round.startingPlayers.getD m.state.survivingPlayerIds) round.answers ∧
      e.correctAnswer = round.correctAnswer := by
  unfold activeRoundEnd at h
  split at h
  · cases congrArg Prod.snd h
  rename_i m1 a ht
  have hm1 : m1.currentRound = some round ∧ m1.state.survivingPlayerIds = m.state.survivingPlayerIds := by
    unfold Machine.transition at ht
    split_ifs at ht with hv
    · obtain rfl := congrArg Prod.fst ht
      exact ⟨hr, rfl⟩
    · cases congrArg Prod.snd ht
  rw [evaluateRound_eq, hm1.1] at h
  dsimp only at h
  cases hf : m1.eliminatedFrozen with
  | true =>
    rw [hf, if_pos rfl] at h
    cases congrArg Prod.snd h
  | false =>
  rw [hf, if_neg Bool.false_ne_true] at h
  obtain rfl := congrArg Prod.fst h
  obtain rfl := Except.ok.inj (congrArg Prod.snd h)
  refine ⟨⟨rfl, rfl, rfl, rfl, rfl, rfl, rfl, ?_⟩, ?_, rfl⟩
  · rw [List.mem_filterMap]
    refine ⟨⟨.roundEvaluated round.roundNo round.correctAnswer (m1.survivorsOf round).length
      (m1.losersOf round).length (m1.losersOf round), now 0, m1.eventSeqCounter + 1⟩, ?_, ?_⟩
    · exact List.mem_append_right _ List.mem_cons_self
    · simp [roundEvaluatedIn]
  · rw [eliminationsForRound_eq, ← hm1.2]
    rfl

/-- a call within the phase leaves the evaluation as it was -/
theorem Ended.interim {J : StringOps} {round : Round} {e : Evaluation} {starting : Option (List String)}
    {m : Machine} {r : Round} (h : Ended round e starting m r) (o : Op) (ho : o.isInterim = true) :
    Ended round e starting (m.step J o) r := by
  have hc := step_change J m o
  obtain ⟨es, hlog, -⟩ := change_appends hc
  have hround : (m.step J o).currentRound = some r := by
    have hopen : ∀ x, m.currentRound = some x → x.status = .active → False := by
      intro x hx hactive
      obtain rfl := Option.some.inj (h.current.symm.trans hx)
      rw [h.closed] at hactive
      cases hactive
    generalize m.step J o = m' at hc
    cases hc with
    | answer x _ _ _ _ _ _ hx hactive => exact (hopen x hx hactive).elim
    | attach x _ hx hactive => exact (hopen x hx hactive).elim
    | play x _ _ hx _ hactive => exact (hopen x hx hactive).elim
    | transition => cases ho
    | startRound => cases ho
    | evaluated => cases ho
    | evaluateStuck => cases ho
    | winner => cases ho
    | finish => cases ho
    | initRejected => cases ho
    | initVoting => cases ho
    | _ => exact h.current
  refine { h with survivors := ?_, current := hround, logged := ?_ }
  · rw [(change_samePhase hc ho).survivors]
    exact h.survivors
  · rw [hlog, List.filterMap_append]
    exact List.mem_append_left _ h.logged

theorem Ended.run {J : StringOps} {round : Round} {e : Evaluation} {starting : Option (List String)} {m : Machine}
    {r : Round} (h : Ended round e starting m r) (calls : List Op) (hcalls : ∀ o ∈ calls, o.isInterim = true) :
    Ended round e starting (Lib.run (Machine.step J) m calls) r :=
  run_inv (Machine.step J) (fun _ o => o.isInterim = true) (fun m => Ended round e starting m r)
    (fun _ o ho hm => hm.interim o ho) m calls ((along_const _ _ _ _).2 hcalls) h

/-- a decode takes the answer key, and starting players that repeat a player -/
theorem Ended.decoded {J : StringOps} {round : Round} {e : Evaluation} {starting : Option (List String)}
    {m m' : Machine} {r : Round} (h : Ended round e starting m r)
    (hd : Machine.deserialize J (some m.serialize) = .ok m') :
    ∃ r', r'.correctAnswer = none ∧ Ended round e (starting.filter fun l => decide l.Nodup) m' r' := by
  obtain ⟨hsurvivors, hlog, hround⟩ := deserialize_kept hd
  obtain ⟨startedAt, endsAt, hr'⟩ := hround r h.current
  refine ⟨_, ?_, hsurvivors.trans h.survivors, hr', h.closed, h.roundNo, h.question, h.answers, ?_, ?_⟩
  · rfl
  · rw [← h.starting]
  · rw [hlog]
    exact h.logged

/-- **Recovery finds what the evaluation found**, in the log or in the answers. -/
theorem recoverRoundEnd_kept {lookup : String → Option String} {round : Round} {e : Evaluation}
    {starting : Option (List String)} {m : Machine} {r : Round} {key : String} (h : Ended round e starting m r)
    (hr : r.correctAnswer = none) (hlookup : lookup round.question.id = some key) (hkey : key ≠ "")
    (he : ∀ l, starting = some l → e.eliminatedIds = eliminationsForRound l round.answers) :
    recoverRoundEnd lookup m r =
      ⟨e.survivingIds, if starting = none then [] else e.eliminatedIds, key⟩ := by
  have hfound : (lookup r.question.id).getD "" = key := by
    rw [h.question, hlookup]
    rfl
  simp only [recoverRoundEnd, hr, Option.getD_none, if_true, hfound, getRecoveryStartingPlayers, h.starting,
    h.survivors, h.roundNo, h.answers, hkey, if_false]
  cases hlog : getRecoveryEliminatedIdsFromEventLog
      (m.eventLog.filterMap fun x => roundEvaluatedIn round.roundNo x.event) r starting key with
  | some ids =>
    -- the one event of the round is that of the evaluation
    obtain ⟨hone, hstarting⟩ := eliminated_from_log hlog
    have hlogged := h.logged
    rw [hone, List.mem_singleton] at hlogged
    rw [if_neg hstarting, hlogged]
  | none =>
    cases hstarting : starting with
    | none => rfl
    | some l => simp [he l hstarting]

/-! ## Recovery after a decode -/

theorem recover_decoded {J : StringOps} {lookup : String → Option String} {m m' : Machine} {now : Clock}
    {round : Round} {e : Evaluation} {key : String} {calls : List Op} (hr : m.currentRound = some round)
    (hkey : round.correctAnswer = some key) (hne : key ≠ "") (hlookup : lookup round.question.id = some key)
    (he : (activeRoundEnd m now).2 = .ok e) (hcalls : ∀ o ∈ calls, o.isInterim = true)
    (hd : Machine.deserialize J (some (Lib.run (Machine.step J) (activeRoundEnd m now).1 calls).serialize) = .ok m') :
    e.correctAnswer = some key ∧ ∃ r', m'.currentRound = some r' ∧ recoverRoundEnd lookup m' r' =
      ⟨e.survivingIds, if (round.startingPlayers.filter fun l => decide l.Nodup) = none then [] else e.eliminatedIds,
        key⟩ := by
  obtain ⟨hended, hids, hanswer⟩ := activeRoundEnd_ended hr (Prod.ext rfl he)
  obtain ⟨r', hr', hdecoded⟩ := (hended.run calls hcalls).decoded hd
  refine ⟨hanswer.trans hkey, r', hdecoded.current, ?_⟩
  refine recoverRoundEnd_kept hdecoded hr' hlookup hne fun l hl => ?_
  obtain ⟨hl, -⟩ := Option.filter_eq_some_iff.1 hl
  rw [hids, hl]
  rfl

/-- **Recovered round end.** The round of the loop is evaluated and stored at any later point of the phase; with the
answer key looked up, recovery from the blob returns what the evaluation returned, but eliminates nobody if the round
was decoded without its starting players. -/
theorem recovered_round_end (J : StringOps) (lookup : String → Option String) (s : Runner) (m' : Machine)
    (round : Round) (e : Evaluation) (key : String) (calls : List Op) (hr : s.machine.currentRound = some round)
    (hkey : round.correctAnswer = some key) (hne : key ≠ "") (hlookup : lookup round.question.id = some key)
    (he : (activeRoundEnd s.machine s.now).2 = .ok e) (hcalls : ∀ o ∈ calls, o.isInterim = true)
    (hd : Machine.deserialize J (some (Lib.run (Machine.step J) s.handleActiveRoundEnd.machine calls).serialize) =
      .ok m') :
    e.correctAnswer = some key ∧ ∃ r', m'.currentRound = some r' ∧ recoverRoundEnd lookup m' r' =
      ⟨e.survivingIds, if (round.startingPlayers.filter fun l => decide l.Nodup) = none then [] else e.eliminatedIds,
        key⟩ := by
  rw [handleActiveRoundEnd_machine] at hd
  exact recover_decoded hr hkey hne hlookup he hcalls hd

/-- the first round of the duel, alice right and bob silent, on any key server that knows the question -/
theorem recovered_round_end_duel :
    ∃ m' r', Machine.deserialize StringOps.ascii
        (some (run (step StringOps.ascii) duel aliceAnswered).handleActiveRoundEnd.machine.serialize) = .ok m' ∧
      m'.currentRound = some r' ∧ recoverRoundEnd (fun _ => some "4") m' r' = ⟨["alice"], ["bob"], "4"⟩ := by
  have hfacts : ((run (step StringOps.ascii) duel aliceAnswered).machine.currentRound.map fun r =>
        (r.correctAnswer, r.startingPlayers)) = some (some "4", some ["alice", "bob"]) ∧
      (activeRoundEnd (run (step StringOps.ascii) duel aliceAnswered).machine
        (run (step StringOps.ascii) duel aliceAnswered).now).2 = .ok ⟨["alice"], ["bob"], some "4"⟩ ∧
      (Machine.deserialize StringOps.ascii
        (some (run (step StringOps.ascii) duel aliceAnswered).handleActiveRoundEnd.machine.serialize)).toOption.isSome =
        true := by
    decide +kernel
  generalize run (step StringOps.ascii) duel aliceAnswered = s at hfacts
  obtain ⟨hround, he, hdecodes⟩ := hfacts
  obtain ⟨r, hr, hfields⟩ := Option.map_eq_some_iff.1 hround
  obtain ⟨hkey, hstarting⟩ := Prod.mk.inj hfields
  cases hd : Machine.deserialize StringOps.ascii (some s.handleActiveRoundEnd.machine.serialize) with
  | error e =>
    rw [hd] at hdecodes
    cases hdecodes
  | ok m' =>
    obtain ⟨-, r', hr', hrecovered⟩ := recovered_round_end StringOps.ascii (fun _ => some "4") s m' r
      ⟨["alice"], ["bob"], some "4"⟩ "4" [] hr hkey (by decide) rfl he (by simp) hd
    refine ⟨m', r', rfl, hr', hrecovered.trans ?_⟩
    rw [hstarting]
    rfl

/-- **Every round this version plays has its starting players**, so recovery returns exactly what the evaluation did. -/
theorem run_recovers (J : StringOps) (lookup : String → Option String) (m m' : Machine) (clock : Time)
    (hm : Written J m) (ops : List RunnerOp) (round : Round) (e : Evaluation) (key : String) (calls : List Op)
    (hr : (run (step J) (adopt m clock) ops).machine.currentRound = some round) (ha : round.status = .active)
    (hkey : round.correctAnswer = some key) (hne : key ≠ "") (hlookup : lookup round.question.id = some key)
    (he : (activeRoundEnd (run (step J) (adopt m clock) ops).machine (run (step J) (adopt m clock) ops).now).2 = .ok e)
    (hcalls : ∀ o ∈ calls, o.isInterim = true)
    (hd : Machine.deserialize J (some (Lib.run (Machine.step J)
      (run (step J) (adopt m clock) ops).handleActiveRoundEnd.machine calls).serialize) = .ok m') :
    ∃ r', m'.currentRound = some r' ∧ recoverRoundEnd lookup m' r' = ⟨e.survivingIds, e.eliminatedIds, key⟩ := by
  have hrun := (run_entered J (adopt_entered hm.entrantInv clock) ops).machine
  have hstarting := hrun.snapshot.round round hr ha
  have hnodup := hrun.wire.starting round hr _ hstarting
  rw [handleActiveRoundEnd_machine] at hd
  obtain ⟨-, r', hr', hrecovered⟩ := recover_decoded hr hkey hne hlookup he hcalls hd
  refine ⟨r', hr', hrecovered.trans ?_⟩
  rw [hstarting]
  simp [Option.filter, hnodup]

/-! ## A blob without starting players -/

/-- a version 1 blob of a round in play, from before rounds had a snapshot: alice is right, bob has not answered -/
def unsnapshotted : WireMatch where
  stateVersion := .number 1
  state := some
    { id := "m1"
      roomId := "r1"
      status := .roundActive
      currentRoundNo := 1
      totalRounds := 1
      players := some [("alice", freshPlayer "alice"), ("bob", freshPlayer "bob")]
      survivingPlayerIds := ["alice", "bob"]
      eliminatedPlayerIds := []
      winnerId := none
      startedAt := .number 0
      endedAt := none
      phaseEndsAt := .undefined
      roundResultStartedAt := .undefined
      candidateTopics := none
      topicVotes := none
      bannedTopics := none
      activeTopics := none }
  currentRound := some
    { matchId := "m1"
      roundNo := some 1
      question := some ⟨.text "q1", .text "2 + 2?", some ["3", "4", "5", "6"], none⟩
      startedAt := .number 5000
      endsAt := .number 20000
      status := some .active
      correctAnswer := .undefined
      startingPlayers := .invalid
      answers := some [some ("alice", ⟨.text "alice", .text "b", some true, .number 1000, .number 6000, .undefined⟩)] }
  eventLog := some []

/-- **A round without starting players recovers nobody's elimination.** The node takes the blob over, the question is
found, bob is eliminated and the evaluation is stored; recovery from that blob eliminates nobody. -/
theorem unsnapshotted_eliminates_nobody :
    ∃ m ∈ (Machine.deserialize StringOps.ascii (some unsnapshotted)).toOption,
      (∃ r ∈ (adopt (Cluster.rehydrated m (some "4")) 20000).machine.currentRound, r.status = .active ∧
        r.correctAnswer = some "4") ∧
      (activeRoundEnd (adopt (Cluster.rehydrated m (some "4")) 20000).machine fun _ => 20000).2 =
        .ok ⟨["alice"], ["bob"], some "4"⟩ ∧
      ∃ m' ∈ (Machine.deserialize StringOps.ascii
          (some (adopt (Cluster.rehydrated m (some "4")) 20000).handleActiveRoundEnd.machine.serialize)).toOption,
        m'.state.status = .roundEvaluating ∧
        ∃ r' ∈ m'.currentRound, recoverRoundEnd (fun _ => some "4") m' r' = ⟨["alice"], [], "4"⟩ := by
  decide +kernel

end Runner

end Arena.Api
