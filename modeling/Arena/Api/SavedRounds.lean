/-
The rounds of a match in the database (`endRound`, `saveRoundAndAnswers`).

`endRound` evaluates in ROUND_EVALUATING, saves the evaluated round, and goes on to ROUND_RESULT when the save has
returned. The machine it saves from may be the owner's, that of a new owner, or the one of an owner that has been replaced
meanwhile: `copies` lists all that the match has been. Saves of a round race, fail and are repeated.

- `act_complete`: a closed round has its row, but for the current one;
- `saved_rounds_are_logged`: over every interleaving, the table is the history that the event log tells.
-/
import Arena.Lib.InsertOnce
import Arena.GameCore.RoundHistory

namespace Arena.Api

open Arena.Lib Arena.Shared Arena.GameCore Arena.GameCore.Machine

/-! ## Model -/

/-- a row of `answers` -/
structure SavedAnswer where
  userId : String
  answer : String
  isCorrect : Bool
  responseTimeMs : Time
deriving DecidableEq, Repr

/-- a row of `match_rounds` with its answers -/
structure SavedRound where
  questionId : String
  answers : List SavedAnswer
deriving DecidableEq, Repr

def answersToSave (answers : JsMap String AnswerState) : List SavedAnswer :=
  answers.entries.map fun e => ⟨e.1, e.2.answer, e.2.isCorrect, e.2.responseTimeMs⟩

/-- what `endRound` hands to `saveRoundAndAnswers` -/
def roundToSave (m : Machine) : Option (ℕ × SavedRound) :=
  match m.state.status, m.currentRound with
  | .roundEvaluating, some round =>
    if round.status = .completed then
      some (m.state.currentRoundNo, ⟨round.question.id, answersToSave round.answers⟩)
    else none
  | _, _ => none

/-- `@@unique([roundId, userId])` -/
def hasUniqueUsers (round : SavedRound) : Bool := decide (round.answers.map SavedAnswer.userId).Nodup

structure RoundStore where
  machine : Machine
  copies : List Machine
  table : InsertOnce.Table ℕ SavedRound

inductive RoundStoreOp where
  | act (a : Action)
  /-- a call of `endRound` reaches its save -/
  | save (i : ℕ)
  /-- a statement of a save -/
  | statement (i : ℕ) (reply : InsertOnce.Reply)

namespace RoundStore

def init (m : Machine) : RoundStore := ⟨m, [m], InsertOnce.empty⟩

def saveRoundAndAnswers (s : RoundStore) (roundNo : ℕ) (round : SavedRound) : RoundStore :=
  { s with table := InsertOnce.step hasUniqueUsers s.table (.call roundNo round) }

def step (J : StringOps) (s : RoundStore) : RoundStoreOp → RoundStore
  | .act a => { s with machine := s.machine.act J a, copies := s.copies ++ [s.machine.act J a] }
  | .save i =>
    match s.copies[i]?.bind roundToSave with
    | some (roundNo, round) => s.saveRoundAndAnswers roundNo round
    | none => s
  | .statement i reply => { s with table := InsertOnce.step hasUniqueUsers s.table (.next i reply) }

def isSaved (s : RoundStore) (roundNo : ℕ) : Bool :=
  s.table.tasks.any fun t => t.key = roundNo && match t.stage with
    | .returned _ => true
    | _ => false

/-- the order of `endRound`: evaluate in ROUND_EVALUATING, and leave it for ROUND_RESULT when the round is saved -/
def EndRoundOrder (s : RoundStore) : RoundStoreOp → Prop
  | .act (.call (.evaluateRound now)) =>
    EvalOnce s.machine (.call (.evaluateRound now)) ∧ s.machine.state.status = .roundEvaluating
  | .act (.call (.transition .roundResult _)) => s.isSaved s.machine.state.currentRoundNo = true
  | _ => True

instance (s : RoundStore) (o : RoundStoreOp) : Decidable (EndRoundOrder s o) := by
  unfold EndRoundOrder
  split
  · exact decidable_of_iff (evalOnce s.machine _ = true ∧ s.machine.state.status = .roundEvaluating)
      (and_congr_left' (evalOnce_iff _ _))
  all_goals infer_instance

/-! ## Statements -/

/-- a row, and what the log tells of its round -/
def IsRowOf (row : ℕ × SavedRound) (r : LoggedRound) : Prop :=
  row.1 = r.roundNo ∧ row.2.questionId = r.questionId ∧
    row.2.answers.map (fun a => (a.userId, (⟨a.isCorrect, a.responseTimeMs⟩ : LoggedAnswer))) = r.answers.entries

/-- the closed rounds of the log -/
def history (s : RoundStore) : List LoggedRound := (RoundHistory.replay s.machine.eventLog).closed

/-- a closed round may miss its row while it is being ended, and when the match is finished instead -/
def Pending (s : RoundStore) (r : LoggedRound) : Prop :=
  r.roundNo = s.machine.state.currentRoundNo ∧
    (s.machine.state.status = .roundEvaluating ∨ s.machine.state.status = .finished)

structure SavedInv (s : RoundStore) : Prop where
  wire : WireInv s.machine
  recorded : Recorded s.machine
  table : InsertOnce.InsertInv hasUniqueUsers s.table
  copies : ∀ m ∈ s.copies, ∀ row, roundToSave m = some row → ∃ r ∈ s.history, IsRowOf row r
  tasks : ∀ t ∈ s.table.tasks, hasUniqueUsers t.value = true ∧ ∃ r ∈ s.history, IsRowOf (t.key, t.value) r
  complete : ∀ r ∈ s.history, (∃ row ∈ s.table.rows, IsRowOf row r) ∨ s.Pending r

/-! ## What is saved -/

theorem roundToSave_some {m : Machine} {row : ℕ × SavedRound} (h : roundToSave m = some row) :
    ∃ round, m.currentRound = some round ∧ round.status = .completed ∧
      row = (m.state.currentRoundNo, ⟨round.question.id, answersToSave round.answers⟩) := by
  unfold roundToSave at h
  split at h
  · rename_i round _ hr
    split_ifs at h with hs
    exact ⟨round, hr, hs, (Option.some.inj h).symm⟩
  · cases h

/-- the save of an evaluated round is what the log tells of it -/
theorem roundToSave_logged {m : Machine} (h : Recorded m) {row : ℕ × SavedRound} (hs : roundToSave m = some row) :
    ∃ r ∈ (RoundHistory.replay m.eventLog).closed, IsRowOf row r := by
  obtain ⟨round, hr, hcompleted, rfl⟩ := roundToSave_some hs
  refine ⟨loggedRound round, h.done round hr hcompleted, (h.number round hr).symm, rfl, ?_⟩
  simp only [answersToSave, List.map_map]
  rfl

/-- the answers of a round are a map -/
theorem roundToSave_unique {m : Machine} {row : ℕ × SavedRound} (hs : roundToSave m = some row) :
    hasUniqueUsers row.2 = true := by
  obtain ⟨round, -, -, rfl⟩ := roundToSave_some hs
  have hids : (answersToSave round.answers).map SavedAnswer.userId = round.answers.keys := by
    simp only [answersToSave, List.map_map]
    rfl
  exact decide_eq_true (hids ▸ round.answers.keys_nodup)

/-- two closed rounds of one number are one -/
theorem history_inj {s : RoundStore} (h : SavedInv s) {r r' : LoggedRound} (hr : r ∈ s.history) (hr' : r' ∈ s.history)
    (hn : r.roundNo = r'.roundNo) : r = r' := by
  have hnodup : (s.history.map LoggedRound.roundNo).Nodup := h.recorded.ascending.imp Nat.ne_of_lt
  exact List.inj_on_of_nodup_map hnodup hr hr' hn

/-! ## Steps -/

variable {J : StringOps} {s : RoundStore}

theorem savedInv_init (matchId roomId : String) (players : List PlayerInfo) (hd : (players.map PlayerInfo.id).Nodup) :
    SavedInv (init (Machine.create matchId roomId players)) where
  wire := wireInv_create matchId roomId players hd
  recorded := recorded_create matchId roomId players
  table := InsertOnce.insertInv_empty hasUniqueUsers
  copies := by
    intro m hm row hrow
    rw [List.mem_singleton.1 hm] at hrow
    cases hrow
  tasks t ht := by simp [init, InsertOnce.empty] at ht
  complete r hr := by cases hr

/-- a call in ROUND_EVALUATING or FINISHED stays there, in its round, or goes on to ROUND_RESULT -/
theorem change_pending {m m' : Machine} {o : Op} (hc : Change J m o m')
    (hs : m.state.status = .roundEvaluating ∨ m.state.status = .finished) (ho : ∀ now, o ≠ .transition .roundResult now) :
    m'.state.currentRoundNo = m.state.currentRoundNo ∧
      (m'.state.status = .roundEvaluating ∨ m'.state.status = .finished) := by
  have hno : ∀ q d now, o = .startRound q d now → m' = m := by
    rintro q d now rfl
    cases hc with
    | same => rfl
    | startRound _ _ _ hactive =>
      rw [hactive] at hs
      exact absurd hs (by decide)
  have hn : m'.state.currentRoundNo = m.state.currentRoundNo := by
    by_cases hstart : ∃ q d now, o = .startRound q d now
    · obtain ⟨q, d, now, he⟩ := hstart
      rw [hno q d now he]
    · exact change_roundNo hc fun q d now he => hstart ⟨q, d, now, he⟩
  refine ⟨hn, ?_⟩
  have keep : m'.state.status = m.state.status → m'.state.status = .roundEvaluating ∨ m'.state.status = .finished := by
    intro he
    rwa [he]
  cases hc with
  | transition target now hv =>
    have htarget : target = .finished := by
      rcases hs with hs | hs
      · rw [hs] at hv
        rcases List.mem_pair.1 hv with rfl | rfl
        · exact absurd rfl (ho now)
        · rfl
      · rw [hs] at hv
        cases hv
    subst htarget
    exact .inr rfl
  | startRound q d now hactive => rw [hno q d now rfl]; exact hs
  | answer round p a ts sid retry now _ _ _ _ _ =>
    exact keep (congrArg MatchState.status (consumeChance_frame m round p retry (now 0)).1)
  | winner now => exact keep (congrArg MatchState.status (determineWinner_frame m now).1)
  | finish now =>
    have hst : (m.determineWinner now).1.state.status = m.state.status := by rw [(determineWinner_frame m now).1]
    exact keep hst
  | initVoting c d now hcreated =>
    rw [hcreated] at hs
    exact absurd hs (by decide)
  | play round p now _ _ _ => exact keep (congrArg MatchState.status (applyPlay_frame _ round p _ now).1)
  | _ => exact keep rfl

/-- a saved round has its row -/
theorem isSaved_row (h : SavedInv s) {roundNo : ℕ} (hs : s.isSaved roundNo = true) :
    ∃ row ∈ s.table.rows, row.1 = roundNo ∧ ∃ r ∈ s.history, IsRowOf row r := by
  obtain ⟨t, ht, htest⟩ := List.any_eq_true.1 hs
  rw [Bool.and_eq_true, decide_eq_true_eq] at htest
  obtain ⟨hkey, hstage⟩ := htest
  split at hstage
  · rename_i value hst
    have hrow := h.table.returned t ht value hst
    obtain ⟨u, hu, hukey, huvalue⟩ := h.table.source _ hrow
    obtain ⟨r, hr, his⟩ := (h.tasks u hu).2
    rw [hukey, huvalue] at his
    exact ⟨_, hrow, hkey, r, hr, his⟩
  · cases hstage

theorem EndRoundOrder.evalOnce {a : Action} (hg : s.EndRoundOrder (.act a)) : EvalOnce s.machine a := by
  cases a with
  | failover => trivial
  | call o =>
    cases o with
    | evaluateRound now => exact hg.1
    | _ => trivial

/-- the rows and the missing ones after a step of the match -/
theorem act_complete (h : SavedInv s) {a : Action} (hg : s.EndRoundOrder (.act a)) :
    ∀ r ∈ (s.step J (.act a)).history, (∃ row ∈ s.table.rows, IsRowOf row r) ∨ (s.step J (.act a)).Pending r := by
  have hold : ∀ {m' : Machine}, s.machine.act J a = m' →
      (RoundHistory.replay m'.eventLog).closed = s.history →
      (∀ r ∈ s.history, s.Pending r → (∃ row ∈ s.table.rows, IsRowOf row r) ∨ (s.step J (.act a)).Pending r) →
      ∀ r ∈ (s.step J (.act a)).history,
        (∃ row ∈ s.table.rows, IsRowOf row r) ∨ (s.step J (.act a)).Pending r := by
    intro m' hm hclosed hpending r hr
    have hmem : r ∈ s.history := by
      rw [← hclosed, ← hm]
      exact hr
    rcases h.complete r hmem with hrow | hp
    · exact .inl hrow
    · exact hpending r hmem hp
  cases a with
  | failover =>
    refine hold rfl ?_ ?_
    · rw [act, failover_eventLog]
      rfl
    · intro r _ hp
      right
      have hstate : (s.machine.act J .failover).state = s.machine.state := by
        rcases failover_cases J s.machine h.wire with hf | hf
        · rw [act, hf]
          rfl
        · rw [act, hf]
      exact ⟨hp.1.trans (congrArg MatchState.currentRoundNo hstate).symm,
        hp.2.imp (fun he => (congrArg MatchState.status hstate).trans he)
          fun he => (congrArg MatchState.status hstate).trans he⟩
  | call o =>
    have hc := step_change J s.machine o
    by_cases heval : ∃ now, o = .evaluateRound now
    · -- the round that is closed is the current one, and its save is still to come
      obtain ⟨now, rfl⟩ := heval
      intro r hr
      have hpending : ∀ c : LoggedRound, c.roundNo = s.machine.state.currentRoundNo →
          (s.step J (.act (.call (.evaluateRound now)))).Pending c := by
        intro c hcn
        obtain ⟨hn, hs⟩ := change_pending hc (.inl hg.2) (by simp)
        exact ⟨hcn.trans hn.symm, hs⟩
      have hgrown : r ∈ s.history ∨ r.roundNo = s.machine.state.currentRoundNo := by
        have hclosed : r ∈ (RoundHistory.replay (s.machine.step J (.evaluateRound now)).eventLog).closed := hr
        generalize s.machine.step J (.evaluateRound now) = m' at hc hclosed
        cases hc with
        | same => exact .inl hclosed
        | evaluated round _ hround _ =>
          rw [settle_replay h.recorded hround now] at hclosed
          rcases List.mem_append.1 hclosed with hmem | hmem
          · exact .inl hmem
          · rw [List.mem_singleton.1 hmem]
            exact .inr (h.recorded.number round hround)
        | evaluateStuck round _ hround _ => exact .inl hclosed
      rcases hgrown with hmem | hn
      · rcases h.complete r hmem with hrow | hp
        · exact .inl hrow
        · exact .inr (hpending r hp.1)
      · exact .inr (hpending r hn)
    · have hclosed := change_closed hc fun now he => heval ⟨now, he⟩
      refine hold rfl hclosed ?_
      intro r hmem hp
      by_cases hresult : ∃ now, o = .transition .roundResult now
      · obtain ⟨now, rfl⟩ := hresult
        obtain ⟨row, hrow, hkey, r', hr', his⟩ := isSaved_row h hg
        have hsame : r' = r := history_inj h hr' hmem (his.1.symm.trans (hkey.trans hp.1.symm))
        exact .inl ⟨row, hrow, hsame ▸ his⟩
      · obtain ⟨hn, hs⟩ := change_pending hc hp.2 fun now he => hresult ⟨now, he⟩
        exact .inr ⟨hp.1.trans hn.symm, hs⟩

theorem act_savedInv (h : SavedInv s) {a : Action} (hg : s.EndRoundOrder (.act a)) : SavedInv (s.step J (.act a)) := by
  have hrecorded := act_recorded J s.machine a hg.evalOnce h.wire h.recorded
  have hgrow : ∀ r ∈ s.history, r ∈ (s.step J (.act a)).history := fun r hr => (act_closed J s.machine a).subset hr
  refine ⟨act_wireInv J s.machine a h.wire, hrecorded, h.table, ?_, ?_, act_complete h hg⟩
  · intro m hm row hrow
    rcases List.mem_append.1 hm with hm | hm
    · obtain ⟨r, hr, his⟩ := h.copies m hm row hrow
      exact ⟨r, hgrow r hr, his⟩
    · rw [List.mem_singleton.1 hm] at hrow
      exact roundToSave_logged hrecorded hrow
  · intro t ht
    obtain ⟨hu, r, hr, his⟩ := h.tasks t ht
    exact ⟨hu, r, hgrow r hr, his⟩

/-- a step of a save -/
theorem table_savedInv (h : SavedInv s) (o : InsertOnce.Op ℕ SavedRound)
    (hcall : ∀ key value, o = .call key value →
      hasUniqueUsers value = true ∧ ∃ r ∈ s.history, IsRowOf (key, value) r) :
    SavedInv { s with table := InsertOnce.step hasUniqueUsers s.table o } where
  wire := h.wire
  recorded := h.recorded
  table := InsertOnce.step_insertInv o h.table
  copies := h.copies
  tasks := by
    intro u hu
    rcases InsertOnce.step_source hu with ⟨t, ht, hkey, hvalue⟩ | ho
    · rw [← hkey, ← hvalue]
      exact h.tasks t ht
    · exact hcall _ _ ho
  complete := by
    intro r hr
    rcases h.complete r hr with ⟨row, hrow, his⟩ | hp
    · exact .inl ⟨row, (InsertOnce.step_rows s.table o).subset hrow, his⟩
    · exact .inr hp

theorem step_savedInv (J : StringOps) (s : RoundStore) (o : RoundStoreOp) (hg : s.EndRoundOrder o) (h : SavedInv s) :
    SavedInv (s.step J o) := by
  cases o with
  | act a => exact act_savedInv h hg
  | save i =>
    simp only [step]
    split
    · rename_i roundNo round hsave
      obtain ⟨m, hm, hrow⟩ := Option.bind_eq_some_iff.1 hsave
      refine table_savedInv h _ ?_
      rintro key value ⟨rfl, rfl⟩
      exact ⟨roundToSave_unique hrow, h.copies m (List.mem_of_getElem? hm) _ hrow⟩
    · exact h
  | statement i reply => exact table_savedInv h _ (by rintro key value ⟨⟩)

theorem step_table_rows (J : StringOps) (s : RoundStore) (o : RoundStoreOp) :
    s.table.rows <+: (s.step J o).table.rows := by
  cases o with
  | act a => exact List.prefix_refl _
  | save i =>
    simp only [step]
    split
    · exact InsertOnce.step_rows s.table _
    · exact List.prefix_refl _
  | statement i reply => exact InsertOnce.step_rows s.table _

/-- **The saved rounds are the logged ones.** Over every interleaving of the match, its failovers and any number of saves
from its present and past machines, whose statements may fail: a round has one row at most, which has the question and
the final answers that the event log tells of it; every closed round has its row, but for the current one while it is
being ended or when the match is finished instead; no row is deleted or replaced; and a save throws only when one of its
statements fails. -/
theorem saved_rounds_are_logged (J : StringOps) (matchId roomId : String) (players : List PlayerInfo)
    (ops : List RoundStoreOp) (hd : (players.map PlayerInfo.id).Nodup)
    (hg : Along (step J) EndRoundOrder (init (Machine.create matchId roomId players)) ops) :
    let s := run (step J) (init (Machine.create matchId roomId players)) ops
    (s.table.rows.map Prod.fst).Nodup ∧
      (∀ row ∈ s.table.rows, ∃ r ∈ s.history, IsRowOf row r) ∧
      (∀ r ∈ s.history, (∃ row ∈ s.table.rows, IsRowOf row r) ∨ s.Pending r) ∧
      (∀ more, s.table.rows <+: (run (step J) s more).table.rows) ∧
      ∀ i t, s.table.tasks[i]? = some t → t.stage ≠ .threw →
        ∃ t', (s.step J (.statement i .ok)).table.tasks[i]? = some t' ∧ t'.stage ≠ .threw := by
  intro s
  have h : SavedInv s := run_inv (step J) EndRoundOrder SavedInv (step_savedInv J) _ ops hg
    (savedInv_init matchId roomId players hd)
  refine ⟨h.table.unique, ?_, h.complete, ?_, ?_⟩
  · intro row hrow
    obtain ⟨t, ht, hkey, hvalue⟩ := h.table.source row hrow
    obtain ⟨r, hr, his⟩ := (h.tasks t ht).2
    rw [hkey, hvalue] at his
    exact ⟨r, hr, his⟩
  · intro more
    exact run_inv (step J) (fun _ _ => True) (fun s' => s.table.rows <+: s'.table.rows)
      (fun s' o _ hs' => hs'.trans (step_table_rows J s' o)) s more (along_true _ _ _) (List.prefix_refl _)
  · intro i t ht hs
    have hnext := InsertOnce.next_ok h.table ht (h.tasks t (List.mem_of_getElem? ht)).1 hs
    simpa only [step, InsertOnce.step, ht] using hnext

/-- a round that is saved at the third attempt: the first fails, and the second is not told of its commit -/
def thirdAttempt : List RoundStoreOp :=
  [.act (.call (.transition .countdown fun _ => 0)), .act (.call (.transition .roundActive fun _ => 0)),
    .act (.call (.startRound ⟨"q1", "2 + 2?", ["3", "4", "5", "6"], "4", none⟩ none fun _ => 0)),
    .act (.call (.submitAnswer "alice" "b" 100 none fun _ => 100)),
    .act (.call (.transition .roundEvaluating fun _ => 15000)), .act (.call (.evaluateRound fun _ => 15000)),
    .save 6, .statement 0 .ok, .statement 0 .ok, .statement 0 .fails, .act .failover,
    .save 7, .statement 1 .ok, .statement 1 .ok, .statement 1 .ok, .statement 1 .lost,
    .save 6, .statement 2 .ok, .act (.call (.transition .roundResult fun _ => 16000))]

theorem saved_rounds_are_logged_third_attempt :
    let s := run (step StringOps.ascii) (init (Machine.create "m1" "r1" [freshPlayer "alice", freshPlayer "bob"]))
      thirdAttempt
    s.table.rows = [(1, ⟨"q1", [⟨"alice", "b", true, 100⟩]⟩)] ∧ s.machine.state.status = .roundResult ∧
      ∀ r ∈ s.history, ∃ row ∈ s.table.rows, IsRowOf row r := by
  intro s
  have hg : Along (step StringOps.ascii) EndRoundOrder
      (init (Machine.create "m1" "r1" [freshPlayer "alice", freshPlayer "bob"])) thirdAttempt := by
    decide +kernel
  have hall := saved_rounds_are_logged StringOps.ascii "m1" "r1" [freshPlayer "alice", freshPlayer "bob"]
    thirdAttempt (by decide) hg
  have hstatus : s.machine.state.status = .roundResult := by decide +kernel
  refine ⟨by decide +kernel, hstatus, ?_⟩
  intro r hr
  rcases hall.2.2.1 r hr with hrow | ⟨-, hp | hp⟩
  · exact hrow
  · exact absurd (hp.symm.trans hstatus) (by decide)
  · exact absurd (hp.symm.trans hstatus) (by decide)

end RoundStore

end Arena.Api
