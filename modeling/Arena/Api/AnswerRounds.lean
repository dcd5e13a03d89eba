/-
Answers and the rounds they were given for.

SUBMIT_ANSWER carries the number of the round its sender saw. The handler leaves it out of the envelope, so the owner
applies the answer to whatever round is open when the entry is delivered; the callback of a bot answer asks for an open
round and not for the one it was armed in.

- `InRound`: every ANSWER_SUBMITTED that an answer logged stands after the ROUND_STARTED of the round it was given for,
  with no other ROUND_STARTED in between;
- `OnTime`: the condition on the steps. When an answer reaches the machine, the round that is open to its player is the
  one it was given for;
- `answers_in_round`: in every run whose steps meet it, every answer is in its round in every stored blob and every cached
  machine;
- `late_answer_applied`: an answer given in round 1 is delivered in round 2, and counts there.
-/
import Arena.Api.CommandSteps

namespace Arena.Api

open Arena.Lib Arena.Shared Arena.GameCore

/-! ## Statement -/

def startedRound (e : EventLogEntry) : Option ℕ :=
  match e.event with
  | .roundStarted roundNo .. => some roundNo
  | _ => none

/-- the round a log is in: the last ROUND_STARTED -/
def lastStarted (log : List EventLogEntry) : Option ℕ := (log.filterMap startedRound).getLast?

def isAnswerSubmitted (e : EventLogEntry) : Bool :=
  match e.event with
  | .answerSubmitted .. => true
  | _ => false

/-- the round an answer was given for -/
def Cause.givenFor : Cause → Option ℕ
  | .command e =>
    match e.envelope.body with
    | .submitAnswer .. => e.roundNo
    | _ => none
  | .botAnswer sim => some sim.roundNo
  | _ => none

/-- every answer of a copy is in the round it was given for -/
def InRound (c : Copy) : Prop :=
  ∀ x ∈ c.trace, ∀ r ∈ x.cause.givenFor, ∀ i < x.logged.length, ∀ e ∈ x.logged[i]?, isAnswerSubmitted e = true →
    c.machine.eventLog[x.start + i]? = some e ∧ lastStarted (c.machine.eventLog.take (x.start + i)) = some r

/-- the number of the round that takes an answer of this player -/
def openRound (m : Machine) (userId : String) (t : Time) : Option ℕ :=
  match m.currentRound with
  | none => none
  | some r =>
    if r.status = .active ∧ t ≤ r.endsAt ∧ (m.state.players.get userId).map PlayerInfo.status = some .active ∧
        (r.answers.get userId = none ∨ m.cards.secondChancePlayers.has userId = true) then some r.roundNo
    else none

namespace Commands

/-- the condition on a step -/
def OnTime (s : Commands) : CommandOp → Prop
  | .look n now => ∀ d ∈ (s.nodes n).delivery, ∀ c ∈ (s.nodes n).machine, d.stage = .fetching →
      ∀ g ∈ (Cause.command d.entry).givenFor, ∀ r ∈ openRound c.machine d.entry.envelope.userId (now 0), r = g
  | .botAnswer n sim now => ∀ c ∈ (s.nodes n).machine, ∀ r ∈ openRound c.machine sim.userId (now 0), r = sim.roundNo
  | _ => True

end Commands

/-! ## The round of a log -/

theorem lastStarted_append {log es : List EventLogEntry} (h : ∀ e ∈ es, startedRound e = none) :
    lastStarted (log ++ es) = lastStarted log := by
  have hes : es.filterMap startedRound = [] := List.filterMap_eq_nil_iff.2 h
  rw [lastStarted, List.filterMap_append, hes, List.append_nil]
  rfl

theorem lastStarted_concat {log : List EventLogEntry} {e : EventLogEntry} {r : ℕ} (h : startedRound e = some r) :
    lastStarted (log ++ [e]) = some r := by
  simp [lastStarted, List.filterMap_append, h]

theorem startedRound_of_quiet {e : EventLogEntry} (h : e.event.isRoundEvent = false) : startedRound e = none := by
  unfold startedRound
  split
  · rename_i hx
    rw [hx] at h
    cases h
  · rfl

theorem answerEntries_started (m : Machine) (round : Round) (a : AnswerState) (retry : Bool) (now : Clock) :
    ∀ e ∈ m.answerEntries round a retry now, startedRound e = none := by
  intro e he
  unfold Machine.answerEntries at he
  rcases List.mem_append.1 he with he | he
  · split_ifs at he
    · rw [List.mem_singleton.1 he]
      rfl
    · cases he
  · rw [List.mem_singleton.1 he]
    rfl

/-- the current round is the one the log is in -/
def StartedInv (m : Machine) : Prop := ∀ r, m.currentRound = some r → lastStarted m.eventLog = some r.roundNo

namespace StartedInv

variable {J : StringOps} {m m' : Machine}

theorem create (matchId roomId : String) (players : List PlayerInfo) :
    StartedInv (Machine.create matchId roomId players) := by
  intro r hr
  cases hr

/-- the round keeps its number and nothing is started -/
theorem of_append (h : StartedInv m) {es : List EventLogEntry} (hl : m'.eventLog = m.eventLog ++ es)
    (hes : ∀ e ∈ es, startedRound e = none)
    (hr : ∀ r', m'.currentRound = some r' → ∃ r, m.currentRound = some r ∧ r'.roundNo = r.roundNo) : StartedInv m' := by
  intro r' hr'
  obtain ⟨r, hm, hno⟩ := hr r' hr'
  rw [hl, lastStarted_append hes, hno]
  exact h r hm

theorem change {o : Op} (h : StartedInv m) (hc : Machine.Change J m o m') : StartedInv m' := by
  by_cases hq : o.isQuiet = true
  · obtain ⟨es, hes, hquiet⟩ := Machine.change_quiet hc hq
    refine h.of_append hes (fun e he => startedRound_of_quiet (hquiet e he)) ?_
    intro r' hr'
    obtain ⟨r, hr, key, rfl⟩ := Machine.change_quiet_round hc hq r' hr'
    exact ⟨r, hr, rfl⟩
  · cases hc with
    | same => exact h
    | startRound q d now hs =>
      rintro r ⟨rfl⟩
      exact lastStarted_concat rfl
    | answer round p a ts sid retry now hr =>
      refine h.of_append (Machine.recordAnswer_eventLog m round _ retry now)
        (answerEntries_started m round _ retry now) ?_
      rintro r' ⟨rfl⟩
      exact ⟨round, hr, rfl⟩
    | evaluated round now hr _ =>
      refine h.of_append rfl (fun e he => ?_) ?_
      · rw [List.mem_singleton.1 he]
        rfl
      · rintro r' ⟨rfl⟩
        exact ⟨round, hr, rfl⟩
    | evaluateStuck round now hr _ =>
      refine h.of_append (List.append_nil _).symm (fun e he => nomatch he) ?_
      rintro r' ⟨rfl⟩
      exact ⟨round, hr, rfl⟩
    | play round p now hr _ _ =>
      refine h.of_append (Machine.play_eventLog m round p _ now) ?_ ?_
      · intro e he
        unfold Machine.playEntries at he
        rcases List.mem_cons.1 he with rfl | he
        · rfl
        · split_ifs at he
          · rw [List.mem_singleton.1 he]
            rfl
          · cases he
      · intro r' hr'
        rw [(Machine.applyPlay_frame _ round p _ now).2] at hr'
        exact ⟨r', hr', rfl⟩
    | _ => exact absurd rfl hq

theorem recovered (h : StartedInv m) : StartedInv m.recovered := by
  intro r' hr'
  obtain ⟨r, hr, rfl⟩ := Option.map_eq_some_iff.1 hr'
  exact h r hr

end StartedInv

/-! ## One answer -/

/-- the guards of an answer that is recorded -/
theorem openRound_of_answer {m : Machine} {round : Round} {p : String} {ts : Time} {retry : Bool}
    (hr : m.currentRound = some round) (hactive : round.status = .active) (hts : ts ≤ round.endsAt)
    (hp : (m.state.players.get p).map PlayerInfo.status = some .active)
    (hretry : (retry = true ∧ (round.answers.get p).isSome ∧ m.cards.secondChancePlayers.has p) ∨
      (retry = false ∧ round.answers.get p = none)) : openRound m p ts = some round.roundNo := by
  have hfree : round.answers.get p = none ∨ m.cards.secondChancePlayers.has p = true :=
    hretry.elim (fun hx => .inr hx.2.2) fun hx => .inl hx.2
  simp [openRound, hr, hactive, hts, hp, hfree]

/-- what an answer logs is in the round that was open to the player -/
theorem answer_in_open_round {J : StringOps} {m m' : Machine} {p text : String} {ts : Time} {sid : Option String}
    {now : Clock} (hc : Machine.Change J m (.submitAnswer p text ts sid now) m') (h : StartedInv m) {g : ℕ}
    (hg : ∀ r ∈ openRound m p ts, r = g) {i : ℕ} (hi : i < (m'.eventLog.drop m.eventLog.length).length) :
    lastStarted (m'.eventLog.take (m.eventLog.length + i)) = some g := by
  cases hc with
  | same => simp at hi
  | answer round p text ts sid retry now hr hactive hts hp hretry =>
    have hopen : openRound m p ts = some round.roundNo := openRound_of_answer hr hactive hts hp hretry
    rw [Machine.recordAnswer_eventLog, List.take_length_add_append,
      lastStarted_append fun e he => answerEntries_started m round _ retry now e (List.mem_of_mem_take he),
      h round hr, hg _ hopen]

/-- the answer a copy records is in its round, and the others stay in theirs -/
theorem InRound.write {c : Copy} (h : InRound c) {cause : Cause} {m : Machine}
    (hm : c.machine.eventLog <+: m.eventLog)
    (hnew : ∀ g ∈ cause.givenFor, ∀ i < (m.eventLog.drop c.machine.eventLog.length).length,
      lastStarted (m.eventLog.take (c.machine.eventLog.length + i)) = some g) : InRound (c.write cause m) := by
  by_cases hne : m = c.machine
  · rw [hne, Copy.write_same]
    exact h
  · rw [Copy.write_of_ne hne]
    intro x hx g hg i hi e he hans
    rcases List.mem_append.1 hx with hx | hx
    · obtain ⟨hget, hlast⟩ := h x hx g hg i hi e he hans
      obtain ⟨es, hes⟩ := hm
      have hlt : x.start + i < c.machine.eventLog.length := (List.getElem?_eq_some_iff.1 hget).1
      simp only [← hes]
      rw [List.getElem?_append_left hlt, List.take_append_of_le_length hlt.le]
      exact ⟨hget, hlast⟩
    · obtain rfl := List.mem_singleton.1 hx
      refine ⟨?_, hnew g hg i hi⟩
      rw [← List.getElem?_drop]
      exact he

/-! ## Copies -/

namespace Commands

structure RoundsInv (c : Copy) : Prop where
  wire : Machine.WireInv c.machine
  started : StartedInv c.machine
  inRound : InRound c

variable {J : StringOps} {s : Commands}

theorem RoundsInv.step {c : Copy} (h : RoundsInv c) (cause : Cause) {o : Op}
    (hnew : ∀ g ∈ cause.givenFor, ∀ i < ((c.machine.step J o).eventLog.drop c.machine.eventLog.length).length,
      lastStarted ((c.machine.step J o).eventLog.take (c.machine.eventLog.length + i)) = some g) :
    RoundsInv (c.write cause (c.machine.step J o)) where
  wire := by
    rw [Copy.write_machine]
    exact Machine.change_wireInv (Machine.step_change J c.machine o) h.wire
  started := by
    rw [Copy.write_machine]
    exact h.started.change (Machine.step_change J c.machine o)
  inRound := h.inRound.write (step_log_extends J c.machine o) hnew

/-- an apply on time -/
theorem RoundsInv.apply {c : Copy} (h : RoundsInv c) (e : StreamEntry) (now : Clock)
    (ht : ∀ g ∈ (Cause.command e).givenFor, ∀ r ∈ openRound c.machine e.envelope.userId (now 0), r = g) :
    RoundsInv (c.write (.command e) (dispatchBuiltin J c.machine e.envelope now).1) := by
  have ha := dispatchBuiltin_applies J c.machine e.envelope now
  -- only an answer is given for a round
  have other : ∀ {o : Op}, (∀ a sid cid ts, e.envelope.body ≠ .submitAnswer a sid cid ts) →
      RoundsInv (c.write (.command e) (c.machine.step J o)) := by
    intro o hb
    refine h.step _ fun g hg => ?_
    simp only [Cause.givenFor] at hg
    cases hg
  generalize dispatchBuiltin J c.machine e.envelope now = r at ha
  cases ha with
  | nothing v hv =>
    rw [Copy.write_same]
    exact h
  | answer answer sid cid ts hb hnew =>
    exact h.step _ fun g hg i hi => answer_in_open_round (Machine.step_change J c.machine _) h.started (ht g hg) hi
  | disconnect hb => exact other (by simp [hb])
  | pick commandId cardId offerSeqNo id hb hc => exact other (by simp [hb])
  | play commandId cardId offerSeqNo target input hb => exact other (by simp [hb])
  | vote topic commandId hb => exact other (by simp [hb])

theorem Grown.roundsInv {o : CommandOp} {c c' : Copy} (hg : Grown J s o c c') (ht : OnTime s o) (h : RoundsInv c) :
    RoundsInv c' := by
  cases hg with
  | same => exact h
  | applied n now d c hd hs hm => exact h.apply d.entry now (ht d hd c hm hs)
  | called n o c hm hw =>
    refine h.step _ fun g hg => ?_
    cases o <;> cases hg
  | botAnswered n sim now c hm =>
    refine h.step _ ?_
    rintro g ⟨rfl⟩ i hi
    exact answer_in_open_round (Machine.step_change J c.machine _) h.started (ht c hm) hi
  | decoded n c m hs hm =>
    have hrec : m = c.machine.recovered := Machine.deserialize_eq h.wire hm
    subst hrec
    exact ⟨Machine.recovered_wireInv _ h.wire, h.started.recovered, h.inRound⟩
  | keyed n i key c =>
    unfold Cluster.rehydrated
    split
    · rename_i key
      have hch := Machine.step_change J c.machine (.attachCorrectAnswer key)
      have hlog := Cluster.rehydrated_eventLog c.machine (some key)
      refine ⟨Machine.change_wireInv hch h.wire, h.started.change hch, ?_⟩
      unfold InRound
      rw [show (⟨c.machine.attachCorrectAnswer key, c.trace⟩ : Copy).machine.eventLog = c.machine.eventLog from hlog]
      exact h.inRound
    · exact h

/-! ## Result -/

/-- **Answers in their rounds.** In every run from a created match in which an answer or a bot's callback that reaches the
machine finds no other round open than the one it was made for, every ANSWER_SUBMITTED it logs belongs to that round: in
the stored blob, and in every machine and blob of every node. -/
theorem answers_in_round (J : StringOps) (creator matchId roomId : String) (players : List PlayerInfo)
    (hd : (players.map PlayerInfo.id).Nodup) (ops : List CommandOp)
    (ht : Along (step J) OnTime (init creator (Machine.create matchId roomId players)) ops) :
    Every InRound (run (step J) (init creator (Machine.create matchId roomId players)) ops) := by
  have h : Every RoundsInv (run (step J) (init creator (Machine.create matchId roomId players)) ops) := by
    refine run_inv (step J) OnTime (Every RoundsInv) ?_ _ ops ht (every_init ?_)
    · exact fun s o ho hs => step_every (fun c c' hg => hg.roundsInv ho) hs
    · exact ⟨Machine.wireInv_create matchId roomId players hd, .create matchId roomId players, by simp [InRound]⟩
  exact fun c hc => (h c hc).inRound

/-! ## Schedules -/

instance (c : Copy) : Decidable (InRound c) :=
  inferInstanceAs (Decidable (∀ x ∈ c.trace, ∀ r ∈ x.cause.givenFor, ∀ i < x.logged.length, ∀ e ∈ x.logged[i]?, _ → _))

instance (s : Commands) : (o : CommandOp) → Decidable (OnTime s o)
  | .look n now => inferInstanceAs (Decidable (∀ d ∈ (s.nodes n).delivery, ∀ c ∈ (s.nodes n).machine,
      d.stage = .fetching → ∀ g ∈ (Cause.command d.entry).givenFor,
        ∀ r ∈ openRound c.machine d.entry.envelope.userId (now 0), r = g))
  | .botAnswer n sim now => inferInstanceAs (Decidable (∀ c ∈ (s.nodes n).machine,
      ∀ r ∈ openRound c.machine sim.userId (now 0), r = sim.roundNo))
  | .handleSubmitAnswer .. | .forward .. | .forwardInvalid | .deadLetter .. | .deliver .. | .sismember ..
  | .missing .. | .takeBlob .. | .reply .. | .finish .. | .sadd .. | .recover .. | .xack .. | .abort ..
  | .crash .. | .call .. | .persist .. | .persisted .. | .evictStateMachine .. | .getStateMachine ..
  | .readState .. | .install .. | .expire => .isTrue trivial

/-- alice answers in the first round, and the entry is applied there -/
def prompt : List CommandOp :=
  opens "n1" ++ [submits "n1" "alice" "s1" "e1" 1 1000] ++ takes "n1" 0 1000 ++ writes "n1" .applied

theorem answers_in_round_alice :
    ((run (step StringOps.ascii) (init "n1" twoPlayers) prompt).state.map fun c => c.commands.length) = some 1 ∧
      Every InRound (run (step StringOps.ascii) (init "n1" twoPlayers) prompt) := by
  refine ⟨by decide +kernel, ?_⟩
  exact answers_in_round StringOps.ascii "n1" "m1" "r1" [freshPlayer "alice", freshPlayer "bob"] (by decide) prompt
    (by decide +kernel)

/-- alice answers twice in the first round; the second entry is delivered in the second one -/
def late : List CommandOp :=
  prompt ++ [.sadd "n1" true, .xack "n1", submits "n1" "alice" "s2" "e2" 1 2000] ++ evaluates "n1" 15000 ++
    asks "n1" "q2" 18000 ++ takes "n1" 1 19000 ++ writes "n1" .applied

/-- **A late answer counts in the next round.** The second entry was given for round 1, and its ANSWER_SUBMITTED is
stored in round 2. -/
theorem late_answer_applied : ¬Every InRound (run (step StringOps.ascii) (init "n1" twoPlayers) late) := by
  intro h
  have hstored : ∃ c ∈ (run (step StringOps.ascii) (init "n1" twoPlayers) late).state, ¬InRound c := by decide +kernel
  obtain ⟨c, hc, hout⟩ := hstored
  exact hout (h c (.inl hc))

end Commands

end Arena.Api
