/-
Grading over restores (`getStateMachine`, `rehydrateCorrectAnswer`, the rollbacks of `match-round-runner.ts`).

The answer key is not stored: a decoded round has none until a hydration attaches it, and a rollback takes the decoded
machine as it is. `bank` is the Question table.

- `change_key`, `change_records`: which calls set the key of the round, and what an answer is graded with;
- `step_keyedInv`: with its lookups answered and no rollback under another call, every object in use has its key;
- `answers_graded_right`: then every answer is graded against the question it was given for;
- `failed_lookup_grades_wrong`: one failed lookup, and a right answer given after the database is back counts as wrong.
-/
import Arena.Api.Coherence

namespace Arena.Api

open Arena.Lib Arena.Shared Arena.GameCore Arena.GameCore.Machine

/-! ## Statement -/

/-- every answer the call recorded is graded with the key of the round's question -/
def RecordsRight (J : StringOps) (bank : String → Option String) (m m' : Machine) : Prop :=
  ∀ r' ∈ m'.currentRound, ∀ e ∈ r'.answers.entries, (∀ r ∈ m.currentRound, e ∉ r.answers.entries) →
    e.2.isCorrect = isAnswerMatch J (some e.2.answer) (bank r'.question.id) r'.question.options

/-- a round in play has the key of its question -/
def Keyed (bank : String → Option String) (m : Machine) : Prop :=
  ∀ r ∈ m.currentRound, r.status = .active → r.correctAnswer = bank r.question.id

/-- the object of a call that may still write to it -/
def CallState.live : CallState → Option ℕ
  | .holding w => some w.ref
  | .queued w => some w.ref
  | .writing w _ => some w.ref
  | .settled w _ => some w.ref
  | _ => none

namespace MatchService

/-- the machine of a call that may write -/
def machineAt (s : MatchService) (i : ℕ) : Option Machine :=
  match s.callAt i with
  | some (.holding w) => s.heap[w.ref]?
  | _ => none

def GradesRight (J : StringOps) (bank : String → Option String) (s : MatchService) : ServiceOp → Prop
  | .mutate i o => ∀ m ∈ s.machineAt i, RecordsRight J bank m (m.step J o)
  | _ => True

/-- the machine a rollback restores -/
def restored (J : StringOps) (s : MatchService) (i : ℕ) : Option Machine :=
  match s.calls[i]? with
  | some (site, .settled w outcome) =>
    if site.cleanup outcome = .rollback then w.undo.bind fun b => (Machine.deserialize J (some b)).toOption else none
  | _ => none

def questionOf : Op → Option QuestionInput
  | .startRound q _ _ => some q
  | _ => none

/-- a question comes from the bank, the lookup of a hydration in a round finds its row, and no rollback restores a round
in play under another call -/
def KeepsKey (J : StringOps) (bank : String → Option String) (s : MatchService) : ServiceOp → Prop
  | .mutate _ o => ∀ q ∈ questionOf o, bank q.id = some q.correctAnswer
  | .install i key => ∀ x ∈ (s.callAt i).bind CallState.hydration, ∀ r ∈ x.1.currentRound, r.status = .active →
      key = bank r.question.id
  | .cleanup i => ∀ m ∈ s.restored J i, ∀ r ∈ m.currentRound, r.status = .active →
      ∀ j < s.calls.length, j ≠ i → (s.callAt j).bind CallState.live ≠ (s.callAt i).bind CallState.live
  | _ => True

instance (J : StringOps) (bank : String → Option String) (s : MatchService) :
    (o : ServiceOp) → Decidable (KeepsKey J bank s o)
  | .mutate _ o => inferInstanceAs (Decidable (∀ q ∈ questionOf o, bank q.id = some q.correctAnswer))
  | .install i key => inferInstanceAs (Decidable (∀ x ∈ (s.callAt i).bind CallState.hydration,
      ∀ r ∈ x.1.currentRound, r.status = .active → key = bank r.question.id))
  | .cleanup i => inferInstanceAs (Decidable (∀ m ∈ s.restored J i, ∀ r ∈ m.currentRound, r.status = .active →
      ∀ j < s.calls.length, j ≠ i → (s.callAt j).bind CallState.live ≠ (s.callAt i).bind CallState.live))
  | .getStateMachine _ => .isTrue trivial
  | .readState _ => .isTrue trivial
  | .dropState _ => .isTrue trivial
  | .evictStateMachine => .isTrue trivial
  | .persistStateMachine _ => .isTrue trivial
  | .serialize => .isTrue trivial
  | .reply _ => .isTrue trivial
  | .proceed _ _ => .isTrue trivial
  | .otherWrite _ => .isTrue trivial

end MatchService

/-! ## Which calls set the key, and what an answer is graded with -/

/-- a round in play is the one before the call, or a new one with the key of its question -/
theorem change_key {J : StringOps} {m m' : Machine} {o : Op} (hc : Change J m o m')
    (ha : MatchService.isWrite o = true) {r' : Round} (hr' : m'.currentRound = some r') (hactive : r'.status = .active) :
    (∃ q d now, o = .startRound q d now ∧ r'.correctAnswer = some q.correctAnswer ∧ r'.question.id = q.id) ∨
      ∃ r, m.currentRound = some r ∧ r.status = .active ∧ r'.correctAnswer = r.correctAnswer ∧
        r'.question = r.question := by
  have keep : m'.currentRound = m.currentRound → ∃ r, m.currentRound = some r ∧ r.status = .active ∧
      r'.correctAnswer = r.correctAnswer ∧ r'.question = r.question :=
    fun h => ⟨r', h ▸ hr', hactive, rfl, rfl⟩
  cases hc with
  | startRound q d now _ =>
    obtain rfl : m.newRound q d now = r' := Option.some.inj hr'
    exact .inl ⟨q, d, now, rfl, rfl, rfl⟩
  | transition target now _ =>
    cases target with
    | roundActive => cases hr'
    | _ => exact .inr (keep rfl)
  | answer round p a ts sid retry now hr hact _ _ _ =>
    obtain rfl := Option.some.inj hr'
    exact .inr ⟨round, hr, hact, rfl, rfl⟩
  | evaluated round now hr _ =>
    obtain rfl := Option.some.inj hr'
    cases hactive
  | evaluateStuck round now hr _ =>
    obtain rfl := Option.some.inj hr'
    cases hactive
  | winner now => exact .inr (keep (determineWinner_frame m now).2.1)
  | finish now => exact .inr (keep (determineWinner_frame m now).2.1)
  | attach => cases ha
  | play round p now hr _ _ =>
    exact .inr (keep ((applyPlay_frame (m.logEvent (.cardResolved (m.resolvedPayload round p)) (now 0)) round p
      (m.eventSeqCounter + 1) now).2))
  | _ => exact .inr (keep rfl)

/-- an answer a call records is graded with the key of the round before the call -/
theorem change_records {J : StringOps} {m m' : Machine} {o : Op} (hc : Change J m o m') {r' : Round}
    (hr' : m'.currentRound = some r') {e : String × AnswerState} (he : e ∈ r'.answers.entries)
    (hnew : ∀ r, m.currentRound = some r → e ∉ r.answers.entries) :
    ∃ r, m.currentRound = some r ∧ r.status = .active ∧ r'.question = r.question ∧
      e.2.isCorrect = isAnswerMatch J (some e.2.answer) r.correctAnswer r.question.options := by
  have old : ∀ r, m.currentRound = some r → r'.answers = r.answers → ∃ r, m.currentRound = some r ∧
      r.status = .active ∧ r'.question = r.question ∧
      e.2.isCorrect = isAnswerMatch J (some e.2.answer) r.correctAnswer r.question.options :=
    fun r hr ha => absurd (ha ▸ he) (hnew r hr)
  have keep : m'.currentRound = m.currentRound → ∃ r, m.currentRound = some r ∧ r.status = .active ∧
      r'.question = r.question ∧
      e.2.isCorrect = isAnswerMatch J (some e.2.answer) r.correctAnswer r.question.options :=
    fun h => old r' (h ▸ hr') rfl
  cases hc with
  | startRound q d now _ =>
    obtain rfl : m.newRound q d now = r' := Option.some.inj hr'
    cases he
  | transition target now _ =>
    cases target with
    | roundActive => cases hr'
    | _ => exact keep rfl
  | answer round p a ts sid retry now hr hact _ _ _ =>
    obtain rfl := Option.some.inj hr'
    rcases JsMap.mem_set_entries he with rfl | hold
    · exact ⟨round, hr, hact, rfl, rfl⟩
    · exact absurd hold (hnew round hr)
  | evaluated round now hr _ =>
    obtain rfl := Option.some.inj hr'
    exact old round hr rfl
  | evaluateStuck round now hr _ =>
    obtain rfl := Option.some.inj hr'
    exact old round hr rfl
  | winner now => exact keep (determineWinner_frame m now).2.1
  | finish now => exact keep (determineWinner_frame m now).2.1
  | attach round key hr _ =>
    obtain rfl := Option.some.inj hr'
    exact old round hr rfl
  | play round p now hr _ _ =>
    exact keep ((applyPlay_frame (m.logEvent (.cardResolved (m.resolvedPayload round p)) (now 0)) round p
      (m.eventSeqCounter + 1) now).2)
  | _ => exact keep rfl

/-- a machine with its key grades right -/
theorem Keyed.recordsRight {J : StringOps} {bank : String → Option String} {m m' : Machine} {o : Op} (h : Keyed bank m)
    (hc : Change J m o m') : RecordsRight J bank m m' := by
  intro r' hr' e he hnew
  obtain ⟨r, hr, hactive, hq, hgrade⟩ := change_records hc hr' he hnew
  rw [hgrade, h r hr hactive, hq]

theorem Keyed.change {J : StringOps} {bank : String → Option String} {m m' : Machine} {o : Op} (h : Keyed bank m)
    (hc : Change J m o m') (ha : MatchService.isWrite o = true)
    (hq : ∀ q d now, o = .startRound q d now → bank q.id = some q.correctAnswer) : Keyed bank m' := by
  intro r' hr' hactive
  rcases change_key hc ha hr' hactive with ⟨q, d, now, ho, hkey, hid⟩ | ⟨r, hr, hact, hkey, hquestion⟩
  · rw [hkey, hid, hq q d now ho]
  · rw [hkey, hquestion, h r hr hact]

/-- the hydration of a decoded machine whose lookup is answered -/
theorem keyed_rehydrated {bank : String → Option String} {m : Machine} {key : Option String}
    (hm : ∀ r, m.currentRound = some r → r.correctAnswer = none)
    (hk : ∀ r, m.currentRound = some r → r.status = .active → key = bank r.question.id) :
    Keyed bank (Cluster.rehydrated m key) := by
  intro r' hr' hactive
  unfold Cluster.rehydrated at hr'
  cases key with
  | none =>
    have hr : m.currentRound = some r' := hr'
    rw [hm r' hr, hk r' hr hactive]
  | some k =>
    unfold attachCorrectAnswer at hr'
    cases hr : m.currentRound with
    | none =>
      simp only [hr] at hr'
      cases hr'
    | some r =>
      simp only [hr] at hr'
      split_ifs at hr' with hs
      · obtain rfl : r = r' := Option.some.inj (hr.symm.trans hr')
        exact absurd hactive hs
      · obtain rfl := Option.some.inj hr'
        exact hk r hr (not_not.1 hs)

/-! ## Runs -/

namespace MatchService

/-- the map or a call has the object -/
def Held (s : MatchService) (ref : ℕ) : Prop :=
  s.stateMachine = some ref ∨ ∃ i c, s.callAt i = some c ∧ c.live = some ref

structure KeyedInv (bank : String → Option String) (s : MatchService) : Prop where
  refs : RefInv s
  heap : ∀ ref, s.Held ref → ∀ m, s.heap[ref]? = some m → Keyed bank m
  hydrating : ∀ i m blob, s.callAt i = some (.hydrating m blob) → ∀ r, m.currentRound = some r → r.correctAnswer = none

/-- a step that changes one call and adds no hydration; what is held after it is keyed -/
theorem KeyedInv.of_call {J : StringOps} {bank : String → Option String} {s s' : MatchService} {o : ServiceOp}
    (h : KeyedInv bank s) (hm : Moved J s o s') (c : CallState) (hc : c.hydration = none)
    (hcalls : ∀ j c', s'.callAt j = some c' → c' = c ∨ s.callAt j = some c')
    (hh : ∀ ref, s'.Held ref → ∀ m, s'.heap[ref]? = some m → Keyed bank m) : KeyedInv bank s' := by
  refine ⟨hm.refInv h.refs, hh, ?_⟩
  intro i m blob hi
  rcases hcalls i _ hi with rfl | hold
  · cases hc
  · exact h.hydrating i m blob hold

/-- a step that writes to no object -/
theorem KeyedInv.of_same {J : StringOps} {bank : String → Option String} {s s' : MatchService} {o : ServiceOp}
    (h : KeyedInv bank s) (hm : Moved J s o s') (hheap : s'.heap = s.heap)
    (hmap : ∀ ref, s'.stateMachine = some ref → s.stateMachine = some ref) (c : CallState) (hc : c.hydration = none)
    (hl : ∀ ref, c.live = some ref → s.Held ref)
    (hcalls : ∀ j c', s'.callAt j = some c' → c' = c ∨ s.callAt j = some c') : KeyedInv bank s' := by
  refine h.of_call hm c hc hcalls ?_
  intro ref hheld m hx
  rw [hheap] at hx
  refine h.heap ref ?_ m hx
  rcases hheld with hs | ⟨j, c', hj, hlive⟩
  · exact .inl (hmap ref hs)
  · rcases hcalls j c' hj with rfl | hold
    · exact hl ref hlive
    · exact .inr ⟨j, c', hold, hlive⟩

theorem hydration_ended (w : Work) (outcome : PersistOutcome) : (CallState.ended w outcome).hydration = none := by
  unfold CallState.ended
  split_ifs <;> rfl

theorem live_ended (w : Work) (outcome : PersistOutcome) : (CallState.ended w outcome).live = none := by
  unfold CallState.ended
  split_ifs <;> rfl

/-- **Every step that keeps the key keeps every object in use keyed.** -/
theorem step_keyedInv (J : StringOps) (bank : String → Option String) (s : MatchService) (o : ServiceOp)
    (hg : KeepsKey J bank s o) (h : KeyedInv bank s) : KeyedInv bank (s.step J o) := by
  have hmoved := step_moved J s o
  generalize s.step J o = s' at hmoved
  have hof := h.of_call hmoved
  have hsame := h.of_same hmoved
  -- a call that goes on holds what it held, and one that ends holds nothing
  have held : ∀ {i : ℕ} {c c' : CallState}, s.callAt i = some c → c'.live = c.live →
      ∀ ref, c'.live = some ref → s.Held ref := fun hc hl ref hx => .inr ⟨_, _, hc, hl ▸ hx⟩
  have ended : ∀ (w : Work) (outcome : PersistOutcome) ref, (CallState.ended w outcome).live = some ref → s.Held ref :=
    fun w outcome ref hx => by rw [live_ended] at hx; cases hx
  have nothing : ∀ {c : CallState}, c.live = none → ∀ ref, c.live = some ref → s.Held ref :=
    fun hn ref hx => by rw [hn] at hx; cases hx
  cases hmoved with
  | same => exact h
  | hit site ref hs =>
    refine hsame rfl (fun _ hx => hx) (.holding ⟨ref, none, []⟩) rfl ?_ fun _ _ => callAt_append
    rintro _ ⟨rfl⟩
    exact .inl hs
  | miss => exact hsame rfl (fun _ hx => hx) .reading rfl (nothing rfl) fun _ _ => callAt_append
  | decoded i blob m hc hs hd =>
    refine ⟨(Moved.decoded i blob m hc hs hd).refInv h.refs, ?_, ?_⟩
    · intro ref hheld
      refine h.heap ref ?_
      rcases hheld with hx | ⟨j, c', hj, hlive⟩
      · exact .inl hx
      · rcases callAt_setCall hj with rfl | hold
        · cases hlive
        · exact .inr ⟨j, c', hold, hlive⟩
    · intro j m' blob' hj
      rcases callAt_setCall hj with hx | hold
      · obtain ⟨rfl, rfl⟩ : m' = m ∧ blob' = blob := by simpa using hx
        exact (Machine.deserialize_decoded hd).2
      · exact h.hydrating j m' blob' hold
  | installed i m blob key hc =>
    refine hof (.holding ⟨s.heap.length, none, []⟩) rfl (fun _ _ => callAt_setCall) ?_
    intro ref hheld x hx
    simp only [setCall] at hx
    by_cases hlt : ref < s.heap.length
    · rw [List.getElem?_append_left hlt] at hx
      refine h.heap ref ?_ x hx
      rcases hheld with hs | ⟨j, c', hj, hlive⟩
      · obtain rfl : s.heap.length = ref := Option.some.inj hs
        exact absurd hlt (lt_irrefl _)
      · rcases callAt_setCall hj with rfl | hold
        · obtain rfl : s.heap.length = ref := Option.some.inj hlive
          exact absurd hlt (lt_irrefl _)
        · exact .inr ⟨j, c', hold, hlive⟩
    · rw [List.getElem?_append_right (not_lt.1 hlt)] at hx
      rw [List.mem_singleton.1 (List.mem_of_getElem? hx)]
      refine keyed_rehydrated (h.hydrating i m blob hc) ?_
      exact hg (m, blob) (by rw [hc]; rfl)
  | mutated i o w m hc hm ho =>
    refine hof (.holding (w.wrote m (m.step J o))) rfl (fun _ _ => callAt_setCall) ?_
    intro ref hheld x hx
    have hheld : s.Held ref := by
      rcases hheld with hs | ⟨j, c', hj, hlive⟩
      · exact .inl hs
      · rcases callAt_setCall hj with rfl | hold
        · exact .inr ⟨i, _, hc, hlive⟩
        · exact .inr ⟨j, c', hold, hlive⟩
    simp only [setCall, List.getElem?_set] at hx
    split_ifs at hx with hr
    · obtain rfl := Option.some.inj hx
      subst hr
      refine (h.heap w.ref hheld m hm).change (Machine.step_change J m o) ho ?_
      rintro q d now rfl
      exact hg q rfl
    · exact h.heap ref hheld x hx
  | rollsBack i site w outcome blob m hc hk hu hd =>
    refine hof (.ended w outcome) (hydration_ended w outcome) (fun _ _ => callAt_setCall) ?_
    intro ref hheld x hx
    obtain ⟨j, c', hji, hj, hlive⟩ : ∃ j c', j ≠ i ∧ s.callAt j = some c' ∧ c'.live = some ref := by
      rcases hheld with hs | ⟨j, c', hj, hlive⟩
      · cases hs
      · rcases callAt_setCall_cases hj with rfl | ⟨hji, hold⟩
        · rw [live_ended] at hlive
          cases hlive
        · exact ⟨j, c', hji, hold, hlive⟩
    simp only [setCall, List.getElem?_set] at hx
    split_ifs at hx with hr
    · obtain rfl := Option.some.inj hx
      subst hr
      have hrestored : s.restored J i = some m := by
        simp only [restored, hc, hk, if_true, hu, Option.bind_some, hd]
        rfl
      intro r hr hactive
      have hjlt : j < s.calls.length := by
        obtain ⟨y, hy, -⟩ := Option.map_eq_some_iff.1 hj
        exact (List.getElem?_eq_some_iff.1 hy).1
      refine absurd ?_ (hg m hrestored r hr hactive j hjlt hji)
      rw [hj, callAt_of_call hc, Option.bind_some, Option.bind_some, hlive]
      rfl
    · exact h.heap ref (.inr ⟨j, c', hj, hlive⟩) x hx
  | queued i w hc => exact hsame rfl (fun _ hx => hx) (.queued w) rfl (held hc rfl) fun _ _ => callAt_setCall
  | serialized i rest w ref m _ hc _ _ =>
    exact hsame rfl (fun _ hx => hx) (.writing w m.serialize) rfl (held hc rfl) fun _ _ => callAt_setCall
  | proceeds i w site hc =>
    exact hsame rfl (fun _ hx => hx) (.holding ⟨w.ref, none, []⟩) rfl (held hc rfl) fun _ _ => callAt_set
  | keeps i site w outcome =>
    exact hsame rfl (fun _ hx => hx) _ (hydration_ended w outcome) (ended w outcome) fun _ _ => callAt_setCall
  | evicts i site w outcome =>
    exact hsame rfl (fun _ hx => by cases hx) _ (hydration_ended w outcome) (ended w outcome) fun _ _ => callAt_setCall
  | blind i rest w _ hc => exact hsame rfl (fun _ hx => hx) (.settled w .blind) rfl (held hc rfl) fun _ _ => callAt_setCall
  | replied i rest w blob outcome _ hc =>
    exact hsame rfl (fun _ hx => hx) (.settled w outcome) rfl (held hc rfl) fun _ _ => callAt_setCall
  | noState => exact hsame rfl (fun _ hx => hx) .done rfl (nothing rfl) fun _ _ => callAt_setCall
  | undecodable => exact hsame rfl (fun _ hx => hx) .dropping rfl (nothing rfl) fun _ _ => callAt_setCall
  | dropped => exact hsame rfl (fun _ hx => hx) .done rfl (nothing rfl) fun _ _ => callAt_setCall
  | evicted => exact hsame rfl (fun _ hx => by cases hx) .done rfl (nothing rfl) fun _ _ => .inr
  | wrote state => exact hsame rfl (fun _ hx => hx) .done rfl (nothing rfl) fun _ _ => .inr

theorem Fresh.keyedInv {s : MatchService} (h : Fresh s) (bank : String → Option String) : KeyedInv bank s := by
  refine ⟨h.refInv, ?_, fun i m blob hc => by rw [h.no_calls] at hc; cases hc⟩
  intro ref _ m hm
  cases h with
  | idle state => cases hm
  | created matchId roomId players =>
    rw [List.mem_singleton.1 (List.mem_of_getElem? hm)]
    intro r hr
    cases hr

/-- **Answers are graded with the key of their question.** In every run of the node in which the lookup of each
hydration in a round is answered and no rollback restores a round in play under another call, every answer a call records is graded as
`isAnswerMatch` grades it against the question of the round. -/
theorem answers_graded_right (J : StringOps) (bank : String → Option String) (s : MatchService) (ops : List ServiceOp)
    (h0 : Fresh s) (hg : Along (step J) (KeepsKey J bank) s ops) : Along (step J) (GradesRight J bank) s ops := by
  refine along_of_inv (step J) (KeepsKey J bank) (GradesRight J bank) (KeyedInv bank) (step_keyedInv J bank) ?_ s ops hg
    (h0.keyedInv bank)
  intro s o _ h
  cases o with
  | mutate i o =>
    intro m hm
    simp only [machineAt, Option.mem_def] at hm
    split at hm
    · rename_i w hc
      exact (h.heap w.ref (.inr ⟨i, _, hc, rfl⟩) m hm).recordsRight (Machine.step_change J m o)
    · cases hm
  | _ => trivial

/-! ## Schedules -/

/-- the question table of the schedules -/
def oneQuestion (id : String) : Option String := if id = "q1" then some "4" else none

/-- the blob of a match in its first round -/
def inRound : WireMatch :=
  (run (Machine.step StringOps.ascii) (Machine.create "m1" "r1" [freshPlayer "alice", freshPlayer "bob"])
    [.transition .countdown fun _ => 0, .transition .roundActive fun _ => 0,
      .startRound ⟨"q1", "2 + 2?", ["3", "4", "5", "6"], "4", none⟩ none fun _ => 0]).serialize

/-- a node takes the match over, with what the lookup found -/
def restore (key : Option String) : List ServiceOp :=
  [.getStateMachine .applyAnswerCommand, .readState 0, .install 0 key]

/-- the i-th call answers with the right option -/
def answers (i : ℕ) (player : String) : ServiceOp := .mutate i (.submitAnswer player "b" 1000 (some "s1") fun _ => 0)

theorem answers_graded_right_alice :
    (run (step StringOps.ascii) (idle (some inRound)) (restore (some "4") ++ [answers 0 "alice"])).heap.map
        (fun m => m.currentRound.map fun r => r.answers.entries.map fun e => e.2.isCorrect) = [some [true]] ∧
      Along (step StringOps.ascii) (GradesRight StringOps.ascii oneQuestion) (idle (some inRound))
        (restore (some "4") ++ [answers 0 "alice"]) := by
  refine ⟨by decide +kernel, ?_⟩
  exact answers_graded_right StringOps.ascii oneQuestion (idle (some inRound)) _ (.idle _) (by decide +kernel)

/-- the lookup of the hydration fails; later the database is back, and another call asks for the machine -/
def lookupFailed : List ServiceOp := restore none ++ [.getStateMachine .applyAnswerCommand]

/-- **A failed lookup costs the round.** The machine is cached without its key, nothing looks it up again, and the right
answer of the second call is recorded as wrong. -/
theorem failed_lookup_grades_wrong :
    Fresh (idle (some inRound)) ∧
      ¬Along (step StringOps.ascii) (GradesRight StringOps.ascii oneQuestion) (idle (some inRound))
        (lookupFailed ++ [answers 1 "bob"]) := by
  refine ⟨.idle _, fun h => ?_⟩
  have hlast : GradesRight StringOps.ascii oneQuestion
      (run (step StringOps.ascii) (idle (some inRound)) lookupFailed) (answers 1 "bob") :=
    ((along_append _ _ _ lookupFailed [_]).1 h).2.1
  revert hlast
  simp only [GradesRight, answers, RecordsRight]
  decide +kernel

end MatchService

end Arena.Api
