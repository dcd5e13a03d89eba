/-
Is a disconnect, leave or reconnect of a match player ever lost? (`Api.Lifecycle`)

A change is kept when a blob that was APPLIED shows it, or when it was appended to the command stream. A blob shows it
when it has the event the change logged, and the player's status is the one it set unless a later event of the player
took it back.

- `Shows`, `shows_step`: a machine shows a change, through every later call;
- `Moved.keeps_change`: what one step of a node's service keeps of a change in its hands;
- `changes_not_lost`: with each persist of a change starting on the machine it was made on and under ownership, its CAS
  accepted and answered, no change is lost;
- `leave_lost`: a leave on a node that does not own the match.
-/
import Arena.Api.Evidence
import Arena.Api.Lifecycle

namespace Arena.Api

open Arena.Lib Arena.Shared Arena.GameCore Arena.GameCore.Machine Arena.Redis

/-! ## What shows a change -/

/-- the player's entry in a blob -/
def statusIn (b : WireMatch) (userId : String) : Option PlayerStatus :=
  (getEntry userId ((b.state.bind WireState.players).getD [])).map PlayerInfo.status

/-- the status the change is to leave -/
def ChangeKind.leaves (kind : ChangeKind) (status : PlayerStatus) : Bool :=
  match kind with
  | .disconnect => status ≠ .active
  | .leave => status ≠ .active
  | .reconnect => status ≠ .disconnected

/-- a blob has the events the change logged, and its status or a later event that takes it back -/
structure Reflects (kind : ChangeKind) (userId : String) (logged : List EventLogEntry) (seqNo : ℕ) (b : WireMatch) :
    Prop where
  logged : ∀ e ∈ logged, e ∈ Cluster.eventLogOf b
  status : (∃ e ∈ Cluster.eventLogOf b, seqNo < e.seqNo ∧ e.event = kind.opposite userId) ∨
    ∀ status ∈ statusIn b userId, kind.leaves status = true

instance (kind : ChangeKind) (userId : String) (logged : List EventLogEntry) (seqNo : ℕ) (b : WireMatch) :
    Decidable (Reflects kind userId logged seqNo b) :=
  decidable_of_iff ((∀ e ∈ logged, e ∈ Cluster.eventLogOf b) ∧
    ((∃ e ∈ Cluster.eventLogOf b, seqNo < e.seqNo ∧ e.event = kind.opposite userId) ∨
      ∀ status ∈ statusIn b userId, kind.leaves status = true)) ⟨fun h => ⟨h.1, h.2⟩, fun h => ⟨h.1, h.2⟩⟩

/-- not DISCONNECTED -/
def Present (m : Machine) (userId : String) : Prop :=
  ∀ p, m.state.players.get userId = some p → p.status ≠ .disconnected

/-- how a machine keeps the change -/
def ChangeKind.Settled (kind : ChangeKind) (m : Machine) (userId : String) : Prop :=
  match kind with
  | .disconnect => Offline m userId
  | .leave => Offline m userId
  | .reconnect => Present m userId

structure Shows (kind : ChangeKind) (userId : String) (logged : List EventLogEntry) (seqNo : ℕ) (m : Machine) :
    Prop where
  logged : ∀ e ∈ logged, e ∈ m.eventLog
  counter : seqNo ≤ m.eventSeqCounter
  status : (∃ e ∈ m.eventLog, seqNo < e.seqNo ∧ e.event = kind.opposite userId) ∨ kind.Settled m userId

section Shows

variable {J : StringOps} {m m' : Machine} {o : Op} {userId : String}

theorem statusIn_serialize (m : Machine) (userId : String) :
    statusIn m.serialize userId = (m.state.players.get userId).map PlayerInfo.status := rfl

theorem Shows.reflects {kind : ChangeKind} {logged : List EventLogEntry} {seqNo : ℕ}
    (h : Shows kind userId logged seqNo m) : Reflects kind userId logged seqNo m.serialize := by
  refine ⟨by rw [Cluster.eventLogOf_serialize]; exact h.logged, ?_⟩
  rw [Cluster.eventLogOf_serialize]
  refine h.status.imp id fun hsettled status hstatus => ?_
  rw [statusIn_serialize, Option.mem_def, Option.map_eq_some_iff] at hstatus
  obtain ⟨p, hp, rfl⟩ := hstatus
  cases kind with
  | disconnect => exact decide_eq_true (hsettled p hp).2
  | leave => exact decide_eq_true (hsettled p hp).2
  | reconnect => exact decide_eq_true (hsettled p hp)

theorem Present.of_eq (h : Present m userId) (he : m'.state.players = m.state.players) : Present m' userId := by
  intro p hp
  rw [he] at hp
  exact h p hp

theorem Present.modify {q : String} {f : PlayerInfo → PlayerInfo} (h : Present m userId)
    (he : m'.state.players = m.state.players.modify q f)
    (hf : ∀ i, q = userId → i.status ≠ .disconnected → (f i).status ≠ .disconnected) : Present m' userId := by
  intro p hp
  rw [he, JsMap.get_modify] at hp
  split_ifs at hp with hq
  · obtain ⟨i, hi, rfl⟩ := Option.map_eq_some_iff.1 hp
    exact hf i hq (h i hi)
  · exact h p hp

theorem settleInfo_present (answers : JsMap String AnswerState) (q : String) (i : PlayerInfo)
    (h : i.status ≠ .disconnected) : (settleInfo answers q i).status ≠ .disconnected := by
  unfold settleInfo
  split
  · split_ifs
    · exact h
    · simp
  · simp

theorem foldl_settle_present (answers : JsMap String AnswerState) (l : List String) (m : Machine)
    (h : Present m userId) : Present (m.withPlayers (l.foldl (settlePlayer answers) m.state.players)) userId := by
  induction l generalizing m with
  | nil => exact h.of_eq rfl
  | cons q l ih =>
    have h1 : Present (m.withPlayers (settlePlayer answers m.state.players q)) userId :=
      h.modify rfl fun i _ hi => settleInfo_present answers q i hi
    exact (ih _ h1).of_eq rfl

/-- a player who is present stays so until a disconnect -/
theorem change_keepsPresent (hc : Change J m o m') (ho : ∀ now, o ≠ .disconnectPlayer userId now)
    (h : Present m userId) :
    Present m' userId := by
  cases hc with
  | transition target now _ => cases target <;> exact h.of_eq rfl
  | answer round q a ts sid retry now _ _ _ _ _ =>
    exact h.of_eq (congrArg MatchState.players (consumeChance_frame m round q retry (now 0)).1)
  | evaluated round now _ _ => exact (foldl_settle_present round.answers (m.roundPlayers round) m h).of_eq rfl
  | evaluateStuck round now _ _ => exact (foldl_settle_present round.answers (m.roundPlayers round) m h).of_eq rfl
  | winner now => exact h.of_eq (congrArg MatchState.players (determineWinner_frame m now).1)
  | finish now =>
    have hs := (determineWinner_frame m now).1
    cases hw : (m.determineWinner now).2 with
    | none => exact h.of_eq (by simp only [crown, logEvent_state, hs])
    | some w =>
      have hp : ((m.determineWinner now).1.crown (some w) now).state.players =
          m.state.players.modify w fun p => { p with status := .winner } := by
        simp only [crown, logEvent_state, hs]
      exact h.modify hp fun i _ _ => by simp
  | offline q player now _ => exact h.modify rfl fun i _ hi => hi
  | disconnect q player now _ _ => exact h.modify rfl fun i hq => absurd (by rw [hq]) (ho now)
  | reconnect q player now _ =>
    refine h.modify rfl fun i _ hi => ?_
    dsimp only
    rw [if_neg hi]
    exact hi
  | play round q now _ _ _ => exact h.of_eq (congrArg MatchState.players (applyPlay_frame _ round q _ now).1)
  | _ => exact h.of_eq rfl

/-- a reconnect logs its event, or changes nothing -/
theorem reconnect_logs (J : StringOps) (m : Machine) (userId : String) (now : Clock) :
    m.step J (.reconnectPlayer userId now) = m ∨
      ⟨.playerReconnected userId, now 0, m.eventSeqCounter + 1⟩ ∈
        (m.step J (.reconnectPlayer userId now)).eventLog := by
  have hc := step_change J m (.reconnectPlayer userId now)
  generalize m.step J (.reconnectPlayer userId now) = m' at hc
  cases hc with
  | same => exact .inl rfl
  | reconnect q player now hg => exact .inr (List.mem_append_right _ (List.mem_singleton.2 rfl))

/-- a disconnect logs its event, or changes no status -/
theorem disconnect_logs (J : StringOps) (m : Machine) (userId : String) (now : Clock) :
    (Present m userId → Present (m.step J (.disconnectPlayer userId now)) userId) ∨
      ⟨.playerDisconnected userId, now 0, m.eventSeqCounter + 1⟩ ∈
        (m.step J (.disconnectPlayer userId now)).eventLog := by
  have hc := step_change J m (.disconnectPlayer userId now)
  generalize m.step J (.disconnectPlayer userId now) = m' at hc
  cases hc with
  | same => exact .inl id
  | offline q player now _ => exact .inl fun h => h.modify rfl fun i _ hi => hi
  | disconnect q player now hg hs => exact .inr (List.mem_append_right _ (List.mem_singleton.2 rfl))

theorem reconnectPlayer_present (J : StringOps) (m : Machine) (userId : String) (now : Clock) :
    Present (m.step J (.reconnectPlayer userId now)) userId := by
  simp only [Machine.step, Machine.exec, Machine.reconnectPlayer]
  intro p hp
  split at hp
  · rename_i hnone
    rw [hnone] at hp
    cases hp
  · rename_i player hplayer
    split_ifs at hp with hoff
    · simp only [logEvent_state, JsMap.get_modify, if_true, hplayer, Option.map_some, Option.some.injEq] at hp
      rw [← hp]
      dsimp only
      split_ifs with hs
      · simp
      · exact hs
    · obtain rfl := Option.some.inj (hplayer.symm.trans hp)
      exact fun hs => hoff (.inl hs)

/-- the change is made -/
theorem shows_made (J : StringOps) (kind : ChangeKind) (m : Machine) (userId : String) (now : Clock) :
    Shows kind userId ((m.step J (kind.op userId now)).eventLog.drop m.eventLog.length)
      (m.step J (kind.op userId now)).eventSeqCounter (m.step J (kind.op userId now)) := by
  refine ⟨fun e he => List.mem_of_mem_drop he, le_rfl, .inr ?_⟩
  cases kind with
  | disconnect => exact disconnectPlayer_offline J m userId now
  | leave => exact disconnectPlayer_offline J m userId now
  | reconnect => exact reconnectPlayer_present J m userId now

theorem settled_step (kind : ChangeKind) (J : StringOps) (m : Machine) (o : Op) {seqNo : ℕ}
    (hcounter : seqNo ≤ m.eventSeqCounter) (h : kind.Settled m userId) :
    (∃ e ∈ (m.step J o).eventLog, seqNo < e.seqNo ∧ e.event = kind.opposite userId) ∨
      kind.Settled (m.step J o) userId := by
  have hlater : ∀ event t, (⟨event, t, m.eventSeqCounter + 1⟩ : EventLogEntry) ∈ (m.step J o).eventLog →
      ∃ e ∈ (m.step J o).eventLog, seqNo < e.seqNo ∧ e.event = event :=
    fun event t hmem => ⟨_, hmem, Nat.lt_succ_of_le hcounter, rfl⟩
  have hoffline : Offline m userId → (∃ e ∈ (m.step J o).eventLog, seqNo < e.seqNo ∧
      e.event = .playerReconnected userId) ∨ Offline (m.step J o) userId := by
    intro hoff
    by_cases ho : ∃ now, o = .reconnectPlayer userId now
    · obtain ⟨now, rfl⟩ := ho
      rcases reconnect_logs J m userId now with hsame | hmem
      · exact .inr (by rw [hsame]; exact hoff)
      · exact .inl (hlater _ _ hmem)
    · exact .inr (change_offline (step_change J m o) (fun now heq => ho ⟨now, heq⟩) hoff)
  cases kind with
  | disconnect => exact hoffline h
  | leave => exact hoffline h
  | reconnect =>
    by_cases ho : ∃ now, o = .disconnectPlayer userId now
    · obtain ⟨now, rfl⟩ := ho
      rcases disconnect_logs J m userId now with hkeep | hmem
      · exact .inr (hkeep h)
      · exact .inl (hlater _ _ hmem)
    · exact .inr (change_keepsPresent (step_change J m o) (fun now heq => ho ⟨now, heq⟩) h)

/-- **A change stays shown** through every later call on its machine. -/
theorem shows_step {kind : ChangeKind} {logged : List EventLogEntry} {seqNo : ℕ} (J : StringOps) (o : Op)
    (h : Shows kind userId logged seqNo m) : Shows kind userId logged seqNo (m.step J o) := by
  obtain ⟨es, hlog, -, hcounter⟩ := change_appends (step_change J m o)
  have hsub : ∀ e ∈ m.eventLog, e ∈ (m.step J o).eventLog := by
    intro e he
    rw [hlog]
    exact List.mem_append_left _ he
  refine ⟨fun e he => hsub e (h.logged e he), by rw [hcounter]; exact h.counter.trans (Nat.le_add_right _ _), ?_⟩
  rcases h.status with ⟨e, he, hlt, hevent⟩ | hsettled
  · exact .inl ⟨e, hsub e he, hlt, hevent⟩
  · exact settled_step kind J m o h.counter hsettled

end Shows

/-! ## A change in the hands of a service -/

/-- what the call of a change still holds of it -/
def ChangeKept (service : MatchService) (stored : List WireMatch) (kind : ChangeKind) (userId : String) :
    Fate → CallState → Prop
  | .pending, .reading => True
  | .pending, .hydrating _ _ => True
  | .pending, .holding _ => True
  | .noop, .done => True
  | .made logged seqNo, .queued w => ∀ m, service.stateMachine = some w.ref → service.heap[w.ref]? = some m →
      Shows kind userId logged seqNo m
  | .made logged seqNo, .writing _ blob => Reflects kind userId logged seqNo blob
  | .made logged seqNo, .settled _ outcome =>
      outcome = .applied ∧ ∃ b ∈ stored, Reflects kind userId logged seqNo b
  | .made logged seqNo, .done => ∃ b ∈ stored, Reflects kind userId logged seqNo b
  | _, _ => False

/-- what a step keeps of a change of call `i` -/
def KeepsChange (service service' : MatchService) (stored stored' : List WireMatch) (i : ℕ) : Prop :=
  ∀ kind userId fate call, service.callAt i = some call → ChangeKept service stored kind userId fate call →
    ∃ call', service'.callAt i = some call' ∧ ChangeKept service' stored' kind userId fate call'

section ChangeKept

variable {service : MatchService} {stored : List WireMatch} {kind : ChangeKind} {userId : String} {fate : Fate}

theorem ChangeKept.of_reading (h : ChangeKept service stored kind userId fate .reading) : fate = .pending := by
  cases fate <;> first | rfl | exact h.elim

theorem ChangeKept.of_hydrating {m : Machine} {blob : WireMatch}
    (h : ChangeKept service stored kind userId fate (.hydrating m blob)) : fate = .pending := by
  cases fate <;> first | rfl | exact h.elim

theorem ChangeKept.of_holding {w : Work} (h : ChangeKept service stored kind userId fate (.holding w)) :
    fate = .pending := by
  cases fate <;> first | rfl | exact h.elim

theorem ChangeKept.not_dropping (h : ChangeKept service stored kind userId fate .dropping) : False := by
  cases fate <;> exact h.elim

theorem ChangeKept.of_queued {w : Work} (h : ChangeKept service stored kind userId fate (.queued w)) :
    ∃ logged seqNo, fate = .made logged seqNo := by
  cases fate with
  | made logged seqNo => exact ⟨logged, seqNo, rfl⟩
  | _ => exact h.elim

theorem ChangeKept.of_writing {w : Work} {blob : WireMatch}
    (h : ChangeKept service stored kind userId fate (.writing w blob)) :
    ∃ logged seqNo, fate = .made logged seqNo := by
  cases fate with
  | made logged seqNo => exact ⟨logged, seqNo, rfl⟩
  | _ => exact h.elim

/-- the outcome of a persist with a change is APPLIED, and its call ends as done -/
theorem ChangeKept.of_settled {w : Work} {outcome : PersistOutcome} {stored' : List WireMatch} {service' : MatchService}
    (h : ChangeKept service stored kind userId fate (.settled w outcome)) (hstored : stored ⊆ stored') :
    ChangeKept service' stored' kind userId fate (.ended w outcome) := by
  cases fate with
  | made logged seqNo =>
    obtain ⟨rfl, b, hb, hreflects⟩ := h
    exact ⟨b, hstored hb, hreflects⟩
  | _ => exact h.elim

end ChangeKept

namespace MatchService

/-- the object a step leaves in the map was there before, and at most one call on it came -/
def SameObjects (J : StringOps) (s s' : MatchService) : Prop :=
  ∀ ref m', ref < s.heap.length → s'.stateMachine = some ref → s'.heap[ref]? = some m' →
    s.stateMachine = some ref ∧ ∃ m, s.heap[ref]? = some m ∧ (m' = m ∨ ∃ o, m' = m.step J o)

theorem SameObjects.of_eq {J : StringOps} {s s' : MatchService} (hheap : s'.heap = s.heap)
    (hmap : s'.stateMachine = s.stateMachine) : SameObjects J s s' := by
  intro ref m' _ hs hm
  rw [hmap] at hs
  rw [hheap] at hm
  exact ⟨hs, m', hm, .inl rfl⟩

theorem Moved.sameObjects {J : StringOps} {s s' : MatchService} {o : ServiceOp} (h : Moved J s o s') :
    SameObjects J s s' := by
  intro ref m' hlt hmap hm'
  cases h with
  | installed i m blob key hc =>
    obtain rfl : s.heap.length = ref := Option.some.inj hmap
    exact absurd hlt (lt_irrefl _)
  | evicted => cases hmap
  | evicts => cases hmap
  | rollsBack => cases hmap
  | mutated i o w m hc hm ho =>
    refine ⟨hmap, ?_⟩
    simp only [setCall, List.getElem?_set] at hm'
    split_ifs at hm' with hr hl
    · subst hr
      exact ⟨m, hm, .inr ⟨o, (Option.some.inj hm').symm⟩⟩
    · exact ⟨m', hm', .inl rfl⟩
  | _ => exact ⟨hmap, m', hm', .inl rfl⟩

theorem callAt_setCall_ne {s : MatchService} {i j : ℕ} {c : CallState} (h : i ≠ j) :
    (s.setCall j c).callAt i = s.callAt i := by
  simp [callAt, setCall, Ne.symm h]

theorem callAt_setCall_self {s : MatchService} {i : ℕ} {c c' : CallState} (h : s.callAt i = some c') :
    (s.setCall i c).callAt i = some c := by
  obtain ⟨x, hx, -⟩ := Option.map_eq_some_iff.1 h
  simp [callAt, setCall, hx]

theorem callAt_append_of_some {calls : List (PersistSite × CallState)} {x : PersistSite × CallState} {i : ℕ}
    {c : CallState} (h : calls[i]?.map Prod.snd = some c) : (calls ++ [x])[i]?.map Prod.snd = some c := by
  obtain ⟨y, hy, rfl⟩ := Option.map_eq_some_iff.1 h
  rw [List.getElem?_append_left (List.getElem?_eq_some_iff.1 hy).1, hy]
  rfl

section KeepsChange

variable {J : StringOps} {service service' service'' : MatchService} {stored stored' stored'' : List WireMatch} {i : ℕ}
  {o : ServiceOp}

theorem keeps_trans (h : KeepsChange service service' stored stored' i)
    (h' : KeepsChange service' service'' stored' stored'' i) :
    KeepsChange service service'' stored stored'' i := by
  intro kind userId fate call hcall hkept
  obtain ⟨call', hcall', hkept'⟩ := h kind userId fate call hcall hkept
  exact h' kind userId fate call' hcall' hkept'

/-- a step that leaves the call where it is -/
theorem keeps_other (hm : SameObjects J service service') (hrefs : RefInv service) (hstored : stored ⊆ stored')
    (hcalls : ∀ call, service.callAt i = some call → service'.callAt i = some call) :
    KeepsChange service service' stored stored' i := by
  intro kind userId fate call hcall hkept
  refine ⟨call, hcalls call hcall, ?_⟩
  cases fate with
  | made logged seqNo =>
    cases call with
    | queued w =>
      intro m' hmap hm'
      obtain ⟨hmap0, m, hm0, rfl | ⟨o', rfl⟩⟩ := hm w.ref m' (hrefs.calls i _ hcall w.ref rfl) hmap hm'
      · exact hkept _ hmap0 hm0
      · exact shows_step J o' (hkept m hmap0 hm0)
    | settled w outcome =>
      obtain ⟨houtcome, b, hb, hreflects⟩ := hkept
      exact ⟨houtcome, b, hstored hb, hreflects⟩
    | done =>
      obtain ⟨b, hb, hreflects⟩ := hkept
      exact ⟨b, hstored hb, hreflects⟩
    | _ => exact hkept
  | _ => cases call <;> exact hkept

/-- a step that moves call `j` alone -/
theorem keeps_at (hm : SameObjects J service service') (hrefs : RefInv service) (hstored : stored ⊆ stored') {j : ℕ}
    {c c' : CallState} (hc : service.callAt j = some c) (hc' : service'.callAt j = some c')
    (haway : i ≠ j → service'.callAt i = service.callAt i)
    (hself : ∀ kind userId fate, i = j → ChangeKept service stored kind userId fate c →
      ChangeKept service' stored' kind userId fate c') : KeepsChange service service' stored stored' i := by
  by_cases hij : i = j
  · subst hij
    intro kind userId fate call hcall hkept
    obtain rfl := Option.some.inj (hc.symm.trans hcall)
    exact ⟨c', hc', hself kind userId fate rfl hkept⟩
  · exact keeps_other hm hrefs hstored fun call hcall => by rw [haway hij, hcall]

/-- **One step of a service** keeps a change, when its node finds the machine, its call ends with the persist, the
persist finds the machine the change was made on, and it is APPLIED. -/
theorem Moved.keeps_change (hm : Moved J service o service') (hrefs : RefInv service) (hstored : stored ⊆ stored')
    (hread : o = .readState i → service.callAt i = some .reading →
      ∃ m blob, service'.callAt i = some (.hydrating m blob))
    (hpersist : o ≠ .persistStateMachine i) (hends : ∀ site, o ≠ .proceed i site)
    (hturn : ∀ rest w, o = .serialize → service.persistChain = i :: rest → service.callAt i = some (.queued w) →
      service.stateMachine = some w.ref ∧ service'.callAt i ≠ some (.settled w .blind))
    (happlied : ∀ outcome rest w blob, o = .reply outcome → service.persistChain = i :: rest →
      service.callAt i = some (.writing w blob) → outcome = .applied ∧ blob ∈ stored') :
    KeepsChange service service' stored stored' i := by
  have hobjects := hm.sameObjects (J := J)
  cases hm with
  | same => exact keeps_other hobjects hrefs hstored fun call hcall => hcall
  | hit site ref hs => exact keeps_other hobjects hrefs hstored fun call hcall => callAt_append_of_some hcall
  | miss site hs => exact keeps_other hobjects hrefs hstored fun call hcall => callAt_append_of_some hcall
  | evicted => exact keeps_other hobjects hrefs hstored fun call hcall => hcall
  | wrote state => exact keeps_other hobjects hrefs hstored fun call hcall => hcall
  | noState j hc =>
    refine keeps_at hobjects hrefs hstored hc (callAt_setCall_self hc) callAt_setCall_ne fun _ _ _ hij _ => ?_
    subst hij
    obtain ⟨m, blob, hhydrating⟩ := hread rfl hc
    exact absurd ((callAt_setCall_self hc).symm.trans hhydrating) (by simp)
  | undecodable j hc =>
    refine keeps_at hobjects hrefs hstored hc (callAt_setCall_self hc) callAt_setCall_ne fun _ _ _ hij _ => ?_
    subst hij
    obtain ⟨m, blob, hhydrating⟩ := hread rfl hc
    exact absurd ((callAt_setCall_self hc).symm.trans hhydrating) (by simp)
  | decoded j blob m hc hs hd =>
    refine keeps_at hobjects hrefs hstored hc (callAt_setCall_self hc) callAt_setCall_ne fun _ _ _ _ hkept => ?_
    obtain rfl := hkept.of_reading
    trivial
  | dropped j hc =>
    exact keeps_at hobjects hrefs hstored hc (callAt_setCall_self hc) callAt_setCall_ne
      fun _ _ _ _ hkept => hkept.not_dropping.elim
  | installed j m blob key hc =>
    refine keeps_at hobjects hrefs hstored hc (callAt_setCall_self hc) callAt_setCall_ne fun _ _ _ _ hkept => ?_
    obtain rfl := hkept.of_hydrating
    trivial
  | mutated j op w m hc hm ho =>
    refine keeps_at hobjects hrefs hstored hc (callAt_setCall_self hc) callAt_setCall_ne fun _ _ _ _ hkept => ?_
    obtain rfl := hkept.of_holding
    trivial
  | queued j w hc =>
    exact keeps_at hobjects hrefs hstored hc (callAt_setCall_self hc) callAt_setCall_ne
      fun _ _ _ hij _ => absurd (by rw [hij]) hpersist
  | blind j rest w hp hc =>
    refine keeps_at hobjects hrefs hstored hc (callAt_setCall_self hc) callAt_setCall_ne fun _ _ _ hij _ => ?_
    subst hij
    exact absurd (callAt_setCall_self hc) (hturn rest w rfl hp hc).2
  | serialized j rest w ref m hp hc hs hm =>
    refine keeps_at hobjects hrefs hstored hc (callAt_setCall_self hc) callAt_setCall_ne fun _ _ _ hij hkept => ?_
    subst hij
    obtain rfl := Option.some.inj (hs.symm.trans (hturn rest w rfl hp hc).1)
    obtain ⟨logged, seqNo, rfl⟩ := hkept.of_queued
    exact (hkept m hs hm).reflects
  | replied j rest w blob outcome hp hc =>
    refine keeps_at hobjects hrefs hstored hc (callAt_setCall_self hc) callAt_setCall_ne fun _ _ _ hij hkept => ?_
    subst hij
    obtain ⟨houtcome, hblob⟩ := happlied outcome rest w blob rfl hp hc
    obtain ⟨logged, seqNo, rfl⟩ := hkept.of_writing
    exact ⟨houtcome, blob, hblob, hkept⟩
  | keeps j site w outcome hc hk =>
    exact keeps_at hobjects hrefs hstored (callAt_of_call hc) (callAt_setCall_self (callAt_of_call hc))
      callAt_setCall_ne fun _ _ _ _ hkept => hkept.of_settled hstored
  | evicts j site w outcome hc hk =>
    exact keeps_at hobjects hrefs hstored (callAt_of_call hc) (callAt_setCall_self (callAt_of_call hc))
      callAt_setCall_ne fun _ _ _ _ hkept => hkept.of_settled hstored
  | rollsBack j site w outcome blob m hc hk hu hd =>
    exact keeps_at hobjects hrefs hstored (callAt_of_call hc) (callAt_setCall_self (callAt_of_call hc))
      callAt_setCall_ne fun _ _ _ _ hkept => hkept.of_settled hstored
  | proceeds j w site hc =>
    have hij : i ≠ j := fun h => hends site (by rw [h])
    refine keeps_other hobjects hrefs hstored fun call hcall => ?_
    rw [← hcall]
    exact congrArg (Option.map Prod.snd) (List.getElem?_set_ne (Ne.symm hij))

/-- the steps that may read, queue or answer call `i` -/
def concerns (i : ℕ) : ServiceOp → Bool
  | .readState j => j = i
  | .persistStateMachine j => j = i
  | .proceed j _ => j = i
  | .serialize => true
  | .reply _ => true
  | _ => false

theorem Moved.keeps_unconcerned (hm : Moved J service o service') (hrefs : RefInv service) (ho : concerns i o = false) :
    KeepsChange service service' stored stored i := by
  refine hm.keeps_change hrefs (List.Subset.refl _) ?_ ?_ ?_ ?_ ?_
  · rintro rfl
    simp [concerns] at ho
  · rintro rfl
    simp [concerns] at ho
  · rintro site rfl
    simp [concerns] at ho
  · rintro rest w rfl
    cases ho
  · rintro outcome rest w blob rfl
    cases ho

/-- a write, and its persist joins the chain -/
theorem mutate_queued {w : Work} {m : Machine} {op : Op} (hcall : service.callAt i = some (.holding w))
    (hm : service.heap[w.ref]? = some m) (hop : isWrite op = true) :
    ((service.mutate J i op).persistStateMachine i).callAt i = some (.queued (w.wrote m (m.step J op))) ∧
      ((service.mutate J i op).persistStateMachine i).heap[w.ref]? = some (m.step J op) := by
  have hmutate : service.mutate J i op =
      { service with heap := service.heap.set w.ref (m.step J op) }.setCall i (.holding (w.wrote m (m.step J op))) := by
    simp only [mutate, hcall, hm, hop, if_true]
  have hheld : (service.mutate J i op).callAt i = some (.holding (w.wrote m (m.step J op))) := by
    rw [hmutate]
    exact callAt_setCall_self hcall
  have hheap : (service.mutate J i op).heap = service.heap.set w.ref (m.step J op) := by
    rw [hmutate]
    rfl
  simp only [persistStateMachine, hheld]
  refine ⟨callAt_setCall_self hheld, ?_⟩
  rw [show ∀ (s : MatchService) c, (s.setCall i c).heap = s.heap from fun _ _ => rfl, hheap,
    List.getElem?_set_self (List.getElem?_eq_some_iff.1 hm).1]

end KeepsChange

end MatchService

/-! ## Runs -/

namespace Lifecycle

open MatchService

/-- a change finds its match and a call of it does not throw; its persist starts while its node owns the match and
caches the machine it was made on; its CAS meets that ownership and the revision it expects, and is answered; a
disconnect that is forwarded is appended -/
def Lands (J : StringOps) (s : Lifecycle) : LifecycleOp → Prop
  | .routeInGameDisconnect n _ appended => (s.nodes n).owned.isSome = true ∨ appended = true
  | .failCall n i => s.pendingAt n i = none
  | .service n (.readState i) => s.isChange n i = true → (s.service n).callAt i = some .reading →
      s.keys.state.any (fun blob => (Machine.deserialize J (some blob)).toBool) = true
  | .serialize n => ∀ i ∈ (s.service n).persistChain.head?, s.isChange n i = true →
      ∀ w ∈ ((s.service n).callAt i).bind CallState.queuedWork,
        (s.nodes n).owned.isSome = true ∧ (s.service n).stateMachine = some w.ref
  | .reply n arrives => ∀ i ∈ (s.service n).persistChain.head?, s.isChange n i = true →
      arrives = true ∧ ∀ snapshot ∈ (s.nodes n).snapshot, ∀ expected ∈ snapshot.2,
        s.keys.owner = some snapshot.1.2 ∧ s.keys.fence = some snapshot.1.1 ∧ s.keys.revisionIs expected = true
  | .failPersist n => ∀ i ∈ (s.service n).persistChain.head?, s.isChange n i = true → (s.nodes n).snapshot = none
  | _ => True

/-- a change is in the hands of its call, or forwarded -/
def InHand (s : Lifecycle) (c : LifecycleChange) : Prop :=
  match c.call with
  | none => c.fate = .forwarded
  | some i => ∃ call, (s.service c.node).callAt i = some call ∧
      ChangeKept (s.service c.node) s.stored c.kind c.userId c.fate call

structure LifeInv (s : Lifecycle) : Prop where
  refs : ∀ n, RefInv (s.service n)
  /-- a call belongs to one change -/
  unique : s.changes.Pairwise fun c c' => c.node = c'.node → c.call = c'.call → c.call = none
  hands : ∀ c ∈ s.changes, InHand s c

section Steps

variable {s s' : Lifecycle} {n : String} {i : ℕ}

theorem isChange_of_mem {c : LifecycleChange} (hc : c ∈ s.changes) (hnode : c.node = n) (hcall : c.call = some i) :
    s.isChange n i = true := List.any_eq_true.2 ⟨c, hc, decide_eq_true ⟨hnode, hcall⟩⟩

theorem setService_service (s : Lifecycle) (n : String) (service : MatchService) :
    (s.setService n service).service n = service := by
  simp [setService, setNode, Lifecycle.service]

theorem setService_others (s : Lifecycle) (n : String) (service : MatchService) (n' : String) (h : n' ≠ n) :
    ((s.setService n service).nodes n').service = (s.nodes n').service := by
  simp [setService, setNode, Function.update_of_ne h]

/-- what a node that does nothing sees of a step -/
theorem other_moved (J : StringOps) (h : (s'.nodes n).service = (s.nodes n).service) :
    Moved J (s.service n) (.otherWrite s'.keys.state) (s'.service n) := by
  have hview : s'.service n = { s.service n with state := s'.keys.state } := by simp only [Lifecycle.service, h]
  rw [hview]
  exact .wrote _

theorem other_keeps (J : StringOps) (h : (s'.nodes n).service = (s.nodes n).service) (hrefs : RefInv (s.service n))
    (hstored : s.stored ⊆ s'.stored) (i : ℕ) : KeepsChange (s.service n) (s'.service n) s.stored s'.stored i := by
  refine keeps_other (other_moved J h).sameObjects hrefs hstored fun call hcall => ?_
  rw [← hcall]
  simp only [callAt, Lifecycle.service, h]

/-- what a step of node `n` keeps of a change -/
theorem InHand.move {c : LifecycleChange} (J : StringOps) (h : InHand s c) (hrefs : ∀ n, RefInv (s.service n))
    (hothers : ∀ n', n' ≠ n → (s'.nodes n').service = (s.nodes n').service) (hstored : s.stored ⊆ s'.stored)
    (hkeeps : ∀ i, c.node = n → c.call = some i → KeepsChange (s.service n) (s'.service n) s.stored s'.stored i) :
    InHand s' c := by
  unfold InHand at h ⊢
  cases hcall : c.call with
  | none =>
    rw [hcall] at h
    exact h
  | some i =>
    rw [hcall] at h
    obtain ⟨call, hcallAt, hkept⟩ := h
    by_cases hn : c.node = n
    · subst hn
      exact hkeeps i rfl hcall _ _ _ call hcallAt hkept
    · exact other_keeps J (hothers c.node hn) (hrefs c.node) hstored i _ _ _ call hcallAt hkept

theorem LifeInv.refs_move (J : StringOps) (h : LifeInv s)
    (hothers : ∀ n', n' ≠ n → (s'.nodes n').service = (s.nodes n').service) (hrefs : RefInv (s'.service n))
    (n' : String) : RefInv (s'.service n') := by
  by_cases hn : n' = n
  · subst hn
    exact hrefs
  · exact (other_moved J (hothers n' hn)).refInv (h.refs n')

/-- a step of node `n` that receives nothing -/
theorem LifeInv.move (J : StringOps) (h : LifeInv s) (hchanges : s'.changes = s.changes)
    (hothers : ∀ n', n' ≠ n → (s'.nodes n').service = (s.nodes n').service) (hstored : s.stored ⊆ s'.stored)
    (hrefs : RefInv (s'.service n))
    (hkeeps : ∀ i, s.isChange n i = true → KeepsChange (s.service n) (s'.service n) s.stored s'.stored i) :
    LifeInv s' where
  refs := h.refs_move J hothers hrefs
  unique := by rw [hchanges]; exact h.unique
  hands := by
    rw [hchanges]
    exact fun c hc => (h.hands c hc).move J h.refs hothers hstored
      fun i hnode hcall => hkeeps i (isChange_of_mem hc hnode hcall)

/-- leases, entries and keys other than the services -/
theorem LifeInv.frame (J : StringOps) (h : LifeInv s) (hchanges : s'.changes = s.changes)
    (hservices : ∀ n, (s'.nodes n).service = (s.nodes n).service) (hstored : s'.stored = s.stored) : LifeInv s' where
  refs := fun n => (other_moved J (hservices n)).refInv (h.refs n)
  unique := by rw [hchanges]; exact h.unique
  hands := by
    rw [hchanges]
    have hsubset : s.stored ⊆ s'.stored := by rw [hstored]; exact List.Subset.refl _
    exact fun c hc => (h.hands c hc).move J h.refs (fun n' _ => hservices n') hsubset
      fun i _ _ => other_keeps J (hservices c.node) (h.refs c.node) hsubset i

/-- a change that is received -/
theorem LifeInv.append (h : LifeInv s) {c : LifecycleChange} (hnew : ∀ i, c.call = some i → s.isChange c.node i = false)
    (hc : InHand s c) : LifeInv { s with changes := s.changes ++ [c] } where
  refs := h.refs
  unique := by
    refine List.pairwise_append.2 ⟨h.unique, List.pairwise_singleton _ _, fun c0 hc0 c1 hc1 hnode hcall => ?_⟩
    obtain rfl := List.mem_singleton.1 hc1
    cases hcall0 : c0.call with
    | none => rfl
    | some i =>
      have hold := isChange_of_mem hc0 hnode hcall0
      rw [hnew i (hcall ▸ hcall0)] at hold
      cases hold
  hands := by
    intro c' hc'
    rcases List.mem_append.1 hc' with hold | hmem
    · exact h.hands c' hold
    · obtain rfl := List.mem_singleton.1 hmem
      exact hc

/-- a new call is no change's -/
theorem LifeInv.isChange_length (h : LifeInv s) (n : String) : s.isChange n (s.service n).calls.length = false := by
  refine Bool.eq_false_iff.2 fun hchange => ?_
  obtain ⟨c, hc, hpos⟩ := List.any_eq_true.1 hchange
  obtain ⟨hnode, hcall⟩ := of_decide_eq_true hpos
  have hhand := h.hands c hc
  simp only [InHand, hcall] at hhand
  obtain ⟨call, hcallAt, -⟩ := hhand
  rw [hnode, callAt, List.getElem?_eq_none le_rfl] at hcallAt
  cases hcallAt

/-- a step of the service of node `n` -/
theorem LifeInv.setService {service' : MatchService} (J : StringOps) (h : LifeInv s) (hrefs : RefInv service')
    (hkeeps : ∀ i, s.isChange n i = true → KeepsChange (s.service n) service' s.stored s.stored i) :
    LifeInv (s.setService n service') := by
  refine h.move J rfl (setService_others s n service') (List.Subset.refl _) ?_ ?_
  · rw [setService_service]
    exact hrefs
  · rw [setService_service]
    exact hkeeps

theorem receive_inv (J : StringOps) (h : LifeInv s) (n : String) (kind : ChangeKind) (userId : String) :
    LifeInv (s.receive n kind userId) := by
  have hm := step_moved J (s.service n) (.getStateMachine kind.site)
  have hs := h.setService J (hm.refInv (h.refs n)) fun i _ => hm.keeps_unconcerned (h.refs n) rfl
  refine hs.append (fun i hi => ?_) ?_
  · obtain rfl := Option.some.inj hi
    exact h.isChange_length n
  · simp only [InHand, setService_service, MatchService.step, getStateMachine]
    split
    · rename_i ref _
      exact ⟨.holding ⟨ref, none, []⟩, by simp [callAt], trivial⟩
    · exact ⟨.reading, by simp [callAt], trivial⟩

/-- call `i` of node `n` moves on with its change -/
theorem LifeInv.setFate {service' : MatchService} {c : LifecycleChange} {fate : Fate} {call : CallState} (J : StringOps)
    (h : LifeInv s) (hc : c ∈ s.changes) (hnode : c.node = n) (hcall : c.call = some i) (hrefs : RefInv service')
    (hkeeps : ∀ j, j ≠ i → KeepsChange (s.service n) service' s.stored s.stored j)
    (hcallAt : service'.callAt i = some call)
    (hkept : ChangeKept service' s.stored c.kind c.userId fate call) :
    LifeInv ((s.setService n service').setFate c fate) := by
  have hothers := setService_others s n service'
  have hsame : ∀ x : LifecycleChange, (if x = c then { x with fate := fate } else x).node = x.node ∧
      (if x = c then { x with fate := fate } else x).call = x.call := by
    intro x
    split_ifs <;> exact ⟨rfl, rfl⟩
  refine ⟨h.refs_move J hothers (by rw [← setService_service s n service'] at hrefs; exact hrefs), ?_, ?_⟩
  · refine List.pairwise_map.2 (h.unique.imp fun {a b} hab hnodes hcalls => ?_)
    rw [(hsame a).1, (hsame b).1] at hnodes
    rw [(hsame a).2, (hsame b).2] at hcalls
    rw [(hsame a).2]
    exact hab hnodes hcalls
  · intro x' hx'
    obtain ⟨x, hx, rfl⟩ := List.mem_map.1 hx'
    by_cases hxc : x = c
    · subst hxc
      rw [if_pos rfl]
      simp only [InHand, hcall, hnode]
      refine ⟨call, ?_, ?_⟩
      · rw [← hcallAt]
        exact congrArg (fun service : MatchService => service.callAt i) (setService_service s n service')
      · have hview : ((s.setService n service').setFate x fate).service n = service' := setService_service s n service'
        rw [hview]
        exact hkept
    · rw [if_neg hxc]
      refine InHand.move J (h.hands x hx) h.refs hothers (List.Subset.refl _) fun j hxnode hxcall => ?_
      have hview : ((s.setService n service').setFate c fate).service n = service' := setService_service s n service'
      rw [hview]
      refine hkeeps j fun hji => ?_
      have hsym : Std.Symm fun c c' : LifecycleChange => c.node = c'.node → c.call = c'.call → c.call = none :=
        ⟨fun a b hab hnodes hcalls => hcalls.trans (hab hnodes.symm hcalls.symm)⟩
      have hnone := h.unique.forall hx hc hxc (hxnode.trans hnode.symm) (by rw [hxcall, hcall, hji])
      rw [hxcall] at hnone
      cases hnone

theorem pendingAt_spec {c : LifecycleChange} (h : s.pendingAt n i = some c) :
    c ∈ s.changes ∧ c.node = n ∧ c.call = some i := by
  unfold pendingAt at h
  have hpos := List.find?_some h
  obtain ⟨hnode, hcall, -⟩ := of_decide_eq_true hpos
  exact ⟨List.mem_of_find?_eq_some h, hnode, hcall⟩

theorem applyChange_inv (J : StringOps) (h : LifeInv s) (n : String) (i : ℕ) (now : Clock) :
    LifeInv (s.applyChange J n i now) := by
  unfold applyChange
  split
  · rename_i c w hpending hholding
    obtain ⟨hc, hnode, hcall⟩ := pendingAt_spec hpending
    split
    · exact h
    · rename_i m hm
      split_ifs with hnoop
      · refine h.setFate J hc hnode hcall ?_ (fun j hj => ?_) (callAt_setCall_self hholding) trivial
        · exact (h.refs n).of_call (.of_heap rfl fun _ hmap => hmap) (fun _ hmap => hmap) .done
            (fun _ href => by cases href) fun _ _ => callAt_setCall
        · refine keeps_other (J := J) (.of_eq rfl rfl) (h.refs n) (List.Subset.refl _) fun call hcallAt => ?_
          rw [callAt_setCall_ne hj, hcallAt]
      · have hwrite : isWrite (c.kind.op c.userId now) = true := by cases c.kind <;> rfl
        have hmutated := step_moved J (s.service n) (.mutate i (c.kind.op c.userId now))
        have hqueued := step_moved J ((s.service n).mutate J i (c.kind.op c.userId now)) (.persistStateMachine i)
        have hrefs := hmutated.refInv (h.refs n)
        obtain ⟨hcallAt, hheap⟩ := mutate_queued (J := J) hholding hm hwrite
        refine h.setFate J hc hnode hcall (hqueued.refInv hrefs) (fun j hj => ?_) hcallAt ?_
        · exact keeps_trans (hmutated.keeps_unconcerned (h.refs n) rfl)
            (hqueued.keeps_unconcerned hrefs (decide_eq_false (Ne.symm hj)))
        · intro m' _ hm'
          obtain rfl := Option.some.inj (hheap.symm.trans hm')
          exact shows_made J c.kind m c.userId now
  · exact h

theorem setNode_others (s : Lifecycle) (n : String) (node : ApiNode) (n' : String) (h : n' ≠ n) :
    ((s.setNode n node).nodes n').service = (s.nodes n').service := by
  simp [setNode, Function.update_of_ne h]

theorem setNode_services {node : ApiNode} (h : node.service = (s.nodes n).service) (n' : String) :
    ((s.setNode n node).nodes n').service = (s.nodes n').service := by
  by_cases hn : n' = n
  · subst hn
    simp [setNode, h]
  · exact setNode_others s n node n' hn

theorem setNode_service (s : Lifecycle) (n : String) (node : ApiNode) :
    (s.setNode n node).service n = { node.service with state := s.keys.state } := by
  simp [setNode, Lifecycle.service]

theorem routeInGameDisconnect_inv (J : StringOps) (h : LifeInv s) {userId : String} {appended : Bool}
    (hlands : (s.nodes n).owned.isSome = true ∨ appended = true) :
    LifeInv (s.routeInGameDisconnect n userId appended) := by
  unfold routeInGameDisconnect
  split_ifs with howned happended
  · exact receive_inv J h n .disconnect userId
  · exact h.append (fun _ hcall => by cases hcall) rfl
  · exact absurd (hlands.resolve_left howned) happended

/-- a call before its machine belongs to no change, or to one that waits for it -/
theorem LifeInv.pendingAt (h : LifeInv s) (hchange : s.isChange n i = true) {call : CallState}
    (hcall : (s.service n).callAt i = some call)
    (hearly : ∀ c ∈ s.changes, ChangeKept (s.service n) s.stored c.kind c.userId c.fate call → c.fate = .pending) :
    s.pendingAt n i ≠ none := by
  obtain ⟨c, hc, hpos⟩ := List.any_eq_true.1 hchange
  obtain ⟨hnode, hcallOf⟩ := of_decide_eq_true hpos
  have hhand := h.hands c hc
  simp only [InHand, hcallOf, hnode] at hhand
  obtain ⟨call', hcall', hkept⟩ := hhand
  obtain rfl := Option.some.inj (hcall.symm.trans hcall')
  intro hnone
  exact List.find?_eq_none.1 hnone c hc (decide_eq_true ⟨hnode, hcallOf, hearly c hc hkept⟩)

theorem failCall_inv (J : StringOps) (h : LifeInv s) (hlands : s.pendingAt n i = none) : LifeInv (s.failCall n i) := by
  have hclosed : ∀ {call}, (s.service n).callAt i = some call →
      (∀ c ∈ s.changes, ChangeKept (s.service n) s.stored c.kind c.userId c.fate call → c.fate = .pending) →
      LifeInv (s.setService n ((s.service n).setCall i .done)) := by
    intro call hcall hearly
    refine h.move J rfl (setService_others s n _) (List.Subset.refl _) ?_ fun j hchange => ?_
    · rw [setService_service]
      exact (h.refs n).of_call (.of_heap rfl fun _ hmap => hmap) (fun _ hmap => hmap) .done
        (fun _ href => by cases href) fun _ _ => callAt_setCall
    · rw [setService_service]
      have hji : j ≠ i := by
        rintro rfl
        exact h.pendingAt hchange hcall hearly hlands
      refine keeps_other (J := J) (.of_eq rfl rfl) (h.refs n) (List.Subset.refl _) fun call hcall => ?_
      rw [callAt_setCall_ne hji, hcall]
  unfold failCall
  split
  · simp only [hlands]
    exact hclosed (by assumption) fun c _ hkept => hkept.of_reading
  · simp only [hlands]
    exact hclosed (by assumption) fun c _ hkept => hkept.not_dropping.elim
  · simp only [hlands]
    exact hclosed (by assumption) fun c _ hkept => hkept.of_hydrating
  · exact h

theorem readState_hydrating (J : StringOps) {service : MatchService} (hcall : service.callAt i = some .reading)
    (hstate : service.state.any (fun blob => (Machine.deserialize J (some blob)).toBool) = true) :
    ∃ m blob, (service.readState J i).callAt i = some (.hydrating m blob) := by
  cases hblob : service.state with
  | none =>
    rw [hblob] at hstate
    cases hstate
  | some blob =>
    rw [hblob] at hstate
    cases hm : Machine.deserialize J (some blob) with
    | error e =>
      rw [Option.any_some, hm] at hstate
      cases hstate
    | ok m =>
      refine ⟨m, blob, ?_⟩
      simp only [readState, hcall, hblob, hm]
      exact callAt_setCall_self hcall

theorem service_inv (J : StringOps) (h : LifeInv s) {o : ServiceOp} (hlands : Lands J s (.service n o))
    (ho : s.isForeign n o = true) : LifeInv (s.setService n ((s.service n).step J o)) := by
  have hm := step_moved J (s.service n) o
  refine h.setService J (hm.refInv (h.refs n)) fun i hchange => ?_
  refine hm.keeps_change (h.refs n) (List.Subset.refl _) ?_ ?_ ?_ ?_ ?_
  · rintro rfl hreading
    exact readState_hydrating J hreading (hlands hchange hreading)
  · rintro rfl
    simp [isForeign, hchange] at ho
  · rintro site rfl
    simp [isForeign, hchange] at ho
  · rintro rest w rfl
    cases ho
  · rintro outcome rest w blob rfl
    cases ho

theorem head_call {service : MatchService} {call : CallState}
    (h : service.persistChain.head?.bind service.callAt = some call) :
    ∃ i rest, service.persistChain = i :: rest ∧ service.callAt i = some call := by
  cases hchain : service.persistChain with
  | nil =>
    rw [hchain] at h
    cases h
  | cons i rest =>
    rw [hchain] at h
    exact ⟨i, rest, rfl, h⟩

theorem serialize_writing {service : MatchService} {rest : List ℕ} {w : Work} {ref : ℕ} {m : Machine}
    (hchain : service.persistChain = i :: rest) (hcall : service.callAt i = some (.queued w))
    (hmap : service.stateMachine = some ref) (hm : service.heap[ref]? = some m) :
    service.serialize = service.setCall i (.writing w m.serialize) := by
  simp only [MatchService.serialize, hchain, hcall, hmap, Option.bind_some, hm]

/-- the persist of a change takes the machine it was made on -/
theorem serialize_keeps (J : StringOps) (h : LifeInv s) (hlands : Lands J s (.serialize n))
    (hchange : s.isChange n i = true) :
    KeepsChange (s.service n) (s.service n).serialize s.stored s.stored i := by
  have hm := step_moved J (s.service n) .serialize
  refine hm.keeps_change (h.refs n) (List.Subset.refl _) (fun ho => by cases ho) (fun ho => by cases ho)
    (fun _ ho => by cases ho) ?_ (fun _ _ _ _ ho => by cases ho)
  intro rest w _ hchain hcall
  have hturn := hlands i (by rw [hchain]; rfl) hchange w (by rw [hcall]; rfl)
  refine ⟨hturn.2, ?_⟩
  have hlt := (h.refs n).map w.ref hturn.2
  simp only [MatchService.step]
  rw [serialize_writing hchain hcall hturn.2 (List.getElem?_eq_getElem hlt), callAt_setCall_self hcall]
  simp

theorem serialize_inv (J : StringOps) (h : LifeInv s) (hlands : Lands J s (.serialize n)) :
    LifeInv (s.serialize n) := by
  have hm := step_moved J (s.service n) .serialize
  have hkeeps : ∀ i, s.isChange n i = true → KeepsChange (s.service n) (s.service n).serialize s.stored s.stored i :=
    fun i hchange => serialize_keeps J h hlands hchange
  unfold Lifecycle.serialize
  split
  · rename_i w hhead
    split_ifs with hmap
    · exact h.setService J (hm.refInv (h.refs n)) hkeeps
    · split
      · rename_i howned
        have hreplied := step_moved J (s.service n).serialize (.reply .retry)
        have hrefs := hm.refInv (h.refs n)
        refine h.setService J (hreplied.refInv hrefs) fun i hchange => keeps_trans (hkeeps i hchange) ?_
        refine hreplied.keeps_change hrefs (List.Subset.refl _) (fun ho => by cases ho) (fun ho => by cases ho)
          (fun _ ho => by cases ho) (fun _ _ ho => by cases ho) ?_
        intro outcome rest w' blob _ hchain' _
        obtain ⟨j, rest', hchain, hcall⟩ := head_call hhead
        obtain ⟨ref, href⟩ := Option.ne_none_iff_exists'.1 hmap
        rw [serialize_writing hchain hcall href (List.getElem?_eq_getElem ((h.refs n).map ref href))] at hchain'
        obtain ⟨rfl, -⟩ := List.cons.inj (hchain.symm.trans hchain')
        have hturn := hlands j (by rw [hchain]; rfl) hchange w (by rw [hcall]; rfl)
        rw [howned] at hturn
        cases hturn.1
      · rename_i entry howned
        refine h.move (n := n) J rfl ?_ (List.Subset.refl _) ?_ ?_
        · intro n' hn'
          rw [setNode_others _ _ _ _ hn', setService_others _ _ _ _ hn']
        · rw [setNode_service]
          exact (Moved.wrote (J := J) _).refInv (hm.refInv (h.refs n))
        · intro i hchange
          rw [setNode_service]
          exact keeps_trans (hkeeps i hchange) ((Moved.wrote (J := J) _).keeps_unconcerned (hm.refInv (h.refs n)) rfl)
  · exact h

/-- a persist of node `n` is answered, and the stored blobs grow -/
theorem LifeInv.answered (J : StringOps) (h : LifeInv s) (outcome : PersistOutcome) (hchanges : s'.changes = s.changes)
    (hothers : ∀ n', n' ≠ n → (s'.nodes n').service = (s.nodes n').service) (hstored : s.stored ⊆ s'.stored)
    (hservice : s'.service n = { (s.service n).reply outcome with state := s'.keys.state })
    (happlied : ∀ i rest w blob, s.isChange n i = true → (s.service n).persistChain = i :: rest →
      (s.service n).callAt i = some (.writing w blob) → outcome = .applied ∧ blob ∈ s'.stored) : LifeInv s' := by
  have hm := step_moved J (s.service n) (.reply outcome)
  have hrefs := hm.refInv (h.refs n)
  have hwrote := Moved.wrote (J := J) (s := (s.service n).reply outcome) s'.keys.state
  refine h.move J hchanges hothers hstored ?_ fun i hchange => ?_
  · rw [hservice]
    exact hwrote.refInv hrefs
  · rw [hservice]
    refine keeps_trans (hm.keeps_change (h.refs n) hstored (fun ho => by cases ho) (fun ho => by cases ho)
      (fun _ ho => by cases ho) (fun _ _ ho => by cases ho) ?_) (hwrote.keeps_unconcerned hrefs rfl)
    intro outcome' rest w blob ho hchain hcall
    cases ho
    exact happlied i rest w blob hchange hchain hcall

theorem cas_blob {blob : WireMatch} {expected : ℕ} {keys : Keys WireMatch} {applied : Bool} {rest : List ℕ} {w : Work}
    {blob' : WireMatch} (h : s.cas n = some (blob, expected, keys, applied))
    (hchain : (s.service n).persistChain = i :: rest) (hcall : (s.service n).callAt i = some (.writing w blob')) :
    blob' = blob := by
  unfold cas at h
  rw [hchain] at h
  simp only [List.head?_cons, Option.bind_some, hcall] at h
  split at h
  · rename_i hcall' _
    obtain ⟨-, rfl⟩ := CallState.writing.inj (Option.some.inj hcall')
    exact congrArg Prod.fst (Option.some.inj h)
  · cases h

theorem cas_applied {blob : WireMatch} {expected : ℕ} {keys : Keys WireMatch} {applied : Bool}
    (h : s.cas n = some (blob, expected, keys, applied))
    (howner : ∀ snapshot ∈ (s.nodes n).snapshot, ∀ expected ∈ snapshot.2,
      s.keys.owner = some snapshot.1.2 ∧ s.keys.fence = some snapshot.1.1 ∧ s.keys.revisionIs expected = true) :
    applied = true := by
  unfold cas at h
  split at h
  · rename_i w blob' entry' expected' hcall hsnapshot'
    obtain ⟨howns, hfence, hrevision⟩ := howner _ hsnapshot' expected' rfl
    have happlied : (s.keys.fencedStateSet entry'.2 entry'.1 blob' expected' (expected' + 1)).2 = applied :=
      congrArg (fun x => x.2.2.2) (Option.some.inj h)
    rw [← happlied]
    simp [Keys.fencedStateSet, howns, hfence, hrevision]
  · cases h

theorem reply_inv (J : StringOps) (h : LifeInv s) {arrives : Bool} (hlands : Lands J s (.reply n arrives)) :
    LifeInv (s.reply n arrives) := by
  unfold Lifecycle.reply
  split
  · rename_i blob expected keys applied entry _ hcas hsnapshot
    refine h.answered J (if arrives then (if applied then .applied else .retry) else .threw applied) rfl
      (fun n' hn' => setNode_others _ _ _ _ hn') ?_ (setNode_service _ _ _) ?_
    · show s.stored ⊆ if applied then s.stored ++ [blob] else s.stored
      split_ifs
      · exact List.subset_append_left _ _
      · exact List.Subset.refl _
    · intro i rest w blob' hchange hchain hcall
      obtain ⟨harrives, howner⟩ := hlands i (by rw [hchain]; rfl) hchange
      obtain rfl := cas_applied hcas howner
      subst harrives
      refine ⟨rfl, ?_⟩
      rw [cas_blob hcas hchain hcall]
      exact List.mem_append_right _ (List.mem_singleton.2 rfl)
  · exact h

theorem failPersist_inv (J : StringOps) (h : LifeInv s) (hlands : Lands J s (.failPersist n)) :
    LifeInv (s.failPersist n) := by
  unfold failPersist
  split
  · rename_i snapshot hsnapshot
    refine h.answered J (.threw false) rfl (fun n' hn' => setNode_others _ _ _ _ hn') (List.Subset.refl _)
      (setNode_service _ _ _) ?_
    intro i rest w blob hchange hchain _
    have hnone := hlands i (by rw [hchain]; rfl) hchange
    rw [hsnapshot] at hnone
    cases hnone
  · exact h

theorem readPersistedRevision_inv (J : StringOps) (h : LifeInv s) (failed : Bool) :
    LifeInv (s.readPersistedRevision n failed) := by
  unfold readPersistedRevision
  split
  · exact h.frame J rfl (setNode_services rfl) rfl
  · exact h

theorem acquire_inv (J : StringOps) (h : LifeInv s) : LifeInv (s.acquire n) := by
  unfold acquire
  split
  rename_i keys answer _
  have hkeys : LifeInv { s with keys := keys } := h.frame J rfl (fun _ => rfl) rfl
  split
  · exact hkeys.frame J rfl (setNode_services rfl) rfl
  · exact hkeys

/-- **One step** keeps every change in the hands of its call. -/
theorem step_inv (J : StringOps) (s : Lifecycle) (o : LifecycleOp) (hlands : Lands J s o) (h : LifeInv s) :
    LifeInv (step J s o) := by
  cases o with
  | receive n kind userId => exact receive_inv J h n kind userId
  | routeInGameDisconnect n userId appended => exact routeInGameDisconnect_inv J h hlands
  | applyChange n i now => exact applyChange_inv J h n i now
  | failCall n i => exact failCall_inv J h hlands
  | service n o =>
    simp only [step]
    split_ifs with ho
    · exact service_inv J h hlands ho
    · exact h
  | serialize n => exact serialize_inv J h hlands
  | readPersistedRevision n failed => exact readPersistedRevision_inv J h failed
  | reply n arrives => exact reply_inv J h hlands
  | failPersist n => exact failPersist_inv J h hlands
  | acquire n => exact acquire_inv J h
  | own n entry =>
    simp only [step]
    split_ifs
    · exact h.frame J rfl (setNode_services rfl) rfl
    · exact h
  | relinquish n => exact h.frame J rfl (setNode_services rfl) rfl
  | redis c =>
    simp only [step]
    split_ifs
    · exact h.frame J rfl (fun _ => rfl) rfl
    · exact h

theorem init_inv (creator matchId roomId : String) (players : List PlayerInfo) :
    LifeInv (init creator matchId roomId players) where
  refs := by
    intro n
    by_cases hn : n = creator
    · subst hn
      refine ⟨fun ref hmap => ?_, fun i call hcall => ?_⟩
      · simp only [Lifecycle.service, init, Function.update_self, createMatch, Option.some.injEq] at hmap ⊢
        subst hmap
        exact Nat.one_pos
      · simp [Lifecycle.service, init, createMatch, callAt] at hcall
    · refine ⟨fun ref hmap => ?_, fun i call hcall => ?_⟩
      · simp [Lifecycle.service, init, Function.update_of_ne hn, idle] at hmap
      · simp [Lifecycle.service, init, Function.update_of_ne hn, idle, callAt] at hcall
  unique := List.Pairwise.nil
  hands := fun c hc => by cases hc

end Steps

/-! ## The result -/

/-- the call of a change is on its way to a persist, or in it -/
def underWay : CallState → Bool
  | .reading => true
  | .hydrating _ _ => true
  | .holding _ => true
  | .queued _ => true
  | .writing _ _ => true
  | _ => false

/-- what is owed to a change with this call and fate -/
def Accounted (s : Lifecycle) (n : String) (kind : ChangeKind) (userId : String) : Option ℕ → Fate → Prop
  | none, fate => fate = .forwarded
  | some _, .noop => True
  | some i, .pending => ((s.service n).callAt i).any underWay = true
  | some i, .made logged seqNo => ((s.service n).callAt i).any underWay = true ∨
      ∃ b ∈ s.stored, Reflects kind userId logged seqNo b
  | some _, .forwarded => False
  | some _, .failed => False

/-- a change that is over was forwarded, or an APPLIED blob shows it -/
def NotLost (s : Lifecycle) (c : LifecycleChange) : Prop := Accounted s c.node c.kind c.userId c.call c.fate

instance (s : Lifecycle) (n : String) (kind : ChangeKind) (userId : String) :
    (call : Option ℕ) → (fate : Fate) → Decidable (Accounted s n kind userId call fate)
  | none, fate => inferInstanceAs (Decidable (fate = .forwarded))
  | some _, .noop => .isTrue trivial
  | some i, .pending => inferInstanceAs (Decidable (((s.service n).callAt i).any underWay = true))
  | some i, .made logged seqNo => inferInstanceAs (Decidable (((s.service n).callAt i).any underWay = true ∨
      ∃ b ∈ s.stored, Reflects kind userId logged seqNo b))
  | some _, .forwarded => .isFalse id
  | some _, .failed => .isFalse id

instance (s : Lifecycle) (c : LifecycleChange) : Decidable (NotLost s c) :=
  inferInstanceAs (Decidable (Accounted s c.node c.kind c.userId c.call c.fate))

instance (J : StringOps) (s : Lifecycle) : (o : LifecycleOp) → Decidable (Lands J s o)
  | .routeInGameDisconnect n _ appended =>
    inferInstanceAs (Decidable ((s.nodes n).owned.isSome = true ∨ appended = true))
  | .failCall n i => inferInstanceAs (Decidable (s.pendingAt n i = none))
  | .service n (.readState i) => inferInstanceAs (Decidable (s.isChange n i = true →
      (s.service n).callAt i = some .reading →
        s.keys.state.any (fun blob => (Machine.deserialize J (some blob)).toBool) = true))
  | .serialize n => inferInstanceAs (Decidable (∀ i ∈ (s.service n).persistChain.head?, s.isChange n i = true →
      ∀ w ∈ ((s.service n).callAt i).bind CallState.queuedWork,
        (s.nodes n).owned.isSome = true ∧ (s.service n).stateMachine = some w.ref))
  | .reply n arrives => inferInstanceAs (Decidable (∀ i ∈ (s.service n).persistChain.head?, s.isChange n i = true →
      arrives = true ∧ ∀ snapshot ∈ (s.nodes n).snapshot, ∀ expected ∈ snapshot.2,
        s.keys.owner = some snapshot.1.2 ∧ s.keys.fence = some snapshot.1.1 ∧ s.keys.revisionIs expected = true))
  | .failPersist n => inferInstanceAs (Decidable (∀ i ∈ (s.service n).persistChain.head?, s.isChange n i = true →
      (s.nodes n).snapshot = none))
  | .service _ (.getStateMachine _) | .service _ (.dropState _) | .service _ (.install _ _) => .isTrue trivial
  | .service _ .evictStateMachine | .service _ (.mutate _ _) | .service _ (.persistStateMachine _) => .isTrue trivial
  | .service _ .serialize | .service _ (.reply _) | .service _ (.cleanup _) => .isTrue trivial
  | .service _ (.proceed _ _) | .service _ (.otherWrite _) => .isTrue trivial
  | .receive _ _ _ | .applyChange _ _ _ | .readPersistedRevision _ _ | .acquire _ => .isTrue trivial
  | .own _ _ | .relinquish _ | .redis _ => .isTrue trivial

theorem InHand.notLost {s : Lifecycle} {c : LifecycleChange} (h : InHand s c) : NotLost s c := by
  unfold InHand at h
  unfold NotLost
  cases hcall : c.call with
  | none =>
    rw [hcall] at h
    exact h
  | some i =>
    rw [hcall] at h
    obtain ⟨call, hcallAt, hkept⟩ := h
    cases hfate : c.fate with
    | pending =>
      rw [hfate] at hkept
      simp only [Accounted, hcallAt, Option.any_some]
      cases call <;> first | rfl | exact hkept.elim
    | noop => trivial
    | made logged seqNo =>
      rw [hfate] at hkept
      simp only [Accounted, hcallAt, Option.any_some]
      cases call with
      | queued w => exact .inl rfl
      | writing w blob => exact .inl rfl
      | settled w outcome => exact .inr hkept.2
      | done => exact .inr hkept
      | _ => exact hkept.elim
    | forwarded =>
      rw [hfate] at hkept
      cases call <;> exact hkept.elim
    | failed =>
      rw [hfate] at hkept
      cases call <;> exact hkept.elim

/-- **No change is lost.** In every run in which each change finds its match, its persist starts while its node owns
the match and caches the machine it was made on, its CAS meets that ownership and the revision it expects and is
answered, and a disconnect that is forwarded is appended, every change that is over was forwarded or is in an APPLIED
blob. -/
theorem changes_not_lost (J : StringOps) (creator matchId roomId : String) (players : List PlayerInfo)
    (ops : List LifecycleOp) (hlands : Along (step J) (Lands J) (init creator matchId roomId players) ops) :
    ∀ c ∈ (run (step J) (init creator matchId roomId players) ops).changes,
      NotLost (run (step J) (init creator matchId roomId players) ops) c := by
  have hinv := run_inv (step J) (Lands J) LifeInv (step_inv J) _ ops hlands (init_inv creator matchId roomId players)
  exact fun c hc => (hinv.hands c hc).notLost

/-- alice and bob, on the node that owns their match -/
def owned : List LifecycleOp := [.acquire "n1", .own "n1" (1, "n1:1")]

/-- call `i` of the owner changes its machine and persists it -/
def changesOnOwner (i : ℕ) (kind : ChangeKind) (userId : String) : List LifecycleOp :=
  [.receive "n1" kind userId, .applyChange "n1" i fun _ => 5, .serialize "n1", .readPersistedRevision "n1" false,
    .reply "n1" true, .service "n1" (.cleanup i)]

/-- the match of alice and bob, created on n1 -/
def aliceAndBob : Lifecycle := init "n1" "m1" "r1" [freshPlayer "alice", freshPlayer "bob"]

theorem changes_not_lost_alice :
    let ops := owned ++ changesOnOwner 0 .disconnect "alice" ++ changesOnOwner 1 .reconnect "alice" ++
      [.routeInGameDisconnect "n2" "bob" true]
    let s := run (step StringOps.ascii) aliceAndBob ops
    s.stored.map (statusIn · "alice") = [some .disconnected, some .active] ∧
      s.changes.map LifecycleChange.kind = [.disconnect, .reconnect, .disconnect] ∧ ∀ c ∈ s.changes, NotLost s c := by
  intro ops s
  have hlands : (s.stored.map (statusIn · "alice") = [some .disconnected, some .active] ∧
      s.changes.map LifecycleChange.kind = [.disconnect, .reconnect, .disconnect]) ∧
      Along (step StringOps.ascii) (Lands StringOps.ascii) aliceAndBob ops := by
    decide +kernel
  exact ⟨hlands.1.1, hlands.1.2, changes_not_lost StringOps.ascii "n1" "m1" "r1" _ ops hlands.2⟩

/-- alice leaves over a socket of n2: its persist is refused, and its machine is evicted -/
def leavesElsewhere : List LifecycleOp :=
  [.receive "n2" .leave "alice", .service "n2" (.readState 0), .service "n2" (.install 0 none),
    .applyChange "n2" 0 fun _ => 5, .serialize "n2", .service "n2" (.cleanup 0)]

/-- **A leave is lost.** It was made on the machine of n2 alone, and nothing was forwarded: the machine is gone, and the
next blob of the owner has alice ACTIVE. -/
theorem leave_lost :
    let s := run (step StringOps.ascii) aliceAndBob
      (owned ++ leavesElsewhere ++ changesOnOwner 0 .disconnect "bob")
    (∃ c ∈ s.changes, c.node = "n2" ∧ c.kind = .leave ∧ c.userId = "alice" ∧ ¬NotLost s c) ∧
      (∀ c ∈ s.changes, c.fate ≠ .forwarded) ∧ (s.service "n2").stateMachine = none ∧
      s.stored.map (statusIn · "alice") = [some .active] := by
  decide +kernel

end Lifecycle

end Arena.Api
