/-
The end of a match across two stores: `finishMatchLoopInner` stores the FINISHED blob first and settles the database
second, and `resumeMatchLoop` takes a FINISHED blob for a match with nothing left to do (`match-round-runner.ts`,
`match-ownership.service.ts`).

A driver is one holder of the lease, named by its fence; its machine is one object, held by its loop and its commands. A
driver that lost the lease keeps its machine and its suspended calls until its process dies. A persist lands exactly
while its driver holds the lease, and may be refused or throw then too. Recovery decodes the stored blob, unless the
driver has the machine already. A lease is granted at most to one driver at a time and fences grow.

`persistedWinner` remembers the winner of the last FINISHED blob that was stored.

- `SettlementInv`: a stored FINISHED blob is settled in the database, or exactly one call is about to settle it;
- `finished_match_settled`: in every run in which nothing falls between that persist and that transaction, a match with
  a stored FINISHED blob is released only after it is settled;
- `crash_loses_results`: a crash in between.
-/
import Arena.Api.Results

namespace Arena.Api

open Arena.Lib Arena.Shared Arena.GameCore Arena.GameCore.Machine

/-! ## State -/

/-- the awaits of `finishMatchLoopInner`; the winner is read off the machine before the persist -/
inductive FinishPhase where
  | assert
  | get
  | persist (winnerId : Option String)
  | db (winnerId : Option String)
  | release
deriving DecidableEq

structure FinishTask where
  driver : ℕ
  phase : FinishPhase
deriving DecidableEq

/-- the finish is between its stored FINISHED blob and its transaction -/
def FinishTask.settling (t : FinishTask) : Bool :=
  match t.phase with
  | .db _ => true
  | _ => false

structure Settlement where
  /-- the last fence granted -/
  fence : ℕ
  /-- the fence of the lease, while it is held -/
  lease : Option ℕ
  /-- `match:active` holds the match -/
  active : Bool
  blob : Option WireMatch
  drivers : ℕ → Option Machine
  finishes : List FinishTask
  db : Db
  persistedWinner : Option (Option String)

namespace Settlement

/-- a launched match: its creator drives it under the first fence -/
def launch (m : Machine) (db : Db) : Settlement where
  fence := 1
  lease := some 1
  active := true
  blob := some m.serialize
  drivers := fun e => if e = 1 then some m else none
  finishes := []
  db := db
  persistedWinner := none

def setDriver (s : Settlement) (e : ℕ) (m : Option Machine) : Settlement :=
  { s with drivers := Function.update s.drivers e m }

theorem setDriver_self (s : Settlement) (e : ℕ) (m : Option Machine) : (s.setDriver e m).drivers e = m :=
  Function.update_self _ _ _

theorem setDriver_of_ne (s : Settlement) {e k : ℕ} (h : k ≠ e) (m : Option Machine) :
    (s.setDriver e m).drivers k = s.drivers k :=
  Function.update_of_ne h _ _

/-- `ownership.release`: the lease and the index entry go together, and only while the lease is the caller's -/
def release (s : Settlement) (e : ℕ) : Settlement :=
  if s.lease = some e then { s with lease := none, active := false } else s

/-- the fenced persist of a driver's machine -/
def persist (s : Settlement) (e : ℕ) : Settlement :=
  match s.drivers e with
  | none => s
  | some m =>
    { s with
      blob := some m.serialize
      persistedWinner := if m.state.status = .finished then some m.state.winnerId else s.persistedWinner }

/-- the persist of driver `e` is APPLIED -/
def applies (s : Settlement) (e : ℕ) (ok : Bool) : Bool := ok && s.lease = some e

/-! ## Recovery -/

/-- the driver's machine, or the decoded blob -/
def hydrate (J : StringOps) (s : Settlement) (e : ℕ) : Option Machine :=
  match s.drivers e with
  | some m => some m
  | none => s.blob.bind fun b => (Machine.deserialize J (some b)).toOption

/-- the statuses `resumeMatchLoop` arms or drives something for -/
def isDriven : MatchStatus → Bool
  | .finished => false
  | .created => false
  | _ => true

/-- `attemptRecovery` up to its `resumeMatchLoop`: a missing or undecodable state is cleaned, a match with nothing to drive
is released -/
def recover (J : StringOps) (s : Settlement) : Settlement :=
  match s.lease with
  | none => s
  | some e =>
    match s.hydrate J e with
    | none => { s with blob := none }.release e
    | some m => if isDriven m.state.status then s.setDriver e (some m) else (s.setDriver e (some m)).release e

/-! ## The finish -/

def finishMatchLoop (s : Settlement) (e : ℕ) : Settlement :=
  if (s.drivers e).isSome ∧ ∀ t ∈ s.finishes, t.driver ≠ e then
    { s with finishes := s.finishes ++ [⟨e, .assert⟩] }
  else s

/-- the machine is finished in memory; an illegal transition throws -/
def finishLook (s : Settlement) (e : ℕ) (now : Clock) : Settlement :=
  match s.drivers e with
  | none => s
  | some m =>
    match m.transition .finished now with
    | (m1, .error _) => s.setDriver e (some m1)
    | (m1, .ok _) =>
      let m2 := m1.finishMatch now
      { s.setDriver e (some m2) with finishes := s.finishes ++ [⟨e, .persist m2.state.winnerId⟩] }

/-- `MatchService.finishMatch`: the transaction, then the fenced delete of the blob when the call claimed the match -/
def finishDb (F : FloatOps) (C : Collation) (s : Settlement) (e : ℕ) (winnerId : Option String) (now : Time) :
    Settlement :=
  match s.drivers e with
  | none => s
  | some m =>
    match finishTransaction F C m.state.id s.db ⟨winnerId, false, some (getPlayerScores m)⟩ (some m) now with
    | .error _ => s
    | .ok (db, claimed) =>
      { s with
        db := db
        blob := if claimed && s.lease = some e then none else s.blob
        finishes := s.finishes ++ [⟨e, .release⟩] }

/-- one stretch of a finish; `ok` is false when the awaited call throws, is refused or answers false -/
def continueFinish (F : FloatOps) (C : Collation) (s : Settlement) (e : ℕ) (ok : Bool) (now : Clock) :
    FinishPhase → Settlement
  | .assert => if s.applies e ok then { s with finishes := s.finishes ++ [⟨e, .get⟩] } else s
  | .get => if ok then s.finishLook e now else s
  | .persist winnerId =>
    if s.applies e ok then { s.persist e with finishes := s.finishes ++ [⟨e, .db winnerId⟩] } else s
  | .db winnerId => if ok then s.finishDb F C e winnerId (now 0) else s
  | .release => s.release e

/-! ## Steps -/

/-- the calls of rounds, commands and bots -/
def isPlay : Op → Bool
  | .transition .finished _ => false
  | .finishMatch _ => false
  | _ => true

inductive SettlementOp where
  /-- a launch or a recovery is granted the free lease -/
  | acquire
  | expire
  | recover
  /-- a call on the driver's machine with its persist -/
  | play (driver : ℕ) (o : Op) (ok : Bool)
  | crash (driver : ℕ)
  | finishMatchLoop (driver : ℕ)
  /-- the i-th suspended finish goes on -/
  | continueFinish (i : ℕ) (ok : Bool) (now : Clock)

def play (J : StringOps) (s : Settlement) (e : ℕ) (o : Op) (ok : Bool) : Settlement :=
  match s.drivers e with
  | none => s
  | some m =>
    if isPlay o then
      let s1 := s.setDriver e (some (m.step J o))
      if s.applies e ok then s1.persist e else s1
    else s

def step (J : StringOps) (F : FloatOps) (C : Collation) (s : Settlement) : SettlementOp → Settlement
  | .acquire =>
    if s.lease = none then { s with fence := s.fence + 1, lease := some (s.fence + 1), active := true } else s
  | .expire => { s with lease := none }
  | .recover => s.recover J
  | .play e o ok => s.play J e o ok
  | .crash e => { s.setDriver e none with finishes := s.finishes.filter fun t => t.driver ≠ e }
  | .finishMatchLoop e => s.finishMatchLoop e
  | .continueFinish i ok now =>
    match s.finishes[i]? with
    | none => s
    | some t => { s with finishes := s.finishes.eraseIdx i }.continueFinish F C t.driver ok now t.phase

/-! ## Statement -/

/-- the step drops the runtime of the match and releases it -/
def releases (J : StringOps) (s : Settlement) : SettlementOp → Bool
  | .recover =>
    match s.lease with
    | none => false
    | some e => (s.hydrate J e).all fun m => !isDriven m.state.status
  | .continueFinish i _ _ => (s.finishes[i]?).any fun t => t.phase = .release
  | _ => false

/-- the match row is FINISHED with the winner, and the score and rating updates of a finished machine with that winner are
applied -/
structure Settled (F : FloatOps) (C : Collation) (winnerId : Option String) (db : Db) : Prop where
  row : ∃ now, db.row = ⟨.finished, winnerId, some now⟩
  applied : ∃ before m now, m.state.status = .finished ∧ m.state.winnerId = winnerId ∧
    db = { applyScoreUpdates F C (Db.claim before ⟨winnerId, now, true⟩) m (getPlayerScores m) with
      roomFinished := true }

/-- no crash, failure or recovery between a stored FINISHED blob and its transaction, and nobody else stores a machine that
a failed finish left FINISHED -/
def Undisturbed (s : Settlement) : SettlementOp → Prop
  | .recover => ∀ t ∈ s.finishes, t.settling = false
  | .crash e => ∀ t ∈ s.finishes, t.driver = e → t.settling = false
  | .continueFinish i ok _ => ∀ t ∈ s.finishes[i]?, t.settling = true → ok = true
  | .play e _ ok => s.applies e ok = true → s.persistedWinner = none →
      (s.drivers e).all fun m => m.state.status ≠ .finished
  | _ => True

instance (s : Settlement) (o : SettlementOp) : Decidable (Undisturbed s o) :=
  match o with
  | .acquire => .isTrue trivial
  | .expire => .isTrue trivial
  | .recover => inferInstanceAs (Decidable (∀ t ∈ s.finishes, t.settling = false))
  | .play e _ ok => inferInstanceAs (Decidable (s.applies e ok = true → s.persistedWinner = none →
      (s.drivers e).all (fun m => m.state.status ≠ .finished) = true))
  | .crash e => inferInstanceAs (Decidable (∀ t ∈ s.finishes, t.driver = e → t.settling = false))
  | .finishMatchLoop _ => .isTrue trivial
  | .continueFinish i ok _ => inferInstanceAs (Decidable (∀ t ∈ s.finishes[i]?, t.settling = true → ok = true))

/-! ## Machines -/

/-- a machine of the match: decodable, with the players it was created with -/
structure Sound (ids : List String) (m : Machine) : Prop where
  wire : WireInv m
  keys : m.state.players.keys = ids

theorem Sound.step {ids : List String} {m : Machine} (h : Sound ids m) (J : StringOps) (o : Op) :
    Sound ids (m.step J o) :=
  ⟨act_wireInv J m (.call o) h.wire, (change_keys (step_change J m o)).trans h.keys⟩

theorem Sound.recovered {ids : List String} {m : Machine} (h : Sound ids m) : Sound ids m.recovered :=
  ⟨recovered_wireInv m h.wire, h.keys⟩

theorem Sound.scores {ids : List String} {m : Machine} (h : Sound ids m) (hne : ids ≠ []) :
    (getPlayerScores m).length ≠ 0 := by
  have hlen : (getPlayerScores m).length = ids.length := by
    rw [← h.keys, getPlayerScores, JsMap.keys, List.length_map, List.length_map]
  rw [hlen]
  exact fun h0 => hne (List.eq_nil_of_length_eq_zero h0)

/-- the machine a finish leaves -/
theorem finished_machine {ids : List String} {m m1 : Machine} {now : Clock} (h : Sound ids m)
    (ht : m.transition .finished now = (m1, .ok ())) :
    m.state.status ≠ .finished ∧ (m1.finishMatch now).state.status = .finished ∧ Sound ids (m1.finishMatch now) := by
  have hstep : m.step StringOps.ascii (.transition .finished now) = m1 := congrArg Prod.fst ht
  have hfin : m1.step StringOps.ascii (.finishMatch now) = m1.finishMatch now := rfl
  have hs1 : m1.state.status = .finished ∧ m.state.status ≠ .finished := by
    unfold Machine.transition at ht
    split_ifs at ht with hc
    · rw [← (Prod.mk.inj ht).1]
      refine ⟨rfl, ?_⟩
      intro hf
      rw [canTransition, hf] at hc
      cases hc
    · cases (Prod.mk.inj ht).2
  refine ⟨hs1.2, ?_, ?_⟩
  · rw [← hfin]
    exact change_finished (step_change StringOps.ascii m1 _) hs1.1
  · rw [← hfin, ← hstep]
    exact (h.step StringOps.ascii _).step StringOps.ascii _

/-- play neither finishes a match nor changes its winner -/
theorem change_play {J : StringOps} {m m' : Machine} {o : Op} (hc : Change J m o m') (hp : isPlay o = true) :
    m'.state.winnerId = m.state.winnerId ∧ (m'.state.status = .finished ↔ m.state.status = .finished) := by
  cases hc with
  | transition target now hv =>
    cases target with
    | finished => cases hp
    | _ =>
      refine ⟨rfl, ?_⟩
      constructor
      · intro hf
        cases hf
      · intro hf
        rw [hf] at hv
        cases hv
  | answer round p a ts sid retry now _ _ _ _ _ =>
    have hs := (consumeChance_frame m round p retry (now 0)).1
    exact ⟨congrArg MatchState.winnerId hs, by rw [← congrArg MatchState.status hs]; rfl⟩
  | winner now =>
    rw [(determineWinner_frame m now).1]
    exact ⟨rfl, Iff.rfl⟩
  | finish now => cases hp
  | initVoting c d now hs =>
    refine ⟨rfl, ?_⟩
    constructor
    · intro hf
      cases hf
    · intro hf
      rw [hs] at hf
      cases hf
  | play round p now _ _ _ =>
    have hs := (applyPlay_frame (m.logEvent (.cardResolved (m.resolvedPayload round p)) (now 0)) round p
      (m.eventSeqCounter + 1) now).1
    exact ⟨congrArg MatchState.winnerId hs, by rw [congrArg MatchState.status hs]; rfl⟩
  | _ => exact ⟨rfl, Iff.rfl⟩

/-! ## Invariant -/

/-- a finished machine with the winner `w` -/
def FinishedAs (m : Machine) (w : Option String) : Prop := m.state.status = .finished ∧ m.state.winnerId = w

/-- all but that a stored FINISHED blob has its settlement -/
structure SettlementCore (F : FloatOps) (C : Collation) (ids : List String) (s : Settlement) : Prop where
  /-- the lease is the last one granted -/
  latest : ∀ e, s.lease = some e → e = s.fence
  /-- no driver beyond the last fence -/
  known : ∀ e, s.fence < e → s.drivers e = none
  sound : ∀ e m, s.drivers e = some m → Sound ids m
  /-- the stored blob is FINISHED exactly when a FINISHED blob was stored -/
  stored : ∀ b, s.blob = some b → ∃ m, b = m.serialize ∧ Sound ids m ∧
    (s.persistedWinner = none → m.state.status ≠ .finished) ∧ ∀ w, s.persistedWinner = some w → FinishedAs m w
  /-- the driver that holds the lease knows that the match is over -/
  informed : ∀ e m w, s.lease = some e → s.drivers e = some m → s.persistedWinner = some w → FinishedAs m w
  held : ∀ t ∈ s.finishes, (s.drivers t.driver).isSome
  single : (s.finishes.map FinishTask.driver).Nodup
  persisting : ∀ t ∈ s.finishes, ∀ w, t.phase = .persist w →
    (∀ m, s.drivers t.driver = some m → FinishedAs m w) ∧ (s.lease = some t.driver → s.persistedWinner = none)
  settling : ∀ t ∈ s.finishes, ∀ w, t.phase = .db w →
    s.persistedWinner = some w ∧ s.db.row.status ≠ .finished ∧ ∀ m, s.drivers t.driver = some m → FinishedAs m w
  one : ∀ t ∈ s.finishes, ∀ t' ∈ s.finishes, t.settling = true → t'.settling = true → t = t'
  releasing : ∀ t ∈ s.finishes, t.phase = .release → ∃ w, s.persistedWinner = some w ∧ Settled F C w s.db
  untouched : s.persistedWinner = none → s.db.row.status ≠ .finished

structure SettlementInv (F : FloatOps) (C : Collation) (ids : List String) (s : Settlement) : Prop
    extends SettlementCore F C ids s where
  settled : ∀ w, s.persistedWinner = some w → Settled F C w s.db ∨ ∃ t ∈ s.finishes, t.phase = .db w

theorem settling_iff (t : FinishTask) : t.settling = true ↔ ∃ w, t.phase = .db w := by
  unfold FinishTask.settling
  split
  · rename_i w hw
    exact ⟨fun _ => ⟨w, hw⟩, fun _ => rfl⟩
  · rename_i hn
    constructor
    · intro hf
      cases hf
    · rintro ⟨w, hw⟩
      exact absurd hw (hn w)

section Steps

variable {J : StringOps} {F : FloatOps} {C : Collation} {ids : List String} {s : Settlement}

/-- the lease goes -/
theorem SettlementInv.unlease (h : SettlementInv F C ids s) (active : Bool) :
    SettlementInv F C ids { s with lease := none, active := active } :=
  { h with
    latest := fun _ he => by cases he
    informed := fun _ _ _ he => by cases he
    persisting := fun t ht w hw => ⟨(h.persisting t ht w hw).1, fun he => by cases he⟩ }

theorem SettlementInv.release (h : SettlementInv F C ids s) (e : ℕ) : SettlementInv F C ids (s.release e) := by
  unfold Settlement.release
  split_ifs
  · exact h.unlease false
  · exact h

theorem acquire_inv (h : SettlementInv F C ids s) (active : Bool) :
    SettlementInv F C ids { s with fence := s.fence + 1, lease := some (s.fence + 1), active := active } := by
  have hfree : s.drivers (s.fence + 1) = none := h.known _ (Nat.lt_succ_self _)
  refine { h with latest := ?_, known := ?_, informed := ?_, persisting := ?_ }
  · intro e he
    exact (Option.some.inj he).symm
  · intro e he
    exact h.known e (Nat.lt_of_succ_lt he)
  · intro e m w he hm
    obtain rfl := Option.some.inj he
    rw [hfree] at hm
    cases hm
  · intro t ht w hw
    refine ⟨(h.persisting t ht w hw).1, ?_⟩
    intro he
    have hheld := h.held t ht
    rw [← Option.some.inj he, hfree] at hheld
    cases hheld

/-- a driver without a machine takes the stored one -/
theorem hydrate_inv (h : SettlementInv F C ids s) {e : ℕ} (he : s.lease = some e) {m : Machine}
    (hm : s.hydrate J e = some m) : SettlementInv F C ids (s.setDriver e (some m)) := by
  unfold hydrate at hm
  cases hd : s.drivers e with
  | some m' =>
    rw [hd] at hm
    have hsame : s.setDriver e (some m) = s := by
      rw [← Option.some.inj hm, ← hd, setDriver, Function.update_eq_self]
    rw [hsame]
    exact h
  | none =>
    rw [hd] at hm
    obtain ⟨b, hb, hok⟩ := Option.bind_eq_some_iff.1 hm
    obtain ⟨m₀, rfl, hsound, hnot, hfin⟩ := h.stored b hb
    have hrec : m = m₀.recovered := by
      cases hres : Machine.deserialize J (some m₀.serialize) with
      | error err =>
        rw [hres] at hok
        cases hok
      | ok m1 =>
        rw [hres] at hok
        obtain rfl := Option.some.inj hok
        exact deserialize_eq hsound.wire hres
    subst hrec
    have hother : ∀ t ∈ s.finishes, t.driver ≠ e := by
      intro t ht heq
      have hheld := h.held t ht
      rw [heq, hd] at hheld
      cases hheld
    have hkeep : ∀ t ∈ s.finishes, (s.setDriver e (some m₀.recovered)).drivers t.driver = s.drivers t.driver :=
      fun t ht => setDriver_of_ne s (hother t ht) _
    refine { h with known := ?_, sound := ?_, informed := ?_, held := ?_, persisting := ?_, settling := ?_ }
    · intro k hk
      have hne : k ≠ e := by
        rintro rfl
        rw [h.latest k he] at hk
        exact lt_irrefl _ hk
      exact (setDriver_of_ne s hne _).trans (h.known k hk)
    · intro k m1 hm1
      by_cases hke : k = e
      · subst hke
        rw [setDriver_self] at hm1
        rw [← Option.some.inj hm1]
        exact hsound.recovered
      · rw [setDriver_of_ne s hke] at hm1
        exact h.sound k m1 hm1
    · intro k m1 w hk hm1 hw
      obtain rfl := Option.some.inj (he.symm.trans hk)
      rw [setDriver_self] at hm1
      rw [← Option.some.inj hm1]
      exact hfin w hw
    · intro t ht
      rw [hkeep t ht]
      exact h.held t ht
    · intro t ht w hw
      rw [hkeep t ht]
      exact h.persisting t ht w hw
    · intro t ht w hw
      rw [hkeep t ht]
      exact h.settling t ht w hw

theorem recover_inv (h : SettlementInv F C ids s) : SettlementInv F C ids (s.recover J) := by
  unfold recover
  split
  · exact h
  · rename_i e he
    split
    · have hclean : SettlementInv F C ids { s with blob := none } :=
        { h with stored := fun _ hb => by cases hb }
      exact hclean.release e
    · rename_i m hm
      split_ifs
      · exact hydrate_inv h he hm
      · exact (hydrate_inv h he hm).release e

/-- a driver's machine is replaced by one that agrees with it about the end of the match -/
theorem SettlementInv.replace (h : SettlementInv F C ids s) {e : ℕ} {m m' : Machine} (hm : s.drivers e = some m)
    (hsound : Sound ids m') (hsame : ∀ w, FinishedAs m w → FinishedAs m' w) :
    SettlementInv F C ids (s.setDriver e (some m')) := by
  have hback : ∀ k m1, (s.setDriver e (some m')).drivers k = some m1 →
      ∃ m0, s.drivers k = some m0 ∧ ∀ w, FinishedAs m0 w → FinishedAs m1 w := by
    intro k m1 hm1
    by_cases hke : k = e
    · subst hke
      rw [setDriver_self] at hm1
      exact ⟨m, hm, (Option.some.inj hm1) ▸ hsame⟩
    · rw [setDriver_of_ne s hke] at hm1
      exact ⟨m1, hm1, fun _ hw => hw⟩
  refine { h with known := ?_, sound := ?_, informed := ?_, held := ?_, persisting := ?_, settling := ?_ }
  · intro k hk
    have hne : k ≠ e := by
      rintro rfl
      rw [h.known k hk] at hm
      cases hm
    exact (setDriver_of_ne s hne _).trans (h.known k hk)
  · intro k m1 hm1
    by_cases hke : k = e
    · subst hke
      rw [setDriver_self] at hm1
      rw [← Option.some.inj hm1]
      exact hsound
    · rw [setDriver_of_ne s hke] at hm1
      exact h.sound k m1 hm1
  · intro k m1 w hk hm1 hw
    obtain ⟨m0, hm0, hto⟩ := hback k m1 hm1
    exact hto w (h.informed k m0 w hk hm0 hw)
  · intro t ht
    by_cases hke : t.driver = e
    · rw [hke, setDriver_self]
      rfl
    · rw [setDriver_of_ne s hke]
      exact h.held t ht
  · intro t ht w hw
    refine ⟨?_, (h.persisting t ht w hw).2⟩
    intro m1 hm1
    obtain ⟨m0, hm0, hto⟩ := hback _ m1 hm1
    exact hto w ((h.persisting t ht w hw).1 m0 hm0)
  · intro t ht w hw
    obtain ⟨h1, h2, h3⟩ := h.settling t ht w hw
    refine ⟨h1, h2, ?_⟩
    intro m1 hm1
    obtain ⟨m0, hm0, hto⟩ := hback _ m1 hm1
    exact hto w (h3 m0 hm0)

/-- the lease holder stores a machine that changes nothing about the end of the match -/
theorem SettlementInv.persist_same (h : SettlementInv F C ids s) {e : ℕ} (he : s.lease = some e) {m : Machine}
    (hm : s.drivers e = some m) (hnot : s.persistedWinner = none → m.state.status ≠ .finished) :
    SettlementInv F C ids (s.persist e) := by
  have hwinner : (if m.state.status = .finished then some m.state.winnerId else s.persistedWinner) =
      s.persistedWinner := by
    cases hw : s.persistedWinner with
    | none => exact if_neg (hnot hw)
    | some w =>
      obtain ⟨hf, hwin⟩ := h.informed e m w he hm hw
      rw [if_pos hf, hwin]
  have hp : s.persist e = { s with blob := some m.serialize } := by
    simp only [Settlement.persist, hm, hwinner]
  rw [hp]
  refine { h with stored := ?_ }
  intro b hb
  exact ⟨m, (Option.some.inj hb).symm, h.sound e m hm, hnot, fun w hw => h.informed e m w he hm hw⟩

theorem play_inv (h : SettlementInv F C ids s) (e : ℕ) (o : Op) (ok : Bool) (hg : Undisturbed s (.play e o ok)) :
    SettlementInv F C ids (s.play J e o ok) := by
  unfold play
  split
  · exact h
  · rename_i m hm
    split_ifs with hp ha
    · -- the persist lands: the driver holds the lease
      have hplay := change_play (step_change J m o) hp
      have hrep := h.replace hm ((h.sound e m hm).step J o) fun w hw =>
        ⟨hplay.2.2 hw.1, hplay.1.trans hw.2⟩
      have hlease : s.lease = some e := by
        simp only [applies, Bool.and_eq_true, decide_eq_true_eq] at ha
        exact ha.2
      refine hrep.persist_same hlease (setDriver_self s e _) ?_
      intro hnone hfin
      have hall := hg ha hnone
      rw [hm] at hall
      simp only [Option.all_some, decide_eq_true_eq] at hall
      exact hall (hplay.2.1 hfin)
    · have hplay := change_play (step_change J m o) hp
      exact h.replace hm ((h.sound e m hm).step J o) fun w hw => ⟨hplay.2.2 hw.1, hplay.1.trans hw.2⟩
    · exact h

theorem crash_inv (h : SettlementInv F C ids s) (e : ℕ) (hg : Undisturbed s (.crash e)) :
    SettlementInv F C ids { s.setDriver e none with finishes := s.finishes.filter fun t => t.driver ≠ e } := by
  have hsub : ∀ t ∈ s.finishes.filter (fun t => t.driver ≠ e), t ∈ s.finishes ∧ t.driver ≠ e := by
    intro t ht
    simpa using List.mem_filter.1 ht
  have hback : ∀ k m, (s.setDriver e none).drivers k = some m → s.drivers k = some m := by
    intro k m hm
    by_cases hke : k = e
    · rw [hke, setDriver_self] at hm
      cases hm
    · rw [setDriver_of_ne s hke] at hm
      exact hm
  refine
    { latest := h.latest
      known := ?_
      sound := fun k m hm => h.sound k m (hback k m hm)
      stored := h.stored
      informed := fun k m w hk hm => h.informed k m w hk (hback k m hm)
      held := ?_
      single := h.single.sublist (List.filter_sublist.map _)
      persisting := fun t ht w hw =>
        ⟨fun m hm => (h.persisting t (hsub t ht).1 w hw).1 m (hback _ m hm), (h.persisting t (hsub t ht).1 w hw).2⟩
      settling := fun t ht w hw =>
        ⟨(h.settling t (hsub t ht).1 w hw).1, (h.settling t (hsub t ht).1 w hw).2.1, fun m hm =>
          (h.settling t (hsub t ht).1 w hw).2.2 m (hback _ m hm)⟩
      one := fun t ht t' ht' => h.one t (hsub t ht).1 t' (hsub t' ht').1
      releasing := fun t ht => h.releasing t (hsub t ht).1
      settled := ?_
      untouched := h.untouched }
  · intro k hk
    by_cases hke : k = e
    · rw [hke]
      exact setDriver_self s e none
    · exact (setDriver_of_ne s hke none).trans (h.known k hk)
  · intro t ht
    rw [show ({ s.setDriver e none with finishes := s.finishes.filter fun t => t.driver ≠ e } : Settlement).drivers =
      (s.setDriver e none).drivers from rfl, setDriver_of_ne s (hsub t ht).2]
    exact h.held t (hsub t ht).1
  · intro w hw
    rcases h.settled w hw with hdone | ⟨t, ht, hphase⟩
    · exact .inl hdone
    · -- the settling call is not the crashed driver's
      refine .inr ⟨t, List.mem_filter.2 ⟨ht, ?_⟩, hphase⟩
      simp only [ne_eq, decide_eq_true_eq]
      intro he
      have hno := hg t ht he
      rw [(settling_iff t).2 ⟨w, hphase⟩] at hno
      cases hno

/-- what a suspended call has to bring -/
structure Joins (F : FloatOps) (C : Collation) (s : Settlement) (t : FinishTask) : Prop where
  driver : (s.drivers t.driver).isSome
  fresh : ∀ t' ∈ s.finishes, t'.driver ≠ t.driver
  persisting : ∀ w, t.phase = .persist w →
    (∀ m, s.drivers t.driver = some m → FinishedAs m w) ∧ (s.lease = some t.driver → s.persistedWinner = none)
  settling : ∀ w, t.phase = .db w → s.persistedWinner = some w ∧ s.db.row.status ≠ .finished ∧
    (∀ m, s.drivers t.driver = some m → FinishedAs m w) ∧ ∀ t' ∈ s.finishes, t'.settling = false
  releasing : t.phase = .release → ∃ w, s.persistedWinner = some w ∧ Settled F C w s.db

theorem SettlementCore.join (h : SettlementCore F C ids s) {t : FinishTask} (ht : Joins F C s t) :
    SettlementCore F C ids { s with finishes := s.finishes ++ [t] } := by
  have hmem : ∀ t' ∈ s.finishes ++ [t], t' ∈ s.finishes ∨ t' = t := by
    intro t' ht'
    rw [List.mem_append, List.mem_singleton] at ht'
    exact ht'
  have hset : t.settling = true → ∀ t' ∈ s.finishes, t'.settling = false := by
    intro hs
    obtain ⟨w, hw⟩ := (settling_iff t).1 hs
    exact (ht.settling w hw).2.2.2
  refine { h with held := ?_, single := ?_, persisting := ?_, settling := ?_, one := ?_, releasing := ?_ }
  · intro t' ht'
    rcases hmem t' ht' with ht' | rfl
    · exact h.held t' ht'
    · exact ht.driver
  · rw [List.map_append, List.nodup_append]
    refine ⟨h.single, List.nodup_singleton _, ?_⟩
    intro a ha b hb
    obtain ⟨t', ht', rfl⟩ := List.mem_map.1 ha
    rw [List.map_singleton, List.mem_singleton] at hb
    rw [hb]
    exact ht.fresh t' ht'
  · intro t' ht' w hw
    rcases hmem t' ht' with ht' | rfl
    · exact h.persisting t' ht' w hw
    · exact ht.persisting w hw
  · intro t' ht' w hw
    rcases hmem t' ht' with ht' | rfl
    · exact h.settling t' ht' w hw
    · exact ⟨(ht.settling w hw).1, (ht.settling w hw).2.1, (ht.settling w hw).2.2.1⟩
  · intro t1 h1 t2 h2 hs1 hs2
    rcases hmem t1 h1 with h1' | rfl
    · rcases hmem t2 h2 with h2' | rfl
      · exact h.one t1 h1' t2 h2' hs1 hs2
      · rw [hset hs2 t1 h1'] at hs1
        cases hs1
    · rcases hmem t2 h2 with h2' | rfl
      · rw [hset hs1 t2 h2'] at hs2
        cases hs2
      · rfl
  · intro t' ht' hr
    rcases hmem t' ht' with ht' | rfl
    · exact h.releasing t' ht' hr
    · exact ht.releasing hr

/-- a call that neither persists nor settles joins the suspended ones -/
theorem SettlementInv.suspend (h : SettlementInv F C ids s) {t : FinishTask} (ht : Joins F C s t) :
    SettlementInv F C ids { s with finishes := s.finishes ++ [t] } := by
  refine { h.join ht with settled := ?_ }
  intro w hw
  rcases h.settled w hw with hdone | ⟨t', ht', hp⟩
  · exact .inl hdone
  · exact .inr ⟨t', List.mem_append_left _ ht', hp⟩

/-- the task that goes on leaves the suspended ones -/
theorem SettlementCore.erase (h : SettlementCore F C ids s) (i : ℕ) :
    SettlementCore F C ids { s with finishes := s.finishes.eraseIdx i } := by
  have hsub : ∀ t ∈ s.finishes.eraseIdx i, t ∈ s.finishes := fun t ht => List.mem_of_mem_eraseIdx ht
  exact
    { h with
      held := fun t ht => h.held t (hsub t ht)
      single := h.single.sublist ((List.eraseIdx_sublist _ i).map _)
      persisting := fun t ht => h.persisting t (hsub t ht)
      settling := fun t ht => h.settling t (hsub t ht)
      one := fun t ht t' ht' => h.one t (hsub t ht) t' (hsub t' ht')
      releasing := fun t ht => h.releasing t (hsub t ht) }

/-- no other call of its driver is suspended -/
theorem SettlementCore.alone (h : SettlementCore F C ids s) {i : ℕ} {t : FinishTask} (ht : s.finishes[i]? = some t) :
    ∀ t' ∈ s.finishes.eraseIdx i, t'.driver ≠ t.driver := by
  intro t' ht' heq
  obtain ⟨j, hne, hj⟩ := List.mem_eraseIdx_iff_getElem?.1 ht'
  have hlt : j < (s.finishes.map FinishTask.driver).length := by
    rw [List.length_map]
    exact (List.getElem?_eq_some_iff.1 hj).1
  refine hne ((List.getElem?_inj hlt h.single).1 ?_)
  rw [List.getElem?_map, List.getElem?_map, hj, ht, Option.map_some, Option.map_some, heq]

/-- any task but a settling one may be dropped -/
theorem SettlementInv.drop (h : SettlementInv F C ids s) {i : ℕ} {t : FinishTask} (ht : s.finishes[i]? = some t)
    (hs : t.settling = false) : SettlementInv F C ids { s with finishes := s.finishes.eraseIdx i } := by
  refine { h.erase i with settled := ?_ }
  intro w hw
  rcases h.settled w hw with hdone | ⟨t', ht', hp⟩
  · exact .inl hdone
  · refine .inr ⟨t', ?_, hp⟩
    obtain ⟨j, hj⟩ := List.mem_iff_getElem?.1 ht'
    refine List.mem_eraseIdx_iff_getElem?.2 ⟨j, ?_, hj⟩
    rintro rfl
    obtain rfl := Option.some.inj (ht.symm.trans hj)
    rw [(settling_iff t).2 ⟨w, hp⟩] at hs
    cases hs

theorem finishMatchLoop_inv (h : SettlementInv F C ids s) (e : ℕ) : SettlementInv F C ids (s.finishMatchLoop e) := by
  unfold finishMatchLoop
  split_ifs with hc
  · exact h.suspend ⟨hc.1, hc.2, nofun, nofun, nofun⟩
  · exact h

/-- the finish in memory: the driver that holds the lease has not stored a FINISHED blob yet -/
theorem finishLook_inv (h : SettlementInv F C ids s) (e : ℕ) (now : Clock)
    (hnew : ∀ t ∈ s.finishes, t.driver ≠ e) : SettlementInv F C ids (s.finishLook e now) := by
  unfold finishLook
  split
  · exact h
  · rename_i m hm
    split
    · -- the transition threw and changed nothing
      rename_i m1 err ht
      have hm1 : m1 = m := by
        unfold Machine.transition at ht
        split_ifs at ht
        · cases (Prod.mk.inj ht).2
        · exact (Prod.mk.inj ht).1.symm
      rw [hm1, ← hm, setDriver, Function.update_eq_self]
      exact h
    · rename_i m1 u ht
      obtain ⟨hnot, hfin, hsound⟩ := finished_machine (h.sound e m hm) ht
      have hrep := h.replace hm hsound fun w hw => absurd hw.1 hnot
      refine hrep.suspend ⟨?_, hnew, ?_, nofun, nofun⟩
      · rw [show (s.setDriver e (some (m1.finishMatch now))).drivers e = some (m1.finishMatch now) from
          setDriver_self s e _]
        rfl
      · rintro w ⟨⟩
        refine ⟨?_, ?_⟩
        · intro m2 hm2
          rw [setDriver_self] at hm2
          rw [← Option.some.inj hm2]
          exact ⟨hfin, rfl⟩
        · intro he
          cases hp : s.persistedWinner with
          | none => exact hp
          | some w => exact absurd (h.informed e m w he hm hp).1 hnot

/-- the FINISHED blob is stored, and its settlement is the next thing the call does -/
theorem finishPersist_inv (h : SettlementInv F C ids s) {e : ℕ} {w : Option String} {m : Machine}
    (hm : s.drivers e = some m) (hfin : FinishedAs m w) (hnone : s.persistedWinner = none)
    (hnew : ∀ t ∈ s.finishes, t.driver ≠ e) (he : s.lease = some e) :
    SettlementInv F C ids { s.persist e with finishes := s.finishes ++ [⟨e, .db w⟩] } := by
  have hp : s.persist e = { s with blob := some m.serialize, persistedWinner := some w } := by
    simp only [Settlement.persist, hm, hfin.1, hfin.2, if_true]
  have hquiet : ∀ t ∈ s.finishes, t.settling = false := by
    intro t ht
    by_contra hs
    rw [Bool.not_eq_false] at hs
    obtain ⟨w', hw'⟩ := (settling_iff t).1 hs
    rw [(h.settling t ht w' hw').1] at hnone
    cases hnone
  have hcore : SettlementCore F C ids (s.persist e) := by
    rw [hp]
    refine
      { h.toSettlementCore with
        stored := ?_
        informed := ?_
        persisting := ?_
        settling := ?_
        releasing := ?_
        untouched := ?_ }
    · intro b hb
      refine ⟨m, (Option.some.inj hb).symm, h.sound e m hm, ?_, ?_⟩
      · intro hn
        cases hn
      · rintro w' ⟨⟩
        exact hfin
    · rintro k m' w' hk hm' ⟨⟩
      obtain rfl := Option.some.inj (he.symm.trans hk)
      obtain rfl := Option.some.inj (hm.symm.trans hm')
      exact hfin
    · intro t ht w' hw'
      refine ⟨(h.persisting t ht w' hw').1, ?_⟩
      intro hk
      exact absurd (Option.some.inj (he.symm.trans hk)).symm (hnew t ht)
    · intro t ht w' hw'
      have hs := hquiet t ht
      rw [(settling_iff t).2 ⟨w', hw'⟩] at hs
      cases hs
    · intro t ht hr
      obtain ⟨w', hw', -⟩ := h.releasing t ht hr
      rw [hnone] at hw'
      cases hw'
    · intro hn
      cases hn
  have hfinishes : (s.persist e).finishes = s.finishes := by rw [hp]
  have hjoin : Joins F C (s.persist e) ⟨e, .db w⟩ := by
    rw [hp]
    refine ⟨?_, hnew, nofun, ?_, nofun⟩
    · rw [show ({ s with blob := some m.serialize, persistedWinner := some w } : Settlement).drivers e = some m from hm]
      rfl
    · rintro w' ⟨⟩
      refine ⟨rfl, h.untouched hnone, ?_, hquiet⟩
      intro m' hm'
      obtain rfl := Option.some.inj (hm.symm.trans hm')
      exact hfin
  have hjoined := hcore.join hjoin
  rw [hfinishes] at hjoined
  refine { hjoined with settled := ?_ }
  intro w' hw'
  have hw : (s.persist e).persistedWinner = some w := by rw [hp]
  obtain rfl := Option.some.inj (hw.symm.trans hw')
  exact .inr ⟨⟨e, .db w⟩, by simp, rfl⟩

/-- the claim of an unfinished match by a normal finish -/
theorem finishTransaction_settles {db : Db} {m : Machine} {w : Option String} (hs : db.row.status ≠ .finished)
    (hsound : Sound ids m) (hne : ids ≠ []) (hfin : FinishedAs m w) (matchId : String) (now : Time) :
    ∃ db', finishTransaction F C matchId db ⟨w, false, some (getPlayerScores m)⟩ (some m) now = .ok (db', true) ∧
      Settled F C w db' := by
  have hscores := hsound.scores hne
  refine ⟨{ applyScoreUpdates F C (db.claim ⟨w, now, true⟩) m (getPlayerScores m) with roomFinished := true }, ?_, ?_⟩
  · simp only [finishTransaction, if_neg hs, buildScoreUpdateOps, Option.bind_some, Option.getD_some, if_neg hscores]
    rfl
  · refine ⟨⟨now, ?_⟩, db, m, now, hfin.1, hfin.2, rfl⟩
    exact (scoreUpdates_frame F C (db.claim ⟨w, now, true⟩) m (getPlayerScores m)).1

/-- the settling call commits -/
theorem finishDb_inv (h : SettlementInv F C ids s) (hne : ids ≠ []) {i : ℕ} {e : ℕ} {w : Option String}
    (ht : s.finishes[i]? = some ⟨e, .db w⟩) (now : Time) :
    SettlementInv F C ids ({ s with finishes := s.finishes.eraseIdx i }.finishDb F C e w now) := by
  have hmem := List.mem_of_getElem? ht
  obtain ⟨hw, hopen, hfin⟩ := h.settling _ hmem w rfl
  obtain ⟨m, hm⟩ := Option.isSome_iff_exists.1 (h.held _ hmem)
  have hm' : s.drivers e = some m := hm
  obtain ⟨db', hdb, hsettled⟩ := finishTransaction_settles (F := F) (C := C) hopen (h.sound e m hm') hne (hfin m hm)
    m.state.id now
  have hheld : (s.drivers e).isSome := h.held _ hmem
  have halone := h.alone ht
  have hcore := h.erase i
  -- the settling call was the only one
  have hquiet : ∀ t ∈ s.finishes.eraseIdx i, t.settling = false := by
    intro t ht'
    by_contra hs
    rw [Bool.not_eq_false] at hs
    have heq := h.one t (List.mem_of_mem_eraseIdx ht') _ hmem hs rfl
    exact halone t ht' (by rw [heq])
  have hnext : SettlementCore F C ids
      { s with
        db := db'
        blob := if s.lease = some e then none else s.blob
        finishes := s.finishes.eraseIdx i } := by
    refine
      { hcore with
        stored := ?_
        settling := ?_
        releasing := ?_
        untouched := ?_ }
    · intro b hb
      by_cases hl : s.lease = some e
      · rw [if_pos hl] at hb
        cases hb
      · rw [if_neg hl] at hb
        exact h.stored b hb
    · intro t ht' w' hw'
      have hs := hquiet t ht'
      rw [(settling_iff t).2 ⟨w', hw'⟩] at hs
      cases hs
    · intro t ht' _
      exact ⟨w, hw, hsettled⟩
    · intro hn
      rw [hw] at hn
      cases hn
  have hjoin := hnext.join (t := ⟨e, .release⟩) ⟨hheld, halone, nofun, nofun, fun _ => ⟨w, hw, hsettled⟩⟩
  unfold finishDb
  simp only [hm', hdb, Bool.true_and, decide_eq_true_eq]
  refine { hjoin with settled := ?_ }
  intro w' hw'
  obtain rfl := Option.some.inj (hw.symm.trans hw')
  exact .inl hsettled

theorem continueFinish_inv (h : SettlementInv F C ids s) (hne : ids ≠ []) (i : ℕ) (ok : Bool) (now : Clock)
    (hg : Undisturbed s (.continueFinish i ok now)) : SettlementInv F C ids (s.step J F C (.continueFinish i ok now)) := by
  simp only [step]
  split
  · exact h
  · rename_i t ht
    have hmem := List.mem_of_getElem? ht
    have halone := h.alone ht
    obtain ⟨e, phase⟩ := t
    have hheld : (s.drivers e).isSome := h.held _ hmem
    have hlease : ∀ s' : Settlement, s'.applies e ok = true → s'.lease = some e := by
      intro s' ha
      simp only [applies, Bool.and_eq_true, decide_eq_true_eq] at ha
      exact ha.2
    cases phase with
    | assert =>
      have hdrop := h.drop ht rfl
      simp only [continueFinish]
      split_ifs
      · exact hdrop.suspend ⟨hheld, halone, nofun, nofun, nofun⟩
      · exact hdrop
    | get =>
      have hdrop := h.drop ht rfl
      simp only [continueFinish]
      split_ifs
      · exact finishLook_inv hdrop e now halone
      · exact hdrop
    | persist w =>
      have hdrop := h.drop ht rfl
      simp only [continueFinish]
      split_ifs with ha
      · obtain ⟨m, hm⟩ := Option.isSome_iff_exists.1 hheld
        obtain ⟨hfin, hnone⟩ := h.persisting _ hmem w rfl
        have hl : s.lease = some e := hlease _ ha
        exact finishPersist_inv hdrop hm (hfin m hm) (hnone hl) halone hl
      · exact hdrop
    | db w =>
      have hok : ok = true := hg _ ht rfl
      rw [hok]
      exact finishDb_inv h hne ht (now 0)
    | release => exact (h.drop ht rfl).release e

theorem step_settlementInv (hne : ids ≠ []) (s : Settlement) (o : SettlementOp) (hg : Undisturbed s o)
    (h : SettlementInv F C ids s) : SettlementInv F C ids (s.step J F C o) := by
  cases o with
  | acquire =>
    simp only [step]
    split_ifs
    · exact acquire_inv h true
    · exact h
  | expire => exact h.unlease s.active
  | recover => exact recover_inv h
  | play e o ok => exact play_inv h e o ok hg
  | crash e => exact crash_inv h e hg
  | finishMatchLoop e => exact finishMatchLoop_inv h e
  | continueFinish i ok now => exact continueFinish_inv h hne i ok now hg

/-- a step that releases the match meets a settled one -/
theorem release_settled (h : SettlementInv F C ids s) (o : SettlementOp) (hg : Undisturbed s o)
    (hr : s.releases J o = true) (w : Option String) (hw : s.persistedWinner = some w) : Settled F C w s.db := by
  cases o with
  | recover =>
    rcases h.settled w hw with hdone | ⟨t, ht, hp⟩
    · exact hdone
    · have hno := hg t ht
      rw [(settling_iff t).2 ⟨w, hp⟩] at hno
      cases hno
  | continueFinish i ok now =>
    obtain ⟨t, ht, hp⟩ := (Option.any_eq_true _ _).1 hr
    obtain ⟨w', hw', hdone⟩ := h.releasing t (List.mem_of_getElem? ht) (by simpa using hp)
    obtain rfl := Option.some.inj (hw.symm.trans hw')
    exact hdone
  | _ => cases hr

end Steps

theorem launch_inv (F : FloatOps) (C : Collation) {ids : List String} {m : Machine} (hsound : Sound ids m)
    (hm : m.state.status ≠ .finished) (db : Db) (hdb : db.row.status ≠ .finished) :
    SettlementInv F C ids (launch m db) := by
  have hdrivers : ∀ e m', (launch m db).drivers e = some m' → m' = m := by
    intro e m' he
    simp only [launch] at he
    split_ifs at he
    exact (Option.some.inj he).symm
  refine
    { latest := fun e he => (Option.some.inj he).symm
      known := ?_
      sound := fun e m' he => hdrivers e m' he ▸ hsound
      stored := fun b hb => ⟨m, (Option.some.inj hb).symm, hsound, fun _ => hm, fun _ hw => by cases hw⟩
      informed := fun _ _ _ _ _ hw => by cases hw
      held := fun _ ht => by cases ht
      single := List.nodup_nil
      persisting := fun _ ht => by cases ht
      settling := fun _ ht => by cases ht
      one := fun _ ht => by cases ht
      releasing := fun _ ht => by cases ht
      untouched := fun _ => hdb
      settled := fun _ hw => by cases hw }
  intro e he
  have hgt : 1 < e := he
  exact if_neg (Nat.ne_of_gt hgt)

/-- **A finished match is settled before it is released.** In every run of one match, with leases expiring and taken over,
drivers crashing and persists failing, in which nothing falls between the persist of the FINISHED blob and the
transaction that settles it: whenever a step drops the runtime of the match and releases it after a FINISHED blob was
stored, the database row is FINISHED with the winner of that blob, and the scores and ratings are booked. -/
theorem finished_match_settled (J : StringOps) (F : FloatOps) (C : Collation) (matchId roomId : String)
    (players : List PlayerInfo) (hd : (players.map PlayerInfo.id).Nodup) (hne : players ≠ [])
    (users : String → Option ℤ) (hfk : ∀ u ∈ players.map PlayerInfo.id, (users u).isSome) (ops : List SettlementOp)
    (hg : Along (step J F C) Undisturbed (launch (Machine.create matchId roomId players)
      (Db.created (players.map PlayerInfo.id) users hfk)) ops) :
    Along (step J F C)
      (fun s o => s.releases J o = true → ∀ w, s.persistedWinner = some w → Settled F C w s.db)
      (launch (Machine.create matchId roomId players) (Db.created (players.map PlayerInfo.id) users hfk)) ops := by
  have hids : players.map PlayerInfo.id ≠ [] := by simpa using hne
  refine along_of_inv (step J F C) Undisturbed _ (SettlementInv F C (players.map PlayerInfo.id))
    (fun s o ho hs => step_settlementInv hids s o ho hs) (fun s o ho hs hr w hw => release_settled hs o ho hr w hw)
    _ ops hg ?_
  exact launch_inv F C ⟨wireInv_create matchId roomId players hd, create_keys matchId roomId players hd⟩ nofun _ nofun

/-- one round that alice wins, and her match's finish up to the persist of the FINISHED blob -/
def wonByAlice : List SettlementOp :=
  [.play 1 (.transition .countdown fun _ => 0) true, .play 1 (.transition .roundActive fun _ => 0) true,
    .play 1 (.startRound ⟨"q1", "2 + 2?", ["3", "4", "5", "6"], "4", none⟩ none fun _ => 0) true,
    .play 1 (.submitAnswer "alice" "b" 100 none fun _ => 100) true,
    .play 1 (.transition .roundEvaluating fun _ => 15000) true, .play 1 (.evaluateRound fun _ => 15000) true,
    .finishMatchLoop 1, .continueFinish 0 true fun _ => 15000, .continueFinish 0 true fun _ => 15000,
    .continueFinish 0 true fun _ => 15000]

/-- the two players of the examples, with their ratings -/
def twoRated : String → Option ℤ := fun u => if u = "alice" ∨ u = "bob" then some 1200 else none

def twoPlayers : List PlayerInfo := [freshPlayer "alice", freshPlayer "bob"]

theorem twoRated_fk : ∀ u ∈ twoPlayers.map PlayerInfo.id, (twoRated u).isSome := by decide

/-- the launched match of the two players -/
def twoLaunched : Settlement :=
  launch (Machine.create "m1" "r1" twoPlayers) (Db.created (twoPlayers.map PlayerInfo.id) twoRated twoRated_fk)

/-- undisturbed, the match is settled for alice when its finish releases it -/
theorem finished_match_settled_alice :
    let ops := wonByAlice ++ [.continueFinish 0 true fun _ => 15100, .continueFinish 0 true fun _ => 15200]
    let s := run (step StringOps.ascii FloatOps.exact Collation.codeUnits) twoLaunched
      (wonByAlice ++ [.continueFinish 0 true fun _ => 15100])
    s.releases StringOps.ascii (.continueFinish 0 true fun _ => 15200) = true ∧
      (run (step StringOps.ascii FloatOps.exact Collation.codeUnits) twoLaunched ops).active = false ∧
      Settled FloatOps.exact Collation.codeUnits (some "alice") s.db := by
  intro ops s
  have hr : s.releases StringOps.ascii (.continueFinish 0 true fun _ => 15200) = true := by decide +kernel
  have hw : s.persistedWinner = some (some "alice") := by decide +kernel
  have hg : Along (step StringOps.ascii FloatOps.exact Collation.codeUnits) Undisturbed twoLaunched ops := by
    decide +kernel
  refine ⟨hr, by decide +kernel, ?_⟩
  have hall := finished_match_settled StringOps.ascii FloatOps.exact Collation.codeUnits "m1" "r1" twoPlayers (by decide)
    (by decide) twoRated twoRated_fk ops hg
  have hsplit : ops = (wonByAlice ++ [.continueFinish 0 true fun _ => 15100]) ++
      [.continueFinish 0 true fun _ => 15200] := rfl
  rw [hsplit, along_append] at hall
  exact hall.2.1 hr (some "alice") hw

/-- the driver dies after the FINISHED blob is stored: the next one releases the match, and its row stays CREATED -/
theorem crash_loses_results :
    let s := run (step StringOps.ascii FloatOps.exact Collation.codeUnits) twoLaunched
      (wonByAlice ++ [.crash 1, .expire, .acquire])
    s.persistedWinner = some (some "alice") ∧ s.releases StringOps.ascii .recover = true ∧
      (s.step StringOps.ascii FloatOps.exact Collation.codeUnits .recover).active = false ∧
      s.db.row = ⟨.created, none, none⟩ ∧ s.db.increments "alice" = [] ∧
      ¬ Settled FloatOps.exact Collation.codeUnits (some "alice") s.db := by
  intro s
  have hrow : s.db.row = ⟨.created, none, none⟩ := by decide +kernel
  refine ⟨by decide +kernel, by decide +kernel, by decide +kernel, hrow, by decide +kernel, ?_⟩
  rintro ⟨⟨now, hnow⟩, -⟩
  rw [hrow] at hnow
  cases hnow

end Settlement

end Arena.Api
