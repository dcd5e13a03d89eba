/-
The recovery of one match on one node (`match-ownership.service.ts`).

A match found at boot, by the sweep or by a retry timer is taken over in one attempt: the lease, the stored state, the
lease again, the loop. Every Redis call may answer anything or throw; every `await` is a step boundary, and a launch, a
lost lease or a finalization may come in between. A failed attempt is made again with backoff, and the match is
dead-lettered when the retries are exhausted.

`armed` lists the delays of the retries armed since the last clear. It is not part of the program's state, and no step
reads it.

- `scheduleRecoveryRetry_covers`: a failed attempt leaves a timer or a finalization;
- `step_recoveryInv`: every step keeps an owned match in somebody's care;
- `recovery_never_forgets`: over every run in which the room of a match is found.
-/
import Arena.Lib.Run
import Arena.Shared.State

namespace Arena.Api

open Arena.Lib Arena.Shared

/-! ## Model -/

def recoveryMaxRetries : ℕ := 5

/-- an `OwnedEntry` object -/
structure OwnedMatch where
  id : ℕ
  roomId : String
deriving DecidableEq

structure RetryContext where
  count : ℕ
  timer : Option Time
deriving DecidableEq

/-- where an `attemptRecovery` waits; `stale` when it holds an entry whose lease is lost -/
inductive AttemptAwait where
  | renewing (entry : OwnedMatch)
  | acquiring (stale : Bool)
  /-- the index of a tombstoned match is being cleaned -/
  | droppingIndex (stale : Bool)
  /-- `acquireForRecovery` has returned "acquired" -/
  | acquired
  | hydrating
  | cleaning
  | releasing
  | revalidating (roomId : String)
  | lookingUp
  | resuming (id : ℕ)
deriving DecidableEq

/-- an attempt that did not find the match unowned -/
def AttemptAwait.cares : AttemptAwait → Bool
  | .acquiring stale => stale
  | .droppingIndex stale => stale
  | _ => true

/-- where a `finalizeTerminal` of its own waits -/
inductive DeadLetterAwait where
  | finalizing
  | releasing
deriving DecidableEq

inductive RecoveryReply where
  | failed
  | held (held : Bool)
  /-- `acquireMatchLease` gives a lease; null is any other answer -/
  | acquired
  | terminal
  /-- the hydrated state, with its room id -/
  | state (roomId : Option String)
  | room (roomId : Option String)
  | finalized
  | done

def RecoveryReply.isRoom : RecoveryReply → Bool
  | .room _ => true
  | _ => false

structure Recovery where
  owned : Option OwnedMatch
  /-- the next entry object -/
  nextEntry : ℕ
  /-- the entries whose loop was started -/
  driven : List ℕ
  /-- `recovering` has the match -/
  recovering : Bool
  attempts : List AttemptAwait
  retries : Option RetryContext
  deadLetters : List DeadLetterAwait
  /-- the socket server is wired -/
  server : Bool
  pendingRecovery : ℕ
  clock : Time
  armed : List Time

namespace Recovery

def init : Recovery := ⟨none, 0, [], false, [], none, [], false, 0, 0, []⟩

/-- `owned.set` with a new entry -/
def own (s : Recovery) (roomId : String) : Recovery :=
  { s with owned := some ⟨s.nextEntry, roomId⟩, nextEntry := s.nextEntry + 1 }

def disown (s : Recovery) : Recovery := { s with owned := none }

def clearRecoveryRetry (s : Recovery) : Recovery := { s with retries := none, armed := [] }

/-- the end of a finalization, whatever it returned -/
def finalizeEnd (s : Recovery) : Recovery := s.disown.clearRecoveryRetry

def retryDelay (count : ℕ) : Time := min (1000 * 2 ^ (count - 1)) 8000

/-- `finalizeTerminal(matchId, "dead-letter")` up to its first await -/
def deadLetter (s : Recovery) : Recovery :=
  match s.owned with
  | none => s.clearRecoveryRetry
  | some _ => { s with deadLetters := s.deadLetters ++ [.finalizing] }

def scheduleRecoveryRetry (s : Recovery) : Recovery :=
  let ctx := s.retries.getD ⟨0, none⟩
  if ctx.timer.isSome then s
  else if recoveryMaxRetries ≤ ctx.count then s.deadLetter
  else
    let delay := retryDelay (ctx.count + 1)
    { s with retries := some ⟨ctx.count + 1, some (s.clock + delay)⟩, armed := s.armed ++ [delay] }

/-! ### One attempt -/

def attemptRecovery (s : Recovery) : Recovery :=
  if s.recovering then s
  else
    { s with
      recovering := true
      attempts := s.attempts ++ [match s.owned with
        | some entry => .renewing entry
        | none => .acquiring false] }

/-- the attempt is over -/
def ends (s : Recovery) (i : ℕ) : Recovery := { s with recovering := false, attempts := s.attempts.eraseIdx i }

def waits (s : Recovery) (i : ℕ) (a : AttemptAwait) : Recovery := { s with attempts := s.attempts.set i a }

/-- a new entry, and `resumeMatchLoop` -/
def resumeRecoveryLoop (s : Recovery) (i : ℕ) (roomId : String) : Recovery :=
  (s.own roomId).waits i (.resuming s.nextEntry)

/-- `finalizeTerminal(matchId, "cleaned")` up to its first await -/
def clean (s : Recovery) (i : ℕ) : Recovery :=
  match s.owned with
  | none => s.clearRecoveryRetry.ends i
  | some _ => s.waits i .cleaning

def continueAttempt (s : Recovery) (i : ℕ) (reply : RecoveryReply) : AttemptAwait → Recovery
  | .renewing _ =>
    match reply with
    | .held true => s.waits i .hydrating
    | .held false => s.waits i (.acquiring true)
    | _ => s.scheduleRecoveryRetry.ends i
  | .acquiring stale =>
    match reply with
    | .acquired => (s.own "").waits i .acquired
    | .terminal => s.waits i (.droppingIndex stale)
    | _ => if stale then s.disown.ends i else s.ends i
  | .droppingIndex stale => if stale then s.disown.clearRecoveryRetry.ends i else s.clearRecoveryRetry.ends i
  | .acquired => if s.owned.isSome then s.waits i .hydrating else s.ends i
  | .hydrating =>
    match reply with
    | .state (some roomId) => s.waits i (.revalidating roomId)
    | .state none => s.clean i
    | _ => s.scheduleRecoveryRetry.ends i
  | .cleaning =>
    match reply with
    | .finalized => s.waits i .releasing
    | _ => s.finalizeEnd.ends i
  | .releasing => s.finalizeEnd.ends i
  | .revalidating roomId =>
    match reply with
    | .held true => if roomId ≠ "" then s.resumeRecoveryLoop i roomId else s.waits i .lookingUp
    | .held false => s.disown.ends i
    | _ => s.scheduleRecoveryRetry.ends i
  | .lookingUp =>
    match reply with
    | .room roomId => s.resumeRecoveryLoop i (roomId.getD "")
    | _ => s.ends i
  | .resuming id =>
    match reply with
    | .done => { s with driven := id :: s.driven }.clearRecoveryRetry.ends i
    | _ => s.scheduleRecoveryRetry.ends i

inductive RecoveryOp where
  /-- `recoverOnBoot` reaches the match, and its state is there -/
  | boot
  | setServer
  /-- `orphanSweep` reaches the match -/
  | sweep
  | fireRetry
  | resume (i : ℕ) (reply : RecoveryReply)
  | resumeDeadLetter (i : ℕ) (reply : RecoveryReply)
  /-- `acquireOnLaunch` succeeds, and the launch drives the match -/
  | launched (roomId : String)
  /-- the lease is lost or unproven at a heartbeat or a boundary -/
  | relinquish
  | release
  | advance (ms : Time)

def fireRetry (s : Recovery) : Recovery :=
  match s.retries with
  | some ⟨count, some due⟩ =>
    if due ≤ s.clock then { s with retries := some ⟨count, none⟩ }.attemptRecovery else s
  | _ => s

def continueDeadLetter (s : Recovery) (i : ℕ) (reply : RecoveryReply) : DeadLetterAwait → Recovery
  | .finalizing =>
    match reply with
    | .finalized => { s with deadLetters := s.deadLetters.set i .releasing }
    | _ => { s with deadLetters := s.deadLetters.eraseIdx i }.finalizeEnd
  | .releasing => { s with deadLetters := s.deadLetters.eraseIdx i }.finalizeEnd

def step (s : Recovery) : RecoveryOp → Recovery
  | .boot => if s.server then s.attemptRecovery else { s with pendingRecovery := s.pendingRecovery + 1 }
  | .setServer =>
    let wired := { s with server := true, pendingRecovery := 0 }
    if s.pendingRecovery = 0 then wired else wired.attemptRecovery
  | .sweep => if s.server ∧ s.owned = none then s.attemptRecovery else s
  | .fireRetry => s.fireRetry
  | .resume i reply =>
    match s.attempts[i]? with
    | some a => s.continueAttempt i reply a
    | none => s
  | .resumeDeadLetter i reply =>
    match s.deadLetters[i]? with
    | some a => s.continueDeadLetter i reply a
    | none => s
  | .launched roomId => { s.own roomId with driven := s.nextEntry :: s.driven }
  | .relinquish => if s.owned.isSome then { s.disown with driven := [] } else s
  | .release => s.disown
  | .advance ms => { s with clock := s.clock + max ms 0 }

/-! ## Statement -/

/-- a retry is armed -/
def retryArmed (s : Recovery) : Bool := s.retries.any fun ctx => ctx.timer.isSome

/-- the loop of the entry was started, or an attempt, a retry or a finalization of the match is pending -/
def InCare (s : Recovery) (entry : OwnedMatch) : Prop :=
  entry.id ∈ s.driven ∨ s.attempts ≠ [] ∨ s.retryArmed = true ∨ s.deadLetters ≠ []

/-- the lookup of a room id does not throw; a stored state names its room, so none is made -/
def FindsRoom (s : Recovery) : RecoveryOp → Prop
  | .resume i reply => s.attempts[i]? = some .lookingUp → reply.isRoom = true
  | _ => True

instance (s : Recovery) : (o : RecoveryOp) → Decidable (FindsRoom s o)
  | .resume i reply => inferInstanceAs (Decidable (s.attempts[i]? = some .lookingUp → reply.isRoom = true))
  | .boot => .isTrue trivial
  | .setServer => .isTrue trivial
  | .sweep => .isTrue trivial
  | .fireRetry => .isTrue trivial
  | .resumeDeadLetter _ _ => .isTrue trivial
  | .launched _ => .isTrue trivial
  | .relinquish => .isTrue trivial
  | .release => .isTrue trivial
  | .advance _ => .isTrue trivial

/-- the delays of the retries -/
def backoff : List Time := [1000, 2000, 4000, 8000, 8000]

/-! ## Retries -/

/-- the retries armed since the last clear are counted, and have the delays of the backoff -/
structure Counted (s : Recovery) : Prop where
  count : (s.retries.map RetryContext.count).getD 0 = s.armed.length
  delays : s.armed = backoff.take s.armed.length
  few : s.armed.length ≤ recoveryMaxRetries

theorem Counted.clear (s : Recovery) : Counted s.clearRecoveryRetry := ⟨rfl, rfl, Nat.zero_le _⟩

theorem Counted.of_same {s s' : Recovery} (h : Counted s) (hr : s'.retries = s.retries) (ha : s'.armed = s.armed) :
    Counted s' := ⟨by rw [hr, ha]; exact h.count, by rw [ha]; exact h.delays, by rw [ha]; exact h.few⟩

/-- one delay more -/
theorem backoff_take {n : ℕ} (hn : n < recoveryMaxRetries) :
    backoff.take n ++ [retryDelay (n + 1)] = backoff.take (n + 1) := by
  have hfive : n < 5 := hn
  interval_cases n <;> decide +kernel

/-- the parts a schedule leaves alone -/
structure SameCare (s s' : Recovery) : Prop where
  owned : s'.owned = s.owned
  driven : s'.driven = s.driven
  recovering : s'.recovering = s.recovering
  attempts : s'.attempts = s.attempts

theorem scheduleRecoveryRetry_same (s : Recovery) : SameCare s s.scheduleRecoveryRetry := by
  unfold scheduleRecoveryRetry deadLetter
  simp only []
  split_ifs
  · exact ⟨rfl, rfl, rfl, rfl⟩
  · split <;> exact ⟨rfl, rfl, rfl, rfl⟩
  · exact ⟨rfl, rfl, rfl, rfl⟩

/-- **A failed attempt leaves a timer or a finalization**, while the match is owned. -/
theorem scheduleRecoveryRetry_covers (s : Recovery) {entry : OwnedMatch} (h : s.owned = some entry) :
    s.scheduleRecoveryRetry.retryArmed = true ∨ s.scheduleRecoveryRetry.deadLetters ≠ [] := by
  unfold scheduleRecoveryRetry
  simp only []
  split_ifs with ht hn
  · left
    unfold retryArmed
    cases hr : s.retries with
    | none =>
      rw [hr] at ht
      cases ht
    | some ctx =>
      rw [hr] at ht
      exact ht
  · right
    unfold deadLetter
    rw [h]
    simp
  · exact .inl rfl

theorem scheduleRecoveryRetry_counted {s : Recovery} (h : Counted s) : Counted s.scheduleRecoveryRetry := by
  have hcount : (s.retries.getD ⟨0, none⟩).count = s.armed.length := by
    have hc := h.count
    cases hr : s.retries with
    | none =>
      rw [hr] at hc
      exact hc
    | some ctx =>
      rw [hr] at hc
      exact hc
  unfold scheduleRecoveryRetry
  simp only []
  split_ifs with ht hn
  · exact h
  · unfold deadLetter
    split
    · exact .clear s
    · exact h.of_same rfl rfl
  · rw [hcount] at hn
    have hlt : s.armed.length < recoveryMaxRetries := Nat.lt_of_not_le hn
    refine ⟨?_, ?_, ?_⟩
    · simp [hcount]
    · simp only [List.length_append, List.length_singleton, hcount]
      exact (congrArg (· ++ [retryDelay (s.armed.length + 1)]) h.delays).trans (backoff_take hlt)
    · simp only [List.length_append, List.length_singleton]
      exact hlt

/-- a finalization is started by an attempt that fails after the last retry -/
theorem scheduleRecoveryRetry_deadLetters {s : Recovery} (h : Counted s)
    (hd : s.scheduleRecoveryRetry.deadLetters ≠ s.deadLetters) : s.armed = backoff ∧ s.retryArmed = false := by
  unfold scheduleRecoveryRetry at hd
  simp only [] at hd
  split_ifs at hd with ht hn
  · exact absurd rfl hd
  · have hc := h.count
    cases hr : s.retries with
    | none =>
      rw [hr] at hn
      exact absurd hn (by decide)
    | some ctx =>
      rw [hr] at hn ht hc
      have hfive : s.armed.length = 5 := le_antisymm h.few (hn.trans (le_of_eq hc))
      refine ⟨?_, ?_⟩
      · rw [h.delays, hfive]
        rfl
      · simp only [retryArmed, hr, Option.any_some]
        simpa using ht
  · exact absurd rfl hd

/-! ## Care -/

structure RecoveryInv (s : Recovery) : Prop where
  single : s.attempts.length = s.recovering.toNat
  care : ∀ entry, s.owned = some entry →
    entry.id ∈ s.driven ∨ (∃ a ∈ s.attempts, a.cares = true) ∨ s.retryArmed = true ∨ s.deadLetters ≠ []
  /-- who takes the match over while an attempt has found it unowned is a launch -/
  foreign : (∃ a ∈ s.attempts, a.cares = false) → ∀ entry, s.owned = some entry → entry.id ∈ s.driven
  /-- and while a loop is being resumed, too -/
  resuming : ∀ id, .resuming id ∈ s.attempts → ∀ entry, s.owned = some entry → entry.id = id ∨ entry.id ∈ s.driven
  counted : Counted s

theorem recoveryInv_init : RecoveryInv init :=
  ⟨rfl, by simp [init], by simp [init], by simp [init], ⟨rfl, rfl, by decide⟩⟩

namespace RecoveryInv

variable {s s' : Recovery} {a b : AttemptAwait} {i : ℕ}

/-- there is one attempt at most -/
theorem single_attempt (h : RecoveryInv s) (ha : s.attempts[i]? = some a) :
    i = 0 ∧ s.attempts = [a] ∧ s.recovering = true := by
  have hlen := h.single
  obtain ⟨hi, hget⟩ := List.getElem?_eq_some_iff.1 ha
  cases hr : s.recovering with
  | false =>
    rw [hr] at hlen
    simp only [Bool.toNat_false] at hlen
    omega
  | true =>
    rw [hr] at hlen
    obtain ⟨x, hx⟩ := List.length_eq_one_iff.1 hlen
    have hzero : i = 0 := by
      rw [hx] at hi
      simpa using hi
    subst hzero
    refine ⟨rfl, ?_, rfl⟩
    rw [hx] at ha
    rw [hx, Option.some.inj ha]

/-- an attempt has the match in its care -/
theorem attempt_cares (ha : s.attempts = [a]) (hr : s.recovering = true) (hc : a.cares = true)
    (hid : ∀ id, a = .resuming id → ∀ entry, s.owned = some entry → entry.id = id ∨ entry.id ∈ s.driven)
    (hn : Counted s) : RecoveryInv s where
  single := by rw [ha, hr]; rfl
  care := fun _ _ => .inr (.inl ⟨a, by rw [ha]; exact List.mem_cons_self, hc⟩)
  foreign := by
    rintro ⟨x, hx, hx'⟩
    rw [ha] at hx
    rw [List.mem_singleton.1 hx, hc] at hx'
    cases hx'
  resuming := by
    intro id hx
    rw [ha] at hx
    exact hid id (List.mem_singleton.1 hx).symm
  counted := hn

/-- no attempt, and the match is not owned -/
theorem not_owned (ha : s.attempts = []) (hr : s.recovering = false) (ho : s.owned = none) (hn : Counted s) :
    RecoveryInv s where
  single := by rw [ha, hr]; rfl
  care := fun entry he => by rw [ho] at he; cases he
  foreign := fun _ entry he => by rw [ho] at he; cases he
  resuming := fun _ _ entry he => by rw [ho] at he; cases he
  counted := hn

/-- no attempt, and an owned match is in other care -/
theorem cared_otherwise (ha : s.attempts = []) (hr : s.recovering = false)
    (ho : ∀ entry, s.owned = some entry → entry.id ∈ s.driven ∨ s.retryArmed = true ∨ s.deadLetters ≠ [])
    (hn : Counted s) : RecoveryInv s where
  single := by rw [ha, hr]; rfl
  care := by
    intro entry he
    rcases ho entry he with hx | hx | hx
    · exact .inl hx
    · exact .inr (.inr (.inl hx))
    · exact .inr (.inr (.inr hx))
  foreign := by
    rintro ⟨x, hx, -⟩
    rw [ha] at hx
    cases hx
  resuming := by
    intro id hx
    rw [ha] at hx
    cases hx
  counted := hn

/-- the attempt fails -/
theorem failed (h : RecoveryInv s) (ha : s.attempts = [a]) : RecoveryInv (s.scheduleRecoveryRetry.ends 0) := by
  have hsame := scheduleRecoveryRetry_same s
  have hnil : s.scheduleRecoveryRetry.attempts.eraseIdx 0 = [] := by rw [hsame.attempts, ha]; rfl
  refine .cared_otherwise hnil rfl ?_ ((scheduleRecoveryRetry_counted h.counted).of_same rfl rfl)
  intro entry he
  exact .inr (scheduleRecoveryRetry_covers s (hsame.owned.symm.trans he))

/-- an attempt that found the match unowned ends -/
theorem unowned (h : RecoveryInv s) (ha : s.attempts = [a]) (hc : a.cares = false) (hs : s'.attempts = [])
    (hr : s'.recovering = false) (ho : s'.owned = s.owned) (hd : s'.driven = s.driven) (hn : Counted s') :
    RecoveryInv s' := by
  refine .cared_otherwise hs hr ?_ hn
  intro entry he
  rw [hd]
  exact .inl (h.foreign ⟨a, by rw [ha]; exact List.mem_cons_self, hc⟩ entry (ho.symm.trans he))

/-- the attempt goes on -/
theorem waits (h : RecoveryInv s) (ha : s.attempts = [a]) (hr : s.recovering = true) (hc : b.cares = true)
    (hb : ∀ id, b ≠ .resuming id) : RecoveryInv (s.waits 0 b) := by
  refine .attempt_cares (a := b) ?_ hr hc (fun id hid => absurd hid (hb id)) (h.counted.of_same rfl rfl)
  simp [Recovery.waits, ha]

theorem clean (h : RecoveryInv s) (ha : s.attempts = [a]) (hr : s.recovering = true) : RecoveryInv (s.clean 0) := by
  unfold Recovery.clean
  split
  · rename_i ho
    exact .not_owned (by simp [ends, clearRecoveryRetry, ha]) rfl ho ((Counted.clear s).of_same rfl rfl)
  · exact h.waits ha hr rfl nofun

theorem resumed (h : RecoveryInv s) (ha : s.attempts = [a]) (hr : s.recovering = true) (roomId : String) :
    RecoveryInv (s.resumeRecoveryLoop 0 roomId) := by
  refine .attempt_cares (a := .resuming s.nextEntry) ?_ hr rfl ?_ (h.counted.of_same rfl rfl)
  · simp [resumeRecoveryLoop, Recovery.waits, own, ha]
  · intro id hid entry he
    left
    rw [← AttemptAwait.resuming.inj hid]
    rw [← Option.some.inj he]

theorem continueAttempt (h : RecoveryInv s) (ha : s.attempts[i]? = some a) (reply : RecoveryReply)
    (hroom : a = .lookingUp → reply.isRoom = true) : RecoveryInv (s.continueAttempt i reply a) := by
  obtain ⟨rfl, hone, hr⟩ := h.single_attempt ha
  have hgone : s.attempts.eraseIdx 0 = [] := by rw [hone]; rfl
  have hdisown : RecoveryInv (s.disown.ends 0) := .not_owned hgone rfl rfl (h.counted.of_same rfl rfl)
  have hend : RecoveryInv (s.finalizeEnd.ends 0) := .not_owned hgone rfl rfl ((Counted.clear s).of_same rfl rfl)
  have hfailed := h.failed hone
  cases a with
  | renewing entry =>
    cases reply with
    | held b =>
      cases b with
      | true => exact h.waits hone hr rfl nofun
      | false => exact h.waits hone hr rfl nofun
    | _ => exact hfailed
  | acquiring stale =>
    have hother : RecoveryInv (if stale = true then s.disown.ends 0 else s.ends 0) := by
      cases stale with
      | true => exact hdisown
      | false => exact h.unowned hone rfl hgone rfl rfl rfl (h.counted.of_same rfl rfl)
    cases reply with
    | acquired =>
      refine .attempt_cares (a := .acquired) ?_ hr rfl nofun (h.counted.of_same rfl rfl)
      simp [Recovery.continueAttempt, Recovery.waits, own, hone]
    | terminal =>
      cases stale with
      | true => exact h.waits hone hr rfl nofun
      | false =>
        have hnone : ∀ entry, s.owned = some entry → entry.id ∈ s.driven :=
          h.foreign ⟨.acquiring false, by rw [hone]; exact List.mem_cons_self, rfl⟩
        have hwaits : s.attempts.set 0 (.droppingIndex false) = [.droppingIndex false] := by rw [hone]; rfl
        exact ⟨by simp [Recovery.continueAttempt, Recovery.waits, hwaits, hr], fun entry he => .inl (hnone entry he),
          fun _ => hnone, fun _ _ entry he => .inr (hnone entry he), h.counted.of_same rfl rfl⟩
    | _ => exact hother
  | droppingIndex stale =>
    cases stale with
    | true => exact hend
    | false => exact h.unowned hone rfl hgone rfl rfl rfl ((Counted.clear s).of_same rfl rfl)
  | acquired =>
    simp only [Recovery.continueAttempt]
    split_ifs with ho
    · exact h.waits hone hr rfl nofun
    · have hnone : s.owned = none := by simpa using ho
      exact .not_owned hgone rfl hnone (h.counted.of_same rfl rfl)
  | hydrating =>
    cases reply with
    | state roomId =>
      cases roomId with
      | some roomId => exact h.waits hone hr rfl nofun
      | none => exact h.clean hone hr
    | _ => exact hfailed
  | cleaning =>
    cases reply with
    | finalized => exact h.waits hone hr rfl nofun
    | _ => exact hend
  | releasing => exact hend
  | revalidating roomId =>
    cases reply with
    | held b =>
      cases b with
      | true =>
        simp only [Recovery.continueAttempt]
        split_ifs
        · exact h.resumed hone hr roomId
        · exact h.waits hone hr rfl nofun
      | false => exact hdisown
    | _ => exact hfailed
  | lookingUp =>
    cases reply with
    | room roomId => exact h.resumed hone hr _
    | _ => cases hroom rfl
  | resuming id =>
    cases reply with
    | done =>
      refine .cared_otherwise hgone rfl ?_ ((Counted.clear s).of_same rfl rfl)
      intro entry he
      left
      rcases h.resuming id (by rw [hone]; exact List.mem_cons_self) entry he with rfl | hd
      · exact List.mem_cons_self
      · exact List.mem_cons_of_mem _ hd
    | _ => exact hfailed

theorem idle (h : RecoveryInv s) (hr : s.recovering = false) : s.attempts = [] := by
  have hlen := h.single
  rw [hr] at hlen
  exact List.length_eq_zero_iff.1 hlen

/-- an attempt starts, whoever had the match in care -/
theorem starts (ha : s.attempts = []) (hr : s.recovering = false) (hn : Counted s) :
    RecoveryInv s.attemptRecovery := by
  unfold attemptRecovery
  rw [if_neg (by rw [hr]; decide)]
  cases ho : s.owned with
  | some entry =>
    refine .attempt_cares (a := .renewing entry) ?_ rfl rfl nofun (hn.of_same rfl rfl)
    simp [ha]
  | none =>
    refine ⟨by simp [ha], ?_, ?_, ?_, hn.of_same rfl rfl⟩
    · intro entry he
      cases he
    · intro _ entry he
      cases he
    · intro _ _ entry he
      cases he

theorem attempt (h : RecoveryInv s) : RecoveryInv s.attemptRecovery := by
  cases hr : s.recovering with
  | true =>
    unfold attemptRecovery
    rw [if_pos hr]
    exact h
  | false => exact .starts (h.idle hr) hr h.counted

/-- the match is not owned any more -/
theorem disowned (h : RecoveryInv s) (ho : s'.owned = none) (ha : s'.attempts = s.attempts)
    (hr : s'.recovering = s.recovering) (hn : Counted s') : RecoveryInv s' where
  single := by rw [ha, hr]; exact h.single
  care := fun entry he => by rw [ho] at he; cases he
  foreign := fun _ entry he => by rw [ho] at he; cases he
  resuming := fun _ _ entry he => by rw [ho] at he; cases he
  counted := hn

/-- the same match in the same care -/
theorem same_care (h : RecoveryInv s) (ho : s'.owned = s.owned) (hd : s'.driven = s.driven) (ha : s'.attempts = s.attempts)
    (hr : s'.recovering = s.recovering) (ht : s.retryArmed = true → s'.retryArmed = true)
    (hl : s.deadLetters ≠ [] → s'.deadLetters ≠ []) (hn : Counted s') : RecoveryInv s' where
  single := by rw [ha, hr]; exact h.single
  care := by
    intro entry he
    rw [ho] at he
    rw [hd, ha]
    rcases h.care entry he with hx | hx | hx | hx
    · exact .inl hx
    · exact .inr (.inl hx)
    · exact .inr (.inr (.inl (ht hx)))
    · exact .inr (.inr (.inr (hl hx)))
  foreign := by rw [ha, ho, hd]; exact h.foreign
  resuming := by rw [ha, ho, hd]; exact h.resuming
  counted := hn

/-- a timer that fires leaves an attempt, its own or the one in flight -/
theorem fireRetry (h : RecoveryInv s) : RecoveryInv s.fireRetry := by
  unfold Recovery.fireRetry
  split
  · rename_i count due hretries
    split_ifs
    · have hn : Counted { s with retries := some ⟨count, none⟩ } := by
        have hc := h.counted.count
        rw [hretries] at hc
        exact ⟨hc, h.counted.delays, h.counted.few⟩
      cases hr : s.recovering with
      | false => exact .starts (h.idle hr) rfl (hn.of_same rfl rfl)
      | true =>
        obtain ⟨a, ha⟩ : ∃ a, s.attempts = [a] := by
          have hlen := h.single
          rw [hr] at hlen
          exact List.length_eq_one_iff.1 hlen
        have hmem : a ∈ s.attempts := by rw [ha]; exact List.mem_cons_self
        have hcare : ∀ entry, s.owned = some entry → entry.id ∈ s.driven ∨ (∃ a ∈ s.attempts, a.cares = true) := by
          intro entry he
          cases hc : a.cares with
          | true => exact .inr ⟨a, hmem, hc⟩
          | false => exact .inl (h.foreign ⟨a, hmem, hc⟩ entry he)
        have hquiet : RecoveryInv { s with retries := some ⟨count, none⟩, recovering := true } :=
          ⟨by rw [← hr]; exact h.single, fun entry he => (hcare entry he).imp_right .inl, h.foreign, h.resuming,
            hn.of_same rfl rfl⟩
        exact hquiet.attempt
    · exact h
  · exact h

theorem continueDeadLetter (h : RecoveryInv s) {d : DeadLetterAwait} (hd : s.deadLetters[i]? = some d)
    (reply : RecoveryReply) : RecoveryInv (s.continueDeadLetter i reply d) := by
  have hend : RecoveryInv ({ s with deadLetters := s.deadLetters.eraseIdx i }.finalizeEnd) :=
    h.disowned rfl rfl rfl (.clear _)
  have hset : s.deadLetters ≠ [] → s.deadLetters.set i .releasing ≠ [] := fun hne hset => hne (by simpa using hset)
  cases d with
  | finalizing =>
    cases reply with
    | finalized => exact h.same_care rfl rfl rfl rfl id hset (h.counted.of_same rfl rfl)
    | _ => exact hend
  | releasing => exact hend

/-- a launch drives the match it owns -/
theorem launched (h : RecoveryInv s) (roomId : String) :
    RecoveryInv { s.own roomId with driven := s.nextEntry :: s.driven } := by
  have hnew : ∀ entry, (s.own roomId).owned = some entry → entry.id ∈ s.nextEntry :: s.driven := by
    intro entry he
    rw [← Option.some.inj he]
    exact List.mem_cons_self
  exact ⟨h.single, fun entry he => .inl (hnew entry he), fun _ => hnew, fun _ _ entry he => .inr (hnew entry he),
    h.counted.of_same rfl rfl⟩

end RecoveryInv

theorem step_recoveryInv (s : Recovery) (o : RecoveryOp) (hg : FindsRoom s o) (h : RecoveryInv s) :
    RecoveryInv (s.step o) := by
  have hmoved : ∀ s' : Recovery, s'.owned = s.owned → s'.driven = s.driven → s'.attempts = s.attempts →
      s'.recovering = s.recovering → s'.retries = s.retries → s'.deadLetters = s.deadLetters → s'.armed = s.armed →
      RecoveryInv s' := by
    intro s' ho hd ha hr hretries hl harmed
    refine h.same_care ho hd ha hr ?_ (by rw [hl]; exact id) (h.counted.of_same hretries harmed)
    unfold retryArmed
    rw [hretries]
    exact id
  cases o with
  | boot =>
    simp only [step]
    split_ifs
    · exact h.attempt
    · exact hmoved _ rfl rfl rfl rfl rfl rfl rfl
  | setServer =>
    have hwired : RecoveryInv { s with server := true, pendingRecovery := 0 } := hmoved _ rfl rfl rfl rfl rfl rfl rfl
    simp only [step]
    split_ifs
    · exact hwired
    · exact hwired.attempt
  | sweep =>
    simp only [step]
    split_ifs
    · exact h.attempt
    · exact h
  | fireRetry => exact h.fireRetry
  | resume i reply =>
    simp only [step]
    split
    · rename_i a ha
      refine h.continueAttempt ha reply ?_
      rintro rfl
      exact hg ha
    · exact h
  | resumeDeadLetter i reply =>
    simp only [step]
    split
    · rename_i d hd
      exact h.continueDeadLetter hd reply
    · exact h
  | launched roomId => exact h.launched roomId
  | relinquish =>
    simp only [step]
    split_ifs
    · exact h.disowned rfl rfl rfl (h.counted.of_same rfl rfl)
    · exact h
  | release => exact h.disowned rfl rfl rfl (h.counted.of_same rfl rfl)
  | advance ms => exact hmoved _ rfl rfl rfl rfl rfl rfl rfl

/-! ## Runs -/

/-- only an attempt that fails starts a finalization of its own -/
theorem continueAttempt_deadLetters (s : Recovery) (i : ℕ) (reply : RecoveryReply) (a : AttemptAwait)
    (hd : (s.continueAttempt i reply a).deadLetters.length > s.deadLetters.length) :
    s.continueAttempt i reply a = s.scheduleRecoveryRetry.ends i := by
  cases a with
  | renewing entry =>
    cases reply with
    | held b => cases b <;> exact absurd hd (lt_irrefl _)
    | _ => rfl
  | acquiring stale =>
    cases reply with
    | acquired => exact absurd hd (lt_irrefl _)
    | terminal => exact absurd hd (lt_irrefl _)
    | _ => cases stale <;> exact absurd hd (lt_irrefl _)
  | droppingIndex stale => cases stale <;> exact absurd hd (lt_irrefl _)
  | acquired =>
    simp only [continueAttempt] at hd
    split_ifs at hd <;> exact absurd hd (lt_irrefl _)
  | hydrating =>
    cases reply with
    | state roomId =>
      cases roomId with
      | some roomId => exact absurd hd (lt_irrefl _)
      | none =>
        simp only [continueAttempt, clean] at hd
        split at hd <;> exact absurd hd (lt_irrefl _)
    | _ => rfl
  | cleaning => cases reply <;> exact absurd hd (lt_irrefl _)
  | releasing => exact absurd hd (lt_irrefl _)
  | revalidating roomId =>
    cases reply with
    | held b =>
      cases b with
      | true =>
        simp only [continueAttempt] at hd
        split_ifs at hd <;> exact absurd hd (lt_irrefl _)
      | false => exact absurd hd (lt_irrefl _)
    | _ => rfl
  | lookingUp => cases reply <;> exact absurd hd (lt_irrefl _)
  | resuming id =>
    cases reply with
    | done => exact absurd hd (lt_irrefl _)
    | _ => rfl

theorem attemptRecovery_deadLetters (s : Recovery) : s.attemptRecovery.deadLetters = s.deadLetters := by
  unfold attemptRecovery
  split_ifs <;> rfl

/-- an attempt in flight gets its answer and fails -/
def FailsAttempt (s : Recovery) (o : RecoveryOp) : Prop :=
  ∃ i reply a, o = .resume i reply ∧ s.attempts[i]? = some a ∧ s.step o = s.scheduleRecoveryRetry.ends i

/-- a finalization is started by an attempt that fails after all retries, with none armed -/
theorem step_deadLetters {s : Recovery} (h : Counted s) (o : RecoveryOp)
    (hd : (s.step o).deadLetters.length > s.deadLetters.length) :
    s.FailsAttempt o ∧ s.armed = backoff ∧ s.retryArmed = false := by
  cases o with
  | resume i reply =>
    cases ha : s.attempts[i]? with
    | none =>
      simp only [step, ha] at hd
      exact absurd hd (lt_irrefl _)
    | some a =>
      simp only [step, ha] at hd
      have hfailed := continueAttempt_deadLetters s i reply a hd
      refine ⟨⟨i, reply, a, rfl, ha, by simp only [step, ha, hfailed]⟩, ?_⟩
      rw [hfailed] at hd
      refine scheduleRecoveryRetry_deadLetters h fun heq => ?_
      have hsame : (s.scheduleRecoveryRetry.ends i).deadLetters = s.deadLetters := heq
      rw [hsame] at hd
      exact lt_irrefl _ hd
  | boot =>
    simp only [step] at hd
    split_ifs at hd
    · rw [attemptRecovery_deadLetters] at hd
      exact absurd hd (lt_irrefl _)
    · exact absurd hd (lt_irrefl _)
  | setServer =>
    simp only [step] at hd
    split_ifs at hd
    · exact absurd hd (lt_irrefl _)
    · rw [attemptRecovery_deadLetters] at hd
      exact absurd hd (lt_irrefl _)
  | sweep =>
    simp only [step] at hd
    split_ifs at hd
    · rw [attemptRecovery_deadLetters] at hd
      exact absurd hd (lt_irrefl _)
    · exact absurd hd (lt_irrefl _)
  | fireRetry =>
    simp only [step, fireRetry] at hd
    split at hd
    · split_ifs at hd
      · rw [attemptRecovery_deadLetters] at hd
        exact absurd hd (lt_irrefl _)
      · exact absurd hd (lt_irrefl _)
    · exact absurd hd (lt_irrefl _)
  | resumeDeadLetter i reply =>
    simp only [step] at hd
    split at hd
    · rename_i d _
      have herase : (s.deadLetters.eraseIdx i).length ≤ s.deadLetters.length := List.length_eraseIdx_le ..
      have hset : (s.deadLetters.set i .releasing).length = s.deadLetters.length := List.length_set
      cases d with
      | finalizing =>
        cases reply <;> simp only [continueDeadLetter, finalizeEnd, disown, clearRecoveryRetry] at hd <;> omega
      | releasing =>
        simp only [continueDeadLetter, finalizeEnd, disown, clearRecoveryRetry] at hd
        omega
    · exact absurd hd (lt_irrefl _)
  | relinquish =>
    simp only [step] at hd
    split_ifs at hd <;> exact absurd hd (lt_irrefl _)
  | _ => exact absurd hd (lt_irrefl _)

/-- **A match in recovery is never forgotten.** Over every run of boots, sweeps, retries, lost leases, launches and
answers of Redis in which the room of a match is found: the loop of an owned match was started, or an attempt, a retry or
a finalization of it is pending; one attempt is in flight at most; the retries armed since the last clear have the
delays of the backoff, five at most; and a step that dead-letters the match is the failure of an attempt after all of
them, with none armed. -/
theorem recovery_never_forgets (ops : List RecoveryOp) (hg : Along step FindsRoom init ops) :
    let s := run step init ops
    (∀ entry, s.owned = some entry → s.InCare entry) ∧ s.attempts.length ≤ 1 ∧
      s.armed = backoff.take s.armed.length ∧ s.armed.length ≤ 5 ∧
      ∀ o, (s.step o).deadLetters.length > s.deadLetters.length →
        s.FailsAttempt o ∧ s.armed = backoff ∧ s.retryArmed = false := by
  intro s
  have h : RecoveryInv s := run_inv step FindsRoom RecoveryInv step_recoveryInv init ops hg recoveryInv_init
  refine ⟨?_, ?_, h.counted.delays, h.counted.few, ?_⟩
  · intro entry he
    rcases h.care entry he with hx | ⟨a, ha, -⟩ | hx | hx
    · exact .inl hx
    · exact .inr (.inl (List.ne_nil_of_mem ha))
    · exact .inr (.inr (.inl hx))
    · exact .inr (.inr (.inr hx))
  · rw [h.single]
    exact Bool.toNat_le _
  · exact fun o hd => step_deadLetters h.counted o hd

/-- a match whose blob does not name its room: its loop cannot be resumed, and then its lease cannot be renewed. After
five retries the sixth attempt is about to fail. -/
def neverResumes : List RecoveryOp :=
  [.setServer, .sweep, .resume 0 .acquired, .resume 0 .done, .resume 0 (.state (some "")), .resume 0 (.held true),
    .resume 0 (.room (some "r1")), .resume 0 .failed] ++
    ([1000, 2000, 4000, 8000].flatMap fun delay => [.advance delay, .fireRetry, .resume 0 .failed]) ++
    [.advance 8000, .fireRetry]

theorem recovery_never_forgets_exhausted :
    let s := run step init neverResumes
    s.owned = some ⟨1, "r1"⟩ ∧ s.InCare ⟨1, "r1"⟩ ∧ s.armed = backoff ∧ s.FailsAttempt (.resume 0 .failed) := by
  intro s
  have hall := recovery_never_forgets neverResumes (by decide +kernel)
  have howned : s.owned = some ⟨1, "r1"⟩ := by decide +kernel
  obtain ⟨hfails, harmed, -⟩ := hall.2.2.2.2 (.resume 0 .failed) (by decide +kernel)
  exact ⟨howned, hall.1 _ howned, harmed, hfails⟩

end Recovery

end Arena.Api
