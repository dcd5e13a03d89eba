/-
The read cache of a match (`getMatch`, `finishMatch`, `invalidateMatchGeneration` of `match.service.ts`, and
`setIfGenMatches` of `redis.core.ts`).

One match: its database row, the two keys of Redis with their deadlines, any number of reads on any nodes, and the one
call of `finishMatch` whose claim succeeds (a later one finds the match FINISHED and writes nothing). Every command
that leaves the process is in flight until a step of its own runs it, so each read is as slow as the run makes it; a
cached row is served by the MGET that returns it.

The answers of a row are stripped as in the source, the other included data is a type parameter; the JSON text and the
dates in it are not modelled. The generation is the number `INCR` counts, which the script compares as text. What a row
carries beside it, `beforeFinish`, is a ghost: the finish had not committed when the row was read.

- `inv_step`: after the finish the generation key keeps a positive number and outlives each older entry;
- `prefinish_rows_gone`: no older row is stored or served after the bump, exactly if no read stores one when the
  generation key has expired;
- `slow_read_stored`: a read slower than the key, stored and served after a complete invalidation.
-/
import Arena.Lib.Expiring
import Arena.Lib.Run
import Arena.Shared.State

namespace Arena.Api.MatchCache

open Arena.Lib Arena.Shared

/-! ## Model -/

/-- `MATCH_CACHE_TTL_SEC` -/
def matchCacheTtlSec : ℕ := 5

/-- the `EX` of a cached row and the `EXPIRE` of the generation, in milliseconds -/
def matchCacheTtlMs : ℕ := matchCacheTtlSec * 1000

/-- `MAX_GENERATION_INVALIDATION_ATTEMPTS` -/
def maxGenerationInvalidationAttempts : ℕ := 5

structure Answer where
  userId : String
  isCorrect : Bool
  responseTimeMs : ℕ
  roundId : String
deriving DecidableEq, Repr

/-- a match row with what `getMatch` includes -/
structure Row (δ : Type) where
  status : MatchStatus
  answers : List Answer
  details : δ
deriving DecidableEq

/-- per-player answers are only safe after the match finishes -/
def Row.sanitized {δ : Type} (r : Row δ) : Row δ := if r.status = .finished then r else { r with answers := [] }

/-- a row that was read from the database -/
structure Loaded (δ : Type) where
  row : Row δ
  beforeFinish : Bool
deriving DecidableEq

structure Payload (δ : Type) where
  gen : ℕ
  data : Loaded δ
deriving DecidableEq

/-- where a call of `getMatch` stands -/
inductive Read (δ : Type) where
  | idle
  /-- the MGET is in flight -/
  | asking (node : ℕ)
  /-- the database query is in flight -/
  | querying (node : ℕ) (capturedGen : Option ℕ)
  | loaded (node : ℕ) (capturedGen : Option ℕ) (data : Loaded δ)
  /-- the script of `setIfGenMatches` is in flight -/
  | storing (gen : ℕ) (data : Loaded δ)
  | returned (data : Loaded δ)
  | notFound
deriving DecidableEq

/-- where `executeGenerationInvalidation` stands -/
inductive Invalidation where
  /-- the reply of the transaction has not arrived -/
  | starting
  /-- the script of attempt `n` is in flight -/
  | attempt (n : ℕ)
  | retryAt (n due : ℕ)
  /-- a retry succeeded; its DEL is in flight -/
  | deleting
  | done
  | exceeded
  | stopped
deriving DecidableEq

/-- the DEL of the read caches at the end of `finishMatch` -/
inductive Cleanup where
  | waiting
  | deleting
  | done
deriving DecidableEq

structure Finish where
  node : ℕ
  /-- the match is in `pendingGenerationInvalidations` of the node -/
  pending : Bool
  invalidation : Invalidation
  cleanup : Cleanup
  isDestroyed : Bool
deriving DecidableEq

structure State (δ : Type) where
  now : ℕ
  row : Option (Row δ)
  gen : Option (Expiring ℕ)
  cache : Option (Expiring (Payload δ))
  reads : ℕ → Read δ
  finish : Option Finish
  /-- ghost: the generation script has run -/
  bumped : Bool
  /-- ghost: a DEL of the cached row has run after it -/
  cleared : Bool

/-- how a command ends for its caller: a lost reply is an error, and the command has run -/
inductive Outcome where
  | ok
  | lostReply
  | failed
deriving DecidableEq

def Outcome.ran : Outcome → Bool
  | .failed => false
  | _ => true

inductive Op (δ : Type) where
  | tick (ms : ℕ)
  /-- another write of the row or of what is included with it -/
  | write (answers : List Answer) (details : δ)
  /-- another path sets the status FINISHED -/
  | terminate (details : δ)
  | remove
  | getMatch (i node : ℕ)
  | mget (i : ℕ) (ok : Bool)
  | findUnique (i : ℕ)
  | checkPending (i : ℕ)
  | setIfGenMatches (i : ℕ) (outcome : Outcome)
  /-- the transaction of `finishMatch` commits -/
  | commit (node : ℕ) (details : δ)
  | invalidate
  | bump (outcome : Outcome)
  | retry
  | retryDel (outcome : Outcome)
  | del (outcome : Outcome)
  | onModuleDestroy

namespace State

variable {δ : Type}

def init (row : Row δ) : State δ := ⟨0, some row, none, none, fun _ => .idle, none, false, false⟩

def pendingOn (s : State δ) (node : ℕ) : Bool := s.finish.any fun f => f.pending && decide (f.node = node)

/-- `gen ?? "0"` -/
def currentGen (s : State δ) : ℕ := (Expiring.get s.gen s.now).getD 0

/-- the row that the cache has for a reader -/
def hit (s : State δ) : Option (Loaded δ) :=
  match Expiring.get s.cache s.now with
  | some payload => if payload.gen = s.currentGen then some payload.data else none
  | none => none

def setRead (s : State δ) (i : ℕ) (r : Read δ) : State δ := { s with reads := Function.update s.reads i r }

def mapRow (s : State δ) (f : Row δ → Row δ) : State δ := { s with row := s.row.map f }

/-! ### A read -/

def getMatch (s : State δ) (i node : ℕ) : State δ :=
  match s.reads i with
  | .idle => s.setRead i (if s.pendingOn node then .querying node none else .asking node)
  | _ => s

def mget (s : State δ) (i : ℕ) (ok : Bool) : State δ :=
  match s.reads i with
  | .asking node =>
    if ok then
      match s.hit with
      | some data => s.setRead i (.returned { data with row := data.row.sanitized })
      | none => s.setRead i (.querying node (some s.currentGen))
    else s.setRead i (.querying node none)
  | _ => s

def findUnique (s : State δ) (i : ℕ) : State δ :=
  match s.reads i with
  | .querying node capturedGen =>
    match s.row with
    | some row => s.setRead i (.loaded node capturedGen ⟨row.sanitized, s.finish.isNone⟩)
    | none => s.setRead i .notFound
  | _ => s

def checkPending (s : State δ) (i : ℕ) : State δ :=
  match s.reads i with
  | .loaded node (some gen) data => s.setRead i (if s.pendingOn node then .returned data else .storing gen data)
  | .loaded _ none data => s.setRead i (.returned data)
  | _ => s

/-- the script: `SET .. EX` if the generation is the expected one, an absent key counting as 0 -/
def storeIfGen (s : State δ) (gen : ℕ) (data : Loaded δ) : State δ :=
  if s.currentGen = gen then { s with cache := some ⟨⟨gen, data⟩, s.now + matchCacheTtlMs⟩ } else s

def setIfGenMatches (s : State δ) (i : ℕ) (outcome : Outcome) : State δ :=
  match s.reads i with
  | .storing gen data => (if outcome.ran then s.storeIfGen gen data else s).setRead i (.returned data)
  | _ => s

/-! ### The finish -/

/-- the claim gate: a match that is FINISHED already, or gone, is left alone -/
def commit (s : State δ) (node : ℕ) (details : δ) : State δ :=
  match s.row with
  | some row =>
    if row.status = .finished then s
    else
      { s with
        row := some { row with status := .finished, details := details }
        finish := some ⟨node, false, .starting, .waiting, false⟩ }
  | none => s

def setFinish (s : State δ) (f : Finish) : State δ := { s with finish := some f }

def invalidate (s : State δ) : State δ :=
  match s.finish with
  | some f =>
    match f.invalidation with
    | .starting =>
      s.setFinish
        (if f.isDestroyed then { f with pending := true, invalidation := .stopped, cleanup := .deleting }
        else { f with pending := true, invalidation := .attempt 1 })
    | _ => s
  | none => s

/-- `INCR_MATCH_GENERATION_SCRIPT` -/
def incrMatchGeneration (s : State δ) : State δ :=
  { s with gen := some (Expiring.incr s.gen s.now matchCacheTtlMs), bumped := true }

end State

/-- attempt `n` has returned; `finishMatch` goes on after the first one -/
def Finish.afterAttempt (f : Finish) (n : ℕ) (outcome : Outcome) (now : ℕ) : Finish :=
  let f := if n = 1 then { f with cleanup := .deleting } else f
  if f.isDestroyed then { f with invalidation := .stopped }
  else if outcome = .ok then
    if 1 < n then { f with invalidation := .deleting } else { f with invalidation := .done, pending := false }
  else if maxGenerationInvalidationAttempts ≤ n then { f with invalidation := .exceeded, pending := false }
  else { f with invalidation := .retryAt (n + 1) (now + min (100 * 2 ^ (n - 1)) 2000) }

/-- the retry timers are cleared, and a running attempt will find the flag -/
def Finish.destroyed (f : Finish) : Finish :=
  match f.invalidation with
  | .retryAt _ _ => { f with isDestroyed := true, invalidation := .stopped }
  | _ => { f with isDestroyed := true }

namespace State

variable {δ : Type}

def bump (s : State δ) (outcome : Outcome) : State δ :=
  match s.finish with
  | some f =>
    match f.invalidation with
    | .attempt n => (if outcome.ran then s.incrMatchGeneration else s).setFinish (f.afterAttempt n outcome s.now)
    | _ => s
  | none => s

def retry (s : State δ) : State δ :=
  match s.finish with
  | some f =>
    match f.invalidation with
    | .retryAt n due => if due ≤ s.now then s.setFinish { f with invalidation := .attempt n } else s
    | _ => s
  | none => s

def delCache (s : State δ) : State δ := { s with cache := none, cleared := s.bumped }

def retryDel (s : State δ) (outcome : Outcome) : State δ :=
  match s.finish with
  | some f =>
    match f.invalidation with
    | .deleting =>
      (if outcome.ran then s.delCache else s).setFinish
        { f with invalidation := .done, pending := f.pending && f.isDestroyed }
    | _ => s
  | none => s

def del (s : State δ) (outcome : Outcome) : State δ :=
  match s.finish with
  | some f =>
    match f.cleanup with
    | .deleting => (if outcome.ran then s.delCache else s).setFinish { f with cleanup := .done }
    | _ => s
  | none => s

def onModuleDestroy (s : State δ) : State δ :=
  match s.finish with
  | some f => s.setFinish f.destroyed
  | none => s

end State

def step {δ : Type} (s : State δ) : Op δ → State δ
  | .tick ms => { s with now := s.now + ms }
  | .write answers details => s.mapRow fun row => { row with answers := answers, details := details }
  | .terminate details => s.mapRow fun row => { row with status := .finished, details := details }
  | .remove => { s with row := none }
  | .getMatch i node => s.getMatch i node
  | .mget i ok => s.mget i ok
  | .findUnique i => s.findUnique i
  | .checkPending i => s.checkPending i
  | .setIfGenMatches i outcome => s.setIfGenMatches i outcome
  | .commit node details => s.commit node details
  | .invalidate => s.invalidate
  | .bump outcome => s.bump outcome
  | .retry => s.retry
  | .retryDel outcome => s.retryDel outcome
  | .del outcome => s.del outcome
  | .onModuleDestroy => s.onModuleDestroy

/-! ## What the claim is about -/

variable {δ : Type}

/-- the row that the cache serves at a step -/
def served (s : State δ) : Op δ → Option (Loaded δ)
  | .mget i true =>
    match s.reads i with
    | .asking _ => s.hit
    | _ => none
  | _ => none

/-- the generation and the row of a conditional store that a step runs -/
def storeRun (s : State δ) : Op δ → Option (ℕ × Loaded δ)
  | .setIfGenMatches i outcome =>
    match s.reads i with
    | .storing gen data => if outcome.ran then some (gen, data) else none
    | _ => none
  | _ => none

/-- once the generation is bumped, the step neither serves a row read before the finish nor stores one -/
def Fresh (s : State δ) (o : Op δ) : Prop :=
  s.bumped = true →
    (∀ data, served s o = some data → data.beforeFinish = false) ∧
      ∀ gen data, storeRun s o = some (gen, data) → s.currentGen = gen → data.beforeFinish = false

/-- the step runs no conditional store of such a row when the generation key has expired -/
def InTime (s : State δ) (o : Op δ) : Prop :=
  s.bumped = true → ∀ gen data, storeRun s o = some (gen, data) → data.beforeFinish = true →
    Expiring.get s.gen s.now ≠ none

/-- after the bump and a deletion of the cached row, no row read before the finish is in the cache -/
def Purged (s : State δ) : Prop :=
  s.cleared = true → ∀ payload, Expiring.get s.cache s.now = some payload → payload.data.beforeFinish = false

/-! ## Invariant -/

/-- the generation that a read has captured, with what it has read -/
def Read.captured : Read δ → Option (ℕ × Option (Loaded δ))
  | .querying _ (some gen) => some (gen, none)
  | .loaded _ (some gen) data => some (gen, some data)
  | .storing gen data => some (gen, some data)
  | _ => none

/-- it captured the absent generation, where it may read, or has read, the row before the finish -/
def Read.CapturedZero (committed : Bool) (r : Read δ) : Prop :=
  ∀ gen data, r.captured = some (gen, data) → (data.elim (!committed) Loaded.beforeFinish) = true → gen = 0

structure Inv (s : State δ) : Prop where
  committed : s.bumped = true → s.finish.isSome = true
  bumped_of_cleared : s.cleared = true → s.bumped = true
  /-- nothing but the bump writes the generation -/
  absent : s.bumped = false → s.gen = none
  counted : s.bumped = true → ∃ e, s.gen = some e ∧ 1 ≤ e.value
  captured : ∀ i, (s.reads i).CapturedZero s.finish.isSome
  /-- an older entry carries the absent generation, and does not outlive the generation key -/
  old_entry : ∀ e, s.cache = some e → e.value.data.beforeFinish = true →
    e.value.gen = 0 ∧ e.expireAt ≤ s.now + matchCacheTtlMs ∧ s.cleared = false ∧
      ∀ g, s.gen = some g → e.expireAt ≤ g.expireAt

theorem inv_init (row : Row δ) : Inv (State.init row) where
  committed h := nomatch h
  bumped_of_cleared h := nomatch h
  absent _ := rfl
  counted h := nomatch h
  captured _ _ _ h := nomatch h
  old_entry _ h := nomatch h

section Facts

variable {s : State δ}

theorem Inv.gen_zero (h : Inv s) (hb : s.bumped = false) : s.currentGen = 0 := by
  simp [State.currentGen, h.absent hb]

theorem Inv.gen_pos (h : Inv s) (hb : s.bumped = true) (hl : Expiring.get s.gen s.now ≠ none) : s.currentGen ≠ 0 := by
  obtain ⟨e, he, hpos⟩ := h.counted hb
  obtain ⟨v, hv⟩ := Option.ne_none_iff_exists'.1 hl
  obtain ⟨e', he', -, rfl⟩ := Expiring.get_eq_some.1 hv
  obtain rfl := Option.some.inj (he.symm.trans he')
  simp only [State.currentGen, hv, Option.getD_some]
  omega

/-- **The generation key outlives an older entry**, so the entry is not served after the bump. -/
theorem Inv.hit_fresh (h : Inv s) (hb : s.bumped = true) {data : Loaded δ} (hd : s.hit = some data) :
    data.beforeFinish = false := by
  unfold State.hit at hd
  split at hd
  · rename_i payload hp
    split_ifs at hd with hgen
    obtain rfl := Option.some.inj hd
    obtain ⟨e, he, hlive, rfl⟩ := Expiring.get_eq_some.1 hp
    rw [← Bool.not_eq_true]
    intro hold
    obtain ⟨hzero, -, -, hout⟩ := h.old_entry e he hold
    obtain ⟨g, hg, -⟩ := h.counted hb
    have hread : Expiring.get s.gen s.now ≠ none := by
      rw [hg, Expiring.get_outlived (hout g hg) (by rw [Expiring.get_of_live hlive]; exact Option.some_ne_none _)]
      exact Option.some_ne_none _
    exact h.gen_pos hb hread (hgen.symm.trans hzero)
  · cases hd

end Facts

/-! ## What each step keeps -/

section Steps

variable {s : State δ}

theorem CapturedZero_mono {r : Read δ} (h : r.CapturedZero false) : r.CapturedZero true := by
  intro gen data hr hd
  refine h gen data hr ?_
  cases data with
  | none => rfl
  | some data => exact hd

/-- a step that touches no key, no read and no clock -/
theorem Inv.congr (h : Inv s) {s' : State δ} (hnow : s'.now = s.now) (hgen : s'.gen = s.gen)
    (hcache : s'.cache = s.cache) (hreads : s'.reads = s.reads) (hb : s'.bumped = s.bumped)
    (hc : s'.cleared = s.cleared) (hf : s.finish.isSome = true → s'.finish.isSome = true) : Inv s' where
  committed hb' := hf (h.committed (hb ▸ hb'))
  bumped_of_cleared hc' := hb ▸ h.bumped_of_cleared (hc ▸ hc')
  absent hb' := hgen ▸ h.absent (hb ▸ hb')
  counted hb' := hgen ▸ h.counted (hb ▸ hb')
  captured i := by
    rw [hreads]
    cases hs : s.finish.isSome with
    | true => rw [hf hs]; exact hs ▸ h.captured i
    | false =>
      have hzero := hs ▸ h.captured i
      cases s'.finish.isSome with
      | true => exact CapturedZero_mono hzero
      | false => exact hzero
  old_entry e he hold := by
    rw [hnow, hc, hgen]
    exact h.old_entry e (hcache ▸ he) hold

theorem Inv.setFinish (h : Inv s) (f : Finish) : Inv (s.setFinish f) :=
  h.congr rfl rfl rfl rfl rfl rfl fun _ => rfl

theorem Inv.setRead (h : Inv s) (i : ℕ) {r : Read δ} (hr : r.CapturedZero s.finish.isSome) : Inv (s.setRead i r) where
  committed := h.committed
  bumped_of_cleared := h.bumped_of_cleared
  absent := h.absent
  counted := h.counted
  captured j := by
    simp only [State.setRead, Function.update_apply]
    split
    · exact hr
    · exact h.captured j
  old_entry := h.old_entry

/-- a read that holds no generation promises nothing -/
theorem capturedZero_of_none {r : Read δ} {c : Bool} (h : r.captured = none) : r.CapturedZero c :=
  fun _ _ hr => nomatch h.symm.trans hr

theorem inv_tick (h : Inv s) (ms : ℕ) : Inv { s with now := s.now + ms } where
  committed := h.committed
  bumped_of_cleared := h.bumped_of_cleared
  absent := h.absent
  counted := h.counted
  captured := h.captured
  old_entry e he hold := by
    obtain ⟨hzero, hle, hc, hout⟩ := h.old_entry e he hold
    exact ⟨hzero, hle.trans (Nat.add_le_add_right (Nat.le_add_right _ _) _), hc, hout⟩

/-- the bump gives the generation key a deadline that no entry exceeds -/
theorem inv_incrMatchGeneration (h : Inv s) (hf : s.finish.isSome = true) : Inv s.incrMatchGeneration where
  committed _ := hf
  bumped_of_cleared _ := rfl
  absent hb := nomatch hb
  counted _ := ⟨_, rfl, Nat.le_add_left 1 _⟩
  captured := h.captured
  old_entry e he hold := by
    obtain ⟨hzero, hle, hc, -⟩ := h.old_entry e he hold
    refine ⟨hzero, hle, hc, fun g hg => ?_⟩
    obtain rfl := Option.some.inj hg
    exact hle

theorem inv_delCache (h : Inv s) : Inv s.delCache where
  committed := h.committed
  bumped_of_cleared hc := hc
  absent := h.absent
  counted := h.counted
  captured := h.captured
  old_entry _ he := nomatch he

/-- a store in time leaves an older row out once the generation is bumped -/
theorem inv_storeIfGen (h : Inv s) {gen : ℕ} {data : Loaded δ} (hzero : data.beforeFinish = true → gen = 0)
    (hin : s.bumped = true → data.beforeFinish = true → Expiring.get s.gen s.now ≠ none) :
    Inv (s.storeIfGen gen data) := by
  unfold State.storeIfGen
  split_ifs with hgen
  · refine ⟨h.committed, h.bumped_of_cleared, h.absent, h.counted, h.captured, fun e he hold => ?_⟩
    obtain rfl := Option.some.inj he
    have hnot : s.bumped = false := by
      rw [← Bool.not_eq_true]
      exact fun hb => h.gen_pos hb (hin hb hold) (hgen.trans (hzero hold))
    have hc : s.cleared = false := by
      rw [← Bool.not_eq_true]
      exact fun hc => by simp [h.bumped_of_cleared hc] at hnot
    exact ⟨hzero hold, le_rfl, hc, fun g hg => by simp [h.absent hnot] at hg⟩
  · exact h

/-! ### The steps of a read -/

theorem inv_getMatch (h : Inv s) (i node : ℕ) : Inv (s.getMatch i node) := by
  unfold State.getMatch
  split
  · refine h.setRead i (capturedZero_of_none ?_)
    split <;> rfl
  · exact h

theorem inv_mget (h : Inv s) (i : ℕ) (ok : Bool) : Inv (s.mget i ok) := by
  unfold State.mget
  split
  · split_ifs
    · split
      · exact h.setRead i (capturedZero_of_none rfl)
      · refine h.setRead i fun gen data hr hd => ?_
        obtain ⟨rfl, rfl⟩ := Prod.mk.inj (Option.some.inj hr)
        -- the match is not finished yet, so nothing has bumped the generation
        refine h.gen_zero ?_
        rw [← Bool.not_eq_true]
        exact fun hb => by simp [h.committed hb] at hd
    · exact h.setRead i (capturedZero_of_none rfl)
  · exact h

theorem inv_findUnique (h : Inv s) (i : ℕ) : Inv (s.findUnique i) := by
  unfold State.findUnique
  split
  · rename_i node capturedGen hi
    split
    · refine h.setRead i ?_
      cases capturedGen with
      | none => exact capturedZero_of_none rfl
      | some gen =>
        rintro gen' data hr hd
        obtain ⟨rfl, rfl⟩ := Prod.mk.inj (Option.some.inj hr)
        refine h.captured i gen none (by rw [hi]; rfl) ?_
        cases hf : s.finish with
        | none => rfl
        | some f => simp [hf] at hd
    · exact h.setRead i (capturedZero_of_none rfl)
  · exact h

theorem inv_checkPending (h : Inv s) (i : ℕ) : Inv (s.checkPending i) := by
  unfold State.checkPending
  split
  · rename_i node gen data hi
    refine h.setRead i ?_
    split_ifs
    · exact capturedZero_of_none rfl
    · exact fun gen' data' hr => h.captured i gen' data' (by rw [hi]; exact hr)
  · exact h.setRead i (capturedZero_of_none rfl)
  · exact h

theorem storeRun_reads {o : Op δ} {gen : ℕ} {data : Loaded δ} (ho : storeRun s o = some (gen, data)) :
    ∃ i, s.reads i = .storing gen data := by
  unfold storeRun at ho
  split at ho
  · rename_i i outcome
    split at ho
    · rename_i gen' data' hi
      split_ifs at ho
      obtain ⟨rfl, rfl⟩ := Prod.mk.inj (Option.some.inj ho)
      exact ⟨i, hi⟩
    · cases ho
  · cases ho

/-- a row read before the finish is stored under the absent generation -/
theorem Inv.store_zero (h : Inv s) {i gen : ℕ} {data : Loaded δ} (hi : s.reads i = .storing gen data)
    (hold : data.beforeFinish = true) : gen = 0 :=
  h.captured i gen (some data) (by rw [hi]; rfl) hold

theorem inv_setIfGenMatches (h : Inv s) (i : ℕ) (outcome : Outcome) (hin : InTime s (.setIfGenMatches i outcome)) :
    Inv (s.setIfGenMatches i outcome) := by
  unfold State.setIfGenMatches
  split
  · rename_i gen data hi
    refine Inv.setRead ?_ i (capturedZero_of_none rfl)
    split_ifs with hran
    · exact inv_storeIfGen h (h.store_zero hi) fun hb hold => hin hb gen data (by simp [storeRun, hi, hran]) hold
    · exact h
  · exact h

/-! ### The steps of the finish -/

theorem inv_commit (h : Inv s) (node : ℕ) (details : δ) : Inv (s.commit node details) := by
  unfold State.commit
  split
  · split_ifs
    · exact h
    · exact h.congr rfl rfl rfl rfl rfl rfl fun _ => rfl
  · exact h

theorem inv_invalidate (h : Inv s) : Inv s.invalidate := by
  unfold State.invalidate
  split
  · split
    · exact h.setFinish _
    · exact h
  · exact h

theorem inv_bump (h : Inv s) (outcome : Outcome) : Inv (s.bump outcome) := by
  unfold State.bump
  split
  · rename_i f hf
    split
    · refine Inv.setFinish ?_ _
      split_ifs
      · exact inv_incrMatchGeneration h (by rw [hf]; rfl)
      · exact h
    · exact h
  · exact h

theorem inv_retry (h : Inv s) : Inv s.retry := by
  unfold State.retry
  split
  · split
    · split_ifs
      · exact h.setFinish _
      · exact h
    · exact h
  · exact h

theorem inv_retryDel (h : Inv s) (outcome : Outcome) : Inv (s.retryDel outcome) := by
  unfold State.retryDel
  split
  · split
    · refine Inv.setFinish ?_ _
      split_ifs
      · exact inv_delCache h
      · exact h
    · exact h
  · exact h

theorem inv_del (h : Inv s) (outcome : Outcome) : Inv (s.del outcome) := by
  unfold State.del
  split
  · split
    · refine Inv.setFinish ?_ _
      split_ifs
      · exact inv_delCache h
      · exact h
    · exact h
  · exact h

theorem inv_onModuleDestroy (h : Inv s) : Inv s.onModuleDestroy := by
  unfold State.onModuleDestroy
  split
  · exact h.setFinish _
  · exact h

/-- every step in time keeps the invariant -/
theorem inv_step (h : Inv s) (o : Op δ) (hin : InTime s o) : Inv (step s o) := by
  cases o with
  | tick ms => exact inv_tick h ms
  | write answers details => exact h.congr rfl rfl rfl rfl rfl rfl id
  | terminate details => exact h.congr rfl rfl rfl rfl rfl rfl id
  | remove => exact h.congr rfl rfl rfl rfl rfl rfl id
  | getMatch i node => exact inv_getMatch h i node
  | mget i ok => exact inv_mget h i ok
  | findUnique i => exact inv_findUnique h i
  | checkPending i => exact inv_checkPending h i
  | setIfGenMatches i outcome => exact inv_setIfGenMatches h i outcome hin
  | commit node details => exact inv_commit h node details
  | invalidate => exact inv_invalidate h
  | bump outcome => exact inv_bump h outcome
  | retry => exact inv_retry h
  | retryDel outcome => exact inv_retryDel h outcome
  | del outcome => exact inv_del h outcome
  | onModuleDestroy => exact inv_onModuleDestroy h

/-! ## The cache after the bump -/

theorem served_hit {o : Op δ} {data : Loaded δ} (ho : served s o = some data) : s.hit = some data := by
  unfold served at ho
  split at ho
  · split at ho
    · exact ho
    · cases ho
  · cases ho

/-- a step is fresh exactly if it is in time: a late store finds the absent generation that its read has captured -/
theorem fresh_iff_inTime (h : Inv s) (o : Op δ) : Fresh s o ↔ InTime s o := by
  constructor
  · intro hfresh hb gen data ho hold hexpired
    obtain ⟨i, hi⟩ := storeRun_reads ho
    have hgen : s.currentGen = gen := by simp [State.currentGen, hexpired, h.store_zero hi hold]
    have hnew := (hfresh hb).2 gen data ho hgen
    simp [hold] at hnew
  · refine fun hin hb => ⟨fun data ho => h.hit_fresh hb (served_hit ho), fun gen data ho hgen => ?_⟩
    obtain ⟨i, hi⟩ := storeRun_reads ho
    rw [← Bool.not_eq_true]
    exact fun hold => h.gen_pos hb (hin hb gen data ho hold) (hgen.trans (h.store_zero hi hold))

theorem Inv.purged (h : Inv s) : Purged s := by
  intro hc payload hp
  obtain ⟨e, he, -, rfl⟩ := Expiring.get_eq_some.1 hp
  rw [← Bool.not_eq_true]
  intro hold
  have hnot := (h.old_entry e he hold).2.2.1
  simp [hc] at hnot

end Steps

/-- **The read cache after a finish.** In every run, no step stores or serves a row read before the finish once the
generation is bumped, exactly if no read stores such a row after the generation key has expired; and then the cache
holds none once a deletion has followed the bump. -/
theorem prefinish_rows_gone (row : Row δ) (ops : List (Op δ)) :
    (Along step Fresh (State.init row) ops ↔ Along step InTime (State.init row) ops) ∧
      (Along step InTime (State.init row) ops → Purged (run step (State.init row) ops)) := by
  have hinv : ∀ s o, True → InTime s o → Inv s → Inv (step s o) := fun s o _ hin h => inv_step (δ := δ) h o hin
  refine ⟨?_, fun hin => ?_⟩
  · exact along_congr step (fun _ _ => True) Fresh InTime Inv hinv (fun s o _ h => fresh_iff_inTime h o) _ ops
      (along_true step _ ops) (inv_init row)
  · exact (run_inv step InTime Inv (fun s o hin h => inv_step h o hin) _ ops hin (inv_init row)).purged

/-! ## A read that is slower than the key -/

def liveRow : Row Unit := ⟨.roundActive, [], ()⟩

/-- read 0 holds the live row while the match finishes -/
def finishDuringRead : List (Op Unit) :=
  [.getMatch 0 1, .mget 0 true, .findUnique 0, .checkPending 0, .commit 0 (), .invalidate, .bump .ok, .del .ok]

/-- the store comes in the last millisecond of the key -/
def promptStore : List (Op Unit) := finishDuringRead ++ [.tick 5000, .setIfGenMatches 0 .ok]

/-- one millisecond later -/
def lateStore : List (Op Unit) := finishDuringRead ++ [.tick 5001, .setIfGenMatches 0 .ok]

theorem prefinish_rows_gone_prompt :
    Along step InTime (State.init liveRow) promptStore ∧ Along step Fresh (State.init liveRow) promptStore ∧
      Purged (run step (State.init liveRow) promptStore) := by
  have hin : Along step InTime (State.init liveRow) promptStore := by
    simp only [promptStore, finishDuringRead, List.cons_append, List.nil_append, Along]
    refine ⟨?_, ?_, ?_, ?_, ?_, ?_, ?_, ?_, ?_, ?_, trivial⟩
    all_goals first
      | exact fun _ _ _ _ _ => by decide
      | exact fun hb => absurd hb Bool.false_ne_true
  exact ⟨hin, (prefinish_rows_gone liveRow promptStore).1.2 hin, (prefinish_rows_gone liveRow promptStore).2 hin⟩

/-- **The guard can be outwaited.** The invalidation is complete: the generation is bumped, the cached row deleted. One
millisecond after the generation key has expired, read 0 finds its generation again and stores the live row, which read
1 is served. -/
theorem slow_read_stored :
    (run step (State.init liveRow) finishDuringRead).finish = some ⟨0, false, .done, .done, false⟩ ∧
      (run step (State.init liveRow) finishDuringRead).cleared = true ∧
      ¬Along step Fresh (State.init liveRow) lateStore ∧
      (run step (State.init liveRow) (lateStore ++ [.getMatch 1 1, .mget 1 true])).reads 1 =
        .returned ⟨liveRow, true⟩ := by
  refine ⟨by decide, by decide, fun hall => ?_, by decide⟩
  obtain ⟨-, -, hstore, -⟩ := (along_append step Fresh _ finishDuringRead _).1 hall
  have hnew := (hstore rfl).2 0 ⟨liveRow, true⟩ (by decide) (by decide)
  exact Bool.false_ne_true hnew.symm

end Arena.Api.MatchCache
