/-
The card variants that a daily streak unlocks (`daily.service.ts`), for one user: `submit` from the creation of the
attempt on, with the direct unlock (`maybeUnlockCardVariantInTx`), the pending row it leaves when that fails, and the
drain of pending rows (`drainPendingCardVariantUnlocksInTx`).

Any number of submits run statement by statement, in any order. A statement may fail, or take effect and lose its reply;
a node may crash. The drain handles a pending row in a transaction: its lock and the row it inserts are its own until
the commit, others wait for them, and reads see what is committed. The streak of a submit is whatever its first part
computed. A row of `owned` carries where it came from, and a processed row whether its transaction found every
unlockable variant owned; both are ghosts.

- `Change`, `step_change`: what a statement can do;
- `StoreInv`, `TaskOk`, `Exclusive`: a day has one submit, which grants its variant or hands it to one pending row;
- `unlocks_once`: one row a day, as long as no added row goes unnoticed and grants do not overlap;
- `lost_unlock_repeats`, `overlapping_drains_swallow`: neither can be left out.
-/
import Arena.Shared.Cards
import Arena.Lib.Run

namespace Arena.Api.VariantUnlocks

open Arena.Lib Arena.Shared

/-! ## Variants -/

inductive CardVariantKey where
  | default
  | neon
  | gold
deriving DecidableEq, Repr

/-- `CARD_VARIANT_ORDER` -/
def cardVariantOrder : List CardVariantKey := [.default, .neon, .gold]

/-- `CARD_VARIANT_STREAK_THRESHOLD` -/
def cardVariantStreakThreshold : ℕ := 7

def nextCardVariant (ownedVariants : List CardVariantKey) : Option CardVariantKey :=
  cardVariantOrder.find? fun key => key ≠ .default && key ∉ ownedVariants

def pickCardForVariantUnlock (classId : ClassId) (unlockIndex : ℕ) : CardId :=
  match getClassPool classId with
  | [] => .cb1
  | card :: cards => ((card :: cards)[unlockIndex % (cards.length + 1)]?).getD .cb1

/-- a positive multiple of the threshold -/
def isUnlockStreak (streakAfter : ℕ) : Bool := 0 < streakAfter && streakAfter % cardVariantStreakThreshold = 0

/-! ## Tables -/

/-- the day whose unlock added a row: by its submit, or through its pending row -/
inductive Source where
  | direct (dateKey : String)
  | drain (row : ℕ) (dateKey : String)
deriving DecidableEq, Repr

def Source.dateKey : Source → String
  | .direct d => d
  | .drain _ d => d

def Source.row : Source → Option ℕ
  | .direct _ => none
  | .drain k _ => some k

/-- a `user_card_variants` row -/
structure OwnedRow where
  cardId : CardId
  variantKey : CardVariantKey
  source : Source
deriving DecidableEq, Repr

/-- a `pending_card_variant_unlocks` row; its id is its position -/
structure PendingRow where
  dateKey : String
  streakAfter : ℕ
  processed : Bool
  complete : Bool
deriving DecidableEq, Repr

/-- what the transaction of a pending row is about to commit -/
structure Grant where
  variant : Option (CardId × CardVariantKey)
  inserted : Bool
  complete : Bool
deriving DecidableEq, Repr

/-- the statement a submit is at -/
inductive Stage where
  /-- `dailyAttempt.create` -/
  | creating
  /-- the direct unlock: its read of the owned rows, its upsert, and the pending row when it throws -/
  | owning
  | unlocking (cardId : CardId) (variantKey : CardVariantKey)
  | recording
  /-- the drain: its read of the pending rows, then the transaction of each -/
  | listing
  | locking (row : ℕ) (rest : List ℕ)
  | reading (row : ℕ) (rest : List ℕ)
  | granting (row : ℕ) (rest : List ℕ) (cardId : CardId) (variantKey : CardVariantKey) (unlockIndex : ℕ)
  | marking (row : ℕ) (rest : List ℕ) (grant : Grant)
  | committing (row : ℕ) (rest : List ℕ) (grant : Grant)
  | done
deriving DecidableEq, Repr

namespace Stage

/-- the direct unlock is not settled -/
def direct : Stage → Bool
  | .owning => true
  | .unlocking .. => true
  | .recording => true
  | _ => false

/-- the pending row locked by the transaction -/
def lock : Stage → Option ℕ
  | .reading k _ => some k
  | .granting k .. => some k
  | .marking k .. => some k
  | .committing k .. => some k
  | _ => none

def grant : Stage → Option Grant
  | .marking _ _ g => some g
  | .committing _ _ g => some g
  | _ => none

/-- the key of the row the transaction has inserted -/
def inserted (stage : Stage) : Option (CardId × CardVariantKey) :=
  stage.grant.bind fun g => if g.inserted then g.variant else none

/-- the drain goes on to the next row -/
def nextRow : List ℕ → Stage
  | [] => .done
  | k :: rest => .locking k rest

end Stage

structure Task where
  dateKey : String
  streakAfter : ℕ
  /-- the unlock that the reply will report -/
  unlock : Option (CardId × CardVariantKey)
  stage : Stage
deriving DecidableEq, Repr

structure Store where
  attempts : List String
  owned : List OwnedRow
  pending : List PendingRow
  tasks : List Task
deriving DecidableEq, Repr

inductive Op where
  | submit (dateKey : String) (streakAfter : ℕ)
  /-- the next statement of a submit runs, or waits for a lock -/
  | advance (i : ℕ)
  | fail (i : ℕ)
  /-- the statement takes effect and its reply is lost -/
  | lose (i : ℕ)
  | crash (i : ℕ)
deriving DecidableEq, Repr

namespace Store

def init : Store := ⟨[], [], [], []⟩

def setTask (s : Store) (i : ℕ) (t : Task) : Store := { s with tasks := s.tasks.set i t }

def keyOwned (s : Store) (cardId : CardId) (variantKey : CardVariantKey) : Bool :=
  s.owned.any fun r => r.cardId = cardId && r.variantKey = variantKey

/-- a transaction has inserted the key and not committed -/
def keyInserting (s : Store) (cardId : CardId) (variantKey : CardVariantKey) : Bool :=
  s.tasks.any fun t => t.stage.inserted = some (cardId, variantKey)

def rowLocked (s : Store) (row : ℕ) : Bool := s.tasks.any fun t => t.stage.lock = some row

/-- the variant `maybeUnlockCardVariantInTx` picks, and the card -/
def unlockChoice (owned : List OwnedRow) : Option (CardId × CardVariantKey) :=
  (nextCardVariant (owned.map OwnedRow.variantKey)).map fun v => (pickCardForVariantUnlock .attack owned.length, v)

/-- `dailyAttempt.create`; `none` is P2002 -/
def createAttempt (s : Store) (dateKey : String) : Option Store :=
  if dateKey ∈ s.attempts then none else some { s with attempts := s.attempts ++ [dateKey] }

def insertOwned (s : Store) (row : OwnedRow) : Store := { s with owned := s.owned ++ [row] }

def insertPending (s : Store) (row : PendingRow) : Store := { s with pending := s.pending ++ [row] }

/-- `userCardVariant.upsert` outside a transaction -/
def upsertOwned (s : Store) (dateKey : String) (cardId : CardId) (variantKey : CardVariantKey) : Store :=
  if s.keyOwned cardId variantKey then s
  else s.insertOwned ⟨cardId, variantKey, .direct dateKey⟩

/-- `pendingCardVariantUnlock.create`, with P2002 swallowed -/
def createPending (s : Store) (dateKey : String) (streakAfter : ℕ) : Store :=
  if s.pending.any fun r => r.dateKey = dateKey && r.streakAfter = streakAfter then s
  else s.insertPending ⟨dateKey, streakAfter, false, false⟩

/-- the positions of the rows that are not processed, oldest first -/
def unprocessed (s : Store) : List ℕ :=
  (List.range s.pending.length).filter fun k => s.pending[k]?.any fun r => !r.processed

/-- the commit of the transaction of a pending row -/
def commitRow (s : Store) (row : ℕ) (g : Grant) : Store :=
  match s.pending[row]? with
  | none => s
  | some r =>
    { s with
      owned := s.owned ++
        match g.variant with
        | some (cardId, variantKey) =>
          if g.inserted then [⟨cardId, variantKey, .drain row r.dateKey⟩] else []
        | none => []
      pending := s.pending.set row { r with processed := true, complete := g.complete } }

/-- the read of the owned rows in the transaction of a pending row -/
def readRow (s : Store) (row : ℕ) (rest : List ℕ) : Stage :=
  match s.pending[row]? with
  | none => .nextRow rest
  | some r =>
    if isUnlockStreak r.streakAfter then
      match unlockChoice s.owned with
      | none => .marking row rest ⟨none, false, true⟩
      | some (cardId, variantKey) => .granting row rest cardId variantKey s.owned.length
    else .marking row rest ⟨none, false, false⟩

/-- the lock of a pending row that is not processed -/
def lockRow (s : Store) (row : ℕ) (rest : List ℕ) : Stage :=
  if s.pending[row]?.any fun r => !r.processed then .reading row rest else .nextRow rest

def advance (s : Store) (i : ℕ) (t : Task) : Store :=
  match t.stage with
  | .creating =>
    match s.createAttempt t.dateKey with
    | none => s.setTask i { t with stage := .done }
    | some s1 => s1.setTask i { t with stage := if isUnlockStreak t.streakAfter then .owning else .listing }
  | .owning =>
    match unlockChoice s.owned with
    | none => s.setTask i { t with stage := .listing }
    | some (cardId, variantKey) => s.setTask i { t with stage := .unlocking cardId variantKey }
  | .unlocking cardId variantKey =>
    if s.keyInserting cardId variantKey then s
    else (s.upsertOwned t.dateKey cardId variantKey).setTask i
      { t with unlock := some (cardId, variantKey), stage := .listing }
  | .recording => (s.createPending t.dateKey t.streakAfter).setTask i { t with stage := .listing }
  | .listing => s.setTask i { t with stage := .nextRow s.unprocessed }
  | .locking row rest => if s.rowLocked row then s else s.setTask i { t with stage := s.lockRow row rest }
  | .reading row rest => s.setTask i { t with stage := s.readRow row rest }
  | .granting row rest cardId variantKey _ =>
    if s.keyInserting cardId variantKey then s
    else s.setTask i
      { t with stage := .marking row rest ⟨some (cardId, variantKey), !s.keyOwned cardId variantKey, false⟩ }
  | .marking row rest g => s.setTask i { t with stage := .committing row rest g }
  | .committing row rest g =>
    (s.commitRow row g).setTask i { t with unlock := t.unlock.or g.variant, stage := .nextRow rest }
  | .done => s

/-- where a submit is after its statement threw -/
def thrown : Stage → Stage
  | .creating => .done
  | .owning => .recording
  | .unlocking .. => .recording
  | .recording => .listing
  | .listing => .done
  | .locking _ rest => .nextRow rest
  | .reading _ rest => .nextRow rest
  | .granting _ rest .. => .nextRow rest
  | .marking _ rest _ => .nextRow rest
  | .committing _ rest _ => .nextRow rest
  | .done => .done

def fail (s : Store) (i : ℕ) (t : Task) : Store := s.setTask i { t with stage := thrown t.stage }

/-- the statement takes effect and throws; a statement of an open transaction is rolled back -/
def lose (s : Store) (i : ℕ) (t : Task) : Store :=
  match t.stage with
  | .creating => ((s.createAttempt t.dateKey).getD s).fail i t
  | .unlocking cardId variantKey =>
    (if s.keyInserting cardId variantKey then s else s.upsertOwned t.dateKey cardId variantKey).fail i t
  | .recording => (s.createPending t.dateKey t.streakAfter).fail i t
  | .committing row _ g => (s.commitRow row g).fail i t
  | _ => s.fail i t

def step (s : Store) : Op → Store
  | .submit dateKey streakAfter => { s with tasks := s.tasks ++ [⟨dateKey, streakAfter, none, .creating⟩] }
  | .advance i => (s.tasks[i]?).elim s (s.advance i)
  | .fail i => (s.tasks[i]?).elim s (s.fail i)
  | .lose i => (s.tasks[i]?).elim s (s.lose i)
  | .crash i => (s.tasks[i]?).elim s fun t => s.setTask i { t with stage := .done }

end Store

/-! ## What is claimed -/

/-- every unlockable variant is owned -/
def AllOwned (s : Store) : Prop := ∀ v, v ≠ CardVariantKey.default → v ∈ s.owned.map OwnedRow.variantKey

/-- each day adds at most one row -/
def OncePerDay (s : Store) : Prop := ∀ d, (s.owned.countP fun r => r.source.dateKey = d) ≤ 1

/-- a processed row has led to one row, unless its transaction found every unlockable variant owned -/
def ProcessedOnce (s : Store) : Prop :=
  ∀ (k : ℕ) r, s.pending[k]? = some r → r.processed = true →
    (s.owned.countP fun o => o.source.row = some k) = 1 ∨ r.complete = true ∧ AllOwned s

/-- a direct unlock that adds a row gets its reply, and a drain upserts into the rows it has read -/
def Undisturbed (s : Store) : Op → Prop
  | .lose i =>
    match (s.tasks[i]?).map Task.stage with
    | some (.unlocking cardId variantKey) => (s.keyInserting cardId variantKey || s.keyOwned cardId variantKey) = true
    | _ => True
  | .advance i =>
    match (s.tasks[i]?).map Task.stage with
    | some (.granting _ _ _ _ unlockIndex) => unlockIndex = s.owned.length
    | _ => True
  | _ => True

instance (s : Store) : DecidablePred (Undisturbed s) := fun o => by
  unfold Undisturbed
  split
  · split <;> infer_instance
  · split <;> infer_instance
  · infer_instance

/-! ## Invariants -/

/-- the tables: a day known to the attempts has a pending row or a direct grant, and one row of variants at most -/
structure StoreInv (s : Store) : Prop where
  pendingDays : (s.pending.map PendingRow.dateKey).Nodup
  pendingKnown : ∀ r ∈ s.pending, isUnlockStreak r.streakAfter = true ∧ r.dateKey ∈ s.attempts
  ownedKnown : ∀ o ∈ s.owned, o.source.dateKey ∈ s.attempts
  drained : ∀ o ∈ s.owned, ∀ k, o.source.row = some k → (s.pending[k]?).map PendingRow.dateKey = some o.source.dateKey
  once : OncePerDay s
  processed : ProcessedOnce s
  waiting : ∀ (k : ℕ) r, s.pending[k]? = some r → r.processed = false → ∀ o ∈ s.owned, o.source.dateKey ≠ r.dateKey

/-- one submit against the tables -/
structure TaskOk (s : Store) (t : Task) : Prop where
  streak : t.stage.direct = true → isUnlockStreak t.streakAfter = true
  known : t.stage.direct = true → t.dateKey ∈ s.attempts
  noRow : t.stage.direct = true → ∀ o ∈ s.owned, o.source.dateKey ≠ t.dateKey
  noPending : t.stage.direct = true → ∀ r ∈ s.pending, r.dateKey ≠ t.dateKey
  lock : ∀ k, t.stage.lock = some k → ∃ r, s.pending[k]? = some r ∧ r.processed = false
  choice : ∀ k rest c v n, t.stage = .granting k rest c v n →
    n ≤ s.owned.length ∧ Store.unlockChoice (s.owned.take n) = some (c, v)
  grant : ∀ g, t.stage.grant = some g →
    (∃ cv, g.variant = some cv) ∧ g.inserted = true ∨ g.inserted = false ∧ g.complete = true ∧ AllOwned s

/-- no two submits settle the direct unlock of one day, and none share a lock -/
structure Exclusive (tasks : List Task) : Prop where
  days : ∀ (i j : ℕ) ti tj, i ≠ j → tasks[i]? = some ti → tasks[j]? = some tj → ti.stage.direct = true →
    tj.stage.direct = true → ti.dateKey ≠ tj.dateKey
  locks : ∀ (i j : ℕ) ti tj, i ≠ j → tasks[i]? = some ti → tasks[j]? = some tj → ∀ k, ti.stage.lock = some k →
    tj.stage.lock ≠ some k

structure Inv (s : Store) : Prop where
  store : StoreInv s
  tasks : ∀ (i : ℕ) t, s.tasks[i]? = some t → TaskOk s t
  exclusive : Exclusive s.tasks

/-- the tables grew, by nothing that concerns the submit -/
structure Grown (s s' : Store) (t : Task) : Prop where
  attempts : ∀ d ∈ s.attempts, d ∈ s'.attempts
  owned : ∃ l, s'.owned = s.owned ++ l ∧ (t.stage.direct = true → ∀ o ∈ l, o.source.dateKey ≠ t.dateKey)
  pending : t.stage.direct = true → ∀ r ∈ s'.pending, r.dateKey = t.dateKey → ∃ r0 ∈ s.pending, r0.dateKey = t.dateKey
  locked : ∀ k, t.stage.lock = some k → s'.pending[k]? = s.pending[k]?

theorem Grown.same {s s' : Store} (t : Task) (ha : s'.attempts = s.attempts) (ho : s'.owned = s.owned)
    (hp : s'.pending = s.pending) : Grown s s' t :=
  ⟨fun d hd => ha ▸ hd, ⟨[], by simp [ho]⟩, fun _ r hr hd => ⟨r, hp ▸ hr, hd⟩, fun _ _ => by rw [hp]⟩

theorem AllOwned.append {s s' : Store} {l : List OwnedRow} (h : AllOwned s) (ho : s'.owned = s.owned ++ l) :
    AllOwned s' := by
  intro v hv
  rw [ho, List.map_append]
  exact List.mem_append_left _ (h v hv)

theorem TaskOk.grown {s s' : Store} {t : Task} (h : TaskOk s t) (hg : Grown s s' t) : TaskOk s' t := by
  obtain ⟨l, ho, hl⟩ := hg.owned
  refine ⟨h.streak, fun hd => hg.attempts _ (h.known hd), ?_, ?_, ?_, ?_, ?_⟩
  · intro hd o hmem
    rw [ho] at hmem
    rcases List.mem_append.1 hmem with hmem | hmem
    · exact h.noRow hd o hmem
    · exact hl hd o hmem
  · intro hd r hr hday
    obtain ⟨r0, hr0, hday0⟩ := hg.pending hd r hr hday
    exact h.noPending hd r0 hr0 hday0
  · intro k hk
    rw [hg.locked k hk]
    exact h.lock k hk
  · intro k rest c v n hs
    obtain ⟨hn, hc⟩ := h.choice k rest c v n hs
    rw [ho, List.length_append, List.take_append_of_le_length hn]
    exact ⟨by omega, hc⟩
  · intro g hgr
    rcases h.grant g hgr with h1 | ⟨h1, h2, h3⟩
    · exact .inl h1
    · exact .inr ⟨h1, h2, h3.append ho⟩

/-- one submit moves on: what it needs of the tables, and what the others keep -/
theorem inv_set {s s' : Store} {i : ℕ} {t' : Task} (h : Inv s) (htasks : s'.tasks = s.tasks.set i t')
    (hstore : StoreInv s') (hok : TaskOk s' t')
    (hgrown : ∀ (j : ℕ) tj, j ≠ i → s.tasks[j]? = some tj → Grown s s' tj)
    (hdays : t'.stage.direct = true → ∀ (j : ℕ) tj, j ≠ i → s.tasks[j]? = some tj → tj.stage.direct = true →
      tj.dateKey ≠ t'.dateKey)
    (hlocks : ∀ k, t'.stage.lock = some k → ∀ (j : ℕ) tj, j ≠ i → s.tasks[j]? = some tj → tj.stage.lock ≠ some k) :
    Inv s' := by
  have hget : ∀ (j : ℕ) tj, s'.tasks[j]? = some tj → j = i ∧ tj = t' ∨ j ≠ i ∧ s.tasks[j]? = some tj := by
    intro j tj hj
    rw [htasks] at hj
    by_cases hji : j = i
    · subst hji
      rw [List.getElem?_set_self' ] at hj
      obtain ⟨_, -, hx⟩ := Option.map_eq_some_iff.1 hj
      exact .inl ⟨rfl, hx.symm⟩
    · rw [List.getElem?_set_ne (Ne.symm hji)] at hj
      exact .inr ⟨hji, hj⟩
  refine ⟨hstore, ?_, ?_, ?_⟩
  · intro j tj hj
    rcases hget j tj hj with ⟨-, rfl⟩ | ⟨hji, hj'⟩
    · exact hok
    · exact (h.tasks j tj hj').grown (hgrown j tj hji hj')
  · intro a b ta tb hab ha hb hda hdb
    rcases hget a ta ha with ⟨rfl, rfl⟩ | ⟨hai, ha'⟩
    · rcases hget b tb hb with ⟨rfl, -⟩ | ⟨hbi, hb'⟩
      · exact absurd rfl hab
      · exact (hdays hda b tb hbi hb' hdb).symm
    · rcases hget b tb hb with ⟨rfl, rfl⟩ | ⟨hbi, hb'⟩
      · exact hdays hdb a ta hai ha' hda
      · exact h.exclusive.days a b ta tb hab ha' hb' hda hdb
  · intro a b ta tb hab ha hb k hk hk'
    rcases hget a ta ha with ⟨rfl, rfl⟩ | ⟨hai, ha'⟩
    · rcases hget b tb hb with ⟨rfl, -⟩ | ⟨hbi, hb'⟩
      · exact hab rfl
      · exact hlocks k hk b tb hbi hb' hk'
    · rcases hget b tb hb with ⟨rfl, rfl⟩ | ⟨hbi, hb'⟩
      · exact hlocks k hk' a ta hai ha' hk
      · exact h.exclusive.locks a b ta tb hab ha' hb' k hk hk'

/-! ## Statements that change no table -/

section Quiet

variable {s : Store} {i : ℕ} {t t' : Task}

theorem inv_quiet (h : Inv s) (ht : s.tasks[i]? = some t) (hday : t'.dateKey = t.dateKey)
    (hstreak : t'.streakAfter = t.streakAfter) (hd : t'.stage.direct = true → t.stage.direct = true)
    (hl : ∀ k, t'.stage.lock = some k → t.stage.lock = some k)
    (hc : ∀ k rest c v n, t'.stage = .granting k rest c v n →
      n ≤ s.owned.length ∧ Store.unlockChoice (s.owned.take n) = some (c, v))
    (hg : ∀ g, t'.stage.grant = some g →
      (∃ cv, g.variant = some cv) ∧ g.inserted = true ∨ g.inserted = false ∧ g.complete = true ∧ AllOwned s) :
    Inv (s.setTask i t') := by
  have hok := h.tasks i t ht
  refine inv_set h rfl ⟨h.store.1, h.store.2, h.store.3, h.store.4, h.store.5, h.store.6, h.store.7⟩ ?_
    (fun j tj _ _ => .same tj rfl rfl rfl) ?_ ?_
  · refine ⟨fun hd' => hstreak ▸ hok.streak (hd hd'), fun hd' => hday ▸ hok.known (hd hd'),
      fun hd' => hday ▸ hok.noRow (hd hd'), fun hd' => hday ▸ hok.noPending (hd hd'), fun k hk => hok.lock k (hl k hk),
      hc, hg⟩
  · intro hd' j tj hj htj hdj
    rw [hday]
    exact h.exclusive.days j i tj t hj htj ht hdj (hd hd')
  · intro k hk j tj hj htj hkj
    exact h.exclusive.locks j i tj t hj htj ht k hkj (hl k hk)

theorem grant_of_unlocked {stage : Stage} (h : stage.lock = none) : stage.grant = none := by
  cases stage <;> first | rfl | cases h

/-- a submit that moves on without a lock -/
theorem inv_release (h : Inv s) (ht : s.tasks[i]? = some t) (hday : t'.dateKey = t.dateKey)
    (hstreak : t'.streakAfter = t.streakAfter) (hd : t'.stage.direct = true → t.stage.direct = true)
    (hl : t'.stage.lock = none) : Inv (s.setTask i t') := by
  refine inv_quiet h ht hday hstreak hd (fun k hk => ?_) (fun k rest c v n hs => ?_) (fun g hg => ?_)
  · rw [hl] at hk
    cases hk
  · rw [hs] at hl
    cases hl
  · rw [grant_of_unlocked hl] at hg
    cases hg

theorem nextRow_lock (rest : List ℕ) : (Stage.nextRow rest).lock = none := by cases rest <;> rfl

theorem nextRow_direct (rest : List ℕ) : (Stage.nextRow rest).direct = false := by cases rest <;> rfl

/-- the next pending row, or the end -/
theorem inv_nextRow (h : Inv s) (ht : s.tasks[i]? = some t) (unlock : Option (CardId × CardVariantKey))
    (rest : List ℕ) : Inv (s.setTask i { t with unlock := unlock, stage := .nextRow rest }) := by
  refine inv_release h ht rfl rfl (fun hd => ?_) (nextRow_lock rest)
  rw [nextRow_direct] at hd
  cases hd

theorem thrown_lock (stage : Stage) : (Store.thrown stage).lock = none := by
  cases stage <;> first | rfl | exact nextRow_lock _

theorem thrown_direct {stage : Stage} (h : (Store.thrown stage).direct = true) : stage.direct = true := by
  cases stage <;> first
    | rfl
    | cases h
    | rw [Store.thrown, nextRow_direct] at h
      cases h

theorem inv_fail (h : Inv s) (ht : s.tasks[i]? = some t) : Inv (s.fail i t) :=
  inv_release h ht rfl rfl thrown_direct (thrown_lock t.stage)

/-- a pending row that is not processed is locked by nobody else -/
theorem inv_lockRow (h : Inv s) (ht : s.tasks[i]? = some t) (k : ℕ) (rest : List ℕ) (hfree : s.rowLocked k = false) :
    Inv (s.setTask i { t with stage := s.lockRow k rest }) := by
  unfold Store.lockRow
  split_ifs with hr
  · obtain ⟨r, hget, hproc⟩ := (Option.any_eq_true _ _).1 hr
    have hfree' : ∀ (j : ℕ) tj, s.tasks[j]? = some tj → tj.stage.lock ≠ some k := by
      intro j tj hj hk
      have hnone := List.any_eq_false.1 hfree tj (List.mem_of_getElem? hj)
      simp [hk] at hnone
    refine inv_set h rfl ⟨h.store.1, h.store.2, h.store.3, h.store.4, h.store.5, h.store.6, h.store.7⟩ ?_
      (fun j tj _ _ => .same tj rfl rfl rfl) nofun ?_
    · refine ⟨nofun, nofun, nofun, nofun, fun k' hk' => ?_, nofun, nofun⟩
      obtain rfl : k = k' := Option.some.inj hk'
      exact ⟨r, hget, by simpa using hproc⟩
    · intro k' hk' j tj _ htj
      obtain rfl : k = k' := Option.some.inj hk'
      exact hfree' j tj htj
  · exact inv_nextRow h ht t.unlock rest

/-- the read of a locked row's transaction -/
theorem inv_readRow (h : Inv s) (ht : s.tasks[i]? = some t) {k : ℕ} {rest : List ℕ} (hs : t.stage = .reading k rest) :
    Inv (s.setTask i { t with stage := s.readRow k rest }) := by
  have hlock : t.stage.lock = some k := by rw [hs]; rfl
  obtain ⟨r, hr, -⟩ := (h.tasks i t ht).lock k hlock
  have hstreak := (h.store.pendingKnown r (List.mem_of_getElem? hr)).1
  simp only [Store.readRow, hr, hstreak, if_true]
  cases hc : Store.unlockChoice s.owned with
  | none =>
    refine inv_quiet h ht rfl rfl nofun (fun k' hk' => hlock.trans hk') nofun fun g hg => ?_
    rw [← Option.some.inj hg]
    refine .inr ⟨rfl, rfl, fun v hv => ?_⟩
    -- no variant but the default is left to choose
    simp only [Store.unlockChoice, Option.map_eq_none_iff, nextCardVariant, List.find?_eq_none] at hc
    have hmem : v ∈ cardVariantOrder := by cases v <;> decide
    simpa [hv] using hc v hmem
  | some choice =>
    refine inv_quiet h ht rfl rfl nofun (fun k' hk' => hlock.trans hk') ?_ nofun
    intro k' rest' c v n hg
    obtain ⟨-, -, rfl, rfl, rfl⟩ := Stage.granting.inj hg
    rw [List.take_length]
    exact ⟨le_rfl, hc⟩

/-- a variant that was chosen from the rows is not among them -/
theorem choice_new {owned : List OwnedRow} {c : CardId} {v : CardVariantKey}
    (h : Store.unlockChoice owned = some (c, v)) : v ∉ owned.map OwnedRow.variantKey := by
  obtain ⟨key, hkey, he⟩ := Option.map_eq_some_iff.1 h
  obtain rfl : key = v := congrArg Prod.snd he
  have hsome := List.find?_some hkey
  simp only [ne_eq, Bool.and_eq_true, decide_eq_true_eq] at hsome
  exact hsome.2

/-- the upsert of a locked row's transaction, into the rows it has read -/
theorem inv_grant (h : Inv s) (ht : s.tasks[i]? = some t) {k : ℕ} {rest : List ℕ} {c : CardId} {v : CardVariantKey}
    {n : ℕ} (hs : t.stage = .granting k rest c v n) (hn : n = s.owned.length) :
    Inv (s.setTask i { t with stage := .marking k rest ⟨some (c, v), !s.keyOwned c v, false⟩ }) := by
  have hlock : t.stage.lock = some k := by rw [hs]; rfl
  obtain ⟨-, hc⟩ := (h.tasks i t ht).choice k rest c v n hs
  rw [hn, List.take_length] at hc
  have hnew : s.keyOwned c v = false := by
    rw [Store.keyOwned, List.any_eq_false]
    intro o ho hkey
    simp only [Bool.and_eq_true, decide_eq_true_eq] at hkey
    exact choice_new hc (List.mem_map.2 ⟨o, ho, hkey.2⟩)
  refine inv_quiet h ht rfl rfl nofun (fun k' hk' => hlock.trans hk') nofun fun g hg => ?_
  rw [← Option.some.inj hg]
  exact .inl ⟨⟨_, rfl⟩, by simp [hnew]⟩

end Quiet

/-! ## Statements that change a table -/

section Tables

variable {s : Store} {i : ℕ} {t t' : Task}

/-- a submit that is past its attempt without a lock is fine once its direct unlock is settled -/
theorem taskOk_settled (hd : t'.stage.direct = false) (hl : t'.stage.lock = none) : TaskOk s t' := by
  have hno : t'.stage.direct ≠ true := by simp [hd]
  refine ⟨fun h => absurd h hno, fun h => absurd h hno, fun h => absurd h hno, fun h => absurd h hno, fun k hk => ?_,
    fun k rest c v n hs => ?_, fun g hg => ?_⟩
  · rw [hl] at hk
    cases hk
  · rw [hs] at hl
    cases hl
  · rw [grant_of_unlocked hl] at hg
    cases hg

/-- the attempt of a new day -/
theorem inv_attempted (h : Inv s) (hnew : t.dateKey ∉ s.attempts) (hday : t'.dateKey = t.dateKey)
    (hstreak : t'.stage.direct = true → isUnlockStreak t'.streakAfter = true) (hl : t'.stage.lock = none) :
    Inv ({ s with attempts := s.attempts ++ [t.dateKey] }.setTask i t') := by
  have hmono : ∀ d ∈ s.attempts, d ∈ s.attempts ++ [t.dateKey] := fun d hd => List.mem_append_left _ hd
  have hne : ∀ d ∈ s.attempts, d ≠ t'.dateKey := by
    rintro d hd rfl
    exact hnew (hday ▸ hd)
  have hgrown : ∀ tj, Grown s ({ s with attempts := s.attempts ++ [t.dateKey] }.setTask i t') tj := fun tj =>
    ⟨hmono, ⟨[], by simp [Store.setTask]⟩, fun _ r hr hd => ⟨r, hr, hd⟩, fun _ _ => rfl⟩
  refine inv_set h rfl ?_ ?_ (fun _ tj _ _ => hgrown tj) ?_ ?_
  · exact ⟨h.store.pendingDays, fun r hr => ⟨(h.store.pendingKnown r hr).1, hmono _ (h.store.pendingKnown r hr).2⟩,
      fun o ho => hmono _ (h.store.ownedKnown o ho), h.store.drained, h.store.once, h.store.processed, h.store.waiting⟩
  · refine ⟨hstreak, fun _ => ?_, fun _ o ho => hne _ (h.store.ownedKnown o ho),
      fun _ r hr => hne _ (h.store.pendingKnown r hr).2, fun k hk => ?_, fun k rest c v n hs => ?_, fun g hg => ?_⟩
    · rw [hday]
      exact List.mem_append_right _ (by simp)
    · rw [hl] at hk
      cases hk
    · rw [hs] at hl
      cases hl
    · rw [grant_of_unlocked hl] at hg
      cases hg
  · exact fun _ j tj _ htj hdj => hne _ ((h.tasks j tj htj).known hdj)
  · intro k hk
    rw [hl] at hk
    cases hk

theorem countP_concat_zero {α : Type} {p : α → Bool} {l : List α} {a : α} (h : ∀ x ∈ l, p x = false) :
    (l ++ [a]).countP p ≤ 1 := by
  have hzero : l.countP p = 0 := List.countP_eq_zero.2 fun x hx => by simp [h x hx]
  rw [List.countP_append, hzero, List.countP_singleton]
  split_ifs <;> omega

/-- one more row of a day that has none -/
theorem once_concat {o : OwnedRow} (h : OncePerDay s) (hnew : ∀ x ∈ s.owned, x.source.dateKey ≠ o.source.dateKey)
    {s' : Store} (ho : s'.owned = s.owned ++ [o]) : OncePerDay s' := by
  intro d
  rw [ho]
  by_cases hd : o.source.dateKey = d
  · exact countP_concat_zero fun x hx => by simpa [hd] using hnew x hx
  · simpa [List.countP_append, hd] using h d

/-- the row of a direct unlock -/
theorem inv_unlocked (h : Inv s) (ht : s.tasks[i]? = some t) (hd : t.stage.direct = true) (c : CardId)
    (v : CardVariantKey) (hd' : t'.stage.direct = false) (hl : t'.stage.lock = none) :
    Inv ((s.insertOwned ⟨c, v, .direct t.dateKey⟩).setTask i t') := by
  have hok := h.tasks i t ht
  refine inv_set h rfl ?_ (taskOk_settled hd' hl) ?_ (by simp [hd']) (by simp [hl])
  · refine ⟨h.store.pendingDays, h.store.pendingKnown, ?_, ?_,
      once_concat (o := ⟨c, v, .direct t.dateKey⟩) h.store.once (hok.noRow hd) rfl, ?_, ?_⟩
    · intro o ho
      rcases List.mem_append.1 ho with ho | ho
      · exact h.store.ownedKnown o ho
      · rw [List.mem_singleton.1 ho]
        exact hok.known hd
    · intro o ho k hk
      rcases List.mem_append.1 ho with ho | ho
      · exact h.store.drained o ho k hk
      · rw [List.mem_singleton.1 ho] at hk
        cases hk
    · intro k r hr hp
      rcases h.store.processed k r hr hp with h1 | ⟨h1, h2⟩
      · exact .inl (by simpa [Store.setTask, Store.insertOwned, List.countP_append, Source.row] using h1)
      · exact .inr ⟨h1, h2.append rfl⟩
    · intro k r hr hp o ho
      rcases List.mem_append.1 ho with ho | ho
      · exact h.store.waiting k r hr hp o ho
      · rw [List.mem_singleton.1 ho]
        exact (hok.noPending hd r (List.mem_of_getElem? hr)).symm
  · intro j tj hj htj
    refine ⟨fun d hd => hd, ⟨[⟨c, v, .direct t.dateKey⟩], rfl, fun hdj o ho => ?_⟩, fun _ r hr hday => ⟨r, hr, hday⟩,
      fun _ _ => rfl⟩
    rw [List.mem_singleton.1 ho]
    exact h.exclusive.days i j t tj (Ne.symm hj) ht htj hd hdj

/-- the pending row of a day without one -/
theorem inv_recorded (h : Inv s) (ht : s.tasks[i]? = some t) (hd : t.stage.direct = true)
    (hd' : t'.stage.direct = false) (hl : t'.stage.lock = none) :
    Inv ((s.insertPending ⟨t.dateKey, t.streakAfter, false, false⟩).setTask i t') := by
  have hok := h.tasks i t ht
  have hold : ∀ (k : ℕ) r, s.pending[k]? = some r →
      (s.pending ++ [⟨t.dateKey, t.streakAfter, false, false⟩])[k]? = some r := fun k r hr => by
    rw [List.getElem?_append_left (List.getElem?_eq_some_iff.1 hr).1]
    exact hr
  have hcases : ∀ (k : ℕ) r, (s.pending ++ [⟨t.dateKey, t.streakAfter, false, false⟩])[k]? = some r →
      s.pending[k]? = some r ∨ r = ⟨t.dateKey, t.streakAfter, false, false⟩ := by
    intro k r hr
    rw [List.getElem?_append] at hr
    split_ifs at hr
    · exact .inl hr
    · exact .inr (List.mem_singleton.1 (List.mem_of_getElem? hr))
  refine inv_set h rfl ?_ (taskOk_settled hd' hl) ?_ (by simp [hd']) (by simp [hl])
  · refine ⟨?_, ?_, h.store.ownedKnown, ?_, h.store.once, ?_, ?_⟩
    · simp only [Store.setTask, Store.insertPending, List.map_append, List.map_cons, List.map_nil]
      refine List.Nodup.append h.store.pendingDays (by simp) ?_
      intro d hmem hsingle
      obtain ⟨r, hr, rfl⟩ := List.mem_map.1 hmem
      exact hok.noPending hd r hr (List.mem_singleton.1 hsingle)
    · intro r hr
      rcases List.mem_append.1 hr with hr | hr
      · exact h.store.pendingKnown r hr
      · rw [List.mem_singleton.1 hr]
        exact ⟨hok.streak hd, hok.known hd⟩
    · intro o ho k hk
      obtain ⟨r, hr, hday⟩ := Option.map_eq_some_iff.1 (h.store.drained o ho k hk)
      exact Option.map_eq_some_iff.2 ⟨r, hold k r hr, hday⟩
    · intro k r hr hp
      rcases hcases k r hr with hr | rfl
      · exact h.store.processed k r hr hp
      · cases hp
    · intro k r hr hp
      rcases hcases k r hr with hr | rfl
      · exact h.store.waiting k r hr hp
      · exact hok.noRow hd
  · intro j tj hj htj
    refine ⟨fun d hd => hd, ⟨[], by simp [Store.setTask, Store.insertPending], by simp⟩, fun hdj r hr hday => ?_,
      fun k hk => ?_⟩
    · rcases List.mem_append.1 hr with hr | hr
      · exact ⟨r, hr, hday⟩
      · rw [List.mem_singleton.1 hr] at hday
        exact absurd hday (h.exclusive.days i j t tj (Ne.symm hj) ht htj hd hdj)
    · obtain ⟨r, hr, -⟩ := (h.tasks j tj htj).lock k hk
      rw [hr]
      exact hold k r hr

/-- the commit of a pending row and of the rows its transaction inserted -/
def markRow (s : Store) (k : ℕ) (r : PendingRow) (complete : Bool) (l : List OwnedRow) : Store :=
  { s with owned := s.owned ++ l, pending := s.pending.set k { r with processed := true, complete := complete } }

theorem commitRow_eq {k : ℕ} {r : PendingRow} {g : Grant} (hr : s.pending[k]? = some r)
    (hg : (∃ cv, g.variant = some cv) ∧ g.inserted = true ∨ g.inserted = false ∧ g.complete = true ∧ AllOwned s) :
    (∃ c v, s.commitRow k g = markRow s k r g.complete [⟨c, v, .drain k r.dateKey⟩]) ∨
      g.complete = true ∧ AllOwned s ∧ s.commitRow k g = markRow s k r g.complete [] := by
  unfold Store.commitRow markRow
  rw [hr]
  rcases hg with ⟨⟨⟨c, v⟩, hv⟩, hi⟩ | ⟨hi, hc, hall⟩
  · exact .inl ⟨c, v, by simp [hv, hi]⟩
  · refine .inr ⟨hc, hall, ?_⟩
    cases g.variant <;> simp [hi]

/-- a processed row, with the row it leads to or none -/
theorem inv_marked (h : Inv s) (ht : s.tasks[i]? = some t) {k : ℕ} {r : PendingRow} {complete : Bool}
    {l : List OwnedRow} (hk : t.stage.lock = some k) (hr : s.pending[k]? = some r) (hwait : r.processed = false)
    (hl : (∃ c v, l = [⟨c, v, .drain k r.dateKey⟩]) ∨ l = [] ∧ complete = true ∧ AllOwned s)
    (hd' : t'.stage.direct = false) (hl' : t'.stage.lock = none) :
    Inv ((markRow s k r complete l).setTask i t') := by
  have hlday : ∀ o ∈ l, o.source = .drain k r.dateKey := by
    rcases hl with ⟨c, v, rfl⟩ | ⟨rfl, -⟩ <;> simp
  have hset : ∀ (k' : ℕ) x, (markRow s k r complete l).pending[k']? = some x →
      k' = k ∧ x = { r with processed := true, complete := complete } ∨ k' ≠ k ∧ s.pending[k']? = some x := by
    intro k' x hx
    by_cases he : k' = k
    · subst he
      simp only [markRow, List.getElem?_set_self', hr] at hx
      exact .inl ⟨rfl, (Option.some.inj hx).symm⟩
    · simp only [markRow, List.getElem?_set_ne (Ne.symm he)] at hx
      exact .inr ⟨he, hx⟩
  have hdays : ∀ k' : ℕ, ((markRow s k r complete l).pending[k']?).map PendingRow.dateKey =
      (s.pending[k']?).map PendingRow.dateKey := by
    intro k'
    by_cases he : k' = k
    · subst he
      simp only [markRow, List.getElem?_set_self', hr]
      rfl
    · simp only [markRow, List.getElem?_set_ne (Ne.symm he)]
  have hmem : ∀ x ∈ (markRow s k r complete l).pending,
      ∃ y ∈ s.pending, y.dateKey = x.dateKey ∧ y.streakAfter = x.streakAfter := by
    intro x hx
    rcases List.mem_or_eq_of_mem_set hx with hx | rfl
    · exact ⟨x, hx, rfl, rfl⟩
    · exact ⟨r, List.mem_of_getElem? hr, rfl, rfl⟩
  -- another row is of another day
  have hother : ∀ (k' : ℕ) x, k' ≠ k → s.pending[k']? = some x → r.dateKey ≠ x.dateKey := by
    intro k' x hne hx he
    have hlt := (List.getElem?_eq_some_iff.1 hr).1
    refine hne ((List.getElem?_inj (by simpa using hlt) h.store.pendingDays).1 ?_).symm
    simp [hr, hx, he]
  have hwaiting := h.store.waiting k r hr hwait
  refine inv_set h rfl ?_ (taskOk_settled hd' hl') ?_ (by simp [hd']) (by simp [hl'])
  · refine ⟨?_, ?_, ?_, ?_, ?_, ?_, ?_⟩
    · have hmap : (markRow s k r complete l).pending.map PendingRow.dateKey = s.pending.map PendingRow.dateKey :=
        List.ext_getElem? fun k' => by simpa using hdays k'
      exact hmap ▸ h.store.pendingDays
    · intro x hx
      obtain ⟨y, hy, hday, hstreak⟩ := hmem x hx
      exact hday ▸ hstreak ▸ h.store.pendingKnown y hy
    · intro o ho
      rcases List.mem_append.1 ho with ho | ho
      · exact h.store.ownedKnown o ho
      · rw [hlday o ho]
        exact (h.store.pendingKnown r (List.mem_of_getElem? hr)).2
    · intro o ho k' hk'
      refine (hdays k').trans ?_
      rcases List.mem_append.1 ho with ho | ho
      · exact h.store.drained o ho k' hk'
      · rw [hlday o ho] at hk' ⊢
        obtain rfl : k = k' := Option.some.inj hk'
        simp [hr, Source.dateKey]
    · rcases hl with ⟨c, v, rfl⟩ | ⟨rfl, -⟩
      · exact once_concat (o := ⟨c, v, .drain k r.dateKey⟩) h.store.once hwaiting rfl
      · simpa [OncePerDay, markRow, Store.setTask] using h.store.once
    · intro k' x hx hp
      rcases hset k' x hx with ⟨rfl, rfl⟩ | ⟨hne, hx⟩
      · rcases hl with ⟨c, v, rfl⟩ | ⟨rfl, hc, hall⟩
        · have hzero : s.owned.countP (fun o => o.source.row = some k') = 0 := by
            refine List.countP_eq_zero.2 fun o ho hrow => ?_
            have hday := h.store.drained o ho k' (by simpa using hrow)
            rw [hr] at hday
            exact hwaiting o ho (Option.some.inj hday).symm
          left
          simp only [markRow, Store.setTask, List.countP_append, hzero, Nat.zero_add, List.countP_singleton]
          simp [Source.row]
        · exact .inr ⟨hc, hall.append (l := []) rfl⟩
      · rcases h.store.processed k' x hx hp with h1 | ⟨h1, h2⟩
        · refine .inl ?_
          have hnone : l.countP (fun o => o.source.row = some k') = 0 := by
            refine List.countP_eq_zero.2 fun o ho => ?_
            rw [hlday o ho]
            simpa [Source.row] using hne.symm
          simpa [markRow, Store.setTask, List.countP_append, hnone] using h1
        · exact .inr ⟨h1, h2.append rfl⟩
    · intro k' x hx hp o ho
      rcases hset k' x hx with ⟨rfl, rfl⟩ | ⟨hne, hx⟩
      · cases hp
      · rcases List.mem_append.1 ho with ho | ho
        · exact h.store.waiting k' x hx hp o ho
        · rw [hlday o ho]
          exact hother k' x hne hx
  · intro j tj hj htj
    refine ⟨fun d hd => hd, ⟨l, rfl, fun hdj o ho => ?_⟩, fun hdj x hx hday => ?_, fun k' hk' => ?_⟩
    · rw [hlday o ho]
      exact (h.tasks j tj htj).noPending hdj r (List.mem_of_getElem? hr)
    · obtain ⟨y, hy, hyday, -⟩ := hmem x hx
      exact ⟨y, hy, hyday.trans hday⟩
    · have hne : k' ≠ k := by
        rintro rfl
        exact h.exclusive.locks i j t tj (Ne.symm hj) ht htj k' hk hk'
      simp only [Store.setTask, markRow, List.getElem?_set_ne (Ne.symm hne)]

/-- the commit of a pending row -/
theorem inv_committed (h : Inv s) (ht : s.tasks[i]? = some t) {k : ℕ} {g : Grant} (hk : t.stage.lock = some k)
    (hg : t.stage.grant = some g) (hd' : t'.stage.direct = false) (hl : t'.stage.lock = none) :
    Inv ((s.commitRow k g).setTask i t') := by
  obtain ⟨r, hr, hwait⟩ := (h.tasks i t ht).lock k hk
  rcases commitRow_eq hr ((h.tasks i t ht).grant g hg) with ⟨c, v, he⟩ | ⟨hc, hall, he⟩
  · rw [he]
    exact inv_marked h ht hk hr hwait (.inl ⟨c, v, rfl⟩) hd' hl
  · rw [he]
    exact inv_marked h ht hk hr hwait (.inr ⟨rfl, hc, hall⟩) hd' hl

end Tables

/-! ## Runs -/

theorem init_inv : Inv Store.init := by
  refine ⟨⟨List.nodup_nil, nofun, nofun, nofun, fun _ => Nat.zero_le 1, ?_, ?_⟩, ?_, ⟨?_, ?_⟩⟩ <;>
    intro i <;> simp [Store.init]

theorem submit_inv {s : Store} (h : Inv s) (d : String) (n : ℕ) : Inv (s.step (.submit d n)) := by
  have hget : ∀ (j : ℕ) tj, (s.tasks ++ [⟨d, n, none, .creating⟩])[j]? = some tj →
      s.tasks[j]? = some tj ∨ tj = ⟨d, n, none, .creating⟩ := by
    intro j tj hj
    rw [List.getElem?_append] at hj
    split_ifs at hj
    · exact .inl hj
    · exact .inr (List.mem_singleton.1 (List.mem_of_getElem? hj))
  refine ⟨⟨h.store.1, h.store.2, h.store.3, h.store.4, h.store.5, h.store.6, h.store.7⟩, ?_, ⟨?_, ?_⟩⟩
  · intro j tj hj
    rcases hget j tj hj with hj | rfl
    · exact (h.tasks j tj hj).grown (.same tj rfl rfl rfl)
    · exact taskOk_settled rfl rfl
  · intro a b ta tb hab ha hb hda hdb
    rcases hget a ta ha with ha | rfl
    · rcases hget b tb hb with hb | rfl
      · exact h.exclusive.days a b ta tb hab ha hb hda hdb
      · cases hdb
    · cases hda
  · intro a b ta tb hab ha hb k hk hk'
    rcases hget a ta ha with ha | rfl
    · rcases hget b tb hb with hb | rfl
      · exact h.exclusive.locks a b ta tb hab ha hb k hk hk'
      · cases hk'
    · cases hk

theorem advance_inv {s : Store} {i : ℕ} {t : Task} (h : Inv s) (ht : s.tasks[i]? = some t)
    (hg : Undisturbed s (.advance i)) : Inv (s.advance i t) := by
  unfold Store.advance
  cases hs : t.stage with
  | creating =>
    by_cases hd : t.dateKey ∈ s.attempts
    · simp only [Store.createAttempt, if_pos hd]
      exact inv_release h ht rfl rfl nofun rfl
    · simp only [Store.createAttempt, if_neg hd]
      refine inv_attempted h hd rfl ?_ ?_
      · by_cases hstreak : isUnlockStreak t.streakAfter = true <;> simp [hstreak, Stage.direct]
      · simp only []
        split_ifs <;> rfl
  | owning =>
    have hd : t.stage.direct = true := by rw [hs]; rfl
    simp only []
    cases Store.unlockChoice s.owned with
    | none => exact inv_release h ht rfl rfl nofun rfl
    | some choice => exact inv_release h ht rfl rfl (fun _ => hd) rfl
  | unlocking c v =>
    have hd : t.stage.direct = true := by rw [hs]; rfl
    simp only [Store.upsertOwned]
    split_ifs
    · exact h
    · exact inv_release h ht rfl rfl nofun rfl
    · exact inv_unlocked h ht hd c v rfl rfl
  | recording =>
    have hd : t.stage.direct = true := by rw [hs]; rfl
    simp only [Store.createPending]
    split_ifs
    · exact inv_release h ht rfl rfl nofun rfl
    · exact inv_recorded h ht hd rfl rfl
  | listing => exact inv_nextRow h ht t.unlock s.unprocessed
  | locking k rest =>
    simp only []
    split_ifs with hk
    · exact h
    · exact inv_lockRow h ht k rest (by simpa using hk)
  | reading k rest => exact inv_readRow h ht hs
  | granting k rest c v n =>
    have hn : n = s.owned.length := by simpa [Undisturbed, ht, hs] using hg
    simp only []
    split_ifs
    · exact h
    · exact inv_grant h ht hs hn
  | marking k rest g =>
    have hok := h.tasks i t ht
    refine inv_quiet h ht rfl rfl nofun (fun k' hk' => ?_) nofun fun g' hg' => hok.grant g' ?_
    · rw [hs]
      exact hk'
    · rw [hs]
      exact hg'
  | committing k rest g =>
    exact inv_committed h ht (by rw [hs]; rfl) (by rw [hs]; rfl) (nextRow_direct rest) (nextRow_lock rest)
  | done => exact h

theorem lose_inv {s : Store} {i : ℕ} {t : Task} (h : Inv s) (ht : s.tasks[i]? = some t)
    (hg : Undisturbed s (.lose i)) : Inv (s.lose i t) := by
  unfold Store.lose
  cases hs : t.stage with
  | creating =>
    simp only [Store.createAttempt]
    split_ifs with hd
    · exact inv_fail h ht
    · have hthrown : Store.thrown t.stage = .done := by rw [hs]; rfl
      refine inv_attempted h hd rfl ?_ (thrown_lock t.stage)
      rw [hthrown]
      nofun
  | unlocking c v =>
    -- no row is added, or the reply arrives
    have hno : (s.keyInserting c v || s.keyOwned c v) = true := by simpa [Undisturbed, ht, hs] using hg
    have hsame : (if s.keyInserting c v then s else s.upsertOwned t.dateKey c v) = s := by
      unfold Store.upsertOwned
      split_ifs with h1 h2
      · rfl
      · rfl
      · simp [h1, h2] at hno
    simp only [hsame]
    exact inv_fail h ht
  | recording =>
    have hd : t.stage.direct = true := by rw [hs]; rfl
    have hthrown : Store.thrown t.stage = .listing := by rw [hs]; rfl
    simp only [Store.createPending]
    split_ifs
    · exact inv_fail h ht
    · exact inv_recorded h ht hd (by simp [hthrown, Stage.direct]) (thrown_lock t.stage)
  | committing k rest g =>
    have hthrown : Store.thrown t.stage = .nextRow rest := by rw [hs]; rfl
    exact inv_committed h ht (by rw [hs]; rfl) (by rw [hs]; rfl) (by simp [hthrown, nextRow_direct])
      (thrown_lock t.stage)
  | _ => exact inv_fail h ht

theorem step_inv (s : Store) (o : Op) (hg : Undisturbed s o) (h : Inv s) : Inv (s.step o) := by
  cases o with
  | submit d n => exact submit_inv h d n
  | advance i =>
    cases ht : s.tasks[i]? with
    | none => simpa [Store.step, ht] using h
    | some t => simpa [Store.step, ht] using advance_inv h ht hg
  | fail i =>
    cases ht : s.tasks[i]? with
    | none => simpa [Store.step, ht] using h
    | some t => simpa [Store.step, ht] using inv_fail h ht
  | lose i =>
    cases ht : s.tasks[i]? with
    | none => simpa [Store.step, ht] using h
    | some t => simpa [Store.step, ht] using lose_inv h ht hg
  | crash i =>
    cases ht : s.tasks[i]? with
    | none => simpa [Store.step, ht] using h
    | some t =>
      have hcrash : Inv (s.setTask i { t with stage := .done }) := inv_release h ht rfl rfl nofun rfl
      simpa [Store.step, ht] using hcrash

/-- **A streak unlocks one variant.** In every run in which the reply of a direct unlock that adds a row arrives and
every drain upserts into the rows it has read, each day adds at most one row, and each processed row has led to one
unless every unlockable variant was owned. -/
theorem unlocks_once (ops : List Op) (hg : Along Store.step Undisturbed Store.init ops) :
    OncePerDay (run Store.step Store.init ops) ∧ ProcessedOnce (run Store.step Store.init ops) := by
  have h := run_inv Store.step Undisturbed Inv step_inv _ ops hg init_inv
  exact ⟨h.store.once, h.store.processed⟩

/-- the direct unlock fails without effect, and the drain of the same submit makes up for it -/
def drainedUnlock : List Op :=
  [.submit "2026-01-07" 7, .advance 0, .advance 0, .fail 0] ++ List.replicate 7 (.advance 0)

theorem unlocks_once_drained :
    (OncePerDay (run Store.step Store.init drainedUnlock) ∧ ProcessedOnce (run Store.step Store.init drainedUnlock)) ∧
      (run Store.step Store.init drainedUnlock).owned = [⟨.cb1, .neon, .drain 0 "2026-01-07"⟩] :=
  ⟨unlocks_once drainedUnlock (by decide +kernel), by decide +kernel⟩

/-- the direct unlock adds its row and its reply is lost -/
def lostUnlock : List Op :=
  [.submit "2026-01-07" 7, .advance 0, .advance 0, .lose 0] ++ List.replicate 7 (.advance 0)

/-- **A lost reply unlocks twice.** The pending row of the day is drained into the next variant. -/
theorem lost_unlock_repeats :
    ¬∀ ops, OncePerDay (run Store.step Store.init ops) ∧ ProcessedOnce (run Store.step Store.init ops) := by
  intro h
  have hday := (h lostUnlock).1 "2026-01-07"
  have hrows : (run Store.step Store.init lostUnlock).owned =
      [⟨.cb1, .neon, .direct "2026-01-07"⟩, ⟨.cb2, .gold, .drain 0 "2026-01-07"⟩] := by
    decide +kernel
  rw [hrows] at hday
  exact absurd hday (by decide)

/-- two pending rows; the drain of one submit fails on the first and has read the owned rows for the second when the
drain of another submit grants the first -/
def overlappingDrains : List Op :=
  [.submit "2026-01-07" 7, .advance 0, .advance 0, .fail 0, .advance 0, .crash 0,
    .submit "2026-01-14" 14, .advance 1, .fail 1, .advance 1, .advance 1, .advance 1, .fail 1, .advance 1, .advance 1,
    .submit "2026-01-15" 15, .advance 2, .advance 2, .advance 2, .advance 2, .advance 2, .advance 2, .advance 2,
    .advance 1, .advance 1, .advance 1]

/-- an overlap of two drains leaves a processed row that added nothing -/
theorem overlapping_drains_swallow : ¬ProcessedOnce (run Store.step Store.init overlappingDrains) := by
  intro h
  have hrow : (run Store.step Store.init overlappingDrains).pending[1]? = some ⟨"2026-01-14", 14, true, false⟩ := by
    decide +kernel
  have hrows : (run Store.step Store.init overlappingDrains).owned = [⟨.cb1, .neon, .drain 0 "2026-01-07"⟩] := by
    decide +kernel
  rcases h 1 _ hrow rfl with hone | ⟨hcomplete, -⟩
  · rw [hrows] at hone
    exact absurd hone (by decide)
  · cases hcomplete

end Arena.Api.VariantUnlocks
