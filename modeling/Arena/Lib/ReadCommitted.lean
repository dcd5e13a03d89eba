/-
Rows of a database under READ COMMITTED.

A row has its committed value and, while a transaction has written it or locked it for update, the version of that
transaction; a row has at most one such holder. A transaction sees its own versions and otherwise what is committed when
it looks. A statement that would write a row of another holder waits.

- `Pending`: the versions of a transaction are given updates of the committed values. Its own writes add to them, and no
  step of another transaction disturbs them;
- `Step`, `Pending.other`: the same for any step of a transaction;
- `commit_updates`: so a commit applies just these updates, to the values that are committed when it happens.
-/
import Mathlib.Tactic

namespace Arena.Lib

/-- rows with keys `K` and values `V`, and transactions `T` -/
structure Rows (T K V : Type) where
  committed : K → V
  /-- the holder of a row, with its version -/
  held : K → Option (T × V)

namespace Rows

variable {T K V : Type}

/-- nothing is in flight -/
def settled (f : K → V) : Rows T K V := ⟨f, fun _ => none⟩

/-- the versions of `t` are the updates `l` of the committed values -/
structure Pending (r : Rows T K V) (t : T) (l : List (K × (V → V))) : Prop where
  keys : ∀ k v, r.held k = some (t, v) → k ∈ l.map Prod.fst
  version : ∀ w ∈ l, r.held w.1 = some (t, w.2 (r.committed w.1))

variable {r : Rows T K V} {t t' : T} {l : List (K × (V → V))}

theorem pending_settled (f : K → V) (t : T) : Pending (settled f) t [] where
  keys k v h := by cases h
  version w hw := by cases hw

theorem Pending.not_held {k : K} (h : Pending r t l) (hk : k ∉ l.map Prod.fst) (v : V) : r.held k ≠ some (t, v) :=
  fun hv => hk (h.keys k v hv)

section Transactions

variable [DecidableEq T]

/-- a row as a transaction sees it -/
def read (r : Rows T K V) (t : T) (k : K) : V :=
  match r.held k with
  | some h => if h.1 = t then h.2 else r.committed k
  | none => r.committed k

/-- nobody else holds the row -/
def free (r : Rows T K V) (t : T) (k : K) : Bool :=
  match r.held k with
  | some h => h.1 = t
  | none => true

def release (r : Rows T K V) (t : T) (k : K) : Option (T × V) := (r.held k).filter fun h => h.1 ≠ t

def commit (r : Rows T K V) (t : T) : Rows T K V := ⟨r.read t, r.release t⟩

def rollback (r : Rows T K V) (t : T) : Rows T K V := ⟨r.committed, r.release t⟩

theorem free_iff {k : K} : r.free t k = true ↔ ∀ h, r.held k = some h → h.1 = t := by
  unfold free
  cases r.held k with
  | none => simp
  | some h => simp

theorem read_of_held {k : K} {v : V} (h : r.held k = some (t, v)) : r.read t k = v := by
  simp [read, h]

theorem read_of_not_held {k : K} (h : ∀ v, r.held k ≠ some (t, v)) : r.read t k = r.committed k := by
  unfold read
  cases hk : r.held k with
  | none => rfl
  | some x =>
    have hne : x.1 ≠ t := by
      rintro rfl
      exact h x.2 hk
    simp [hne]

/-- a row with no pending update is read as it is committed -/
theorem Pending.read {k : K} (h : Pending r t l) (hk : k ∉ l.map Prod.fst) : r.read t k = r.committed k :=
  read_of_not_held (h.not_held hk)

theorem release_eq_some {k : K} {h : T × V} : r.release t k = some h ↔ r.held k = some h ∧ h.1 ≠ t := by
  simp [release, Option.filter_eq_some_iff]

/-- **A commit applies the pending updates**, and nothing else. -/
theorem commit_updates (h : Pending r t l) :
    (∀ w ∈ l, (r.commit t).committed w.1 = w.2 (r.committed w.1)) ∧
      ∀ k, k ∉ l.map Prod.fst → (r.commit t).committed k = r.committed k :=
  ⟨fun w hw => read_of_held (h.version w hw), fun _ hk => h.read hk⟩

theorem pending_commit (r : Rows T K V) (t : T) : Pending (r.commit t) t [] where
  keys k v hv := absurd rfl (release_eq_some.1 hv).2
  version w hw := by cases hw

theorem pending_rollback (r : Rows T K V) (t : T) : Pending (r.rollback t) t [] where
  keys k v hv := absurd rfl (release_eq_some.1 hv).2
  version w hw := by cases hw

theorem Pending.held_committed (h : Pending r t l) (hne : t' ≠ t) {k : K} (hk : k ∈ l.map Prod.fst) :
    (r.commit t').committed k = r.committed k := by
  obtain ⟨w, hw, rfl⟩ := List.mem_map.1 hk
  refine read_of_not_held fun v hv => hne ?_
  exact (congrArg Prod.fst (Option.some.inj ((h.version w hw).symm.trans hv))).symm

theorem Pending.other_commit (h : Pending r t l) (hne : t' ≠ t) : Pending (r.commit t') t l where
  keys k v hv := h.keys k v (release_eq_some.1 hv).1
  version w hw := by
    rw [h.held_committed hne (List.mem_map_of_mem hw)]
    exact release_eq_some.2 ⟨h.version w hw, hne.symm⟩

theorem Pending.other_rollback (h : Pending r t l) (hne : t' ≠ t) : Pending (r.rollback t') t l where
  keys k v hv := h.keys k v (release_eq_some.1 hv).1
  version w hw := release_eq_some.2 ⟨h.version w hw, hne.symm⟩

@[simp] theorem rollback_committed (r : Rows T K V) (t : T) : (r.rollback t).committed = r.committed := rfl

end Transactions

/-! ## Writes -/

variable [DecidableEq T] [DecidableEq K]

/-- a write of a row that is free; `id` locks it -/
def write (r : Rows T K V) (t : T) (k : K) (f : V → V) : Rows T K V :=
  { r with held := Function.update r.held k (some (t, f (r.read t k))) }

def writes (r : Rows T K V) (t : T) (l : List (K × (V → V))) : Rows T K V := l.foldl (fun r w => r.write t w.1 w.2) r

theorem Pending.write (h : Pending r t l) {k : K} (hk : k ∉ l.map Prod.fst) (f : V → V) :
    Pending (r.write t k f) t (l ++ [(k, f)]) where
  keys := by
    intro k' v hv
    simp only [Rows.write, Function.update_apply] at hv
    rw [List.map_append, List.mem_append]
    split_ifs at hv with heq
    · exact .inr (by simp [heq])
    · exact .inl (h.keys k' v hv)
  version := by
    intro w hw
    rcases List.mem_append.1 hw with hw | hw
    · have hne : w.1 ≠ k := fun heq => hk (heq ▸ List.mem_map_of_mem hw)
      simp only [Rows.write, Function.update_of_ne hne]
      exact h.version w hw
    · obtain rfl := List.mem_singleton.1 hw
      simp only [Rows.write, Function.update_self, h.read hk]

theorem Pending.writes (h : Pending r t l) (ws : List (K × (V → V)))
    (hn : (l.map Prod.fst ++ ws.map Prod.fst).Nodup) : Pending (r.writes t ws) t (l ++ ws) := by
  induction ws generalizing r l with
  | nil => simpa [Rows.writes] using h
  | cons w ws ih =>
    have hsplit : (l ++ [w]).map Prod.fst ++ ws.map Prod.fst = l.map Prod.fst ++ (w :: ws).map Prod.fst := by simp
    have hk : w.1 ∉ l.map Prod.fst := by
      rw [List.nodup_append] at hn
      intro hmem
      exact hn.2.2 w.1 hmem w.1 (by simp) rfl
    have hrest := ih (h.write hk w.2) (by rw [hsplit]; exact hn)
    rwa [List.append_assoc] at hrest

theorem Pending.other_write (h : Pending r t l) (hne : t' ≠ t) {k : K} (hfree : r.free t' k = true) (f : V → V) :
    Pending (r.write t' k f) t l where
  keys := by
    intro k' v hv
    simp only [Rows.write, Function.update_apply] at hv
    split_ifs at hv with heq
    · exact absurd (congrArg Prod.fst (Option.some.inj hv)) hne
    · exact h.keys k' v hv
  version := by
    intro w hw
    have hheld := h.version w hw
    have hk : w.1 ≠ k := by
      rintro rfl
      exact hne (free_iff.1 hfree _ hheld).symm
    simp only [Rows.write, Function.update_of_ne hk]
    exact hheld

theorem free_write {k k' : K} (f : V → V) (h : r.free t k' = true) : (r.write t k f).free t k' = true := by
  rw [free_iff] at h ⊢
  intro x hx
  simp only [Rows.write, Function.update_apply] at hx
  split_ifs at hx
  · exact congrArg Prod.fst (Option.some.inj hx).symm
  · exact h x hx

theorem Pending.other_writes (h : Pending r t l) (hne : t' ≠ t) (ws : List (K × (V → V)))
    (hfree : ∀ w ∈ ws, r.free t' w.1 = true) : Pending (r.writes t' ws) t l := by
  induction ws generalizing r with
  | nil => exact h
  | cons w ws ih =>
    refine ih (h.other_write hne (hfree w (by simp)) w.2) fun x hx => ?_
    exact free_write w.2 (hfree x (by simp [hx]))

@[simp] theorem write_committed (r : Rows T K V) (t : T) (k : K) (f : V → V) :
    (r.write t k f).committed = r.committed := rfl

@[simp] theorem writes_committed (r : Rows T K V) (t : T) (ws : List (K × (V → V))) :
    (r.writes t ws).committed = r.committed := by
  induction ws generalizing r with
  | nil => rfl
  | cons w ws ih => exact ih (r.write t w.1 w.2)

/-! ## One step of a transaction -/

/-- what a transaction may do to a table: nothing, writes of rows that are free, or its end -/
inductive Step (r : Rows T K V) (t : T) : Rows T K V → Prop where
  | same : Step r t r
  | writes (ws : List (K × (V → V))) (hfree : ∀ w ∈ ws, r.free t w.1 = true) : Step r t (r.writes t ws)
  | commit : Step r t (r.commit t)
  | rollback : Step r t (r.rollback t)

/-- **The others do not disturb.** -/
theorem Pending.other (h : Pending r t l) {r' : Rows T K V} (hs : Step r t' r') (hne : t' ≠ t) : Pending r' t l := by
  cases hs with
  | same => exact h
  | writes ws hfree => exact h.other_writes hne ws hfree
  | commit => exact h.other_commit hne
  | rollback => exact h.other_rollback hne

/-- a row that is held is not committed by another -/
theorem Pending.other_committed (h : Pending r t l) {r' : Rows T K V} (hs : Step r t' r') (hne : t' ≠ t) {k : K}
    (hk : k ∈ l.map Prod.fst) : r'.committed k = r.committed k := by
  cases hs with
  | same => rfl
  | writes ws hfree => rw [writes_committed]
  | commit => exact h.held_committed hne hk
  | rollback => rfl

end Rows

end Arena.Lib
