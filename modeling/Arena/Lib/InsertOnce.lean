/-
Rows that are inserted once.

A task looks for the row of its key and inserts it when there is none, with the rows that go with it, in one
transaction. An insert takes the key in the unique index until its transaction ends: another insert of the key waits,
and is refused once the row is committed. A refused task looks again. Every statement may fail, and the reply of a commit
may get lost.

- `step_insertInv`, `step_rows`: a key has one row at most, it is one of its tasks' values, and it stays;
- `next_ok`: only a statement that fails, or a value with rows the table does not take, makes a task throw.
-/
import Arena.Lib.Run

namespace Arena.Lib.InsertOnce

variable {K V : Type} [DecidableEq K]

inductive Stage (V : Type) where
  | lookUp
  | insert
  | fill
  | commit
  | lookAgain
  | returned (value : V)
  | threw
deriving DecidableEq, Repr

/-- whether the transaction has the key in the index -/
def Stage.holds : Stage V → Bool
  | .fill | .commit => true
  | _ => false

structure Task (K V : Type) where
  key : K
  value : V
  stage : Stage V
deriving DecidableEq, Repr

structure Table (K V : Type) where
  /-- the committed rows -/
  rows : List (K × V)
  tasks : List (Task K V)
deriving DecidableEq, Repr

inductive Reply where
  | ok
  | fails
  /-- a commit that is made, though its caller is not told -/
  | lost
deriving DecidableEq, Repr

inductive Op (K V : Type) where
  | call (key : K) (value : V)
  | next (i : ℕ) (reply : Reply)

def empty : Table K V := ⟨[], []⟩

def row (s : Table K V) (key : K) : Option V := (s.rows.find? fun r => r.1 = key).map Prod.snd

/-- whether a transaction has the key in the index -/
def taken (s : Table K V) (key : K) : Bool := s.tasks.any fun t => t.key = key && t.stage.holds

def setStage (s : Table K V) (i : ℕ) (t : Task K V) (stage : Stage V) : Table K V :=
  { s with tasks := s.tasks.set i { t with stage := stage } }

/-- the next statement of a task; `accepts` tells whether the rows that go with a value can be inserted -/
def next (accepts : V → Bool) (s : Table K V) (i : ℕ) (t : Task K V) (reply : Reply) : Table K V :=
  match t.stage with
  | .lookUp =>
    if reply = .fails then setStage s i t .threw
    else
      match row s t.key with
      | some value => setStage s i t (.returned value)
      | none => setStage s i t .insert
  | .insert =>
    if reply = .fails then setStage s i t .threw
    else if taken s t.key then s
    else if (row s t.key).isSome then setStage s i t .lookAgain
    else setStage s i t .fill
  | .fill =>
    if reply = .fails then setStage s i t .threw
    else if accepts t.value then setStage s i t .commit
    else setStage s i t .lookAgain
  | .commit =>
    match reply with
    | .fails => setStage s i t .threw
    | .ok => setStage { s with rows := s.rows ++ [(t.key, t.value)] } i t (.returned t.value)
    | .lost => setStage { s with rows := s.rows ++ [(t.key, t.value)] } i t .threw
  | .lookAgain =>
    if reply = .fails then setStage s i t .threw
    else
      match row s t.key with
      | some value => setStage s i t (.returned value)
      | none => setStage s i t .threw
  | .returned _ => s
  | .threw => s

def step (accepts : V → Bool) (s : Table K V) : Op K V → Table K V
  | .call key value => { s with tasks := s.tasks ++ [⟨key, value, .lookUp⟩] }
  | .next i reply =>
    match s.tasks[i]? with
    | some t => next accepts s i t reply
    | none => s

/-! ## Rows -/

theorem row_eq_some {s : Table K V} (hn : (s.rows.map Prod.fst).Nodup) {key : K} {value : V} :
    row s key = some value ↔ (key, value) ∈ s.rows := by
  unfold row
  constructor
  · intro h
    obtain ⟨r, hr, rfl⟩ := Option.map_eq_some_iff.1 h
    have hkey : r.1 = key := by simpa using List.find?_some hr
    rw [← hkey]
    exact List.mem_of_find?_eq_some hr
  · intro h
    cases hf : s.rows.find? fun r => r.1 = key with
    | none =>
      have hnone := List.find?_eq_none.1 hf _ h
      simp at hnone
    | some r =>
      have hkey : r.1 = key := by simpa using List.find?_some hf
      have hr : r = (key, value) := List.inj_on_of_nodup_map hn (List.mem_of_find?_eq_some hf) h hkey
      rw [hr]
      rfl

theorem row_eq_none {s : Table K V} {key : K} : row s key = none ↔ key ∉ s.rows.map Prod.fst := by
  simp only [row, Option.map_eq_none_iff, List.find?_eq_none, decide_eq_true_eq, List.mem_map, not_exists, not_and]

/-! ## Invariant -/

structure InsertInv (accepts : V → Bool) (s : Table K V) : Prop where
  unique : (s.rows.map Prod.fst).Nodup
  /-- who has a key in the index is alone, and there is no row of it -/
  alone : ∀ (i j : ℕ) (t u : Task K V), s.tasks[i]? = some t → s.tasks[j]? = some u → t.stage.holds → u.stage.holds →
    t.key = u.key → i = j
  free : ∀ t ∈ s.tasks, t.stage.holds → t.key ∉ s.rows.map Prod.fst
  source : ∀ r ∈ s.rows, ∃ t ∈ s.tasks, t.key = r.1 ∧ t.value = r.2
  returned : ∀ t ∈ s.tasks, ∀ value, t.stage = .returned value → (t.key, value) ∈ s.rows
  again : ∀ t ∈ s.tasks, t.stage = .lookAgain → accepts t.value = true → t.key ∈ s.rows.map Prod.fst

omit [DecidableEq K] in
theorem insertInv_empty (accepts : V → Bool) : InsertInv accepts (empty : Table K V) where
  unique := List.nodup_nil
  alone i j t u ht := by simp [empty] at ht
  free t ht := by simp [empty] at ht
  source r hr := by simp [empty] at hr
  returned t ht := by simp [empty] at ht
  again t ht := by simp [empty] at ht

variable {accepts : V → Bool} {s : Table K V} {i : ℕ} {t : Task K V}

omit [DecidableEq K] in
theorem mem_setStage {stage : Stage V} {u : Task K V} (h : u ∈ (setStage s i t stage).tasks) :
    u ∈ s.tasks ∨ u = { t with stage := stage } := List.mem_or_eq_of_mem_set h

omit [DecidableEq K] in
/-- a task keeps its key and its value -/
theorem setStage_source (ht : s.tasks[i]? = some t) {stage : Stage V} {key : K} {value : V}
    (h : ∃ u ∈ s.tasks, u.key = key ∧ u.value = value) :
    ∃ u ∈ (setStage s i t stage).tasks, u.key = key ∧ u.value = value := by
  obtain ⟨u, hu, hkey, hvalue⟩ := h
  obtain ⟨j, hj⟩ := List.mem_iff_getElem?.1 hu
  by_cases hij : i = j
  · subst hij
    obtain rfl : t = u := Option.some.inj (ht.symm.trans hj)
    obtain ⟨hi, -⟩ := List.getElem?_eq_some_iff.1 ht
    exact ⟨_, List.mem_iff_getElem?.2 ⟨i, List.getElem?_set_self hi⟩, hkey, hvalue⟩
  · exact ⟨u, List.mem_iff_getElem?.2 ⟨j, (List.getElem?_set_ne hij).trans hj⟩, hkey, hvalue⟩

/-- a task goes on to a stage, and the rows stay -/
theorem InsertInv.setStage (h : InsertInv accepts s) (ht : s.tasks[i]? = some t) {stage : Stage V}
    (hholds : stage.holds = true → t.key ∉ s.rows.map Prod.fst ∧ (t.stage.holds = true ∨ taken s t.key = false))
    (hreturned : ∀ value, stage = .returned value → (t.key, value) ∈ s.rows)
    (hagain : stage = .lookAgain → accepts t.value = true → t.key ∈ s.rows.map Prod.fst) :
    InsertInv accepts (InsertOnce.setStage s i t stage) where
  unique := h.unique
  alone := by
    have hapart : stage.holds = true → ∀ j u, j ≠ i → s.tasks[j]? = some u → u.stage.holds = true →
        u.key ≠ t.key := by
      rintro hs j u hji hu hheld hkey
      rcases (hholds hs).2 with hmine | hfree
      · exact hji (h.alone j i u t hu ht hheld hmine hkey)
      · have hany : taken s t.key = true :=
          List.any_eq_true.2 ⟨u, List.mem_of_getElem? hu, by simp [hkey, hheld]⟩
        rw [hfree] at hany
        cases hany
    intro j k u v hu hv hhu hhv hkey
    obtain ⟨hi, -⟩ := List.getElem?_eq_some_iff.1 ht
    simp only [InsertOnce.setStage] at hu hv
    by_cases hij : i = j
    · subst hij
      rw [List.getElem?_set_self hi] at hu
      obtain rfl := Option.some.inj hu
      by_contra hne
      rw [List.getElem?_set_ne hne] at hv
      exact hapart hhu k v (Ne.symm hne) hv hhv hkey.symm
    · rw [List.getElem?_set_ne hij] at hu
      by_cases hik : i = k
      · subst hik
        rw [List.getElem?_set_self hi] at hv
        obtain rfl := Option.some.inj hv
        exact absurd hkey (hapart hhv j u (Ne.symm hij) hu hhu)
      · rw [List.getElem?_set_ne hik] at hv
        exact h.alone j k u v hu hv hhu hhv hkey
  free u hu hs := by
    rcases mem_setStage hu with hu | rfl
    · exact h.free u hu hs
    · exact (hholds hs).1
  source r hr := setStage_source ht (h.source r hr)
  returned u hu value hs := by
    rcases mem_setStage hu with hu | rfl
    · exact h.returned u hu value hs
    · exact hreturned value hs
  again u hu hs hv := by
    rcases mem_setStage hu with hu | rfl
    · exact h.again u hu hs hv
    · exact hagain hs hv

omit [DecidableEq K] in
/-- a commit publishes the row of its task -/
theorem InsertInv.publish (h : InsertInv accepts s) (ht : s.tasks[i]? = some t) (hs : t.stage = .commit) {stage : Stage V}
    (hstage : stage = .returned t.value ∨ stage = .threw) :
    InsertInv accepts (InsertOnce.setStage { s with rows := s.rows ++ [(t.key, t.value)] } i t stage) := by
  have hheld : t.stage.holds = true := by
    rw [hs]
    rfl
  have hfree : t.key ∉ s.rows.map Prod.fst := h.free t (List.mem_of_getElem? ht) hheld
  have hquiet : stage.holds = false ∧ stage ≠ .lookAgain := by
    rcases hstage with rfl | rfl <;> exact ⟨rfl, by simp⟩
  have hi := (List.getElem?_eq_some_iff.1 ht).1
  have hkeys : (s.rows ++ [(t.key, t.value)]).map Prod.fst = s.rows.map Prod.fst ++ [t.key] := by simp
  refine ⟨?_, ?_, ?_, ?_, ?_, ?_⟩
  · show ((s.rows ++ [(t.key, t.value)]).map Prod.fst).Nodup
    rw [hkeys, List.nodup_append]
    refine ⟨h.unique, List.nodup_singleton _, ?_⟩
    rintro a ha b hb rfl
    exact hfree (List.mem_singleton.1 hb ▸ ha)
  · intro j k u v hu hv hhu hhv hkey
    simp only [InsertOnce.setStage] at hu hv
    have hother : ∀ (j : ℕ) (u : Task K V), (s.tasks.set i { t with stage := stage })[j]? = some u → u.stage.holds = true →
        s.tasks[j]? = some u := by
      intro j u hu hhu
      by_cases hij : i = j
      · subst hij
        rw [List.getElem?_set_self hi] at hu
        obtain rfl := Option.some.inj hu
        exact absurd hhu (by simp [hquiet.1])
      · rwa [List.getElem?_set_ne hij] at hu
    exact h.alone j k u v (hother j u hu hhu) (hother k v hv hhv) hhu hhv hkey
  · intro u hu hhu
    show u.key ∉ (s.rows ++ [(t.key, t.value)]).map Prod.fst
    obtain ⟨j, hj⟩ := List.mem_iff_getElem?.1 hu
    simp only [InsertOnce.setStage] at hj
    by_cases hij : i = j
    · subst hij
      rw [List.getElem?_set_self hi] at hj
      obtain rfl := Option.some.inj hj
      exact absurd hhu (by simp [hquiet.1])
    · rw [List.getElem?_set_ne hij] at hj
      rw [hkeys, List.mem_append, List.mem_singleton]
      rintro (hmem | hkey)
      · exact h.free u (List.mem_of_getElem? hj) hhu hmem
      · exact hij (h.alone j i u t hj ht hhu hheld hkey).symm
  · intro r hr
    have ht' : ({ s with rows := s.rows ++ [(t.key, t.value)] } : Table K V).tasks[i]? = some t := ht
    refine setStage_source ht' ?_
    rcases List.mem_append.1 hr with hr | hr
    · exact h.source r hr
    · rw [List.mem_singleton.1 hr]
      exact ⟨t, List.mem_of_getElem? ht, rfl, rfl⟩
  · intro u hu value hus
    show (u.key, value) ∈ s.rows ++ [(t.key, t.value)]
    rcases mem_setStage hu with hu | rfl
    · exact List.mem_append_left _ (h.returned u hu value hus)
    · rcases hstage with rfl | rfl
      · obtain rfl := Stage.returned.inj hus
        exact List.mem_append_right _ (List.mem_singleton.2 rfl)
      · cases hus
  · intro u hu hus hv
    show u.key ∈ (s.rows ++ [(t.key, t.value)]).map Prod.fst
    rw [hkeys]
    rcases mem_setStage hu with hu | rfl
    · exact List.mem_append_left _ (h.again u hu hus hv)
    · exact absurd hus hquiet.2

/-- **A key has one row at most**, of one of its tasks, and a task that returns has seen it. -/
theorem step_insertInv (o : Op K V) (h : InsertInv accepts s) : InsertInv accepts (step accepts s o) := by
  cases o with
  | call key value =>
    have hold : ∀ {u : Task K V}, u ∈ s.tasks ++ [⟨key, value, .lookUp⟩] → u.stage ≠ .lookUp → u ∈ s.tasks := by
      intro u hu hs
      rcases List.mem_append.1 hu with hu | hu
      · exact hu
      · rw [List.mem_singleton.1 hu] at hs
        exact absurd rfl hs
    have hat : ∀ {j : ℕ} {u : Task K V}, (s.tasks ++ [⟨key, value, .lookUp⟩])[j]? = some u → u.stage.holds = true →
        s.tasks[j]? = some u := by
      intro j u hu hs
      by_cases hj : j < s.tasks.length
      · rwa [List.getElem?_append_left hj] at hu
      · rw [List.getElem?_append_right (not_lt.1 hj), List.getElem?_singleton] at hu
        split_ifs at hu
        rw [← Option.some.inj hu] at hs
        cases hs
    refine ⟨h.unique, ?_, ?_, ?_, ?_, ?_⟩
    · exact fun j k u v hu hv hhu hhv => h.alone j k u v (hat hu hhu) (hat hv hhv) hhu hhv
    · intro u hu hs
      exact h.free u (hold hu (by rintro he; rw [he] at hs; cases hs)) hs
    · intro r hr
      obtain ⟨u, hu, hsame⟩ := h.source r hr
      exact ⟨u, List.mem_append_left _ hu, hsame⟩
    · intro u hu v hs
      exact h.returned u (hold hu (by rw [hs]; simp)) v hs
    · intro u hu hs
      exact h.again u (hold hu (by rw [hs]; simp)) hs
  | next i reply =>
    simp only [step]
    cases ht : s.tasks[i]? with
    | none => exact h
    | some t =>
      have hthrew : InsertInv accepts (setStage s i t .threw) :=
        h.setStage ht (by simp [Stage.holds]) (by simp) (by simp)
      have hmem := List.mem_of_getElem? ht
      have hrow : ∀ value, row s t.key = some value → (t.key, value) ∈ s.rows := fun value =>
        (row_eq_some h.unique).1
      simp only [next]
      cases hs : t.stage with
      | lookUp =>
        dsimp only
        split_ifs
        · exact hthrew
        · split
          · rename_i value hr
            exact h.setStage ht (by simp [Stage.holds]) (by rintro _ ⟨⟩; exact hrow value hr) (by simp)
          · exact h.setStage ht (by simp [Stage.holds]) (by simp) (by simp)
      | insert =>
        dsimp only
        split_ifs with hf htaken hr
        · exact hthrew
        · exact h
        · refine h.setStage ht (by simp [Stage.holds]) (by simp) fun _ _ => ?_
          obtain ⟨value, hvalue⟩ := Option.isSome_iff_exists.1 hr
          exact List.mem_map.2 ⟨_, hrow value hvalue, rfl⟩
        · refine h.setStage ht (fun _ => ⟨?_, .inr (by simpa using htaken)⟩) (by simp) (by simp)
          exact row_eq_none.1 (Option.not_isSome_iff_eq_none.1 hr)
      | fill =>
        have hheld : t.stage.holds = true := by
          rw [hs]
          rfl
        dsimp only
        split_ifs with hf ha
        · exact hthrew
        · exact h.setStage ht (fun _ => ⟨h.free t hmem hheld, .inl hheld⟩) (by simp) (by simp)
        · exact h.setStage ht (by simp [Stage.holds]) (by simp) fun _ hv => absurd hv ha
      | commit =>
        cases reply with
        | ok => exact h.publish ht hs (.inl rfl)
        | fails => exact hthrew
        | lost => exact h.publish ht hs (.inr rfl)
      | lookAgain =>
        dsimp only
        split_ifs
        · exact hthrew
        · split
          · rename_i value hr
            exact h.setStage ht (by simp [Stage.holds]) (by rintro _ ⟨⟩; exact hrow value hr) (by simp)
          · exact hthrew
      | returned value => exact h
      | threw => exact h

/-- no row is deleted or replaced -/
theorem step_rows (s : Table K V) (o : Op K V) : s.rows <+: (step accepts s o).rows := by
  cases o with
  | call key value => exact List.prefix_refl _
  | next i reply =>
    simp only [step]
    split
    · rename_i t _
      unfold next
      split
      · split_ifs
        · exact List.prefix_refl _
        · split <;> exact List.prefix_refl _
      · split_ifs <;> exact List.prefix_refl _
      · split_ifs <;> exact List.prefix_refl _
      · split
        · exact List.prefix_refl _
        · exact List.prefix_append _ _
        · exact List.prefix_append _ _
      · split_ifs
        · exact List.prefix_refl _
        · split <;> exact List.prefix_refl _
      · exact List.prefix_refl _
      · exact List.prefix_refl _
    · exact List.prefix_refl _

/-- the tasks of a step are those before it, and a call's -/
theorem step_source {o : Op K V} {u : Task K V} (h : u ∈ (step accepts s o).tasks) :
    (∃ t ∈ s.tasks, t.key = u.key ∧ t.value = u.value) ∨ o = .call u.key u.value := by
  have hold : u ∈ s.tasks → ∃ t ∈ s.tasks, t.key = u.key ∧ t.value = u.value := fun hu => ⟨u, hu, rfl, rfl⟩
  cases o with
  | call key value =>
    rcases List.mem_append.1 h with hu | hu
    · exact .inl (hold hu)
    · rw [List.mem_singleton.1 hu]
      exact .inr rfl
  | next i reply =>
    left
    simp only [step] at h
    cases ht : s.tasks[i]? with
    | none =>
      rw [ht] at h
      exact hold h
    | some t =>
      rw [ht] at h
      have hset : ∀ (rows : List (K × V)) (stage : Stage V),
          u ∈ (setStage { s with rows := rows } i t stage).tasks → ∃ t ∈ s.tasks, t.key = u.key ∧ t.value = u.value := by
        intro rows stage hu
        rcases mem_setStage hu with hu | rfl
        · exact hold hu
        · exact ⟨t, List.mem_of_getElem? ht, rfl, rfl⟩
      simp only [next] at h
      split at h
      · split_ifs at h
        · exact hset _ _ h
        · split at h <;> exact hset _ _ h
      · split_ifs at h
        · exact hset _ _ h
        · exact hold h
        · exact hset _ _ h
        · exact hset _ _ h
      · split_ifs at h <;> exact hset _ _ h
      · split at h <;> exact hset _ _ h
      · split_ifs at h
        · exact hset _ _ h
        · split at h <;> exact hset _ _ h
      · exact hold h
      · exact hold h

/-- **Only a failing statement makes a task throw**, when the table takes its rows. -/
theorem next_ok (h : InsertInv accepts s) (ht : s.tasks[i]? = some t) (ha : accepts t.value = true)
    (hs : t.stage ≠ .threw) : ∃ u, (next accepts s i t .ok).tasks[i]? = some u ∧ u.stage ≠ .threw := by
  have hi := (List.getElem?_eq_some_iff.1 ht).1
  have hset : ∀ stage : Stage V, stage ≠ .threw →
      ∃ u, (setStage s i t stage).tasks[i]? = some u ∧ u.stage ≠ .threw := fun stage hstage =>
    ⟨_, List.getElem?_set_self hi, hstage⟩
  simp only [next]
  cases hst : t.stage with
  | lookUp =>
    simp only [reduceCtorEq, if_false]
    split <;> exact hset _ (by simp)
  | insert =>
    simp only [reduceCtorEq, if_false]
    split_ifs
    · exact ⟨t, ht, hs⟩
    · exact hset _ (by simp)
    · exact hset _ (by simp)
  | fill =>
    simp only [reduceCtorEq, if_false, ha, if_true]
    exact hset _ (by simp)
  | commit => exact ⟨_, List.getElem?_set_self hi, by simp⟩
  | lookAgain =>
    simp only [reduceCtorEq, if_false]
    split
    · exact hset _ (by simp)
    · rename_i hr
      exact absurd (h.again t (List.mem_of_getElem? ht) hst ha) (row_eq_none.1 hr)
  | returned value => exact ⟨t, ht, hs⟩
  | threw => exact absurd hst hs

end Arena.Lib.InsertOnce
