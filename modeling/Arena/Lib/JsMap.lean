/-
Insertion-ordered maps and sets with the semantics of JavaScript's `Map` and `Set`.

A `JsMap K V` is its list of entries in insertion order, with the keys duplicate-free as a field of the structure:
- `set` overwrites the value of a present key in place and appends a new key at the end;
- `modify` is the in-place mutation of the object stored under a key (`m.get(k).field = v`);
- `delete` removes an entry and keeps the order of the others;
- `ofEntries` is the constructor `new Map(entries)`, where a later entry of one key overwrites the earlier one.
A `JsSet K` is the list of its members in insertion order.

The laws are those a program proof needs: what `get` answers after each update, which keys an update leaves, and
`ofEntries_entries`, that rebuilding a map from its own entry list gives the same map with the same order.
-/
import Mathlib.Data.List.Nodup
import Mathlib.Tactic

namespace Arena.Lib

/-! ## Entry lists -/

section Entries

variable {K V : Type} [DecidableEq K]

def getEntry (k : K) : List (K × V) → Option V
  | [] => none
  | e :: l => if e.1 = k then some e.2 else getEntry k l

def setEntry (k : K) (v : V) : List (K × V) → List (K × V)
  | [] => [(k, v)]
  | e :: l => if e.1 = k then (k, v) :: l else e :: setEntry k v l

def modifyEntry (k : K) (f : V → V) : List (K × V) → List (K × V)
  | [] => []
  | e :: l => if e.1 = k then (e.1, f e.2) :: l else e :: modifyEntry k f l

theorem keys_setEntry (k : K) (v : V) (l : List (K × V)) :
    (setEntry k v l).map Prod.fst = if k ∈ l.map Prod.fst then l.map Prod.fst else l.map Prod.fst ++ [k] := by
  induction l with
  | nil => simp [setEntry]
  | cons e l ih =>
    simp only [setEntry]
    by_cases he : e.1 = k
    · subst he; simp
    · simp only [he, if_false, List.map_cons, ih, List.mem_cons, Ne.symm he, false_or]
      split_ifs <;> simp

theorem keys_modifyEntry (k : K) (f : V → V) (l : List (K × V)) :
    (modifyEntry k f l).map Prod.fst = l.map Prod.fst := by
  induction l with
  | nil => rfl
  | cons e l ih =>
    simp only [modifyEntry]
    split_ifs <;> simp [ih]

theorem getEntry_isSome (k : K) (l : List (K × V)) : (getEntry k l).isSome ↔ k ∈ l.map Prod.fst := by
  induction l with
  | nil => simp [getEntry]
  | cons e l ih =>
    simp only [getEntry]
    by_cases he : e.1 = k
    · simp [he]
    · simp only [he, if_false, ih, List.map_cons, List.mem_cons, Ne.symm he, false_or]

theorem getEntry_setEntry (k k' : K) (v : V) (l : List (K × V)) :
    getEntry k' (setEntry k v l) = if k = k' then some v else getEntry k' l := by
  induction l with
  | nil => simp [setEntry, getEntry]
  | cons e l ih =>
    simp only [setEntry]
    by_cases he : e.1 = k
    · subst he
      by_cases hk : e.1 = k' <;> simp [getEntry, hk]
    · simp only [he, if_false, getEntry, ih]
      by_cases hk : k = k'
      · subst hk; simp [he]
      · simp [hk]

theorem getEntry_modifyEntry (k k' : K) (f : V → V) (l : List (K × V)) :
    getEntry k' (modifyEntry k f l) = if k = k' then (getEntry k' l).map f else getEntry k' l := by
  induction l with
  | nil => simp [modifyEntry, getEntry]
  | cons e l ih =>
    simp only [modifyEntry]
    by_cases he : e.1 = k
    · subst he
      by_cases hk : e.1 = k' <;> simp [getEntry, hk]
    · simp only [he, if_false, getEntry, ih]
      by_cases hk : k = k'
      · subst hk; simp [he]
      · simp [hk]

theorem getEntry_filter (k k' : K) (l : List (K × V)) :
    getEntry k' (l.filter fun e => e.1 ≠ k) = if k = k' then none else getEntry k' l := by
  induction l with
  | nil => simp [getEntry]
  | cons e l ih =>
    rw [List.filter_cons]
    by_cases he : e.1 = k
    · subst he
      rw [if_neg (by simp), ih]
      by_cases hk : e.1 = k' <;> simp [getEntry, hk]
    · rw [if_pos (by simpa using he), getEntry, getEntry, ih]
      by_cases hk : k = k'
      · subst hk
        simp [he]
      · simp [hk]

theorem mem_setEntry {k : K} {v : V} {l : List (K × V)} {e : K × V} (h : e ∈ setEntry k v l) :
    e = (k, v) ∨ e ∈ l := by
  induction l with
  | nil => simpa [setEntry] using h
  | cons x l ih =>
    simp only [setEntry] at h
    split_ifs at h
    · rcases List.mem_cons.1 h with rfl | h
      · exact .inl rfl
      · exact .inr (List.mem_cons_of_mem _ h)
    · rcases List.mem_cons.1 h with rfl | h
      · exact .inr List.mem_cons_self
      · exact (ih h).imp id (List.mem_cons_of_mem _)

theorem setEntry_not_mem {k : K} {v : V} {l : List (K × V)} (h : k ∉ l.map Prod.fst) :
    setEntry k v l = l ++ [(k, v)] := by
  induction l with
  | nil => rfl
  | cons e l ih =>
    simp only [List.map_cons, List.mem_cons, not_or] at h
    simp [setEntry, Ne.symm h.1, ih h.2]

theorem modifyEntry_self {k : K} {f : V → V} {l : List (K × V)} (h : ∀ v, getEntry k l = some v → f v = v) :
    modifyEntry k f l = l := by
  induction l with
  | nil => rfl
  | cons e l ih =>
    obtain ⟨k', v⟩ := e
    by_cases hk : k' = k
    · simp_all [modifyEntry, getEntry]
    · simp_all [modifyEntry, getEntry]

theorem getEntry_of_mem {k : K} {v : V} {l : List (K × V)} (hn : (l.map Prod.fst).Nodup) (h : (k, v) ∈ l) :
    getEntry k l = some v := by
  induction l with
  | nil => simp at h
  | cons e l ih =>
    simp only [List.map_cons, List.nodup_cons] at hn
    rcases List.mem_cons.1 h with rfl | h
    · simp [getEntry]
    · have hne : e.1 ≠ k := fun he => hn.1 (by rw [he]; exact List.mem_map.2 ⟨(k, v), h, rfl⟩)
      simp [getEntry, hne, ih hn.2 h]

theorem mem_of_getEntry {k : K} {v : V} {l : List (K × V)} (h : getEntry k l = some v) : (k, v) ∈ l := by
  induction l with
  | nil => simp [getEntry] at h
  | cons e l ih =>
    simp only [getEntry] at h
    by_cases he : e.1 = k
    · simp only [he, if_true, Option.some.injEq] at h
      subst he; subst h; simp
    · simp only [he, if_false] at h
      exact List.mem_cons_of_mem _ (ih h)

end Entries

/-! ## Maps -/

/-- a JavaScript `Map`: entries in insertion order, one per key -/
structure JsMap (K V : Type) where
  entries : List (K × V)
  nodup : (entries.map Prod.fst).Nodup

namespace JsMap

variable {K V : Type}

theorem ext {m m' : JsMap K V} (h : m.entries = m'.entries) : m = m' := by
  cases m; cases m'; cases h; rfl

instance [DecidableEq K] [DecidableEq V] : DecidableEq (JsMap K V) := fun m m' =>
  decidable_of_iff (m.entries = m'.entries) ⟨ext, fun h => h ▸ rfl⟩

def empty : JsMap K V := ⟨[], List.nodup_nil⟩

def keys (m : JsMap K V) : List K := m.entries.map Prod.fst

def size (m : JsMap K V) : ℕ := m.entries.length

variable [DecidableEq K]

def get (m : JsMap K V) (k : K) : Option V := getEntry k m.entries

def has (m : JsMap K V) (k : K) : Bool := (m.get k).isSome

def set (m : JsMap K V) (k : K) (v : V) : JsMap K V where
  entries := setEntry k v m.entries
  nodup := by
    rw [keys_setEntry]
    split_ifs with h
    · exact m.nodup
    · exact List.nodup_append.2 ⟨m.nodup, by simp, fun a ha b hb hab => by simp at hb; subst hb; exact h (hab ▸ ha)⟩

/-- mutate the object stored under `k`, if there is one -/
def modify (m : JsMap K V) (k : K) (f : V → V) : JsMap K V where
  entries := modifyEntry k f m.entries
  nodup := by rw [keys_modifyEntry]; exact m.nodup

def delete (m : JsMap K V) (k : K) : JsMap K V where
  entries := m.entries.filter (fun e => e.1 ≠ k)
  nodup := m.nodup.sublist (List.filter_sublist.map _)

/-- `new Map(entries)` -/
def ofEntries (l : List (K × V)) : JsMap K V := l.foldl (fun m e => m.set e.1 e.2) empty

omit [DecidableEq K] in
@[simp] theorem keys_empty : (empty : JsMap K V).keys = [] := rfl

omit [DecidableEq K] in
theorem keys_nodup (m : JsMap K V) : m.keys.Nodup := m.nodup

@[simp] theorem get_set (m : JsMap K V) (k k' : K) (v : V) :
    (m.set k v).get k' = if k = k' then some v else m.get k' := getEntry_setEntry k k' v m.entries

@[simp] theorem get_modify (m : JsMap K V) (k k' : K) (f : V → V) :
    (m.modify k f).get k' = if k = k' then (m.get k').map f else m.get k' := getEntry_modifyEntry k k' f m.entries

theorem get_delete (m : JsMap K V) (k k' : K) : (m.delete k).get k' = if k = k' then none else m.get k' :=
  getEntry_filter k k' m.entries

@[simp] theorem keys_modify (m : JsMap K V) (k : K) (f : V → V) : (m.modify k f).keys = m.keys :=
  keys_modifyEntry k f m.entries

theorem keys_set (m : JsMap K V) (k : K) (v : V) :
    (m.set k v).keys = if k ∈ m.keys then m.keys else m.keys ++ [k] := keys_setEntry k v m.entries

theorem mem_keys (m : JsMap K V) (k : K) : k ∈ m.keys ↔ ∃ v, m.get k = some v := by
  rw [← Option.isSome_iff_exists]
  exact (getEntry_isSome k m.entries).symm

theorem get_of_mem {m : JsMap K V} {k : K} {v : V} (h : (k, v) ∈ m.entries) : m.get k = some v :=
  getEntry_of_mem m.nodup h

theorem mem_of_get {m : JsMap K V} {k : K} {v : V} (h : m.get k = some v) : (k, v) ∈ m.entries :=
  mem_of_getEntry h

theorem mem_set_entries {m : JsMap K V} {k : K} {v : V} {e : K × V} (h : e ∈ (m.set k v).entries) :
    e = (k, v) ∨ e ∈ m.entries := mem_setEntry h

theorem set_new {m : JsMap K V} {k : K} {v : V} (h : k ∉ m.keys) :
    (m.set k v).entries = m.entries ++ [(k, v)] := setEntry_not_mem h

theorem modify_self {m : JsMap K V} {k : K} (f : V → V) (h : ∀ v, m.get k = some v → f v = v) : m.modify k f = m :=
  ext (modifyEntry_self h)

/-- mutating an absent object does nothing -/
theorem modify_absent {m : JsMap K V} {k : K} (f : V → V) (h : m.get k = none) : m.modify k f = m :=
  modify_self f fun v hv => by rw [h] at hv; cases hv

/-- inserting entries with fresh distinct keys one after the other appends them -/
theorem foldl_set_entries (l : List (K × V)) (m : JsMap K V) (hn : (l.map Prod.fst).Nodup)
    (hd : ∀ k ∈ l.map Prod.fst, k ∉ m.keys) :
    (l.foldl (fun m e => m.set e.1 e.2) m).entries = m.entries ++ l := by
  induction l generalizing m with
  | nil => simp
  | cons e l ih =>
    simp only [List.map_cons, List.nodup_cons] at hn
    have he : e.1 ∉ m.keys := hd e.1 (by simp)
    rw [List.foldl_cons, ih (m.set e.1 e.2) hn.2 ?_, set_new he]
    · simp
    · intro k hk
      rw [keys_set, if_neg he, List.mem_append, List.mem_singleton, not_or]
      exact ⟨hd k (by simp [hk]), fun h => hn.1 (h ▸ hk)⟩

/-- **Rebuilding a map from its entries gives the same map**, order included. -/
theorem ofEntries_entries (m : JsMap K V) : ofEntries m.entries = m := by
  apply ext
  have h := foldl_set_entries m.entries (empty : JsMap K V) m.nodup (by simp)
  simpa [ofEntries, empty] using h

/-- every entry of `new Map(l)` is one of `l` -/
theorem mem_ofEntries {l : List (K × V)} {e : K × V} (h : e ∈ (ofEntries l).entries) : e ∈ l := by
  have key : ∀ (l : List (K × V)) (m : JsMap K V), e ∈ (l.foldl (fun m e => m.set e.1 e.2) m).entries →
      e ∈ m.entries ∨ e ∈ l := by
    intro l
    induction l with
    | nil => intro m hm; exact .inl hm
    | cons x l ih =>
      intro m hm
      rcases ih (m.set x.1 x.2) hm with h | h
      · rcases mem_set_entries h with h | h
        · exact .inr (by simp [h])
        · exact .inl h
      · exact .inr (List.mem_cons_of_mem _ h)
  rcases key l empty h with h | h
  · cases h
  · exact h

end JsMap

/-! ## Sets -/

/-- a JavaScript `Set`: members in insertion order -/
structure JsSet (K : Type) where
  elems : List K
  nodup : elems.Nodup

namespace JsSet

variable {K : Type}

theorem ext {s s' : JsSet K} (h : s.elems = s'.elems) : s = s' := by
  cases s; cases s'; cases h; rfl

instance [DecidableEq K] : DecidableEq (JsSet K) := fun s s' =>
  decidable_of_iff (s.elems = s'.elems) ⟨ext, fun h => h ▸ rfl⟩

def empty : JsSet K := ⟨[], List.nodup_nil⟩

variable [DecidableEq K]

def has (s : JsSet K) (k : K) : Bool := decide (k ∈ s.elems)

def add (s : JsSet K) (k : K) : JsSet K where
  elems := if k ∈ s.elems then s.elems else s.elems ++ [k]
  nodup := by
    split_ifs with h
    · exact s.nodup
    · exact List.nodup_append.2 ⟨s.nodup, by simp, fun a ha b hb hab => by simp at hb; subst hb; exact h (hab ▸ ha)⟩

def delete (s : JsSet K) (k : K) : JsSet K where
  elems := s.elems.filter (fun x => x ≠ k)
  nodup := s.nodup.filter _

@[simp] theorem has_empty (k : K) : (empty : JsSet K).has k = false := by simp [has, empty]

theorem has_add (s : JsSet K) (k k' : K) : (s.add k).has k' = (decide (k' = k) || s.has k') := by
  by_cases h : k ∈ s.elems
  · by_cases hk : k' = k
    · subst hk; simp [has, add, h]
    · simp [has, add, h, hk]
  · simp [has, add, h, or_comm]

theorem has_delete (s : JsSet K) (k k' : K) : (s.delete k).has k' = (!decide (k' = k) && s.has k') := by
  simp [has, delete, and_comm]

theorem mem_add {s : JsSet K} {k k' : K} : k' ∈ (s.add k).elems ↔ k' = k ∨ k' ∈ s.elems := by
  simpa [has] using congrArg (· = true) (has_add s k k')

theorem mem_delete {s : JsSet K} {k k' : K} : k' ∈ (s.delete k).elems ↔ k' ≠ k ∧ k' ∈ s.elems := by
  simpa [has] using congrArg (· = true) (has_delete s k k')

theorem length_add {s : JsSet K} {k : K} (h : k ∉ s.elems) : (s.add k).elems.length = s.elems.length + 1 := by
  simp [add, h]

theorem length_delete {s : JsSet K} {k : K} (h : k ∈ s.elems) : (s.delete k).elems.length + 1 = s.elems.length := by
  have hfilter : (s.delete k).elems = s.elems.erase k := by
    rw [s.nodup.erase_eq_filter]
    exact List.filter_congr fun x _ => by by_cases hx : x = k <;> simp [hx]
  rw [hfilter, List.length_erase_of_mem h]
  have := List.length_pos_of_mem h
  omega

end JsSet

end Arena.Lib
