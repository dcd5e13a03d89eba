/-
The stored daily streak is the real one.

Days are compared as numbers. A date key of the years 1970 to 9999 reads back as the day it was made from, and the key
before it is that of the day before, across months, years and leap days (`previousDateKey_toDateKey`). So the row that
`resolveStreakBefore` reads is yesterday's. While no submit of a user begins before those of the user's earlier days are
committed, yesterday's streak is final when it is read, and an induction over the history gives the streak of every row.
-/
import Arena.Api.Daily

namespace Arena.Api

open Arena.Lib Arena.Shared Arena.GameCore

/-! ## Date keys -/

/-- an instant of the years 1970 to 9999 -/
def InRange (t : ℤ) : Prop := 0 ≤ t ∧ t / msPerDay < dayFromYear 10000

/-- the same and the day before, which the first streak asks for -/
def Readable (t : ℤ) : Prop := -1 ≤ t / msPerDay ∧ t / msPerDay < dayFromYear 10000

theorem InRange.day {t : ℤ} (h : InRange t) : 0 ≤ t / msPerDay := Int.ediv_nonneg h.1 (by decide)

theorem InRange.readable {t : ℤ} (h : InRange t) : Readable t := ⟨by have := h.day; omega, h.2⟩

/-- the day of a key -/
def keyDay (dateKey : String) : Option ℤ := parseDate dateKey.toList

theorem Readable.parse_format {t : ℤ} (h : Readable t) : (formatDate (ofDay (t / msPerDay))).length = 10 ∧
    parseDate (formatDate (ofDay (t / msPerDay))) = some (t / msPerDay) := by
  have hstart : dayFromYear 1969 ≤ t / msPerDay := le_trans (by decide) h.1
  obtain ⟨ha, hb⟩ := yearFromDay_mem (a := 1969) (b := 9999) hstart (by simpa using h.2)
  exact Lib.parse_format ⟨by omega, hb⟩

theorem Readable.toDateKey_toList {t : ℤ} (h : Readable t) :
    (toDateKey t).toList = formatDate (ofDay (t / msPerDay)) := by
  have htake : (toISOString t).take 10 = formatDate (ofDay (t / msPerDay)) := by
    simp only [toISOString, List.append_assoc]
    exact List.take_left' h.parse_format.1
  simp [toDateKey, htake]

theorem Readable.keyDay {t : ℤ} (h : Readable t) : keyDay (toDateKey t) = some (t / msPerDay) := by
  rw [Api.keyDay, h.toDateKey_toList]
  exact h.parse_format.2

/-- a key depends on the day only -/
theorem Readable.toDateKey_congr {t t' : ℤ} (h : Readable t) (h' : Readable t')
    (hday : t / msPerDay = t' / msPerDay) : toDateKey t = toDateKey t' := by
  have ht : (toDateKey t).toList = (toDateKey t').toList := by
    rw [h.toDateKey_toList, h'.toDateKey_toList, hday]
  exact String.toList_injective ht

/-- **The key before a key is that of the day before.** -/
theorem previousDateKey_toDateKey {t : ℤ} (h : InRange t) :
    ∃ t', Readable t' ∧ t' / msPerDay = t / msPerDay - 1 ∧ previousDateKey (toDateKey t) = some (toDateKey t') := by
  have hlist := h.readable.toDateKey_toList
  obtain ⟨hlen, hparse⟩ := h.readable.parse_format
  have hdate : dateParse ((toDateKey t).toList ++ "T00:00:00.000Z".toList) = some (t / msPerDay * msPerDay) := by
    have hdrop : ((toDateKey t).toList ++ "T00:00:00.000Z".toList).drop 10 = "T00:00:00.000Z".toList :=
      List.drop_left' (by rw [hlist]; exact hlen)
    have htake : ((toDateKey t).toList ++ "T00:00:00.000Z".toList).take 10 = (toDateKey t).toList :=
      List.take_left' (by rw [hlist]; exact hlen)
    rw [dateParse, if_pos hdrop, htake, hlist, hparse]
    rfl
  have hday : (t / msPerDay * msPerDay - msPerDay) / msPerDay = t / msPerDay - 1 := by
    have hsub : t / msPerDay * msPerDay - msPerDay = (t / msPerDay - 1) * msPerDay := by ring
    rw [hsub, Int.mul_ediv_cancel _ (by decide)]
  have h0 := h.day
  have h1 := h.2
  exact ⟨t / msPerDay * msPerDay - msPerDay, ⟨by rw [hday]; omega, by rw [hday]; omega⟩, hday,
    by rw [previousDateKey, hdate]; rfl⟩

/-! ## Rows by day -/

/-- the user has an all-correct attempt of the day -/
def Perfect (rows : List DailyAttempt) (userId : String) (day : ℤ) : Prop :=
  ∃ r ∈ rows, r.userId = userId ∧ keyDay r.dateKey = some day ∧ r.allCorrect = true

/-- the key is that of an instant in range -/
def Dated (r : DailyAttempt) : Prop := ∃ t, InRange t ∧ r.dateKey = toDateKey t

theorem Dated.exists_day {r : DailyAttempt} (h : Dated r) : ∃ d, keyDay r.dateKey = some d := by
  obtain ⟨t, ht, hk⟩ := h
  exact ⟨t / msPerDay, by rw [hk, ht.readable.keyDay]⟩

/-- a row has the key of any instant of its day -/
theorem Dated.key_eq {r : DailyAttempt} (h : Dated r) {t : ℤ} (ht : Readable t)
    (hd : keyDay r.dateKey = some (t / msPerDay)) : r.dateKey = toDateKey t := by
  obtain ⟨t', ht', hk⟩ := h
  rw [hk, ht'.readable.keyDay] at hd
  rw [hk]
  exact ht'.readable.toDateKey_congr ht (Option.some.inj hd)

theorem mem_of_findAttempt {rows : List DailyAttempt} {key user : String} {r : DailyAttempt}
    (h : findAttempt rows key user = some r) : r ∈ rows ∧ r.dateKey = key ∧ r.userId = user := by
  have hp := List.find?_some h
  simp only [decide_eq_true_eq] at hp
  exact ⟨List.mem_of_find?_eq_some h, hp⟩

theorem findAttempt_none {rows : List DailyAttempt} {key user : String} :
    findAttempt rows key user = none ↔ ∀ r ∈ rows, r.dateKey = key → r.userId ≠ user := by
  simp [findAttempt, List.find?_eq_none]

/-! ## What a submit asks for -/

/-- the streak of a row is what its answers make of the streak before -/
def Counts (r : DailyAttempt) : Prop := r.streakAfter = if r.allCorrect then r.streakBefore + 1 else 0

theorem prepareAttempt_ok {J : StringOps} {rows : List DailyAttempt} {sets : List DailyQuestion} {userId : String}
    {now : ℤ} {input : DailySubmitInput} {r : DailyAttempt} (h : prepareAttempt J rows sets userId now input = .ok r) :
    r.dateKey = toDateKey now ∧ r.userId = userId ∧ Counts r ∧
      resolveStreakBefore rows userId (toDateKey now) = some r.streakBefore := by
  unfold prepareAttempt at h
  dsimp only at h
  split at h
  · cases h
  · cases h
  · rename_i claims
    split_ifs at h with h1 h2
    split at h
    · cases h
    · rename_i record questions hset
      split_ifs at h with hcount
      split at h
      · cases h
      · rename_i streakBefore hs
        obtain rfl := Except.ok.inj h
        refine ⟨rfl, rfl, ?_, hs⟩
        -- all the questions are answered right exactly if every answer of the row is
        have hlen : (gradeDaily J questions input.answers).length = questions.length := by
          simp only [gradeDaily, List.length_map, List.length_zip]
          omega
        have hall : ((gradeDaily J questions input.answers).countP AttemptAnswer.isCorrect = questions.length) ↔
            (gradeDaily J questions input.answers).all AttemptAnswer.isCorrect = true := by
          rw [← hlen, List.countP_eq_length, List.all_eq_true]
        simp only [Counts, attemptRow, DailyAttempt.allCorrect, hall]

/-! ## Histories in order -/

/-- a submit begins when every submit of an earlier day by its user is committed, and no later day has begun -/
def DaysInOrder (s : DailyStore) : DailyOp → Prop
  | .submit _ userId now _ => InRange now ∧
      (∀ r ∈ s.inFlight, r.userId = userId → r.dateKey = toDateKey now) ∧
      ∀ r ∈ s.rows, r.userId = userId → ∀ d ∈ keyDay r.dateKey, d ≤ now / msPerDay
  | _ => True

instance (t : ℤ) : Decidable (InRange t) := inferInstanceAs (Decidable (_ ∧ _))

instance (s : DailyStore) : ∀ o, Decidable (DaysInOrder s o)
  | .submit _ _ _ _ => inferInstanceAs (Decidable (_ ∧ _ ∧ _))
  | .create _ => .isTrue trivial
  | .fail _ => .isTrue trivial

/-- the streak of a row is the number of all-correct days in a row that end at its day -/
def StreakRight (rows : List DailyAttempt) (r : DailyAttempt) : Prop :=
  ∀ d, keyDay r.dateKey = some d → RunLength (Perfect rows r.userId) d r.streakAfter

structure StreakInv (s : DailyStore) : Prop where
  dated : ∀ r, r ∈ s.rows ∨ r ∈ s.inFlight → Dated r
  unique : (s.rows.map fun r => (r.dateKey, r.userId)).Nodup
  counts : ∀ r, r ∈ s.rows ∨ r ∈ s.inFlight → Counts r
  oneDay : ∀ r ∈ s.inFlight, ∀ r' ∈ s.inFlight, r.userId = r'.userId → r.dateKey = r'.dateKey
  latest : ∀ r ∈ s.inFlight, ∀ r' ∈ s.rows, r.userId = r'.userId →
    ∀ d d', keyDay r.dateKey = some d → keyDay r'.dateKey = some d' → d' ≤ d
  before : ∀ r ∈ s.inFlight, ∀ d, keyDay r.dateKey = some d →
    RunLength (Perfect s.rows r.userId) (d - 1) r.streakBefore
  right : ∀ r ∈ s.rows, StreakRight s.rows r

theorem init_streakInv : StreakInv DailyStore.init :=
  ⟨by simp [DailyStore.init], by simp [DailyStore.init], by simp [DailyStore.init], by simp [DailyStore.init],
    by simp [DailyStore.init], by simp [DailyStore.init], by simp [DailyStore.init]⟩

/-- yesterday's row holds the streak that ends yesterday -/
theorem streakBefore_right {s : DailyStore} (h : StreakInv s) {t : ℤ} (ht : InRange t) {userId : String} {n : ℕ}
    (hn : resolveStreakBefore s.rows userId (toDateKey t) = some n) :
    RunLength (Perfect s.rows userId) (t / msPerDay - 1) n := by
  obtain ⟨t', ht', hday, hprev⟩ := previousDateKey_toDateKey ht
  rw [← hday]
  simp only [resolveStreakBefore, hprev, Option.map_some, Option.some.injEq] at hn
  split at hn
  · rename_i row hrow
    obtain ⟨hmem, hkey, rfl⟩ := mem_of_findAttempt hrow
    rw [← hn]
    exact h.right row hmem _ (by rw [hkey, ht'.keyDay])
  · rename_i hnone
    rw [← hn, runLength_zero]
    rintro ⟨r, hr, hu, hd, -⟩
    exact findAttempt_none.1 hnone r hr ((h.dated r (.inl hr)).key_eq ht' hd) hu

/-! ## Steps -/

theorem submit_streakInv (J : StringOps) {s : DailyStore} (h : StreakInv s) {sets : List DailyQuestion}
    {userId : String} {now : ℤ} {input : DailySubmitInput} (hg : DaysInOrder s (.submit sets userId now input)) :
    StreakInv (s.step J (.submit sets userId now input)) := by
  simp only [DailyStore.step]
  split
  · rename_i row hrow
    obtain ⟨hkey, rfl, hcounts, hbefore⟩ := prepareAttempt_ok hrow
    obtain ⟨hrange, hflight, hrows⟩ := hg
    have hday : keyDay row.dateKey = some (now / msPerDay) := by rw [hkey, hrange.readable.keyDay]
    constructor
    · rintro r (hr | hr)
      · exact h.dated r (.inl hr)
      · rcases List.mem_append.1 hr with hr | hr
        · exact h.dated r (.inr hr)
        · rw [List.mem_singleton.1 hr]
          exact ⟨now, hrange, hkey⟩
    · exact h.unique
    · rintro r (hr | hr)
      · exact h.counts r (.inl hr)
      · rcases List.mem_append.1 hr with hr | hr
        · exact h.counts r (.inr hr)
        · rw [List.mem_singleton.1 hr]
          exact hcounts
    · intro r hr r' hr' hu
      rcases List.mem_append.1 hr with h1 | h1 <;> rcases List.mem_append.1 hr' with h2 | h2
      · exact h.oneDay r h1 r' h2 hu
      · obtain rfl := List.mem_singleton.1 h2
        rw [hflight r h1 hu, hkey]
      · obtain rfl := List.mem_singleton.1 h1
        rw [hflight r' h2 hu.symm, hkey]
      · rw [List.mem_singleton.1 h1, List.mem_singleton.1 h2]
    · intro r hr r' hr' hu d d' hd hd'
      rcases List.mem_append.1 hr with hr | hr
      · exact h.latest r hr r' hr' hu d d' hd hd'
      · obtain rfl := List.mem_singleton.1 hr
        rw [hday] at hd
        cases hd
        exact hrows r' hr' hu.symm d' hd'
    · intro r hr d hd
      rcases List.mem_append.1 hr with hr | hr
      · exact h.before r hr d hd
      · obtain rfl := List.mem_singleton.1 hr
        rw [hday] at hd
        cases hd
        exact streakBefore_right h hrange hbefore
    · exact h.right
  · exact h

/-- a submit that leaves without a row -/
theorem erase_streakInv {s : DailyStore} (h : StreakInv s) (i : ℕ) :
    StreakInv { s with inFlight := s.inFlight.eraseIdx i } := by
  have hsub : ∀ r ∈ s.inFlight.eraseIdx i, r ∈ s.inFlight := fun r hr => (List.eraseIdx_sublist _ _).subset hr
  exact ⟨fun r hr => h.dated r (hr.imp_right (hsub r)), h.unique, fun r hr => h.counts r (hr.imp_right (hsub r)),
    fun r hr r' hr' => h.oneDay r (hsub r hr) r' (hsub r' hr'), fun r hr => h.latest r (hsub r hr),
    fun r hr => h.before r (hsub r hr), h.right⟩

/-- the days before a new row's day keep their attempts -/
theorem perfect_append {rows : List DailyAttempt} {row : DailyAttempt} {d : ℤ} (hd : keyDay row.dateKey = some d)
    {userId : String} {k : ℤ} (hk : row.userId = userId → k < d) :
    Perfect (rows ++ [row]) userId k ↔ Perfect rows userId k := by
  constructor
  · rintro ⟨r, hr, hu, hday, hall⟩
    rcases List.mem_append.1 hr with hr | hr
    · exact ⟨r, hr, hu, hday, hall⟩
    · obtain rfl := List.mem_singleton.1 hr
      rw [hd] at hday
      cases hday
      exact absurd (hk hu) (lt_irrefl _)
  · rintro ⟨r, hr, h⟩
    exact ⟨r, List.mem_append_left _ hr, h⟩

theorem create_streakInv {s : DailyStore} (h : StreakInv s) {i : ℕ} {row : DailyAttempt} (hi : s.inFlight[i]? = some row)
    (hfree : findAttempt s.rows row.dateKey row.userId = none) :
    StreakInv ⟨s.rows ++ [row], s.inFlight.eraseIdx i⟩ := by
  have hmem : row ∈ s.inFlight := List.mem_of_getElem? hi
  have hsub : ∀ r ∈ s.inFlight.eraseIdx i, r ∈ s.inFlight := fun r hr => (List.eraseIdx_sublist _ _).subset hr
  have hnew := findAttempt_none.1 hfree
  obtain ⟨t, ht, hkey⟩ := h.dated row (.inr hmem)
  have hday : keyDay row.dateKey = some (t / msPerDay) := by rw [hkey, ht.readable.keyDay]
  -- the other rows of the user are of earlier days
  have hearlier : ∀ r ∈ s.rows, row.userId = r.userId → ∀ d, keyDay r.dateKey = some d → d < t / msPerDay := by
    intro r hr hu d hd
    refine lt_of_le_of_ne (h.latest row hmem r hr hu _ d hday hd) fun heq => ?_
    rw [heq] at hd
    exact hnew r hr (((h.dated r (.inl hr)).key_eq ht.readable hd).trans hkey.symm) hu.symm
  constructor
  · rintro r (hr | hr)
    · rcases List.mem_append.1 hr with hr | hr
      · exact h.dated r (.inl hr)
      · exact h.dated r (.inr (List.mem_singleton.1 hr ▸ hmem))
    · exact h.dated r (.inr (hsub r hr))
  · rw [List.map_append, List.nodup_append]
    refine ⟨h.unique, List.nodup_singleton _, ?_⟩
    intro a ha b hb hab
    obtain ⟨r, hr, rfl⟩ := List.mem_map.1 ha
    rw [List.map_singleton, List.mem_singleton] at hb
    rw [hb, Prod.mk.injEq] at hab
    exact hnew r hr hab.1 hab.2
  · rintro r (hr | hr)
    · rcases List.mem_append.1 hr with hr | hr
      · exact h.counts r (.inl hr)
      · exact h.counts r (.inr (List.mem_singleton.1 hr ▸ hmem))
    · exact h.counts r (.inr (hsub r hr))
  · exact fun r hr r' hr' => h.oneDay r (hsub r hr) r' (hsub r' hr')
  · intro r hr r' hr' hu d d' hd hd'
    rcases List.mem_append.1 hr' with hr' | hr'
    · exact h.latest r (hsub r hr) r' hr' hu d d' hd hd'
    · obtain rfl := List.mem_singleton.1 hr'
      rw [h.oneDay r (hsub r hr) r' hmem hu, hd'] at hd
      exact (Option.some.inj hd).le
  · intro r hr d hd
    refine (h.before r (hsub r hr) d hd).congr fun k => (perfect_append hday fun hu => ?_).symm
    rw [h.oneDay r (hsub r hr) row hmem hu.symm, hday] at hd
    cases hd
    omega
  · intro r hr d hd
    rcases List.mem_append.1 hr with hr | hr
    · refine (h.right r hr d hd).congr fun k => (perfect_append hday fun hu => ?_).symm
      have := hearlier r hr hu d hd
      omega
    · obtain rfl := List.mem_singleton.1 hr
      rw [hday] at hd
      cases hd
      have hcount := h.counts r (.inr hmem)
      have hrun : RunLength (Perfect (s.rows ++ [r]) r.userId) (t / msPerDay - 1) r.streakBefore :=
        (h.before r hmem _ hday).congr fun k => (perfect_append hday fun _ => by omega).symm
      by_cases hall : r.allCorrect = true
      · rw [hcount, if_pos hall]
        exact hrun.next ⟨r, by simp, rfl, hday, hall⟩
      · rw [hcount, if_neg hall, runLength_zero]
        rintro ⟨r', hr', hu, hd', hall'⟩
        rcases List.mem_append.1 hr' with hr' | hr'
        · exact absurd (hearlier r' hr' hu.symm _ hd') (lt_irrefl _)
        · exact hall (List.mem_singleton.1 hr' ▸ hall')

theorem step_streakInv (J : StringOps) (s : DailyStore) (o : DailyOp) (hg : DaysInOrder s o) (h : StreakInv s) :
    StreakInv (s.step J o) := by
  cases o with
  | submit sets userId now input => exact submit_streakInv J h hg
  | create i =>
    simp only [DailyStore.step]
    split
    · exact h
    · rename_i row hi
      unfold createAttempt
      by_cases hfree : (findAttempt s.rows row.dateKey row.userId).isSome = true
      · rw [if_pos hfree]
        exact erase_streakInv h i
      · rw [if_neg hfree]
        exact create_streakInv h hi (by simpa using hfree)
  | fail i => exact erase_streakInv h i

/-- **The stored streak is the real streak.** In every history of submits in which a day of a user begins after the
user's earlier days are committed, the streak stored with an attempt is the number of consecutive days, ending at its
day, on each of which the user has an all-correct attempt; it is 0 if the attempt is not all correct. -/
theorem stored_streak_real (J : StringOps) (ops : List DailyOp)
    (hg : Along (DailyStore.step J) DaysInOrder DailyStore.init ops) :
    ∀ r ∈ (run (DailyStore.step J) DailyStore.init ops).rows, ∃ d, keyDay r.dateKey = some d ∧
      RunLength (Perfect (run (DailyStore.step J) DailyStore.init ops).rows r.userId) d r.streakAfter ∧
      (r.allCorrect = false → r.streakAfter = 0) := by
  intro r hr
  have h := run_inv (DailyStore.step J) DaysInOrder StreakInv (step_streakInv J) DailyStore.init ops hg init_streakInv
  obtain ⟨d, hd⟩ := (h.dated r (.inl hr)).exists_day
  refine ⟨d, hd, h.right r hr d hd, fun hall => ?_⟩
  rw [h.counts r (.inl hr), if_neg (by simp [hall])]

/-- a set of one question -/
def leapSet (dateKey : String) : DailyQuestion := ⟨dateKey, 1, dateKey, some [⟨"4", none⟩]⟩

def leapSubmit (now : ℤ) (answer : String) : DailyOp :=
  .submit [leapSet (toDateKey now)] "alice" now
    ⟨.claims ⟨"alice", toDateKey now, toDateKey now, some now⟩, [(answer, 900)]⟩

/-- right on 2024-02-28, on the leap day and on 2024-03-01, wrong on 2024-03-02 -/
def leapHistory : List DailyOp :=
  [leapSubmit 1709078400000 "4", .create 0, leapSubmit 1709164800000 "4", .create 0, leapSubmit 1709337599999 "4",
    .create 0, leapSubmit 1709337600000 "5", .create 0]

theorem stored_streak_real_leap :
    (run (DailyStore.step StringOps.ascii) DailyStore.init leapHistory).rows.map
      (fun r => (r.dateKey, r.streakAfter)) =
        [("2024-02-28", 1), ("2024-02-29", 2), ("2024-03-01", 3), ("2024-03-02", 0)] ∧
    ∀ r ∈ (run (DailyStore.step StringOps.ascii) DailyStore.init leapHistory).rows, r.allCorrect = false →
      r.streakAfter = 0 := by
  refine ⟨by decide +kernel, fun r hr hall => ?_⟩
  obtain ⟨-, -, -, hzero⟩ := stored_streak_real StringOps.ascii leapHistory (by decide +kernel) r hr
  exact hzero hall

end Arena.Api
