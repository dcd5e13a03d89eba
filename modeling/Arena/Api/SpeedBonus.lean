/-
The daily speed bonus and the pinned session start (`getToday`, `pinSessionStart`, the speed bonus of `submit`).

A signed-in fetch reads its clock, then runs two Redis commands: a set-if-absent of its reading, and a read when the key
was there. Any number of fetches and submits of any users may stand between two commands, and each command may fail
before or after it took effect. A pin is stored with the rest of the UTC day as its time to live, on the clock of Redis.
The pin's decimal text is read back exactly: a date's time is an integer below 2^53.

- `ttl_outlives_day`: a pin that is set after its clock reading lives to the end of the UTC day;
- `PinInv.pin`: so a day's set-if-absent finds the pin that is there, and every token carries it or no start;
- `speed_bonus_bounded`: the bonus of every stored attempt is at most what the time since the first pinned start leaves,
  and 0 without a pinned start; where a token carries the start, no other token of the day scores more;
- `refetch_after_unpinned`: a fetch that pinned nothing leaves the pin to the next one.
-/
import Arena.Api.Matchmaking
import Arena.Api.Streaks
import Arena.Lib.Expiring

namespace Arena.Api.SpeedBonus

open Arena.Lib Arena.Shared Arena.GameCore

/-! ## The pin -/

/-- start of the next UTC day -/
def nextResetAt (t : ℤ) : ℤ := t / msPerDay * msPerDay + msPerDay

/-- the remainder of the UTC day, rounded up, and at least a second -/
def sessionPinTtlSeconds (nowMs : ℤ) : ℤ := max 1 (-(-(nextResetAt nowMs - nowMs) / 1000))

def sessionKey (userId dateKey : String) : String := "daily:session:" ++ userId ++ ":" ++ dateKey

/-- `pinSessionStart` awaits the set-if-absent, or the read -/
inductive PinStage where
  | setIfAbsent
  | get
deriving DecidableEq, Repr

/-- a signed-in `getToday` in flight -/
structure Fetch where
  userId : String
  now : ℤ
  dailyQuestionId : String
  stage : PinStage
deriving DecidableEq, Repr

/-- a start that a fetch pinned -/
structure PinnedStart where
  userId : String
  dateKey : String
  startedAtMs : ℤ
deriving DecidableEq, Repr

/-- a submit that was graded, and the user's first pinned start of the day at that time -/
structure Submission where
  now : ℤ
  row : DailyAttempt
  start : Option ℤ
deriving DecidableEq, Repr

/-- the user's first pinned start of the day -/
def firstPin (pinned : List PinnedStart) (userId dateKey : String) : Option ℤ :=
  (pinned.find? fun p => p.userId = userId ∧ p.dateKey = dateKey).map PinnedStart.startedAtMs

structure DailySessions where
  pins : String → Option (Expiring ℤ)
  fetches : List Fetch
  /-- the session tokens that were issued -/
  tokens : List DailySessionClaims
  daily : DailyStore
  /-- history: the starts that were pinned, first one first -/
  pinned : List PinnedStart
  /-- history -/
  submitted : List Submission

inductive SessionOp where
  /-- `getToday` up to its pin; an anonymous one has none -/
  | fetch (userId : Option String) (now : ℤ) (dailyQuestionId : String)
  /-- the set-if-absent of the `i`-th fetch in flight -/
  | setIfAbsent (i : ℕ) (instant : ℕ) (reply : CallResult)
  /-- its read -/
  | get (i : ℕ) (instant : ℕ) (ok : Bool)
  | daily (o : DailyOp)

namespace DailySessions

def init : DailySessions := ⟨fun _ => none, [], [], DailyStore.init, [], []⟩

/-- the `i`-th fetch is answered with its token -/
def issue (s : DailySessions) (i : ℕ) (f : Fetch) (startedAtMs : Option ℤ) : DailySessions :=
  { s with
    fetches := s.fetches.eraseIdx i
    tokens := s.tokens ++ [⟨f.userId, toDateKey f.now, f.dailyQuestionId, startedAtMs⟩] }

def pin (s : DailySessions) (f : Fetch) (instant : ℕ) : DailySessions :=
  { s with
    pins := Function.update s.pins (sessionKey f.userId (toDateKey f.now))
      (some ⟨f.now, instant + (sessionPinTtlSeconds f.now).toNat * 1000⟩)
    pinned := s.pinned ++ [⟨f.userId, toDateKey f.now, f.now⟩] }

/-- the pin as the key is read -/
def readPin (s : DailySessions) (f : Fetch) (instant : ℕ) : Option ℤ :=
  Expiring.get (s.pins (sessionKey f.userId (toDateKey f.now))) instant

def setIfAbsent (s : DailySessions) (i : ℕ) (f : Fetch) (instant : ℕ) : CallResult → DailySessions
  | .failed => s.issue i f none
  | .lost => if s.readPin f instant = none then (s.pin f instant).issue i f none else s.issue i f none
  | .ok =>
    if s.readPin f instant = none then (s.pin f instant).issue i f (some f.now)
    else { s with fetches := s.fetches.set i { f with stage := .get } }

def step (J : StringOps) (s : DailySessions) : SessionOp → DailySessions
  | .fetch none now dailyQuestionId =>
    { s with tokens := s.tokens ++ [⟨"anon", toDateKey now, dailyQuestionId, none⟩] }
  | .fetch (some userId) now dailyQuestionId =>
    { s with fetches := s.fetches ++ [⟨userId, now, dailyQuestionId, .setIfAbsent⟩] }
  | .setIfAbsent i instant reply =>
    match s.fetches[i]? with
    | none => s
    | some f => if f.stage = .setIfAbsent then s.setIfAbsent i f instant reply else s
  | .get i instant ok =>
    match s.fetches[i]? with
    | none => s
    | some f =>
      if f.stage = .get then s.issue i f (if ok then (s.readPin f instant).filter (0 < ·) else none) else s
  | .daily (.submit sets userId now input) =>
    { s with
      daily := s.daily.step J (.submit sets userId now input)
      submitted := s.submitted ++
        match prepareAttempt J s.daily.rows sets userId now input with
        | .ok row => [⟨now, row, firstPin s.pinned userId (toDateKey now)⟩]
        | .error _ => [] }
  | .daily o => { s with daily := s.daily.step J o }

end DailySessions

/-! ## What is relied on -/

/-- Ids are made by the database. A command runs after its fetch read the clock, within the UTC day, on a clock of Redis
that is not behind. A submit's token is one that was issued, or none that verifies. -/
def Trusted (s : DailySessions) : SessionOp → Prop
  | .fetch userId now _ => userId ≠ some "anon" ∧ InRange now
  | .setIfAbsent i instant _ => ∀ f, s.fetches[i]? = some f → f.now ≤ instant ∧ (instant : ℤ) < nextResetAt f.now
  | .get _ _ _ => True
  | .daily (.submit _ _ _ input) => ∀ c, input.sessionToken = .claims c → c ∈ s.tokens
  | .daily _ => True

instance (s : DailySessions) : ∀ o, Decidable (Trusted s o)
  | .fetch _ _ _ => inferInstanceAs (Decidable (_ ∧ _))
  | .setIfAbsent i instant _ =>
    inferInstanceAs (Decidable (∀ f ∈ s.fetches[i]?, f.now ≤ instant ∧ (instant : ℤ) < nextResetAt f.now))
  | .get _ _ _ => .isTrue trivial
  | .daily (.submit _ _ _ ⟨.claims c, _⟩) => decidable_of_iff (c ∈ s.tokens) (by simp [Trusted])
  | .daily (.submit _ _ _ ⟨.invalid, _⟩) => .isTrue (by simp [Trusted])
  | .daily (.submit _ _ _ ⟨.malformed, _⟩) => .isTrue (by simp [Trusted])
  | .daily (.create _) => .isTrue trivial
  | .daily (.fail _) => .isTrue trivial

/-! ## The bonus -/

/-- the speed bonus of `computeScore` -/
def dailySpeedBonus (correctCount : ℕ) (elapsedMs : Option ℤ) : ℤ :=
  match elapsedMs with
  | some elapsed => if 0 < correctCount then max 0 (75000 - max 0 elapsed) / 100 else 0
  | none => 0

/-- what is left of a score without the answers and the streak -/
def creditedSpeedBonus (row : DailyAttempt) : ℤ := row.score - row.correctCount * 100 - min (row.streakAfter * 50 : ℤ) 500

/-- what the time since a start leaves of the bonus -/
def bonusSince (start : Option ℤ) (now : ℤ) : ℤ :=
  match start with
  | some startedAtMs => max 0 (75000 - max 0 (now - startedAtMs)) / 100
  | none => 0

theorem dailySpeedBonus_nonneg (correctCount : ℕ) (elapsedMs : Option ℤ) :
    0 ≤ dailySpeedBonus correctCount elapsedMs := by
  rcases elapsedMs with _ | elapsed
  · exact le_rfl
  · simp only [dailySpeedBonus]
    split_ifs <;> omega

theorem dailySpeedBonus_le (correctCount : ℕ) (start : Option ℤ) (now : ℤ) :
    dailySpeedBonus correctCount (start.map fun startedAtMs => max 0 (now - startedAtMs)) ≤ bonusSince start now := by
  rcases start with _ | startedAtMs
  · exact le_rfl
  · simp only [dailySpeedBonus, bonusSince, Option.map_some]
    split_ifs <;> omega

/-- the score is the answers, the speed bonus and the streak, and the streak counts for nothing in a broken set -/
theorem creditedSpeedBonus_attemptRow (userId dateKey : String) (record : DailyQuestion) (results : List AttemptAnswer)
    (questionCount : ℕ) (elapsedMs : Option ℤ) (streakBefore : ℕ) :
    creditedSpeedBonus (attemptRow userId dateKey record results questionCount elapsedMs streakBefore) =
      dailySpeedBonus (results.countP AttemptAnswer.isCorrect) elapsedMs := by
  simp only [creditedSpeedBonus, attemptRow, computeDailyScore, dailySpeedBonus]
  by_cases hall : results.countP AttemptAnswer.isCorrect = questionCount
  · rw [decide_eq_true hall, if_pos hall]
    rcases elapsedMs with _ | elapsed <;> simp only [if_true] <;> omega
  · rw [decide_eq_false hall, if_neg hall]
    rcases elapsedMs with _ | elapsed <;> simp only [Bool.false_eq_true, if_false] <;> omega

/-- what a submit with an issued token depends on, the start set apart -/
theorem prepareAttempt_claims {J : StringOps} {rows : List DailyAttempt} {sets : List DailyQuestion} {userId : String}
    {now : ℤ} {claims : DailySessionClaims} {answers : List (String × Time)} {row : DailyAttempt} :
    prepareAttempt J rows sets userId now ⟨.claims claims, answers⟩ = .ok row ↔
      claims.dateKey = toDateKey now ∧ (claims.sub = "anon" ∨ claims.sub = userId) ∧
        ∃ record questions streakBefore,
          loadQuestionSetById sets (toDateKey now) claims.dailyQuestionId = .ok (record, questions) ∧
          answers.length = questions.length ∧ resolveStreakBefore rows userId (toDateKey now) = some streakBefore ∧
          attemptRow userId (toDateKey now) record (gradeDaily J questions answers) questions.length
            (claims.startedAtMs.map fun startedAtMs => max 0 (now - startedAtMs)) streakBefore = row := by
  unfold prepareAttempt
  dsimp only
  by_cases hday : claims.dateKey = toDateKey now
  case neg => simp [hday]
  rw [if_neg (not_not.2 hday)]
  by_cases hsub : claims.sub = "anon" ∨ claims.sub = userId
  case neg =>
    rw [if_pos (not_or.1 hsub)]
    simp [hsub]
  rw [if_neg (by tauto)]
  rcases hset : loadQuestionSetById sets (toDateKey now) claims.dailyQuestionId with e | ⟨record, questions⟩
  · simp
  by_cases hlen : answers.length = questions.length
  case neg =>
    simp only [ne_eq, hlen, not_false_eq_true, if_true, reduceCtorEq, false_iff]
    rintro ⟨-, -, record', questions', -, hok, hlen', -⟩
    obtain ⟨-, rfl⟩ := Prod.mk.inj (Except.ok.inj hok)
    exact hlen hlen'
  rcases hstreak : resolveStreakBefore rows userId (toDateKey now) with _ | streakBefore
  · simp [hlen]
  · simp [hlen, hday, hsub]

/-! ## Keys and days -/

theorem length_toDateKey {t : ℤ} (h : InRange t) : (toDateKey t).toList.length = 10 := by
  rw [h.readable.toDateKey_toList]
  exact h.readable.parse_format.1

theorem toDateKey_day {t t' : ℤ} (h : InRange t) (h' : InRange t') (hkey : toDateKey t = toDateKey t') :
    nextResetAt t = nextResetAt t' := by
  have hday : keyDay (toDateKey t) = some (t' / msPerDay) := by rw [hkey, h'.readable.keyDay]
  rw [h.readable.keyDay, Option.some_inj] at hday
  rw [nextResetAt, nextResetAt, hday]

/-- date keys have one length, so a session key belongs to one user and day -/
theorem sessionKey_inj {userId userId' dateKey dateKey' : String}
    (hlen : dateKey.toList.length = dateKey'.toList.length)
    (h : sessionKey userId dateKey = sessionKey userId' dateKey') : userId = userId' ∧ dateKey = dateKey' := by
  have hlist := congrArg String.toList h
  simp only [sessionKey, String.toList_append] at hlist
  obtain ⟨hleft, hright⟩ := List.append_inj' hlist hlen
  obtain ⟨hleft, -⟩ := List.append_inj' hleft rfl
  exact ⟨String.toList_injective (List.append_cancel_left hleft), String.toList_injective hright⟩

/-- **The pin outlives the day.** -/
theorem ttl_outlives_day (nowMs : ℤ) (instant : ℕ) (h : nowMs ≤ instant) :
    nextResetAt nowMs ≤ (instant + (sessionPinTtlSeconds nowMs).toNat * 1000 : ℕ) := by
  have hceil : nextResetAt nowMs - nowMs ≤ -(-(nextResetAt nowMs - nowMs) / 1000) * 1000 := by omega
  have hmax : -(-(nextResetAt nowMs - nowMs) / 1000) ≤ sessionPinTtlSeconds nowMs := le_max_right _ _
  have hpos : 1 ≤ sessionPinTtlSeconds nowMs := le_max_left _ _
  push_cast
  rw [Int.toNat_of_nonneg (by omega)]
  omega

/-! ## The invariant -/

/-- a pinned start is stored under its key to the end of its day -/
structure Kept (pins : String → Option (Expiring ℤ)) (p : PinnedStart) : Prop where
  stored : ∃ e, pins (sessionKey p.userId p.dateKey) = some e ∧ e.value = p.startedAtMs ∧
    nextResetAt p.startedAtMs ≤ e.expireAt
  range : InRange p.startedAtMs
  day : p.dateKey = toDateKey p.startedAtMs
  named : p.userId ≠ "anon"

/-- a graded submit is paid by the first pinned start of its day, if there is one yet -/
structure Bounded (pinned : List PinnedStart) (sub : Submission) : Prop where
  day : toDateKey sub.now = sub.row.dateKey
  start : sub.start = none ∨ sub.start = firstPin pinned sub.row.userId sub.row.dateKey
  bonus : creditedSpeedBonus sub.row ≤ bonusSince sub.start sub.now
  unpinned : sub.start = none → creditedSpeedBonus sub.row = 0

structure PinInv (s : DailySessions) : Prop where
  kept : ∀ p ∈ s.pinned, Kept s.pins p
  owned : ∀ key e, s.pins key = some e →
    ∃ p ∈ s.pinned, sessionKey p.userId p.dateKey = key ∧ p.startedAtMs = e.value
  fetches : ∀ f ∈ s.fetches, f.userId ≠ "anon" ∧ InRange f.now
  tokens : ∀ c ∈ s.tokens, ∀ v, c.startedAtMs = some v → (⟨c.sub, c.dateKey, v⟩ : PinnedStart) ∈ s.pinned
  bounded : ∀ sub ∈ s.submitted, Bounded s.pinned sub
  graded : ∀ row, row ∈ s.daily.rows ∨ row ∈ s.daily.inFlight → ∃ sub ∈ s.submitted, sub.row = row

namespace PinInv

variable {s : DailySessions} {f : Fetch} {i instant : ℕ}

/-- a user has one pinned start a day -/
theorem start_unique (h : PinInv s) {p p' : PinnedStart} (hp : p ∈ s.pinned) (hp' : p' ∈ s.pinned)
    (huser : p.userId = p'.userId) (hday : p.dateKey = p'.dateKey) : p.startedAtMs = p'.startedAtMs := by
  obtain ⟨e, he, hv, -⟩ := (h.kept p hp).stored
  obtain ⟨e', he', hv', -⟩ := (h.kept p' hp').stored
  rw [huser, hday, he', Option.some_inj] at he
  rw [← hv, ← hv', he]

theorem firstPin_eq (h : PinInv s) {p : PinnedStart} (hp : p ∈ s.pinned) :
    firstPin s.pinned p.userId p.dateKey = some p.startedAtMs := by
  rcases hfind : s.pinned.find? (fun q => q.userId = p.userId ∧ q.dateKey = p.dateKey) with _ | q
  · exact absurd (List.find?_eq_none.1 hfind p hp) (by simp)
  · have hq : q.userId = p.userId ∧ q.dateKey = p.dateKey := by simpa using List.find?_some hfind
    rw [firstPin, hfind, Option.map_some,
      h.start_unique (List.mem_of_find?_eq_some hfind) hp hq.1 hq.2]

/-- what a fetch reads back is a start that its user pinned on its day -/
theorem mem_of_readPin (h : PinInv s) (hf : InRange f.now) {v : ℤ} (hv : s.readPin f instant = some v) :
    (⟨f.userId, toDateKey f.now, v⟩ : PinnedStart) ∈ s.pinned := by
  obtain ⟨e, he, -, rfl⟩ := Expiring.get_eq_some.1 hv
  obtain ⟨p, hp, hkey, hstart⟩ := h.owned _ e he
  have hk := h.kept p hp
  obtain ⟨huser, hday⟩ := sessionKey_inj (by rw [hk.day, length_toDateKey hk.range, length_toDateKey hf]) hkey
  rw [← huser, ← hday, ← hstart]
  exact hp

/-- a set-if-absent within the day that finds no pin is the first one of its user and day -/
theorem not_pinned (h : PinInv s) (hf : InRange f.now) (hin : (instant : ℤ) < nextResetAt f.now)
    (hnone : s.readPin f instant = none) (p : PinnedStart) (hp : p ∈ s.pinned) (huser : p.userId = f.userId)
    (hday : p.dateKey = toDateKey f.now) : False := by
  have hk := h.kept p hp
  obtain ⟨e, he, -, hlive⟩ := hk.stored
  have hreset : nextResetAt p.startedAtMs = nextResetAt f.now :=
    toDateKey_day hk.range hf (hk.day.symm.trans hday)
  rw [DailySessions.readPin, ← huser, ← hday, he, Expiring.get_of_live (by omega)] at hnone
  exact absurd hnone (by simp)

theorem issue (h : PinInv s) {start : Option ℤ}
    (hstart : ∀ v, start = some v → (⟨f.userId, toDateKey f.now, v⟩ : PinnedStart) ∈ s.pinned) :
    PinInv (s.issue i f start) where
  kept := h.kept
  owned := h.owned
  fetches := fun g hg => h.fetches g (List.mem_of_mem_eraseIdx hg)
  tokens := by
    intro c hc v hv
    rcases List.mem_append.1 hc with hold | hnew
    · exact h.tokens c hold v hv
    · rw [List.mem_singleton] at hnew
      subst hnew
      exact hstart v hv
  bounded := h.bounded
  graded := h.graded

@[simp] theorem pin_pins_self : (s.pin f instant).pins (sessionKey f.userId (toDateKey f.now)) =
    some ⟨f.now, instant + (sessionPinTtlSeconds f.now).toNat * 1000⟩ := Function.update_self ..

theorem pin_pins_of_ne {key : String} (h : key ≠ sessionKey f.userId (toDateKey f.now)) :
    (s.pin f instant).pins key = s.pins key := Function.update_of_ne h ..

theorem firstPin_pin {userId dateKey : String} {v : ℤ} (h : firstPin s.pinned userId dateKey = some v) :
    firstPin (s.pin f instant).pinned userId dateKey = some v := by
  obtain ⟨p, hp, hv⟩ := Option.map_eq_some_iff.1 h
  rw [firstPin, DailySessions.pin, List.find?_append, hp, Option.some_or, Option.map_some, hv]

/-- **A pin.** The first set-if-absent of a user and day adds a start that is kept to the end of the day. -/
theorem pin (h : PinInv s) (hf : f.userId ≠ "anon" ∧ InRange f.now) (hafter : f.now ≤ instant)
    (hin : (instant : ℤ) < nextResetAt f.now) (hnone : s.readPin f instant = none) : PinInv (s.pin f instant) where
  kept := by
    intro p hp
    rcases List.mem_append.1 hp with hold | hnew
    · have hk := h.kept p hold
      refine ⟨?_, hk.range, hk.day, hk.named⟩
      have hne : sessionKey p.userId p.dateKey ≠ sessionKey f.userId (toDateKey f.now) := fun hkey => by
        obtain ⟨huser, hday⟩ :=
          sessionKey_inj (by rw [hk.day, length_toDateKey hk.range, length_toDateKey hf.2]) hkey
        exact h.not_pinned hf.2 hin hnone p hold huser hday
      rw [pin_pins_of_ne hne]
      exact hk.stored
    · rw [List.mem_singleton] at hnew
      subst hnew
      exact ⟨⟨_, pin_pins_self, rfl, ttl_outlives_day f.now instant hafter⟩, hf.2, rfl, hf.1⟩
  owned := by
    intro key e he
    by_cases hkey : key = sessionKey f.userId (toDateKey f.now)
    · subst hkey
      rw [pin_pins_self, Option.some_inj] at he
      exact ⟨_, List.mem_append_right _ (List.mem_singleton_self _), rfl, by rw [← he]⟩
    · rw [pin_pins_of_ne hkey] at he
      obtain ⟨p, hp, hpkey, hstart⟩ := h.owned key e he
      exact ⟨p, List.mem_append_left _ hp, hpkey, hstart⟩
  fetches := h.fetches
  tokens := fun c hc v hv => List.mem_append_left _ (h.tokens c hc v hv)
  bounded := by
    intro sub hsub
    have hb := h.bounded sub hsub
    refine ⟨hb.day, ?_, hb.bonus, hb.unpinned⟩
    rcases hb.start with hstart | hstart
    · exact .inl hstart
    · rcases hfirst : firstPin s.pinned sub.row.userId sub.row.dateKey with _ | v
      · exact .inl (hstart.trans hfirst)
      · exact .inr (by rw [hstart, hfirst, firstPin_pin hfirst])
  graded := h.graded

theorem setIfAbsent (h : PinInv s) (hf : f.userId ≠ "anon" ∧ InRange f.now) (hafter : f.now ≤ instant)
    (hin : (instant : ℤ) < nextResetAt f.now) (reply : CallResult) : PinInv (s.setIfAbsent i f instant reply) := by
  cases reply with
  | failed => exact h.issue (by simp)
  | lost =>
    simp only [DailySessions.setIfAbsent]
    split_ifs with hnone
    · exact (h.pin hf hafter hin hnone).issue (by simp)
    · exact h.issue (by simp)
  | ok =>
    simp only [DailySessions.setIfAbsent]
    split_ifs with hnone
    · refine (h.pin hf hafter hin hnone).issue fun v hv => ?_
      obtain rfl := Option.some_inj.1 hv
      exact List.mem_append_right _ (List.mem_singleton_self _)
    · refine { h with fetches := fun g hg => ?_ }
      rcases List.mem_or_eq_of_mem_set hg with hold | rfl
      · exact h.fetches g hold
      · exact hf

/-- what an issued token pays -/
theorem bounded_of_prepare (h : PinInv s) {J : StringOps} {sets : List DailyQuestion} {userId : String} {now : ℤ}
    {input : DailySubmitInput} {row : DailyAttempt}
    (htoken : ∀ c, input.sessionToken = .claims c → c ∈ s.tokens)
    (hrow : prepareAttempt J s.daily.rows sets userId now input = .ok row) :
    Bounded s.pinned ⟨now, row, firstPin s.pinned userId (toDateKey now)⟩ := by
  obtain ⟨hday, huser, -, -⟩ := prepareAttempt_ok hrow
  obtain ⟨token, answers⟩ := input
  rcases token with _ | _ | claims
  · exact absurd hrow (by simp [prepareAttempt])
  · exact absurd hrow (by simp [prepareAttempt])
  obtain ⟨hkey, hsub, record, questions, streakBefore, -, -, -, rfl⟩ := prepareAttempt_claims.1 hrow
  have hpaid := creditedSpeedBonus_attemptRow userId (toDateKey now) record (gradeDaily J questions answers)
    questions.length (claims.startedAtMs.map fun startedAtMs => max 0 (now - startedAtMs)) streakBefore
  -- the start of the token, if any, is the user's first pin of the day
  have hstart : claims.startedAtMs = none ∨ claims.startedAtMs = firstPin s.pinned userId (toDateKey now) := by
    rcases hv : claims.startedAtMs with _ | v
    · exact .inl rfl
    · have hp := h.tokens claims (htoken claims rfl) v hv
      have hsame : claims.sub = userId := hsub.resolve_left (h.kept _ hp).named
      have hfirst := h.firstPin_eq hp
      rw [hsame, hkey] at hfirst
      exact .inr hfirst.symm
  have hle : creditedSpeedBonus (attemptRow userId (toDateKey now) record (gradeDaily J questions answers)
      questions.length (claims.startedAtMs.map fun startedAtMs => max 0 (now - startedAtMs)) streakBefore) ≤
      bonusSince (firstPin s.pinned userId (toDateKey now)) now := by
    rw [hpaid]
    rcases hstart with hnone | hfirst
    · rw [hnone]
      calc dailySpeedBonus _ none = 0 := rfl
        _ ≤ bonusSince (firstPin s.pinned userId (toDateKey now)) now := by
          rcases firstPin s.pinned userId (toDateKey now) with _ | v
          · exact le_rfl
          · simp only [bonusSince]
            omega
    · rw [← hfirst]
      exact dailySpeedBonus_le _ _ _
  refine ⟨hday.symm, .inr (by rw [huser, hday]), hle, fun hnone => ?_⟩
  refine le_antisymm (hle.trans_eq (by rw [show firstPin s.pinned userId (toDateKey now) = none from hnone]; rfl)) ?_
  rw [hpaid]
  exact dailySpeedBonus_nonneg _ _

theorem submit (h : PinInv s) (J : StringOps) (sets : List DailyQuestion) (userId : String) (now : ℤ)
    (input : DailySubmitInput) (htoken : ∀ c, input.sessionToken = .claims c → c ∈ s.tokens) :
    PinInv (s.step J (.daily (.submit sets userId now input))) := by
  rcases hrow : prepareAttempt J s.daily.rows sets userId now input with e | row
  · have hsame : s.step J (.daily (.submit sets userId now input)) = s := by
      simp [DailySessions.step, DailyStore.step, hrow]
    rw [hsame]
    exact h
  · refine { h with bounded := fun sub hsub => ?_, graded := fun r hr => ?_ }
    · simp only [DailySessions.step, hrow, List.mem_append, List.mem_singleton] at hsub
      rcases hsub with hold | rfl
      · exact h.bounded sub hold
      · exact h.bounded_of_prepare htoken hrow
    · simp only [DailySessions.step, DailyStore.step, hrow, List.mem_append, List.mem_singleton] at hr ⊢
      have hold : (r ∈ s.daily.rows ∨ r ∈ s.daily.inFlight) → ∃ sub ∈ s.submitted, sub.row = r := h.graded r
      rcases hr with hr | hr | rfl
      · obtain ⟨sub, hsub, hrow⟩ := hold (.inl hr)
        exact ⟨sub, .inl hsub, hrow⟩
      · obtain ⟨sub, hsub, hrow⟩ := hold (.inr hr)
        exact ⟨sub, .inl hsub, hrow⟩
      · exact ⟨_, .inr rfl, rfl⟩

/-- a transaction stores a row that a submit asked for -/
theorem transaction (h : PinInv s) {daily : DailyStore}
    (hsub : ∀ row, row ∈ daily.rows ∨ row ∈ daily.inFlight → row ∈ s.daily.rows ∨ row ∈ s.daily.inFlight) :
    PinInv { s with daily := daily } :=
  { h with graded := fun row hrow => h.graded row (hsub row hrow) }

theorem step (J : StringOps) (s : DailySessions) (o : SessionOp) (hg : Trusted s o) (h : PinInv s) :
    PinInv (s.step J o) := by
  cases o with
  | fetch userId now dailyQuestionId =>
    cases userId with
    | none =>
      refine { h with tokens := fun c hc v hv => ?_ }
      rcases List.mem_append.1 hc with hold | hnew
      · exact h.tokens c hold v hv
      · rw [List.mem_singleton] at hnew
        subst hnew
        exact absurd hv (by simp)
    | some userId =>
      refine { h with fetches := fun f hf => ?_ }
      rcases List.mem_append.1 hf with hold | hnew
      · exact h.fetches f hold
      · rw [List.mem_singleton] at hnew
        subst hnew
        exact ⟨fun hanon => hg.1 (congrArg some hanon), hg.2⟩
  | setIfAbsent i instant reply =>
    simp only [DailySessions.step]
    rcases hi : s.fetches[i]? with _ | f
    · exact h
    · dsimp only
      split_ifs
      · exact h.setIfAbsent (h.fetches f (List.mem_of_getElem? hi)) (hg f hi).1 (hg f hi).2 reply
      · exact h
  | get i instant ok =>
    simp only [DailySessions.step]
    rcases hi : s.fetches[i]? with _ | f
    · exact h
    · dsimp only
      split_ifs
      · refine h.issue fun v hv => ?_
        obtain ⟨hread, -⟩ := Option.filter_eq_some_iff.1 hv
        exact h.mem_of_readPin (h.fetches f (List.mem_of_getElem? hi)).2 hread
      · exact h.issue (by simp)
      · exact h
  | daily o =>
    cases o with
    | submit sets userId now input => exact h.submit J sets userId now input hg
    | create i =>
      refine h.transaction fun row hrow => ?_
      simp only [DailyStore.step] at hrow
      split at hrow
      · exact hrow
      · rename_i row' hi
        split at hrow
        · rename_i rows hcreate
          simp only [createAttempt] at hcreate
          split_ifs at hcreate
          obtain rfl := Except.ok.inj hcreate
          rcases hrow with hrow | hrow
          · rcases List.mem_append.1 hrow with hold | hnew
            · exact .inl hold
            · rw [List.mem_singleton] at hnew
              exact .inr (hnew ▸ List.mem_of_getElem? hi)
          · exact .inr (List.mem_of_mem_eraseIdx hrow)
        · exact hrow.imp_right List.mem_of_mem_eraseIdx
    | fail i =>
      exact h.transaction fun row hrow => hrow.imp_right List.mem_of_mem_eraseIdx

theorem init : PinInv DailySessions.init where
  kept := fun p hp => absurd hp (by simp [DailySessions.init])
  owned := fun key e he => absurd he (by simp [DailySessions.init])
  fetches := fun f hf => absurd hf (by simp [DailySessions.init])
  tokens := fun c hc => absurd hc (by simp [DailySessions.init])
  bounded := fun sub hsub => absurd hsub (by simp [DailySessions.init])
  graded := fun row hrow => absurd hrow (by simp [DailySessions.init, DailyStore.init])

end PinInv

/-! ## Runs -/

/-- **The speed bonus cannot be farmed.** Every stored attempt was paid by the user's first pinned start of the day, or
not at all; and where one token of the user carries a start, no other token of the same questions and day scores more. -/
theorem speed_bonus_bounded (J : StringOps) (ops : List SessionOp)
    (hg : Along (DailySessions.step J) Trusted DailySessions.init ops) :
    (∀ row ∈ (run (DailySessions.step J) DailySessions.init ops).daily.rows,
      ∃ sub ∈ (run (DailySessions.step J) DailySessions.init ops).submitted, sub.row = row ∧
        Bounded (run (DailySessions.step J) DailySessions.init ops).pinned sub) ∧
    ∀ c ∈ (run (DailySessions.step J) DailySessions.init ops).tokens, c.startedAtMs ≠ none →
      ∀ c' ∈ (run (DailySessions.step J) DailySessions.init ops).tokens, c'.dateKey = c.dateKey →
        c'.dailyQuestionId = c.dailyQuestionId → ∀ rows sets now answers row',
          prepareAttempt J rows sets c.sub now ⟨.claims c', answers⟩ = .ok row' →
            ∃ row, prepareAttempt J rows sets c.sub now ⟨.claims c, answers⟩ = .ok row ∧ row'.score ≤ row.score := by
  have h := run_inv (DailySessions.step J) Trusted PinInv (PinInv.step J) DailySessions.init ops hg PinInv.init
  constructor
  · intro row hrow
    obtain ⟨sub, hsub, hsame⟩ := h.graded row (.inl hrow)
    exact ⟨sub, hsub, hsame, h.bounded sub hsub⟩
  intro c hc hpin c' hc' hday hset rows sets now answers row' hrow'
  obtain ⟨v, hv⟩ := Option.ne_none_iff_exists'.1 hpin
  obtain ⟨hkey, hsub, record, questions, streakBefore, hload, hlen, hstreak, rfl⟩ := prepareAttempt_claims.1 hrow'
  refine ⟨_, prepareAttempt_claims.2 ⟨hday ▸ hkey, .inr rfl, record, questions, streakBefore, hset ▸ hload, hlen,
    hstreak, rfl⟩, ?_⟩
  have hbonus : dailySpeedBonus ((gradeDaily J questions answers).countP AttemptAnswer.isCorrect)
      (c'.startedAtMs.map fun startedAtMs => max 0 (now - startedAtMs)) ≤
      dailySpeedBonus ((gradeDaily J questions answers).countP AttemptAnswer.isCorrect)
        (c.startedAtMs.map fun startedAtMs => max 0 (now - startedAtMs)) := by
    rcases hv' : c'.startedAtMs with _ | v'
    · exact dailySpeedBonus_nonneg _ _
    · have hp := h.tokens c hc v hv
      have hp' := h.tokens c' hc' v' hv'
      have huser : c'.sub = c.sub := hsub.resolve_left (h.kept _ hp').named
      rw [hv, show v' = v from h.start_unique hp' hp huser hday]
  have hpaid := creditedSpeedBonus_attemptRow c.sub (toDateKey now) record (gradeDaily J questions answers)
    questions.length
  have hpaid' := hpaid (c'.startedAtMs.map fun startedAtMs => max 0 (now - startedAtMs)) streakBefore
  have hpaid := hpaid (c.startedAtMs.map fun startedAtMs => max 0 (now - startedAtMs)) streakBefore
  simp only [creditedSpeedBonus, attemptRow] at hpaid hpaid' ⊢
  omega

/-- 2024-02-29, noon -/
def noon : ℤ := 1709208000000

def token (startedAtMs : Option ℤ) : DailySessionClaims := ⟨"alice", "2024-02-29", "2024-02-29", startedAtMs⟩

/-- two fetches at once, a third a minute later, and a submit with its token -/
def refetched : List SessionOp :=
  [.fetch (some "alice") noon "2024-02-29", .fetch (some "alice") (noon + 100) "2024-02-29",
    .setIfAbsent 1 1709208000200 .ok, .setIfAbsent 0 1709208000250 .ok, .get 0 1709208000300 true,
    .fetch (some "alice") (noon + 60000) "2024-02-29", .setIfAbsent 0 1709208060010 .ok, .get 0 1709208060020 true,
    .daily (.submit [leapSet "2024-02-29"] "alice" (noon + 61100) ⟨.claims (token (some (noon + 100))), [("4", 900)]⟩),
    .daily (.create 0)]

theorem speed_bonus_bounded_refetched :
    ((run (DailySessions.step StringOps.ascii) DailySessions.init refetched).daily.rows.map creditedSpeedBonus,
      (run (DailySessions.step StringOps.ascii) DailySessions.init refetched).tokens) =
        ([140], [token (some (noon + 100)), token (some (noon + 100)), token (some (noon + 100))]) ∧
    ∀ row ∈ (run (DailySessions.step StringOps.ascii) DailySessions.init refetched).daily.rows,
      ∃ sub ∈ (run (DailySessions.step StringOps.ascii) DailySessions.init refetched).submitted, sub.row = row ∧
        Bounded (run (DailySessions.step StringOps.ascii) DailySessions.init refetched).pinned sub :=
  ⟨by decide +kernel, (speed_bonus_bounded StringOps.ascii refetched (by decide +kernel)).1⟩

/-- the pin of the first fetch fails, a second fetch a minute later pins its own start -/
def outage : List SessionOp :=
  [.fetch (some "alice") noon "2024-02-29", .setIfAbsent 0 1709208000010 .failed,
    .fetch (some "alice") (noon + 60000) "2024-02-29", .setIfAbsent 0 1709208060010 .ok]

/-- the first fetch is anonymous, and no command fails -/
def anonymousFirst : List SessionOp :=
  [.fetch none noon "2024-02-29", .fetch (some "alice") (noon + 60000) "2024-02-29",
    .setIfAbsent 0 1709208060010 .ok]

/-- the score of one right answer, given a minute and a second after the first fetch -/
def scoreWith (claims : DailySessionClaims) : Option ℤ :=
  (prepareAttempt StringOps.ascii [] [leapSet "2024-02-29"] "alice" (noon + 61000)
    ⟨.claims claims, [("4", 900)]⟩).toOption.map DailyAttempt.score

/-- after a fetch that pinned no start, fetching again raises the score of the same answers at the same instant -/
theorem refetch_after_unpinned :
    (∀ ops ∈ [outage, anonymousFirst], Along (DailySessions.step StringOps.ascii) Trusted DailySessions.init ops) ∧
    (run (DailySessions.step StringOps.ascii) DailySessions.init outage).tokens =
      [token none, token (some (noon + 60000))] ∧
    (run (DailySessions.step StringOps.ascii) DailySessions.init anonymousFirst).tokens =
      [⟨"anon", "2024-02-29", "2024-02-29", none⟩, token (some (noon + 60000))] ∧
    scoreWith (token none) = some 150 ∧ scoreWith ⟨"anon", "2024-02-29", "2024-02-29", none⟩ = some 150 ∧
    scoreWith (token (some (noon + 60000))) = some 890 := by
  decide +kernel

end Arena.Api.SpeedBonus
