/-
Picks without replacement: the draw loops of `resolveOptionDisable`, `resolveHandDestroy` and the multi-target branch of
`expandCardTargets`, over any source of floats.

A source is a function of its own state, as the closures of `mulberry32` are; a pick multiplies the float by the number
of items left, as doubles, and takes the item at the floor. `drawLoop` is the loop of the card engine with its error
branch, `selectLoop` the one of the target expansion, which would push `undefined`.

- `drawLoop_spec`: with floats in [0, 1) the loop takes items of the supply, each place once, one float a pick;
- `picks_without_replacement`: what the three functions pick;
- `drawLoop_mulberry32`: on supplies of up to 2^21 items the loops draw what the exact products give.
-/
import Arena.Api.CardCommands
import Arena.GameCore.Sampling
import Arena.Lib.Doubles
import Arena.Lib.Unicode

namespace Arena.Api.Picks

open Arena.Lib Arena.Shared Arena.GameCore

/-! ## The loops -/

section Loops

variable {σ α : Type}

/-- "card-engine invariant: remaining[] drained mid-resolve" -/
inductive DrawError where
  | drained
deriving DecidableEq, Repr

/-- `Math.floor(rng() * n)` of the float `u` -/
def drawIndex (u : ℚ) (n : ℕ) : ℤ := ⌊roundDouble (u * n)⌋

/-- `remaining[idx]` -/
def itemAt (remaining : List α) (idx : ℤ) : Option α := if 0 ≤ idx then remaining[idx.toNat]? else none

/-- `remaining.splice(idx, 1)`; a negative start counts from the end -/
def spliceOne (remaining : List α) (idx : ℤ) : List α :=
  if 0 ≤ idx then remaining.eraseIdx idx.toNat else remaining.eraseIdx (remaining.length + idx).toNat

/-- the loop of `resolveOptionDisable` and `resolveHandDestroy` -/
def drawLoop (rng : σ → ℚ × σ) : ℕ → List α → σ → Except DrawError (List α × σ)
  | 0, _, s => .ok ([], s)
  | n + 1, remaining, s =>
    let idx := drawIndex (rng s).1 remaining.length
    match itemAt remaining idx with
    | none => .error .drained
    | some chosen =>
      (drawLoop rng n (spliceOne remaining idx) (rng s).2).map fun r => (chosen :: r.1, r.2)

/-- the loop of `expandCardTargets` -/
def selectLoop (rng : σ → ℚ × σ) : ℕ → List α → σ → List (Option α) × σ
  | 0, _, s => ([], s)
  | n + 1, remaining, s =>
    let idx := drawIndex (rng s).1 remaining.length
    let rest := selectLoop rng n (spliceOne remaining idx) (rng s).2
    (itemAt remaining idx :: rest.1, rest.2)

/-- every value of the source is a double in [0, 1) -/
def UnitSource (rng : σ → ℚ × σ) : Prop := ∀ s, IsDouble (rng s).1 ∧ 0 ≤ (rng s).1 ∧ (rng s).1 < 1

/-- the source after `n` calls -/
def afterCalls (rng : σ → ℚ × σ) (n : ℕ) (s : σ) : σ := (fun s => (rng s).2)^[n] s

/-- `picked` are as many items of the supply as were asked for or are there, each taken once -/
structure Selection (supply : List α) (count : ℕ) (picked : List α) : Prop where
  distinct : picked.Nodup
  eligible : ∀ x ∈ picked, x ∈ supply
  exact : picked.length = min count supply.length

theorem afterCalls_succ (rng : σ → ℚ × σ) (n : ℕ) (s : σ) :
    afterCalls rng (n + 1) s = afterCalls rng n (rng s).2 := rfl

/-- the index of a draw is a place of the list -/
theorem drawIndex_mem {u : ℚ} {n : ℕ} (hu : IsDouble u ∧ 0 ≤ u ∧ u < 1) (hn : 0 < n) :
    ∃ i < n, drawIndex u n = i := by
  obtain ⟨h0, hlt⟩ := product_floor hu.1 hu.2.1 hu.2.2 hn
  exact ⟨(drawIndex u n).toNat, by unfold drawIndex; omega, (Int.toNat_of_nonneg h0).symm⟩

/-- one turn of a loop that has items left -/
theorem draw_turn {rng : σ → ℚ × σ} (hrng : UnitSource rng) {remaining : List α} (hne : 0 < remaining.length) (s : σ) :
    ∃ i, ∃ hi : i < remaining.length, drawIndex (rng s).1 remaining.length = i ∧
      itemAt remaining (drawIndex (rng s).1 remaining.length) = some remaining[i] ∧
      spliceOne remaining (drawIndex (rng s).1 remaining.length) = remaining.eraseIdx i := by
  obtain ⟨i, hi, hidx⟩ := drawIndex_mem (hrng s) hne
  refine ⟨i, hi, hidx, ?_, ?_⟩
  · rw [hidx, itemAt, if_pos (Int.natCast_nonneg i), Int.toNat_natCast, List.getElem?_eq_getElem hi]
  · rw [hidx, spliceOne, if_pos (Int.natCast_nonneg i), Int.toNat_natCast]

theorem drawLoop_turn {rng : σ → ℚ × σ} {remaining rest : List α} {s : σ} {x : α}
    (hitem : itemAt remaining (drawIndex (rng s).1 remaining.length) = some x)
    (hsplice : spliceOne remaining (drawIndex (rng s).1 remaining.length) = rest) (n : ℕ) :
    drawLoop rng (n + 1) remaining s = (drawLoop rng n rest (rng s).2).map fun r => (x :: r.1, r.2) := by
  simp only [drawLoop, hitem, hsplice]

/-- **The draw loop.** It ends without its error, after one float a pick, and what it picked and what it left are the
supply. -/
theorem drawLoop_spec {rng : σ → ℚ × σ} (hrng : UnitSource rng) {n : ℕ} {remaining : List α}
    (hn : n ≤ remaining.length) (s : σ) :
    ∃ picked left, drawLoop rng n remaining s = .ok (picked, afterCalls rng n s) ∧
      selectLoop rng n remaining s = (picked.map some, afterCalls rng n s) ∧
      picked.length = n ∧ (picked ++ left).Perm remaining := by
  induction n generalizing remaining s with
  | zero => exact ⟨[], remaining, rfl, rfl, rfl, List.Perm.refl _⟩
  | succ n ih =>
    obtain ⟨i, hi, -, hitem, hsplice⟩ := draw_turn hrng (by omega : 0 < remaining.length) s
    have hlen : (remaining.eraseIdx i).length = remaining.length - 1 := List.length_eraseIdx_of_lt hi
    have hrest : n ≤ (remaining.eraseIdx i).length := by omega
    obtain ⟨picked, left, hdraw, hselect, hlength, hperm⟩ := ih hrest (rng s).2
    refine ⟨remaining[i] :: picked, left, ?_, ?_, by rw [List.length_cons, hlength], ?_⟩
    · rw [drawLoop_turn hitem hsplice, hdraw]
      rfl
    · simp only [selectLoop, hitem, hsplice, hselect]
      rfl
    · exact (hperm.cons _).trans (List.getElem_cons_eraseIdx_perm hi)

/-- a draw from a supply without repeats is a selection -/
theorem drawLoop_selection {rng : σ → ℚ × σ} (hrng : UnitSource rng) {supply : List α} (hsupply : supply.Nodup)
    (count : ℕ) (s : σ) :
    ∃ picked, drawLoop rng (min count supply.length) supply s = .ok (picked, afterCalls rng picked.length s) ∧
      selectLoop rng (min count supply.length) supply s = (picked.map some, afterCalls rng picked.length s) ∧
      Selection supply count picked := by
  obtain ⟨picked, left, hdraw, hselect, hlength, hperm⟩ := drawLoop_spec hrng (Nat.min_le_right count supply.length) s
  have hnodup : (picked ++ left).Nodup := hperm.nodup_iff.2 hsupply
  refine ⟨picked, by rw [hlength, hdraw], by rw [hlength, hselect], ⟨(List.nodup_append.1 hnodup).1, ?_, hlength⟩⟩
  intro x hx
  exact hperm.mem_iff.1 (List.mem_append_left left hx)

end Loops

/-! ## The three functions -/

section Functions

variable {σ : Type}

def resolveOptionDisable (rng : σ → ℚ × σ) (count : ℕ) (durationMs : Time) (options : List String)
    (correctAnswer : String) (s : σ) : Except DrawError (CardEffect × σ) :=
  let wrong := wrongIndexes options correctAnswer
  (drawLoop rng (min count wrong.length) wrong s).map fun r =>
    (.optionDisable r.1 count wrong.length durationMs, r.2)

def resolveHandDestroy (rng : σ → ℚ × σ) (count : ℕ) (targetHand : List CardId) (s : σ) :
    Except DrawError (CardEffect × σ) :=
  let sortedHand := jsSort compareCardId targetHand
  (drawLoop rng (min count sortedHand.length) sortedHand s).map fun r =>
    (.handDestroy count sortedHand.length r.1, r.2)

/-- the players a card of several targets may hit -/
def eligibleTargets (playedByPlayerId : String) (m : Machine) : List String :=
  m.state.players.keys.filter fun id => id ≠ playedByPlayerId && isEligible m id

/-- `expandCardTargets` for a card of several targets -/
def expandTargets (rng : σ → ℚ × σ) (count : ℕ) (playedByPlayerId : String) (m : Machine) (s : σ) :
    List (Option String) × σ :=
  let eligible := jsSort compareText (eligibleTargets playedByPlayerId m)
  selectLoop rng (min count eligible.length) eligible s

theorem wrongIndexes_nodup (options : List String) (correctAnswer : String) :
    (wrongIndexes options correctAnswer).Nodup := List.nodup_range.filter _

theorem mem_wrongIndexes {options : List String} {correctAnswer : String} {i : ℕ} :
    i ∈ wrongIndexes options correctAnswer ↔ ∃ o, options[i]? = some o ∧ o ≠ correctAnswer := by
  simp only [wrongIndexes, List.mem_filter, List.mem_range, decide_eq_true_eq]
  constructor
  · rintro ⟨hi, hne⟩
    refine ⟨options[i], List.getElem?_eq_getElem hi, fun heq => hne ?_⟩
    rw [List.getElem?_eq_getElem hi, heq]
  · rintro ⟨o, ho, hne⟩
    refine ⟨(List.getElem?_eq_some_iff.1 ho).1, fun heq => hne ?_⟩
    exact Option.some.inj (ho.symm.trans heq)

/-! ## Order of the supply -/

/-- a selection from a list sorted first is one from the list -/
theorem Selection.of_perm {α : Type} {supply supply' picked : List α} {count : ℕ} (h : Selection supply count picked)
    (hperm : supply.Perm supply') : Selection supply' count picked :=
  ⟨h.distinct, fun x hx => hperm.mem_iff.1 (h.eligible x hx), by rw [h.exact, hperm.length_eq]⟩

theorem sortedHand_perm {hand hand' : List CardId} (h : hand.Perm hand') :
    jsSort compareCardId hand = jsSort compareCardId hand' :=
  jsSort_eq_of_perm TierPools.rank TierPools.rank_injective compareCardId TierPools.compareCardId_rank h

theorem sortedIds_perm {ids ids' : List String} (h : ids.Perm ids') : jsSort compareText ids = jsSort compareText ids' :=
  jsSort_eq_of_perm unitKey unitKey_injective compareText compareText_le h

/-- a map read by key does not show the order of its entries -/
theorem get_eq_of_entries_perm {K V : Type} [DecidableEq K] {m m' : JsMap K V} (h : m.entries.Perm m'.entries) (k : K) :
    m.get k = m'.get k := by
  apply Option.ext
  intro v
  constructor
  · intro hv
    exact JsMap.get_of_mem (h.mem_iff.1 (JsMap.mem_of_get hv))
  · intro hv
    exact JsMap.get_of_mem (h.mem_iff.2 (JsMap.mem_of_get hv))

theorem eligibleTargets_perm {m m' : Machine} (h : m.state.players.entries.Perm m'.state.players.entries)
    (playedBy : String) : (eligibleTargets playedBy m).Perm (eligibleTargets playedBy m') := by
  have helig : ∀ id, isEligible m id = isEligible m' id := by
    intro id
    unfold isEligible
    rw [get_eq_of_entries_perm h]
  unfold eligibleTargets
  simp only [helig]
  exact (h.map Prod.fst).filter _

theorem mem_eligibleTargets {playedBy id : String} {m : Machine} (h : id ∈ eligibleTargets playedBy m) :
    id ≠ playedBy ∧ ∃ p, m.state.players.get id = some p ∧ p.status ≠ .eliminated ∧ p.status ≠ .disconnected := by
  obtain ⟨-, hkeep⟩ := List.mem_filter.1 h
  rw [Bool.and_eq_true, decide_eq_true_eq] at hkeep
  obtain ⟨hne, helig⟩ := hkeep
  unfold isEligible at helig
  cases hp : m.state.players.get id with
  | none =>
    rw [hp] at helig
    cases helig
  | some p =>
    rw [hp, Option.any_some, decide_eq_true_eq] at helig
    exact ⟨hne, p, rfl, helig.1, helig.2.2⟩

/-! ## What is picked -/

theorem resolveOptionDisable_selection {rng : σ → ℚ × σ} (hrng : UnitSource rng) (count : ℕ) (durationMs : Time)
    (options : List String) (correctAnswer : String) (s : σ) :
    ∃ picked, resolveOptionDisable rng count durationMs options correctAnswer s =
        .ok (.optionDisable picked count (wrongIndexes options correctAnswer).length durationMs,
          afterCalls rng picked.length s) ∧
      Selection (wrongIndexes options correctAnswer) count picked := by
  obtain ⟨picked, hdraw, -, hsel⟩ := drawLoop_selection hrng (wrongIndexes_nodup options correctAnswer) count s
  refine ⟨picked, ?_, hsel⟩
  simp only [resolveOptionDisable, hdraw]
  rfl

theorem resolveHandDestroy_selection {rng : σ → ℚ × σ} (hrng : UnitSource rng) (count : ℕ) {hand : List CardId}
    (hhand : hand.Nodup) (s : σ) :
    ∃ destroyed, resolveHandDestroy rng count hand s =
        .ok (.handDestroy count hand.length destroyed, afterCalls rng destroyed.length s) ∧
      Selection hand count destroyed := by
  have hperm := jsSort_perm compareCardId hand
  obtain ⟨destroyed, hdraw, -, hsel⟩ := drawLoop_selection hrng (hperm.nodup_iff.2 hhand) count s
  refine ⟨destroyed, ?_, hsel.of_perm hperm⟩
  simp only [resolveHandDestroy, hdraw]
  rw [hperm.length_eq]
  rfl

theorem expandTargets_selection {rng : σ → ℚ × σ} (hrng : UnitSource rng) (count : ℕ) (playedBy : String) (m : Machine)
    (s : σ) :
    ∃ targets, expandTargets rng count playedBy m s =
        (targets.map some, afterCalls rng targets.length s) ∧
      Selection (eligibleTargets playedBy m) count targets := by
  have hperm := jsSort_perm compareText (eligibleTargets playedBy m)
  have hnodup : (eligibleTargets playedBy m).Nodup := (JsMap.keys_nodup _).filter _
  obtain ⟨targets, -, hselect, hsel⟩ := drawLoop_selection hrng (hperm.nodup_iff.2 hnodup) count s
  exact ⟨targets, hselect, hsel.of_perm hperm⟩

/-- **Picks are without replacement.** From any source of floats in [0, 1) each of the three functions picks distinct
eligible items, as many as it was asked for or as there are, at one float a pick. No wrong option is the answer, no
target is the caster, eliminated or disconnected; neither the order of the hand nor that of the player map matters, and
no error or `undefined` comes of it. -/
theorem picks_without_replacement (rng : σ → ℚ × σ) (hrng : UnitSource rng) (count : ℕ) (s : σ) :
    (∀ (durationMs : Time) (options : List String) (correctAnswer : String), ∃ picked,
      resolveOptionDisable rng count durationMs options correctAnswer s =
          .ok (.optionDisable picked count (wrongIndexes options correctAnswer).length durationMs,
            afterCalls rng picked.length s) ∧
        Selection (wrongIndexes options correctAnswer) count picked ∧
        ∀ i ∈ picked, ∃ o, options[i]? = some o ∧ o ≠ correctAnswer) ∧
    (∀ hand : List CardId, hand.Nodup →
      (∃ destroyed, resolveHandDestroy rng count hand s =
          .ok (.handDestroy count hand.length destroyed, afterCalls rng destroyed.length s) ∧
        Selection hand count destroyed) ∧
      ∀ hand', hand.Perm hand' → resolveHandDestroy rng count hand' s = resolveHandDestroy rng count hand s) ∧
    ∀ (playedBy : String) (m : Machine),
      (∃ targets, expandTargets rng count playedBy m s = (targets.map some, afterCalls rng targets.length s) ∧
        Selection (eligibleTargets playedBy m) count targets ∧
        ∀ t ∈ targets, t ≠ playedBy ∧
          ∃ p, m.state.players.get t = some p ∧ p.status ≠ .eliminated ∧ p.status ≠ .disconnected) ∧
      ∀ m' : Machine, m.state.players.entries.Perm m'.state.players.entries →
        expandTargets rng count playedBy m' s = expandTargets rng count playedBy m s := by
  refine ⟨fun durationMs options correctAnswer => ?_, fun hand hhand => ⟨?_, fun hand' hperm => ?_⟩,
    fun playedBy m => ⟨?_, fun m' hperm => ?_⟩⟩
  · obtain ⟨picked, hrun, hsel⟩ := resolveOptionDisable_selection hrng count durationMs options correctAnswer s
    exact ⟨picked, hrun, hsel, fun i hi => mem_wrongIndexes.1 (hsel.eligible i hi)⟩
  · exact resolveHandDestroy_selection hrng count hhand s
  · unfold resolveHandDestroy
    rw [sortedHand_perm hperm]
  · obtain ⟨targets, hrun, hsel⟩ := expandTargets_selection hrng count playedBy m s
    exact ⟨targets, hrun, hsel, fun t ht => mem_eligibleTargets (hsel.eligible t ht)⟩
  · unfold expandTargets
    rw [sortedIds_perm (eligibleTargets_perm hperm playedBy)]

/-! ## The generator of the application -/

/-- the closure of `mulberry32` -/
def mulberry32Source (a : UInt32) : ℚ × UInt32 := (unitFloat (mulberry32 a).1, (mulberry32 a).2)

theorem mulberry32Source_unit : UnitSource mulberry32Source := by
  intro a
  refine ⟨?_, unitFloat_nonneg _, unitFloat_lt_one _⟩
  have hlt := (mulberry32 a).1.toNat_lt
  have hratio := isDouble_ratio (a := (mulberry32 a).1.toNat) (k := 32) (by omega) (by norm_num)
  norm_num at hratio
  exact hratio

/-- **The generator satisfies the assumption.** -/
theorem picks_of_mulberry32 : ∃ picked, resolveOptionDisable mulberry32Source 2 20000 ["a", "b", "c"] "b" 7 =
      .ok (.optionDisable picked 2 2 20000, afterCalls mulberry32Source picked.length 7) ∧
    Selection [0, 2] 2 picked := by
  have hwrong : wrongIndexes ["a", "b", "c"] "b" = [0, 2] := by decide
  obtain ⟨picked, hrun, hsel, -⟩ :=
    (picks_without_replacement mulberry32Source mulberry32Source_unit 2 7).1 20000 ["a", "b", "c"] "b"
  rw [hwrong] at hrun hsel
  exact ⟨picked, hrun, hsel⟩

/-- on short lists the product of a float of the generator is exact -/
theorem drawIndex_unitFloat (w : UInt32) {n : ℕ} (hn : n ≤ 2 ^ 21) :
    drawIndex (unitFloat w) n = (unitFloat w * n).floor := by
  have hlt := w.toNat_lt
  have hproduct : unitFloat w * n = (w.toNat * n : ℕ) / 2 ^ 32 := by
    unfold unitFloat
    push_cast
    norm_num
    ring
  have hdouble : IsDouble (unitFloat w * n) := by
    rw [hproduct]
    refine isDouble_ratio ?_ (by norm_num)
    calc w.toNat * n ≤ w.toNat * 2 ^ 21 := Nat.mul_le_mul_left _ hn
      _ < 2 ^ 53 := by omega
  have hnonneg : 0 ≤ unitFloat w * n := mul_nonneg (unitFloat_nonneg w) (by positivity)
  rw [drawIndex, roundDouble_exact hnonneg hdouble]
  rfl

theorem drawRandom_turn {α : Type} {remaining : List α} {a : UInt32} {i : ℕ} {x : α}
    (hi : (unitFloat (mulberry32 a).1 * remaining.length).floor.toNat = i) (hx : remaining[i]? = some x) (n : ℕ) :
    drawRandom (n + 1) remaining a = x :: drawRandom n (remaining.eraseIdx i) (mulberry32 a).2 := by
  simp only [drawRandom, hi, hx]

/-- **The loops run as the exact products say** on supplies of up to 2^21 items. -/
theorem drawLoop_mulberry32 {α : Type} {n : ℕ} {remaining : List α} (hn : n ≤ remaining.length)
    (hlen : remaining.length ≤ 2 ^ 21) (a : UInt32) :
    drawLoop mulberry32Source n remaining a = .ok (drawRandom n remaining a, afterCalls mulberry32Source n a) := by
  induction n generalizing remaining a with
  | zero => rfl
  | succ n ih =>
    obtain ⟨i, hi, hidx, hitem, hsplice⟩ := draw_turn mulberry32Source_unit (by omega : 0 < remaining.length) a
    have hfloor : (unitFloat (mulberry32 a).1 * remaining.length).floor.toNat = i := by
      have hdraw : drawIndex (mulberry32Source a).1 remaining.length =
          (unitFloat (mulberry32 a).1 * remaining.length).floor := drawIndex_unitFloat _ hlen
      rw [← hdraw, hidx, Int.toNat_natCast]
    have herase := List.length_eraseIdx_of_lt hi
    have hnext : (mulberry32Source a).2 = (mulberry32 a).2 := rfl
    rw [drawLoop_turn hitem hsplice, hnext, ih (by omega) (by omega),
      drawRandom_turn hfloor (List.getElem?_eq_getElem hi), afterCalls_succ, hnext]
    rfl

theorem resolveOptionDisable_mulberry32 (count : ℕ) (durationMs : Time) {options : List String} (correctAnswer : String)
    (a : UInt32) (h : options.length ≤ 2 ^ 21) :
    (resolveOptionDisable mulberry32Source count durationMs options correctAnswer a).map Prod.fst =
      .ok (GameCore.resolveOptionDisable count durationMs options correctAnswer a) := by
  have hlen : (wrongIndexes options correctAnswer).length ≤ 2 ^ 21 :=
    (List.length_filter_le _ _).trans (by rwa [List.length_range])
  simp only [resolveOptionDisable, drawLoop_mulberry32 (Nat.min_le_right _ _) hlen]
  rfl

theorem resolveHandDestroy_mulberry32 (count : ℕ) {hand : List CardId} (a : UInt32) (h : hand.length ≤ 2 ^ 21) :
    (resolveHandDestroy mulberry32Source count hand a).map Prod.fst =
      .ok (GameCore.resolveHandDestroy count hand a) := by
  have hlen : (jsSort compareCardId hand).length ≤ 2 ^ 21 := by rwa [(jsSort_perm _ _).length_eq]
  simp only [resolveHandDestroy, drawLoop_mulberry32 (Nat.min_le_right _ _) hlen]
  rfl

/-- the multi-target branch, in a match of up to 2^21 players -/
theorem expandCardTargets_expand (matchId : String) (cardId : CardId) (playedBy : String) (target : Option String)
    (roundNo offerSeqNo : ℕ) (m : Machine) (hmany : 1 < (effectTemplate cardId).targetCount.getD 1)
    (hsize : m.state.players.size ≤ 2 ^ 21) :
    (expandCardTargets matchId cardId playedBy target roundNo offerSeqNo m).map some =
      (expandTargets mulberry32Source ((effectTemplate cardId).targetCount.getD 1) playedBy m
        (deriveSubstream (cardSeed matchId playedBy roundNo offerSeqNo cardId) ("targets|" ++ cardText cardId))).1 := by
  have hlen : (jsSort compareText (eligibleTargets playedBy m)).length ≤ 2 ^ 21 := by
    rw [(jsSort_perm _ _).length_eq]
    exact (List.length_filter_le _ _).trans (by simpa [JsMap.keys, JsMap.size] using hsize)
  have hle := Nat.min_le_right ((effectTemplate cardId).targetCount.getD 1)
    (jsSort compareText (eligibleTargets playedBy m)).length
  obtain ⟨picked, left, hdraw, hselect, -, -⟩ := drawLoop_spec mulberry32Source_unit hle
    (deriveSubstream (cardSeed matchId playedBy roundNo offerSeqNo cardId) ("targets|" ++ cardText cardId))
  rw [drawLoop_mulberry32 hle hlen] at hdraw
  obtain ⟨rfl, -⟩ := Prod.mk.inj (Except.ok.inj hdraw)
  simp only [expandTargets, hselect]
  rw [expandCardTargets, if_neg (Nat.not_le.2 hmany)]
  rfl

end Functions

end Arena.Api.Picks
