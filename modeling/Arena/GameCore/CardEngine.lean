/-
Card sampling (`card-engine.ts`): the milestone offer.

`sampleOffer` draws up to three cards without replacement: one float picks a tier by the 60/30/10 weights, a second one
a card of that tier. A tier with no card left is rejected and the next float is drawn, in a loop the source leaves
unbounded. `drawTier` runs that loop for one period of the generator, 2^32 draws; `drawTier_isSome` shows that it always
ends inside the period, and `sampleOffer_ok` that sampling never raises an error, so neither the model's
`rngExhausted` nor the source's "list empty after TIER pick" is ever reached.

The weights 0.6 and 0.6 + 0.3 are doubles; no multiple of 2^-32 lies between them and 3/5, 9/10.
-/
import Arena.Shared.Cards
import Arena.GameCore.Prng

namespace Arena.GameCore

open Arena.Lib Arena.Shared

/-! ## Model -/

inductive SamplingPurpose where
  | tier
  | card
deriving DecidableEq, Repr

/-- one consumed float -/
structure SamplingStep where
  float : ℚ
  purpose : SamplingPurpose
  tier : Option CardTier
  cardIndex : Option ℕ
  retry : Bool
  drawnCardId : Option CardId
deriving DecidableEq, Repr

structure SamplingResult where
  cards : List CardId
  steps : List SamplingStep
deriving DecidableEq, Repr

inductive CardEngineError where
  /-- "card-engine invariant: tier=... list empty after TIER pick" -/
  | tierListEmpty (tier : CardTier)
  /-- one whole period of the generator without a usable tier -/
  | rngExhausted
deriving DecidableEq, Repr

def selectTier (u : ℚ) : CardTier := if u < 3 / 5 then .common else if u < 9 / 10 then .rare else .epic

/-- the remaining cards of each tier -/
structure TierPools where
  common : List CardId
  rare : List CardId
  epic : List CardId
deriving DecidableEq, Repr

namespace TierPools

def get (p : TierPools) : CardTier → List CardId
  | .common => p.common
  | .rare => p.rare
  | .epic => p.epic

def set (p : TierPools) (tier : CardTier) (l : List CardId) : TierPools :=
  match tier with
  | .common => { p with common := l }
  | .rare => { p with rare := l }
  | .epic => { p with epic := l }

def total (p : TierPools) : ℕ := p.common.length + p.rare.length + p.epic.length

/-- the pool split by tier, each tier in canonical order -/
def ofPool (poolIds : List CardId) : TierPools :=
  let defs := poolIds.filterMap getCardDefinition
  let ofTier := fun tier => jsSort compareCardId ((defs.filter (fun c => c.tier = tier)).map CardDefinition.id)
  ⟨ofTier .common, ofTier .rare, ofTier .epic⟩

end TierPools

/-- draw tier floats until the tier has a card left: the tier, the steps taken, the next state -/
def drawTier (remaining : TierPools) : ℕ → UInt32 → Bool → Option (CardTier × List SamplingStep × UInt32)
  | 0, _, _ => none
  | fuel + 1, a, retry =>
    let u := unitFloat (mulberry32 a).1
    let tier := selectTier u
    if 0 < (remaining.get tier).length then
      some (tier, [⟨u, .tier, some tier, none, retry, none⟩], (mulberry32 a).2)
    else
      (drawTier remaining fuel (mulberry32 a).2 true).map fun r =>
        (r.1, ⟨u, .tier, some tier, none, true, none⟩ :: r.2.1, r.2.2)

/-- the generator's period; irreducible, so that elaboration never counts down from it -/
@[irreducible] def rngPeriod : ℕ := 4294967296

/-- up to `n` draws, each rejection loop bounded by `period` floats -/
def sampleDraws (period : ℕ) : ℕ → TierPools → UInt32 → Except CardEngineError SamplingResult
  | 0, _, _ => .ok ⟨[], []⟩
  | n + 1, remaining, a =>
    if remaining.total = 0 then .ok ⟨[], []⟩
    else
      match drawTier remaining period a false with
      | none => .error .rngExhausted
      | some (tier, tierSteps, a') =>
        let tierList := remaining.get tier
        let u2 := unitFloat (mulberry32 a').1
        let idx := (u2 * tierList.length).floor.toNat
        match tierList[idx]? with
        | none => .error (.tierListEmpty tier)
        | some drawnCardId =>
          match sampleDraws period n (remaining.set tier (tierList.eraseIdx idx)) (mulberry32 a').2 with
          | .error e => .error e
          | .ok rest =>
            .ok ⟨drawnCardId :: rest.cards,
              tierSteps ++ ⟨u2, .card, none, some idx, false, some drawnCardId⟩ :: rest.steps⟩

def sampleOfferCount : ℕ := 3

def sampleOffer (classId : ClassId) (seed : String) (customPool : Option (List CardId)) :
    Except CardEngineError SamplingResult :=
  sampleDraws rngPeriod sampleOfferCount (TierPools.ofPool (customPool.getD (getClassPool classId)))
    (deriveSubstream seed ("card|" ++ classId.text))

/-! ## The rejection loop ends -/

/-- a generator state whose output selects the tier -/
def tierState : CardTier → UInt32
  | .common => 1
  | .rare => 4097
  | .epic => 4099

theorem tierState_selects (tier : CardTier) : selectTier (unitFloat (mulberry32Out (tierState tier))) = tier := by
  cases tier <;> decide +kernel

theorem drawTier_of_hit (remaining : TierPools) (tier : CardTier) (hne : 0 < (remaining.get tier).length) :
    ∀ (n fuel : ℕ) (a : UInt32) (retry : Bool), n < fuel →
      selectTier (unitFloat (mulberry32Out (stateAfter a (n + 1)))) = tier →
      (drawTier remaining fuel a retry).isSome := by
  intro n
  induction n with
  | zero =>
    intro fuel a retry hn hit
    obtain ⟨f, rfl⟩ : ∃ f, fuel = f + 1 := ⟨fuel - 1, by omega⟩
    rw [← stateAfter_succ, stateAfter_zero] at hit
    simp [drawTier, mulberry32, hit, hne]
  | succ n ih =>
    intro fuel a retry hn hit
    obtain ⟨f, rfl⟩ : ∃ f, fuel = f + 1 := ⟨fuel - 1, by omega⟩
    rw [← stateAfter_succ] at hit
    simp only [drawTier]
    split_ifs
    · rfl
    · rw [Option.isSome_map]
      exact ih f _ true (by omega) hit

/-- **The rejection loop ends within one period** whenever some tier has a card left. -/
theorem drawTier_isSome (remaining : TierPools) {period : ℕ} (hp : rngPeriod ≤ period) (a : UInt32) (retry : Bool)
    (h : remaining.total ≠ 0) : (drawTier remaining period a retry).isSome := by
  obtain ⟨tier, ht⟩ : ∃ tier, 0 < (remaining.get tier).length := by
    by_contra hc
    simp only [not_exists, not_lt, Nat.le_zero] at hc
    exact h (by have h1 := hc .common; have h2 := hc .rare; have h3 := hc .epic
                simp only [TierPools.get] at h1 h2 h3; simp [TierPools.total, h1, h2, h3])
  obtain ⟨n, hn, hs⟩ := state_reaches a (tierState tier)
  have hlt : n < rngPeriod := by unfold rngPeriod; exact hn
  exact drawTier_of_hit remaining tier ht n period a retry (lt_of_lt_of_le hlt hp)
    (by rw [hs]; exact tierState_selects tier)

theorem drawTier_nonempty {remaining : TierPools} {tier : CardTier} {steps : List SamplingStep} {a' : UInt32} :
    ∀ {fuel : ℕ} {a : UInt32} {retry : Bool}, drawTier remaining fuel a retry = some (tier, steps, a') →
      0 < (remaining.get tier).length := by
  intro fuel
  induction fuel generalizing steps with
  | zero => intro a retry h; simp [drawTier] at h
  | succ f ih =>
    intro a retry h
    simp only [drawTier] at h
    split_ifs at h with hl
    · simp only [Option.some.injEq, Prod.mk.injEq] at h
      rw [← h.1]; exact hl
    · simp only [Option.map_eq_some_iff, Prod.mk.injEq] at h
      obtain ⟨⟨t, s, b⟩, hr, rfl, _, rfl⟩ := h
      exact ih hr

/-- a float of the generator indexes a non-empty list -/
theorem floor_index_lt (w : UInt32) {n : ℕ} (hn : 0 < n) : (unitFloat w * n).floor.toNat < n := by
  have hlt : unitFloat w * n < n := by
    have : (0 : ℚ) < n := by exact_mod_cast hn
    nlinarith [unitFloat_lt_one w]
  have h0 : 0 ≤ unitFloat w * n := mul_nonneg (unitFloat_nonneg w) (by positivity)
  have hf : (unitFloat w * n).floor < (n : ℤ) := by
    rw [Rat.floor_lt_iff]; exact_mod_cast hlt
  have hf0 : 0 ≤ (unitFloat w * n).floor := Rat.le_floor_iff.2 (by simpa using h0)
  omega

/-- **Sampling never raises an error**, for every seed and pool. -/
theorem sampleDraws_ok {period : ℕ} (hp : rngPeriod ≤ period) (n : ℕ) (remaining : TierPools) (a : UInt32) :
    ∃ r, sampleDraws period n remaining a = .ok r := by
  induction n generalizing remaining a with
  | zero => exact ⟨_, rfl⟩
  | succ n ih =>
    simp only [sampleDraws]
    split_ifs with ht
    · exact ⟨_, rfl⟩
    · obtain ⟨⟨tier, steps, a'⟩, hd⟩ := Option.isSome_iff_exists.1 (drawTier_isSome remaining hp a false ht)
      have hidx := floor_index_lt (mulberry32 a').1 (drawTier_nonempty hd)
      obtain ⟨r, hr⟩ := ih (remaining.set tier ((remaining.get tier).eraseIdx
        (unitFloat (mulberry32 a').1 * (remaining.get tier).length).floor.toNat)) (mulberry32 a').2
      simp only [hd, List.getElem?_eq_getElem hidx, hr]
      exact ⟨_, rfl⟩

theorem sampleOffer_ok (classId : ClassId) (seed : String) (customPool : Option (List CardId)) :
    ∃ r, sampleOffer classId seed customPool = .ok r := sampleDraws_ok le_rfl _ _ _

/-! ## How many cards are drawn -/

theorem TierPools.total_erase (p : TierPools) (tier : CardTier) (i : ℕ) (h : i < (p.get tier).length) :
    (p.set tier ((p.get tier).eraseIdx i)).total + 1 = p.total := by
  have hlen := List.length_eraseIdx_of_lt h
  cases tier <;> simp only [TierPools.get, TierPools.set, TierPools.total] at h hlen ⊢ <;> omega

/-- draws stop when the pool is empty, and not before -/
theorem sampleDraws_length {period : ℕ} {n : ℕ} {remaining : TierPools} {a : UInt32} {r : SamplingResult}
    (h : sampleDraws period n remaining a = .ok r) : r.cards.length = min n remaining.total := by
  induction n generalizing remaining a r with
  | zero =>
    obtain rfl := Except.ok.inj h
    simp
  | succ n ih =>
    simp only [sampleDraws] at h
    split_ifs at h with ht
    · obtain rfl := Except.ok.inj h
      simp [ht]
    · split at h
      · cases h
      · rename_i tier steps a' _
        split at h
        · cases h
        · rename_i card hcard
          split at h
          · cases h
          · rename_i rest hrest
            obtain rfl := Except.ok.inj h
            have hlt := (List.getElem?_eq_some_iff.1 hcard).1
            have htotal := TierPools.total_erase remaining tier _ hlt
            have hlen := ih hrest
            rw [List.length_cons, hlen]
            omega

theorem TierPools.total_ofPool (poolIds : List CardId) : (TierPools.ofPool poolIds).total = poolIds.length := by
  have hsort : ∀ l : List CardId, (jsSort compareCardId l).length = l.length := fun l =>
    (jsSort_perm compareCardId l).length_eq
  simp only [TierPools.total, TierPools.ofPool, hsort, List.length_map]
  induction poolIds with
  | nil => rfl
  | cons id ids ih =>
    obtain ⟨d, hd⟩ := Option.isSome_iff_exists.1 (getCardDefinition_isSome id)
    rw [List.filterMap_cons_some hd, List.length_cons, ← ih]
    cases ht : d.tier <;> simp [ht] <;> omega

/-- **An offer has three cards, or as many as the pool.** -/
theorem sampleOffer_length {classId : ClassId} {seed : String} {pool : List CardId} {r : SamplingResult}
    (h : sampleOffer classId seed (some pool) = .ok r) : r.cards.length = min 3 pool.length := by
  rw [sampleDraws_length h, Option.getD_some, TierPools.total_ofPool]
  rfl

end Arena.GameCore
