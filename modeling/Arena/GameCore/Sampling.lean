/-
The sampling loops of `sampleOffer` without a bound, and what an offer is.

`TierLoop` and `SampleLoop` are the two loops of the source as they stand, a `while (true)` of tier floats inside a loop
over the draws: a derivation is a run that ends. The bounded functions of the card engine compute such a run
(`sampleDraws_loop`), so the bound they carry is never felt.

- `sample_offer_ends`: the generator meets every state, every stock of cards accepts one of them, and sampling ends;
- `offer_correct`: an offer is `min 3 n` distinct cards of the pool, its steps are the consumed floats in order and
  replay to the same cards, and the order of the pool does not matter.
-/
import Arena.GameCore.CardEngine

namespace Arena.GameCore

open Arena.Lib Arena.Shared

/-! ## The loops of the source -/

/-- the float drawn in generator state `a` -/
def floatAt (a : UInt32) : ℚ := unitFloat (mulberry32 a).1

/-- the tier loop from state `a`: the tier it leaves with, the steps it records, the state after it -/
inductive TierLoop (remaining : TierPools) : UInt32 → Bool → CardTier → List SamplingStep → UInt32 → Prop
  | hit (a : UInt32) (retry : Bool) (h : 0 < (remaining.get (selectTier (floatAt a))).length) :
      TierLoop remaining a retry (selectTier (floatAt a))
        [⟨floatAt a, .tier, some (selectTier (floatAt a)), none, retry, none⟩] (mulberry32 a).2
  | reject (a : UInt32) (retry : Bool) (h : (remaining.get (selectTier (floatAt a))).length = 0) {tier : CardTier}
      {steps : List SamplingStep} {a' : UInt32} (hrest : TierLoop remaining (mulberry32 a).2 true tier steps a') :
      TierLoop remaining a retry tier
        (⟨floatAt a, .tier, some (selectTier (floatAt a)), none, true, none⟩ :: steps) a'

/-- `Math.floor(u2 * tierList.length)` -/
def cardIndexAt (a : UInt32) (tierList : List CardId) : ℕ := (floatAt a * tierList.length).floor.toNat

/-- `n` iterations of the draw loop -/
inductive SampleLoop : ℕ → TierPools → UInt32 → SamplingResult → Prop
  | done (remaining : TierPools) (a : UInt32) : SampleLoop 0 remaining a ⟨[], []⟩
  | exhausted (n : ℕ) (remaining : TierPools) (a : UInt32) (h : remaining.total = 0) :
      SampleLoop (n + 1) remaining a ⟨[], []⟩
  | draw {n : ℕ} {remaining : TierPools} {a a' : UInt32} {tier : CardTier} {tierSteps : List SamplingStep}
      {card : CardId} {rest : SamplingResult} (h : remaining.total ≠ 0)
      (ht : TierLoop remaining a false tier tierSteps a')
      (hc : (remaining.get tier)[cardIndexAt a' (remaining.get tier)]? = some card)
      (hr : SampleLoop n (remaining.set tier ((remaining.get tier).eraseIdx (cardIndexAt a' (remaining.get tier))))
        (mulberry32 a').2 rest) :
      SampleLoop (n + 1) remaining a ⟨card :: rest.cards,
        tierSteps ++ ⟨floatAt a', .card, none, some (cardIndexAt a' (remaining.get tier)), false, some card⟩ ::
          rest.steps⟩

/-- one turn of the tier loop that does not leave it -/
def Rejects (remaining : TierPools) (a a' : UInt32) : Prop :=
  (remaining.get (selectTier (floatAt a))).length = 0 ∧ a' = (mulberry32 a).2

/-! ## The bounded functions run the loops -/

theorem drawTier_loop {remaining : TierPools} {fuel : ℕ} {a : UInt32} {retry : Bool} {tier : CardTier}
    {steps : List SamplingStep} {a' : UInt32} (h : drawTier remaining fuel a retry = some (tier, steps, a')) :
    TierLoop remaining a retry tier steps a' := by
  induction fuel generalizing a retry steps with
  | zero => simp [drawTier] at h
  | succ fuel ih =>
    simp only [drawTier] at h
    split_ifs at h with hl
    · simp only [Option.some.injEq, Prod.mk.injEq] at h
      obtain ⟨rfl, rfl, rfl⟩ := h
      exact .hit a retry hl
    · simp only [Option.map_eq_some_iff, Prod.mk.injEq] at h
      obtain ⟨⟨t, s, b⟩, hr, rfl, rfl, rfl⟩ := h
      exact .reject a retry (Nat.eq_zero_of_not_pos hl) (ih hr)

/-- what a successful draw is made of -/
theorem sampleDraws_succ {period n : ℕ} {remaining : TierPools} {a : UInt32} {r : SamplingResult}
    (h : sampleDraws period (n + 1) remaining a = .ok r) (hne : remaining.total ≠ 0) :
    ∃ tier tierSteps a' card rest, drawTier remaining period a false = some (tier, tierSteps, a') ∧
      (remaining.get tier)[cardIndexAt a' (remaining.get tier)]? = some card ∧
      sampleDraws period n (remaining.set tier ((remaining.get tier).eraseIdx (cardIndexAt a' (remaining.get tier))))
        (mulberry32 a').2 = .ok rest ∧
      r = ⟨card :: rest.cards, tierSteps ++
        ⟨floatAt a', .card, none, some (cardIndexAt a' (remaining.get tier)), false, some card⟩ :: rest.steps⟩ := by
  rw [sampleDraws, if_neg hne] at h
  split at h
  · cases h
  · rename_i tier tierSteps a' hd
    dsimp only at h
    split at h
    · cases h
    · rename_i card hcard
      split at h
      · cases h
      · rename_i rest hrest
        exact ⟨tier, tierSteps, a', card, rest, hd, hcard, hrest, (Except.ok.inj h).symm⟩

theorem sampleDraws_loop {period n : ℕ} {remaining : TierPools} {a : UInt32} {r : SamplingResult}
    (h : sampleDraws period n remaining a = .ok r) : SampleLoop n remaining a r := by
  induction n generalizing remaining a r with
  | zero =>
    obtain rfl := Except.ok.inj h
    exact .done remaining a
  | succ n ih =>
    by_cases ht : remaining.total = 0
    · rw [sampleDraws, if_pos ht] at h
      obtain rfl := Except.ok.inj h
      exact .exhausted n remaining a ht
    · obtain ⟨tier, tierSteps, a', card, rest, hd, hcard, hrest, rfl⟩ := sampleDraws_succ h ht
      exact .draw ht (drawTier_loop hd) hcard (ih hrest)

/-! ## The loops end -/

theorem stateAfter_step (a : UInt32) (n : ℕ) : stateAfter a n + mulberry32Step = stateAfter a (n + 1) := by
  rw [← stateAfter_succ]
  simp only [stateAfter, UInt32.add_assoc, UInt32.add_comm mulberry32Step]

/-- no turn of the tier loop is left for good: from any state some later state is accepted -/
theorem some_state_accepted (remaining : TierPools) (h : remaining.total ≠ 0) (a : UInt32) :
    ∃ n, n < 4294967296 ∧ 0 < (remaining.get (selectTier (floatAt (stateAfter a n)))).length := by
  obtain ⟨tier, ht⟩ : ∃ tier, 0 < (remaining.get tier).length := by
    by_contra hc
    simp only [not_exists, not_lt, Nat.le_zero] at hc
    have h1 := hc .common
    have h2 := hc .rare
    have h3 := hc .epic
    simp only [TierPools.get] at h1 h2 h3
    exact h (by simp [TierPools.total, h1, h2, h3])
  obtain ⟨n, hn, hs⟩ := state_reaches a (tierState tier)
  refine ⟨n, hn, ?_⟩
  have hout : (mulberry32 (stateAfter a n)).1 = mulberry32Out (tierState tier) := by
    rw [mulberry32, stateAfter_step, hs]
  rw [floatAt, hout, tierState_selects]
  exact ht

/-- a run of rejections passes through the generator's states in order -/
theorem rejects_stateAfter {remaining : TierPools} {f : ℕ → UInt32} (hf : ∀ n, Rejects remaining (f n) (f (n + 1)))
    (n : ℕ) : f n = stateAfter (f 0) n := by
  induction n with
  | zero => rw [stateAfter_zero]
  | succ n ih =>
    rw [(hf n).2, ih]
    exact stateAfter_step (f 0) n

theorem no_endless_rejection (remaining : TierPools) (h : remaining.total ≠ 0) (a : UInt32) :
    ¬∃ f : ℕ → UInt32, f 0 = a ∧ ∀ n, Rejects remaining (f n) (f (n + 1)) := by
  rintro ⟨f, h0, hf⟩
  obtain ⟨n, -, hn⟩ := some_state_accepted remaining h a
  have hzero := (hf n).1
  rw [rejects_stateAfter hf n, h0] at hzero
  omega

/-- **Sampling ends.** The generator runs through all its states, any stock of cards accepts one of them within a
period, so no run of rejections goes on forever, and the loops of an offer come to their end. -/
theorem sample_offer_ends :
    (∀ a g : UInt32, ∃ n, n < 4294967296 ∧ stateAfter a (n + 1) = g) ∧
    (∀ remaining : TierPools, remaining.total ≠ 0 → ∀ a : UInt32,
      (∃ n, n < 4294967296 ∧ 0 < (remaining.get (selectTier (floatAt (stateAfter a n)))).length) ∧
        ¬∃ f : ℕ → UInt32, f 0 = a ∧ ∀ n, Rejects remaining (f n) (f (n + 1))) ∧
    ∀ (classId : ClassId) (seed : String) (customPool : Option (List CardId)), ∃ r,
      SampleLoop sampleOfferCount (TierPools.ofPool (customPool.getD (getClassPool classId)))
        (deriveSubstream seed ("card|" ++ classId.text)) r ∧ sampleOffer classId seed customPool = .ok r := by
  refine ⟨state_reaches, fun remaining h a => ⟨some_state_accepted remaining h a, no_endless_rejection remaining h a⟩,
    fun classId seed customPool => ?_⟩
  obtain ⟨r, hr⟩ := sampleOffer_ok classId seed customPool
  exact ⟨r, sampleDraws_loop hr, hr⟩

/-! ## What an offer is -/

/-- the first `n` floats of the stream from state `a` -/
def floatStream (a : UInt32) (n : ℕ) : List ℚ := (List.range n).map fun k => floatAt (stateAfter a k)

/-- the recorded steps run again on a pool: `pending` is a picked tier that has yet to give a card. A step that says
something else than its float means is refused. -/
def replaySteps : TierPools → Option CardTier → Bool → List SamplingStep → Option (List CardId)
  | _, none, false, [] => some []
  | _, _, _, [] => none
  | remaining, none, retry, step :: rest =>
    let tier := selectTier step.float
    if 0 < (remaining.get tier).length then
      if step = ⟨step.float, .tier, some tier, none, retry, none⟩ then replaySteps remaining (some tier) false rest
      else none
    else if step = ⟨step.float, .tier, some tier, none, true, none⟩ then replaySteps remaining none true rest
    else none
  | remaining, some tier, _, step :: rest =>
    let idx := (step.float * (remaining.get tier).length).floor.toNat
    match (remaining.get tier)[idx]? with
    | none => none
    | some card =>
      if step = ⟨step.float, .card, none, some idx, false, some card⟩ then
        (replaySteps (remaining.set tier ((remaining.get tier).eraseIdx idx)) none false rest).map (card :: ·)
      else none

theorem floatStream_succ (a : UInt32) (n : ℕ) :
    floatStream a (n + 1) = floatAt a :: floatStream (mulberry32 a).2 n := by
  simp only [floatStream, List.range_succ_eq_map, List.map_cons, List.map_map, stateAfter_zero, List.cons.injEq,
    true_and]
  exact List.map_congr_left fun k _ => congrArg floatAt (stateAfter_succ a k).symm

theorem floatStream_add (a : UInt32) (m n : ℕ) :
    floatStream a (m + n) = floatStream a m ++ floatStream (stateAfter a m) n := by
  induction m generalizing a with
  | zero => simp [floatStream, stateAfter_zero]
  | succ m ih =>
    rw [Nat.succ_add, floatStream_succ, ih, floatStream_succ, ← stateAfter_succ]
    rfl

/-- a tier loop records the floats it consumes, and replays to the tier it leaves with -/
theorem TierLoop.trace {remaining : TierPools} {a : UInt32} {retry : Bool} {tier : CardTier}
    {steps : List SamplingStep} {a' : UInt32} (h : TierLoop remaining a retry tier steps a') :
    steps.map SamplingStep.float = floatStream a steps.length ∧ stateAfter a steps.length = a' ∧
      ∀ rest, replaySteps remaining none retry (steps ++ rest) = replaySteps remaining (some tier) false rest := by
  induction h with
  | hit a retry hl =>
    refine ⟨?_, ?_, fun rest => by simp [replaySteps, hl]⟩
    · rw [List.length_singleton, floatStream_succ]
      simp [floatStream]
    · rw [List.length_singleton, ← stateAfter_succ, stateAfter_zero]
      rfl
  | reject a retry hl hrest ih =>
    obtain ⟨hfloat, hstate, hreplay⟩ := ih
    refine ⟨?_, ?_, fun rest => ?_⟩
    · rw [List.map_cons, hfloat, List.length_cons, floatStream_succ]
    · rw [List.length_cons, ← stateAfter_succ]
      exact hstate
    · simp [replaySteps, hl, hreplay]

/-- **The steps of a run are the floats it consumed, in order, and replay to its cards.** -/
theorem SampleLoop.trace {n : ℕ} {remaining : TierPools} {a : UInt32} {r : SamplingResult}
    (h : SampleLoop n remaining a r) :
    r.steps.map SamplingStep.float = floatStream a r.steps.length ∧
      replaySteps remaining none false r.steps = some r.cards := by
  induction h with
  | done => exact ⟨rfl, by simp [replaySteps]⟩
  | exhausted => exact ⟨rfl, by simp [replaySteps]⟩
  | @draw n remaining a a' tier tierSteps card rest hne ht hc hr ih =>
    obtain ⟨hfloat, hreplay⟩ := ih
    obtain ⟨htier, hstate, htierReplay⟩ := ht.trace
    constructor
    · rw [List.map_append, List.map_cons, htier, hfloat, List.length_append, List.length_cons, floatStream_add, hstate,
        floatStream_succ]
    · rw [htierReplay]
      simp only [cardIndexAt] at hc hreplay ⊢
      simp [replaySteps, hc, hreplay]

/-! ## The cards of an offer -/

namespace TierPools

/-- the cards left, tier by tier -/
def all (p : TierPools) : List CardId := p.common ++ p.rare ++ p.epic

theorem all_erase {p : TierPools} {tier : CardTier} {i : ℕ} {card : CardId} (h : (p.get tier)[i]? = some card) :
    (card :: (p.set tier ((p.get tier).eraseIdx i)).all).Perm p.all := by
  have hperm : (card :: (p.get tier).eraseIdx i).Perm (p.get tier) := by
    obtain ⟨hlt, hget⟩ := List.getElem?_eq_some_iff.1 h
    rw [← hget]
    exact List.getElem_cons_eraseIdx_perm hlt
  cases tier with
  | common => exact (hperm.append_right p.rare).append_right p.epic
  | rare => exact (List.perm_middle.symm.trans (hperm.append_left p.common)).append_right p.epic
  | epic => exact List.perm_middle.symm.trans (hperm.append_left (p.common ++ p.rare))

/-- the definitions of one tier, as ids -/
def ofTier (tier : CardTier) (poolIds : List CardId) : List CardId :=
  ((poolIds.filterMap getCardDefinition).filter fun c => c.tier = tier).map CardDefinition.id

theorem ofPool_eq (poolIds : List CardId) : TierPools.ofPool poolIds =
    ⟨jsSort compareCardId (ofTier .common poolIds), jsSort compareCardId (ofTier .rare poolIds),
      jsSort compareCardId (ofTier .epic poolIds)⟩ := rfl

theorem ofTier_perm (poolIds : List CardId) :
    (ofTier .common poolIds ++ ofTier .rare poolIds ++ ofTier .epic poolIds).Perm poolIds := by
  induction poolIds with
  | nil => exact List.Perm.refl _
  | cons id ids ih =>
    obtain ⟨d, hd⟩ := Option.isSome_iff_exists.1 (getCardDefinition_isSome id)
    obtain rfl : d.id = id := by simpa using List.find?_some hd
    have hsplit : ∀ tier, ofTier tier (d.id :: ids) =
        if d.tier = tier then d.id :: ofTier tier ids else ofTier tier ids := by
      intro tier
      simp only [ofTier, List.filterMap_cons_some hd, List.filter_cons, decide_eq_true_eq]
      split_ifs <;> rfl
    simp only [hsplit]
    cases ht : d.tier with
    | common => simpa using ih
    | rare =>
      simp only [reduceCtorEq, if_false, if_true, List.append_assoc, List.cons_append] at ih ⊢
      exact List.perm_middle.trans (ih.cons _)
    | epic =>
      simp only [reduceCtorEq, if_false, if_true] at ih ⊢
      exact List.perm_middle.trans (ih.cons _)

theorem all_ofPool (poolIds : List CardId) : (TierPools.ofPool poolIds).all.Perm poolIds := by
  rw [ofPool_eq]
  exact (((jsSort_perm _ _).append (jsSort_perm _ _)).append (jsSort_perm _ _)).trans (ofTier_perm poolIds)

/-- the place of an id in the catalog -/
def rank (id : CardId) : ℕ := (cardCatalog.map CardDefinition.id).idxOf id

theorem mem_catalog (id : CardId) : id ∈ cardCatalog.map CardDefinition.id := by
  cases id <;> decide

theorem rank_injective : Function.Injective rank := fun a _ h => (List.idxOf_inj (mem_catalog a)).1 h

/-- `compareCardId` orders the ids as the catalog does -/
theorem compareCardId_rank (a b : CardId) : compareCardId a b ≤ 0 ↔ rank a ≤ rank b := by
  have hall : ∀ x ∈ cardCatalog.map CardDefinition.id, ∀ y ∈ cardCatalog.map CardDefinition.id,
      compareCardId x y ≤ 0 ↔ rank x ≤ rank y := by decide +kernel
  exact hall a (mem_catalog a) b (mem_catalog b)

theorem ofPool_perm {poolIds poolIds' : List CardId} (h : poolIds.Perm poolIds') :
    TierPools.ofPool poolIds = TierPools.ofPool poolIds' := by
  have htier : ∀ tier, jsSort compareCardId (ofTier tier poolIds) = jsSort compareCardId (ofTier tier poolIds') :=
    fun tier => jsSort_eq_of_perm rank rank_injective compareCardId compareCardId_rank
      (((h.filterMap getCardDefinition).filter _).map _)
  rw [ofPool_eq, ofPool_eq, htier, htier, htier]

end TierPools

/-- the cards of a run are taken out of the pool -/
theorem SampleLoop.cards_perm {n : ℕ} {remaining : TierPools} {a : UInt32} {r : SamplingResult}
    (h : SampleLoop n remaining a r) : ∃ left, (r.cards ++ left).Perm remaining.all := by
  induction h with
  | done remaining a => exact ⟨remaining.all, List.Perm.refl _⟩
  | exhausted n remaining a => exact ⟨remaining.all, List.Perm.refl _⟩
  | draw hne ht hc hr ih =>
    obtain ⟨left, hleft⟩ := ih
    exact ⟨left, (hleft.cons _).trans (TierPools.all_erase hc)⟩

/-- **What an offer is.** Sampling a pool without duplicates gives `min 3 n` distinct cards of it. The steps are the
first floats of the seed's stream, each used as its step says, so that they replay to the same cards; and any other
order of the pool gives the same offer. -/
theorem offer_correct (classId : ClassId) (seed : String) (pool : List CardId) (hn : pool.Nodup) :
    ∃ r, sampleOffer classId seed (some pool) = .ok r ∧
      r.cards.length = min 3 pool.length ∧ r.cards.Nodup ∧ (∀ c ∈ r.cards, c ∈ pool) ∧
      r.steps.map SamplingStep.float =
        floatStream (deriveSubstream seed ("card|" ++ classId.text)) r.steps.length ∧
      replaySteps (TierPools.ofPool pool) none false r.steps = some r.cards ∧
      ∀ pool' : List CardId, pool'.Perm pool → sampleOffer classId seed (some pool') = .ok r := by
  obtain ⟨r, hr⟩ := sampleOffer_ok classId seed (some pool)
  have hloop : SampleLoop sampleOfferCount (TierPools.ofPool pool) (deriveSubstream seed ("card|" ++ classId.text)) r :=
    sampleDraws_loop hr
  obtain ⟨hfloat, hreplay⟩ := hloop.trace
  obtain ⟨left, hleft⟩ := hloop.cards_perm
  have hperm : (r.cards ++ left).Perm pool := hleft.trans (TierPools.all_ofPool pool)
  have hnodup : (r.cards ++ left).Nodup := hperm.nodup_iff.2 hn
  refine ⟨r, hr, sampleOffer_length hr, (List.nodup_append.1 hnodup).1, fun c hc => ?_, hfloat, hreplay,
    fun pool' hp => ?_⟩
  · exact hperm.mem_iff.1 (List.mem_append_left left hc)
  · rw [← hr]
    simp only [sampleOffer, Option.getD_some, TierPools.ofPool_perm hp]

theorem offer_correct_attack : (getClassPool .attack).Nodup ∧
    ∃ r, sampleOffer .attack "seed" (some (getClassPool .attack)) = .ok r ∧ r.cards.length = 3 := by
  have hn : (getClassPool .attack).Nodup := by decide +kernel
  obtain ⟨r, hr, hlen, -⟩ := offer_correct .attack "seed" (getClassPool .attack) hn
  exact ⟨hn, r, hr, hlen.trans (by decide +kernel)⟩

end Arena.GameCore
