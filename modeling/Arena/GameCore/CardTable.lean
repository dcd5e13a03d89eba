/-
The card mirrors read as statements about the log.

By `TableInv` the mirrors are the replay of the log, so what a mirror answers is a fact about the card events:

- `played_log`: a card is in a player's played set when the log holds a CARD_RESOLVED of it by the player;
- `picked_log`: a card that was never played is in the picked set when it was picked after the player's latest offer;
- `aoe_log`: the AOE counter of a round counts the CARD_RESOLVED entries of that round with more than one target;
- `reach_offerSizes`: every CARD_OFFER of the log has three cards.
-/
import Arena.GameCore.CardLog

namespace Arena.GameCore

open Arena.Lib Arena.Shared

/-! ## Card events -/

/-- a CARD_RESOLVED of the card by the player -/
def MatchEvent.resolves (p : String) (c : CardId) : MatchEvent → Bool
  | .cardResolved r => r.playedByPlayerId = p ∧ r.cardId = c
  | _ => false

/-- a CARD_PICKED of the card by the player -/
def MatchEvent.picks (p : String) (c : CardId) : MatchEvent → Bool
  | .cardPicked _ q card _ _ _ => q = p ∧ card = c
  | _ => false

/-- a CARD_OFFER to the player -/
def MatchEvent.offersTo (p : String) : MatchEvent → Bool
  | .cardOffer _ q _ _ => q = p
  | _ => false

/-- a CARD_RESOLVED of the round with more than one target -/
def MatchEvent.isAoe (roundNo : ℕ) : MatchEvent → Bool
  | .cardResolved r => r.roundNo = roundNo ∧ 1 < r.targetPlayerIds.length
  | _ => false

/-- the card was picked by the player and the player has had no offer since -/
def PickedSince (p : String) (c : CardId) (log : List EventLogEntry) : Prop :=
  ∃ a e b, log = a ++ e :: b ∧ e.event.picks p c = true ∧ ∀ x ∈ b, x.event.offersTo p = false

/-- the AOE resolutions of a round -/
def aoeCount (log : List EventLogEntry) (roundNo : ℕ) : ℕ := log.countP fun e => e.event.isAoe roundNo

/-- every offer is one of three cards -/
def OfferSizes (log : List EventLogEntry) : Prop :=
  ∀ e ∈ log, ∀ r p ids s, e.event = .cardOffer r p ids s → ids.length = 3

theorem pickedSince_concat (p : String) (c : CardId) (log : List EventLogEntry) (e : EventLogEntry) :
    PickedSince p c (log ++ [e]) ↔
      e.event.picks p c = true ∨ e.event.offersTo p = false ∧ PickedSince p c log := by
  constructor
  · rintro ⟨a, x, b, hl, hx, hb⟩
    rcases List.eq_nil_or_concat b with rfl | ⟨b', y, rfl⟩
    · obtain ⟨-, he⟩ := List.append_inj' hl rfl
      obtain rfl := (List.cons.inj he).1
      exact .inl hx
    · rw [List.concat_eq_append, ← List.cons_append, ← List.append_assoc] at hl
      obtain ⟨hlog, he⟩ := List.append_inj' hl rfl
      obtain rfl := (List.cons.inj he).1
      exact .inr ⟨hb e (by simp), a, x, b', hlog, hx, fun z hz => hb z (by simp [hz])⟩
  · rintro (he | ⟨he, a, x, b, rfl, hx, hb⟩)
    · exact ⟨log, e, [], rfl, he, by simp⟩
    · refine ⟨a, x, b ++ [e], by simp, hx, ?_⟩
      intro z hz
      rcases List.mem_append.1 hz with hz | hz
      · exact hb z hz
      · rw [List.mem_singleton.1 hz]
        exact he

namespace Machine

/-! ## Sizes of offers -/

theorem offerSizes_append {log es : List EventLogEntry} (h : OfferSizes log)
    (hes : ∀ e ∈ es, ∀ r p ids s, e.event = .cardOffer r p ids s → ids.length = 3) : OfferSizes (log ++ es) := by
  intro e he
  rcases List.mem_append.1 he with he | he
  · exact h e he
  · exact hes e he

theorem change_offerSizes {J : StringOps} {m m' : Machine} {o : Op} (hc : Change J m o m')
    (h : OfferSizes m.eventLog) : OfferSizes m'.eventLog := by
  by_cases ho : o.isCardCall = false
  · obtain ⟨⟨es, hl, hes⟩, -⟩ := change_noCards hc ho
    rw [hl]
    refine offerSizes_append h fun e he r p ids s hev => ?_
    have hno := hes e he
    rw [hev] at hno
    cases hno
  cases hc with
  | same o => exact h
  | classes ids s now => exact offerSizes_append h (by simp)
  | offer p r s cards now hl =>
    refine offerSizes_append h fun e he r' p' ids s' hev => ?_
    rw [List.mem_singleton.1 he] at hev
    obtain ⟨-, -, rfl, -⟩ := MatchEvent.cardOffer.inj hev
    exact hl
  | pick p c hand r o e i now _ => exact offerSizes_append h (by simp)
  | play round p now _ _ _ =>
    rw [play_eventLog]
    refine offerSizes_append h fun e he r q ids s hev => ?_
    rcases List.mem_cons.1 he with rfl | he
    · cases hev
    · have hno := playEntries_tail m round p now e he
      rw [hev] at hno
      cases hno
  | _ => exact absurd rfl ho

theorem act_offerSizes (J : StringOps) (m : Machine) (a : Action) (h : OfferSizes m.eventLog) :
    OfferSizes (m.act J a).eventLog := by
  cases a with
  | call o => exact change_offerSizes (step_change J m o) h
  | failover =>
    simp only [act, failover_eventLog]
    exact h

/-! ## Mirrors -/

theorem rehydrate_concat (log : List EventLogEntry) (e : EventLogEntry) :
    rehydrateCardStateFromEventLog (log ++ [e]) = rehydrateEvent (rehydrateCardStateFromEventLog log) e :=
  rehydrate_append log [e]

theorem rehydrateEvent_mirrors (c : CardMirrors) (e : EventLogEntry) (he : e.event.isCardEvent = false) :
    (rehydrateEvent c e).playerPlayedCards = c.playerPlayedCards ∧
      (rehydrateEvent c e).playerPickedCards = c.playerPickedCards ∧
      (rehydrateEvent c e).aoeCountByRound = c.aoeCountByRound := by
  obtain ⟨-, -, -, hplayed, hpicked, haoe⟩ := CardMirrors.table_eq_iff.1 (rehydrateEvent_other c e he)
  exact ⟨hplayed, hpicked, haoe⟩

theorem has_addCard (sets : JsMap String (JsSet CardId)) (p q : String) (c card : CardId) :
    (((addCard sets q card).get p).getD JsSet.empty).has c =
      (decide (q = p ∧ card = c) || ((sets.get p).getD JsSet.empty).has c) := by
  unfold addCard
  by_cases hq : q = p
  · subst hq
    simp [JsSet.has_add, eq_comm]
  · simp [hq]

theorem has_deleteCard (sets : JsMap String (JsSet CardId)) (p q : String) (c card : CardId) :
    (((sets.modify q (·.delete card)).get p).getD JsSet.empty).has c =
      (!decide (q = p ∧ card = c) && ((sets.get p).getD JsSet.empty).has c) := by
  rw [JsMap.get_modify]
  by_cases hq : q = p
  · subst hq
    cases sets.get q with
    | none => simp
    | some s => simp [JsSet.has_delete, eq_comm]
  · simp [hq]

theorem replay_played (log : List EventLogEntry) (p : String) (c : CardId) :
    (((rehydrateCardStateFromEventLog log).playerPlayedCards.get p).getD JsSet.empty).has c = true ↔
      ∃ e ∈ log, e.event.resolves p c = true := by
  induction log using List.reverseRecOn with
  | nil => simp [rehydrateCardStateFromEventLog, CardMirrors.empty, JsMap.empty, JsMap.get, getEntry]
  | append_singleton log e ih =>
    rw [rehydrate_concat]
    simp only [List.mem_append, List.mem_singleton, or_and_right, exists_or, exists_eq_left, ← ih]
    by_cases he : e.event.isCardEvent = false
    · have hno : e.event.resolves p c = false := by
        unfold MatchEvent.resolves
        split
        · rename_i hev
          simp [hev, MatchEvent.isCardEvent] at he
        · rfl
      rw [(rehydrateEvent_mirrors _ e he).1, hno]
      simp
    · unfold rehydrateEvent
      cases hev : e.event with
      | classAssigned => simp [rehydrateClassAssigned, MatchEvent.resolves]
      | cardOffer =>
        simp only [rehydrateCardOffer]
        split_ifs <;> simp [MatchEvent.resolves]
      | cardPicked => simp [rehydrateCardPicked, MatchEvent.resolves]
      | cardResolved r =>
        simp only [rehydrateCardResolved, has_addCard, MatchEvent.resolves, Bool.or_eq_true, decide_eq_true_eq]
        exact or_comm
      | _ => simp [hev, MatchEvent.isCardEvent] at he

theorem replay_picked (log : List EventLogEntry) (hsizes : OfferSizes log) (p : String) (c : CardId)
    (hnew : ∀ e ∈ log, e.event.resolves p c = false) :
    (((rehydrateCardStateFromEventLog log).playerPickedCards.get p).getD JsSet.empty).has c = true ↔
      PickedSince p c log := by
  induction log using List.reverseRecOn with
  | nil =>
    have hempty : ¬PickedSince p c [] := by
      rintro ⟨a, e, b, hl, -⟩
      simp at hl
    simp [rehydrateCardStateFromEventLog, CardMirrors.empty, JsMap.empty, JsMap.get, getEntry, hempty]
  | append_singleton log e ih =>
    have hrest := ih (fun x hx => hsizes x (List.mem_append_left _ hx)) fun x hx => hnew x (List.mem_append_left _ hx)
    have hlast := hnew e (by simp)
    rw [rehydrate_concat, pickedSince_concat, ← hrest]
    by_cases he : e.event.isCardEvent = false
    · have hno : e.event.picks p c = false ∧ e.event.offersTo p = false := by
        unfold MatchEvent.picks MatchEvent.offersTo
        cases hev : e.event with
        | cardPicked => simp [hev, MatchEvent.isCardEvent] at he
        | cardOffer => simp [hev, MatchEvent.isCardEvent] at he
        | _ => exact ⟨rfl, rfl⟩
      rw [(rehydrateEvent_mirrors _ e he).2.1, hno.1, hno.2]
      simp
    · unfold rehydrateEvent
      cases hev : e.event with
      | classAssigned => simp [rehydrateClassAssigned, MatchEvent.picks, MatchEvent.offersTo]
      | cardOffer r q ids s =>
        have hthree := hsizes e (by simp) r q ids s hev
        by_cases hq : q = p
        · subst hq
          simp [rehydrateCardOffer, hthree, MatchEvent.picks, MatchEvent.offersTo, JsMap.get_delete]
        · simp [rehydrateCardOffer, hthree, MatchEvent.picks, MatchEvent.offersTo, JsMap.get_delete, hq]
      | cardPicked r q card o ev cmd =>
        simp only [rehydrateCardPicked, has_addCard, MatchEvent.picks, MatchEvent.offersTo, Bool.or_eq_true,
          decide_eq_true_eq, true_and]
      | cardResolved r =>
        simp only [hev, MatchEvent.resolves, decide_eq_false_iff_not] at hlast
        simp only [rehydrateCardResolved]
        rw [has_deleteCard]
        simp [MatchEvent.picks, MatchEvent.offersTo, hlast]
      | _ => simp [hev, MatchEvent.isCardEvent] at he

theorem replay_aoe (log : List EventLogEntry) (n : ℕ) :
    ((rehydrateCardStateFromEventLog log).aoeCountByRound.get n).getD 0 = aoeCount log n := by
  induction log using List.reverseRecOn with
  | nil => rfl
  | append_singleton log e ih =>
    rw [rehydrate_concat, aoeCount, List.countP_append, ← aoeCount, ← ih, List.countP_singleton]
    by_cases he : e.event.isCardEvent = false
    · have hno : e.event.isAoe n = false := by
        unfold MatchEvent.isAoe
        split
        · rename_i hev
          simp [hev, MatchEvent.isCardEvent] at he
        · rfl
      rw [(rehydrateEvent_mirrors _ e he).2.2, hno]
      simp
    · unfold rehydrateEvent
      cases hev : e.event with
      | classAssigned => simp [rehydrateClassAssigned, MatchEvent.isAoe]
      | cardOffer =>
        simp only [rehydrateCardOffer, MatchEvent.isAoe, Bool.false_eq_true, if_false, Nat.add_zero]
        split_ifs <;> rfl
      | cardPicked => simp [rehydrateCardPicked, MatchEvent.isAoe]
      | cardResolved r =>
        by_cases ht : 1 < r.targetPlayerIds.length
        · by_cases hn : r.roundNo = n <;> simp [rehydrateCardResolved, MatchEvent.isAoe, countAoe, ht, hn]
        · simp [rehydrateCardResolved, MatchEvent.isAoe, ht]
      | _ => simp [hev, MatchEvent.isCardEvent] at he

variable {m : Machine}

theorem played_log (h : TableInv m) (p : String) (c : CardId) :
    (m.getPlayedCards p).has c = true ↔ ∃ e ∈ m.eventLog, e.event.resolves p c = true := by
  obtain ⟨-, -, -, hplayed, -, -⟩ := CardMirrors.table_eq_iff.1 h
  rw [getPlayedCards, hplayed]
  exact replay_played m.eventLog p c

theorem unplayed_log (h : TableInv m) (p : String) (c : CardId) :
    (m.getPlayedCards p).has c = false ↔ ∀ e ∈ m.eventLog, e.event.resolves p c = false := by
  rw [← Bool.not_eq_true, played_log h]
  simp

/-- **A picked card that was never played was picked after the latest offer.** -/
theorem picked_log (h : TableInv m) (hs : OfferSizes m.eventLog) (p : String) (c : CardId)
    (hnew : ∀ e ∈ m.eventLog, e.event.resolves p c = false) :
    ((m.cards.playerPickedCards.get p).getD JsSet.empty).has c = true ↔ PickedSince p c m.eventLog := by
  obtain ⟨-, -, -, -, hpicked, -⟩ := CardMirrors.table_eq_iff.1 h
  rw [hpicked]
  exact replay_picked m.eventLog hs p c hnew

theorem aoe_log (h : TableInv m) (n : ℕ) : m.getAoeCountForRound n = aoeCount m.eventLog n := by
  obtain ⟨-, -, -, -, -, haoe⟩ := CardMirrors.table_eq_iff.1 h
  rw [getAoeCountForRound, haoe]
  exact replay_aoe m.eventLog n

end Machine

end Arena.GameCore
