/-
Whether the milestone offers of a match can be made.

`pickOffer` draws three cards from the class pool without the cards the player has played or has picked since its latest
offer, and throws when fewer are left. A player holds no other cards than it was offered (`Owned`), so at the third
milestone at most six are used. The DEFENSE pool of ten cards always has three left; the ATTACK pool of eight has not
once the player has used all the cards of two offers, and a player may: a pick takes one card out of the hand, and
leaves the others to be picked too.

- `offerFits_iff`: an offer fits exactly when three cards of the class pool are unused;
- `offers_fit_iff`: every offer of a run fits exactly when no ATTACK player has spent two offers when it is made one;
- `third_offer_throws`: alice plays all six cards of rounds 5 and 12, and in round 20 is made no offer.
-/
import Arena.Api.Evidence
import Arena.Api.LegalPlays

namespace Arena.Api

open Arena.Lib Arena.Shared Arena.GameCore Arena.GameCore.Machine

/-! ## Statement -/

/-- the card is played, or picked since the player's latest offer -/
def isUsed (m : Machine) (p : String) (c : CardId) : Bool := (getPickedCards m p).has c || (m.getPlayedCards p).has c

/-- `pickOffer` does not throw "expected 3 cards" -/
def OfferFits (m : Machine) (p : String) (roundNo : ℕ) (seedUsed : String) (now : Clock) : Prop :=
  ∀ k, (m.pickOffer p roundNo seedUsed now).2 ≠ .error (.offerSize k)

/-- no survivor's offer throws -/
def OffersFit (s : Owner) : Owner.OwnerOp → Prop
  | .offers i botIds rnd now => ∀ q n ids, s.tasks[i]? = some (.offering q n ids) →
    Along (offerTo n botIds rnd now)
      (fun l p => OfferFits l.machine p n (offerSeed l.machine.state.id n p) (now p)) ⟨s.machine, JsMap.empty, []⟩ ids
  | _ => True

/-- the round and the survivors a step makes offers for -/
def offering (s : Owner) : Owner.OwnerOp → Option (ℕ × List String)
  | .offers i _ _ _ =>
    match s.tasks[i]? with
    | some (.offering _ roundNo survivingPlayerIds) => some (roundNo, survivingPlayerIds)
    | _ => none
  | _ => none

/-- a milestone round makes its offers once (its start is stored before, so no failover starts it again) -/
def OncePerMilestone (s : Owner) (o : Owner.OwnerOp) : Prop :=
  ∀ x ∈ offering s o, ∀ a ∈ s.offered, a.roundNo ≠ x.1

/-- the player has used all the cards of two of its offers, six different cards of the ATTACK pool -/
def SpentTwoOffers (s : Owner) (p : String) : Prop :=
  ∃ a ∈ s.offered, ∃ b ∈ s.offered, a.playerId = p ∧ b.playerId = p ∧ (a.offeredCards ++ b.offeredCards).Nodup ∧
    ∀ c ∈ a.offeredCards ++ b.offeredCards, c ∈ getClassPool .attack ∧ isUsed s.machine p c = true

/-- no ATTACK player who is to be made an offer has spent two -/
def NoneSpent (s : Owner) (o : Owner.OwnerOp) : Prop :=
  ∀ x ∈ offering s o, ∀ p ∈ x.2, s.machine.cards.playerClasses.get p = some .attack → ¬SpentTwoOffers s p

/-! ## One offer -/

variable {J : StringOps} {m m' : Machine}

def unusedPool (m : Machine) (p : String) (classId : ClassId) : List CardId :=
  (getClassPool classId).filter fun c => !isUsed m p c

/-- the machine after an offer of these cards -/
def withOffer (m : Machine) (p : String) (roundNo : ℕ) (seedUsed : String) (cards : List CardId) (now : Clock) :
    Machine :=
  { m.logEvent (.cardOffer roundNo p cards seedUsed) (now 0) with
    cards := { m.cards with
      playerHands := m.cards.playerHands.set p cards
      playerPickedCards := m.cards.playerPickedCards.delete p } }

theorem pickOffer_eq (m : Machine) (p : String) (roundNo : ℕ) (seedUsed : String) (now : Clock) {classId : ClassId}
    (hc : m.cards.playerClasses.get p = some classId) :
    ∃ cards : List CardId, cards.length = min 3 (unusedPool m p classId).length ∧
      m.pickOffer p roundNo seedUsed now =
        if cards.length = 3 then (withOffer m p roundNo seedUsed cards now, .ok cards)
        else (m, .error (.offerSize cards.length)) := by
  obtain ⟨r, hr⟩ := sampleOffer_ok classId seedUsed (some (unusedPool m p classId))
  have hpool : (getClassPool classId).filter (fun id =>
      !(((m.cards.playerPickedCards.get p).getD JsSet.empty).has id || (m.getPlayedCards p).has id)) =
        unusedPool m p classId := rfl
  refine ⟨r.cards, sampleOffer_length hr, ?_⟩
  simp only [pickOffer, hc, hpool, hr, ne_eq, ite_not]
  rfl

/-- **An offer fits exactly when three cards of the class pool are unused.** -/
theorem offerFits_iff (m : Machine) (p : String) (roundNo : ℕ) (seedUsed : String) (now : Clock) :
    OfferFits m p roundNo seedUsed now ↔
      ∀ classId, m.cards.playerClasses.get p = some classId → 3 ≤ (unusedPool m p classId).length := by
  unfold OfferFits
  cases hc : m.cards.playerClasses.get p with
  | none => simp [pickOffer, hc]
  | some classId =>
    obtain ⟨cards, hlen, hoffer⟩ := pickOffer_eq m p roundNo seedUsed now hc
    rw [hoffer]
    simp only [Option.some.injEq, forall_eq']
    by_cases hthree : cards.length = 3
    · rw [if_pos hthree]
      exact ⟨fun _ => by omega, fun _ k hk => by cases hk⟩
    · rw [if_neg hthree]
      exact ⟨fun h => absurd rfl (h cards.length), fun h => absurd hlen (by omega)⟩

theorem pickOffer_made {p : String} {roundNo : ℕ} {seedUsed : String} {now : Clock} {cards : List CardId}
    (h : m.pickOffer p roundNo seedUsed now = (m', .ok cards)) :
    cards.length = 3 ∧ m' = withOffer m p roundNo seedUsed cards now := by
  cases hc : m.cards.playerClasses.get p with
  | none => simp [pickOffer, hc] at h
  | some classId =>
    obtain ⟨drawn, -, hoffer⟩ := pickOffer_eq m p roundNo seedUsed now hc
    rw [hoffer] at h
    split_ifs at h with hlen
    · obtain ⟨rfl, hcards⟩ := Prod.mk.inj h
      obtain rfl := Except.ok.inj hcards
      exact ⟨hlen, rfl⟩
    · cases (Prod.mk.inj h).2

theorem pickOffer_refused {p : String} {roundNo : ℕ} {seedUsed : String} {now : Clock} {e : MatchError}
    (h : m.pickOffer p roundNo seedUsed now = (m', .error e)) : m' = m := by
  cases hc : m.cards.playerClasses.get p with
  | none =>
    simp only [pickOffer, hc] at h
    exact (Prod.mk.inj h).1.symm
  | some classId =>
    obtain ⟨drawn, -, hoffer⟩ := pickOffer_eq m p roundNo seedUsed now hc
    rw [hoffer] at h
    split_ifs at h
    · cases (Prod.mk.inj h).2
    · exact (Prod.mk.inj h).1.symm

/-! ## The cards of a player -/

/-- the player has the card in its hand, or has used it -/
def Holds (m : Machine) (p : String) (c : CardId) : Prop := c ∈ getHand m p ∨ isUsed m p c = true

/-- the player was offered the card -/
def OwnCard (offered : List MilestoneOffer) (p : String) (c : CardId) : Prop :=
  ∃ a ∈ offered, a.playerId = p ∧ c ∈ a.offeredCards

/-- every player holds cards it was offered -/
def Owned (offered : List MilestoneOffer) (m : Machine) : Prop := ∀ p c, Holds m p c → OwnCard offered p c

theorem OwnCard.mono {offered offered' : List MilestoneOffer} {p : String} {c : CardId} (h : OwnCard offered p c)
    (hsub : offered ⊆ offered') : OwnCard offered' p c := by
  obtain ⟨a, ha, hp, hc⟩ := h
  exact ⟨a, hsub ha, hp, hc⟩

/-- the parts of the mirrors that say what a player holds -/
theorem holds_congr {p : String} {c : CardId} (hhands : m'.cards.playerHands.get p = m.cards.playerHands.get p)
    (hplayed : m'.cards.playerPlayedCards.get p = m.cards.playerPlayedCards.get p)
    (hpicked : m'.cards.playerPickedCards.get p = m.cards.playerPickedCards.get p) : Holds m' p c ↔ Holds m p c := by
  simp only [Holds, getHand, isUsed, getPickedCards, getPlayedCards, hhands, hplayed, hpicked]

theorem holds_of_table {p : String} {c : CardId} (h : m'.cards.table = m.cards.table) : Holds m' p c ↔ Holds m p c := by
  obtain ⟨-, hhands, -, hplayed, hpicked, -⟩ := CardMirrors.table_eq_iff.1 h
  exact holds_congr (by rw [hhands]) (by rw [hplayed]) (by rw [hpicked])

/-- a pick takes the card from the hand -/
theorem pickCard_holds {p q : String} {c card : CardId} {seq : ℕ} {e i : Option String} {now : Clock}
    (h : Holds (m.step J (.pickCard q card seq e i now)) p c) : Holds m p c := by
  by_cases hhand : card ∈ getHand m q
  · have hc := step_change J m (.pickCard q card seq e i now)
    generalize m.step J (.pickCard q card seq e i now) = m' at hc h
    cases hc with
    | same => exact h
    | pick _ _ hand roundNo _ _ _ _ hh =>
      by_cases hq : q = p
      · subst hq
        simp only [Holds, getHand, isUsed, getPickedCards, getPlayedCards, JsMap.get_set, if_true, Option.getD_some, hh,
          has_addCard, Bool.or_eq_true, decide_eq_true_eq, List.mem_filter, true_and] at h hhand ⊢
        rcases h with ⟨hin, -⟩ | (rfl | hpicked) | hplayed
        · exact .inl hin
        · exact .inl hhand
        · exact .inr (.inl hpicked)
        · exact .inr (.inr hplayed)
      · simpa [Holds, getHand, isUsed, getPickedCards, getPlayedCards, has_addCard, hq] using h
  · rwa [pickCard_unchanged hhand] at h

/-- a play adds the card that is played -/
theorem playCard_holds {p : String} {c : CardId} {play : PlayInput} {now : Clock}
    (h : Holds (m.step J (.playCard play now)) p c) :
    Holds m p c ∨ (play.playedByPlayerId = p ∧ play.cardId = c) := by
  by_cases hacc : m.AcceptsPlay
  · obtain ⟨round, -, hplay⟩ := playCard_accepted J play now hacc
    obtain ⟨-, hhands, hplayed, hpicked, -⟩ := play_cards m round play now
    rw [hplay] at h
    simp only [Holds, getHand, isUsed, getPickedCards, getPlayedCards, hhands, hplayed, hpicked, has_addCard,
      has_deleteCard, Bool.or_eq_true, Bool.and_eq_true, decide_eq_true_eq] at h ⊢
    rcases h with hin | ⟨-, hin⟩ | hnow | hin
    · exact .inl (.inl hin)
    · exact .inl (.inr (.inl hin))
    · exact .inr hnow
    · exact .inl (.inr (.inr hin))
  · rw [playCard_refused J play now hacc] at h
    exact .inl h

/-- an offer replaces the hand and takes back what was picked -/
theorem withOffer_holds {p q : String} {c : CardId} {roundNo : ℕ} {seedUsed : String} {cards : List CardId}
    {now : Clock} (h : Holds (withOffer m q roundNo seedUsed cards now) p c) :
    Holds m p c ∨ (q = p ∧ c ∈ cards) := by
  by_cases hq : q = p
  · subst hq
    simp only [Holds, getHand, isUsed, getPickedCards, getPlayedCards, withOffer, JsMap.get_set, JsMap.get_delete,
      if_true, Option.getD_some, Option.getD_none, Bool.or_eq_true, JsSet.has_empty] at h ⊢
    rcases h with hin | hpicked | hplayed
    · exact .inr ⟨trivial, hin⟩
    · cases hpicked
    · exact .inl (.inr (.inr hplayed))
  · exact .inl (by simpa [Holds, getHand, isUsed, getPickedCards, getPlayedCards, withOffer, JsMap.get_delete, hq] using h)

/-! ## The offers of a milestone -/

section Loop

variable {n : ℕ} {botIds : List String} {rnd : String → Random} {now : String → Clock}

/-- one survivor's turn: a refused offer changes nothing; an offer is logged, and a bot may pick one of its cards -/
theorem offerTo_cases (J : StringOps) (l : OfferLoop) (p : String) :
    ((offerTo n botIds rnd now l p).machine = l.machine ∧
      (offerTo n botIds rnd now l p).cardOffersToEmit = l.cardOffersToEmit) ∨
    ∃ cards seq m', cards.length = 3 ∧
      m' = withOffer l.machine p n (offerSeed l.machine.state.id n p) cards (now p) ∧
      (offerTo n botIds rnd now l p).cardOffersToEmit = l.cardOffersToEmit ++ [⟨p, n, cards, seq⟩] ∧
      ((offerTo n botIds rnd now l p).machine = m' ∨
        ∃ card t, (offerTo n botIds rnd now l p).machine = m'.step J (.pickCard p card seq none none t)) := by
  unfold offerTo
  split
  · rename_i m' e hx
    exact .inl ⟨pickOffer_refused hx, rfl⟩
  · rename_i m' cards hx
    obtain ⟨hlen, hm'⟩ := pickOffer_made hx
    refine .inr ⟨cards, m'.getHeadSeqNo, m', hlen, hm', ?_⟩
    simp only []
    split_ifs
    · refine ⟨rfl, ?_⟩
      unfold autoPick
      split
      · rename_i card _
        exact .inr ⟨card, _, rfl⟩
      · exact .inl rfl
    · exact ⟨rfl, .inl rfl⟩

theorem offerTo_owned {offered : List MilestoneOffer} {l : OfferLoop} {p : String}
    (h : Owned (offered ++ l.cardOffersToEmit) l.machine) :
    Owned (offered ++ (offerTo n botIds rnd now l p).cardOffersToEmit) (offerTo n botIds rnd now l p).machine := by
  rcases offerTo_cases StringOps.ascii l p with ⟨hm, he⟩ | ⟨cards, seq, m', -, hm', he, hm⟩
  · rw [hm, he]
    exact h
  · have hoffer : Owned (offered ++ (offerTo n botIds rnd now l p).cardOffersToEmit) m' := by
      intro q c hc
      rw [hm'] at hc
      rw [he]
      rcases withOffer_holds hc with hold | ⟨rfl, hin⟩
      · exact (h q c hold).mono fun a ha => by simp only [List.mem_append] at ha ⊢; tauto
      · exact ⟨⟨p, n, cards, seq⟩, by simp, rfl, hin⟩
    rcases hm with hm | ⟨card, t, hm⟩
    · rw [hm]
      exact hoffer
    · rw [hm]
      exact fun q c hc => hoffer q c (pickCard_holds hc)

/-- the other survivors' turns leave what a player holds and its class alone -/
theorem offerTo_other {l : OfferLoop} {p q : String} (hq : p ≠ q) :
    (offerTo n botIds rnd now l p).machine.cards.playerClasses.get q = l.machine.cards.playerClasses.get q ∧
      ∀ c, isUsed (offerTo n botIds rnd now l p).machine q c = isUsed l.machine q c := by
  have hpick : ∀ (m : Machine) card seq t, (m.step StringOps.ascii (.pickCard p card seq none none t)).cards.playerClasses =
      m.cards.playerClasses ∧ ∀ c, isUsed (m.step StringOps.ascii (.pickCard p card seq none none t)) q c =
        isUsed m q c := by
    intro m card seq t
    have hc := step_change StringOps.ascii m (.pickCard p card seq none none t)
    generalize m.step StringOps.ascii (.pickCard p card seq none none t) = m' at hc ⊢
    cases hc with
    | same => exact ⟨rfl, fun c => rfl⟩
    | pick _ _ hand roundNo _ _ _ _ hh =>
      exact ⟨rfl, fun c => by simp [isUsed, getPickedCards, getPlayedCards, has_addCard, hq]⟩
  rcases offerTo_cases StringOps.ascii l p with ⟨hm, -⟩ | ⟨cards, seq, m', -, hm', -, hm⟩
  · rw [hm]
    exact ⟨rfl, fun c => rfl⟩
  · have hoffer : m'.cards.playerClasses = l.machine.cards.playerClasses ∧
        ∀ c, isUsed m' q c = isUsed l.machine q c := by
      rw [hm']
      exact ⟨rfl, fun c => by simp [isUsed, getPickedCards, getPlayedCards, withOffer, JsMap.get_delete, hq]⟩
    rcases hm with hm | ⟨card, t, hm⟩
    · rw [hm, hoffer.1]
      exact ⟨rfl, hoffer.2⟩
    · obtain ⟨hclasses, hused⟩ := hpick m' card seq t
      rw [hm, hclasses, hoffer.1]
      exact ⟨rfl, fun c => (hused c).trans (hoffer.2 c)⟩

theorem makeOffers_owned {offered : List MilestoneOffer} {ids : List String} (h : Owned offered m) :
    Owned (offered ++ (makeOffers m ids n botIds rnd now).cardOffersToEmit)
      (makeOffers m ids n botIds rnd now).machine := by
  have hfold : ∀ l : OfferLoop, Owned (offered ++ l.cardOffersToEmit) l.machine →
      Owned (offered ++ (ids.foldl (offerTo n botIds rnd now) l).cardOffersToEmit)
        (ids.foldl (offerTo n botIds rnd now) l).machine := by
    induction ids with
    | nil => exact fun l hl => hl
    | cons p ids ih => exact fun l hl => ih _ (offerTo_owned hl)
  exact hfold ⟨m, JsMap.empty, []⟩ (by rwa [List.append_nil])

/-- the offers of a milestone have three cards each, and no survivor has two -/
theorem makeOffers_offers (ids : List String) :
    ((makeOffers m ids n botIds rnd now).cardOffersToEmit.map MilestoneOffer.playerId).Sublist ids ∧
      ∀ a ∈ (makeOffers m ids n botIds rnd now).cardOffersToEmit, a.roundNo = n ∧ a.offeredCards.length = 3 := by
  have hfold : ∀ l : OfferLoop, ∃ es, (ids.foldl (offerTo n botIds rnd now) l).cardOffersToEmit =
      l.cardOffersToEmit ++ es ∧ (es.map MilestoneOffer.playerId).Sublist ids ∧
        ∀ a ∈ es, a.roundNo = n ∧ a.offeredCards.length = 3 := by
    induction ids with
    | nil => exact fun l => ⟨[], by simp⟩
    | cons p ids ih =>
      intro l
      obtain ⟨es, he, hsub, hes⟩ := ih (offerTo n botIds rnd now l p)
      rw [List.foldl_cons, he]
      rcases offerTo_cases StringOps.ascii l p with ⟨-, hl⟩ | ⟨cards, seq, m', hlen, -, hl, -⟩
      · exact ⟨es, by rw [hl], hsub.cons p, hes⟩
      · refine ⟨⟨p, n, cards, seq⟩ :: es, by rw [hl, List.append_assoc, List.singleton_append], hsub.cons_cons p, ?_⟩
        exact List.forall_mem_cons.2 ⟨⟨rfl, hlen⟩, hes⟩
  obtain ⟨es, he, hsub, hes⟩ := hfold ⟨m, JsMap.empty, []⟩
  rw [List.nil_append] at he
  rw [makeOffers, he]
  exact ⟨hsub, hes⟩

/-- the offers of a milestone fit when each survivor's would fit first -/
theorem offersFit_loop (l : OfferLoop) {ids : List String} (hn : ids.Nodup) :
    Along (offerTo n botIds rnd now)
        (fun l p => OfferFits l.machine p n (offerSeed l.machine.state.id n p) (now p)) l ids ↔
      ∀ p ∈ ids, ∀ classId, l.machine.cards.playerClasses.get p = some classId →
        3 ≤ (unusedPool l.machine p classId).length := by
  simp only [offerFits_iff]
  refine along_frame (offerTo n botIds rnd now) _ (fun l p q hpq => ?_) l ids hn
  obtain ⟨hclass, hused⟩ := @offerTo_other n botIds rnd now l p q hpq
  simp only [unusedPool, hclass, hused]

end Loop

/-! ## Runs -/

/-- a task of a milestone -/
def RoundTask.AtMilestone : RoundTask → Prop
  | .started _ n => n ∈ milestoneRounds
  | .offering _ n ids => n ∈ milestoneRounds ∧ ids.Nodup
  | _ => True

structure OfferRun (roster : List String) (s : Owner) : Prop where
  facts : s.Every (OwnerFacts roster)
  owned : s.Every (Owned s.offered)
  plays : ∀ b ∈ s.plays, OwnCard s.offered b.botId b.cardId
  tasks : ∀ t ∈ s.tasks, t.AtMilestone
  sizes : ∀ a ∈ s.offered, a.offeredCards.length = 3
  rounds : ∀ a ∈ s.offered, a.roundNo ∈ milestoneRounds
  once : s.offered.Pairwise fun a b => a.playerId = b.playerId → a.roundNo ≠ b.roundNo

variable {roster : List String} {s : Owner}

/-- only an `offers` step adds to the offers of the run -/
theorem offered_step (J : StringOps) (s : Owner) (o : Owner.OwnerOp) :
    ((s.step J o).offered = s.offered ∧ offering s o = none) ∨
      ∃ i botIds rnd now q n ids, o = .offers i botIds rnd now ∧ s.tasks[i]? = some (.offering q n ids) ∧
        offering s o = some (n, ids) ∧
        (s.step J o).offered = s.offered ++ (makeOffers s.machine ids n botIds rnd now).cardOffersToEmit := by
  cases o with
  | call o =>
    refine .inl ⟨?_, rfl⟩
    simp only [Owner.step]
    split_ifs <;> rfl
  | startRound q d now =>
    refine .inl ⟨?_, rfl⟩
    simp only [Owner.step, Owner.startRound]
    split <;> rfl
  | started i =>
    refine .inl ⟨?_, rfl⟩
    simp only [Owner.step, Owner.started]
    split
    · split_ifs <;> rfl
    · rfl
  | milestone i now =>
    refine .inl ⟨?_, rfl⟩
    simp only [Owner.step, Owner.milestone]
    split <;> rfl
  | offers i botIds rnd now =>
    by_cases hi : ∃ q n ids, s.tasks[i]? = some (.offering q n ids)
    · obtain ⟨q, n, ids, hi⟩ := hi
      exact .inr ⟨i, botIds, rnd, now, q, n, ids, rfl, hi, by simp [offering, hi],
        by simp [Owner.step, Owner.offers, hi, Owner.setTask]⟩
    · refine .inl ⟨?_, ?_⟩
      · simp only [Owner.step, Owner.offers]
        split
        · rename_i q n ids hx
          exact absurd ⟨q, n, ids, hx⟩ hi
        · rfl
      · simp only [offering]
        split
        · rename_i q n ids hx
          exact absurd ⟨q, n, ids, hx⟩ hi
        · rfl
  | offersStored i =>
    refine .inl ⟨?_, rfl⟩
    simp only [Owner.step, Owner.offersStored]
    split <;> rfl
  | scheduleBots i botIds rnd =>
    refine .inl ⟨?_, rfl⟩
    simp only [Owner.step, Owner.scheduleBots]
    split <;> rfl
  | botPlay i rnd now =>
    refine .inl ⟨?_, rfl⟩
    simp only [Owner.step, Owner.botPlay]
    split <;> rfl
  | command env now => exact .inl ⟨rfl, rfl⟩
  | save => exact .inl ⟨rfl, rfl⟩
  | restore i =>
    refine .inl ⟨?_, rfl⟩
    simp only [Owner.step, Owner.restore]
    split
    · rfl
    · split <;> rfl

theorem offered_subset (J : StringOps) (s : Owner) (o : Owner.OwnerOp) : s.offered ⊆ (s.step J o).offered := by
  rcases offered_step J s o with ⟨h, -⟩ | ⟨i, botIds, rnd, now, q, n, ids, -, -, -, h⟩
  · rw [h]
    exact fun _ ha => ha
  · rw [h]
    exact List.subset_append_left _ _

theorem step_owned (J : StringOps) (o : Owner.OwnerOp) (h : OfferRun roster s) :
    (s.step J o).Every (Owned (s.step J o).offered) := by
  have hsub := offered_subset J s o
  have hmono : ∀ m, Owned s.offered m → Owned (s.step J o).offered m := fun m hm p c hc => (hm p c hc).mono hsub
  have hevery := Owner.step_every (J := J) (I := fun m => TableInv m ∧ Owned (s.step J o).offered m) ?_ ?_ s o ?_ ?_
    ⟨⟨h.facts.1.log.table, hmono _ h.owned.1⟩, fun m hm => ⟨(h.facts.2 m hm).log.table, hmono m (h.owned.2 m hm)⟩⟩
  · exact ⟨hevery.1.2, fun m hm => (hevery.2 m hm).2⟩
  · intro m o' hplay hoffer ⟨ht, hm⟩
    refine ⟨act_tableInv J (.call o') ht, fun p c hc => hm p c ?_⟩
    by_cases ho : o'.isCardCall = false
    · exact (holds_of_table (change_noCards (step_change J m o') ho).2).1 hc
    · cases o' with
      | classAssignment ids seed now => exact hc
      | pickOffer p' n seed now => exact absurd rfl (hoffer p' n seed now)
      | pickCard p' card seq e i now => exact pickCard_holds hc
      | playCard play now => exact absurd rfl (hplay play now)
      | _ => exact absurd rfl ho
  · intro m ⟨ht, hm⟩
    refine ⟨act_tableInv J .failover ht, fun p c hc => hm p c ?_⟩
    rcases failover_built J m with hf | ⟨-, -, hcards⟩
    · rwa [hf] at hc
    · refine (holds_of_table ?_).1 hc
      rw [hcards]
      exact ht.symm
  · intro play t hown ⟨ht, hm⟩
    refine ⟨act_tableInv J (.call (.playCard play t)) ht, fun p c hc => ?_⟩
    rcases playCard_holds hc with hold | ⟨rfl, rfl⟩
    · exact hm p c hold
    · cases hown with
      | command env now _ hv =>
        exact hm _ _ (.inr (Bool.or_eq_true_iff.2 (.inl hv.picked)))
      | bot i rnd now b _ hb hi =>
        obtain ⟨hby, hcard, -⟩ := botPlayInput_some hi
        rw [hby, hcard]
        exact (h.plays b (List.mem_of_getElem? hb)).mono hsub
  · intro i botIds rnd now q n ids ho hi ⟨ht, hm⟩
    refine ⟨Owner.makeOffers_keeps J (fun m o _ hm => act_tableInv J (.call o) hm) s.machine ids n botIds rnd now ht, ?_⟩
    rcases offered_step J s o with ⟨-, hnone⟩ | ⟨i', botIds', rnd', now', q', n', ids', ho', hi', -, hoff⟩
    · subst ho
      simp [offering, hi] at hnone
    · subst ho
      obtain ⟨rfl, rfl, rfl, rfl⟩ := Owner.OwnerOp.offers.inj ho'
      obtain ⟨rfl, rfl, rfl⟩ := RoundTask.offering.inj (Option.some.inj (hi.symm.trans hi'))
      rw [hoff]
      exact makeOffers_owned h.owned.1

theorem step_offerRun (J : StringOps) (o : Owner.OwnerOp) (honce : OncePerMilestone s o)
    (h : OfferRun roster s) : OfferRun roster (s.step J o) := by
  have hrules : s.TaskRules RoundTask.AtMilestone fun b => OwnCard (s.step J o).offered b.botId b.cardId :=
    { starting := fun _ => trivial
      started := fun _ hmile => List.contains_iff_mem.1 hmile
      offering := fun _ _ hn => ⟨hn, h.facts.1.wire.surviving⟩
      persisting := fun _ _ => trivial
      scheduling := fun _ _ => trivial
      plays := fun _ _ _ _ botId _ c _ hc =>
        (h.owned.1 botId c (.inr (Bool.or_eq_true_iff.2 (.inl hc)))).mono (offered_subset J s o) }
  obtain ⟨htasks, hplays⟩ := Owner.step_tasks J s o hrules h.tasks fun b hb => (h.plays b hb).mono (offered_subset J s o)
  have hfacts := step_facts J o h.facts
  have howned := step_owned J o h
  rcases offered_step J s o with ⟨hoff, -⟩ | ⟨i, botIds, rnd, now, q, n, ids, -, hi, hx, hoff⟩
  · refine ⟨hfacts, howned, hplays, htasks, ?_, ?_, ?_⟩ <;> rw [hoff]
    · exact h.sizes
    · exact h.rounds
    · exact h.once
  · obtain ⟨hmile, hids⟩ : n ∈ milestoneRounds ∧ ids.Nodup := h.tasks _ (List.mem_of_getElem? hi)
    obtain ⟨hsub, hmade⟩ := @makeOffers_offers s.machine n botIds rnd now ids
    refine ⟨hfacts, howned, hplays, htasks, ?_, ?_, ?_⟩ <;> rw [hoff]
    · intro a ha
      rcases List.mem_append.1 ha with ha | ha
      · exact h.sizes a ha
      · exact (hmade a ha).2
    · intro a ha
      rcases List.mem_append.1 ha with ha | ha
      · exact h.rounds a ha
      · rw [(hmade a ha).1]
        exact hmile
    · refine List.pairwise_append.2 ⟨h.once, ?_, fun a ha b hb _ => ?_⟩
      · have hdistinct := List.pairwise_map.1 (hsub.nodup hids)
        exact hdistinct.imp fun hne heq => absurd heq hne
      · rw [(hmade b hb).1]
        exact honce (n, ids) hx a ha

/-! ## At most six cards -/

/-- the offers a player has had before a milestone are two at most -/
theorem earlier_offers (h : OfferRun roster s) {n : ℕ} (hn : n ∈ milestoneRounds)
    (hfresh : ∀ a ∈ s.offered, a.roundNo ≠ n) (p : String) :
    (s.offered.filter fun a => a.playerId = p).length ≤ 2 := by
  have hrounds : ((s.offered.filter fun a => a.playerId = p).map MilestoneOffer.roundNo).Nodup := by
    refine List.pairwise_map.2 ((h.once.filter _).imp_of_mem fun ha hb hne => hne ?_)
    have hpa := (List.mem_filter.1 ha).2
    have hpb := (List.mem_filter.1 hb).2
    simp only [decide_eq_true_eq] at hpa hpb
    rw [hpa, hpb]
  have hsub : (s.offered.filter fun a => a.playerId = p).map MilestoneOffer.roundNo ⊆ milestoneRounds.erase n := by
    intro r hr
    obtain ⟨a, ha, rfl⟩ := List.mem_map.1 hr
    have hmem := (List.mem_filter.1 ha).1
    exact (List.mem_erase_of_ne (hfresh a hmem)).2 (h.rounds a hmem)
  have hle := (List.subperm_of_subset hrounds hsub).length_le
  rw [List.length_map, List.length_erase_of_mem hn] at hle
  exact hle

/-- the used cards of the class pool -/
def usedPool (m : Machine) (p : String) (classId : ClassId) : List CardId :=
  (getClassPool classId).filter fun c => isUsed m p c

/-- eight ATTACK cards and ten DEFENSE cards -/
theorem pool_sizes : (getClassPool .attack).length = 8 ∧ (getClassPool .defense).length = 10 := by decide +kernel

theorem pool_nodup (classId : ClassId) : (getClassPool classId).Nodup := by cases classId <;> decide +kernel

theorem usedPool_nodup (m : Machine) (p : String) (classId : ClassId) : (usedPool m p classId).Nodup :=
  (pool_nodup classId).filter _

theorem pool_split (m : Machine) (p : String) (classId : ClassId) :
    (usedPool m p classId).length + (unusedPool m p classId).length = (getClassPool classId).length :=
  (List.length_eq_length_filter_add _).symm

/-- the cards a player was offered -/
def ownCards (s : Owner) (p : String) : List CardId :=
  (s.offered.filter fun a => a.playerId = p).flatMap MilestoneOffer.offeredCards

theorem usedPool_subset (h : OfferRun roster s) (p : String) (classId : ClassId) :
    usedPool s.machine p classId ⊆ ownCards s p := by
  intro c hc
  obtain ⟨a, ha, hp, hin⟩ := h.owned.1 p c (.inr (List.mem_filter.1 hc).2)
  exact List.mem_flatMap.2 ⟨a, List.mem_filter.2 ⟨ha, by simpa using hp⟩, hin⟩

theorem ownCards_length (h : OfferRun roster s) (p : String) :
    (ownCards s p).length = 3 * (s.offered.filter fun a => a.playerId = p).length := by
  rw [ownCards, List.length_flatMap, List.map_congr_left fun a ha => h.sizes a (List.mem_filter.1 ha).1,
    List.map_const', List.sum_replicate, smul_eq_mul, mul_comm]

/-- **Six used cards are all the cards of two offers.** -/
theorem spent_of_used (h : OfferRun roster s) {p : String}
    (htwo : (s.offered.filter fun a => a.playerId = p).length ≤ 2) (hused : 6 ≤ (usedPool s.machine p .attack).length) :
    SpentTwoOffers s p := by
  have hlen := ownCards_length h p
  have hsubperm := List.subperm_of_subset (usedPool_nodup s.machine p .attack) (usedPool_subset h p .attack)
  have hperm := hsubperm.perm_of_length_le (by omega)
  have hsix := hperm.length_eq
  obtain ⟨a, b, hab⟩ := List.length_eq_two.1 (show (s.offered.filter fun a => a.playerId = p).length = 2 by omega)
  have hown : ownCards s p = a.offeredCards ++ b.offeredCards := by
    rw [ownCards, hab, List.flatMap_cons, List.flatMap_singleton]
  have hboth : ∀ x ∈ [a, b], x ∈ s.offered ∧ x.playerId = p := by
    intro x hx
    rw [← hab] at hx
    exact ⟨(List.mem_filter.1 hx).1, by simpa using (List.mem_filter.1 hx).2⟩
  rw [hown] at hperm
  refine ⟨a, (hboth a (by simp)).1, b, (hboth b (by simp)).1, (hboth a (by simp)).2, (hboth b (by simp)).2,
    hperm.nodup_iff.1 (usedPool_nodup s.machine p .attack), fun c hc => ?_⟩
  exact List.mem_filter.1 (hperm.mem_iff.2 hc)

theorem used_of_spent (h : OfferRun roster s) {p : String} (hspent : SpentTwoOffers s p) :
    6 ≤ (usedPool s.machine p .attack).length := by
  obtain ⟨a, ha, b, hb, -, -, hnodup, hall⟩ := hspent
  have hsub : a.offeredCards ++ b.offeredCards ⊆ usedPool s.machine p .attack := fun c hc =>
    List.mem_filter.2 (hall c hc)
  have hle := (List.subperm_of_subset hnodup hsub).length_le
  rwa [List.length_append, h.sizes a ha, h.sizes b hb] at hle

/-- **A fresh milestone's offer fits unless an ATTACK player has spent two offers.** -/
theorem fits_iff_not_spent (h : OfferRun roster s) {n : ℕ} (hn : n ∈ milestoneRounds)
    (hfresh : ∀ a ∈ s.offered, a.roundNo ≠ n) (p : String) :
    (∀ classId, s.machine.cards.playerClasses.get p = some classId → 3 ≤ (unusedPool s.machine p classId).length) ↔
      (s.machine.cards.playerClasses.get p = some .attack → ¬SpentTwoOffers s p) := by
  have htwo := earlier_offers h hn hfresh p
  have hown := ownCards_length h p
  constructor
  · intro hfit hclass hspent
    have hthree := hfit .attack hclass
    have hsix := used_of_spent h hspent
    have hsplit := pool_split s.machine p .attack
    rw [pool_sizes.1] at hsplit
    omega
  · intro hspent classId hclass
    have hsplit := pool_split s.machine p classId
    have hle := (List.subperm_of_subset (usedPool_nodup s.machine p classId) (usedPool_subset h p classId)).length_le
    cases classId with
    | attack =>
      rw [pool_sizes.1] at hsplit
      by_contra hshort
      exact hspent hclass (spent_of_used h htwo (by omega))
    | defense =>
      rw [pool_sizes.2] at hsplit
      omega

theorem offersFit_iff (h : OfferRun roster s) (o : Owner.OwnerOp) (honce : OncePerMilestone s o) :
    OffersFit s o ↔ NoneSpent s o := by
  rcases offered_step StringOps.ascii s o with ⟨-, hnone⟩ | ⟨i, botIds, rnd, now, q, n, ids, rfl, hi, hx, -⟩
  · refine iff_of_true ?_ fun x hx => by simp [hnone] at hx
    cases o with
    | offers i botIds rnd now =>
      intro q n ids hi
      simp [offering, hi] at hnone
    | _ => trivial
  · obtain ⟨hmile, hids⟩ : n ∈ milestoneRounds ∧ ids.Nodup := h.tasks _ (List.mem_of_getElem? hi)
    have hfresh := honce (n, ids) hx
    have hloop := @offersFit_loop n botIds rnd now ⟨s.machine, JsMap.empty, []⟩ ids hids
    simp only [fits_iff_not_spent h hmile hfresh] at hloop
    constructor
    · intro hfit x hmem
      obtain rfl := Option.some.inj (hx.symm.trans hmem)
      exact hloop.1 (hfit q n ids hi)
    · intro hspent q' n' ids' hi'
      obtain ⟨rfl, rfl, rfl⟩ := RoundTask.offering.inj (Option.some.inj (hi.symm.trans hi'))
      exact hloop.2 (hspent (n, ids) hx)

/-- **The milestone offers of a match fit exactly when no ATTACK player has spent two offers by the time it is made
another.** -/
theorem offers_fit_iff (J : StringOps) (matchId roomId : String) (players : List PlayerInfo)
    (hd : (players.map PlayerInfo.id).Nodup) (ops : List Owner.OwnerOp)
    (honce : Along (Owner.step J) OncePerMilestone (Owner.init (Machine.create matchId roomId players)) ops) :
    Along (Owner.step J) OffersFit (Owner.init (Machine.create matchId roomId players)) ops ↔
      Along (Owner.step J) NoneSpent (Owner.init (Machine.create matchId roomId players)) ops := by
  refine along_congr (Owner.step J) OncePerMilestone OffersFit NoneSpent (OfferRun (players.map PlayerInfo.id))
    (fun s o ho _ h => step_offerRun J o ho h) (fun s o ho h => offersFit_iff h o ho) _ ops honce ?_
  exact
    { facts := ⟨ownerFacts_create matchId roomId players hd, by simp [Owner.init]⟩
      owned := ⟨by simp [Owner.init, Owned, Holds, isUsed, getHand, getPickedCards, getPlayedCards, Machine.create,
        CardMirrors.empty, JsMap.empty, JsMap.get, getEntry], by simp [Owner.init]⟩
      plays := by simp [Owner.init]
      tasks := by simp [Owner.init]
      sizes := by simp [Owner.init]
      rounds := by simp [Owner.init]
      once := by simp [Owner.init] }

instance (s : Owner) (o : Owner.OwnerOp) : Decidable (OncePerMilestone s o) :=
  inferInstanceAs (Decidable (∀ x ∈ offering s o, ∀ a ∈ s.offered, a.roundNo ≠ x.1))

theorem offers_fit_iff_robo :
    let s := Owner.init (Machine.create "m1" "r1" [freshPlayer "alice", freshPlayer "bob", freshPlayer "robo"])
    Along (Owner.step StringOps.ascii) OffersFit s offeredRobo ↔
      Along (Owner.step StringOps.ascii) NoneSpent s offeredRobo :=
  offers_fit_iff StringOps.ascii "m1" "r1" [freshPlayer "alice", freshPlayer "bob", freshPlayer "robo"] (by decide)
    offeredRobo (by decide +kernel)

/-! ## Two offers spent -/

theorem alice_named : "alice" ≠ "" := by decide

/-- alice sends a card command -/
def aliceSends (eventId : String) (h : eventId ≠ "") (body : CommandBody) (t : Time) : Owner.OwnerOp :=
  .command ⟨eventId, "m1", "n1", 0, "alice", body, h, alice_named⟩ (Owner.clockAt t)

/-- alice picks and plays these cards of an offer on bob -/
def aliceUses (cards : List String) (offerSeqNo : ℕ) (t : Time) : List Owner.OwnerOp :=
  cards.flatMap fun card =>
    [aliceSends "e1" (by decide) (.cardPick card card offerSeqNo) t,
      aliceSends "e2" (by decide) (.cardPlay card card offerSeqNo (some "bob")) t]

/-- a round is started at a time, makes its offers, alice uses hers, and the round ends -/
def milestoneSpent (cards : List String) (offerSeqNo : ℕ) (t : Time) : List Owner.OwnerOp :=
  Owner.starts t ++
    [.milestone 0 (Owner.clockAt t), .offers 0 [] (fun _ => Owner.firstOne) fun _ => Owner.clockAt t,
      .offersStored 0, .scheduleBots 0 [] fun _ => Owner.firstOne] ++
    aliceUses cards offerSeqNo (t + 1000) ++ Owner.ends ["alice", "bob"] t

/-- alice uses the cards of rounds 5 and 12, and round 20 is about to make its offers -/
def spentAlice : List Owner.OwnerOp :=
  .call (.transition .countdown (Owner.clockAt 0)) :: Owner.survives ["alice", "bob"] 4 0 ++
    milestoneSpent ["CB-7", "CB-5", "CB-2"] 33 80000 ++ Owner.survives ["alice", "bob"] 6 100000 ++
    milestoneSpent ["CB-1", "CB-6", "CB-3"] 90 220000 ++ Owner.survives ["alice", "bob"] 7 240000 ++
    Owner.starts 380000 ++ [.milestone 0 (Owner.clockAt 380000)]

/-- alice has played all six cards she was offered; the third offer finds two cards left -/
theorem third_offer_throws :
    let s₀ := Owner.init (Machine.create "m1" "r1" [freshPlayer "alice", freshPlayer "bob"])
    let s := run (Owner.step StringOps.ascii) s₀ spentAlice
    let last : Owner.OwnerOp := .offers 0 [] (fun _ => Owner.firstOne) fun _ => Owner.clockAt 380000
    offering s last = some (20, ["alice", "bob"]) ∧ s.machine.cards.playerClasses.get "alice" = some .attack ∧
      (s.machine.pickOffer "alice" 20 (offerSeed s.machine.state.id 20 "alice") (Owner.clockAt 380000)).2 =
        .error (.offerSize 2) ∧
      Along (Owner.step StringOps.ascii) OncePerMilestone s₀ (spentAlice ++ [last]) ∧
      ¬Along (Owner.step StringOps.ascii) OffersFit s₀ (spentAlice ++ [last]) := by
  intro s₀ s last
  have hrun : offering s last = some (20, ["alice", "bob"]) ∧
      s.machine.cards.playerClasses.get "alice" = some .attack ∧
      (s.machine.pickOffer "alice" 20 (offerSeed s.machine.state.id 20 "alice") (Owner.clockAt 380000)).2 =
        .error (.offerSize 2) ∧
      Along (Owner.step StringOps.ascii) OncePerMilestone s₀ (spentAlice ++ [last]) := by decide +kernel
  obtain ⟨hoffering, hclass, hthrows, honce⟩ := hrun
  refine ⟨hoffering, hclass, hthrows, honce, fun h => ?_⟩
  have hlast := ((along_append _ _ _ _ _).1 h).2.1
  have hs : run (Owner.step StringOps.ascii) s₀ spentAlice = s := rfl
  rw [hs] at hlast
  clear_value s
  rcases offered_step StringOps.ascii s last with ⟨-, hnone⟩ | ⟨i, botIds, rnd, now, q, n, ids, ho, hi, hx, -⟩
  · rw [hnone] at hoffering
    cases hoffering
  · obtain ⟨rfl, rfl, rfl, rfl⟩ := Owner.OwnerOp.offers.inj ho
    obtain ⟨rfl, rfl⟩ := Prod.mk.inj (Option.some.inj (hx.symm.trans hoffering))
    exact (hlast q 20 _ hi).1 2 hthrows

end Arena.Api
