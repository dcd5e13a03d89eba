/-
Cards destroyed in a hand.

A resolved HAND_DESTROY carries the cards it destroys. `playCard` writes no hand, and neither does the replay of a
CARD_RESOLVED: a destroyed card that was in the hand of a target stays there and can still be picked.

- `absent_stays`: a card that is not in a hand stays out of it until the player's next offer;
- `destroyed_gone_iff`: along a run the destroyed cards are gone exactly when, at each such play, no target holds one;
- `drawn_from_hand`: the cards that the resolver destroys are cards of the hand it is given, so a resolution against a
  hand that is not empty breaks the rule;
- `destroyed_card_picked`: bob picks a card that alice destroyed.
-/
import Arena.GameCore.CardLog
import Arena.Api.Evidence

namespace Arena.Api

open Arena.Lib Arena.Shared Arena.GameCore Arena.GameCore.Machine

/-! ## Statement -/

/-- an accepted play that destroys these cards -/
def Destroys (m : Machine) (p : PlayInput) (cards : List CardId) : Prop :=
  m.AcceptsPlay ∧ ∃ count available, p.resolvedEffect = .handDestroy count available cards

/-- the player is given a new offer -/
def Reoffers (q : String) (m : Machine) : Action → Prop
  | .call (.pickOffer p roundNo seed now) => p = q ∧ ∃ cards, (m.pickOffer p roundNo seed now).2 = .ok cards
  | _ => False

/-- after the play no target holds or can pick a destroyed card before its next offer, on the live machine and after any
failover, and the other hands are what they were -/
structure CardsGone (J : StringOps) (m : Machine) (p : PlayInput) (now : Clock) (cards : List CardId) : Prop where
  targets : ∀ q ∈ p.targetPlayerIds, ∀ c ∈ cards, ∀ rest,
    Along (act J) (fun m a => ¬Reoffers q m a) (m.step J (.playCard p now)) rest →
      let m' := run (act J) (m.step J (.playCard p now)) rest
      c ∉ getHand m' q ∧
        ∀ seq eventId commandId t, (m'.pickCard q c seq eventId commandId t).2 = .error (.room .cardNotInHand)
  others : ∀ q ∉ p.targetPlayerIds, getHand (m.step J (.playCard p now)) q = getHand m q ∧
    getHand ((m.step J (.playCard p now)).failover J) q = getHand m q

/-- what a step destroys is gone -/
def DestroyedGone (J : StringOps) (m : Machine) : Action → Prop
  | .call (.playCard p now) => ∀ cards, Destroys m p cards → CardsGone J m p now cards
  | _ => True

/-- a step destroys no card that a target holds -/
def HandsSpared (m : Machine) : Action → Prop
  | .call (.playCard p _) => ∀ cards, Destroys m p cards → ∀ q ∈ p.targetPlayerIds, ∀ c ∈ cards, c ∉ getHand m q
  | _ => True

/-! ## Hands -/

theorem play_hand (J : StringOps) (m : Machine) (p : PlayInput) (now : Clock) (q : String) :
    getHand (m.step J (.playCard p now)) q = getHand m q := by
  by_cases hacc : m.AcceptsPlay
  · obtain ⟨round, -, hplay⟩ := playCard_accepted J p now hacc
    obtain ⟨-, hhands, -⟩ := play_cards m round p now
    rw [hplay, getHand, getHand, hhands]
  · rw [playCard_refused J p now hacc]

theorem failover_hand (J : StringOps) {m : Machine} (h : TableInv m) (q : String) :
    getHand (m.failover J) q = getHand m q := by
  have hlog := failover_eventLog J m
  have hafter := failover_tableInv J h
  rw [TableInv, hlog] at hafter
  obtain ⟨-, hhands, -⟩ := CardMirrors.table_eq_iff.1 (hafter.trans h.symm)
  rw [getHand, getHand, hhands]

theorem act_absent (J : StringOps) {m : Machine} (ht : TableInv m) {a : Action} {q : String} {c : CardId}
    (ha : ¬Reoffers q m a) (h : c ∉ getHand m q) : c ∉ getHand (m.act J a) q := by
  cases a with
  | failover =>
    simp only [act, failover_hand J ht]
    exact h
  | call o =>
    by_cases ho : ∀ r seed now, o ≠ .pickOffer q r seed now
    · exact change_hand (step_change J m o) ho h
    · simp only [ne_eq, not_forall, not_not] at ho
      obtain ⟨r, seed, now, rfl⟩ := ho
      -- the offer was rejected
      cases hres : (m.pickOffer q r seed now).2 with
      | ok cards => exact absurd ⟨rfl, cards, hres⟩ ha
      | error e =>
        simp only [act, step, exec, Outcome.wrap_fst, pickOffer_rejected m q r seed now e hres]
        exact h

/-- **A card out of a hand stays out of it** until the next offer to that player, whatever the calls and failovers. -/
theorem absent_stays (J : StringOps) {m : Machine} (ht : TableInv m) {q : String} {c : CardId} (h : c ∉ getHand m q)
    (rest : List Action) (hr : Along (act J) (fun m a => ¬Reoffers q m a) m rest) :
    c ∉ getHand (run (act J) m rest) q := by
  have hinv := run_inv (act J) (fun m a => ¬Reoffers q m a) (fun m => TableInv m ∧ c ∉ getHand m q)
    (fun m a ha hm => ⟨act_tableInv J a hm.1, act_absent J hm.1 ha hm.2⟩) m rest hr ⟨ht, h⟩
  exact hinv.2

theorem pickCard_absent {m : Machine} {q : String} {c : CardId} (h : c ∉ getHand m q) (seq : ℕ)
    (eventId commandId : Option String) (t : Clock) :
    (m.pickCard q c seq eventId commandId t).2 = .error (.room .cardNotInHand) := by
  unfold pickCard
  cases hh : m.cards.playerHands.get q with
  | none => rfl
  | some hand =>
    have hno : hand.contains c = false := by simpa [getHand, hh] using h
    simp only [hno, Bool.not_false, if_true]

/-! ## Exactly the spared hands -/

theorem cardsGone_iff (J : StringOps) {m : Machine} (ht : TableInv m) (p : PlayInput) (now : Clock)
    (cards : List CardId) :
    CardsGone J m p now cards ↔ ∀ q ∈ p.targetPlayerIds, ∀ c ∈ cards, c ∉ getHand m q := by
  have htable : TableInv (m.step J (.playCard p now)) := act_tableInv J (.call (.playCard p now)) ht
  constructor
  · intro h q hq c hc
    have hgone := (h.targets q hq c hc [] trivial).1
    rwa [run, List.foldl_nil, play_hand] at hgone
  · intro h
    refine ⟨fun q hq c hc rest hr => ?_, fun q _ => ⟨play_hand J m p now q, ?_⟩⟩
    · have hnow : c ∉ getHand (m.step J (.playCard p now)) q := by
        rw [play_hand]
        exact h q hq c hc
      have hlater := absent_stays J htable hnow rest hr
      exact ⟨hlater, pickCard_absent hlater⟩
    · rw [failover_hand J htable, play_hand]

/-- **Destroyed cards are gone exactly when no target holds one as the card is played.** -/
theorem destroyed_gone_iff (J : StringOps) (matchId roomId : String) (players : List PlayerInfo) (acts : List Action) :
    Along (act J) (DestroyedGone J) (Machine.create matchId roomId players) acts ↔
      Along (act J) HandsSpared (Machine.create matchId roomId players) acts := by
  refine along_congr (act J) (fun _ _ => True) (DestroyedGone J) HandsSpared TableInv
    (fun m a _ _ h => act_tableInv J a h) ?_ _ acts (along_true _ _ _) (logInv_create matchId roomId players).table
  intro m a _ ht
  cases a with
  | failover => exact Iff.rfl
  | call o =>
    cases o with
    | playCard p now => exact forall₂_congr fun cards _ => cardsGone_iff J ht p now cards
    | _ => exact Iff.rfl

/-- alice destroys TN-8 of bob's hand; bob still holds it, before and after a failover, and picks it -/
theorem destroyed_card_picked :
    let acts : List Action := [.call (.transition .countdown fun _ => 0), .call (.transition .roundActive fun _ => 0),
      .call (.startRound ⟨"q1", "2 + 2?", ["3", "4", "5", "6"], "4", none⟩ none fun _ => 0),
      .call (.classAssignment ["alice", "bob"] "s1" fun _ => 0), .call (.pickOffer "bob" 5 "s1" fun _ => 0)]
    let play : PlayInput := ⟨"alice", .cb3, 4, .handDestroy 1 3 [.tn8], ["bob"], 1000, none, none⟩
    let m := reach StringOps.ascii "m1" "r1" [freshPlayer "alice", freshPlayer "bob"] acts
    let m' := m.step StringOps.ascii (.playCard play fun _ => 1000)
    getHand m "bob" = [.tn8, .tn5, .tn7] ∧ Destroys m play [.tn8] ∧ CardId.tn8 ∈ getHand m' "bob" ∧
      CardId.tn8 ∈ getHand (m'.failover StringOps.ascii) "bob" ∧
      (m'.pickCard "bob" .tn8 5 none none fun _ => 2000).2 = .ok () ∧
      ¬Along (act StringOps.ascii) (DestroyedGone StringOps.ascii)
        (Machine.create "m1" "r1" [freshPlayer "alice", freshPlayer "bob"])
        (acts ++ [.call (.playCard play fun _ => 1000)]) := by
  intro acts play m m'
  have hrun : m.state.status = .roundActive ∧ m.currentRound.map Round.status = some .active ∧
      getHand m "bob" = [.tn8, .tn5, .tn7] ∧ CardId.tn8 ∈ getHand m' "bob" ∧
      CardId.tn8 ∈ getHand (m'.failover StringOps.ascii) "bob" ∧
      (m'.pickCard "bob" .tn8 5 none none fun _ => 2000).2 = .ok () := by decide +kernel
  obtain ⟨hs, hr, hhand, hheld, hkept, hpick⟩ := hrun
  have hdestroys : Destroys m play [.tn8] := by
    obtain ⟨round, hround, hactive⟩ := Option.map_eq_some_iff.1 hr
    exact ⟨⟨hs, round, hround, hactive⟩, 1, 3, rfl⟩
  refine ⟨hhand, hdestroys, hheld, hkept, hpick, fun h => ?_⟩
  have hplay := ((along_append _ _ _ _ _).1 h).2.1
  exact ((hplay [.tn8] hdestroys).targets "bob" (by simp [play]) .tn8 (by simp) [] trivial).1 hheld

/-! ## The resolver draws from the hand -/

/-- what CB-3 destroys are cards of the hand it is resolved against, as many as asked for and available -/
theorem drawn_from_hand {count : ℕ} {hand : List CardId} {rng : UInt32} {n available : ℕ} {cards : List CardId}
    (h : resolveHandDestroy count hand rng = .handDestroy n available cards) :
    cards ⊆ hand ∧ cards.length = min count hand.length := by
  obtain ⟨-, -, rfl⟩ := CardEffect.handDestroy.inj h
  have hlen : (jsSort compareCardId hand).length = hand.length := (jsSort_perm compareCardId hand).length_eq
  constructor
  · exact fun c hc => (mem_jsSort compareCardId hand c).1 (mem_drawRandom _ _ _ hc)
  · rw [drawRandom_length _ _ _ (Nat.min_le_right _ _), hlen]

/-- **Resolved against a hand with a card in it, CB-3 leaves a destroyed card in that hand.** -/
theorem resolved_hand_not_spared (J : StringOps) {m : Machine} (ht : TableInv m) {p : PlayInput} {q : String}
    (hq : q ∈ p.targetPlayerIds) {rng : UInt32} {ctx : ResolveContext} (hctx : ctx.targetHand = getHand m q)
    (heff : resolveCardEffect .cb3 rng ctx = .ok p.resolvedEffect) (hne : getHand m q ≠ []) (hacc : m.AcceptsPlay)
    (now : Clock) : ¬DestroyedGone J m (.call (.playCard p now)) := by
  intro h
  have hres : p.resolvedEffect = resolveHandDestroy 1 (getHand m q) rng := by
    have hok := Except.ok.inj heff
    rw [← hok, hctx]
  have hdrawn : resolveHandDestroy 1 (getHand m q) rng = resolveHandDestroy 1 (getHand m q) rng := rfl
  obtain ⟨hsub, hlen⟩ := drawn_from_hand hdrawn
  have hpos := List.length_pos_of_ne_nil hne
  obtain ⟨c, hc⟩ := List.exists_mem_of_length_pos (by rw [hlen]; omega)
  have hgone := h _ ⟨hacc, _, _, hres⟩
  exact (cardsGone_iff J ht p now _).1 hgone q hq c hc (hsub hc)

end Arena.Api
