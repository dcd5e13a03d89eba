/-
The cards of a match on its owner (`match-round-runner.ts`, `match-card-command-authoritative.ts`).

Cards reach the machine on three ways: the offers of a milestone round, made by `executeRound` after it has stored the
start of the round; the card commands of the clients; and the bots, which pick a card as it is offered and play it from
a timer of their own. Every `await` is a step boundary, so what an `executeRound` still has to do is a `RoundTask`, and
what a bot timer will do a `BotPlay`. All other calls of the match are `call` steps, in any order.

The blobs taken of the machine are kept in `saved`; `restore` decodes any of them. That is a failover, an eviction
followed by a read, and the reset after a refused persist at once. The machine is its value here: what two machine
objects of one node do to each other is the subject of `MatchService`.

`offered` lists the offers of the run. It is not part of the program's state, and no step reads it.
-/
import Arena.GameCore.Delta
import Arena.Api.Commands

namespace Arena.Api

open Arena.Lib Arena.Shared Arena.GameCore Arena.GameCore.Machine

/-! ## Model -/

/-- `MILESTONE_ROUNDS` -/
def milestoneRounds : List ℕ := [5, 12, 20]

def isMilestoneRound (roundNo : ℕ) : Bool := milestoneRounds.contains roundNo

/-- a value of `Math.random()` -/
structure Random where
  value : ℚ
  nonneg : 0 ≤ value
  lt_one : value < 1

/-- `xs[Math.floor(Math.random() * xs.length)]` -/
def Random.choose {α : Type} (r : Random) (xs : List α) : Option α := xs[(r.value * xs.length).floor.toNat]?

theorem Random.mem_of_choose {α : Type} {r : Random} {xs : List α} {x : α} (h : r.choose xs = some x) : x ∈ xs :=
  List.mem_of_getElem? h

/-- an offer made in the run -/
structure MilestoneOffer where
  playerId : String
  roundNo : ℕ
  offeredCards : List CardId
  offerSeqNo : ℕ
deriving DecidableEq

/-- the loop of `triggerMilestoneCardOffers` over the survivors -/
structure OfferLoop where
  machine : Machine
  botOfferSeqNos : JsMap String ℕ
  cardOffersToEmit : List MilestoneOffer

def offerSeed (matchId : String) (roundNo : ℕ) (playerId : String) : String :=
  matchId ++ ":offer:r" ++ toString roundNo ++ ":" ++ playerId

/-- the auto-pick of a bot; an error is logged -/
def autoPick (m : Machine) (playerId : String) (offeredCards : List CardId) (offerSeqNo : ℕ) (rnd : Random)
    (now : Clock) : Machine :=
  match rnd.choose offeredCards with
  | some chosenCard => (m.pickCard playerId chosenCard offerSeqNo none none now).1
  | none => m

/-- one survivor's turn; an error is logged -/
def offerTo (roundNo : ℕ) (botIds : List String) (rnd : String → Random) (now : String → Clock) (s : OfferLoop)
    (playerId : String) : OfferLoop :=
  match s.machine.pickOffer playerId roundNo (offerSeed s.machine.state.id roundNo playerId) (now playerId) with
  | (m, .error _) => { s with machine := m }
  | (m, .ok offeredCards) =>
    let offerSeqNo := m.getHeadSeqNo
    let offers := s.cardOffersToEmit ++ [⟨playerId, roundNo, offeredCards, offerSeqNo⟩]
    if playerId ∈ botIds then
      ⟨autoPick m playerId offeredCards offerSeqNo (rnd playerId) (laterClock (now playerId)),
        s.botOfferSeqNos.set playerId offerSeqNo, offers⟩
    else ⟨m, s.botOfferSeqNos, offers⟩

def makeOffers (m : Machine) (survivingPlayerIds : List String) (roundNo : ℕ) (botIds : List String)
    (rnd : String → Random) (now : String → Clock) : OfferLoop :=
  survivingPlayerIds.foldl (offerTo roundNo botIds rnd now) ⟨m, JsMap.empty, []⟩

def hasClassAssignments (m : Machine) : Bool := 0 < m.cards.playerClasses.size

/-- classes are assigned at the first milestone -/
def ensureClasses (m : Machine) (now : Clock) : Machine :=
  if hasClassAssignments m then m
  else (m.classAssignment m.state.players.keys (m.state.id ++ ":class") now).1

/-- the closure of an armed bot play -/
structure BotPlay where
  botId : String
  cardId : CardId
  offerSeqNo : ℕ
  question : QuestionInput
deriving DecidableEq

/-- `scheduleBotCardPlays`: the plays armed -/
def scheduleBotCardPlays (m : Machine) (botPlayerIds : List String) (question : QuestionInput)
    (botOfferSeqNos : JsMap String ℕ) (rnd : String → Random) : List BotPlay :=
  if m.state.survivingPlayerIds.length ≤ 1 then []
  else botPlayerIds.filterMap fun botId =>
    match botOfferSeqNos.get botId with
    | none => none
    | some offerSeqNo =>
      let playableCards := (getPickedCards m botId).elems.filter fun c => !(m.getPlayedCards botId).has c
      ((rnd botId).choose playableCards).map fun cardId => ⟨botId, cardId, offerSeqNo, question⟩

/-- an attack goes to a random other survivor, a defence to the bot itself -/
def botTarget (m : Machine) (play : BotPlay) (rnd : Random) : Option String :=
  if isAttackCard play.cardId then rnd.choose (m.state.survivingPlayerIds.filter fun id => id ≠ play.botId)
  else some play.botId

/-- what the callback of a bot play gives to `playCard` -/
def botPlayInput (m : Machine) (play : BotPlay) (rnd : Random) (now : Time) : Option PlayInput :=
  match m.currentRound with
  | none => none
  | some round =>
    if m.state.status ≠ .roundActive ∨ round.endsAt ≤ now then none
    else
      match botTarget m play rnd with
      | none => none
      | some target =>
        let rng := makeCardResolveRng m.state.id play.botId round.roundNo play.offerSeqNo play.cardId
        match resolveCardEffect play.cardId rng
          ⟨getHand m target, some play.question.options, some play.question.correctAnswer, round.roundNo⟩ with
        | .error _ => none
        | .ok effect =>
          some ⟨play.botId, play.cardId, play.offerSeqNo, effect, [target], min now round.endsAt, none, none⟩

/-- what is left to do of an `executeRound` -/
inductive RoundTask where
  /-- the persist of the started round -/
  | starting (question : QuestionInput)
  /-- `triggerMilestoneCardOffers` up to the bot ids -/
  | started (question : QuestionInput) (roundNo : ℕ)
  | offering (question : QuestionInput) (roundNo : ℕ) (survivingPlayerIds : List String)
  /-- the persist of the offers -/
  | persisting (question : QuestionInput) (botOfferSeqNos : JsMap String ℕ)
  /-- `scheduleBotAnswers` after the bot ids -/
  | scheduling (question : QuestionInput) (survivingPlayerIds : List String) (botOfferSeqNos : JsMap String ℕ)
deriving DecidableEq

structure Owner where
  machine : Machine
  saved : List Machine
  tasks : List RoundTask
  plays : List BotPlay
  offered : List MilestoneOffer

namespace Owner

def init (m : Machine) : Owner := ⟨m, [], [], [], []⟩

inductive OwnerOp where
  /-- any call of the machine but the card calls and `startRound` -/
  | call (o : Op)
  | startRound (question : QuestionInput) (roundDurationMs : Option Time) (now : Clock)
  /-- the persist of a start is APPLIED -/
  | started (i : ℕ)
  | milestone (i : ℕ) (now : Clock)
  | offers (i : ℕ) (botIds : List String) (rnd : String → Random) (now : String → Clock)
  /-- the persist of the offers is APPLIED; a refused one is a `restore`, and the task goes no further -/
  | offersStored (i : ℕ)
  | scheduleBots (i : ℕ) (botIds : List String) (rnd : String → Random)
  | botPlay (i : ℕ) (rnd : Random) (now : Clock)
  /-- the owner applies a command -/
  | command (env : CommandEnvelope) (now : Clock)
  /-- a blob is taken -/
  | save
  | restore (i : ℕ)

def isOwnerCall : Op → Bool
  | .startRound .. => false
  | o => !o.isCardCall

def setTask (s : Owner) (i : ℕ) (t : RoundTask) : Owner := { s with tasks := s.tasks.set i t }

def startRound (s : Owner) (question : QuestionInput) (roundDurationMs : Option Time) (now : Clock) : Owner :=
  match s.machine.startRound question roundDurationMs now with
  | (m, .error _) => { s with machine := m }
  | (m, .ok _) => { s with machine := m, tasks := s.tasks ++ [.starting question] }

def started (s : Owner) (i : ℕ) : Owner :=
  match s.tasks[i]? with
  | some (.starting question) =>
    if isMilestoneRound s.machine.state.currentRoundNo then
      s.setTask i (.started question s.machine.state.currentRoundNo)
    else { s with tasks := s.tasks.eraseIdx i }
  | _ => s

def milestone (s : Owner) (i : ℕ) (now : Clock) : Owner :=
  match s.tasks[i]? with
  | some (.started question roundNo) =>
    { s with machine := ensureClasses s.machine now, saved := s.saved ++ [s.machine] }.setTask i
      (.offering question roundNo s.machine.state.survivingPlayerIds)
  | _ => s

def offers (s : Owner) (i : ℕ) (botIds : List String) (rnd : String → Random) (now : String → Clock) : Owner :=
  match s.tasks[i]? with
  | some (.offering question roundNo survivingPlayerIds) =>
    let loop := makeOffers s.machine survivingPlayerIds roundNo botIds rnd now
    { s with machine := loop.machine, offered := s.offered ++ loop.cardOffersToEmit }.setTask i
      (.persisting question loop.botOfferSeqNos)
  | _ => s

def offersStored (s : Owner) (i : ℕ) : Owner :=
  match s.tasks[i]? with
  | some (.persisting question botOfferSeqNos) =>
    s.setTask i (.scheduling question s.machine.state.survivingPlayerIds botOfferSeqNos)
  | _ => s

def scheduleBots (s : Owner) (i : ℕ) (botIds : List String) (rnd : String → Random) : Owner :=
  match s.tasks[i]? with
  | some (.scheduling question survivingPlayerIds botOfferSeqNos) =>
    let botPlayerIds := survivingPlayerIds.filter fun id => id ∈ botIds
    { s with
      tasks := s.tasks.eraseIdx i
      plays := s.plays ++ scheduleBotCardPlays s.machine botPlayerIds question botOfferSeqNos rnd }
  | _ => s

def botPlay (s : Owner) (i : ℕ) (rnd : Random) (now : Clock) : Owner :=
  match s.plays[i]? with
  | none => s
  | some play =>
    { s with
      machine := match botPlayInput s.machine play rnd (now 0) with
        | some input => (s.machine.playCard input (laterClock now)).1
        | none => s.machine
      plays := s.plays.eraseIdx i }

def restore (J : StringOps) (s : Owner) (i : ℕ) : Owner :=
  match s.saved[i]? with
  | none => s
  | some blob =>
    match deserialize J (some blob.serialize) with
    | .error _ => s
    | .ok m => { s with machine := m }

def step (J : StringOps) (s : Owner) : OwnerOp → Owner
  | .call o => if isOwnerCall o then { s with machine := s.machine.step J o } else s
  | .startRound question roundDurationMs now => s.startRound question roundDurationMs now
  | .started i => s.started i
  | .milestone i now => s.milestone i now
  | .offers i botIds rnd now => s.offers i botIds rnd now
  | .offersStored i => s.offersStored i
  | .scheduleBots i botIds rnd => s.scheduleBots i botIds rnd
  | .botPlay i rnd now => s.botPlay i rnd now
  | .command env now => { s with machine := (dispatchBuiltin J s.machine env now).1 }
  | .save => { s with saved := s.saved ++ [s.machine] }
  | .restore i => s.restore J i

end Owner

/-! ## What the owner checks of a play -/

/-- what a card command has passed when it plays -/
structure ValidPlay (m : Machine) (p : PlayInput) : Prop where
  offered : ∃ ids, getCardOfferForPlayer m p.playedByPlayerId p.offerSeqNo = some ids ∧ p.cardId ∈ ids
  picked : (getPickedCards m p.playedByPlayerId).has p.cardId = true
  unplayed : (m.getPlayedCards p.playedByPlayerId).has p.cardId = false
  targets : ∀ t ∈ p.targetPlayerIds, isEligible m t = true
  budget : 1 < p.targetPlayerIds.length → ∀ r, m.currentRound = some r →
    m.getAoeCountForRound r.roundNo < aoeCapPerRound

theorem validateCardCommand_checks {cardId : String} {offered : List CardId} {target : Option String}
    {roster : List String} {aoe : ℕ} {played picked : JsSet CardId} {userId : String} {id : CardId}
    (h : validateCardCommand cardId offered target roster aoe played picked userId = .ok id) :
    picked.has id = true ∧ id ∈ offered ∧ played.has id = false ∧ (isAoeCard id = true → aoe < aoeCapPerRound) := by
  unfold validateCardCommand at h
  cases hc : assertCardId cardId with
  | error e =>
    rw [hc] at h
    cases h
  | ok id' =>
    rw [hc] at h
    simp only [bind, Except.bind, pure, Except.pure, throw, throwThe, MonadExceptOf.throw, validatePickedCard,
      validateOfferCorrelation, validateAoeBudget] at h
    by_cases h1 : picked.has id' = true
    · by_cases h2 : id' ∈ offered
      · by_cases h3 : played.has id' = true
        · simp [h1, h2, h3] at h
        · simp only [h1, h2, h3, if_true, if_false, Bool.false_eq_true] at h
          cases hv : validateTarget id' target roster userId with
          | error e =>
            rw [hv] at h
            cases h
          | ok u =>
            rw [hv] at h
            by_cases h4 : isAoeCard id' = true ∧ aoeCapPerRound ≤ aoe
            · simp [h4] at h
            · simp only [h4, if_false] at h
              obtain rfl := Except.ok.inj h
              exact ⟨h1, h2, by simpa using h3, fun ha => by_contra fun hn => h4 ⟨ha, by omega⟩⟩
      · simp [h1, h2] at h
    · simp [h1] at h

/-- the targets of a play are eligible, and there is more than one only for an AOE card -/
theorem expandCardTargets_eligible (matchId : String) (cardId : CardId) (playedBy : String) (target : Option String)
    (roundNo offerSeqNo : ℕ) (m : Machine) :
    (∀ t ∈ expandCardTargets matchId cardId playedBy target roundNo offerSeqNo m, isEligible m t = true) ∧
      (1 < (expandCardTargets matchId cardId playedBy target roundNo offerSeqNo m).length →
        isAoeCard cardId = true) := by
  unfold expandCardTargets
  simp only []
  split_ifs with hcount helig
  · refine ⟨fun t ht => ?_, fun hlen => absurd hlen (by simp)⟩
    rw [List.mem_singleton.1 ht]
    exact helig
  · exact ⟨fun t ht => absurd ht List.not_mem_nil, fun hlen => absurd hlen (by simp)⟩
  · refine ⟨fun t ht => ?_, fun _ => ?_⟩
    · have hmem := (mem_jsSort compareText _ t).1 (mem_drawRandom _ _ _ ht)
      have hboth := (List.mem_filter.1 hmem).2
      rw [Bool.and_eq_true] at hboth
      exact hboth.2
    · unfold isAoeCard
      cases hc : (effectTemplate cardId).targetCount with
      | none => simp [hc] at hcount
      | some n =>
        simp only [hc, Option.getD_some] at hcount
        simp only [Option.any_some, decide_eq_true_eq]
        omega

section Dispatch

variable {J : StringOps} {m : Machine} {env : CommandEnvelope} {now : Clock}

/-- what an apply does to the machine: nothing, a call that is no play, or a play that has passed the checks -/
inductive Dispatched (J : StringOps) (m : Machine) (now : Clock) : Machine → Prop where
  | same : Dispatched J m now m
  | other (o : Op) (ho : ∀ p t, o ≠ .playCard p t) (hoffer : ∀ p n seed t, o ≠ .pickOffer p n seed t) :
      Dispatched J m now (m.step J o)
  | play (p : PlayInput) (hv : ValidPlay m p) : Dispatched J m now (m.step J (.playCard p (laterClock now)))

theorem resolveAndPlay_dispatched {round : Round} {id : CardId} {commandId : String} {offerSeqNo : ℕ}
    {target : Option String} (hr : m.currentRound = some round)
    (hoff : ∃ ids, getCardOfferForPlayer m env.userId offerSeqNo = some ids ∧ id ∈ ids)
    (hpick : (getPickedCards m env.userId).has id = true) (hnew : (m.getPlayedCards env.userId).has id = false)
    (haoe : isAoeCard id = true → m.getAoeCountForRound round.roundNo < aoeCapPerRound) :
    Dispatched J m now (resolveAndPlay m env round id commandId offerSeqNo target now).1 := by
  obtain ⟨helig, hmany⟩ := expandCardTargets_eligible env.matchId id env.userId target round.roundNo offerSeqNo m
  unfold resolveAndPlay
  simp only []
  split
  · exact .same
  · rename_i first rest htargets
    split
    · exact .same
    · rename_i effect heffect
      have hvalid : ValidPlay m ⟨env.userId, id, offerSeqNo, effect, first :: rest, now 0, some env.eventId,
          some commandId⟩ :=
        { offered := hoff
          picked := hpick
          unplayed := hnew
          targets := fun t ht => helig t (by rw [htargets]; exact ht)
          budget := fun hlen r hr' => by
            obtain rfl := Option.some.inj (hr.symm.trans hr')
            exact haoe (hmany (by rw [htargets]; exact hlen)) }
      split
      · rename_i m' r hx
        rw [show m' = m.step J (.playCard _ (laterClock now)) from (congrArg Prod.fst hx).symm]
        rw [htargets]
        exact .play _ hvalid
      · rename_i m' e hx
        have hm : m' = m := by
          have h := Machine.playCard_rejected m _ _ e (congrArg Prod.snd hx)
          rw [hx] at h
          exact h
        rw [hm]
        split_ifs
        · exact .same
        · exact .same

theorem applyCardPlayCommand_dispatched {commandId cardId : String} {offerSeqNo : ℕ} {target : Option String} :
    Dispatched J m now (applyCardPlayCommand m env commandId cardId offerSeqNo target now).1 := by
  unfold applyCardPlayCommand
  split
  · exact .same
  · split_ifs
    · exact .same
    · split
      · exact .same
      · rename_i round hr
        split_ifs
        · exact .same
        · split
          · exact .same
          · rename_i id hid
            obtain ⟨hpick, hoff, hnew, haoe⟩ := validateCardCommand_checks hid
            refine resolveAndPlay_dispatched hr ?_ hpick hnew haoe
            cases ho : getCardOfferForPlayer m env.userId offerSeqNo with
            | none =>
              rw [ho] at hoff
              cases hoff
            | some ids =>
              rw [ho] at hoff
              exact ⟨ids, rfl, hoff⟩

theorem dispatchBuiltin_dispatched : Dispatched J m now (dispatchBuiltin J m env now).1 := by
  by_cases hplay : ∃ commandId cardId offerSeqNo target, env.body = .cardPlay commandId cardId offerSeqNo target
  · obtain ⟨commandId, cardId, offerSeqNo, target, hb⟩ := hplay
    unfold dispatchBuiltin
    rw [hb]
    exact applyCardPlayCommand_dispatched
  · have ha := dispatchBuiltin_applies J m env now
    generalize dispatchBuiltin J m env now = r at ha ⊢
    cases ha with
    | nothing => exact .same
    | play commandId cardId offerSeqNo target input hb _ _ _ =>
      exact absurd ⟨commandId, cardId, offerSeqNo, target, hb⟩ hplay
    | answer => exact .other _ (by simp) (by simp)
    | disconnect => exact .other _ (by simp) (by simp)
    | pick => exact .other _ (by simp) (by simp)
    | vote => exact .other _ (by simp) (by simp)

end Dispatch

/-! ## The machines of a run -/

namespace Owner

/-- the machine and every blob of it -/
def Every (I : Machine → Prop) (s : Owner) : Prop := I s.machine ∧ ∀ m ∈ s.saved, I m

/-- the play a step may make -/
inductive OwnPlay (s : Owner) : OwnerOp → PlayInput → Prop where
  | command (env : CommandEnvelope) (now : Clock) (p : PlayInput) (hv : ValidPlay s.machine p) :
      OwnPlay s (.command env now) p
  | bot (i : ℕ) (rnd : Random) (now : Clock) (play : BotPlay) (p : PlayInput) (hp : s.plays[i]? = some play)
      (hi : botPlayInput s.machine play rnd (now 0) = some p) : OwnPlay s (.botPlay i rnd now) p

section Every

variable {J : StringOps} {I : Machine → Prop}

theorem autoPick_keeps (J : StringOps) (hop : ∀ m o, (∀ p t, o ≠ Op.playCard p t) → I m → I (m.step J o)) {m : Machine}
    (playerId : String) (cards : List CardId) (seq : ℕ) (rnd : Random) (now : Clock) (h : I m) :
    I (autoPick m playerId cards seq rnd now) := by
  unfold autoPick
  split
  · rename_i chosen _
    exact hop m (.pickCard playerId chosen seq none none now) (by simp) h
  · exact h

theorem offerTo_keeps (J : StringOps) (hop : ∀ m o, (∀ p t, o ≠ Op.playCard p t) → I m → I (m.step J o)) (roundNo : ℕ)
    (botIds : List String) (rnd : String → Random) (now : String → Clock) (l : OfferLoop) (p : String)
    (h : I l.machine) : I (offerTo roundNo botIds rnd now l p).machine := by
  have hoffer := hop l.machine (.pickOffer p roundNo (offerSeed l.machine.state.id roundNo p) (now p)) (by simp) h
  unfold offerTo
  split
  · rename_i m e hx
    rw [show m = l.machine.step J (.pickOffer p roundNo (offerSeed l.machine.state.id roundNo p) (now p)) from
      (congrArg Prod.fst hx).symm]
    exact hoffer
  · rename_i m cards hx
    rw [show m = l.machine.step J (.pickOffer p roundNo (offerSeed l.machine.state.id roundNo p) (now p)) from
      (congrArg Prod.fst hx).symm]
    simp only []
    split_ifs
    · exact autoPick_keeps J hop p cards _ _ _ hoffer
    · exact hoffer

theorem makeOffers_keeps (J : StringOps) (hop : ∀ m o, (∀ p t, o ≠ Op.playCard p t) → I m → I (m.step J o))
    (m : Machine) (ids : List String) (roundNo : ℕ) (botIds : List String) (rnd : String → Random)
    (now : String → Clock) (h : I m) : I (makeOffers m ids roundNo botIds rnd now).machine := by
  have hfold : ∀ l : OfferLoop, I l.machine → I (ids.foldl (offerTo roundNo botIds rnd now) l).machine := by
    induction ids with
    | nil => exact fun l hl => hl
    | cons p ids ih => exact fun l hl => ih _ (offerTo_keeps J hop roundNo botIds rnd now l p hl)
  exact hfold ⟨m, JsMap.empty, []⟩ h

/-- **What the other calls and failovers keep, every step of the owner keeps** if its play and its offers do. -/
theorem step_every
    (hop : ∀ m o, (∀ p t, o ≠ Op.playCard p t) → (∀ p n seed t, o ≠ Op.pickOffer p n seed t) → I m → I (m.step J o))
    (hfail : ∀ m, I m → I (m.failover J)) (s : Owner) (o : OwnerOp)
    (hplay : ∀ p t, OwnPlay s o p → I s.machine → I (s.machine.step J (.playCard p t)))
    (hoffers : ∀ i botIds rnd now q n ids, o = .offers i botIds rnd now → s.tasks[i]? = some (.offering q n ids) →
      I s.machine → I (makeOffers s.machine ids n botIds rnd now).machine) (h : s.Every I) : (s.step J o).Every I := by
  obtain ⟨hm, hs⟩ := h
  have hsave : ∀ m ∈ s.saved ++ [s.machine], I m := by
    intro m hmem
    rcases List.mem_append.1 hmem with hmem | hmem
    · exact hs m hmem
    · rw [List.mem_singleton.1 hmem]
      exact hm
  cases o with
  | call o =>
    simp only [step]
    split_ifs with ho
    · refine ⟨hop s.machine o ?_ ?_ hm, hs⟩
      · rintro p t rfl
        cases ho
      · rintro p n seed t rfl
        cases ho
    · exact ⟨hm, hs⟩
  | startRound q d now =>
    simp only [step, startRound]
    split
    · rename_i m e hx
      rw [show m = s.machine.step J (.startRound q d now) from (congrArg Prod.fst hx).symm]
      exact ⟨hop _ _ (by simp) (by simp) hm, hs⟩
    · rename_i m r hx
      rw [show m = s.machine.step J (.startRound q d now) from (congrArg Prod.fst hx).symm]
      exact ⟨hop _ _ (by simp) (by simp) hm, hs⟩
  | started i =>
    simp only [step, started]
    split
    · split_ifs <;> exact ⟨hm, hs⟩
    · exact ⟨hm, hs⟩
  | milestone i now =>
    simp only [step, milestone]
    split
    · refine ⟨?_, hsave⟩
      simp only [setTask, ensureClasses]
      split_ifs
      · exact hm
      · exact hop s.machine (.classAssignment _ _ now) (by simp) (by simp) hm
    · exact ⟨hm, hs⟩
  | offers i botIds rnd now =>
    simp only [step, offers]
    split
    · rename_i q n ids hi
      exact ⟨hoffers i botIds rnd now q n ids rfl hi hm, hs⟩
    · exact ⟨hm, hs⟩
  | offersStored i =>
    simp only [step, offersStored]
    split <;> exact ⟨hm, hs⟩
  | scheduleBots i botIds rnd =>
    simp only [step, scheduleBots]
    split <;> exact ⟨hm, hs⟩
  | botPlay i rnd now =>
    simp only [step, botPlay]
    cases hp : s.plays[i]? with
    | none => exact ⟨hm, hs⟩
    | some play =>
      dsimp only
      refine ⟨?_, hs⟩
      cases hi : botPlayInput s.machine play rnd (now 0) with
      | none => exact hm
      | some p => exact hplay p (laterClock now) (.bot i rnd now play p hp hi) hm
  | command env now =>
    refine ⟨?_, hs⟩
    simp only [step]
    have hd : Dispatched J s.machine now (dispatchBuiltin J s.machine env now).1 := dispatchBuiltin_dispatched
    generalize (dispatchBuiltin J s.machine env now).1 = m' at hd ⊢
    cases hd with
    | same => exact hm
    | other o ho hno => exact hop _ o ho hno hm
    | play p hv => exact hplay p (laterClock now) (.command env now p hv) hm
  | save => exact ⟨hm, hsave⟩
  | restore i =>
    simp only [step, restore]
    cases hi : s.saved[i]? with
    | none => exact ⟨hm, hs⟩
    | some blob =>
      dsimp only
      cases hd : deserialize J (some blob.serialize) with
      | error e => exact ⟨hm, hs⟩
      | ok m =>
        have hback : m = blob.failover J := by
          unfold failover
          rw [hd]
        refine ⟨?_, hs⟩
        simp only [hback]
        exact hfail blob (hs blob (List.mem_of_getElem? hi))

end Every

/-! ## The tasks and the bot plays of a run -/

/-- what a step may add to the tasks and the bot plays, given facts of each -/
structure TaskRules (s : Owner) (T : RoundTask → Prop) (B : BotPlay → Prop) : Prop where
  starting : ∀ q, T (.starting q)
  started : ∀ q, isMilestoneRound s.machine.state.currentRoundNo = true → T (.started q s.machine.state.currentRoundNo)
  offering : ∀ q n, T (.started q n) → T (.offering q n s.machine.state.survivingPlayerIds)
  persisting : ∀ q seqs, T (.persisting q seqs)
  scheduling : ∀ q seqs, T (.scheduling q s.machine.state.survivingPlayerIds seqs)
  plays : ∀ q ids seqs, T (.scheduling q ids seqs) → ∀ botId ∈ ids, ∀ cardId seq,
    (getPickedCards s.machine botId).has cardId = true → B ⟨botId, cardId, seq, q⟩

/-- **Task rule.** What holds of the tasks and the bot plays of a run, by what a step may add to them. -/
theorem step_tasks {T : RoundTask → Prop} {B : BotPlay → Prop} (J : StringOps) (s : Owner) (o : OwnerOp)
    (rules : TaskRules s T B) (ht : ∀ t ∈ s.tasks, T t) (hb : ∀ b ∈ s.plays, B b) :
    (∀ t ∈ (s.step J o).tasks, T t) ∧ ∀ b ∈ (s.step J o).plays, B b := by
  have hset : ∀ (i : ℕ) (t : RoundTask), T t → ∀ t' ∈ s.tasks.set i t, T t' := by
    intro i t hT t' hmem
    rcases List.mem_or_eq_of_mem_set hmem with hmem | rfl
    · exact ht t' hmem
    · exact hT
  have herase : ∀ i : ℕ, ∀ t ∈ s.tasks.eraseIdx i, T t := fun i t hmem => ht t (List.mem_of_mem_eraseIdx hmem)
  cases o with
  | call o =>
    simp only [step]
    split_ifs <;> exact ⟨ht, hb⟩
  | startRound q d now =>
    simp only [step, startRound]
    split
    · exact ⟨ht, hb⟩
    · refine ⟨fun t hmem => ?_, hb⟩
      rcases List.mem_append.1 hmem with hmem | hmem
      · exact ht t hmem
      · rw [List.mem_singleton.1 hmem]
        exact rules.starting q
  | started i =>
    simp only [step, started]
    split
    · split_ifs with hmile
      · exact ⟨hset i _ (rules.started _ hmile), hb⟩
      · exact ⟨herase i, hb⟩
    · exact ⟨ht, hb⟩
  | milestone i now =>
    simp only [step, milestone]
    split
    · rename_i q n hi
      exact ⟨hset i _ (rules.offering q n (ht _ (List.mem_of_getElem? hi))), hb⟩
    · exact ⟨ht, hb⟩
  | offers i botIds rnd now =>
    simp only [step, offers]
    split
    · exact ⟨hset i _ (rules.persisting _ _), hb⟩
    · exact ⟨ht, hb⟩
  | offersStored i =>
    simp only [step, offersStored]
    split
    · exact ⟨hset i _ (rules.scheduling _ _), hb⟩
    · exact ⟨ht, hb⟩
  | scheduleBots i botIds rnd =>
    simp only [step, scheduleBots]
    split
    · rename_i q ids seqs hi
      refine ⟨herase i, fun b hmem => ?_⟩
      rcases List.mem_append.1 hmem with hmem | hmem
      · exact hb b hmem
      · unfold scheduleBotCardPlays at hmem
        split_ifs at hmem
        · cases hmem
        · obtain ⟨botId, hbot, harm⟩ := List.mem_filterMap.1 hmem
          split at harm
          · cases harm
          · obtain ⟨c, hc, rfl⟩ := Option.map_eq_some_iff.1 harm
            have hpicked := (List.mem_filter.1 (Random.mem_of_choose hc)).1
            exact rules.plays q ids seqs (ht _ (List.mem_of_getElem? hi)) botId (List.mem_filter.1 hbot).1 c _
              (decide_eq_true hpicked)
    · exact ⟨ht, hb⟩
  | botPlay i rnd now =>
    simp only [step, botPlay]
    split
    · exact ⟨ht, hb⟩
    · exact ⟨ht, fun b hmem => hb b (List.mem_of_mem_eraseIdx hmem)⟩
  | command env now => exact ⟨ht, hb⟩
  | save => exact ⟨ht, hb⟩
  | restore i =>
    simp only [step, restore]
    split
    · exact ⟨ht, hb⟩
    · split <;> exact ⟨ht, hb⟩

/-! ## Parts of schedules -/

def firstOne : Random := ⟨0, le_rfl, by norm_num⟩

def clockAt (t : Time) : Clock := fun _ => t

/-- a round starts at a time, and its start is stored -/
def starts (t : Time) : List OwnerOp :=
  [.call (.transition .roundActive (clockAt t)),
    .startRound ⟨"q1", "2 + 2?", ["3", "4", "5", "6"], "4", none⟩ none (clockAt t), .started 0]

/-- these players answer right, and the round ends -/
def ends (playerIds : List String) (t : Time) : List OwnerOp :=
  playerIds.map (fun p => .call (.submitAnswer p "b" (t + 5000) none (clockAt (t + 5000)))) ++
    [.call (.transition .roundEvaluating (clockAt (t + 15000))), .call (.evaluateRound (clockAt (t + 15000))),
      .call (.transition .roundResult (clockAt (t + 15000)))]

/-- as many rounds, 20 s apart, that these players survive -/
def survives (playerIds : List String) : ℕ → Time → List OwnerOp
  | 0, _ => []
  | n + 1, t => starts t ++ ends playerIds t ++ survives playerIds n (t + 20000)

end Owner

end Arena.Api
