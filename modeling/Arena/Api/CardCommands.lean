/-
What the owner checks of a card command (`card-validator.ts`, `match-card-targeting.ts`, `match-card-command.helpers.ts`):
the validator, the expansion of targets, and the search for the canonical event of an earlier delivery.

`CommandError` is what a rejected command is answered with; `code` is the code `emitPlayerCommandError` sends, which is
INVALID_PAYLOAD for every error that is not a `RoomError`.
-/
import Arena.GameCore.Machine
import Arena.GameCore.CardEffects

namespace Arena.Api

open Arena.Lib Arena.Shared Arena.GameCore

/-! ## Errors -/

inductive CommandError where
  | room (code : ErrorCode)
  | cardNotFound
  | invalidPayload
  | aoeCapExhausted
  | spectatorCannotAnswer
  | playerDisconnected
  | commandIdConflict
  /-- not a `RoomError` -/
  | plain
deriving DecidableEq, Repr

def CommandError.code : CommandError → String
  | .room code => code.text
  | .cardNotFound => "CARD_NOT_FOUND"
  | .invalidPayload => "INVALID_PAYLOAD"
  | .aoeCapExhausted => "AOE_CAP_EXHAUSTED"
  | .spectatorCannotAnswer => "SPECTATOR_CANNOT_ANSWER"
  | .playerDisconnected => "PLAYER_DISCONNECTED"
  | .commandIdConflict => "COMMAND_ID_CONFLICT"
  | .plain => "INVALID_PAYLOAD"

/-- an error thrown by the machine -/
def CommandError.ofMatch : MatchError → CommandError
  | .room code => .room code
  | _ => .plain

/-! ## Validator -/

def aoeCapPerRound : ℕ := 2

def cardText (id : CardId) : String := id.parse.1 ++ "-" ++ toString id.parse.2

def findCard (cardId : String) : Option CardId := (cardCatalog.map CardDefinition.id).find? fun id => cardText id = cardId

def assertCardId (cardId : String) : Except CommandError CardId :=
  match findCard cardId with
  | some id => .ok id
  | none => .error .cardNotFound

def isAoeCard (cardId : CardId) : Bool := (effectTemplate cardId).targetCount.any fun n => 1 < n

def isAttackCard (cardId : CardId) : Bool := (getCardDefinition cardId).any fun d => d.classId = .attack

def validateTarget (cardId : CardId) (targetPlayerId : Option String) (rosterPlayerIds : List String)
    (actingPlayerId : String) : Except CommandError Unit :=
  if isAttackCard cardId then
    match Machine.truthy targetPlayerId with
    | none => if isAoeCard cardId then .ok () else .error .invalidPayload
    | some target =>
      if target = actingPlayerId then .error .invalidPayload
      else if target ∈ rosterPlayerIds then .ok ()
      else .error (.room .playerNotInRoom)
  else if targetPlayerId.isSome then .error .invalidPayload
  else .ok ()

def validatePickedCard (cardId : CardId) (pickedCards : JsSet CardId) : Except CommandError Unit :=
  if pickedCards.has cardId then .ok () else .error (.room .cardNotInHand)

def validateOfferCorrelation (cardId : CardId) (offeredCardIds : List CardId) : Except CommandError Unit :=
  if cardId ∈ offeredCardIds then .ok () else .error (.room .cardNotInHand)

def validateAoeBudget (cardId : CardId) (currentAoeCount : ℕ) : Except CommandError Unit :=
  if isAoeCard cardId ∧ aoeCapPerRound ≤ currentAoeCount then .error .aoeCapExhausted else .ok ()

/-- `validateCardCommand`, after the status checks that its caller has already made -/
def validateCardCommand (cardId : String) (offeredCardIds : List CardId) (targetPlayerId : Option String)
    (rosterPlayerIds : List String) (currentAoeCount : ℕ) (playedCardIds pickedCards : JsSet CardId)
    (actingPlayerId : String) : Except CommandError CardId := do
  let id ← assertCardId cardId
  validatePickedCard id pickedCards
  validateOfferCorrelation id offeredCardIds
  if playedCardIds.has id then throw (.room .cardNotInHand)
  validateTarget id targetPlayerId rosterPlayerIds actingPlayerId
  validateAoeBudget id currentAoeCount
  return id

/-! ## Reads of the machine -/

def getHand (m : Machine) (playerId : String) : List CardId := (m.cards.playerHands.get playerId).getD []

def getPickedCards (m : Machine) (playerId : String) : JsSet CardId :=
  (m.cards.playerPickedCards.get playerId).getD JsSet.empty

/-- the cards of the offer logged under a sequence number, when it was made to this player -/
def getCardOfferForPlayer (m : Machine) (playerId : String) (offerSeqNo : ℕ) : Option (List CardId) :=
  (m.eventLog.findSome? fun e =>
    match e.event with
    | .cardOffer _ p ids _ => if e.seqNo = offerSeqNo ∧ p = playerId then some ids else none
    | _ => none).filter fun ids => ids.length = 3

/-! ## Targets -/

def isEligible (m : Machine) (id : String) : Bool :=
  (m.state.players.get id).any fun p => p.status ≠ .eliminated ∧ p.status ≠ .winner ∧ p.status ≠ .disconnected

def cardSeed (matchId userId : String) (roundNo offerSeqNo : ℕ) (cardId : CardId) : String :=
  matchId ++ "|" ++ userId ++ "|" ++ toString roundNo ++ "|" ++ toString offerSeqNo ++ "|" ++ cardText cardId

def makeCardResolveRng (matchId userId : String) (roundNo offerSeqNo : ℕ) (cardId : CardId) : UInt32 :=
  deriveSubstream (cardSeed matchId userId roundNo offerSeqNo cardId) ("resolve|" ++ cardText cardId)

/-- the chosen target, or a draw among the other eligible players in string order -/
def expandCardTargets (matchId : String) (cardId : CardId) (playedByPlayerId : String) (targetPlayerId : Option String)
    (roundNo offerSeqNo : ℕ) (m : Machine) : List String :=
  let count := (effectTemplate cardId).targetCount.getD 1
  if count ≤ 1 then
    let targetId := targetPlayerId.getD playedByPlayerId
    if isEligible m targetId then [targetId] else []
  else
    let rng := deriveSubstream (cardSeed matchId playedByPlayerId roundNo offerSeqNo cardId)
      ("targets|" ++ cardText cardId)
    let eligible := jsSort compareText
      ((m.state.players.keys.filter fun id => id ≠ playedByPlayerId && isEligible m id))
    drawRandom (min count eligible.length) eligible rng

/-! ## Canonical events -/

/-- the stamps of the latest CARD_PICKED of a player for a card of an offer -/
def findCardPicked (m : Machine) (playerId : String) (cardId : String) (offerSeqNo : ℕ) :
    Option (Option String × Option String) :=
  m.eventLog.reverse.findSome? fun e =>
    match e.event with
    | .cardPicked _ p card seq eventId commandId =>
      if p = playerId ∧ cardText card = cardId ∧ seq = offerSeqNo then some (eventId, commandId) else none
    | _ => none

/-- the stamps of the latest CARD_RESOLVED of a player for a card of an offer -/
def findCardResolved (m : Machine) (playerId : String) (cardId : String) (offerSeqNo : ℕ) :
    Option (Option String × Option String) :=
  m.eventLog.reverse.findSome? fun e =>
    match e.event with
    | .cardResolved p =>
      if p.playedByPlayerId = playerId ∧ cardText p.cardId = cardId ∧ p.offerSeqNo = offerSeqNo then
        some (p.eventId, p.commandId)
      else none
    | _ => none

end Arena.Api
