/-
Classes and cards (`packages/shared/src/cards.ts`, `classes.ts`): the closed set of 18 card ids with the class and tier
columns of the catalog, the canonical `compareCardId` order, the class pools, and the resolved effect union.

The other catalog columns (names, descriptions, effect templates, backfire rates) are read by the API boundary and the
web client only and are not modelled here.
-/
import Arena.Shared.State
import Arena.Lib.JsArray

namespace Arena.Shared

open Arena.Lib

inductive ClassId where
  | attack
  | defense
deriving DecidableEq, Repr

def ClassId.text : ClassId → String
  | .attack => "ATTACK"
  | .defense => "DEFENSE"

inductive CardTier where
  | common
  | rare
  | epic
deriving DecidableEq, Repr

inductive CardId where
  | cb1 | cb2 | cb3 | cb4 | cb5 | cb6 | cb7 | cb8
  | tn1 | tn2 | tn3 | tn4 | tn5 | tn6 | tn7 | tn8 | tn9 | tn10
deriving DecidableEq, Repr

/-! ## Catalog -/

/-- the id split at its dash, as `compareCardId` parses it -/
def CardId.parse : CardId → String × ℕ
  | .cb1 => ("CB", 1)
  | .cb2 => ("CB", 2)
  | .cb3 => ("CB", 3)
  | .cb4 => ("CB", 4)
  | .cb5 => ("CB", 5)
  | .cb6 => ("CB", 6)
  | .cb7 => ("CB", 7)
  | .cb8 => ("CB", 8)
  | .tn1 => ("TN", 1)
  | .tn2 => ("TN", 2)
  | .tn3 => ("TN", 3)
  | .tn4 => ("TN", 4)
  | .tn5 => ("TN", 5)
  | .tn6 => ("TN", 6)
  | .tn7 => ("TN", 7)
  | .tn8 => ("TN", 8)
  | .tn9 => ("TN", 9)
  | .tn10 => ("TN", 10)

def compareCardId (a b : CardId) : ℚ :=
  let pa := a.parse
  let pb := b.parse
  if pa.1 ≠ pb.1 then (if jsLt pa.1 pb.1 then -1 else 1) else (pa.2 : ℚ) - pb.2

structure CardDefinition where
  id : CardId
  classId : ClassId
  tier : CardTier
deriving DecidableEq, Repr

/-- the catalog in source order -/
def cardCatalog : List CardDefinition :=
  [⟨.cb1, .attack, .common⟩, ⟨.cb2, .attack, .common⟩, ⟨.cb3, .attack, .common⟩, ⟨.cb4, .attack, .rare⟩,
    ⟨.cb5, .attack, .rare⟩, ⟨.cb6, .attack, .common⟩, ⟨.cb7, .attack, .common⟩, ⟨.cb8, .attack, .epic⟩,
    ⟨.tn1, .defense, .common⟩, ⟨.tn2, .defense, .common⟩, ⟨.tn3, .defense, .common⟩, ⟨.tn4, .defense, .rare⟩,
    ⟨.tn5, .defense, .common⟩, ⟨.tn6, .defense, .common⟩, ⟨.tn7, .defense, .rare⟩, ⟨.tn8, .defense, .common⟩,
    ⟨.tn9, .defense, .rare⟩, ⟨.tn10, .defense, .epic⟩]

/-- `getCardDefinition`: the catalog row of an id. Every id has one, so the source's "Unknown card id" never fires. -/
def getCardDefinition (id : CardId) : Option CardDefinition := cardCatalog.find? (fun c => c.id = id)

theorem getCardDefinition_isSome (id : CardId) : (getCardDefinition id).isSome := by
  cases id <;> decide

/-- `getClassPool`: the ids of a class in canonical order -/
def getClassPool (classId : ClassId) : List CardId :=
  jsSort compareCardId ((cardCatalog.filter (fun c => c.classId = classId)).map CardDefinition.id)

/-! ## Resolved effects -/

inductive OverlayFlag where
  | brainFog
  | deepRead
deriving DecidableEq, Repr

inductive CardEffect where
  | timerModify (deltaMs : Time) (targetCount : ℕ)
  | optionDisable (indexes : List ℕ) (count availableAtResolution : ℕ) (durationMs : Time)
  | optionFake (indexes : List ℕ) (durationMs : Time)
  | optionLock (durationMs : Time)
  | hintReveal (partialText : String)
  | delayRender (delayMs : Time) (targetCount : ℕ)
  | visualOverlay (flag : OverlayFlag) (durationMs : Time)
  | semanticFlip (durationMs : Time)
  | questionReplay (extraMs : Time)
  | shield (expiresAtRound : ℕ)
  | scoreMult (factor : ℚ)
  | handDestroy (count availableAtResolution : ℕ) (destroyedCardIds : List CardId)
  | secondChance
deriving DecidableEq, Repr

end Arena.Shared
