/-
Card effects (`cards.ts`, `card-engine.ts`): the effect template column of the catalog and `resolveCardEffect`, which
turns a template into the concrete effect of a `CARD_RESOLVED` event.

Three cards draw from the generator: TN-1 and TN-10 disable wrong options, CB-3 destroys cards of the target's hand.
Both draw without replacement (`drawRandom`): one float per pick, the index is the floor of the float times the number
of candidates left.

A JavaScript string is cut between code units; Lean strings hold no lone surrogate, so `jsPrefix` writes U+FFFD for
half a pair.
-/
import Arena.GameCore.CardEngine

namespace Arena.GameCore

open Arena.Lib Arena.Shared

/-! ## Templates -/

inductive CardEffectTemplate where
  | timerModify (deltaMs : Time) (targetCount : ℕ)
  | optionDisableTemplate (count : ℕ) (durationMs : Time)
  | optionFake (indexes : List ℕ) (durationMs : Time)
  | optionLock (durationMs : Time)
  | hintRevealTemplate (count : ℕ)
  | delayRender (delayMs : Time) (targetCount : ℕ)
  | visualOverlay (flag : OverlayFlag) (durationMs : Time)
  | semanticFlip (durationMs : Time)
  | questionReplay (extraMs : Time)
  | shieldTemplate (expiresAfterRoundOffset : ℕ)
  | scoreMult (factor : ℚ)
  | handDestroyTemplate (count : ℕ)
  | secondChance
deriving DecidableEq, Repr

/-- the `effectTemplate` column of the catalog -/
def effectTemplate : CardId → CardEffectTemplate
  | .cb1 => .timerModify (-5000) 1
  | .cb2 => .delayRender 3000 1
  | .cb3 => .handDestroyTemplate 1
  | .cb4 => .optionLock 2000
  | .cb5 => .visualOverlay .brainFog 5000
  | .cb6 => .optionFake [1] 8000
  | .cb7 => .semanticFlip 10000
  | .cb8 => .delayRender 2000 3
  | .tn1 => .optionDisableTemplate 2 20000
  | .tn2 => .scoreMult 2
  | .tn3 => .hintRevealTemplate 1
  | .tn4 => .shieldTemplate 1
  | .tn5 => .questionReplay 5000
  | .tn6 => .secondChance
  | .tn7 => .visualOverlay .deepRead 5000
  | .tn8 => .questionReplay 5000
  | .tn9 => .scoreMult (3 / 2)
  | .tn10 => .optionDisableTemplate 1 20000

/-- `targetCount`, where the template has one -/
def CardEffectTemplate.targetCount : CardEffectTemplate → Option ℕ
  | .timerModify _ n => some n
  | .delayRender _ n => some n
  | _ => none

/-! ## Draws -/

/-- `n` draws without replacement; the source throws where the model stops, and `drawRandom_length` rules it out -/
def drawRandom {α : Type} : ℕ → List α → UInt32 → List α
  | 0, _, _ => []
  | n + 1, remaining, a =>
    let idx := (unitFloat (mulberry32 a).1 * remaining.length).floor.toNat
    match remaining[idx]? with
    | none => []
    | some chosen => chosen :: drawRandom n (remaining.eraseIdx idx) (mulberry32 a).2

/-- as many draws as there are candidates never run dry -/
theorem drawRandom_length {α : Type} (n : ℕ) (remaining : List α) (a : UInt32) (h : n ≤ remaining.length) :
    (drawRandom n remaining a).length = n := by
  induction n generalizing remaining a with
  | zero => rfl
  | succ n ih =>
    have hidx := floor_index_lt (mulberry32 a).1 (n := remaining.length) (by omega)
    have hlen := List.length_eraseIdx_of_lt hidx
    simp only [drawRandom, List.getElem?_eq_getElem hidx, List.length_cons]
    rw [ih _ _ (by omega)]

theorem mem_drawRandom {α : Type} {x : α} (n : ℕ) (remaining : List α) (a : UInt32)
    (h : x ∈ drawRandom n remaining a) : x ∈ remaining := by
  induction n generalizing remaining a with
  | zero => cases h
  | succ n ih =>
    simp only [drawRandom] at h
    cases hc : remaining[(unitFloat (mulberry32 a).1 * remaining.length).floor.toNat]? with
    | none =>
      rw [hc] at h
      cases h
    | some chosen =>
      rw [hc] at h
      rcases List.mem_cons.1 h with rfl | h
      · exact List.mem_of_getElem? hc
      · exact List.mem_of_mem_eraseIdx (ih _ _ h)

/-! ## Resolution -/

inductive ResolveError where
  /-- "card-engine: OPTION_DISABLE_TEMPLATE requires options + correctAnswer" -/
  | optionsMissing
  /-- "card-engine: HINT_REVEAL_TEMPLATE requires ctx.correctAnswer" -/
  | answerMissing
deriving DecidableEq, Repr

/-- positions of the options that are not the answer -/
def wrongIndexes (options : List String) (correctAnswer : String) : List ℕ :=
  (List.range options.length).filter fun i => options[i]? ≠ some correctAnswer

def resolveOptionDisable (count : ℕ) (durationMs : Time) (options : List String) (correctAnswer : String)
    (rng : UInt32) : CardEffect :=
  let wrong := wrongIndexes options correctAnswer
  .optionDisable (drawRandom (min count wrong.length) wrong rng) count wrong.length durationMs

def resolveHandDestroy (count : ℕ) (targetHand : List CardId) (rng : UInt32) : CardEffect :=
  let sortedHand := jsSort compareCardId targetHand
  .handDestroy count sortedHand.length (drawRandom (min count sortedHand.length) sortedHand rng)

/-- `slice(0, n)` -/
def jsPrefix : ℕ → List Char → List Char
  | 0, _ => []
  | _, [] => []
  | n + 1, c :: cs =>
    if c.toNat < 0x10000 then c :: jsPrefix n cs
    else
      match n with
      | 0 => ['\uFFFD']
      | k + 1 => c :: jsPrefix k cs

/-- what the resolver reads of the match; both callers give the hand and the round number -/
structure ResolveContext where
  targetHand : List CardId
  options : Option (List String)
  correctAnswer : Option String
  currentRoundNo : ℕ

/-- `resolveCardEffect` with the template of the card's own catalog row, as both callers call it -/
def resolveCardEffect (cardId : CardId) (rng : UInt32) (ctx : ResolveContext) : Except ResolveError CardEffect :=
  match effectTemplate cardId with
  | .optionDisableTemplate count durationMs =>
    match ctx.options, ctx.correctAnswer with
    | some options, some correctAnswer => .ok (resolveOptionDisable count durationMs options correctAnswer rng)
    | _, _ => .error .optionsMissing
  | .handDestroyTemplate count => .ok (resolveHandDestroy count ctx.targetHand rng)
  | .timerModify deltaMs targetCount => .ok (.timerModify deltaMs targetCount)
  | .optionFake indexes durationMs => .ok (.optionFake indexes durationMs)
  | .optionLock durationMs => .ok (.optionLock durationMs)
  | .hintRevealTemplate count =>
    match ctx.correctAnswer with
    | some correctAnswer => .ok (.hintReveal (String.ofList (jsPrefix count correctAnswer.toList)))
    | none => .error .answerMissing
  | .delayRender delayMs targetCount => .ok (.delayRender delayMs targetCount)
  | .visualOverlay flag durationMs => .ok (.visualOverlay flag durationMs)
  | .semanticFlip durationMs => .ok (.semanticFlip durationMs)
  | .questionReplay extraMs => .ok (.questionReplay extraMs)
  | .shieldTemplate offset => .ok (.shield (ctx.currentRoundNo + offset))
  | .scoreMult factor => .ok (.scoreMult factor)
  | .secondChance => .ok .secondChance

end Arena.GameCore
