/-
What a replay tells a player (`handleRequestSnapshot`, against the broadcasts that withhold it: `emitAnswerResult` and
`emitCardOffer` of `game-loop.events.ts`, `sanitizeCardEffect` and `emitCardResolved` of
`match-card-command.helpers.ts`).

A broadcast leaves out what is not its recipient's own; a replay sends the entries of the log as they are. Two machines
are alike for a player when nothing the player is told sets them apart: the same state, the same round but for the
answers of others and the answer key, and logs that are the same once what is withheld is blanked. The answers of others
are withheld in every round here, not only in the open one, so more machines are alike. The card mirrors follow the log
and are not compared.

- `Alike.snapshot`: a snapshot does not tell alike machines apart;
- `replay_private_iff`: a batch does, exactly if the logs differ after its cursor;
- `quiet_replay_private`: it does not if nothing after the cursor is withheld;
- `answer_replayed`: a right and a wrong answer of bob, as alice is sent them.
-/
import Arena.Api.SnapshotRequest

namespace Arena.Api

open Arena.Lib Arena.Shared Arena.GameCore Arena.GameCore.Machine

/-! ## What is withheld -/

def sanitizeCardEffect : CardEffect → CardEffect
  | .optionDisable _ count available durationMs => .optionDisable [] count available durationMs
  | .optionFake _ durationMs => .optionFake [] durationMs
  | .hintReveal _ => .hintReveal ""
  | .handDestroy count available _ => .handDestroy count available []
  | effect => effect

/-- an event as a broadcast tells it to `userId` -/
def blankEvent (userId : String) : MatchEvent → MatchEvent
  | .answerSubmitted p isCorrect t => .answerSubmitted p (if p = userId then isCorrect else false) t
  | .cardOffer n p ids seed => if p = userId then .cardOffer n p ids seed else .cardOffer n p [] ""
  | .cardResolved r =>
    .cardResolved (if userId ∈ r.targetPlayerIds then r else { r with effect := sanitizeCardEffect r.effect })
  | event => event

def blankEntry (userId : String) (e : EventLogEntry) : EventLogEntry := { e with event := blankEvent userId e.event }

/-- the answer of another player: that it was given, and when -/
def blankAnswer (userId : String) (a : AnswerState) : AnswerState :=
  if a.playerId = userId then a else { a with answer := "", isCorrect := false }

def blankRound (userId : String) (r : Round) : Round :=
  { r with
    answers := JsMap.ofEntries (r.answers.entries.map fun e => (e.1, blankAnswer userId e.2))
    correctAnswer := none }

/-- what `userId` is told does not tell the machines apart -/
structure Alike (userId : String) (m m' : Machine) : Prop where
  state : m'.state = m.state
  round : m'.currentRound.map (blankRound userId) = m.currentRound.map (blankRound userId)
  log : m'.eventLog.map (blankEntry userId) = m.eventLog.map (blankEntry userId)

/-- the kinds `sanitizeCardEffect` blanks -/
def hasPrivatePart : CardEffect → Bool
  | .optionDisable _ _ _ _ => true
  | .optionFake _ _ => true
  | .hintReveal _ => true
  | .handDestroy _ _ _ => true
  | _ => false

/-- the event has a part that is withheld from `userId` -/
def withholds (userId : String) : MatchEvent → Bool
  | .answerSubmitted p _ _ => p ≠ userId
  | .cardOffer _ p _ _ => p ≠ userId
  | .cardResolved r => userId ∉ r.targetPlayerIds ∧ hasPrivatePart r.effect = true
  | _ => false

/-! ## Events -/

section Events

variable {userId : String} {event event' : MatchEvent}

theorem sanitize_private (effect : CardEffect) :
    hasPrivatePart (sanitizeCardEffect effect) = hasPrivatePart effect := by
  cases effect <;> rfl

theorem sanitize_public {effect : CardEffect} (h : hasPrivatePart effect = false) :
    sanitizeCardEffect effect = effect := by
  cases effect <;> first | rfl | cases h

theorem withholds_blank (userId : String) (event : MatchEvent) :
    withholds userId (blankEvent userId event) = withholds userId event := by
  cases event with
  | cardOffer n p ids seed =>
    simp only [blankEvent]
    split_ifs <;> rfl
  | cardResolved r =>
    simp only [blankEvent]
    split_ifs
    · rfl
    · simp only [withholds, sanitize_private]
  | _ => rfl

theorem blank_of_public (h : withholds userId event = false) : blankEvent userId event = event := by
  cases event with
  | answerSubmitted p isCorrect t =>
    have hown : p = userId := by simpa [withholds] using h
    simp [blankEvent, hown]
  | cardOffer n p ids seed =>
    have hown : p = userId := by simpa [withholds] using h
    simp [blankEvent, hown]
  | cardResolved r =>
    by_cases htarget : userId ∈ r.targetPlayerIds
    · simp [blankEvent, htarget]
    · have hpublic : hasPrivatePart r.effect = false := by simpa [withholds, htarget] using h
      simp [blankEvent, htarget, sanitize_public hpublic]
  | _ => rfl

/-- an event with nothing withheld is told apart from every other -/
theorem eq_of_blank_eq (heq : blankEvent userId event' = blankEvent userId event) (h : withholds userId event = false) :
    event' = event := by
  have h' : withholds userId event' = false := by
    rw [← withholds_blank, heq, withholds_blank]
    exact h
  calc event' = blankEvent userId event' := (blank_of_public h').symm
    _ = blankEvent userId event := heq
    _ = event := blank_of_public h

end Events

/-! ## Replies -/

section Replies

variable {userId : String} {m m' : Machine}

theorem Alike.seqNos (h : Alike userId m m') :
    m'.eventLog.map EventLogEntry.seqNo = m.eventLog.map EventLogEntry.seqNo := by
  have hblank : EventLogEntry.seqNo ∘ blankEntry userId = EventLogEntry.seqNo := rfl
  rw [← hblank, ← List.map_map, ← List.map_map, h.log]

theorem Alike.head (h : Alike userId m m') : m'.getHeadSeqNo = m.getHeadSeqNo := by
  unfold getHeadSeqNo
  rw [← List.getLast?_map, ← List.getLast?_map, h.seqNos]

theorem Alike.canDelta (h : Alike userId m m') (cursor : ℕ) : canDelta m' cursor = canDelta m cursor := by
  have hfloor : m'.getFloorSeqNo = m.getFloorSeqNo := by
    unfold getFloorSeqNo
    rw [← List.head?_map, ← List.head?_map, h.seqNos]
  simp only [Arena.Api.canDelta, h.head, hfloor]

/-- **A snapshot tells nothing.** -/
theorem Alike.snapshot (h : Alike userId m m') (head : ℕ) : m'.getSnapshot head = m.getSnapshot head := by
  have hquestion : m'.currentRound.map Round.question = m.currentRound.map Round.question := by
    have hround := congrArg (Option.map Round.question) h.round
    rw [Option.map_map, Option.map_map] at hround
    exact hround
  have hends : m'.currentRound.map Round.endsAt = m.currentRound.map Round.endsAt := by
    have hround := congrArg (Option.map Round.endsAt) h.round
    rw [Option.map_map, Option.map_map] at hround
    exact hround
  simp only [getSnapshot, h.state, hquestion, hends]

/-- batches are the same exactly if the entries after the cursor are -/
theorem Alike.getDelta_iff (h : Alike userId m m') (hs : SeqInv m) (hs' : SeqInv m') (cursor : ℕ) :
    m'.getDelta cursor = m.getDelta cursor ↔ m'.eventLog.drop cursor = m.eventLog.drop cursor := by
  constructor
  · intro hdelta
    rw [← getDelta_entries hs', ← getDelta_entries hs, hdelta]
  · intro hdrop
    have hevent : m'.deltaEvent = m.deltaEvent := by
      funext e
      simp only [deltaEvent, h.state]
    rw [getDelta_eq_drop hs', getDelta_eq_drop hs, hdrop, hevent]

theorem Alike.reply_iff (h : Alike userId m m') (hs : SeqInv m) (hs' : SeqInv m') (matchId : String) (cursor : ℕ) :
    handleRequestSnapshot m' matchId cursor = handleRequestSnapshot m matchId cursor ↔
      Arena.Api.canDelta m cursor = false ∨ m'.eventLog.drop cursor = m.eventLog.drop cursor := by
  unfold handleRequestSnapshot
  rw [h.canDelta, h.head, h.snapshot]
  cases hdelta : Arena.Api.canDelta m cursor with
  | true =>
    simp only [if_true, SnapshotReply.eventBatch.injEq, true_and, Bool.true_eq_false, false_or]
    exact h.getDelta_iff hs hs' cursor
  | false => simp

/-- entries with nothing withheld are the same in alike machines -/
theorem Alike.drop_eq (h : Alike userId m m') {cursor : ℕ}
    (hquiet : ∀ e ∈ m.eventLog.drop cursor, withholds userId e.event = false) :
    m'.eventLog.drop cursor = m.eventLog.drop cursor := by
  have hdrop : (m'.eventLog.drop cursor).map (blankEntry userId) =
      (m.eventLog.drop cursor).map (blankEntry userId) := by
    rw [List.map_drop, List.map_drop, h.log]
  refine List.ext_getElem? fun i => ?_
  have hentry := congrArg (fun l => l[i]?) hdrop
  simp only [List.getElem?_map] at hentry
  cases he : (m.eventLog.drop cursor)[i]? with
  | none =>
    rw [he] at hentry
    exact Option.map_eq_none_iff.1 hentry
  | some e =>
    rw [he] at hentry
    obtain ⟨e', he', hblank⟩ := Option.map_eq_some_iff.1 hentry
    obtain ⟨hevent, htime, hseq⟩ := EventLogEntry.mk.inj hblank
    have hsame : e'.event = e.event := eq_of_blank_eq hevent (hquiet e (List.mem_of_getElem? he))
    calc (m'.eventLog.drop cursor)[i]? = some ⟨e'.event, e'.timestamp, e'.seqNo⟩ := he'
      _ = some ⟨e.event, e.timestamp, e.seqNo⟩ := by rw [hsame, htime, hseq]

end Replies

/-! ## Runs -/

section Runs

variable (J : StringOps) (matchId roomId : String) (players : List PlayerInfo)

/-- **What a reply tells.** For every two runs of a match that are alike for a player, whatever the calls and failovers,
and every cursor: the replies are the same exactly if the cursor is answered with a snapshot, or the runs have logged
the same after it. -/
theorem replay_private_iff (acts acts' : List Action) (userId requested : String) (cursor : ℕ)
    (h : Alike userId (reach J matchId roomId players acts) (reach J matchId roomId players acts')) :
    handleRequestSnapshot (reach J matchId roomId players acts') requested cursor =
        handleRequestSnapshot (reach J matchId roomId players acts) requested cursor ↔
      Arena.Api.canDelta (reach J matchId roomId players acts) cursor = false ∨
        (reach J matchId roomId players acts').eventLog.drop cursor =
          (reach J matchId roomId players acts).eventLog.drop cursor :=
  h.reply_iff (reach_logInv J matchId roomId players acts).seq (reach_logInv J matchId roomId players acts').seq
    requested cursor

/-- a reply tells nothing when nothing after its cursor is withheld -/
theorem quiet_replay_private (acts acts' : List Action) (userId requested : String) (cursor : ℕ)
    (h : Alike userId (reach J matchId roomId players acts) (reach J matchId roomId players acts'))
    (hquiet : ∀ e ∈ (reach J matchId roomId players acts).eventLog.drop cursor, withholds userId e.event = false) :
    handleRequestSnapshot (reach J matchId roomId players acts') requested cursor =
      handleRequestSnapshot (reach J matchId roomId players acts) requested cursor :=
  (replay_private_iff J matchId roomId players acts acts' userId requested cursor h).2 (.inr (h.drop_eq hquiet))

end Runs

/-- a round of alice, bob and carol, in which bob gives this answer -/
def bobAnswers (answer : String) : List Action :=
  [.call (.transition .countdown fun _ => 0), .call (.transition .roundActive fun _ => 5000),
    .call (.startRound ⟨"q1", "2 + 2?", ["3", "4", "5", "6"], "4", none⟩ (some 15000) fun _ => 5000),
    .call (.submitAnswer "bob" answer 7000 (some "s1") fun _ => 7000)]

def threePlayers : List PlayerInfo := [freshPlayer "alice", freshPlayer "bob", freshPlayer "carol"]

instance (userId : String) (m m' : Machine) : Decidable (Alike userId m m') :=
  decidable_of_iff (m'.state = m.state ∧
      m'.currentRound.map (blankRound userId) = m.currentRound.map (blankRound userId) ∧
      m'.eventLog.map (blankEntry userId) = m.eventLog.map (blankEntry userId))
    ⟨fun h => ⟨h.1, h.2.1, h.2.2⟩, fun h => ⟨h.state, h.round, h.log⟩⟩

/-- the answer is not after alice's cursor -/
theorem replay_private_iff_seen :
    let m := reach StringOps.ascii "m1" "r1" threePlayers (bobAnswers "4")
    let m' := reach StringOps.ascii "m1" "r1" threePlayers (bobAnswers "5")
    handleRequestSnapshot m' "m1" 4 = handleRequestSnapshot m "m1" 4 :=
  (replay_private_iff StringOps.ascii "m1" "r1" threePlayers (bobAnswers "4") (bobAnswers "5") "alice" "m1" 4
    (by decide +kernel)).2 (.inr (by decide +kernel))

/-- **A replay leaks an answer.** In the open round the two runs differ for alice in whether bob is right, and the batch
after the round's start tells her. -/
theorem answer_replayed :
    let m := reach StringOps.ascii "m1" "r1" threePlayers (bobAnswers "4")
    let m' := reach StringOps.ascii "m1" "r1" threePlayers (bobAnswers "5")
    Alike "alice" m m' ∧ m.state.status = .roundActive ∧
      handleRequestSnapshot m' "m1" 3 ≠ handleRequestSnapshot m "m1" 3 := by
  decide +kernel

end Arena.Api
