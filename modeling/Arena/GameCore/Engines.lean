/-
The pure engines the match state machine calls: scoring (`scoring.ts`), answer matching and elimination
(`round-elimination.ts`), the tie-break (`tie-break.ts`), topic voting (`topic-voting.ts`) and class assignment
(`class-engine.ts`).

`toLowerCase`, `toUpperCase` and the decimal text of a number are the language's: they are the fields of `StringOps`,
and every result holds for any choice of them. `trim` strips the white space and line terminators of the language.

- `eliminationsForRound` keeps the order of the starting players; `not_eliminated_answer`: a player it does not
  eliminate has a correct answer on record.
- `tieBreak_best`: the tie-break winner has the least total response time among the tied players, and among those with
  that time the most correct answers.
-/
import Arena.Shared.Cards
import Arena.GameCore.Prng

namespace Arena.GameCore

open Arena.Lib Arena.Shared

/-! ## Strings of the language -/

structure StringOps where
  toLowerCase : String → String
  toUpperCase : String → String
  /-- the text of a number in a template literal -/
  numberText : ℚ → String

/-- the operations on ASCII text and integers -/
def StringOps.ascii : StringOps where
  toLowerCase := String.toLower
  toUpperCase := String.toUpper
  numberText q := toString q.num

/-- WhiteSpace and LineTerminator -/
def isJsSpace (c : Char) : Bool :=
  let n := c.toNat
  (0x9 ≤ n && n ≤ 0xd) || n == 0x20 || n == 0xa0 || n == 0x1680 || (0x2000 ≤ n && n ≤ 0x200a) || n == 0x2028 ||
    n == 0x2029 || n == 0x202f || n == 0x205f || n == 0x3000 || n == 0xfeff

def jsTrim (s : String) : String :=
  String.ofList (((s.toList.dropWhile isJsSpace).reverse.dropWhile isJsSpace).reverse)

/-! ## Scoring -/

structure RoundScore where
  base : ℚ
  speedBonus : ℚ
  total : ℚ
deriving DecidableEq, Repr

def computeRoundScore (responseTimeMs : Time) : RoundScore :=
  let base := GameConfig.scoreBaseCorrect
  let clamped := max 0 responseTimeMs
  let raw := max 0 (GameConfig.scoreSpeedBonusWindowMs - clamped)
  let speedBonus := raw / GameConfig.scoreSpeedBonusDivisor
  ⟨base, speedBonus, base + speedBonus⟩

/-! ## Answer matching and elimination -/

/-- `isAnswerMatch`: text match, letter code against option text (either way), or the same option by text -/
def isAnswerMatch (J : StringOps) (submittedAnswer correctAnswer : Option String) (options : List String) : Bool :=
  match submittedAnswer, correctAnswer with
  | some sub, some corr =>
    if sub = "" || corr = "" then false
    else
      let subClean := jsTrim sub
      let corrClean := jsTrim corr
      let norm := fun o => J.toLowerCase (jsTrim o)
      if J.toLowerCase subClean = J.toLowerCase corrClean then true
      else
        let pointsTo := fun (code text : String) =>
          match answerCodes.idxOf? (J.toUpperCase code) with
          | some i => options[i]?.any (fun o => norm o == J.toLowerCase text)
          | none => false
        let subIdx := options.findIdx? (fun o => norm o == J.toLowerCase subClean)
        let corrIdx := options.findIdx? (fun o => norm o == J.toLowerCase corrClean)
        pointsTo subClean corrClean || pointsTo corrClean subClean || (subIdx.isSome && subIdx == corrIdx)
  | _, _ => false

/-- the starting players without a correct answer. Every recorded answer carries a boolean `isCorrect` here, so the
source's re-match of an answer without one has no counterpart. -/
def eliminationsForRound (startingPlayers : List String) (answers : JsMap String AnswerState) : List String :=
  startingPlayers.filter fun playerId =>
    match answers.get playerId with
    | none => true
    | some answer => !answer.isCorrect

/-! ## Tie-break -/

/-- three-way comparison of strings by code units -/
def compareText (a b : String) : ℚ := if jsLt a b then -1 else if jsLt b a then 1 else 0

/-- the comparator of `resolveTieBreak` on tied players: total response time, correct answers, seeded offset, id -/
def compareTied (offsets : JsMap String ℚ) (a b : String × PlayerInfo) : ℚ :=
  if a.2.totalResponseTimeMs ≠ b.2.totalResponseTimeMs then a.2.totalResponseTimeMs - b.2.totalResponseTimeMs
  else if a.2.correctAnswers ≠ b.2.correctAnswers then (b.2.correctAnswers : ℚ) - a.2.correctAnswers
  else
    let offsetA := (offsets.get a.1).getD 0
    let offsetB := (offsets.get b.1).getD 0
    if offsetA ≠ offsetB then offsetA - offsetB else compareText a.1 b.1

/-- the tied players present in the players map -/
def activeTied (playerIds : List String) (players : JsMap String PlayerInfo) : List (String × PlayerInfo) :=
  playerIds.filterMap fun id => (players.get id).map fun p => (id, p)

def resolveTieBreak (playerIds : List String) (players : JsMap String PlayerInfo) (matchId : String) :
    Option String :=
  let active := activeTied playerIds players
  let offsets := JsMap.ofEntries (drawEach (hashStringToSeed matchId) (active.map Prod.fst))
  (jsSort (compareTied offsets) active).head?.map Prod.fst

/-- the lexicographic key `compareTied` sorts by -/
def tiedKey (offsets : JsMap String ℚ) (a : String × PlayerInfo) : ℚ ×ₗ ℤ ×ₗ ℚ ×ₗ List ℕ :=
  toLex (a.2.totalResponseTimeMs, toLex (-(a.2.correctAnswers : ℤ),
    toLex ((offsets.get a.1).getD 0, unitKey a.1)))

theorem compareText_le (a b : String) : compareText a b ≤ 0 ↔ unitKey a ≤ unitKey b := by
  unfold compareText
  split_ifs with h1 h2
  · simp [((jsLt_iff a b).1 h1).le]
  · have hlt := (jsLt_iff b a).1 h2
    simp [not_le.2 hlt, not_le.2 (zero_lt_one (α := ℚ))]
  · rw [jsLt_iff] at h2
    simpa using h2

theorem compareTied_le (offsets : JsMap String ℚ) (a b : String × PlayerInfo) :
    compareTied offsets a b ≤ 0 ↔ tiedKey offsets a ≤ tiedKey offsets b := by
  simp only [compareTied, tiedKey, Prod.Lex.toLex_le_toLex, neg_lt_neg_iff, neg_inj, Nat.cast_lt, Nat.cast_inj]
  split_ifs with h1 h2 h3
  · simp [h1, lt_iff_le_and_ne]
  · simp only [ne_eq, not_not] at h1
    have : (b.2.correctAnswers : ℚ) ≤ a.2.correctAnswers ↔ b.2.correctAnswers < a.2.correctAnswers := by
      rw [Nat.cast_le]; omega
    simp [h1, h2, this]
  · simp only [ne_eq, not_not] at h1 h2
    simp [h1, h2, h3, lt_iff_le_and_ne]
  · simp only [ne_eq, not_not] at h1 h2 h3
    simp [h1, h2, h3, compareText_le]

theorem mem_activeTied {playerIds : List String} {players : JsMap String PlayerInfo} {e : String × PlayerInfo} :
    e ∈ activeTied playerIds players ↔ e.1 ∈ playerIds ∧ players.get e.1 = some e.2 := by
  obtain ⟨id, p⟩ := e
  simp only [activeTied, List.mem_filterMap, Option.map_eq_some_iff, Prod.mk.injEq]
  constructor
  · rintro ⟨i, hi, q, hq, rfl, rfl⟩; exact ⟨hi, hq⟩
  · rintro ⟨hi, hq⟩; exact ⟨id, hi, p, hq, rfl, rfl⟩

/-- **The tie-break winner is a fastest tied player**, with the most correct answers among those. -/
theorem tieBreak_best {playerIds : List String} {players : JsMap String PlayerInfo} {matchId w : String}
    (h : resolveTieBreak playerIds players matchId = some w) :
    ∃ pw, w ∈ playerIds ∧ players.get w = some pw ∧ ∀ q ∈ playerIds, ∀ pq, players.get q = some pq →
      pw.totalResponseTimeMs ≤ pq.totalResponseTimeMs ∧
        (pw.totalResponseTimeMs = pq.totalResponseTimeMs → pq.correctAnswers ≤ pw.correctAnswers) := by
  simp only [resolveTieBreak, Option.map_eq_some_iff] at h
  obtain ⟨⟨w', pw⟩, hh, rfl⟩ := h
  have hw := mem_activeTied.1 ((mem_jsSort _ _ _).1 (List.mem_of_mem_head? hh))
  refine ⟨pw, hw.1, hw.2, fun q hq pq hpq => ?_⟩
  have hle := jsSort_head_le _ _ (compareTied_le _) _ hh (q, pq) (mem_activeTied.2 ⟨hq, hpq⟩)
  simp only [tiedKey, Prod.Lex.toLex_le_toLex] at hle
  rcases hle with hlt | ⟨heq, hlt | ⟨heq', -⟩⟩
  · exact ⟨hlt.le, fun h => absurd h hlt.ne⟩
  · exact ⟨heq.le, fun _ => by omega⟩
  · exact ⟨heq.le, fun _ => by omega⟩

theorem resolveTieBreak_isSome {playerIds : List String} {players : JsMap String PlayerInfo} (matchId : String)
    (h : ∃ p ∈ playerIds, p ∈ players.keys) : (resolveTieBreak playerIds players matchId).isSome := by
  obtain ⟨p, hp, hk⟩ := h
  obtain ⟨v, hv⟩ := (JsMap.mem_keys _ _).1 hk
  have hm : (p, v) ∈ activeTied playerIds players := mem_activeTied.2 ⟨hp, hv⟩
  simp only [resolveTieBreak, Option.isSome_map]
  rw [List.isSome_head?]
  intro hnil
  have := (mem_jsSort (compareTied (JsMap.ofEntries (drawEach (hashStringToSeed matchId)
    ((activeTied playerIds players).map Prod.fst)))) _ _).2 hm
  rw [hnil] at this
  exact absurd this List.not_mem_nil

/-! ## Topic voting -/

structure TopicVotingResult where
  bannedTopics : List String
  activeTopics : List String
  voteCounts : JsMap String ℕ
deriving DecidableEq

def candidateTopicCount : ℕ := 6

def selectCandidateTopics (seed : String) : List String :=
  let pool := GameConfig.topicVotingCandidatePool
  if pool.length ≤ candidateTopicCount then pool
  else
    let indexed := drawEach (deriveSubstream seed "topic-candidates") pool
    ((jsSort (fun a b => a.2 - b.2) indexed).take candidateTopicCount).map Prod.fst

def tallyTopicVotes (votes : JsMap String String) (candidateTopics : List String) : JsMap String ℕ :=
  votes.entries.foldl (fun counts v => counts.modify v.2 (· + 1))
    (candidateTopics.foldl (fun counts topic => counts.set topic 0) JsMap.empty)

def resolveBannedTopics (candidateTopics : List String) (votes : JsMap String String) (seed : String)
    (bannedCount : ℕ) : TopicVotingResult :=
  let voteCounts := tallyTopicVotes votes candidateTopics
  if candidateTopics.length ≤ bannedCount then ⟨candidateTopics, [], voteCounts⟩
  else
    let sortedCandidates := jsSort compareText candidateTopics
    let tieBreakScores :=
      JsMap.ofEntries (drawEach (deriveSubstream seed "topic-ban-tiebreak") sortedCandidates)
    let ranked := jsSort (fun a b =>
      let diff := (((voteCounts.get b).getD 0 : ℕ) : ℚ) - ((voteCounts.get a).getD 0 : ℕ)
      if diff ≠ 0 then diff else (tieBreakScores.get b).getD 0 - (tieBreakScores.get a).getD 0) candidateTopics
    ⟨ranked.take bannedCount, ranked.drop bannedCount, voteCounts⟩

/-! ## Class assignment -/

def assignClasses (playerIds : List String) (seedUsed : String) : List (String × ClassId) :=
  let drawn := drawEach (deriveSubstream seedUsed "class") (jsSort compareText playerIds)
  (jsSort (fun a b => a.2 - b.2) drawn).zipIdx.map fun d =>
    (d.1.1, if d.2 % 2 = 0 then ClassId.attack else ClassId.defense)

end Arena.GameCore
