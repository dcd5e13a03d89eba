/-
Grading by tile: which questions of `createQuestionSchema` have every tile graded by its own text.

The panel shows the first four options and submits the letter of a tile; `isAnswerMatch` reads letters and texts alike,
on both sides, trimmed and with case folded; the option-disable effect compares texts exactly. The letters are plain
ones: `LatinCase` is what the case mappings of the language do to them.

- `match_code_iff`: the three ways in which a tile's letter is taken for the answer;
- `tiles_graded_iff`: every tile is graded by its text exactly if the answer is one of the first four options, no other
  of these is the same text but for case and outer space, and its text is not the letter of another tile;
- `other_tile_graded_correct`: a question with the options "B" and "A".
-/
import Arena.GameCore.CardEffects
import Arena.GameCore.Engines

namespace Arena.Api

open Arena.Lib Arena.Shared Arena.GameCore

/-! ## Questions and tiles -/

structure CreateQuestionInput where
  content : String
  options : List String
  correctAnswer : String
deriving DecidableEq, Repr

/-- the text fields of `createQuestionSchema`; lengths are in code units -/
def createQuestionSchema (data : CreateQuestionInput) : Bool :=
  10 ≤ (utf16 data.content).length && (utf16 data.content).length ≤ 1000 &&
    data.options.all (fun o => 1 ≤ (utf16 o).length) &&
    2 ≤ data.options.length && data.options.length ≤ 6 && data.options.Nodup &&
    1 ≤ (utf16 data.correctAnswer).length && data.options.contains data.correctAnswer

/-- the options the panel shows -/
def shownOptions (options : List String) : List String := options.take answerCodes.length

/-- the submitted letter of tile `i`, graded; an option past the last letter has none -/
def tileGraded (J : StringOps) (data : CreateQuestionInput) (i : ℕ) : Bool :=
  isAnswerMatch J answerCodes[i]? (some data.correctAnswer) data.options

/-- the draws of `resolveOptionDisable` from any source of floats -/
def drawWith {α : Type} : ℕ → List α → (ℕ → ℚ) → List α
  | 0, _, _ => []
  | n + 1, remaining, rng =>
    let idx := (rng 0 * remaining.length).floor.toNat
    match remaining[idx]? with
    | none => []
    | some chosen => chosen :: drawWith n (remaining.eraseIdx idx) fun k => rng (k + 1)

/-- the indexes `resolveOptionDisable` picks -/
def disabledIndexes (count : ℕ) (options : List String) (correctAnswer : String) (rng : ℕ → ℚ) : List ℕ :=
  drawWith (min count (wrongIndexes options correctAnswer).length) (wrongIndexes options correctAnswer) rng

/-- the floats of `mulberry32` -/
def draws (a : UInt32) (k : ℕ) : ℚ := unitFloat (mulberry32 (stateAfter a k)).1

theorem drawRandom_eq {α : Type} (n : ℕ) (remaining : List α) (a : UInt32) :
    drawRandom n remaining a = drawWith n remaining (draws a) := by
  induction n generalizing remaining a with
  | zero => rfl
  | succ n ih =>
    have hnext : (fun k => draws a (k + 1)) = draws (mulberry32 a).2 := by
      funext k
      simp only [draws, mulberry32, stateAfter_succ]
    simp only [drawRandom, drawWith, draws, stateAfter_zero]
    cases remaining[(unitFloat (mulberry32 a).1 * remaining.length).floor.toNat]? with
    | none => rfl
    | some chosen =>
      dsimp only
      rw [ih, ← hnext]
      rfl

/-- the resolver draws from its seed -/
theorem resolveOptionDisable_indexes (count : ℕ) (durationMs : Time) (options : List String) (correctAnswer : String)
    (rng : UInt32) : resolveOptionDisable count durationMs options correctAnswer rng =
      .optionDisable (disabledIndexes count options correctAnswer (draws rng)) count
        (wrongIndexes options correctAnswer).length durationMs := by
  simp only [resolveOptionDisable, drawRandom_eq, disabledIndexes]

theorem mem_drawWith {α : Type} {x : α} (n : ℕ) (remaining : List α) (rng : ℕ → ℚ)
    (h : x ∈ drawWith n remaining rng) : x ∈ remaining := by
  induction n generalizing remaining rng with
  | zero => cases h
  | succ n ih =>
    simp only [drawWith] at h
    cases hc : remaining[(rng 0 * remaining.length).floor.toNat]? with
    | none =>
      rw [hc] at h
      cases h
    | some chosen =>
      rw [hc] at h
      rcases List.mem_cons.1 h with rfl | h
      · exact List.mem_of_getElem? hc
      · exact List.mem_of_mem_eraseIdx (ih _ _ h)

theorem mem_disabledIndexes {count : ℕ} {options : List String} {correctAnswer : String} {rng : ℕ → ℚ} {i : ℕ}
    (h : i ∈ disabledIndexes count options correctAnswer rng) : options[i]? ≠ some correctAnswer := by
  have hwrong := mem_drawWith _ _ _ h
  simpa [wrongIndexes] using (List.mem_filter.1 hwrong).2

/-! ## The letters -/

/-- lower case takes to that of a tile's letter what upper case takes to the letter -/
def LatinCase (J : StringOps) : Prop :=
  ∀ s, ∀ c ∈ answerCodes, J.toLowerCase s = J.toLowerCase c ↔ J.toUpperCase s = c

theorem LatinCase.upper {J : StringOps} (hJ : LatinCase J) {c : String} (hc : c ∈ answerCodes) : J.toUpperCase c = c :=
  (hJ c c hc).1 rfl

theorem latinCase_char {C : Char} (hC : C ∈ ['A', 'B', 'C', 'D']) (x : Char) : x.toLower = C.toLower ↔ x.toUpper = C := by
  by_cases hx : x.toNat < 128
  · have hascii : ∀ n : Fin 128, ∀ C ∈ ['A', 'B', 'C', 'D'],
        (Char.ofNat n).toLower = C.toLower ↔ (Char.ofNat n).toUpper = C := by
      simp only [List.forall_mem_cons, List.not_mem_nil, false_implies, implies_true]
      decide
    have hofNat := hascii ⟨x.toNat, hx⟩ C hC
    rwa [Char.ofNat_toNat] at hofNat
  · have hlower : x.toLower = x := by
      unfold Char.toLower
      rw [dif_neg]
      intro h
      have := UInt32.le_iff_toNat_le.1 h.2
      exact hx (lt_of_le_of_lt this (by decide))
    have hupper : x.toUpper = x := by
      unfold Char.toUpper
      rw [dif_neg]
      intro h
      have := UInt32.le_iff_toNat_le.1 h.2
      exact hx (lt_of_le_of_lt this (by decide))
    have hne : ∀ y : Char, y.toNat < 128 → x ≠ y := by
      rintro y hy rfl
      exact hx hy
    have hsmall : ∀ C ∈ ['A', 'B', 'C', 'D'], C.toNat < 128 ∧ C.toLower.toNat < 128 := by
      simp only [List.forall_mem_cons, List.not_mem_nil, false_implies, implies_true]
      decide
    rw [hlower, hupper]
    exact iff_of_false (hne _ (hsmall C hC).2) (hne _ (hsmall C hC).1)

theorem latinCase_ascii : LatinCase StringOps.ascii := by
  intro s c hc
  have hletter : ∃ C ∈ ['A', 'B', 'C', 'D'], c.toList = [C] := by
    simp only [answerCodes, List.mem_cons, List.not_mem_nil, or_false] at hc
    rcases hc with rfl | rfl | rfl | rfl <;> simp
  obtain ⟨C, hC, hlist⟩ := hletter
  show s.map Char.toLower = c.map Char.toLower ↔ s.map Char.toUpper = c
  rw [← String.toList_inj, ← String.toList_inj, String.toList_map, String.toList_map, String.toList_map, hlist,
    List.map_singleton, List.map_eq_singleton_iff, List.map_eq_singleton_iff]
  simp only [latinCase_char hC]

theorem answerCode {i : ℕ} {c : String} (h : answerCodes[i]? = some c) :
    c ∈ answerCodes ∧ c ≠ "" ∧ jsTrim c = c ∧ answerCodes.idxOf? c = some i := by
  have hi : i < 4 := (List.getElem?_eq_some_iff.1 h).1
  interval_cases i <;> obtain rfl := Option.some.inj h <;> decide

/-- a text without its outer space and its case -/
def folded (J : StringOps) (s : String) : String := J.toLowerCase (jsTrim s)

/-- **How a letter matches.** By the answer's own text, by the tile's text, or by a text the answer points to. -/
theorem match_code_iff {J : StringOps} (hJ : LatinCase J) {options : List String} {answer : String} {i : ℕ} {c o : String}
    (hc : answerCodes[i]? = some c) (ho : options[i]? = some o) (hanswer : answer ≠ "") :
    isAnswerMatch J (some c) (some answer) options = true ↔
      folded J answer = J.toLowerCase c ∨ folded J o = folded J answer ∨
        ∃ (k : ℕ) (o' : String), answerCodes[k]? = some (J.toUpperCase (jsTrim answer)) ∧ options[k]? = some o' ∧
          folded J o' = J.toLowerCase c := by
  obtain ⟨hmem, hne, htrim, hidx⟩ := answerCode hc
  by_cases hd : folded J answer = J.toLowerCase c
  · have hdirect : J.toLowerCase (jsTrim c) = J.toLowerCase (jsTrim answer) := by
      rw [htrim]
      exact hd.symm
    simp [isAnswerMatch, hne, hanswer, hdirect, hd]
  have hdirect : ¬J.toLowerCase c = J.toLowerCase (jsTrim answer) := fun heq => hd heq.symm
  -- two texts at one place of the options are the same text
  have hplace : ((options.findIdx? fun o => J.toLowerCase (jsTrim o) == J.toLowerCase c).isSome &&
      (options.findIdx? fun o => J.toLowerCase (jsTrim o) == J.toLowerCase c) ==
        options.findIdx? fun o => J.toLowerCase (jsTrim o) == J.toLowerCase (jsTrim answer)) = false := by
    rw [Bool.eq_false_iff]
    intro h
    obtain ⟨hsome, hsame⟩ := Bool.and_eq_true_iff.1 h
    obtain ⟨k, hk⟩ := Option.isSome_iff_exists.1 hsome
    have hk' := (beq_iff_eq.1 hsame).symm.trans hk
    obtain ⟨_, hcode, -⟩ := List.findIdx?_eq_some_iff_getElem.1 hk
    obtain ⟨_, hans, -⟩ := List.findIdx?_eq_some_iff_getElem.1 hk'
    exact hd ((beq_iff_eq.1 hans).symm.trans (beq_iff_eq.1 hcode))
  cases hk : answerCodes.idxOf? (J.toUpperCase (jsTrim answer)) with
  | none =>
    have hnowhere : ¬∃ (k : ℕ) (o' : String), answerCodes[k]? = some (J.toUpperCase (jsTrim answer)) ∧
        options[k]? = some o' ∧ folded J o' = J.toLowerCase c := by
      rintro ⟨k, o', hcode, -⟩
      rw [(answerCode hcode).2.2.2] at hk
      cases hk
    simp only [isAnswerMatch, hne, hanswer, hdirect, hd, htrim, decide_false, Bool.or_false, Bool.false_eq_true,
      if_false, hJ.upper hmem, hidx, ho, hplace, Option.any_some, beq_iff_eq, false_or, hk, hnowhere, or_false]
    exact Iff.rfl
  | some k =>
    have hpoints : (∃ (k : ℕ) (o' : String), answerCodes[k]? = some (J.toUpperCase (jsTrim answer)) ∧
        options[k]? = some o' ∧ folded J o' = J.toLowerCase c) ↔
          options[k]?.any (fun o => J.toLowerCase (jsTrim o) == J.toLowerCase c) = true := by
      simp only [Option.any_eq_true, beq_iff_eq]
      constructor
      · rintro ⟨k', o', hcode, ho', hfold⟩
        obtain rfl := Option.some.inj ((answerCode hcode).2.2.2.symm.trans hk)
        exact ⟨o', ho', hfold⟩
      · rintro ⟨o', ho', hfold⟩
        obtain ⟨hlt, hcode, -⟩ := List.idxOf?_eq_some_iff.1 hk
        exact ⟨k, o', List.getElem?_eq_some_iff.2 ⟨hlt, hcode⟩, ho', hfold⟩
    simp only [isAnswerMatch, hne, hanswer, hdirect, hd, htrim, decide_false, Bool.or_false, Bool.false_eq_true,
      if_false, hJ.upper hmem, hidx, ho, hplace, Option.any_some, Bool.or_eq_true, beq_iff_eq, false_or, hk, hpoints]
    exact Iff.rfl

/-! ## Statement -/

/-- every tile is graded by its text, some tile is right, and no right tile can be disabled -/
structure GradedByText (J : StringOps) (data : CreateQuestionInput) : Prop where
  tile : ∀ (i : ℕ) (o : String), (shownOptions data.options)[i]? = some o → (tileGraded J data i = true ↔ o = data.correctAnswer)
  right : ∃ i, i < (shownOptions data.options).length ∧ tileGraded J data i = true
  disabled : ∀ count rng, ∀ i ∈ disabledIndexes count data.options data.correctAnswer rng, tileGraded J data i = false

/-- the answer has a tile, and no other tile has its text, but for case and outer space, or has its text as letter -/
def Unambiguous (J : StringOps) (data : CreateQuestionInput) : Prop :=
  data.correctAnswer ∈ shownOptions data.options ∧
    ∀ (i : ℕ) (o c : String), answerCodes[i]? = some c → data.options[i]? = some o → o ≠ data.correctAnswer →
      folded J o ≠ folded J data.correctAnswer ∧ folded J data.correctAnswer ≠ J.toLowerCase c

/-- a tile that is shown has a letter -/
theorem shown_iff {options : List String} {i : ℕ} {o : String} :
    (shownOptions options)[i]? = some o ↔ options[i]? = some o ∧ ∃ c, answerCodes[i]? = some c := by
  have hcode : (∃ c, answerCodes[i]? = some c) ↔ i < answerCodes.length :=
    ⟨fun ⟨c, hc⟩ => (List.getElem?_eq_some_iff.1 hc).1, fun h => ⟨_, List.getElem?_eq_getElem h⟩⟩
  rw [hcode, shownOptions, List.getElem?_take]
  split_ifs with h <;> simp [h]

/-- the letter of an unambiguous question's tile is right only if the tile's text is -/
theorem Unambiguous.tile_text {J : StringOps} (hJ : LatinCase J) {data : CreateQuestionInput} (h : Unambiguous J data)
    {i : ℕ} {c o : String} (hc : answerCodes[i]? = some c) (ho : data.options[i]? = some o)
    (hanswer : data.correctAnswer ≠ "")
    (hgraded : isAnswerMatch J (some c) (some data.correctAnswer) data.options = true) : o = data.correctAnswer := by
  by_contra hne
  obtain ⟨htext, hletter⟩ := h.2 i o c hc ho hne
  rcases (match_code_iff hJ hc ho hanswer).1 hgraded with hown | hsame | ⟨k, o', hcode, ho', hpoints⟩
  · exact hletter hown
  · exact htext hsame
  -- the answer is the letter of tile `k`, so the text there is the answer itself, and reads as the letter of tile `i`
  have hcase := (hJ (jsTrim data.correctAnswer) _ (answerCode hcode).1).2 rfl
  by_cases ho'' : o' = data.correctAnswer
  · rw [ho''] at hpoints
    exact hletter hpoints
  · exact (h.2 k o' _ hcode ho' ho'').2 hcase

/-- **Tiles are graded by their text.** For a question of the schema it is so exactly when the answer is unambiguous
among the tiles. -/
theorem tiles_graded_iff (J : StringOps) (hJ : LatinCase J) (data : CreateQuestionInput)
    (h : createQuestionSchema data = true) : GradedByText J data ↔ Unambiguous J data := by
  have hanswer : data.correctAnswer ≠ "" := by
    intro hempty
    simp [createQuestionSchema, hempty, utf16] at h
  constructor
  · intro hgraded
    obtain ⟨i, hi, hright⟩ := hgraded.right
    constructor
    · have htext := (hgraded.tile i _ (List.getElem?_eq_getElem hi)).1 hright
      rw [← htext]
      exact List.getElem_mem hi
    · intro i o c hc ho hne
      have hwrong : ¬isAnswerMatch J (some c) (some data.correctAnswer) data.options = true := by
        intro hmatch
        refine hne ((hgraded.tile i o (shown_iff.2 ⟨ho, c, hc⟩)).1 ?_)
        rw [tileGraded, hc]
        exact hmatch
      rw [match_code_iff hJ hc ho hanswer] at hwrong
      exact ⟨fun hsame => hwrong (.inr (.inl hsame)), fun hown => hwrong (.inl hown)⟩
  · intro hclear
    have htile : ∀ i o, (shownOptions data.options)[i]? = some o →
        (tileGraded J data i = true ↔ o = data.correctAnswer) := by
      intro i o hshown
      obtain ⟨ho, c, hc⟩ := shown_iff.1 hshown
      rw [tileGraded, hc]
      constructor
      · exact hclear.tile_text hJ hc ho hanswer
      · rintro rfl
        exact (match_code_iff hJ hc ho hanswer).2 (.inr (.inl rfl))
    refine ⟨htile, ?_, ?_⟩
    · obtain ⟨i, hi, htext⟩ := List.getElem_of_mem hclear.1
      exact ⟨i, hi, (htile i _ (List.getElem?_eq_getElem hi)).2 htext⟩
    · intro count rng i hi
      have hwrong := mem_disabledIndexes hi
      cases hc : answerCodes[i]? with
      | none =>
        rw [tileGraded, hc]
        rfl
      | some c =>
        rw [Bool.eq_false_iff]
        intro hright
        have hlt := List.mem_filter.1 (mem_drawWith _ _ _ hi)
        obtain ⟨o, ho⟩ : ∃ o, data.options[i]? = some o :=
          ⟨_, List.getElem?_eq_getElem (List.mem_range.1 hlt.1)⟩
        rw [(htile i o (shown_iff.2 ⟨ho, c, hc⟩)).1 hright] at ho
        exact hwrong ho

/-- the capital of France -/
def capitals : CreateQuestionInput := ⟨"What is the capital of France?", ["Paris", "London", "Berlin", "Madrid"], "Paris"⟩

theorem tiles_graded_iff_capitals : GradedByText StringOps.ascii capitals := by
  refine (tiles_graded_iff StringOps.ascii latinCase_ascii capitals (by decide)).2 ⟨by decide, ?_⟩
  intro i o c hc ho hne
  have hclear : ∀ i < 4, ∀ c ∈ answerCodes[i]?, ∀ o ∈ capitals.options[i]?, o ≠ capitals.correctAnswer →
      folded StringOps.ascii o ≠ folded StringOps.ascii capitals.correctAnswer ∧
        folded StringOps.ascii capitals.correctAnswer ≠ StringOps.ascii.toLowerCase c := by
    decide +kernel
  exact hclear i (List.getElem?_eq_some_iff.1 hc).1 c hc o ho hne

/-- the answer "B" is the first option -/
def letters : CreateQuestionInput := ⟨"Which letter comes second?", ["B", "A"], "B"⟩

/-- **The other tile is graded correct**, and TN-1 can disable it. -/
theorem other_tile_graded_correct :
    createQuestionSchema letters = true ∧ letters.options[1]? = some "A" ∧ letters.correctAnswer = "B" ∧
      tileGraded StringOps.ascii letters 1 = true ∧
      1 ∈ disabledIndexes 2 letters.options letters.correctAnswer (fun _ => 0) ∧
      ¬GradedByText StringOps.ascii letters := by
  have hfacts : createQuestionSchema letters = true ∧ letters.options[1]? = some "A" ∧ letters.correctAnswer = "B" ∧
      tileGraded StringOps.ascii letters 1 = true ∧
      1 ∈ disabledIndexes 2 letters.options letters.correctAnswer (fun _ => 0) := by
    decide +kernel
  obtain ⟨hschema, hother, hanswer, hgraded, hdisabled⟩ := hfacts
  refine ⟨hschema, hother, hanswer, hgraded, hdisabled, fun h => ?_⟩
  rw [h.disabled 2 _ 1 hdisabled] at hgraded
  cases hgraded

end Arena.Api
