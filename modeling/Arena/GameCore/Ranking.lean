/-
The canonical ranking of `assignPlacements`, over every number that is not NaN.

Players are of any type with the fields the comparator reads. A number is finite or one of the infinities, and of a
difference only the sign matters. `localeCompare` is a function of which `IdOrder` is assumed: a strict total order on
the ids of the list.

- `comparePlaced_le`: the comparator orders by winner, rounds, score and speed, then by id;
- `assignPlacements_canonical`: the ranking is the players in that order with placements from 1, whatever the order of
  the list;
- `empty_winner_not_first`: an empty winner id counts as none, even if a player has it;
- `assignPlacements_engine`: on whole scores and rounds it is the ranking of the rating engine.
-/
import Arena.GameCore.Elo
import Arena.Lib.Unicode

namespace Arena.GameCore.Ranking

open Arena.Lib Arena.Shared

/-! ## Model -/

/-- a number of the language that is not NaN -/
abbrev Num : Type := WithBot (WithTop ℚ)

/-- what the comparator reads of a player; a missing and a null field are read alike -/
structure PlayerFields where
  userId : String
  score : Num
  avgResponseMs : Option Num
  survivedRounds : Option Num
  eliminatedInRound : Option Num
  isWinner : Bool
deriving DecidableEq

structure Placed (T : Type) where
  player : T
  placement : ℕ
deriving DecidableEq

/-- the sign of `a - b` -/
def differenceSign (a b : Num) : ℚ := if a < b then -1 else if b < a then 1 else 0

def roundsOf (p : PlayerFields) : Num := (p.survivedRounds.or p.eliminatedInRound).getD 0

def speedOf (p : PlayerFields) : Num := p.avgResponseMs.getD ⊤

/-- whether the comparator takes a player for the winner -/
def ranksAsWinner (effectiveWinner : Option String) (p : PlayerFields) : Bool :=
  match effectiveWinner with
  | some w => p.userId = w
  | none => p.isWinner

/-- the comparator of `assignPlacements` -/
def comparePlaced (localeCompare : String → String → ℚ) (effectiveWinner : Option String) (a b : PlayerFields) : ℚ :=
  let aIsWinner := ranksAsWinner effectiveWinner a
  let bIsWinner := ranksAsWinner effectiveWinner b
  if aIsWinner && !bIsWinner then -1
  else if !aIsWinner && bIsWinner then 1
  else if roundsOf b ≠ roundsOf a then differenceSign (roundsOf b) (roundsOf a)
  else if b.score ≠ a.score then differenceSign b.score a.score
  else if speedOf a ≠ speedOf b then differenceSign (speedOf a) (speedOf b)
  else localeCompare a.userId b.userId

section Generic

variable {T : Type} (fields : T → PlayerFields) (localeCompare : String → String → ℚ)

def idsOf (players : List T) : List String := players.map fun p => (fields p).userId

/-- the winner id when it is not empty and names one of the players -/
def effectiveWinnerId (players : List T) (winnerId : Option String) : Option String :=
  winnerId.filter fun w => w ≠ "" && players.any fun p => (fields p).userId = w

def assignPlacements (players : List T) (winnerId : Option String) : List (Placed T) :=
  (jsSort (fun a b => comparePlaced localeCompare (effectiveWinnerId fields players winnerId) (fields a) (fields b))
    players).zipIdx.map fun p => ⟨p.1, p.2 + 1⟩

end Generic

/-- `localeCompare` is a strict total order on some ids -/
structure IdOrder (localeCompare : String → String → ℚ) (ids : List String) : Prop where
  self : ∀ a ∈ ids, localeCompare a a = 0
  flip : ∀ a ∈ ids, ∀ b ∈ ids, 0 < localeCompare a b ↔ localeCompare b a < 0
  total : ∀ a ∈ ids, ∀ b ∈ ids, a ≠ b → localeCompare a b < 0 ∨ localeCompare b a < 0
  trans : ∀ a ∈ ids, ∀ b ∈ ids, ∀ c ∈ ids, localeCompare a b < 0 → localeCompare b c < 0 → localeCompare a c < 0

/-- `a` is to be placed before `b` -/
def Outranks (localeCompare : String → String → ℚ) (effectiveWinner : Option String) (a b : PlayerFields) : Prop :=
  ranksAsWinner effectiveWinner a = true ∧ ranksAsWinner effectiveWinner b = false ∨
    ranksAsWinner effectiveWinner a = ranksAsWinner effectiveWinner b ∧
      (roundsOf b < roundsOf a ∨ roundsOf b = roundsOf a ∧
        (b.score < a.score ∨ b.score = a.score ∧
          (speedOf a < speedOf b ∨ speedOf a = speedOf b ∧ localeCompare a.userId b.userId < 0)))

/-! ## The comparator -/

/-- what is compared before the ids -/
def key (effectiveWinner : Option String) (p : PlayerFields) : ℕ ×ₗ Numᵒᵈ ×ₗ Numᵒᵈ ×ₗ Num :=
  toLex (if ranksAsWinner effectiveWinner p then 0 else 1,
    toLex (OrderDual.toDual (roundsOf p), toLex (OrderDual.toDual p.score, speedOf p)))

theorem differenceSign_le {a b : Num} (h : a ≠ b) : differenceSign a b ≤ 0 ↔ a < b := by
  unfold differenceSign
  rcases lt_or_gt_of_ne h with hlt | hlt
  · simp [hlt]
  · simp [hlt, hlt.not_gt, not_le.2 (zero_lt_one (α := ℚ))]

theorem key_lt {w : Option String} {a b : PlayerFields} : key w a < key w b ↔
    ranksAsWinner w a = true ∧ ranksAsWinner w b = false ∨ ranksAsWinner w a = ranksAsWinner w b ∧
      (roundsOf b < roundsOf a ∨ roundsOf b = roundsOf a ∧
        (b.score < a.score ∨ b.score = a.score ∧ speedOf a < speedOf b)) := by
  simp only [key, Prod.Lex.toLex_lt_toLex, OrderDual.toDual_lt_toDual, OrderDual.toDual_inj, eq_comm]
  cases ranksAsWinner w a <;> cases ranksAsWinner w b <;> simp

theorem key_eq {w : Option String} {a b : PlayerFields} : key w a = key w b ↔
    ranksAsWinner w a = ranksAsWinner w b ∧ roundsOf b = roundsOf a ∧ b.score = a.score ∧ speedOf a = speedOf b := by
  simp only [key, toLex_inj, Prod.mk.injEq, OrderDual.toDual_inj]
  cases ranksAsWinner w a <;> cases ranksAsWinner w b <;> simp [eq_comm]

/-- the comparator puts the better key first and asks the ids where the keys are equal -/
theorem comparePlaced_le (localeCompare : String → String → ℚ) (w : Option String) (a b : PlayerFields) :
    comparePlaced localeCompare w a b ≤ 0 ↔
      key w a < key w b ∨ key w a = key w b ∧ localeCompare a.userId b.userId ≤ 0 := by
  rw [key_lt, key_eq]
  unfold comparePlaced
  simp only []
  by_cases hwin : ranksAsWinner w a = ranksAsWinner w b
  · have h1 : ¬(ranksAsWinner w a && !ranksAsWinner w b) = true := by rw [hwin]; simp
    have h2 : ¬(!ranksAsWinner w a && ranksAsWinner w b) = true := by rw [hwin]; simp
    rw [if_neg h1, if_neg h2]
    split_ifs with hr hs hv
    · rw [differenceSign_le hr]
      simp [hwin, hr]
    · rw [differenceSign_le hs]
      simp only [ne_eq, not_not] at hr
      simp [hwin, hr, hs]
    · rw [differenceSign_le hv]
      simp only [ne_eq, not_not] at hr hs
      simp [hwin, hr, hs, hv]
    · simp only [ne_eq, not_not] at hr hs hv
      simp [hwin, hr, hs, hv]
  · cases ha : ranksAsWinner w a
    · have hb : ranksAsWinner w b = true := by
        rw [ha] at hwin
        simpa using hwin
      simp [hb, not_le.2 (zero_lt_one (α := ℚ))]
    · have hb : ranksAsWinner w b = false := by
        rw [ha] at hwin
        simpa using hwin
      simp [hb]

/-! ## Sorting a list by a comparator that is an order on it -/

section Sorting

variable {α : Type} {cmp : α → α → ℚ} {l : List α}

/-- a sorted list is in order when the comparator is total and transitive on its elements -/
theorem jsSort_sorted_on (htotal : ∀ a ∈ l, ∀ b ∈ l, cmp a b ≤ 0 ∨ cmp b a ≤ 0)
    (htrans : ∀ a ∈ l, ∀ b ∈ l, ∀ c ∈ l, cmp a b ≤ 0 → cmp b c ≤ 0 → cmp a c ≤ 0) :
    (jsSort cmp l).Pairwise fun a b => cmp a b ≤ 0 := by
  -- sorted with its membership proofs, the list is compared by an order on a type
  have hattach : (jsSort (fun a b : {x // x ∈ l} => cmp a b) l.attach).map Subtype.val = jsSort cmp l := by
    conv_rhs => rw [← List.attach_map_subtype_val l]
    exact List.map_insertionSort _ _ _ _ fun a _ b _ => Iff.rfl
  rw [← hattach, List.pairwise_map]
  exact jsSort_sorted (fun a b : {x // x ∈ l} => cmp a b) (fun a b => htotal a a.2 b b.2)
    (fun a b c => htrans a a.2 b b.2 c c.2) l.attach

/-- and it is the only list in that order -/
theorem jsSort_eq_of_perm_on {l' : List α} (h : l.Perm l') (htotal : ∀ a ∈ l, ∀ b ∈ l, cmp a b ≤ 0 ∨ cmp b a ≤ 0)
    (htrans : ∀ a ∈ l, ∀ b ∈ l, ∀ c ∈ l, cmp a b ≤ 0 → cmp b c ≤ 0 → cmp a c ≤ 0)
    (hanti : ∀ a ∈ l, ∀ b ∈ l, cmp a b ≤ 0 → cmp b a ≤ 0 → a = b) : jsSort cmp l = jsSort cmp l' := by
  have hmem : ∀ a, a ∈ l' → a ∈ l := fun a ha => h.mem_iff.2 ha
  refine List.Perm.eq_of_pairwise (fun a b ha hb => ?_) (jsSort_sorted_on htotal htrans)
    (jsSort_sorted_on (fun a ha b hb => htotal a (hmem a ha) b (hmem b hb))
      fun a ha b hb c hc => htrans a (hmem a ha) b (hmem b hb) c (hmem c hc))
    (((jsSort_perm cmp l).trans h).trans (jsSort_perm cmp l').symm)
  exact hanti a ((mem_jsSort cmp l a).1 ha) b (hmem b ((mem_jsSort cmp l' b).1 hb))

end Sorting

/-! ## The ranking -/

section Canonical

variable {T : Type} {fields : T → PlayerFields} {localeCompare : String → String → ℚ} {players : List T}

theorem mem_idsOf {p : T} (h : p ∈ players) : (fields p).userId ∈ idsOf fields players :=
  List.mem_map.2 ⟨p, h, rfl⟩

/-- players of a list are told apart by their ids -/
theorem eq_of_userId (hids : (idsOf fields players).Nodup) {a b : T} (ha : a ∈ players) (hb : b ∈ players)
    (h : (fields a).userId = (fields b).userId) : a = b := List.inj_on_of_nodup_map hids ha hb h

theorem idCompare_le (hC : IdOrder localeCompare (idsOf fields players)) {a b : T} (ha : a ∈ players)
    (hb : b ∈ players) : localeCompare (fields a).userId (fields b).userId ≤ 0 ↔
      (fields a).userId = (fields b).userId ∨ localeCompare (fields a).userId (fields b).userId < 0 := by
  constructor
  · intro hle
    by_cases heq : (fields a).userId = (fields b).userId
    · exact Or.inl heq
    · rcases hC.total _ (mem_idsOf ha) _ (mem_idsOf hb) heq with h | h
      · exact Or.inr h
      · exact absurd ((hC.flip _ (mem_idsOf ha) _ (mem_idsOf hb)).2 h) (not_lt.2 hle)
  · rintro (heq | hlt)
    · rw [heq, hC.self _ (mem_idsOf hb)]
    · exact hlt.le

/-- on the players of the list the comparator is a strict order of the keys and the ids -/
theorem comparePlaced_lt (hids : (idsOf fields players).Nodup) (hC : IdOrder localeCompare (idsOf fields players))
    (w : Option String) {a b : T} (ha : a ∈ players) (hb : b ∈ players) :
    comparePlaced localeCompare w (fields a) (fields b) ≤ 0 ↔
      a = b ∨ Outranks localeCompare w (fields a) (fields b) := by
  rw [comparePlaced_le, idCompare_le hC ha hb, key_lt, key_eq]
  unfold Outranks
  constructor
  · rintro (h | ⟨hkey, heq | hlt⟩)
    · right
      rcases h with h | ⟨h1, h2 | ⟨h2, h3 | ⟨h3, h4⟩⟩⟩
      · exact Or.inl h
      · exact Or.inr ⟨h1, Or.inl h2⟩
      · exact Or.inr ⟨h1, Or.inr ⟨h2, Or.inl h3⟩⟩
      · exact Or.inr ⟨h1, Or.inr ⟨h2, Or.inr ⟨h3, Or.inl h4⟩⟩⟩
    · exact Or.inl (eq_of_userId hids ha hb heq)
    · exact Or.inr (Or.inr ⟨hkey.1, Or.inr ⟨hkey.2.1, Or.inr ⟨hkey.2.2.1, Or.inr ⟨hkey.2.2.2, hlt⟩⟩⟩⟩)
  · rintro (rfl | h | ⟨h1, h2 | ⟨h2, h3 | ⟨h3, h4 | ⟨h4, h5⟩⟩⟩⟩)
    · exact Or.inr ⟨⟨rfl, rfl, rfl, rfl⟩, Or.inl rfl⟩
    · exact Or.inl (Or.inl h)
    · exact Or.inl (Or.inr ⟨h1, Or.inl h2⟩)
    · exact Or.inl (Or.inr ⟨h1, Or.inr ⟨h2, Or.inl h3⟩⟩)
    · exact Or.inl (Or.inr ⟨h1, Or.inr ⟨h2, Or.inr ⟨h3, h4⟩⟩⟩)
    · exact Or.inr ⟨⟨h1, h2, h3, h4⟩, Or.inr h5⟩

theorem comparePlaced_total (hC : IdOrder localeCompare (idsOf fields players)) (w : Option String) {a b : T}
    (ha : a ∈ players) (hb : b ∈ players) : comparePlaced localeCompare w (fields a) (fields b) ≤ 0 ∨
      comparePlaced localeCompare w (fields b) (fields a) ≤ 0 := by
  rw [comparePlaced_le, comparePlaced_le, idCompare_le hC ha hb, idCompare_le hC hb ha]
  rcases lt_trichotomy (key w (fields a)) (key w (fields b)) with h | h | h
  · exact Or.inl (Or.inl h)
  · by_cases heq : (fields a).userId = (fields b).userId
    · exact Or.inl (Or.inr ⟨h, Or.inl heq⟩)
    · rcases hC.total _ (mem_idsOf ha) _ (mem_idsOf hb) heq with hlt | hlt
      · exact Or.inl (Or.inr ⟨h, Or.inr hlt⟩)
      · exact Or.inr (Or.inr ⟨h.symm, Or.inr hlt⟩)
  · exact Or.inr (Or.inl h)

theorem comparePlaced_trans (hC : IdOrder localeCompare (idsOf fields players)) (w : Option String) {a b c : T}
    (ha : a ∈ players) (hb : b ∈ players) (hc : c ∈ players)
    (hab : comparePlaced localeCompare w (fields a) (fields b) ≤ 0)
    (hbc : comparePlaced localeCompare w (fields b) (fields c) ≤ 0) :
    comparePlaced localeCompare w (fields a) (fields c) ≤ 0 := by
  rw [comparePlaced_le, idCompare_le hC ha hb] at hab
  rw [comparePlaced_le, idCompare_le hC hb hc] at hbc
  rw [comparePlaced_le, idCompare_le hC ha hc]
  rcases hab with hab | ⟨hab, hidab⟩
  · rcases hbc with hbc | ⟨hbc, -⟩
    · exact Or.inl (hab.trans hbc)
    · exact Or.inl (hbc ▸ hab)
  · rcases hbc with hbc | ⟨hbc, hidbc⟩
    · exact Or.inl (hab ▸ hbc)
    · refine Or.inr ⟨hab.trans hbc, ?_⟩
      rcases hidab with heq | hlt
      · rw [heq]
        exact hidbc
      · rcases hidbc with heq | hlt'
        · rw [← heq]
          exact Or.inr hlt
        · exact Or.inr (hC.trans _ (mem_idsOf ha) _ (mem_idsOf hb) _ (mem_idsOf hc) hlt hlt')

theorem comparePlaced_antisymm (hids : (idsOf fields players).Nodup)
    (hC : IdOrder localeCompare (idsOf fields players)) (w : Option String) {a b : T} (ha : a ∈ players)
    (hb : b ∈ players) (hab : comparePlaced localeCompare w (fields a) (fields b) ≤ 0)
    (hba : comparePlaced localeCompare w (fields b) (fields a) ≤ 0) : a = b := by
  rw [comparePlaced_le, idCompare_le hC ha hb] at hab
  rw [comparePlaced_le, idCompare_le hC hb ha] at hba
  rcases hab with hab | ⟨hkey, heq | hlt⟩
  · rcases hba with hba | ⟨hkey, -⟩
    · exact absurd (hab.trans hba) (lt_irrefl _)
    · exact absurd (hkey ▸ hab) (lt_irrefl _)
  · exact eq_of_userId hids ha hb heq
  · rcases hba with hba | ⟨-, heq | hlt'⟩
    · exact absurd (hkey ▸ hba) (lt_irrefl _)
    · exact (eq_of_userId hids hb ha heq).symm
    · exact absurd ((hC.flip _ (mem_idsOf hb) _ (mem_idsOf ha)).2 hlt) (not_lt.2 hlt'.le)

theorem assignPlacements_players (players : List T) (winnerId : Option String) :
    (assignPlacements fields localeCompare players winnerId).map Placed.player =
      jsSort (fun a b => comparePlaced localeCompare (effectiveWinnerId fields players winnerId) (fields a) (fields b))
        players := by
  rw [assignPlacements, List.map_map]
  exact List.zipIdx_map_fst 0 _

theorem assignPlacements_placements (players : List T) (winnerId : Option String) :
    (assignPlacements fields localeCompare players winnerId).map Placed.placement =
      List.range' 1 players.length := by
  have hlen : (jsSort (fun a b => comparePlaced localeCompare (effectiveWinnerId fields players winnerId) (fields a)
      (fields b)) players).length = players.length := (jsSort_perm _ _).length_eq
  rw [assignPlacements, List.map_map, ← hlen]
  apply List.ext_getElem
  · simp
  · intro i h1 h2
    simp [Nat.add_comm]

/-- a winner id names a player of the reordered list exactly if it does of the list -/
theorem effectiveWinnerId_perm {players' : List T} (h : players.Perm players') (winnerId : Option String) :
    effectiveWinnerId fields players' winnerId = effectiveWinnerId fields players winnerId := by
  have hany : ∀ w, players'.any (fun p => (fields p).userId = w) = players.any fun p => (fields p).userId = w :=
    fun w => h.symm.any_eq
  unfold effectiveWinnerId
  simp only [hany]

/-- the winner is the player with the given id, where it is one of the list's and not empty -/
theorem ranksAsWinner_id {w : String} (hw : w ≠ "") (hmem : w ∈ idsOf fields players) (p : T) :
    ranksAsWinner (effectiveWinnerId fields players (some w)) (fields p) = true ↔ (fields p).userId = w := by
  have hany : (players.any fun p => (fields p).userId = w) = true := by
    obtain ⟨q, hq, rfl⟩ := List.mem_map.1 hmem
    exact List.any_eq_true.2 ⟨q, hq, by simp⟩
  have heff : effectiveWinnerId fields players (some w) = some w := by
    simp [effectiveWinnerId, Option.filter, hw, hany]
  rw [heff]
  simp [ranksAsWinner]

/-- and the flagged players otherwise -/
theorem ranksAsWinner_flag {winnerId : Option String} (h : ∀ w ∈ winnerId, w = "" ∨ w ∉ idsOf fields players) (p : T) :
    ranksAsWinner (effectiveWinnerId fields players winnerId) (fields p) = (fields p).isWinner := by
  have heff : effectiveWinnerId fields players winnerId = none := by
    unfold effectiveWinnerId
    rw [Option.filter_eq_none_iff]
    intro w hw hkeep
    rw [Bool.and_eq_true, decide_eq_true_eq] at hkeep
    rcases h w hw with hempty | hmem
    · exact hkeep.1 hempty
    · obtain ⟨q, hq, hqw⟩ := List.any_eq_true.1 hkeep.2
      exact hmem (List.mem_map.2 ⟨q, hq, by simpa using hqw⟩)
  rw [heff]
  rfl

/-- **The ranking is canonical.** It is the players of the list with placements from 1; each is placed before the next by
winner, rounds, score, speed and id, in this order; the winner is the player named by an id that is not empty, or else
the flagged ones; and the order of the list does not matter. -/
theorem assignPlacements_canonical (fields : T → PlayerFields) (localeCompare : String → String → ℚ) (players : List T)
    (hids : (idsOf fields players).Nodup) (hC : IdOrder localeCompare (idsOf fields players))
    (winnerId : Option String) :
    ((assignPlacements fields localeCompare players winnerId).map Placed.player).Perm players ∧
    (assignPlacements fields localeCompare players winnerId).map Placed.placement = List.range' 1 players.length ∧
    ((assignPlacements fields localeCompare players winnerId).map Placed.player).Pairwise (fun a b =>
      Outranks localeCompare (effectiveWinnerId fields players winnerId) (fields a) (fields b)) ∧
    (∀ w, winnerId = some w → w ≠ "" → w ∈ idsOf fields players → ∀ p,
      ranksAsWinner (effectiveWinnerId fields players winnerId) (fields p) = true ↔ (fields p).userId = w) ∧
    ((∀ w ∈ winnerId, w = "" ∨ w ∉ idsOf fields players) → ∀ p,
      ranksAsWinner (effectiveWinnerId fields players winnerId) (fields p) = (fields p).isWinner) ∧
    ∀ players', players.Perm players' →
      assignPlacements fields localeCompare players' winnerId =
        assignPlacements fields localeCompare players winnerId := by
  have hperm : ((assignPlacements fields localeCompare players winnerId).map Placed.player).Perm players := by
    rw [assignPlacements_players]
    exact jsSort_perm _ _
  refine ⟨hperm, assignPlacements_placements players winnerId, ?_, ?_, fun h p => ranksAsWinner_flag h p,
    fun players' h => ?_⟩
  · have hnodup : ((assignPlacements fields localeCompare players winnerId).map Placed.player).Nodup :=
      hperm.nodup_iff.2 (List.Nodup.of_map _ hids)
    have hsorted : ((assignPlacements fields localeCompare players winnerId).map Placed.player).Pairwise fun a b =>
        comparePlaced localeCompare (effectiveWinnerId fields players winnerId) (fields a) (fields b) ≤ 0 := by
      rw [assignPlacements_players]
      exact jsSort_sorted_on (fun a ha b hb => comparePlaced_total hC _ ha hb)
        fun a ha b hb c hc => comparePlaced_trans hC _ ha hb hc
    refine (hsorted.and hnodup).imp_of_mem fun ha hb h => ?_
    exact ((comparePlaced_lt hids hC _ (hperm.mem_iff.1 ha) (hperm.mem_iff.1 hb)).1 h.1).resolve_left h.2
  · rintro w rfl hw hmem p
    exact ranksAsWinner_id hw hmem p
  · unfold assignPlacements
    rw [effectiveWinnerId_perm h]
    congr 2
    exact (jsSort_eq_of_perm_on h (fun a ha b hb => comparePlaced_total hC _ ha hb)
      (fun a ha b hb c hc => comparePlaced_trans hC _ ha hb hc)
      fun a ha b hb => comparePlaced_antisymm hids hC _ ha hb).symm

end Canonical

/-! ## Code-unit order -/

theorem compareText_lt (a b : String) : compareText a b < 0 ↔ unitKey a < unitKey b := by
  rw [← jsLt_iff]
  unfold compareText
  split_ifs with h1 h2
  · simp [h1]
  · simp [h1, not_lt.2 (zero_le_one (α := ℚ))]
  · simp [h1]

/-- code-unit order is a strict total order -/
theorem compareText_order (ids : List String) : IdOrder compareText ids where
  self a _ := by
    have hnot : jsLt a a = false := by
      rw [← Bool.not_eq_true, jsLt_iff]
      exact lt_irrefl _
    simp [compareText, hnot]
  flip a _ b _ := by
    have h := compareText_le a b
    have h' := compareText_lt b a
    rw [h', ← not_le, h, not_le]
  total a _ b _ hne := by
    rw [compareText_lt, compareText_lt]
    exact lt_or_gt_of_ne fun heq => hne (unitKey_injective heq)
  trans a _ b _ c _ := by
    rw [compareText_lt, compareText_lt, compareText_lt]
    exact lt_trans

/-- a player with the given id and rounds and nothing else -/
def survivor (userId : String) (rounds : Num) : PlayerFields := ⟨userId, 0, none, some rounds, none, false⟩

/-- **The assumption holds of code-unit order**, here with the second player as the winner. -/
theorem assignPlacements_canonical_two :
    ((assignPlacements id compareText [survivor "a" 3, survivor "b" 1] (some "b")).map Placed.player).Perm
      [survivor "a" 3, survivor "b" 1] :=
  (assignPlacements_canonical id compareText [survivor "a" 3, survivor "b" 1] (by decide) (compareText_order _)
    (some "b")).1

/-- **An empty winner id is no winner id**: the player who has it, with no round survived, comes after one who survived
a round. -/
theorem empty_winner_not_first :
    ¬∀ (players : List PlayerFields) (winnerId : String), (idsOf id players).Nodup →
      IdOrder compareText (idsOf id players) → winnerId ∈ idsOf id players →
      ∃ first rest, assignPlacements id compareText players (some winnerId) = first :: rest ∧
        first.player.userId = winnerId := by
  intro h
  obtain ⟨first, rest, hrun, hfirst⟩ := h [survivor "" 0, survivor "b" 1] "" (by decide) (compareText_order _)
    (by decide)
  have hcomputed : (assignPlacements id compareText [survivor "" 0, survivor "b" 1] (some "")).map
      (fun p => p.player.userId) = ["b", ""] := by decide +kernel
  rw [hrun, List.map_cons, hfirst] at hcomputed
  exact absurd (List.cons.inj hcomputed).1 (by decide)

/-! ## The rating engine -/

def ofInput (p : PlacementInput) : PlayerFields :=
  ⟨p.userId, ((p.score : ℚ) : WithTop ℚ), p.avgResponseMs.map fun t => ((t : WithTop ℚ) : Num),
    p.survivedRounds.map fun n => (((n : ℚ) : WithTop ℚ) : Num),
    p.eliminatedInRound.map fun n => (((n : ℚ) : WithTop ℚ) : Num), p.isWinner⟩

theorem roundsOf_ofInput (p : PlacementInput) :
    roundsOf (ofInput p) = (((GameCore.roundsOf p : ℚ) : WithTop ℚ) : Num) := by
  unfold roundsOf GameCore.roundsOf ofInput
  cases p.survivedRounds with
  | some n => rfl
  | none =>
    cases p.eliminatedInRound with
    | some n => rfl
    | none => rfl

theorem speedOf_ofInput (p : PlacementInput) : speedOf (ofInput p) = ((GameCore.speedOf p : WithTop ℚ) : Num) := by
  unfold speedOf GameCore.speedOf ofInput
  cases p.avgResponseMs with
  | some t => rfl
  | none => rfl

theorem ranksAsWinner_ofInput (w : Option String) (p : PlacementInput) :
    ranksAsWinner w (ofInput p) = GameCore.ranksAsWinner w p := by
  cases w with
  | some w => rfl
  | none => rfl

theorem key_ofInput_lt (w : Option String) (a b : PlacementInput) :
    key w (ofInput a) < key w (ofInput b) ↔ placementKey w a < placementKey w b := by
  have hscore : ∀ p, (ofInput p).score = (((p.score : ℚ) : WithTop ℚ) : Num) := fun p => rfl
  rw [key_lt]
  simp only [placementKey, Prod.Lex.toLex_lt_toLex, neg_lt_neg_iff, neg_inj, ranksAsWinner_ofInput, roundsOf_ofInput,
    speedOf_ofInput, hscore, WithBot.coe_lt_coe, WithTop.coe_lt_coe, WithBot.coe_inj, WithTop.coe_inj, Nat.cast_lt,
    Nat.cast_inj, Int.cast_lt, Int.cast_inj, eq_comm]
  cases GameCore.ranksAsWinner w a <;> cases GameCore.ranksAsWinner w b <;> simp

theorem key_ofInput_eq (w : Option String) (a b : PlacementInput) :
    key w (ofInput a) = key w (ofInput b) ↔ placementKey w a = placementKey w b := by
  have hscore : ∀ p, (ofInput p).score = (((p.score : ℚ) : WithTop ℚ) : Num) := fun p => rfl
  rw [key_eq]
  simp only [placementKey, toLex_inj, Prod.mk.injEq, neg_inj, ranksAsWinner_ofInput, roundsOf_ofInput,
    speedOf_ofInput, hscore, WithBot.coe_inj, WithTop.coe_inj, Nat.cast_inj, Int.cast_inj, eq_comm]
  cases GameCore.ranksAsWinner w a <;> cases GameCore.ranksAsWinner w b <;> simp

theorem comparePlaced_ofInput (C : Collation) (w : Option String) (a b : PlacementInput) :
    comparePlaced C.compare w (ofInput a) (ofInput b) ≤ 0 ↔ GameCore.comparePlaced C w a b ≤ 0 := by
  rw [comparePlaced_le, GameCore.comparePlaced_le, key_ofInput_lt, key_ofInput_eq]
  rfl

/-- **On whole scores and rounds this is the ranking of the rating engine.** -/
theorem assignPlacements_engine (C : Collation) (players : List PlacementInput) (winnerId : Option String) :
    (assignPlacements ofInput C.compare players winnerId).map (fun p => PlacedPlayer.mk p.player p.placement) =
      GameCore.assignPlacements C players winnerId := by
  have heff : effectiveWinnerId ofInput players winnerId = GameCore.effectiveWinnerId players winnerId := rfl
  have hsort : ∀ w, jsSort (fun a b => comparePlaced C.compare w (ofInput a) (ofInput b)) players =
      jsSort (GameCore.comparePlaced C w) players := by
    intro w
    unfold jsSort
    simp only [comparePlaced_ofInput]
  rw [assignPlacements, GameCore.assignPlacements, heff, hsort, List.map_map]
  rfl

end Arena.GameCore.Ranking
