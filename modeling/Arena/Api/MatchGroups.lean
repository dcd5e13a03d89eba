/-
The groups of one worker tick (`processQueue`): seeds in queue order, each asking for the tickets of its category within
its Elo window that no earlier group took, cut to one match, and popped all at once.

Between any two turns other clients may change the queue in any way (`TurnEnv.others`): a popped ticket is the one that
is stored at that time, which may not be the one that was read. Only `addTicket` writes ticket keys, so a stored ticket
parses. A pop may fail before or after it took effect, leadership may be lost, and a launch may throw.

- `turn_groups`: what a turn adds to the groups;
- `groups_disjoint`: no user is in two groups of a tick, whatever happens;
- `selection_compatible`, `selection_nodup`: the tickets a seed asks for are of its category, in its window and of
  distinct users, which the launch of a group (`Matchmaking.pop`) asks for;
- `processQueue_wellFormed`: the groups of a tick are well formed exactly when no seed with a group had a whole match of
  compatible tickets before it in the queue and no ticket that a group was popped with had been replaced by an
  incompatible one.
-/
import Mathlib.Data.List.TakeWhile
import Arena.Lib.JsArray
import Arena.Lib.Run
import Arena.Api.Matchmaking

namespace Arena.Api.MatchGroups

open Arena.Lib

/-! ## Configuration -/

def MAX_WAIT_TIME_MS : ℕ := 60000
def MIN_PLAYERS_TO_MATCH : ℕ := 1
def TARGET_PLAYERS_PER_MATCH : ℕ := 100
def INITIAL_ELO_WINDOW : ℕ := 150
def ELO_EXPANSION_STEP : ℕ := 50
def ELO_EXPANSION_INTERVAL_MS : ℕ := 5000

/-! ## The queue store -/

/-- the fields that the worker reads -/
structure MatchmakingTicket where
  userId : String
  elo : ℤ
  category : Option String
  joinedAt : ℤ
deriving DecidableEq, Repr

/-- the sorted set and the ticket keys, one ticket a user. The set is in any order: Redis keeps it by Elo, but a tick
reads the order once, before it sorts the tickets by their age, and never ranges over what it has added itself. -/
structure TicketStore where
  zset : List String
  ticket : String → Option MatchmakingTicket
  nodup : zset.Nodup
  keyed : ∀ u t, ticket u = some t → t.userId = u

namespace TicketStore

def addTicket (q : TicketStore) (t : MatchmakingTicket) : TicketStore where
  zset := if t.userId ∈ q.zset then q.zset else q.zset ++ [t.userId]
  ticket := Function.update q.ticket t.userId (some t)
  nodup := by
    split_ifs with h
    · exact q.nodup
    · exact List.nodup_append.2 ⟨q.nodup, List.nodup_singleton _, fun a ha b hb hab =>
        h (by rw [List.mem_singleton] at hb; rwa [← hb, ← hab])⟩
  keyed := by
    intro u t' h
    by_cases hu : u = t.userId
    · subst hu
      rw [Function.update_self, Option.some_inj] at h
      rw [h]
    · rw [Function.update_of_ne hu] at h
      exact q.keyed u t' h

def zrem (q : TicketStore) (userIds : List String) : TicketStore :=
  { q with zset := q.zset.filter (· ∉ userIds), nodup := q.nodup.filter _ }

def del (q : TicketStore) (userIds : List String) : TicketStore where
  zset := q.zset
  ticket := fun u => if u ∈ userIds then none else q.ticket u
  nodup := q.nodup
  keyed := by
    intro u t h
    split_ifs at h
    exact q.keyed u t h

/-- `ZRANGE` in one store, `MGET` in a later one -/
def getAllTickets (ranged read : TicketStore) : List MatchmakingTicket := ranged.zset.filterMap read.ticket

/-- all tickets or none -/
def popScript (q : TicketStore) (userIds : List String) : TicketStore × List MatchmakingTicket :=
  if userIds.all fun u => (q.ticket u).isSome then
    ((q.zrem userIds).del userIds, userIds.filterMap q.ticket)
  else (q.zrem (userIds.filter fun u => (q.ticket u).isNone), [])

/-- an error of the call counts as no tickets, also when the script ran -/
def atomicPopTickets (q : TicketStore) (userIds : List String) : CallResult → TicketStore × List MatchmakingTicket
  | .ok => q.popScript userIds
  | .failed => (q, [])
  | .lost => ((q.popScript userIds).1, [])

end TicketStore

/-! ## One tick -/

/-- longest waiting player first -/
def byJoinedAt (a b : MatchmakingTicket) : ℚ := ((a.joinedAt - b.joinedAt : ℤ) : ℚ)

def queueOrder (ranged read : TicketStore) : List MatchmakingTicket := jsSort byJoinedAt (ranged.getAllTickets read)

def MatchmakingTicket.normalizedCategory (t : MatchmakingTicket) : String := t.category.getD "ALL"

/-- never negative -/
def seedWaitMs (now : ℤ) (seed : MatchmakingTicket) : ℕ := (now - seed.joinedAt).toNat

def seedEloWindow (now : ℤ) (seed : MatchmakingTicket) : ℕ :=
  INITIAL_ELO_WINDOW + seedWaitMs now seed / ELO_EXPANSION_INTERVAL_MS * ELO_EXPANSION_STEP

def isTimedOut (now : ℤ) (seed : MatchmakingTicket) : Bool := decide (MAX_WAIT_TIME_MS ≤ seedWaitMs now seed)

def eloDiff (t seed : MatchmakingTicket) : ℕ := (t.elo - seed.elo).natAbs

/-- of the seed's category, and in its window unless the seed has timed out -/
def Compatible (now : ℤ) (seed t : MatchmakingTicket) : Prop :=
  t.normalizedCategory = seed.normalizedCategory ∧
    (isTimedOut now seed = true ∨ eloDiff t seed ≤ seedEloWindow now seed)

instance (now : ℤ) (seed t : MatchmakingTicket) : Decidable (Compatible now seed t) :=
  inferInstanceAs (Decidable (_ ∧ _))

def candidates (tickets : List MatchmakingTicket) (now : ℤ) (matchedUserIds : List String) (seed : MatchmakingTicket) :
    List MatchmakingTicket :=
  tickets.filter fun t => t.userId ∉ matchedUserIds ∧ Compatible now seed t

def shouldMatch (now : ℤ) (seed : MatchmakingTicket) (candidates : List MatchmakingTicket) : Bool :=
  decide (TARGET_PLAYERS_PER_MATCH ≤ candidates.length) ||
    (isTimedOut now seed && decide (MIN_PLAYERS_TO_MATCH ≤ candidates.length))

/-- the group a seed asks for, when it is not matched yet and a match can be formed -/
def selection (tickets : List MatchmakingTicket) (now : ℤ) (matchedUserIds : List String) (seed : MatchmakingTicket) :
    Option (List MatchmakingTicket) :=
  if seed.userId ∈ matchedUserIds then none
  else if shouldMatch now seed (candidates tickets now matchedUserIds seed) then
    some ((candidates tickets now matchedUserIds seed).take TARGET_PLAYERS_PER_MATCH)
  else none

structure MatchGroup where
  seed : MatchmakingTicket
  popped : List MatchmakingTicket
deriving DecidableEq, Repr

structure Batch where
  store : TicketStore
  matchedUserIds : List String
  /-- history: the groups that were launched -/
  groups : List MatchGroup
  /-- the loop was left -/
  halted : Bool

/-- what happens around a seed's turn -/
structure TurnEnv where
  renewed : Bool
  others : TicketStore → TicketStore
  reply : CallResult
  launchThrows : Bool

structure Turn where
  seed : MatchmakingTicket
  env : TurnEnv

def turn (tickets : List MatchmakingTicket) (now : ℤ) (b : Batch) (o : Turn) : Batch :=
  if b.halted then b
  else
    match selection tickets now b.matchedUserIds o.seed with
    | none => b
    | some selected =>
      if !o.env.renewed then { b with halted := true }
      else
        let (store, popped) :=
          (o.env.others b.store).atomicPopTickets (selected.map MatchmakingTicket.userId) o.env.reply
        if popped.length < MIN_PLAYERS_TO_MATCH then { b with store := popped.foldl TicketStore.addTicket store }
        else
          { store := store
            matchedUserIds := b.matchedUserIds ++ popped.map MatchmakingTicket.userId
            groups := b.groups ++ [⟨o.seed, popped⟩]
            halted := o.env.launchThrows }

def startBatch (store : TicketStore) : Batch := ⟨store, [], [], false⟩

def turns (tickets : List MatchmakingTicket) (env : ℕ → TurnEnv) : List Turn :=
  tickets.zipIdx.map fun p => ⟨p.1, env p.2⟩

def processQueue (ranged read : TicketStore) (now : ℤ) (env : ℕ → TurnEnv) : Batch :=
  run (turn (queueOrder ranged read) now) (startBatch read) (turns (queueOrder ranged read) env)

/-! ## What a tick promises -/

structure FineGroup (now : ℤ) (g : MatchGroup) : Prop where
  compatible : ∀ t ∈ g.popped, Compatible now g.seed t
  size : g.popped.length ≤ TARGET_PLAYERS_PER_MATCH
  seed_mem : ∃ t ∈ g.popped, t.userId = g.seed.userId

/-- no user in both -/
def MatchGroup.Disjoint (g h : MatchGroup) : Prop := ∀ t ∈ g.popped, ∀ t' ∈ h.popped, t.userId ≠ t'.userId

structure WellFormedGroups (now : ℤ) (groups : List MatchGroup) : Prop where
  disjoint : groups.Pairwise MatchGroup.Disjoint
  category : ∀ g ∈ groups, ∀ t ∈ g.popped, t.normalizedCategory = g.seed.normalizedCategory
  window : ∀ g ∈ groups, isTimedOut now g.seed = false →
    ∀ t ∈ g.popped, eloDiff t g.seed ≤ seedEloWindow now g.seed
  size : ∀ g ∈ groups, g.popped.length ≤ TARGET_PLAYERS_PER_MATCH
  seed_mem : ∀ g ∈ groups, ∃ t ∈ g.popped, t.userId = g.seed.userId

/-- the candidates that stand before the seed in the queue -/
def ahead (tickets : List MatchmakingTicket) (now : ℤ) (matchedUserIds : List String) (seed : MatchmakingTicket) :
    List MatchmakingTicket :=
  candidates (tickets.takeWhile (· ≠ seed)) now matchedUserIds seed

/-- the turn pops a group: every selected ticket is still there, and the reply arrives -/
structure Launches (tickets : List MatchmakingTicket) (now : ℤ) (b : Batch) (o : Turn)
    (selected : List MatchmakingTicket) : Prop where
  running : b.halted = false
  renewed : o.env.renewed = true
  selects : selection tickets now b.matchedUserIds o.seed = some selected
  reply : o.env.reply = .ok
  stored : ∀ t ∈ selected, ((o.env.others b.store).ticket t.userId).isSome

/-- a turn that pops a group has fewer than a match of candidates before the seed, and the tickets that were replaced
since they were read are still compatible with it -/
def InTime (tickets : List MatchmakingTicket) (now : ℤ) (b : Batch) (o : Turn) : Prop :=
  ∀ selected, Launches tickets now b o selected →
    (ahead tickets now b.matchedUserIds o.seed).length < TARGET_PLAYERS_PER_MATCH ∧
      ∀ t ∈ selected, ∀ t', (o.env.others b.store).ticket t.userId = some t' → t' ≠ t → Compatible now o.seed t'

/-! ## A seed's selection -/

section Selection

variable {tickets selected : List MatchmakingTicket} {now : ℤ} {matchedUserIds : List String}
  {seed t : MatchmakingTicket}

@[simp] theorem mem_candidates : t ∈ candidates tickets now matchedUserIds seed ↔
    t ∈ tickets ∧ t.userId ∉ matchedUserIds ∧ Compatible now seed t := by
  simp [candidates]

theorem compatible_self (now : ℤ) (seed : MatchmakingTicket) : Compatible now seed seed :=
  ⟨rfl, .inr (by simp [eloDiff])⟩

theorem selection_spec (h : selection tickets now matchedUserIds seed = some selected) :
    seed.userId ∉ matchedUserIds ∧
      selected = (candidates tickets now matchedUserIds seed).take TARGET_PLAYERS_PER_MATCH ∧ 0 < selected.length := by
  unfold selection at h
  split_ifs at h with hseed hmatch
  refine ⟨hseed, (Option.some_inj.1 h).symm, ?_⟩
  have hpos : 1 ≤ (candidates tickets now matchedUserIds seed).length := by
    rw [shouldMatch, Bool.or_eq_true, Bool.and_eq_true] at hmatch
    rcases hmatch with hfull | ⟨-, htimed⟩
    · exact le_trans (by decide) (of_decide_eq_true hfull)
    · exact of_decide_eq_true htimed
  rw [← Option.some_inj.1 h, List.length_take]
  exact lt_min (by decide) hpos

/-- a group is asked for among the tickets of the seed's category in its window that no earlier group took -/
theorem selection_compatible (h : selection tickets now matchedUserIds seed = some selected) (ht : t ∈ selected) :
    t ∈ tickets ∧ t.userId ∉ matchedUserIds ∧ Compatible now seed t := by
  rw [(selection_spec h).2.1] at ht
  exact mem_candidates.1 (List.mem_of_mem_take ht)

/-- the users of a selection are distinct, as `pop` asks of its callers -/
theorem selection_nodup (hn : (tickets.map MatchmakingTicket.userId).Nodup)
    (h : selection tickets now matchedUserIds seed = some selected) :
    (selected.map MatchmakingTicket.userId).Nodup := by
  rw [(selection_spec h).2.1]
  exact hn.sublist (((List.take_sublist _ _).trans List.filter_sublist).map _)

/-- the candidates before the seed, the seed, and those after it -/
theorem candidates_split (hseed : seed ∈ tickets) (hm : seed.userId ∉ matchedUserIds) :
    ∃ behind, candidates tickets now matchedUserIds seed = ahead tickets now matchedUserIds seed ++ seed :: behind := by
  have hdrop : ∃ rest, tickets.dropWhile (· ≠ seed) = seed :: rest := by
    induction tickets with
    | nil => simp at hseed
    | cons a rest ih =>
      by_cases ha : a = seed
      · exact ⟨rest, by simp [ha]⟩
      · rw [List.dropWhile_cons_of_pos (by simpa using ha)]
        exact ih ((List.mem_cons.1 hseed).resolve_left (Ne.symm ha))
  obtain ⟨rest, hrest⟩ := hdrop
  refine ⟨candidates rest now matchedUserIds seed, ?_⟩
  conv_lhs => rw [← List.takeWhile_append_dropWhile (p := (· ≠ seed)) (l := tickets), hrest]
  simp only [candidates, ahead, List.filter_append]
  rw [List.filter_cons_of_pos (by simpa using ⟨hm, compatible_self now seed⟩)]

/-- **The cut.** The seed is selected exactly when fewer than a match of candidates stand before it. -/
theorem seed_selected_iff (hseed : seed ∈ tickets) (h : selection tickets now matchedUserIds seed = some selected) :
    seed ∈ selected ↔ (ahead tickets now matchedUserIds seed).length < TARGET_PLAYERS_PER_MATCH := by
  obtain ⟨hm, hsel, -⟩ := selection_spec h
  obtain ⟨behind, hsplit⟩ : ∃ behind, candidates tickets now matchedUserIds seed =
      ahead tickets now matchedUserIds seed ++ seed :: behind := candidates_split hseed hm
  have hnot : seed ∉ ahead tickets now matchedUserIds seed := fun hin => by
    have := List.mem_takeWhile_imp (mem_candidates.1 hin).1
    simp at this
  rw [hsel, hsplit, List.take_append, List.mem_append]
  constructor
  · rintro (hin | hin)
    · exact absurd (List.mem_of_mem_take hin) hnot
    · by_contra hge
      rw [Nat.sub_eq_zero_of_le (not_lt.1 hge)] at hin
      simp at hin
  · intro hlt
    refine .inr ?_
    rw [← Nat.succ_pred_eq_of_pos (Nat.sub_pos_of_lt hlt)]
    exact List.mem_cons_self

end Selection

/-! ## A turn -/

/-- the tickets that the pop of a turn returns when it returns any -/
def poppedOf (b : Batch) (o : Turn) (selected : List MatchmakingTicket) : List MatchmakingTicket :=
  selected.filterMap fun t => (o.env.others b.store).ticket t.userId

section Turns

variable {tickets selected : List MatchmakingTicket} {now : ℤ} {b : Batch} {o : Turn} {t : MatchmakingTicket}

theorem mem_poppedOf : t ∈ poppedOf b o selected ↔
    ∃ s ∈ selected, (o.env.others b.store).ticket s.userId = some t ∧ t.userId = s.userId := by
  simp only [poppedOf, List.mem_filterMap]
  refine exists_congr fun s => and_congr_right fun _ => ?_
  exact ⟨fun h => ⟨h, (o.env.others b.store).keyed _ _ h⟩, fun h => h.1⟩

theorem length_filterMap_of_isSome {α β : Type} (f : α → Option β) (l : List α) (h : ∀ a ∈ l, (f a).isSome) :
    (l.filterMap f).length = l.length := by
  induction l with
  | nil => rfl
  | cons a l ih =>
    obtain ⟨x, hx⟩ := Option.isSome_iff_exists.1 (h a List.mem_cons_self)
    rw [List.filterMap_cons_some hx, List.length_cons, List.length_cons, ih fun y hy => h y (List.mem_cons_of_mem a hy)]

/-- the pop returns the stored tickets of all selected users, or none -/
theorem atomicPopTickets_popped (q : TicketStore) (selected : List MatchmakingTicket) (reply : CallResult) :
    (reply = .ok ∧ (∀ t ∈ selected, (q.ticket t.userId).isSome) ∧
      (q.atomicPopTickets (selected.map MatchmakingTicket.userId) reply).2 =
        selected.filterMap fun t => q.ticket t.userId) ∨
    (¬(reply = .ok ∧ ∀ t ∈ selected, (q.ticket t.userId).isSome) ∧
      (q.atomicPopTickets (selected.map MatchmakingTicket.userId) reply).2 = []) := by
  cases reply with
  | failed => exact .inr ⟨by simp, rfl⟩
  | lost => exact .inr ⟨by simp, rfl⟩
  | ok =>
    by_cases hall : ∀ t ∈ selected, (q.ticket t.userId).isSome
    · refine .inl ⟨rfl, hall, ?_⟩
      have : ((selected.map MatchmakingTicket.userId).all fun u => (q.ticket u).isSome) = true := by simpa using hall
      simp only [TicketStore.atomicPopTickets, TicketStore.popScript, this, if_true, List.filterMap_map]
      rfl
    · refine .inr ⟨fun h => hall h.2, ?_⟩
      have : ¬((selected.map MatchmakingTicket.userId).all fun u => (q.ticket u).isSome) = true := by simpa using hall
      simp only [TicketStore.atomicPopTickets, TicketStore.popScript, if_neg this]

/-- **Inversion.** A turn launches the group it popped, or leaves the groups and the matched users as they are. -/
theorem turn_groups (tickets : List MatchmakingTicket) (now : ℤ) (b : Batch) (o : Turn) :
    (∃ selected, Launches tickets now b o selected ∧
      (turn tickets now b o).groups = b.groups ++ [⟨o.seed, poppedOf b o selected⟩] ∧
      (turn tickets now b o).matchedUserIds =
        b.matchedUserIds ++ (poppedOf b o selected).map MatchmakingTicket.userId) ∨
    ((∀ selected, ¬Launches tickets now b o selected) ∧ (turn tickets now b o).groups = b.groups ∧
      (turn tickets now b o).matchedUserIds = b.matchedUserIds) := by
  by_cases hhalt : b.halted = true
  · refine .inr ⟨fun selected h => ?_, by simp [turn, hhalt], by simp [turn, hhalt]⟩
    rw [h.running] at hhalt
    exact absurd hhalt (by simp)
  rcases hsel : selection tickets now b.matchedUserIds o.seed with _ | selected
  · refine .inr ⟨fun selected h => ?_, by simp [turn, hsel], by simp [turn, hsel]⟩
    rw [h.selects] at hsel
    exact absurd hsel (by simp)
  by_cases hrenew : o.env.renewed = true
  case neg =>
    exact .inr ⟨fun _ h => hrenew h.renewed, by simp [turn, hhalt, hsel, hrenew], by simp [turn, hhalt, hsel, hrenew]⟩
  rcases atomicPopTickets_popped (o.env.others b.store) selected o.env.reply with
    ⟨hreply, hall, hpop⟩ | ⟨hnot, hpop⟩
  · have hlen : ¬(poppedOf b o selected).length < MIN_PLAYERS_TO_MATCH := by
      rw [poppedOf, length_filterMap_of_isSome _ _ hall]
      exact not_lt.2 (selection_spec hsel).2.2
    refine .inl ⟨selected, ⟨by simpa using hhalt, hrenew, hsel, hreply, hall⟩, ?_⟩
    rw [poppedOf] at hlen
    simp [turn, hhalt, hsel, hrenew, hpop, hlen, poppedOf]
  · refine .inr ⟨fun selected' h => ?_, ?_⟩
    · obtain rfl : selected = selected' := Option.some_inj.1 (hsel.symm.trans h.selects)
      exact hnot ⟨h.reply, h.stored⟩
    · have hmin : 0 < MIN_PLAYERS_TO_MATCH := by decide
      constructor <;> simp [turn, hhalt, hsel, hrenew, hpop, hmin]

/-- what is popped for a seed is a well-formed group exactly when the turn is in time -/
theorem fineGroup_iff (hn : (tickets.map MatchmakingTicket.userId).Nodup) (hseed : o.seed ∈ tickets)
    (h : Launches tickets now b o selected) :
    FineGroup now ⟨o.seed, poppedOf b o selected⟩ ↔
      (ahead tickets now b.matchedUserIds o.seed).length < TARGET_PLAYERS_PER_MATCH ∧
        ∀ t ∈ selected, ∀ t', (o.env.others b.store).ticket t.userId = some t' → t' ≠ t →
          Compatible now o.seed t' := by
  rw [← seed_selected_iff hseed h.selects]
  constructor
  · intro hfine
    obtain ⟨t, ht, hid⟩ := hfine.seed_mem
    obtain ⟨s, hs, -, hsid⟩ := mem_poppedOf.1 ht
    have hsame : s = o.seed :=
      List.inj_on_of_nodup_map hn (selection_compatible h.selects hs).1 hseed (hsid.symm.trans hid)
    refine ⟨hsame ▸ hs, fun s hs t' ht' _ => hfine.compatible t' ?_⟩
    exact mem_poppedOf.2 ⟨s, hs, ht', (o.env.others b.store).keyed _ _ ht'⟩
  · rintro ⟨hin, hreplaced⟩
    refine ⟨fun t ht => ?_, ?_, ?_⟩
    · obtain ⟨s, hs, hst, -⟩ := mem_poppedOf.1 ht
      by_cases hsame : t = s
      · rw [hsame]
        exact (selection_compatible h.selects hs).2.2
      · exact hreplaced s hs t hst hsame
    · calc (poppedOf b o selected).length
          = selected.length := length_filterMap_of_isSome _ _ h.stored
        _ ≤ TARGET_PLAYERS_PER_MATCH := by
          rw [(selection_spec h.selects).2.1]
          exact List.length_take_le _ _
    · obtain ⟨t, ht⟩ := Option.isSome_iff_exists.1 (h.stored o.seed hin)
      have hid := (o.env.others b.store).keyed _ _ ht
      exact ⟨t, mem_poppedOf.2 ⟨o.seed, hin, ht, hid⟩, hid⟩

end Turns

/-! ## A tick -/

theorem queueOrder_nodup (ranged read : TicketStore) :
    ((queueOrder ranged read).map MatchmakingTicket.userId).Nodup := by
  refine ((jsSort_perm byJoinedAt _).map MatchmakingTicket.userId).nodup_iff.2 ?_
  rw [TicketStore.getAllTickets, List.map_filterMap]
  refine ranged.nodup.sublist ?_
  induction ranged.zset with
  | nil => exact List.Sublist.slnil
  | cons u zset ih =>
    rcases hu : read.ticket u with _ | t
    · rw [List.filterMap_cons_none (by simp [hu])]
      exact ih.cons u
    · rw [List.filterMap_cons_some (b := u) (by simp [hu, read.keyed u t hu])]
      exact ih.cons_cons u

theorem turns_seed_mem {tickets : List MatchmakingTicket} {env : ℕ → TurnEnv} {o : Turn} (h : o ∈ turns tickets env) :
    o.seed ∈ tickets := by
  obtain ⟨p, hp, rfl⟩ := List.mem_map.1 h
  exact List.fst_mem_of_mem_zipIdx hp

/-- the matched users are those of the groups, and the groups are disjoint -/
structure DisjointInv (b : Batch) : Prop where
  covered : ∀ g ∈ b.groups, ∀ t ∈ g.popped, t.userId ∈ b.matchedUserIds
  disjoint : b.groups.Pairwise MatchGroup.Disjoint

theorem DisjointInv.turn {tickets : List MatchmakingTicket} {now : ℤ} {b : Batch} (h : DisjointInv b) (o : Turn) :
    DisjointInv (turn tickets now b o) := by
  rcases turn_groups tickets now b o with ⟨selected, hl, hg, hm⟩ | ⟨-, hg, hm⟩
  · constructor
    · rw [hg, hm]
      intro g hgmem t ht
      rcases List.mem_append.1 hgmem with hold | hnew
      · exact List.mem_append_left _ (h.covered g hold t ht)
      · rw [List.mem_singleton] at hnew
        subst hnew
        exact List.mem_append_right _ (List.mem_map_of_mem ht)
    · rw [hg, List.pairwise_append]
      refine ⟨h.disjoint, List.pairwise_singleton _ _, fun g hgmem g' hg' t ht t' ht' hsame => ?_⟩
      rw [List.mem_singleton] at hg'
      subst hg'
      obtain ⟨s, hs, -, hid⟩ := mem_poppedOf.1 ht'
      -- a selected user is not matched yet, so it is in no earlier group
      exact (selection_compatible hl.selects hs).2.1 (by rw [← hid, ← hsame]; exact h.covered g hgmem t ht)
  · exact ⟨by rw [hg, hm]; exact h.covered, by rw [hg]; exact h.disjoint⟩

/-- no user is in two groups of a tick -/
theorem groups_disjoint (ranged read : TicketStore) (now : ℤ) (env : ℕ → TurnEnv) :
    (processQueue ranged read now env).groups.Pairwise MatchGroup.Disjoint := by
  have hstart : DisjointInv (startBatch read) := ⟨by simp [startBatch], List.Pairwise.nil⟩
  exact (run_inv _ (fun _ _ => True) DisjointInv (fun _ o _ h => h.turn o) _ _ (along_true _ _ _) hstart).disjoint

theorem wellFormedGroups_iff (now : ℤ) (groups : List MatchGroup) :
    WellFormedGroups now groups ↔ groups.Pairwise MatchGroup.Disjoint ∧ ∀ g ∈ groups, FineGroup now g := by
  constructor
  · intro h
    refine ⟨h.disjoint, fun g hg => ⟨fun t ht => ⟨h.category g hg t ht, ?_⟩, h.size g hg, h.seed_mem g hg⟩⟩
    by_cases htimed : isTimedOut now g.seed = true
    · exact .inl htimed
    · exact .inr (h.window g hg (Bool.eq_false_of_not_eq_true htimed) t ht)
  · rintro ⟨hdisjoint, hfine⟩
    refine ⟨hdisjoint, fun g hg t ht => ((hfine g hg).compatible t ht).1, fun g hg htimed t ht => ?_,
      fun g hg => (hfine g hg).size, fun g hg => (hfine g hg).seed_mem⟩
    exact ((hfine g hg).compatible t ht).2.resolve_left (by rw [htimed]; exact Bool.false_ne_true)

/-- **Groups of a tick.** For every queue content, clock reading and outcome of each pop, the groups are well formed
exactly when every turn that pops a group is in time. -/
theorem processQueue_wellFormed (ranged read : TicketStore) (now : ℤ) (env : ℕ → TurnEnv) :
    WellFormedGroups now (processQueue ranged read now env).groups ↔
      Along (turn (queueOrder ranged read) now) (InTime (queueOrder ranged read) now) (startBatch read)
        (turns (queueOrder ranged read) env) := by
  rw [wellFormedGroups_iff, and_iff_right (groups_disjoint ranged read now env)]
  set tickets := queueOrder ranged read with htickets
  have hstep : ∀ b o, (∀ g ∈ (turn tickets now b o).groups, FineGroup now g) ↔
      (∀ g ∈ b.groups, FineGroup now g) ∧
        ∀ selected, Launches tickets now b o selected → FineGroup now ⟨o.seed, poppedOf b o selected⟩ := by
    intro b o
    rcases turn_groups tickets now b o with ⟨selected, hl, hg, -⟩ | ⟨hnot, hg, -⟩
    · rw [hg, List.forall_mem_append, List.forall_mem_singleton]
      refine and_congr_right fun _ => ⟨fun h selected' hl' => ?_, fun h => h selected hl⟩
      obtain rfl : selected = selected' := Option.some_inj.1 (hl.selects.symm.trans hl'.selects)
      exact h
    · rw [hg]
      exact (and_iff_left fun selected hl => absurd hl (hnot selected)).symm
  have hrun := run_iff (turn tickets now) _ (fun b => ∀ g ∈ b.groups, FineGroup now g) hstep (startBatch read)
    (turns tickets env)
  rw [processQueue, hrun, and_iff_right (by simp [startBatch])]
  -- every seed is a queued ticket, and one user has one ticket
  have hseeds : Along (turn tickets now) (fun _ o => o.seed ∈ tickets) (startBatch read) (turns tickets env) :=
    (along_const _ _ _ _).2 fun o ho => turns_seed_mem ho
  refine along_congr _ (fun _ o => o.seed ∈ tickets) _ _ (fun _ => True) (fun _ _ _ _ _ => trivial) ?_ _ _ hseeds
    trivial
  intro b o hseed _
  exact forall₂_congr fun selected hl => fineGroup_iff (queueOrder_nodup ranged read) hseed hl

/-! ## A seed that is left out -/

/-- fifty players 150 below the last one, then fifty 150 above it -/
def crowd (i : ℕ) : MatchmakingTicket :=
  ⟨String.singleton (Char.ofNat (27 + i)), if i < 50 then 850 else if i < 100 then 1150 else 1000, none, i⟩

def crowdedQueue : TicketStore where
  zset := (List.range 101).map fun i => (crowd i).userId
  ticket u :=
    let t := crowd ((u.toList.headD ' ').toNat - 27)
    if t.userId = u then some t else none
  nodup := by
    refine List.Nodup.of_map (fun u => (u.toList.headD ' ').toNat) ?_
    decide +kernel
  keyed := by
    intro u t h
    simp only at h
    split_ifs at h with hu
    rw [← Option.some_inj.1 h, hu]

/-- nobody else touches the queue, and every call succeeds -/
def quiet : TurnEnv := ⟨true, id, .ok, false⟩

/-- none of the first hundred has a match in its window; the last one has all of them, who fill its match -/
theorem crowdedQueue_left_out :
    ¬WellFormedGroups 100 (processQueue crowdedQueue crowdedQueue 100 fun _ => quiet).groups := by
  have hout : ((processQueue crowdedQueue crowdedQueue 100 fun _ => quiet).groups.any fun g =>
      g.popped.all fun t => decide (t.userId ≠ g.seed.userId)) = true := by
    decide +kernel
  intro h
  obtain ⟨g, hg, hall⟩ := List.any_eq_true.1 hout
  obtain ⟨t, ht, hid⟩ := h.seed_mem g hg
  exact of_decide_eq_true (List.all_eq_true.1 hall t ht) hid

end Arena.Api.MatchGroups
