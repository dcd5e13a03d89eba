/-
Knockout games: entrants, rounds, and who is still in.

A round lasts from its start to its close. Each answer a player gives in it replaces the one before, and the close keeps
the players whose last answer passes. Everything is a function of the events.

- `replay_alive`: still in are the entrants that passed every closed round, in the order they entered;
- `replay_partition`: out are the others; nobody is lost and nobody is counted twice;
- `mem_out`: the others are those that failed some closed round.
-/
import Mathlib.Tactic

namespace Arena.Lib

variable {P : Type} [DecidableEq P]

inductive KnockoutEvent (P : Type) where
  | start
  | answer (player : P) (passes : Bool)
  | close

structure Knockout (P : Type) where
  alive : List P
  out : List P
  /-- the last answer in the round passes -/
  passing : P → Bool
  /-- who passed, for each closed round -/
  closed : List (P → Bool)

namespace Knockout

def enter (entrants : List P) : Knockout P := ⟨entrants, [], fun _ => false, []⟩

def step (k : Knockout P) : KnockoutEvent P → Knockout P
  | .start => { k with passing := fun _ => false }
  | .answer player passes => { k with passing := Function.update k.passing player passes }
  | .close =>
    { k with
      alive := k.alive.filter k.passing
      out := k.out ++ k.alive.filter fun p => !k.passing p
      closed := k.closed ++ [k.passing] }

def replay (entrants : List P) (events : List (KnockoutEvent P)) : Knockout P := events.foldl step (enter entrants)

omit [DecidableEq P] in
/-- the players that passed all of the rounds -/
theorem filter_all_append (entrants : List P) (rounds : List (P → Bool)) (round : P → Bool) :
    (entrants.filter fun p => rounds.all fun r => r p).filter round =
      entrants.filter fun p => (rounds ++ [round]).all fun r => r p := by
  rw [List.filter_filter]
  refine List.filter_congr fun p _ => ?_
  simp [Bool.and_comm]

theorem replay_append (entrants : List P) (events more : List (KnockoutEvent P)) :
    replay entrants (events ++ more) = more.foldl step (replay entrants events) := List.foldl_append

/-- **Still in** are the entrants that passed every closed round. -/
theorem replay_alive (entrants : List P) (events : List (KnockoutEvent P)) :
    (replay entrants events).alive = entrants.filter fun p => (replay entrants events).closed.all fun r => r p := by
  induction events using List.reverseRecOn with
  | nil => simp [replay, enter]
  | append_singleton events e ih =>
    rw [replay_append]
    cases e with
    | close =>
      show ((replay entrants events).alive).filter _ = _
      rw [ih]
      exact filter_all_append _ _ _
    | _ => exact ih

omit [DecidableEq P] in
/-- a close moves players from one list to the other -/
theorem close_perm (alive out : List P) (passing : P → Bool) :
    (alive.filter passing ++ (out ++ alive.filter fun p => !passing p)).Perm (alive ++ out) := by
  have hmoved : (out ++ alive.filter fun p => !passing p).Perm ((alive.filter fun p => !passing p) ++ out) :=
    List.perm_append_comm
  refine (hmoved.append_left _).trans ?_
  rw [← List.append_assoc]
  exact (List.filter_append_perm passing alive).append_right out

/-- **Out** are the others: nobody is lost and nobody is counted twice. -/
theorem replay_partition (entrants : List P) (events : List (KnockoutEvent P)) :
    ((replay entrants events).alive ++ (replay entrants events).out).Perm entrants := by
  induction events using List.reverseRecOn with
  | nil => simp [replay, enter]
  | append_singleton events e ih =>
    rw [replay_append]
    cases e with
    | close => exact (close_perm _ _ _).trans ih
    | _ => exact ih

/-- the others are those that failed some closed round -/
theorem mem_out {entrants : List P} (hd : entrants.Nodup) (events : List (KnockoutEvent P)) (p : P) :
    p ∈ (replay entrants events).out ↔ p ∈ entrants ∧ ∃ round ∈ (replay entrants events).closed, round p = false := by
  have hperm := replay_partition entrants events
  have hapart : ∀ q ∈ (replay entrants events).alive, q ∉ (replay entrants events).out := fun q ha ho =>
    List.disjoint_of_nodup_append (hperm.nodup_iff.2 hd) ha ho
  have halive : p ∈ (replay entrants events).alive ↔
      p ∈ entrants ∧ ∀ round ∈ (replay entrants events).closed, round p = true := by
    rw [replay_alive, List.mem_filter, List.all_eq_true]
  have hmem : p ∈ (replay entrants events).alive ∨ p ∈ (replay entrants events).out ↔ p ∈ entrants := by
    rw [← List.mem_append, hperm.mem_iff]
  constructor
  · intro ho
    have hp := hmem.1 (.inr ho)
    refine ⟨hp, ?_⟩
    by_contra hall
    push Not at hall
    exact hapart p (halive.2 ⟨hp, fun round hround => by simpa using hall round hround⟩) ho
  · rintro ⟨hp, round, hround, hfail⟩
    refine (hmem.2 hp).resolve_left fun ha => ?_
    have hpassed := (halive.1 ha).2 round hround
    rw [hfail] at hpassed
    cases hpassed

end Knockout

end Arena.Lib
