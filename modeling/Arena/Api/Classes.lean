/-
The classes of a match (`class-engine.ts`, `classAssignment`, `triggerMilestoneCardOffers`).

The owner assigns the classes at the first milestone it reaches without any, from the players of the match and a seed
made of the match id. A refused persist takes the assignment back, a failover rebuilds it from the log, and another
milestone may make it again: the shares are the same ones.

- `assignClasses_ids`, `assignClasses_share`: everybody has a class, and half of the players have each;
- `assignClasses_perm`: the order in which the players are listed does not count;
- `rehydrate_classes`: a log whose assignments are the shares gives no classes or the shares;
- `step_classed`: every step of the owner keeps the assignments of the log so;
- `classes_fair`: over every run of the owner.
-/
import Arena.GameCore.Winner
import Arena.Lib.Unicode
import Arena.Api.OwnerPath

namespace Arena.GameCore

open Arena.Lib Arena.Shared

/-! ## Shares -/

theorem drawEach_fst {α : Type} (a : UInt32) (l : List α) : (drawEach a l).map Prod.fst = l := by
  induction l generalizing a with
  | nil => rfl
  | cons x l ih => exact congrArg (x :: ·) (ih _)

/-- the even positions of a list, counted from `k` -/
theorem countP_even {α : Type} (l : List α) (k : ℕ) :
    ((l.zipIdx k).countP fun d => d.2 % 2 = 0) = (l.length + (k + 1) % 2) / 2 := by
  induction l generalizing k with
  | nil =>
    simp only [List.zipIdx_nil, List.countP_nil, List.length_nil]
    omega
  | cons x l ih =>
    rw [List.zipIdx_cons, List.countP_cons, ih]
    simp only [List.length_cons, decide_eq_true_eq]
    split_ifs <;> omega

/-- everybody is assigned a class -/
theorem assignClasses_ids (playerIds : List String) (seed : String) :
    ((assignClasses playerIds seed).map Prod.fst).Perm playerIds := by
  have hids : (assignClasses playerIds seed).map Prod.fst =
      (jsSort (fun a b => a.2 - b.2) (drawEach (deriveSubstream seed "class") (jsSort compareText playerIds))).map
        Prod.fst := by
    simp only [assignClasses, List.map_map]
    conv_rhs => rw [← List.zipIdx_map_fst 0 (jsSort _ _), List.map_map]
    rfl
  rw [hids]
  refine ((jsSort_perm _ _).map Prod.fst).trans ?_
  rw [drawEach_fst]
  exact jsSort_perm _ _

/-- half of the players attack, the odd one included, and the others defend -/
theorem assignClasses_share (playerIds : List String) (seed : String) :
    ((assignClasses playerIds seed).countP fun a => a.2 = .attack) = (playerIds.length + 1) / 2 ∧
      ((assignClasses playerIds seed).countP fun a => a.2 = .defense) = playerIds.length / 2 := by
  have hlen : (assignClasses playerIds seed).length = playerIds.length := by
    rw [← List.length_map (f := Prod.fst), (assignClasses_ids playerIds seed).length_eq]
  have hattack : ((assignClasses playerIds seed).countP fun a => a.2 = .attack) = (playerIds.length + 1) / 2 := by
    rw [← hlen]
    simp only [assignClasses, List.countP_map, List.length_map, List.length_zipIdx]
    rw [← countP_even _ 0]
    refine List.countP_congr fun d _ => ?_
    simp only [Function.comp_apply]
    split_ifs <;> simp_all
  refine ⟨hattack, ?_⟩
  have hsplit := List.length_eq_countP_add_countP (fun a : String × ClassId => decide (a.2 = .attack))
    (l := assignClasses playerIds seed)
  have hothers : ((assignClasses playerIds seed).countP fun a => a.2 = .defense) =
      (assignClasses playerIds seed).countP fun a => ¬decide (a.2 = .attack) = true := by
    refine List.countP_congr fun a _ => ?_
    cases a.2 <;> simp
  omega

/-- the order in which the players are listed does not count -/
theorem assignClasses_perm {playerIds others : List String} (h : playerIds.Perm others) (seed : String) :
    assignClasses playerIds seed = assignClasses others seed := by
  unfold assignClasses
  rw [jsSort_eq_of_perm unitKey unitKey_injective compareText compareText_le h]

theorem setEntry_same {K V : Type} [DecidableEq K] {k : K} {v : V} {l : List (K × V)} (h : getEntry k l = some v) :
    setEntry k v l = l := by
  induction l with
  | nil => cases h
  | cons e l ih =>
    simp only [getEntry, setEntry] at h ⊢
    split_ifs at h ⊢ with he
    · rw [← he, ← Option.some.inj h]
    · rw [ih h]

/-- setting entries that are there changes nothing -/
theorem foldl_set_same {K V : Type} [DecidableEq K] (c : JsMap K V) (l : List (K × V)) (h : ∀ e ∈ l, e ∈ c.entries) :
    l.foldl (fun c e => c.set e.1 e.2) c = c := by
  induction l with
  | nil => rfl
  | cons e l ih =>
    have hset : c.set e.1 e.2 = c := by
      have hget : c.get e.1 = some e.2 := JsMap.get_of_mem (h e List.mem_cons_self)
      exact JsMap.ext (setEntry_same hget)
    rw [List.foldl_cons, hset]
    exact ih fun x hx => h x (List.mem_cons_of_mem e hx)

namespace Machine

/-! ## Assignments of a log -/

/-- the classes of a match: a function of its id and its players -/
def shares (matchId : String) (roster : List String) : List (String × ClassId) :=
  assignClasses roster (matchId ++ ":class")

/-- every CLASS_ASSIGNED of the log carries the shares -/
def AssignsShares (matchId : String) (roster : List String) (log : List EventLogEntry) : Prop :=
  ∀ e ∈ log, ∀ id assignments seed, e.event = .classAssigned id assignments seed →
    assignments = shares matchId roster ∧ seed = matchId ++ ":class"

/-- **A log that assigns the shares** gives no classes or the shares. -/
theorem rehydrate_classes {matchId : String} {roster : List String} (hd : roster.Nodup) {log : List EventLogEntry}
    (h : AssignsShares matchId roster log) :
    (rehydrateCardStateFromEventLog log).playerClasses.entries = [] ∨
      (rehydrateCardStateFromEventLog log).playerClasses.entries = shares matchId roster := by
  induction log using List.reverseRecOn with
  | nil => exact .inl rfl
  | append_singleton log e ih =>
    have hlog := ih fun x hx => h x (List.mem_append_left _ hx)
    rw [rehydrate_append, List.foldl_cons, List.foldl_nil]
    generalize rehydrateCardStateFromEventLog log = c at hlog ⊢
    have hkept : (∀ id a seed, e.event ≠ .classAssigned id a seed) →
        (rehydrateEvent c e).playerClasses = c.playerClasses := by
      intro hne
      unfold rehydrateEvent
      split
      · rfl
      · split_ifs <;> rfl
      · split_ifs <;> rfl
      · rename_i id a seed he
        exact absurd he (hne id a seed)
      · unfold rehydrateCardOffer
        split_ifs <;> rfl
      · rfl
      · rfl
      · rfl
    by_cases hassigned : ∃ id a seed, e.event = .classAssigned id a seed
    · obtain ⟨id, a, seed, he⟩ := hassigned
      obtain ⟨rfl, -⟩ := h e (by simp) id a seed he
      have hset : (rehydrateEvent c e).playerClasses =
          (shares matchId roster).foldl (fun cs a => cs.set a.1 a.2) c.playerClasses := by
        simp only [rehydrateEvent, he, rehydrateClassAssigned]
      right
      rw [hset]
      rcases hlog with hnone | hshares
      · have hids : ((shares matchId roster).map Prod.fst).Nodup := (assignClasses_ids roster _).nodup_iff.2 hd
        rw [JsMap.foldl_set_entries _ _ hids (by simp [JsMap.keys, hnone]), hnone, List.nil_append]
      · rw [foldl_set_same _ _ (by simp [hshares])]
        exact hshares
    · rw [hkept fun id a seed he => hassigned ⟨id, a, seed, he⟩]
      exact hlog

theorem AssignsShares.append {matchId : String} {roster : List String} {log es : List EventLogEntry}
    (h : AssignsShares matchId roster log) (hes : AssignsShares matchId roster es) :
    AssignsShares matchId roster (log ++ es) := fun e he =>
  (List.mem_append.1 he).elim (fun hl => h e hl) (fun hr => hes e hr)

theorem assignsShares_noCards {matchId : String} {roster : List String} {es : List EventLogEntry}
    (h : ∀ e ∈ es, e.event.isCardEvent = false) : AssignsShares matchId roster es := by
  intro e he id a seed hev
  have hcard := h e he
  rw [hev] at hcard
  cases hcard

/-- a call that assigns classes does it for the players of the match and by its seed -/
def Op.byMatch (m : Machine) : Op → Prop
  | .classAssignment playerIds seed _ => playerIds = m.state.players.keys ∧ seed = m.state.id ++ ":class"
  | _ => True

theorem change_assigns {J : StringOps} {m m' : Machine} {o : Op} (hc : Change J m o m') (ho : Op.byMatch m o)
    (h : AssignsShares m.state.id m.state.players.keys m.eventLog) :
    AssignsShares m.state.id m.state.players.keys m'.eventLog := by
  by_cases hcard : o.isCardCall = false
  · obtain ⟨⟨es, hl, hes⟩, -⟩ := change_noCards hc hcard
    rw [hl]
    exact h.append (assignsShares_noCards hes)
  cases hc with
  | same o => exact h
  | classes ids seed now =>
    obtain ⟨rfl, rfl⟩ := ho
    refine h.append fun e he id a seed hev => ?_
    obtain rfl := List.mem_singleton.1 he
    obtain ⟨-, rfl, rfl⟩ := MatchEvent.classAssigned.inj hev
    exact ⟨rfl, rfl⟩
  | offer p r s cards now _ =>
    refine h.append fun e he id a seed hev => ?_
    obtain rfl := List.mem_singleton.1 he
    cases hev
  | pick p c hand r o e i now _ =>
    refine h.append fun e he id a seed hev => ?_
    obtain rfl := List.mem_singleton.1 he
    cases hev
  | play round p now _ _ _ =>
    rw [play_eventLog]
    refine h.append fun e he id a seed hev => ?_
    rcases List.mem_cons.1 he with rfl | he
    · cases hev
    · exact assignsShares_noCards (playEntries_tail m round p now) e he id a seed hev
  | _ => exact absurd rfl hcard

/-- no call changes the id of the match -/
theorem change_id {J : StringOps} {m m' : Machine} {o : Op} (hc : Change J m o m') : m'.state.id = m.state.id := by
  cases hc with
  | transition target now _ => cases target <;> rfl
  | answer round p a ts sid retry now _ _ _ _ _ =>
    exact congrArg MatchState.id (consumeChance_frame m round p retry (now 0)).1
  | winner now => exact congrArg MatchState.id (determineWinner_frame m now).1
  | finish now =>
    have hid : (m.determineWinner now).1.state.id = m.state.id := by rw [(determineWinner_frame m now).1]
    exact hid
  | play round p now _ _ _ => exact congrArg MatchState.id (applyPlay_frame _ round p _ now).1
  | _ => rfl

/-- a machine of a match whose log assigns the shares -/
structure Classed (matchId : String) (roster : List String) (m : Machine) : Prop where
  wire : WireInv m
  table : TableInv m
  named : m.state.id = matchId
  players : m.state.players.keys = roster
  assigns : AssignsShares matchId roster m.eventLog

theorem classed_create (matchId roomId : String) (players : List PlayerInfo) (hd : (players.map PlayerInfo.id).Nodup) :
    Classed matchId (players.map PlayerInfo.id) (Machine.create matchId roomId players) where
  wire := wireInv_create matchId roomId players hd
  table := rfl
  named := rfl
  players := create_keys matchId roomId players hd
  assigns := by
    intro e he
    cases he

theorem Classed.step {matchId : String} {roster : List String} {m : Machine} (h : Classed matchId roster m)
    (J : StringOps) (o : Op) (ho : Op.byMatch m o) : Classed matchId roster (m.step J o) := by
  have hc := step_change J m o
  have hassigns := change_assigns hc ho (by rw [h.named, h.players]; exact h.assigns)
  rw [h.named, h.players] at hassigns
  exact ⟨act_wireInv J m (.call o) h.wire, change_tableInv hc h.table, (change_id hc).trans h.named,
    (change_keys hc).trans h.players, hassigns⟩

theorem Classed.failover {matchId : String} {roster : List String} {m : Machine} (h : Classed matchId roster m)
    (J : StringOps) : Classed matchId roster (m.failover J) := by
  have hlog := failover_eventLog J m
  have hstate : (m.failover J).state = m.state := by
    rcases failover_cases J m h.wire with hf | hf
    · rw [hf]
      rfl
    · rw [hf]
  exact ⟨act_wireInv J m .failover h.wire, failover_tableInv J h.table, by rw [hstate]; exact h.named,
    by rw [hstate]; exact h.players, by rw [hlog]; exact h.assigns⟩

/-- the classes of a classed machine -/
theorem Classed.classes {matchId : String} {roster : List String} {m : Machine} (h : Classed matchId roster m) :
    m.cards.playerClasses.entries = [] ∨ m.cards.playerClasses.entries = shares matchId roster := by
  rw [(CardMirrors.table_eq_iff.1 h.table).1]
  exact rehydrate_classes (h.players ▸ m.state.players.keys_nodup) h.assigns

end Machine

end Arena.GameCore

namespace Arena.Api.Owner

open Arena.Lib Arena.Shared Arena.GameCore Arena.GameCore.Machine

/-! ## Runs of the owner -/

variable {J : StringOps} {matchId : String} {roster : List String}

theorem autoPick_classed {m : Machine} (h : Classed matchId roster m) (playerId : String) (cards : List CardId)
    (seq : ℕ) (rnd : Random) (now : Clock) : Classed matchId roster (autoPick m playerId cards seq rnd now) := by
  unfold autoPick
  split
  · rename_i chosen _
    exact h.step StringOps.ascii (.pickCard playerId chosen seq none none now) trivial
  · exact h

theorem offerTo_classed {l : OfferLoop} (h : Classed matchId roster l.machine) (roundNo : ℕ) (botIds : List String)
    (rnd : String → Random) (now : String → Clock) (p : String) :
    Classed matchId roster (offerTo roundNo botIds rnd now l p).machine := by
  have hoffer := h.step StringOps.ascii
    (.pickOffer p roundNo (offerSeed l.machine.state.id roundNo p) (now p)) trivial
  unfold offerTo
  split
  · rename_i m e hx
    have hm : m = _ := (congrArg Prod.fst hx).symm
    rw [hm]
    exact hoffer
  · rename_i m cards hx
    have hm : Classed matchId roster m := by
      have hm : m = _ := (congrArg Prod.fst hx).symm
      rw [hm]
      exact hoffer
    simp only []
    split_ifs
    · exact autoPick_classed hm p cards _ _ _
    · exact hm

theorem makeOffers_classed {m : Machine} (h : Classed matchId roster m) (ids : List String) (roundNo : ℕ)
    (botIds : List String) (rnd : String → Random) (now : String → Clock) :
    Classed matchId roster (makeOffers m ids roundNo botIds rnd now).machine := by
  have hfold : ∀ l : OfferLoop, Classed matchId roster l.machine →
      Classed matchId roster (ids.foldl (offerTo roundNo botIds rnd now) l).machine := by
    induction ids with
    | nil => exact fun l hl => hl
    | cons p ids ih => exact fun l hl => ih _ (offerTo_classed hl roundNo botIds rnd now p)
  exact hfold ⟨m, JsMap.empty, []⟩ h

/-- the classes are assigned for the players of the match and by its seed -/
theorem ensureClasses_classed {m : Machine} (h : Classed matchId roster m) (now : Clock) :
    Classed matchId roster (ensureClasses m now) := by
  unfold ensureClasses
  split_ifs
  · exact h
  · exact h.step StringOps.ascii (.classAssignment m.state.players.keys (m.state.id ++ ":class") now) ⟨rfl, rfl⟩

theorem dispatch_classed {m : Machine} (h : Classed matchId roster m) (env : CommandEnvelope) (now : Clock) :
    Classed matchId roster (dispatchBuiltin J m env now).1 := by
  have ha := dispatchBuiltin_applies J m env now
  generalize dispatchBuiltin J m env now = r at ha ⊢
  cases ha with
  | nothing => exact h
  | answer => exact h.step J _ trivial
  | disconnect => exact h.step J _ trivial
  | pick => exact h.step J _ trivial
  | play => exact h.step J _ trivial
  | vote => exact h.step J _ trivial

theorem step_classed (s : Owner) (o : OwnerOp) (h : s.Every (Classed matchId roster)) :
    (s.step J o).Every (Classed matchId roster) := by
  obtain ⟨hm, hs⟩ := h
  have hsave : ∀ m ∈ s.saved ++ [s.machine], Classed matchId roster m := by
    intro m hmem
    rcases List.mem_append.1 hmem with hmem | hmem
    · exact hs m hmem
    · rw [List.mem_singleton.1 hmem]
      exact hm
  cases o with
  | call o =>
    simp only [step]
    split_ifs with ho
    · refine ⟨hm.step J o ?_, hs⟩
      cases o <;> trivial
    · exact ⟨hm, hs⟩
  | startRound q d now =>
    have hstart := hm.step J (.startRound q d now) trivial
    simp only [step, startRound]
    split
    · rename_i m e hx
      rw [show m = s.machine.step J (.startRound q d now) from (congrArg Prod.fst hx).symm]
      exact ⟨hstart, hs⟩
    · rename_i m r hx
      rw [show m = s.machine.step J (.startRound q d now) from (congrArg Prod.fst hx).symm]
      exact ⟨hstart, hs⟩
  | started i =>
    simp only [step, started]
    split
    · split_ifs <;> exact ⟨hm, hs⟩
    · exact ⟨hm, hs⟩
  | milestone i now =>
    simp only [step, milestone]
    split
    · exact ⟨ensureClasses_classed hm now, hsave⟩
    · exact ⟨hm, hs⟩
  | offers i botIds rnd now =>
    simp only [step, offers]
    split
    · exact ⟨makeOffers_classed hm _ _ botIds rnd now, hs⟩
    · exact ⟨hm, hs⟩
  | offersStored i =>
    simp only [step, offersStored]
    split <;> exact ⟨hm, hs⟩
  | scheduleBots i botIds rnd =>
    simp only [step, scheduleBots]
    split <;> exact ⟨hm, hs⟩
  | botPlay i rnd now =>
    simp only [step, botPlay]
    split
    · exact ⟨hm, hs⟩
    · rename_i play _
      refine ⟨?_, hs⟩
      cases hi : botPlayInput s.machine play rnd (now 0) with
      | none => exact hm
      | some p => exact hm.step J (.playCard p (laterClock now)) trivial
  | command env now => exact ⟨dispatch_classed hm env now, hs⟩
  | save => exact ⟨hm, hsave⟩
  | restore i =>
    simp only [step, restore]
    cases hi : s.saved[i]? with
    | none => exact ⟨hm, hs⟩
    | some blob =>
      dsimp only
      cases hd : deserialize J (some blob.serialize) with
      | error e => exact ⟨hm, hs⟩
      | ok m =>
        have hback : m = blob.failover J := by
          unfold failover
          rw [hd]
        refine ⟨?_, hs⟩
        simp only [hback]
        exact (hs blob (List.mem_of_getElem? hi)).failover J

theorem run_classed (J : StringOps) (s : Owner) (ops : List OwnerOp) (h : s.Every (Classed matchId roster)) :
    (run (step J) s ops).Every (Classed matchId roster) :=
  run_inv (step J) (fun _ _ => True) _ (fun s o _ hs => step_classed s o hs) s ops
    ((along_const _ _ _ _).2 fun _ _ => trivial) h

/-- **Classes are fair, and a player keeps its class.** Over every run of the owner, with refused persists and
failovers: the machine and its blobs have no classes or the shares, which give every player one class and each class to
half of the players, in whatever order the players are listed; at two moments of the run a player's class is the
same. -/
theorem classes_fair (J : StringOps) (matchId roomId : String) (players : List PlayerInfo)
    (hd : (players.map PlayerInfo.id).Nodup) (ops more : List OwnerOp) :
    let s := run (step J) (init (Machine.create matchId roomId players)) ops
    let s' := run (step J) s more
    let roster := players.map PlayerInfo.id
    let classes := shares matchId roster
    (classes.map Prod.fst).Perm roster ∧
      (classes.countP fun a => a.2 = .attack) = (roster.length + 1) / 2 ∧
      (classes.countP fun a => a.2 = .defense) = roster.length / 2 ∧
      (∀ listed : List String, listed.Perm roster → shares matchId listed = classes) ∧
      (∀ m ∈ s.machine :: s.saved, m.cards.playerClasses.entries = [] ∨ m.cards.playerClasses.entries = classes) ∧
      ∀ m ∈ s.machine :: s.saved, ∀ m' ∈ s'.machine :: s'.saved, ∀ p c c',
        m.cards.playerClasses.get p = some c → m'.cards.playerClasses.get p = some c' → c = c' := by
  intro s s' roster classes
  have hs : s.Every (Classed matchId roster) := by
    refine run_classed J _ ops ⟨classed_create matchId roomId players hd, ?_⟩
    intro m hm
    cases hm
  have hs' : s'.Every (Classed matchId roster) := run_classed J s more hs
  have each : ∀ {t : Owner}, t.Every (Classed matchId roster) → ∀ m ∈ t.machine :: t.saved,
      m.cards.playerClasses.entries = [] ∨ m.cards.playerClasses.entries = classes := by
    intro t ht m hm
    rcases List.mem_cons.1 hm with rfl | hm
    · exact ht.1.classes
    · exact (ht.2 m hm).classes
  have hshare := assignClasses_share roster (matchId ++ ":class")
  refine ⟨assignClasses_ids roster _, hshare.1, hshare.2, fun listed h => assignClasses_perm h _, each hs, ?_⟩
  intro m hm m' hm' p c c' hc hc'
  have hmem : (p, c) ∈ m.cards.playerClasses.entries := JsMap.mem_of_get hc
  have hmem' : (p, c') ∈ m'.cards.playerClasses.entries := JsMap.mem_of_get hc'
  rcases each hs m hm with hnone | hsame
  · rw [hnone] at hmem
    cases hmem
  · rcases each hs' m' hm' with hnone | hsame'
    · rw [hnone] at hmem'
      cases hmem'
    · rw [hsame', ← hsame] at hmem'
      exact Option.some.inj (hc.symm.trans (JsMap.get_of_mem hmem'))

/-- alice and bob reach round 5 and are assigned their classes, and the persist of the offers is refused -/
theorem classes_fair_round_five :
    let players := [freshPlayer "alice", freshPlayer "bob"]
    let ops := .call (.transition .countdown (clockAt 0)) :: survives ["alice", "bob"] 4 0 ++ starts 80000 ++
      [.milestone 0 (clockAt 80000)]
    let s := run (step StringOps.ascii) (init (Machine.create "m1" "r1" players)) ops
    s.machine.cards.playerClasses.entries = shares "m1" ["alice", "bob"] ∧
      (run (step StringOps.ascii) s [.restore 0]).machine.cards.playerClasses.entries = [] := by
  intro players ops s
  have hnow := (classes_fair StringOps.ascii "m1" "r1" players (by decide) ops [.restore 0]).2.2.2.2.1 s.machine
    List.mem_cons_self
  exact ⟨hnow.resolve_left (by decide +kernel), by decide +kernel⟩

end Arena.Api.Owner
