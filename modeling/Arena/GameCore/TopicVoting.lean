/-
Topic voting over whole runs (`initTopicVoting`, `voteBanTopic`, `resolveTopicVoting`, `topic-voting.ts`).

A run opens the voting and then takes votes in any order, some of them rejected; `runVotes` keeps beside the machine the
votes that were accepted (`lastVote` is a player's last one). The record of votes is then exactly the last votes, so
what the resolution says can be said of them.

- `tallyTopicVotes_entries`: the tally has every candidate once, with the number of players who hold a vote for it;
- `resolveBannedTopics_spec`: banned and active topics are the candidates, the banned ones have the most votes;
- `runVotes_inv`: the record holds every player's last accepted vote, for candidates only;
- `voting_fair`: the result of a run, as a function of the last votes.
-/
import Arena.GameCore.Steps

namespace Arena.GameCore

open Arena.Lib Arena.Shared

/-! ## The tally -/

/-- how many players hold a vote for a topic -/
def votesFor (votes : JsMap String String) (topic : String) : ℕ := votes.entries.countP fun v => v.2 = topic

theorem modifyEntry_table {K V : Type} [DecidableEq K] (k : K) (g : V → V) (f : K → V) {l : List K} (hl : l.Nodup) :
    modifyEntry k g (l.map fun t => (t, f t)) = l.map fun t => (t, if k = t then g (f t) else f t) := by
  induction l with
  | nil => rfl
  | cons x l ih =>
    obtain ⟨hx, hl⟩ := List.nodup_cons.1 hl
    simp only [List.map_cons, modifyEntry]
    by_cases hk : x = k
    · subst hk
      rw [if_pos rfl, if_pos rfl]
      congr 1
      exact List.map_congr_left fun t ht => by rw [if_neg (show ¬x = t from fun h => hx (h ▸ ht))]
    · rw [if_neg hk, if_neg (Ne.symm hk), ih hl]

/-- the loop over the votes counts up the table it was given -/
theorem tally_foldl {candidates : List String} (hc : candidates.Nodup) (l : List (String × String))
    (counts : JsMap String ℕ) (f : String → ℕ) (h : counts.entries = candidates.map fun t => (t, f t)) :
    (l.foldl (fun counts v => counts.modify v.2 (· + 1)) counts).entries =
      candidates.map fun t => (t, f t + l.countP fun v => v.2 = t) := by
  induction l generalizing counts f with
  | nil => simpa using h
  | cons v l ih =>
    have hmodify : (counts.modify v.2 (· + 1)).entries =
        candidates.map fun t => (t, if v.2 = t then f t + 1 else f t) := by
      have := modifyEntry_table v.2 (· + 1) f hc
      rw [← h] at this
      exact this
    rw [List.foldl_cons, ih _ _ hmodify]
    refine List.map_congr_left fun t _ => ?_
    rw [List.countP_cons]
    by_cases hv : v.2 = t
    · simp [hv]
      omega
    · simp [hv]

/-- **The tally** has every candidate once, with the number of players who hold a vote for it. -/
theorem tallyTopicVotes_entries (votes : JsMap String String) {candidates : List String} (hc : candidates.Nodup) :
    (tallyTopicVotes votes candidates).entries = candidates.map fun t => (t, votesFor votes t) := by
  have hkeys : (candidates.map fun t => (t, 0)).map Prod.fst = candidates := by
    rw [List.map_map]
    exact List.map_id _
  have hzero : (candidates.foldl (fun counts topic => counts.set topic 0) (JsMap.empty : JsMap String ℕ)).entries =
      candidates.map fun t => (t, 0) := by
    have hset := JsMap.foldl_set_entries (candidates.map fun t => (t, 0)) (JsMap.empty : JsMap String ℕ)
      (by rwa [hkeys]) (fun k _ hk => List.not_mem_nil hk)
    rwa [List.foldl_map] at hset
  unfold tallyTopicVotes
  rw [tally_foldl hc votes.entries _ (fun _ => 0) hzero]
  simp only [Nat.zero_add, votesFor]

theorem tallyTopicVotes_get (votes : JsMap String String) {candidates : List String} (hc : candidates.Nodup)
    {t : String} (ht : t ∈ candidates) : (tallyTopicVotes votes candidates).get t = some (votesFor votes t) := by
  refine JsMap.get_of_mem ?_
  rw [tallyTopicVotes_entries votes hc]
  exact List.mem_map.2 ⟨t, ht, rfl⟩

/-- one vote for a candidate is counted once -/
theorem sum_one_vote {candidates : List String} (hc : candidates.Nodup) {topic : String} (h : topic ∈ candidates) :
    (candidates.map fun t => if topic = t then 1 else 0).sum = 1 := by
  induction candidates with
  | nil => cases h
  | cons x l ih =>
    obtain ⟨hx, hl⟩ := List.nodup_cons.1 hc
    rw [List.map_cons, List.sum_cons]
    by_cases hxt : topic = x
    · subst hxt
      have hrest : (l.map fun t => if topic = t then 1 else 0) = l.map fun _ => 0 :=
        List.map_congr_left fun t ht => if_neg (show ¬topic = t from fun heq => hx (heq ▸ ht))
      rw [if_pos rfl, hrest]
      simp
    · rw [if_neg hxt, ih hl ((List.mem_cons.1 h).resolve_left hxt)]

theorem sum_votes {candidates : List String} (hc : candidates.Nodup) (l : List (String × String))
    (h : ∀ v ∈ l, v.2 ∈ candidates) :
    (candidates.map fun t => l.countP fun v => v.2 = t).sum = l.length := by
  induction l with
  | nil => simp
  | cons v l ih =>
    have hsplit : (candidates.map fun t => (v :: l).countP fun v => v.2 = t) =
        candidates.map fun t => (l.countP fun v => v.2 = t) + if v.2 = t then 1 else 0 := by
      refine List.map_congr_left fun t _ => ?_
      rw [List.countP_cons]
      simp
    rw [hsplit, List.sum_map_add, ih fun w hw => h w (List.mem_cons_of_mem v hw),
      sum_one_vote hc (h v List.mem_cons_self), List.length_cons]

/-- **No vote is lost or counted twice.** -/
theorem tally_total (votes : JsMap String String) {candidates : List String} (hc : candidates.Nodup)
    (h : ∀ v ∈ votes.entries, v.2 ∈ candidates) :
    ((tallyTopicVotes votes candidates).entries.map Prod.snd).sum = votes.size := by
  rw [tallyTopicVotes_entries votes hc, List.map_map]
  exact sum_votes hc votes.entries h

/-! ## The ranking -/

/-- the comparator of the resolution -/
def compareTopics (voteCounts : JsMap String ℕ) (tieBreakScores : JsMap String ℚ) (a b : String) : ℚ :=
  let diff := (((voteCounts.get b).getD 0 : ℕ) : ℚ) - ((voteCounts.get a).getD 0 : ℕ)
  if diff ≠ 0 then diff else (tieBreakScores.get b).getD 0 - (tieBreakScores.get a).getD 0

/-- more votes first, then the greater score -/
def topicKey (voteCounts : JsMap String ℕ) (tieBreakScores : JsMap String ℚ) (t : String) : ℕ ×ₗ ℚ :=
  toLex ((voteCounts.get t).getD 0, (tieBreakScores.get t).getD 0)

theorem compareTopics_le (voteCounts : JsMap String ℕ) (tieBreakScores : JsMap String ℚ) (a b : String) :
    compareTopics voteCounts tieBreakScores a b ≤ 0 ↔
      topicKey voteCounts tieBreakScores b ≤ topicKey voteCounts tieBreakScores a := by
  simp only [compareTopics, topicKey, Prod.Lex.toLex_le_toLex, sub_ne_zero, ne_eq, Nat.cast_inj, ite_not]
  split_ifs with h
  · rw [sub_nonpos]
    simp [h]
  · rw [sub_nonpos, Nat.cast_le]
    omega

/-- **The resolution.** Banned and active topics are the candidates, as many are banned as asked for or as there are, and
no active topic has more votes than a banned one. -/
theorem resolveBannedTopics_spec (votes : JsMap String String) {candidates : List String} (hc : candidates.Nodup)
    (seed : String) (bannedCount : ℕ) :
    let result := resolveBannedTopics candidates votes seed bannedCount
    result.voteCounts = tallyTopicVotes votes candidates ∧
      (result.bannedTopics ++ result.activeTopics).Perm candidates ∧
      result.bannedTopics.length = min bannedCount candidates.length ∧
      ∀ b ∈ result.bannedTopics, ∀ a ∈ result.activeTopics, votesFor votes a ≤ votesFor votes b := by
  intro result
  by_cases hfew : candidates.length ≤ bannedCount
  · have hresult : result = ⟨candidates, [], tallyTopicVotes votes candidates⟩ := if_pos hfew
    rw [hresult]
    refine ⟨rfl, by simp, (Nat.min_eq_right hfew).symm, fun _ _ a ha => absurd ha List.not_mem_nil⟩
  · obtain ⟨scores, hresult⟩ : ∃ scores, result =
        ⟨(jsSort (compareTopics (tallyTopicVotes votes candidates) scores) candidates).take bannedCount,
          (jsSort (compareTopics (tallyTopicVotes votes candidates) scores) candidates).drop bannedCount,
          tallyTopicVotes votes candidates⟩ := ⟨_, if_neg hfew⟩
    rw [hresult]
    have hperm := jsSort_perm (compareTopics (tallyTopicVotes votes candidates) scores) candidates
    have hsorted := jsSort_sorted (compareTopics (tallyTopicVotes votes candidates) scores)
      (fun a b => by simp only [compareTopics_le]; exact le_total _ _)
      (fun a b c hab hbc => by simp only [compareTopics_le] at *; exact hbc.trans hab) candidates
    generalize jsSort (compareTopics (tallyTopicVotes votes candidates) scores) candidates = ranked at hperm hsorted
    refine ⟨rfl, by rwa [List.take_append_drop], by rw [List.length_take, hperm.length_eq], fun b hb a ha => ?_⟩
    rw [← List.take_append_drop bannedCount ranked, List.pairwise_append] at hsorted
    have hkey := (compareTopics_le _ _ _ _).1 (hsorted.2.2 b hb a ha)
    have hcount : ∀ t ∈ ranked, ((tallyTopicVotes votes candidates).get t).getD 0 = votesFor votes t := by
      intro t ht
      rw [tallyTopicVotes_get votes hc (hperm.mem_iff.1 ht)]
      rfl
    have hle := Prod.Lex.monotone_fst _ _ hkey
    simp only [topicKey, ofLex_toLex] at hle
    rwa [hcount a (List.mem_of_mem_drop ha), hcount b (List.mem_of_mem_take hb)] at hle

/-- the resolution reads the votes only through the tally -/
theorem resolveBannedTopics_congr {votes votes' : JsMap String String} (candidates : List String) (seed : String)
    (bannedCount : ℕ) (h : tallyTopicVotes votes candidates = tallyTopicVotes votes' candidates) :
    resolveBannedTopics candidates votes seed bannedCount = resolveBannedTopics candidates votes' seed bannedCount := by
  unfold resolveBannedTopics
  rw [h]

/-! ## Runs -/

structure VoteCall where
  playerId : String
  topic : String
  eventId : Option String
  now : Clock

/-- one call, with the votes accepted so far beside the machine -/
def stepVote (s : Machine × List (String × String)) (c : VoteCall) : Machine × List (String × String) :=
  match s.1.voteBanTopic c.playerId c.topic c.eventId c.now with
  | (m, .ok _) => (m, s.2 ++ [(c.playerId, c.topic)])
  | (m, .error _) => (m, s.2)

def runVotes (m : Machine) (calls : List VoteCall) : Machine × List (String × String) := calls.foldl stepVote (m, [])

/-- the topic of a player's last accepted vote -/
def lastVote (accepted : List (String × String)) (playerId : String) : Option String :=
  (accepted.reverse.find? fun v => v.1 = playerId).map Prod.snd

/-- the record of votes -/
def currentVotes (m : Machine) : JsMap String String := m.state.topicVotes.getD JsMap.empty

theorem lastVote_concat (accepted : List (String × String)) (playerId topic p : String) :
    lastVote (accepted ++ [(playerId, topic)]) p = if playerId = p then some topic else lastVote accepted p := by
  unfold lastVote
  rw [List.reverse_append, List.reverse_singleton, List.singleton_append, List.find?_cons]
  by_cases h : playerId = p
  · simp [h]
  · simp [h]

/-- the candidates stand, and the record holds every player's last accepted vote, for candidates only -/
structure VoteInv (id : String) (candidates : List String) (s : Machine × List (String × String)) : Prop where
  matchId : s.1.state.id = id
  standing : s.1.state.candidateTopics = some candidates
  last : ∀ p, (currentVotes s.1).get p = lastVote s.2 p
  topics : ∀ v ∈ (currentVotes s.1).entries, v.2 ∈ candidates

theorem initTopicVoting_inv (m : Machine) (c : Option (List String)) (d : Option Time) (now : Clock) :
    VoteInv m.state.id (m.candidatesFor c) ((m.initTopicVoting c d now).1, []) := by
  by_cases h : (m.resetTopics (m.candidatesFor c)).canTransition .topicVoting = true
  · have hrun : (m.initTopicVoting c d now).1 =
        Machine.openVoting (((m.resetTopics (m.candidatesFor c)).logEvent
          (.stateTransition m.state.status .topicVoting) (now 0)).enterStatus .topicVoting now) (m.candidatesFor c)
          (d.getD GameConfig.topicVotingDurationMs) now := by
      simp only [Machine.initTopicVoting, Machine.transition, if_pos h]
      rfl
    rw [hrun]
    exact ⟨rfl, rfl, fun p => rfl, fun v hv => absurd hv List.not_mem_nil⟩
  · -- a second opening is rejected with the topics reset
    have hrun : (m.initTopicVoting c d now).1 = m.resetTopics (m.candidatesFor c) := by
      simp only [Machine.initTopicVoting, Machine.transition, if_neg h]
    rw [hrun]
    exact ⟨rfl, rfl, fun p => rfl, fun v hv => absurd hv List.not_mem_nil⟩

/-- a call is rejected, or is for a candidate and is the player's record from then on -/
theorem voteBanTopic_cases (m : Machine) (c : VoteCall) (hproto : c.playerId ≠ "__proto__") :
    (∃ e, m.voteBanTopic c.playerId c.topic c.eventId c.now = (m, .error e)) ∨
      c.topic ∈ m.state.candidateTopics.getD [] ∧ ∃ m', m.voteBanTopic c.playerId c.topic c.eventId c.now =
        (m', .ok true) ∧ m'.state.id = m.state.id ∧ m'.state.candidateTopics = m.state.candidateTopics ∧
          (∀ p, (currentVotes m').get p = if c.playerId = p then some c.topic else (currentVotes m).get p) ∧
          ∀ v ∈ (currentVotes m').entries, v ∈ (currentVotes m).entries ∨ v = (c.playerId, c.topic) := by
  unfold Machine.voteBanTopic
  split_ifs with h1 h2 h3
  · exact Or.inl ⟨_, rfl⟩
  · exact Or.inl ⟨_, rfl⟩
  · exact Or.inl ⟨_, rfl⟩
  · have htopic : c.topic ∈ m.state.candidateTopics.getD [] := by simpa using h3
    refine Or.inr ⟨htopic, ?_⟩
    by_cases h4 : (currentVotes m).get c.playerId = some c.topic
    · -- the same topic again: accepted, nothing to record
      refine ⟨_, if_pos h4, rfl, rfl, fun p => ?_, fun v hv => Or.inl hv⟩
      by_cases hp : c.playerId = p
      · rw [if_pos hp, ← hp]
        exact h4
      · rw [if_neg hp]
        rfl
    · have hset : recordSet (currentVotes m) c.playerId c.topic = (currentVotes m).set c.playerId c.topic :=
        if_neg hproto
      refine ⟨_, if_neg h4, rfl, rfl, fun p => ?_, fun v hv => ?_⟩
      · show (recordSet (currentVotes m) c.playerId c.topic).get p = _
        rw [hset, JsMap.get_set]
      · have hmem : v ∈ ((currentVotes m).set c.playerId c.topic).entries := by
          rw [← hset]
          exact hv
        exact (JsMap.mem_set_entries hmem).symm

theorem stepVote_inv {id : String} {candidates : List String} {s : Machine × List (String × String)}
    (h : VoteInv id candidates s) (c : VoteCall) (hproto : c.playerId ≠ "__proto__") :
    VoteInv id candidates (stepVote s c) := by
  rcases voteBanTopic_cases s.1 c hproto with ⟨e, he⟩ | ⟨htopic, m', hm, hid, hcand, hget, hentries⟩
  · have hstep : stepVote s c = s := by
      simp only [stepVote, he]
    rw [hstep]
    exact h
  · have hstep : stepVote s c = (m', s.2 ++ [(c.playerId, c.topic)]) := by
      simp only [stepVote, hm]
    rw [hstep]
    refine ⟨hid.trans h.matchId, hcand.trans h.standing, fun p => ?_, fun v hv => ?_⟩
    · rw [hget, lastVote_concat, h.last]
    · rcases hentries v hv with hold | rfl
      · exact h.topics v hold
      · rw [h.standing] at htopic
        exact htopic

/-- **Every player's record is the last vote accepted from them**, after any calls. -/
theorem runVotes_inv {id : String} {candidates : List String} {m : Machine} (h : VoteInv id candidates (m, []))
    (calls : List VoteCall) (hproto : ∀ c ∈ calls, c.playerId ≠ "__proto__") :
    VoteInv id candidates (runVotes m calls) := by
  unfold runVotes
  generalize (m, ([] : List (String × String))) = s at h
  induction calls generalizing s with
  | nil => exact h
  | cons c calls ih =>
    rw [List.foldl_cons]
    exact ih (fun c' hc' => hproto c' (List.mem_cons_of_mem c hc')) _ (stepVote_inv h c (hproto c List.mem_cons_self))

/-! ## The outcome -/

/-- records that answer alike hold the same entries -/
theorem entries_perm_of_get {K V : Type} [DecidableEq K] {a b : JsMap K V} (h : ∀ k, a.get k = b.get k) :
    a.entries.Perm b.entries := by
  refine (List.perm_ext_iff_of_nodup (List.Nodup.of_map _ a.nodup) (List.Nodup.of_map _ b.nodup)).2 fun e => ?_
  constructor
  · intro he
    exact JsMap.mem_of_get ((h e.1).symm.trans (JsMap.get_of_mem he))
  · intro he
    exact JsMap.mem_of_get ((h e.1).trans (JsMap.get_of_mem he))

theorem tally_congr {votes votes' : JsMap String String} (h : ∀ p, votes.get p = votes'.get p)
    {candidates : List String} (hc : candidates.Nodup) :
    tallyTopicVotes votes candidates = tallyTopicVotes votes' candidates := by
  apply JsMap.ext
  rw [tallyTopicVotes_entries votes hc, tallyTopicVotes_entries votes' hc]
  refine List.map_congr_left fun t _ => ?_
  rw [votesFor, (entries_perm_of_get h).countP_eq]
  rfl

/-- what a machine resolves, from its record of votes -/
theorem resolveTopicVoting_eq {id : String} {candidates : List String} {s : Machine × List (String × String)}
    (h : VoteInv id candidates s) (bannedCount : ℕ) (now : Clock) :
    (s.1.resolveTopicVoting bannedCount now).2 = resolveBannedTopics candidates (currentVotes s.1) id bannedCount := by
  simp only [Machine.resolveTopicVoting, h.standing, h.matchId, Option.getD_some]
  rfl

/-- **Voting is fair.** After the voting was opened and any calls were made: the record of each player is the last vote
accepted from them, the tally counts these once each, the banned and the active topics are the candidates with the most
voted ones banned, and another order of calls with the same last votes ends in the same result. -/
theorem voting_fair (m : Machine) (candidateTopics : Option (List String)) (durationMs : Option Time) (opened : Clock)
    (hc : (m.candidatesFor candidateTopics).Nodup) (calls : List VoteCall)
    (hproto : ∀ c ∈ calls, c.playerId ≠ "__proto__") (bannedCount : ℕ) (resolved : Clock) :
    let candidates := m.candidatesFor candidateTopics
    let start := (m.initTopicVoting candidateTopics durationMs opened).1
    let run := runVotes start calls
    let votes := currentVotes run.1
    let result := (run.1.resolveTopicVoting bannedCount resolved).2
    (∀ p, votes.get p = lastVote run.2 p) ∧
    (result.voteCounts.entries.map Prod.snd).sum = votes.size ∧
    (∀ t ∈ candidates, result.voteCounts.get t = some (votesFor votes t)) ∧
    (result.bannedTopics ++ result.activeTopics).Perm candidates ∧
    result.bannedTopics.length = min bannedCount candidates.length ∧
    (∀ b ∈ result.bannedTopics, ∀ a ∈ result.activeTopics, votesFor votes a ≤ votesFor votes b) ∧
    ∀ (calls' : List VoteCall) (resolved' : Clock), (∀ c ∈ calls', c.playerId ≠ "__proto__") →
      (∀ p, lastVote (runVotes start calls').2 p = lastVote run.2 p) →
      ((runVotes start calls').1.resolveTopicVoting bannedCount resolved').2 = result := by
  intro candidates start run votes result
  have hstart : VoteInv m.state.id candidates (start, []) := initTopicVoting_inv m candidateTopics durationMs opened
  have hrun : VoteInv m.state.id candidates run := runVotes_inv hstart calls hproto
  have hresult : result = resolveBannedTopics candidates votes m.state.id bannedCount :=
    resolveTopicVoting_eq hrun bannedCount resolved
  obtain ⟨hcounts, hperm, hlen, hmost⟩ := resolveBannedTopics_spec votes hc m.state.id bannedCount
  rw [← hresult] at hcounts hperm hlen hmost
  refine ⟨hrun.last, ?_, fun t ht => ?_, hperm, hlen, hmost, fun calls' resolved' hproto' hlast => ?_⟩
  · rw [hcounts]
    exact tally_total votes hc hrun.topics
  · rw [hcounts]
    exact tallyTopicVotes_get votes hc ht
  · have hrun' := runVotes_inv hstart calls' hproto'
    rw [resolveTopicVoting_eq hrun', hresult]
    refine resolveBannedTopics_congr candidates _ bannedCount (tally_congr (fun p => ?_) hc)
    rw [hrun'.last, hlast, ← hrun.last]

/-- alice changes her vote, and a vote for a topic that is no candidate is rejected -/
def revotes : List VoteCall :=
  [⟨"alice", "art", none, fun _ => 1⟩, ⟨"bob", "art", none, fun _ => 2⟩, ⟨"alice", "chess", none, fun _ => 3⟩,
    ⟨"alice", "math", none, fun _ => 4⟩]

theorem voting_fair_revotes :
    let start := ((Machine.create "m1" "r1" [freshPlayer "alice", freshPlayer "bob"]).initTopicVoting
      (some ["art", "math", "music"]) none fun _ => 0).1
    (runVotes start revotes).2 = [("alice", "art"), ("bob", "art"), ("alice", "math")] ∧
      (currentVotes (runVotes start revotes).1).get "alice" = lastVote (runVotes start revotes).2 "alice" := by
  intro start
  exact ⟨by decide +kernel, (voting_fair (Machine.create "m1" "r1" [freshPlayer "alice", freshPlayer "bob"])
    (some ["art", "math", "music"]) none (fun _ => 0) (by decide) revotes (by decide) 2 fun _ => 5).1 "alice"⟩

end Arena.GameCore
