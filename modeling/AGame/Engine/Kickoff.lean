import AGame.Engine.Points

/-!
# Ratings at kickoff

There are two ways to ask what a team was rated at when a match kicked off: the
snapshot the full replay took, and a lookup after a replay that stops before
the match. They agree when the second replay stops at the match in the order of
the first (`snapshotOf_run`). Stopping at the kickoff instant leaves out the
matches of the same instant with smaller ids, and those matter when they seed
(`seedRating_replay`).
-/

namespace AGame.Engine.Elo

open Std (ExtTreeMap)
open Base

variable {R : Type}

/-! ## Before a match -/

/-- `(utc_date, match_id)` is strictly smaller. -/
def kickoffLT (a b : MatchResult) : Bool :=
  decide (a.utcDate < b.utcDate ∨ (a.utcDate = b.utcDate ∧ a.matchId < b.matchId))

/-- The matches replayed before `m`. -/
def earlier (l : List MatchResult) (m : MatchResult) : List MatchResult :=
  l.filter fun p => kickoffLT p m

/-- The snapshot of a match. -/
def snapshotOf (state : EloState R) (matchId : ℤ) : Option (RatingSnapshot R) :=
  state.snapshots.find? fun s => decide (s.matchId = matchId)

theorem kickoffLT_iff {a b : MatchResult} : kickoffLT a b = true ↔
    a.utcDate < b.utcDate ∨ (a.utcDate = b.utcDate ∧ a.matchId < b.matchId) := by
  simp [kickoffLT]

theorem kickoffLT_of_le {a b : MatchResult} (hle : kickoffLE a b = true)
    (hid : a.matchId ≠ b.matchId) : kickoffLT a b = true := by
  rw [kickoffLE_iff] at hle
  rw [kickoffLT_iff]
  rcases hle with hdate | ⟨hdate, hle⟩
  · exact Or.inl hdate
  · exact Or.inr ⟨hdate, by omega⟩

theorem not_kickoffLT_of_le {a b : MatchResult} (hle : kickoffLE a b = true) :
    ¬ kickoffLT b a = true := by
  rw [kickoffLE_iff] at hle
  rw [kickoffLT_iff]
  rintro (hdate | ⟨hdate, hid⟩)
  · rcases hle with hdate' | ⟨hdate', -⟩
    · exact lt_asymm hdate hdate'
    · exact hdate.ne hdate'.symm
  · rcases hle with hdate' | ⟨-, hid'⟩
    · exact hdate'.ne hdate.symm
    · omega

/-- A chronological listing is cut at a match by what is earlier. -/
theorem chronological_earlier {l before after : List MatchResult} {m : MatchResult}
    (hids : DistinctIds l) (h : chronological l = before ++ m :: after) :
    chronological (earlier l m) = before := by
  have hsorted := chronological_sorted l
  have hids' : DistinctIds (before ++ m :: after) := h ▸ hids.perm (chronological_perm l)
  unfold DistinctIds at hids'
  rw [h, List.pairwise_append] at hsorted
  rw [List.map_append, List.nodup_append] at hids'
  rw [earlier, chronological_filter, h, List.filter_append, List.filter_eq_self.mpr,
    List.filter_eq_nil_iff.mpr, List.append_nil]
  · intro p hp
    rcases List.mem_cons.mp hp with rfl | hp
    · simp [kickoffLT]
    · exact not_kickoffLT_of_le ((List.pairwise_cons.mp hsorted.2.1).1 p hp)
  · intro p hp
    apply kickoffLT_of_le (hsorted.2.2 p hp m List.mem_cons_self)
    exact hids'.2.2 p.matchId (List.mem_map_of_mem hp) m.matchId
      (List.mem_map_of_mem List.mem_cons_self)

variable [Field R] [PyMath R]

/-- **Snapshots are prefix-consistent**: a match is played at the ratings of the
replay that stops before it. -/
theorem snapshotOf_run {l : List MatchResult} (hids : DistinctIds l) {m : MatchResult}
    (hm : m ∈ l) :
    snapshotOf (run l : EloState R) m.matchId =
      some (applyMatch (run (earlier l m) : EloState R).ratings m).2 := by
  obtain ⟨before, after, hsplit⟩ := List.append_of_mem ((chronological_perm l).mem_iff.mpr hm)
  have hids' : DistinctIds (before ++ m :: after) := hsplit ▸ hids.perm (chronological_perm l)
  have hnone : (outputs applyMatch (∅ : TeamMap R) before).find?
      (fun s => decide (s.matchId = m.matchId)) = none := by
    rw [List.find?_eq_none]
    intro s hs heq
    have hid : m.matchId ∈ before.map MatchResult.matchId := by
      rw [← map_matchId_outputs (∅ : TeamMap R), ← of_decide_eq_true heq]
      exact List.mem_map_of_mem hs
    unfold DistinctIds at hids'
    rw [List.map_append, List.nodup_append] at hids'
    exact hids'.2.2 _ hid _ (List.mem_map_of_mem List.mem_cons_self) rfl
  rw [snapshotOf, run_snapshots, outputs_eq_of_split hsplit, List.find?_append, hnone,
    Option.none_or, List.find?_cons_of_pos, run_ratings, chronological_earlier hids hsplit]
  rw [applyMatch_snapshot]
  exact decide_eq_true rfl

/-- What was played at a match was decided before it: equal pasts, equal snapshots. -/
theorem snapshotOf_congr {l l' : List MatchResult} (hids : DistinctIds l) (hids' : DistinctIds l')
    {m m' : MatchResult} (hm : m ∈ l) (hm' : m' ∈ l') (hid : m'.matchId = m.matchId)
    (hhome : m'.homeKey = m.homeKey) (haway : m'.awayKey = m.awayKey)
    (hpast : (earlier l' m').Perm (earlier l m)) :
    snapshotOf (run l' : EloState R) m'.matchId = snapshotOf (run l : EloState R) m.matchId := by
  have hleague : m'.competitionId = m.competitionId := congrArg Prod.snd hhome
  have hids₀ : DistinctIds (earlier l m) :=
    List.Sublist.nodup (List.filter_sublist.map _) hids
  rw [snapshotOf_run hids hm, snapshotOf_run hids' hm', run_perm hids₀ hpast,
    applyMatch_snapshot, applyMatch_snapshot]
  simp only [kickoffRatings, hid, hhome, haway, hleague]

/-! ## Stopping at the kickoff instant -/

/-- The matches of the competition that kick off before `m`. -/
def strictPast (l : List MatchResult) (m : MatchResult) : List MatchResult :=
  l.filter fun p => decide (p.competitionId = m.competitionId ∧ p.utcDate < m.utcDate)

/-- The matches of the competition that kick off with `m` and are replayed before it. -/
def sameKickoff (l : List MatchResult) (m : MatchResult) : List MatchResult :=
  l.filter fun p => decide (p.competitionId = m.competitionId ∧
    p.utcDate = m.utcDate ∧ p.matchId < m.matchId)

theorem mem_sameKickoff {l : List MatchResult} {m p : MatchResult} :
    p ∈ sameKickoff l m ↔ p ∈ l ∧ p.competitionId = m.competitionId ∧
      p.utcDate = m.utcDate ∧ p.matchId < m.matchId := by
  simp [sameKickoff]

/-- A replay up to `m` is one up to its kickoff and then the matches that share it. -/
theorem chronological_earlier_league {l : List MatchResult} (hids : DistinctIds l)
    (m : MatchResult) :
    chronological ((earlier l m).filter (inLeague m.competitionId)) =
      chronological (strictPast l m) ++ chronological (sameKickoff l m) := by
  have hpast : ((earlier l m).filter (inLeague m.competitionId)).filter
      (fun p => decide (p.utcDate < m.utcDate)) = strictPast l m := by
    rw [earlier, List.filter_filter, List.filter_filter, strictPast]
    refine List.filter_congr fun p _ => ?_
    simp only [kickoffLT, inLeague, Bool.decide_and, Bool.decide_or]
    by_cases hdate : p.utcDate < m.utcDate
    · simp [hdate]
    · simp [hdate]
  have hsame : ((earlier l m).filter (inLeague m.competitionId)).filter
      (fun p => !decide (p.utcDate < m.utcDate)) = sameKickoff l m := by
    rw [earlier, List.filter_filter, List.filter_filter, sameKickoff]
    refine List.filter_congr fun p _ => ?_
    simp only [kickoffLT, inLeague, Bool.decide_and, Bool.decide_or]
    by_cases hdate : p.utcDate < m.utcDate
    · simp [hdate, hdate.ne]
    · simp [hdate]
  apply chronological_eq_of_sorted
  · exact List.Sublist.nodup ((List.filter_sublist.trans List.filter_sublist).map _) hids
  · refine ((chronological_perm _).append (chronological_perm _)).trans ?_
    rw [← hpast, ← hsame]
    exact List.filter_append_perm _ _
  · rw [List.pairwise_append]
    refine ⟨chronological_sorted _, chronological_sorted _, ?_⟩
    intro p hp q hq
    have hp := (chronological_perm _).subset hp
    have hq := (chronological_perm _).subset hq
    simp only [strictPast, List.mem_filter, decide_eq_true_eq] at hp
    rw [kickoffLE_iff, (mem_sameKickoff.mp hq).2.2.1]
    exact Or.inl hp.2.2

/-- What `m` is played at, from the replay that stops at its kickoff. -/
theorem kickoffRatings_earlier {l : List MatchResult} (hids : DistinctIds l) (m : MatchResult) :
    kickoffRatings (run (earlier l m) : EloState R).ratings m =
      kickoffRatings (ratingsAfter (run (strictPast l m) : EloState R).ratings
        (chronological (sameKickoff l m))) m := by
  rw [← kickoffRatings_leagueOf (run (earlier l m) : EloState R).ratings m, run_leagueOf,
    run_ratings, run_ratings, chronological_earlier_league hids, ratingsAfter, finalState_append]

/-- A rating stays as it is while its team does not play. -/
theorem ratingsAfter_frame {listing : List MatchResult} {key : TeamKey}
    (h : ∀ p ∈ listing, key ≠ p.homeKey ∧ key ≠ p.awayKey) (ratings : TeamMap R) :
    (ratingsAfter ratings listing)[key]? = ratings[key]? := by
  induction listing generalizing ratings with
  | nil => rfl
  | cons p listing ih =>
      obtain ⟨hhome, haway⟩ := h p List.mem_cons_self
      rw [ratingsAfter, finalState_cons, ih fun q hq => h q (List.mem_cons_of_mem _ hq),
        applyMatch_ratings, getElem?_put, getElem?_put, if_neg haway.symm, if_neg hhome.symm]

/-- The team behind a key has played in the competition of `m` before its kickoff. -/
def HasPlayed (l : List MatchResult) (m : MatchResult) (key : TeamKey) : Prop :=
  ∃ p ∈ strictPast l m, key = p.homeKey ∨ key = p.awayKey

/-- Everyone who kicks off with `m` and is replayed before it has played before. -/
def NoDebut (l : List MatchResult) (m : MatchResult) : Prop :=
  ∀ p ∈ sameKickoff l m, HasPlayed l m p.homeKey ∧ HasPlayed l m p.awayKey

theorem hasPlayed_iff {l : List MatchResult} {m : MatchResult} {key : TeamKey} :
    HasPlayed l m key ↔ key ∈ (run (strictPast l m) : EloState R).ratings := by
  rw [run_ratings, mem_ratingsAfter]
  simp only [(chronological_perm _).mem_iff]
  rfl

/-- No team plays two matches at the same instant. -/
def OneMatchAtATime (l : List MatchResult) : Prop :=
  ∀ p ∈ l, ∀ q ∈ l, p.utcDate = q.utcDate → p ≠ q →
    ∀ team, ¬ ((p.homeTeamId = team ∨ p.awayTeamId = team) ∧
      (q.homeTeamId = team ∨ q.awayTeamId = team))

instance (l : List MatchResult) (m : MatchResult) (key : TeamKey) :
    Decidable (HasPlayed l m key) :=
  inferInstanceAs (Decidable (∃ p ∈ strictPast l m, key = p.homeKey ∨ key = p.awayKey))

instance (l : List MatchResult) (m : MatchResult) : Decidable (NoDebut l m) :=
  inferInstanceAs (Decidable (∀ p ∈ sameKickoff l m,
    HasPlayed l m p.homeKey ∧ HasPlayed l m p.awayKey))

/-- The matches that share the kickoff of `m` leave its teams alone. -/
theorem sameKickoff_frame {l : List MatchResult} (hslots : OneMatchAtATime l) {m : MatchResult}
    (hm : m ∈ l) {key : TeamKey} (hkey : key = m.homeKey ∨ key = m.awayKey) :
    ∀ p ∈ chronological (sameKickoff l m), key ≠ p.homeKey ∧ key ≠ p.awayKey := by
  intro p hp
  obtain ⟨hpl, -, hdate, hid⟩ := mem_sameKickoff.mp ((chronological_perm _).subset hp)
  have hne : p ≠ m := by
    rintro rfl
    exact lt_irrefl _ hid
  have hside : m.homeTeamId = key.1 ∨ m.awayTeamId = key.1 := by
    rcases hkey with rfl | rfl
    · exact Or.inl rfl
    · exact Or.inr rfl
  have hapart := hslots p hpl m hm hdate hne key.1
  constructor
  · rintro rfl
    exact hapart ⟨Or.inl rfl, hside⟩
  · rintro rfl
    exact hapart ⟨Or.inr rfl, hside⟩

variable [LinearOrder R] [IsStrictOrderedRing R]

/-- A side's rating at kickoff, looked up in either map. -/
theorem getD_replay {listing : List MatchResult} {c : ℤ}
    (hteams : ∀ p ∈ listing, p.homeKey ≠ p.awayKey) (hleague : ∀ p ∈ listing, p.competitionId = c)
    {key : TeamKey} (hframe : ∀ p ∈ listing, key ≠ p.homeKey ∧ key ≠ p.awayKey)
    (ratings : TeamMap R) :
    (ratingsAfter ratings listing).getD key (seedRating (ratingsAfter ratings listing) c) ≤
        ratings.getD key (seedRating ratings c) ∧
      ((ratingsAfter ratings listing).getD key (seedRating (ratingsAfter ratings listing) c) =
        ratings.getD key (seedRating ratings c) ↔
          key ∈ ratings ∨ ∀ p ∈ listing, p.homeKey ∈ ratings ∧ p.awayKey ∈ ratings) := by
  obtain ⟨hle, heq⟩ := seedRating_replay hteams hleague ratings
  rw [ExtTreeMap.getD_eq_getD_getElem?, ExtTreeMap.getD_eq_getD_getElem?,
    ratingsAfter_frame hframe]
  by_cases hkey : key ∈ ratings
  · simp [hkey]
  · rw [ExtTreeMap.getElem?_eq_none hkey]
    simp only [hkey, false_or]
    exact ⟨hle, heq⟩

/-- **The replay against the cut.** Both sides of `m` are rated by the full
replay at most as they are by the one that stops at the kickoff, and alike
exactly when they are no newcomers or nobody makes a debut before them. -/
theorem kickoffRatings_cut {l : List MatchResult}
    (hteams : ∀ p ∈ l, p.homeTeamId ≠ p.awayTeamId) (hslots : OneMatchAtATime l)
    {m : MatchResult} (hm : m ∈ l) {key : TeamKey} (hkey : key = m.homeKey ∨ key = m.awayKey)
    {replayed cut : TeamMap R}
    (hreplayed : replayed = ratingsAfter cut (chronological (sameKickoff l m)))
    (hcut : cut = (run (strictPast l m) : EloState R).ratings) :
    replayed.getD key (seedRating replayed m.competitionId) ≤
        cut.getD key (seedRating cut m.competitionId) ∧
      (replayed.getD key (seedRating replayed m.competitionId) =
        cut.getD key (seedRating cut m.competitionId) ↔ HasPlayed l m key ∨ NoDebut l m) := by
  have hlisted : ∀ p ∈ chronological (sameKickoff l m),
      p ∈ l ∧ p.competitionId = m.competitionId := by
    intro p hp
    obtain ⟨hpl, hleague, -⟩ := mem_sameKickoff.mp ((chronological_perm _).subset hp)
    exact ⟨hpl, hleague⟩
  have hquiet : NoDebut l m ↔
      ∀ p ∈ chronological (sameKickoff l m), p.homeKey ∈ cut ∧ p.awayKey ∈ cut := by
    unfold NoDebut
    simp only [(chronological_perm (sameKickoff l m)).mem_iff, hasPlayed_iff (R := R), hcut]
  rw [hquiet, hasPlayed_iff (R := R), ← hcut, hreplayed]
  exact getD_replay (fun p hp => keys_ne (hteams p (hlisted p hp).1)) (fun p hp => (hlisted p hp).2)
    (sameKickoff_frame hslots hm hkey) cut

end AGame.Engine.Elo
