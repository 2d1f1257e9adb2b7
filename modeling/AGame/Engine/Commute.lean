import AGame.Engine.Points

/-!
# Matches that commute

Two matches without a common key disturb each other only through the seed of a
newcomer, which looks at every rating of its league. So between rated teams, or
across competitions, they may be applied in either order (`applyMatch_comm`),
and the id that breaks a tie at one kickoff is harmless there
(`run_relabelAt`).
-/

namespace AGame.Engine.Elo

open Std (ExtTreeMap)
open Base

/-- The two matches have no team of a competition in common. -/
def NoSharedKey (m m' : MatchResult) : Prop :=
  (m.homeKey ≠ m'.homeKey ∧ m.homeKey ≠ m'.awayKey) ∧
    m.awayKey ≠ m'.homeKey ∧ m.awayKey ≠ m'.awayKey

instance (m m' : MatchResult) : Decidable (NoSharedKey m m') :=
  inferInstanceAs (Decidable (_ ∧ _))

theorem NoSharedKey.symm {m m' : MatchResult} (h : NoSharedKey m m') : NoSharedKey m' m :=
  ⟨⟨h.1.1.symm, h.2.1.symm⟩, h.1.2.symm, h.2.2.symm⟩

section

variable {R : Type}

/-- Both sides have a rating already. -/
def BothRated (ratings : TeamMap R) (m : MatchResult) : Prop :=
  m.homeKey ∈ ratings ∧ m.awayKey ∈ ratings

end

variable {R : Type} [Field R] [PyMath R]

/-! ## Two matches -/

theorem BothRated.applyMatch {ratings : TeamMap R} {m' : MatchResult} (h : BothRated ratings m')
    (m : MatchResult) : BothRated (applyMatch ratings m).1 m' :=
  ⟨mem_applyMatch.mpr (Or.inl h.1), mem_applyMatch.mpr (Or.inl h.2)⟩

theorem getElem?_applyMatch_other (ratings : TeamMap R) {m : MatchResult} {key : TeamKey}
    (hhome : m.homeKey ≠ key) (haway : m.awayKey ≠ key) :
    (applyMatch ratings m).1[key]? = ratings[key]? := by
  rw [applyMatch_ratings, getElem?_put, if_neg haway, getElem?_put, if_neg hhome]

/-- A match is played at the same ratings after another one that shares no key
with it, unless the other one may have moved its seed. -/
theorem kickoffRatings_after (ratings : TeamMap R) {m m' : MatchResult} (h : NoSharedKey m m')
    (hseed : BothRated ratings m' ∨ m.competitionId ≠ m'.competitionId) :
    kickoffRatings (applyMatch ratings m).1 m' = kickoffRatings ratings m' := by
  rcases hseed with ⟨hhome, haway⟩ | hother
  · obtain ⟨ratingHome, hhome⟩ := mem_iff_getElem?.mp hhome
    obtain ⟨ratingAway, haway⟩ := mem_iff_getElem?.mp haway
    simp only [kickoffRatings, ExtTreeMap.getD_eq_getD_getElem?,
      getElem?_applyMatch_other ratings h.1.1 h.2.1, getElem?_applyMatch_other ratings h.1.2 h.2.2,
      hhome, haway, Option.getD_some]
  · rw [← kickoffRatings_leagueOf, applyMatch_leagueOf_other ratings hother,
      kickoffRatings_leagueOf]

/-- The snapshot and the ratings written are those of the kickoff. -/
theorem applyMatch_congr {ratings ratings' : TeamMap R} {m : MatchResult}
    (h : kickoffRatings ratings' m = kickoffRatings ratings m) :
    (applyMatch ratings' m).2 = (applyMatch ratings m).2 ∧
      (applyMatch ratings' m).1[m.homeKey]? = (applyMatch ratings m).1[m.homeKey]? ∧
      (applyMatch ratings' m).1[m.awayKey]? = (applyMatch ratings m).1[m.awayKey]? := by
  refine ⟨?_, ?_, ?_⟩
  · rw [applyMatch_snapshot, applyMatch_snapshot, h]
  · simp only [applyMatch_ratings, getElem?_put, pointsWon, h, if_true]
  · simp only [applyMatch_ratings, getElem?_put, pointsWon, h, if_true]

/-- What two matches in a row leave at a key of the second one, and what they
leave at a key of the first. -/
theorem applyMatch_twice (ratings : TeamMap R) {m m' : MatchResult} (h : NoSharedKey m m')
    (hseed : BothRated ratings m' ∨ m.competitionId ≠ m'.competitionId) :
    ∀ key : TeamKey, (applyMatch (applyMatch ratings m).1 m').1[key]? =
      if m'.homeKey = key ∨ m'.awayKey = key then (applyMatch ratings m').1[key]?
      else (applyMatch ratings m).1[key]? := by
  intro key
  obtain ⟨-, hhome, haway⟩ := applyMatch_congr (kickoffRatings_after ratings h hseed)
  split_ifs with hkey
  · rcases hkey with rfl | rfl
    · exact hhome
    · exact haway
  · rw [not_or] at hkey
    exact getElem?_applyMatch_other _ hkey.1 hkey.2

/-- Two matches without a common key commute when each has its ratings already or
the other is of another competition. -/
theorem applyMatch_comm (ratings : TeamMap R) {m m' : MatchResult} (h : NoSharedKey m m')
    (hm : BothRated ratings m ∨ m'.competitionId ≠ m.competitionId)
    (hm' : BothRated ratings m' ∨ m.competitionId ≠ m'.competitionId) :
    (applyMatch (applyMatch ratings m).1 m').1 = (applyMatch (applyMatch ratings m').1 m).1 := by
  apply ExtTreeMap.ext_getElem?
  intro key
  rw [applyMatch_twice ratings h hm', applyMatch_twice ratings h.symm hm]
  by_cases hkey : m.homeKey = key ∨ m.awayKey = key
  · have hkey' : ¬ (m'.homeKey = key ∨ m'.awayKey = key) := by
      rintro (rfl | rfl)
      · exact hkey.elim h.1.1 h.2.1
      · exact hkey.elim h.1.2 h.2.2
    rw [if_neg hkey', if_pos hkey]
  · by_cases hkey' : m'.homeKey = key ∨ m'.awayKey = key
    · rw [if_pos hkey', if_neg hkey]
    · rw [not_or] at hkey hkey'
      rw [if_neg (not_or.mpr hkey'), if_neg (not_or.mpr hkey),
        getElem?_applyMatch_other ratings hkey.1 hkey.2,
        getElem?_applyMatch_other ratings hkey'.1 hkey'.2]

/-! ## The matches at one kickoff -/

/-- A listing by date is what comes before an instant, what is at it and what
comes after. -/
theorem split_at_kickoff (T : Instant) {listing : List MatchResult}
    (hsorted : listing.Pairwise fun a b => a.utcDate ≤ b.utcDate) :
    listing = listing.filter (fun m => decide (m.utcDate < T)) ++
      (listing.filter (fun m => decide (m.utcDate = T)) ++
        listing.filter fun m => decide (T < m.utcDate)) := by
  induction listing with
  | nil => rfl
  | cons m listing ih =>
      obtain ⟨hlater, hrest⟩ := List.pairwise_cons.mp hsorted
      have ih := ih hrest
      have hnone : ∀ p : MatchResult → Bool, (∀ m' ∈ listing, p m' = false) →
          listing.filter p = [] := by
        intro p hp
        rw [List.filter_eq_nil_iff]
        intro m' hm'
        rw [hp m' hm']
        exact Bool.false_ne_true
      rcases lt_trichotomy m.utcDate T with hlt | heq | hgt
      · rw [List.filter_cons_of_pos (by simpa using hlt),
          List.filter_cons_of_neg (by simpa using hlt.ne),
          List.filter_cons_of_neg (by simpa using hlt.le), List.cons_append, ← ih]
      · have hbefore := hnone (fun m' => decide (m'.utcDate < T)) fun m' hm' =>
          decide_eq_false (heq ▸ hlater m' hm').not_gt
        rw [hbefore, List.nil_append] at ih
        rw [List.filter_cons_of_neg (by simpa using heq.ge),
          List.filter_cons_of_pos (by simpa using heq),
          List.filter_cons_of_neg (by simpa using heq.le), hbefore, List.nil_append,
          List.cons_append, ← ih]
      · have hbefore := hnone (fun m' => decide (m'.utcDate < T)) fun m' hm' =>
          decide_eq_false (hgt.le.trans (hlater m' hm')).not_gt
        have hat := hnone (fun m' => decide (m'.utcDate = T)) fun m' hm' =>
          decide_eq_false (hgt.trans_le (hlater m' hm')).ne'
        rw [hbefore, hat, List.nil_append, List.nil_append] at ih
        rw [List.filter_cons_of_neg (by simpa using hgt.le),
          List.filter_cons_of_neg (by simpa using hgt.ne'),
          List.filter_cons_of_pos (by simpa using hgt), hbefore, hat, List.nil_append,
          List.nil_append, ← ih]

/-- The matches of a history at an instant. -/
def atKickoff (T : Instant) (l : List MatchResult) : List MatchResult :=
  l.filter fun m => decide (m.utcDate = T)

theorem chronological_split (T : Instant) (l : List MatchResult) :
    chronological l = chronological (l.filter fun m => decide (m.utcDate < T)) ++
      (chronological (atKickoff T l) ++
        chronological (l.filter fun m => decide (T < m.utcDate))) := by
  rw [atKickoff, chronological_filter, chronological_filter, chronological_filter]
  apply split_at_kickoff
  refine (chronological_sorted l).imp fun {a b} hab => ?_
  rw [kickoffLE_iff] at hab
  rcases hab with hlt | ⟨heq, -⟩
  · exact hlt.le
  · exact heq.le

/-- Matches that pairwise share no key, all between rated teams, may be applied in
any order. -/
theorem ratingsAfter_perm {listing listing' : List MatchResult} (hperm : listing.Perm listing')
    (hapart : listing.Pairwise NoSharedKey) (ratings : TeamMap R)
    (hrated : ∀ m ∈ listing, BothRated ratings m) :
    ratingsAfter ratings listing = ratingsAfter ratings listing' := by
  refine finalState_perm ?_ ?_ ?_ hperm hapart ratings hrated
  · intro ratings m m' hm'
    exact hm'.applyMatch m
  · intro ratings m m' hm hm' h
    exact applyMatch_comm ratings h (Or.inl hm) (Or.inl hm')
  · exact fun m m' h => h.symm

/-! ## New ids -/

/-- The matches at an instant get new ids. -/
def relabelAt (T : Instant) (newId : MatchResult → ℤ) (m : MatchResult) : MatchResult :=
  if m.utcDate = T then { m with matchId := newId m } else m

theorem utcDate_relabelAt (T : Instant) (newId : MatchResult → ℤ) (m : MatchResult) :
    (relabelAt T newId m).utcDate = m.utcDate := by
  unfold relabelAt
  split_ifs
  · rfl
  · rfl

theorem keys_relabelAt (T : Instant) (newId : MatchResult → ℤ) (m : MatchResult) :
    (relabelAt T newId m).homeKey = m.homeKey ∧ (relabelAt T newId m).awayKey = m.awayKey := by
  unfold relabelAt
  split_ifs
  · exact ⟨rfl, rfl⟩
  · exact ⟨rfl, rfl⟩

/-- An id shows in the snapshot only. -/
theorem applyMatch_relabelAt (T : Instant) (newId : MatchResult → ℤ) (ratings : TeamMap R)
    (m : MatchResult) :
    (applyMatch ratings (relabelAt T newId m)).1 = (applyMatch ratings m).1 := by
  unfold relabelAt
  split_ifs
  · rfl
  · rfl

/-- Away from the instant nothing is relabelled. -/
theorem filter_relabelAt (T : Instant) (newId : MatchResult → ℤ) (l : List MatchResult)
    (p : Instant → Bool) (hp : p T = false) :
    (l.map (relabelAt T newId)).filter (fun m => p m.utcDate) =
      l.filter fun m => p m.utcDate := by
  rw [List.filter_map]
  simp only [Function.comp_def, utcDate_relabelAt]
  refine (List.map_congr_left fun m hm => ?_).trans (List.map_id _)
  have hdate : m.utcDate ≠ T := by
    rintro rfl
    rw [List.mem_filter, hp] at hm
    exact Bool.false_ne_true hm.2
  rw [relabelAt, if_neg hdate, id_eq]

theorem atKickoff_relabelAt (T : Instant) (newId : MatchResult → ℤ) (l : List MatchResult) :
    atKickoff T (l.map (relabelAt T newId)) = (atKickoff T l).map (relabelAt T newId) := by
  rw [atKickoff, List.filter_map]
  simp only [Function.comp_def, utcDate_relabelAt]
  rfl

/-- The team behind a key has played in its competition before an instant. -/
def PlayedBefore (l : List MatchResult) (T : Instant) (key : TeamKey) : Prop :=
  ∃ p ∈ l, p.utcDate < T ∧ (key = p.homeKey ∨ key = p.awayKey)

/-- At an instant no team of a competition plays twice, and none for the first time. -/
structure SettledAt (l : List MatchResult) (T : Instant) : Prop where
  apart : (atKickoff T l).Pairwise NoSharedKey
  known : ∀ m ∈ atKickoff T l, PlayedBefore l T m.homeKey ∧ PlayedBefore l T m.awayKey

theorem PlayedBefore.rated {l : List MatchResult} {T : Instant} {key : TeamKey}
    (h : PlayedBefore l T key) :
    key ∈ ratingsAfter (∅ : TeamMap R)
      (chronological (l.filter fun m => decide (m.utcDate < T))) := by
  obtain ⟨p, hp, hdate, hside⟩ := h
  refine mem_ratingsAfter.mpr ⟨p, ?_, hside⟩
  rw [(chronological_perm _).mem_iff, List.mem_filter]
  exact ⟨hp, decide_eq_true hdate⟩

/-- New ids at a settled instant leave the ratings of `run` as they are. -/
theorem run_relabelAt {l : List MatchResult} {T : Instant} (h : SettledAt l T)
    (newId : MatchResult → ℤ) :
    (run (l.map (relabelAt T newId)) : EloState R).ratings = (run l).ratings := by
  have hbefore := filter_relabelAt T newId l (fun d => decide (d < T)) (by simp)
  have hafter := filter_relabelAt T newId l (fun d => decide (T < d)) (by simp)
  -- The relabelled block is the old one in some other order, with other ids.
  have hblock : ((chronological (atKickoff T l)).map (relabelAt T newId)).Perm
      (chronological (atKickoff T (l.map (relabelAt T newId)))) := by
    rw [atKickoff_relabelAt]
    exact ((chronological_perm _).map _).trans (chronological_perm _).symm
  have hapart : ((chronological (atKickoff T l)).map (relabelAt T newId)).Pairwise NoSharedKey := by
    rw [List.pairwise_map]
    refine ((chronological_perm _).symm.pairwise h.apart fun hab => hab.symm).imp ?_
    intro m m' hmm'
    unfold NoSharedKey
    rw [(keys_relabelAt T newId m).1, (keys_relabelAt T newId m).2, (keys_relabelAt T newId m').1,
      (keys_relabelAt T newId m').2]
    exact hmm'
  have hrated : ∀ m ∈ (chronological (atKickoff T l)).map (relabelAt T newId),
      BothRated (ratingsAfter (∅ : TeamMap R)
        (chronological (l.filter fun m => decide (m.utcDate < T)))) m := by
    intro relabelled hmem
    obtain ⟨m, hm, rfl⟩ := List.mem_map.mp hmem
    obtain ⟨hhome, haway⟩ := h.known m ((chronological_perm _).subset hm)
    rw [BothRated, (keys_relabelAt T newId m).1, (keys_relabelAt T newId m).2]
    exact ⟨hhome.rated, haway.rated⟩
  have hsame := ratingsAfter_perm hblock hapart _ hrated
  rw [ratingsAfter, finalState_map (applyMatch_relabelAt T newId)] at hsame
  rw [run_ratings, run_ratings, chronological_split T l,
    chronological_split T (l.map (relabelAt T newId)), hbefore, hafter]
  simp only [ratingsAfter, finalState_append]
  rw [hsame]

/-- **Independent matches commute**: without a common key, and with nobody's seed
in the other's hands, either order leaves the same ratings and the same two
snapshots; so at an instant where everyone is known the ids do not matter. -/
theorem independent_matches_commute :
    (∀ (ratings : TeamMap R) (m m' : MatchResult), NoSharedKey m m' →
      (BothRated ratings m ∨ m'.competitionId ≠ m.competitionId) →
      (BothRated ratings m' ∨ m.competitionId ≠ m'.competitionId) →
      (applyMatch (applyMatch ratings m).1 m').1 = (applyMatch (applyMatch ratings m').1 m).1 ∧
        (applyMatch (applyMatch ratings m).1 m').2 = (applyMatch ratings m').2 ∧
        (applyMatch (applyMatch ratings m').1 m).2 = (applyMatch ratings m).2) ∧
    ∀ (l : List MatchResult) (T : Instant) (newId : MatchResult → ℤ), SettledAt l T →
      (run (l.map (relabelAt T newId)) : EloState R).ratings = (run l).ratings := by
  constructor
  · intro ratings m m' h hm hm'
    refine ⟨applyMatch_comm ratings h hm hm', ?_, ?_⟩
    · exact (applyMatch_congr (kickoffRatings_after ratings h hm')).1
    · exact (applyMatch_congr (kickoffRatings_after ratings h.symm hm)).1
  · intro l T newId h
    exact run_relabelAt h newId

/-- Two first matches of two leagues, either way round; and two return fixtures at
one kickoff with their ids exchanged. -/
theorem openers_and_returns_commute :
    (applyMatch (applyMatch (∅ : TeamMap ℝ) ⟨1, 2021, 0, 1, 2, 1, 0⟩).1
        ⟨2, 2001, 0, 3, 4, 0, 0⟩).1 =
      (applyMatch (applyMatch ∅ ⟨2, 2001, 0, 3, 4, 0, 0⟩).1 ⟨1, 2021, 0, 1, 2, 1, 0⟩).1 ∧
    (run (R := ℝ) ([⟨1, 2021, 0, 1, 2, 1, 0⟩, ⟨2, 2021, 0, 3, 4, 0, 0⟩, ⟨3, 2021, 5, 2, 3, 2, 1⟩,
        ⟨4, 2021, 5, 4, 1, 0, 1⟩].map (relabelAt 5 fun m => 7 - m.matchId))).ratings =
      (run [⟨1, 2021, 0, 1, 2, 1, 0⟩, ⟨2, 2021, 0, 3, 4, 0, 0⟩, ⟨3, 2021, 5, 2, 3, 2, 1⟩,
        ⟨4, 2021, 5, 4, 1, 0, 1⟩]).ratings :=
  ⟨(independent_matches_commute.1 ∅ ⟨1, 2021, 0, 1, 2, 1, 0⟩ ⟨2, 2001, 0, 3, 4, 0, 0⟩ (by decide)
      (Or.inr (by decide)) (Or.inr (by decide))).1,
    independent_matches_commute.2 _ 5 _ ⟨by decide, by unfold PlayedBefore; decide⟩⟩

end AGame.Engine.Elo
