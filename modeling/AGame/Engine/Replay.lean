import AGame.Base.Replay
import AGame.Engine.Elo

/-!
# The replay of a history

`apply_match` read through lookups: seeding shows only in the ratings a match
is played at (`kickoffRatings`), and the match rewrites the entries of its two
teams. `run` is then the machine that plays a chronological listing from the
empty map, and it takes the leagues apart: each is replayed as if it were alone.
-/

namespace AGame.Engine.Elo

open Std (ExtTreeMap)
open Base

variable {R : Type} [Field R]

/-! ## One match -/

/-- The ratings a match is played at. -/
def kickoffRatings (ratings : TeamMap R) (m : MatchResult) : R × R :=
  let seed := seedRating ratings m.competitionId
  (ratings.getD m.homeKey seed, ratings.getD m.awayKey seed)

/-- The guard of the seeding only saves work. -/
theorem seedTeams_eq (ratings : TeamMap R) (m : MatchResult) :
    seedTeams ratings m =
      (ratings.insertIfNew m.homeKey (seedRating ratings m.competitionId)).insertIfNew m.awayKey
        (seedRating ratings m.competitionId) := by
  unfold seedTeams
  split_ifs with hseeds
  · rfl
  · rw [not_or, not_not, not_not] at hseeds
    rw [insertIfNew_held _ hseeds.1, insertIfNew_held _ hseeds.2]

/-- Seeding gives an entry to both sides and touches no other. -/
theorem getElem?_seedTeams (ratings : TeamMap R) (m : MatchResult) (key : TeamKey) :
    (seedTeams ratings m)[key]? =
      if key = m.homeKey ∨ key = m.awayKey then
        some (ratings.getD key (seedRating ratings m.competitionId))
      else ratings[key]? := by
  rw [seedTeams_eq, ExtTreeMap.getElem?_insertIfNew, ExtTreeMap.getElem?_insertIfNew]
  simp only [ExtTreeMap.mem_insertIfNew, Std.LawfulEqCmp.compare_eq_iff_eq,
    ExtTreeMap.getD_eq_getD_getElem?]
  by_cases hkey : key ∈ ratings
  · obtain ⟨rating, hrating⟩ := mem_iff_getElem?.mp hkey
    rw [hrating]
    grind
  · rw [ExtTreeMap.getElem?_eq_none hkey]
    grind

theorem get_seedTeams {ratings : TeamMap R} {m : MatchResult} {key : TeamKey}
    (hside : key = m.homeKey ∨ key = m.awayKey) (hkey : key ∈ seedTeams ratings m) :
    (seedTeams ratings m).get key hkey =
      ratings.getD key (seedRating ratings m.competitionId) := by
  have hlookup := getElem?_seedTeams ratings m key
  rw [if_pos hside, ExtTreeMap.getElem?_eq_some_getElem hkey] at hlookup
  exact Option.some.inj hlookup

variable [PyMath R]

/-- The points the home side takes from a match. -/
def pointsWon (ratings : TeamMap R) (m : MatchResult) : R :=
  ratingChange (kickoffRatings ratings m).1 (kickoffRatings ratings m).2 m

theorem applyMatch_snapshot (ratings : TeamMap R) (m : MatchResult) :
    (applyMatch ratings m).2 =
      ⟨m.matchId, (kickoffRatings ratings m).1, (kickoffRatings ratings m).2⟩ := by
  simp only [applyMatch]
  rw [get_seedTeams (Or.inl rfl), get_seedTeams (Or.inr rfl)]
  rfl

/-- The points change hands between two seeded sides. -/
theorem applyMatch_seeded (ratings : TeamMap R) (m : MatchResult) :
    (applyMatch ratings m).1 =
      ((seedTeams ratings m).insert m.homeKey
        ((kickoffRatings ratings m).1 + pointsWon ratings m)).insert
        m.awayKey ((kickoffRatings ratings m).2 - pointsWon ratings m) := by
  simp only [applyMatch]
  rw [get_seedTeams (Or.inl rfl), get_seedTeams (Or.inr rfl)]
  rfl

/-- A match rewrites the entries of its two teams. -/
theorem applyMatch_ratings (ratings : TeamMap R) (m : MatchResult) :
    (applyMatch ratings m).1 =
      (ratings.insert m.homeKey ((kickoffRatings ratings m).1 + pointsWon ratings m)).insert
        m.awayKey ((kickoffRatings ratings m).2 - pointsWon ratings m) := by
  rw [applyMatch_seeded]
  refine ExtTreeMap.ext_getElem? fun key => ?_
  simp only [getElem?_put, getElem?_seedTeams]
  by_cases haway : m.awayKey = key
  · rw [if_pos haway, if_pos haway]
  · by_cases hhome : m.homeKey = key
    · rw [if_neg haway, if_neg haway, if_pos hhome, if_pos hhome]
    · rw [if_neg haway, if_neg haway, if_neg hhome, if_neg hhome, if_neg]
      rintro (rfl | rfl)
      · exact hhome rfl
      · exact haway rfl

/-! ## The whole replay -/

/-- The ratings after replaying a listing from a rating map. -/
abbrev ratingsAfter (ratings : TeamMap R) (listing : List MatchResult) : TeamMap R :=
  finalState applyMatch ratings listing

theorem ratingsAfter_concat (ratings : TeamMap R) (listing : List MatchResult) (m : MatchResult) :
    ratingsAfter ratings (listing ++ [m]) = (applyMatch (ratingsAfter ratings listing) m).1 :=
  finalState_concat ratings listing m

theorem foldl_replayMatch (listing : List MatchResult) (state : EloState R) :
    listing.foldl replayMatch state =
      ⟨ratingsAfter state.ratings listing,
        state.snapshots ++ outputs applyMatch state.ratings listing⟩ := by
  induction listing generalizing state with
  | nil => simp
  | cons m listing ih =>
      rw [List.foldl_cons, ih]
      simp [replayMatch]

theorem run_ratings (l : List MatchResult) :
    (run l : EloState R).ratings = ratingsAfter ∅ (chronological l) := by
  rw [run, foldl_replayMatch]
  rfl

theorem run_snapshots (l : List MatchResult) :
    (run l : EloState R).snapshots = outputs applyMatch ∅ (chronological l) := by
  rw [run, foldl_replayMatch]
  rfl

/-- Snapshots are taken match by match. -/
theorem map_matchId_outputs (ratings : TeamMap R) (listing : List MatchResult) :
    (outputs applyMatch ratings listing).map RatingSnapshot.matchId =
      listing.map MatchResult.matchId := by
  induction listing generalizing ratings with
  | nil => rfl
  | cons m listing ih =>
      rw [outputs_cons, List.map_cons, ih, List.map_cons, applyMatch_snapshot]

/-- A history without equal ids is replayed in one order, however it is listed. -/
theorem run_perm {l l' : List MatchResult} (hids : DistinctIds l) (hl : l'.Perm l) :
    (run l' : EloState R) = run l := by
  have hlisting : chronological l' = chronological l := by
    apply chronological_eq_of_sorted (hids.perm hl)
    · exact (chronological_perm l).trans hl.symm
    · exact chronological_sorted l
  rw [run, hlisting, run]

/-- Selecting matches does not change the order they are replayed in. -/
theorem chronological_filter (p : MatchResult → Bool) (l : List MatchResult) :
    chronological (l.filter p) = (chronological l).filter p :=
  (@filter_mergeSort _ kickoffLE (fun _ _ _ => kickoffLE_trans) kickoffLE_total p l).symm

/-! ## One match played -/

/-- One match between two teams leaves two ratings, and what one side won the
other has lost. -/
theorem run_singleton_ratings {m : MatchResult} (hteams : m.homeKey ≠ m.awayKey) :
    (run [m] : EloState R).ratings.toList.Perm
      [(m.homeKey, DEFAULT_RATING R + pointsWon ∅ m),
        (m.awayKey, DEFAULT_RATING R - pointsWon ∅ m)] := by
  have hstart : kickoffRatings (∅ : TeamMap R) m = (DEFAULT_RATING R, DEFAULT_RATING R) := by
    simp [kickoffRatings, seedRating_empty]
  have hnew : m.awayKey ∉ (∅ : TeamMap R).insert m.homeKey
      (DEFAULT_RATING R + pointsWon ∅ m) := by
    rw [mem_put]
    rintro (heq | hmem)
    · exact hteams heq
    · exact ExtTreeMap.not_mem_empty hmem
  rw [run_ratings, chronological_singleton, ratingsAfter, finalState_cons, finalState_nil,
    applyMatch_ratings, hstart]
  refine ((toList_put _ m.awayKey _).trans ?_).trans (List.Perm.swap _ _ _)
  rw [erase_absent hnew]
  exact (toList_put _ m.homeKey _).cons _

/-- A newcomer to a league with one match behind it: the mean is the default,
whatever the result was. -/
theorem seedRating_run_singleton [CharZero R] {m : MatchResult}
    (hteams : m.homeKey ≠ m.awayKey) :
    seedRating (run [m] : EloState R).ratings m.competitionId =
      DEFAULT_RATING R - PROMOTED_PENALTY R := by
  have hratings := run_singleton_ratings (R := R) hteams
  have hrated := (hratings.filter fun entry => entry.1.2 = m.competitionId).map Prod.snd
  have hall : ([(m.homeKey, DEFAULT_RATING R + pointsWon ∅ m),
      (m.awayKey, DEFAULT_RATING R - pointsWon ∅ m)].filter fun entry =>
        entry.1.2 = m.competitionId).map Prod.snd =
      [DEFAULT_RATING R + pointsWon ∅ m, DEFAULT_RATING R - pointsWon ∅ m] := by
    simp [MatchResult.homeKey, MatchResult.awayKey]
  rw [hall] at hrated
  have hlength := hrated.length_eq
  have hsum := hrated.sum_eq
  unfold seedRating
  rw [if_neg]
  · rw [hsum, hlength]
    simp only [List.sum_cons, List.sum_nil, List.length_cons, List.length_nil]
    push_cast
    ring
  · intro hempty
    rw [List.isEmpty_iff] at hempty
    rw [hempty] at hlength
    cases hlength

/-! ## The leagues taken apart -/

/-- The matches of one competition. -/
def inLeague (c : ℤ) (m : MatchResult) : Bool := decide (m.competitionId = c)

/-- The keys of one competition. -/
def ofLeague (c : ℤ) (key : TeamKey) : Bool := decide (key.2 = c)

theorem homeKey_ofLeague (m : MatchResult) : ofLeague m.competitionId m.homeKey = true :=
  decide_eq_true rfl

theorem awayKey_ofLeague (m : MatchResult) : ofLeague m.competitionId m.awayKey = true :=
  decide_eq_true rfl

/-- The ratings of one competition. -/
abbrev leagueOf (c : ℤ) (ratings : TeamMap R) : TeamMap R := part (ofLeague c) ratings

omit [PyMath R] in
/-- The seed looks at the ratings of its league only. -/
theorem seedRating_leagueOf (c : ℤ) (ratings : TeamMap R) :
    seedRating (leagueOf c ratings) c = seedRating ratings c := by
  have hrated : (leagueOf c ratings).toList.filter (fun e => decide (e.1.2 = c)) =
      ratings.toList.filter fun e => decide (e.1.2 = c) := by
    rw [leagueOf, toList_part, List.filter_filter]
    simp only [ofLeague, Bool.and_self]
  unfold seedRating
  rw [hrated]

omit [PyMath R] in
theorem kickoffRatings_leagueOf (ratings : TeamMap R) (m : MatchResult) :
    kickoffRatings (leagueOf m.competitionId ratings) m = kickoffRatings ratings m := by
  simp only [kickoffRatings]
  rw [seedRating_leagueOf, getD_part (homeKey_ofLeague m), getD_part (awayKey_ofLeague m)]

/-- A league's own match moves its ratings as it would move them alone. -/
theorem applyMatch_leagueOf (ratings : TeamMap R) (m : MatchResult) :
    leagueOf m.competitionId (applyMatch ratings m).1 =
      (applyMatch (leagueOf m.competitionId ratings) m).1 := by
  rw [applyMatch_ratings, applyMatch_ratings, leagueOf, part_put _ _ (awayKey_ofLeague m),
    part_put _ _ (homeKey_ofLeague m), pointsWon, pointsWon, kickoffRatings_leagueOf]

/-- A match of another competition leaves a league alone. -/
theorem applyMatch_leagueOf_other (ratings : TeamMap R) {m : MatchResult} {c : ℤ}
    (hother : m.competitionId ≠ c) :
    leagueOf c (applyMatch ratings m).1 = leagueOf c ratings := by
  have hhome : ofLeague c m.homeKey = false := decide_eq_false hother
  have haway : ofLeague c m.awayKey = false := decide_eq_false hother
  rw [applyMatch_ratings, leagueOf, part_put_outside _ _ haway, part_put_outside _ _ hhome]

theorem leagueOf_ratingsAfter (c : ℤ) (ratings : TeamMap R) (listing : List MatchResult) :
    leagueOf c (ratingsAfter ratings listing) =
      ratingsAfter (leagueOf c ratings) (listing.filter (inLeague c)) := by
  apply part_finalState
  · intro ratings m hm
    obtain rfl := of_decide_eq_true hm
    exact applyMatch_leagueOf ratings m
  · intro ratings m hm
    exact applyMatch_leagueOf_other ratings (of_decide_eq_false hm)

omit [Field R] [PyMath R] in
theorem leagueOf_empty (c : ℤ) : leagueOf c (∅ : TeamMap R) = ∅ := by
  refine ExtTreeMap.ext_getElem? fun key => ?_
  rw [getElem?_part]
  simp

/-- **A league is rated by its own matches.** -/
theorem run_leagueOf (l : List MatchResult) (c : ℤ) :
    leagueOf c (run l : EloState R).ratings = (run (l.filter (inLeague c))).ratings := by
  rw [run_ratings, run_ratings, leagueOf_ratingsAfter, leagueOf_empty, chronological_filter]

/-- A league's snapshots are those of its own replay. -/
theorem run_snapshots_inLeague (l : List MatchResult) (c : ℤ) :
    (((chronological l).zip (run l : EloState R).snapshots).filter
      fun e => inLeague c e.1).map Prod.snd = (run (l.filter (inLeague c))).snapshots := by
  rw [run_snapshots, run_snapshots, chronological_filter, ← leagueOf_empty c]
  have hempty : outputs applyMatch (leagueOf c (∅ : TeamMap R)) (chronological l) =
      outputs applyMatch ∅ (chronological l) := by
    rw [leagueOf_empty]
  rw [hempty]
  apply part_outputs
  · intro ratings m hm
    obtain rfl := of_decide_eq_true hm
    exact applyMatch_leagueOf ratings m
  · intro ratings m hm
    exact applyMatch_leagueOf_other ratings (of_decide_eq_false hm)
  · intro ratings m hm
    obtain rfl := of_decide_eq_true hm
    rw [applyMatch_snapshot, applyMatch_snapshot, kickoffRatings_leagueOf]

/-- **The replay splits by competition**: the ratings of a league are those of
its own replay, and so are the snapshots of its matches, in the same order. -/
theorem run_splits_by_competition (l : List MatchResult) (c : ℤ) :
    leagueOf c (run l : EloState R).ratings = (run (l.filter (inLeague c))).ratings ∧
      (((chronological l).zip (run l : EloState R).snapshots).filter
        fun e => inLeague c e.1).map Prod.snd = (run (l.filter (inLeague c))).snapshots ∧
      (run l : EloState R).snapshots.map RatingSnapshot.matchId =
        (chronological l).map MatchResult.matchId := by
  refine ⟨run_leagueOf l c, run_snapshots_inLeague l c, ?_⟩
  rw [run_snapshots, map_matchId_outputs]

end AGame.Engine.Elo
