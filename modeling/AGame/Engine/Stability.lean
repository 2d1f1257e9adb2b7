import AGame.Base.Closeness
import AGame.Engine.Kickoff
import AGame.Engine.Update

/-!
# What one result can do to later ratings

The expectation is a logistic curve whose slope, times the most a match can be worth,
stays below one (`swing_le_one`): a side with more points going into a match never
leaves it with fewer. Together with the seeds, which are means, a match never
drives two rating maps further apart (`applyMatch_above`), so a result that is
corrected moves every later rating by no more than it moved the points it exchanged
(`run_corrected`).
-/

namespace AGame.Engine.Elo

open Std (ExtTreeMap)
open Base

/-! ## The slope of the expectation -/

theorem expectedScore_eq_sigmoid (ratingHome ratingAway : ℝ) :
    (expectedScore ratingHome ratingAway : ℝ) =
      Real.sigmoid ((ratingHome + HOME_ADVANTAGE ℝ - ratingAway) * (Real.log 10 / 400)) := by
  rw [expectedScore_eq, Real.sigmoid_def, one_div, Real.rpow_def_of_pos (by norm_num)]
  congr 3
  ring

theorem deriv_sigmoid_le (x : ℝ) : deriv Real.sigmoid x ≤ 1 / 4 := by
  rw [Real.deriv_sigmoid]
  nlinarith [sq_nonneg (Real.sigmoid x - 1 / 2)]

/-- A logistic curve is nowhere steeper than in its middle. -/
theorem sigmoid_sub_le {x y : ℝ} (hxy : x ≤ y) :
    Real.sigmoid y - Real.sigmoid x ≤ 1 / 4 * (y - x) :=
  image_sub_le_mul_sub_of_deriv_le differentiable_sigmoid deriv_sigmoid_le hxy

/-- What a point more of a lead is worth to the expectation, at most. -/
theorem expectedScore_sub_le {ratingHome ratingAway ratingHome' ratingAway' : ℝ}
    (hlead : ratingHome - ratingAway ≤ ratingHome' - ratingAway') :
    (expectedScore ratingHome' ratingAway' : ℝ) - expectedScore ratingHome ratingAway ≤
      Real.log 10 / 1600 * (ratingHome' - ratingAway' - (ratingHome - ratingAway)) := by
  have hlog : 0 ≤ Real.log 10 / 400 := by positivity
  have hle : (ratingHome + HOME_ADVANTAGE ℝ - ratingAway) * (Real.log 10 / 400) ≤
      (ratingHome' + HOME_ADVANTAGE ℝ - ratingAway') * (Real.log 10 / 400) :=
    mul_le_mul_of_nonneg_right (by linarith) hlog
  have hsub := sigmoid_sub_le hle
  rw [expectedScore_eq_sigmoid, expectedScore_eq_sigmoid]
  linarith

theorem expectedScore_mono {ratingHome ratingAway ratingHome' ratingAway' : ℝ}
    (hlead : ratingHome - ratingAway ≤ ratingHome' - ratingAway') :
    (expectedScore ratingHome ratingAway : ℝ) ≤ expectedScore ratingHome' ratingAway' := by
  rw [← not_lt, expectedScore_lt_iff, not_lt]
  exact hlead

/-! ## What a match can be worth -/

/-- The goals are those a `SMALLINT CHECK (… >= 0)` column can hold. -/
def StoredGoals (m : MatchResult) : Prop :=
  0 ≤ m.homeGoals ∧ m.homeGoals ≤ 32767 ∧ 0 ≤ m.awayGoals ∧ m.awayGoals ≤ 32767

theorem marginMultiplier_le {m : MatchResult} (hgoals : StoredGoals m) :
    (marginMultiplier m : ℝ) ≤ 15 := by
  obtain ⟨hhome, hhome', haway, haway'⟩ := hgoals
  have hmargin : margin m ≤ 32767 := abs_le.mpr ⟨by omega, by omega⟩
  have hle : max (margin m) 1 + 1 ≤ 32768 := by omega
  have hone : 0 < max (margin m) 1 + 1 := by omega
  rw [marginMultiplier_eq, Real.logb_le_iff_le_rpow one_lt_two (by exact_mod_cast hone)]
  norm_num
  exact_mod_cast hle

/-- A point more going into a match costs less than a point of what the match is worth. -/
theorem swing_le_one {m : MatchResult} (hgoals : StoredGoals m) :
    K_FACTOR ℝ * marginMultiplier m * (Real.log 10 / 1600) ≤ 1 := by
  have hten : Real.log 10 ≤ 4 * Real.log 2 := by
    have hsixteen : Real.log 16 = 4 * Real.log 2 := by
      rw [show (16 : ℝ) = 2 ^ 4 by norm_num, Real.log_pow]
      norm_num
    rw [← hsixteen]
    exact Real.log_le_log (by norm_num) (by norm_num)
  have hpos : 0 ≤ Real.log 10 := Real.log_nonneg (by norm_num)
  have htwo := Real.log_two_lt_d9
  have hmultiplier := marginMultiplier_le hgoals
  unfold K_FACTOR
  nlinarith

/-! ## One match -/

section

variable {m : MatchResult} {ε ratingHome ratingAway ratingHome' ratingAway' : ℝ}

/-- The host leaves a match with no more than `ε` above what it would have left with. -/
theorem home_above (hgoals : StoredGoals m) (hhome : ratingHome ≤ ratingHome' + ε)
    (haway : ratingAway ≤ ratingAway' + ε) :
    ratingHome + ratingChange ratingHome ratingAway m ≤
      ratingHome' + ratingChange ratingHome' ratingAway' m + ε := by
  have hstake := stake_pos m
  have hswing := swing_le_one hgoals
  unfold ratingChange
  rcases le_total (ratingHome - ratingAway) (ratingHome' - ratingAway') with hlead | hlead
  · -- the smaller lead is expected to win less, but by no more than it is smaller
    have hsub := mul_le_mul_of_nonneg_left (expectedScore_sub_le hlead) hstake.le
    have hbound := mul_le_mul_of_nonneg_right hswing (sub_nonneg.mpr hlead)
    linarith
  · have hmono := mul_le_mul_of_nonneg_left (expectedScore_mono hlead) hstake.le
    linarith

theorem away_above (hgoals : StoredGoals m) (hhome : ratingHome ≤ ratingHome' + ε)
    (haway : ratingAway ≤ ratingAway' + ε) :
    ratingAway - ratingChange ratingHome ratingAway m ≤
      ratingAway' - ratingChange ratingHome' ratingAway' m + ε := by
  have hstake := stake_pos m
  have hswing := swing_le_one hgoals
  unfold ratingChange
  rcases le_total (ratingHome - ratingAway) (ratingHome' - ratingAway') with hlead | hlead
  · have hmono := mul_le_mul_of_nonneg_left (expectedScore_mono hlead) hstake.le
    linarith
  · have hsub := mul_le_mul_of_nonneg_left (expectedScore_sub_le hlead) hstake.le
    have hbound := mul_le_mul_of_nonneg_right hswing (sub_nonneg.mpr hlead)
    linarith

end

/-! ## Whole replays -/

section

variable {ratings ratings' : TeamMap ℝ} {ε : ℝ}

/-- A league's seed is a mean, or the same default. -/
theorem seedRating_above (hε : 0 ≤ ε) (h : Above ε ratings ratings') (c : ℤ) :
    seedRating ratings c ≤ seedRating ratings' c + ε := by
  have hleague : Above ε (leagueOf c ratings) (leagueOf c ratings') := h.inPart (ofLeague c)
  have hteams : ratedTeams c ratings = ratedTeams c ratings' := hleague.size_eq
  rw [seedRating_eq, seedRating_eq, hteams]
  split_ifs with hnone
  · linarith
  · have hmean := hleague.mean hnone
    change leagueAverage c ratings ≤ leagueAverage c ratings' + ε at hmean
    linarith

theorem kickoffRatings_above (hε : 0 ≤ ε) (h : Above ε ratings ratings') (m : MatchResult) :
    (kickoffRatings ratings m).1 ≤ (kickoffRatings ratings' m).1 + ε ∧
      (kickoffRatings ratings m).2 ≤ (kickoffRatings ratings' m).2 + ε := by
  have hseed := seedRating_above hε h m.competitionId
  exact ⟨h.getD hseed m.homeKey, h.getD hseed m.awayKey⟩

/-- **A match never drives two rating maps apart.** -/
theorem applyMatch_above (hε : 0 ≤ ε) (h : Above ε ratings ratings') {m : MatchResult}
    (hgoals : StoredGoals m) : Above ε (applyMatch ratings m).1 (applyMatch ratings' m).1 := by
  obtain ⟨hhome, haway⟩ := kickoffRatings_above hε h m
  rw [applyMatch_ratings, applyMatch_ratings]
  exact (h.put (home_above hgoals hhome haway)).put (away_above hgoals hhome haway)

theorem ratingsAfter_above (hε : 0 ≤ ε) (h : Above ε ratings ratings')
    {listing : List MatchResult} (hgoals : ∀ m ∈ listing, StoredGoals m) :
    Above ε (ratingsAfter ratings listing) (ratingsAfter ratings' listing) :=
  h.replay fun _ _ h m hm => applyMatch_above hε h (hgoals m hm)

end

/-! ## A corrected result -/

section

variable (m : MatchResult) (homeGoals awayGoals : ℤ)

/-- Two results of one match leave ratings as far apart as the points they move. -/
theorem applyMatch_corrected (ratings : TeamMap ℝ) {ε : ℝ}
    (hε : |pointsWon ratings { m with homeGoals, awayGoals } - pointsWon ratings m| ≤ ε) :
    Above ε (applyMatch ratings { m with homeGoals, awayGoals }).1 (applyMatch ratings m).1 := by
  obtain ⟨hlow, hhigh⟩ := abs_le.mp hε
  have hsame : kickoffRatings ratings { m with homeGoals, awayGoals } = kickoffRatings ratings m :=
    rfl
  have hstart : Above ε ratings ratings := (Above.refl ratings).mono ((abs_nonneg _).trans hε)
  rw [applyMatch_ratings, applyMatch_ratings, hsame]
  refine (hstart.put ?_).put ?_
  · linarith
  · linarith

/-- A result keeps its place in the replay when it is corrected. -/
theorem chronological_corrected {m homeGoals awayGoals} {l l' rest before after : List MatchResult}
    (hids : DistinctIds l) (hl : l.Perm (m :: rest))
    (hl' : l'.Perm ({ m with homeGoals, awayGoals } :: rest))
    (hsplit : chronological l = before ++ m :: after) :
    chronological l' = before ++ { m with homeGoals, awayGoals } :: after := by
  have hrest : rest.Perm (before ++ after) := by
    have hperm := (chronological_perm l).trans hl
    rw [hsplit] at hperm
    exact (List.Perm.cons_inv (List.perm_middle.symm.trans hperm)).symm
  have hsorted := chronological_sorted l
  rw [hsplit, List.pairwise_append, List.pairwise_cons] at hsorted
  obtain ⟨hbefore, ⟨hlater, hafter⟩, hcross⟩ := hsorted
  refine chronological_eq_of_sorted ?_ ?_ ?_
  · have hids' := hids.perm hl.symm
    exact DistinctIds.perm (l := { m with homeGoals, awayGoals } :: rest) hids' hl'
  · exact (List.perm_middle.trans (hrest.symm.cons _)).trans hl'.symm
  · rw [List.pairwise_append, List.pairwise_cons]
    -- the order is by kickoff, which is as it was
    refine ⟨hbefore, ⟨fun x hx => hlater x hx, hafter⟩, ?_⟩
    intro x hx y hy
    rcases List.mem_cons.mp hy with rfl | hy
    · exact hcross x hx m List.mem_cons_self
    · exact hcross x hx y (List.mem_cons_of_mem _ hy)

/-- **A correction never grows.** Two histories that differ in one result leave every
rating as close as the points that result moved. -/
theorem run_corrected {m homeGoals awayGoals} {l l' rest : List MatchResult} {ε : ℝ}
    (hids : DistinctIds l) (hl : l.Perm (m :: rest))
    (hl' : l'.Perm ({ m with homeGoals, awayGoals } :: rest))
    (hgoals : ∀ x ∈ rest, StoredGoals x)
    (hε : |pointsWon (run (earlier l m)).ratings { m with homeGoals, awayGoals } -
      pointsWon (run (earlier l m) : EloState ℝ).ratings m| ≤ ε) :
    Above ε (run l' : EloState ℝ).ratings (run l).ratings ∧
      Above ε (run l : EloState ℝ).ratings (run l').ratings := by
  obtain ⟨before, after, hsplit⟩ := List.append_of_mem
    ((chronological_perm l).mem_iff.mpr (hl.mem_iff.mpr List.mem_cons_self))
  have hrest : ∀ x ∈ after, StoredGoals x := by
    intro x hx
    have hperm := (chronological_perm l).trans hl
    rw [hsplit] at hperm
    have hmem := (List.perm_middle.symm.trans hperm).cons_inv.mem_iff.mp
      (List.mem_append_right before hx)
    exact hgoals x hmem
  have hpos : 0 ≤ ε := (abs_nonneg _).trans hε
  rw [run_ratings, chronological_earlier hids hsplit] at hε
  rw [run_ratings, run_ratings, hsplit, chronological_corrected hids hl hl' hsplit, ratingsAfter,
    ratingsAfter, finalState_append, finalState_append, finalState_cons, finalState_cons]
  have hback := applyMatch_corrected { m with homeGoals, awayGoals } m.homeGoals m.awayGoals
    (ratingsAfter (∅ : TeamMap ℝ) before) ((abs_sub_comm _ _).trans_le hε)
  exact ⟨ratingsAfter_above hpos (applyMatch_corrected m homeGoals awayGoals _ hε) hrest,
    ratingsAfter_above hpos hback hrest⟩

end

end AGame.Engine.Elo
