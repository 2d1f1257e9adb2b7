import AGame.Brain.Resilience
import AGame.Engine.Drift
import AGame.Engine.Shares
import AGame.Engine.Shrinkage

/-!
# A league with one match

After one match every ratio of goals to what was expected is one, so the rates of any
fixture are the goals of that match (`expectedGoals_singleton`); either side has moved by
less than its stake. A row of such a league is accepted, and one home goal is enough for
other probabilities than those of a league without a match.
-/

namespace AGame.Brain

open Std (ExtTreeMap)
open Base Engine Engine.Elo Engine.Poisson

/-! ## The rates -/

theorem weighted_singleton (r : MatchResult) (asOf : Instant) :
    (weighted [r] asOf : List (ℝ × MatchResult)) = [(weight r.utcDate asOf, r)] := rfl

theorem decayedMean_singleton (count : MatchResult → ℤ) (r : MatchResult) (asOf : Instant) :
    decayedMean count [r] asOf = (count r : ℝ) := by
  have hweight := weight_pos r.utcDate asOf
  rw [decayedMean, weighted_singleton, weightedMean]
  simp only [List.map_cons, List.map_nil, List.sum_singleton]
  exact mul_div_cancel_left₀ _ hweight.ne'

theorem shrink_self (x sample : ℝ) : shrink x x sample = 1 := by
  by_cases hnothing : x ≤ 0 ∨ sample ≤ 0
  · exact shrink_eq_one hnothing x
  · rw [not_or, not_le, not_le] at hnothing
    rw [shrink_eq_pull hnothing.1 hnothing.2, div_self hnothing.1.ne', pull, sub_self, mul_zero,
      add_zero]

/-- The goals that are counted are those of the match. -/
theorem tally_singleton (home away : MatchResult → ℝ) (r : MatchResult) (asOf : Instant) :
    (weighted [r] asOf).foldl (tally home away) ∅ =
      (weighted [r] asOf).foldl (tally (fun _ => home r) fun _ => away r) ∅ := by
  simp only [weighted_singleton, List.foldl_cons, List.foldl_nil, tally]

/-- As many goals as the league expects are a strength of one. -/
theorem strengths_singleton (r : MatchResult) (asOf : Instant) (key : TeamKey) :
    (fit [r] asOf : Strengths ℝ).attack.getD key 1 = 1 ∧
      (fit [r] asOf : Strengths ℝ).defence.getD key 1 = 1 := by
  rw [ExtTreeMap.getD_eq_getD_getElem?, ExtTreeMap.getD_eq_getD_getElem?]
  by_cases hkey : Played [r] key
  · have hscored := tally_singleton (fun m => (m.homeGoals : ℝ)) (fun m => (m.awayGoals : ℝ)) r asOf
    have hconceded :=
      tally_singleton (fun m => (m.awayGoals : ℝ)) (fun m => (m.homeGoals : ℝ)) r asOf
    rw [attack_of_played hkey, defence_of_played hkey, fitTotals_eq]
    simp only [decayedMean_singleton, Option.getD_some, hscored, hconceded]
    exact ⟨shrink_self _ _, shrink_self _ _⟩
  · rw [(strengths_absent hkey asOf).1, (strengths_absent hkey asOf).2]
    exact ⟨rfl, rfl⟩

/-- **One match sets the rates of every fixture.** -/
theorem expectedGoals_singleton (r : MatchResult) (asOf : Instant) (home away c : ℤ) :
    expectedGoals (fit [r] asOf : Strengths ℝ) home away c =
      ((r.homeGoals : ℝ), (r.awayGoals : ℝ)) := by
  have hhome : (fit [r] asOf : Strengths ℝ).leagueHome = r.homeGoals := by
    rw [fit_eq]
    exact decayedMean_singleton MatchResult.homeGoals r asOf
  have haway : (fit [r] asOf : Strengths ℝ).leagueAway = r.awayGoals := by
    rw [fit_eq]
    exact decayedMean_singleton MatchResult.awayGoals r asOf
  simp only [expectedGoals, strengths_singleton, hhome, haway, mul_one]

/-! ## The ratings -/

/-- A team of the league has moved by no more than the stake of the match, or is a newcomer. -/
theorem abs_rating_singleton {r : MatchResult} (hteams : r.homeKey ≠ r.awayKey) (team : ℤ) :
    |(run [r] : EloState ℝ).ratings.getD (team, r.competitionId)
        (seedRating (run [r] : EloState ℝ).ratings r.competitionId)| ≤ 1500 + stake r := by
  have hstake : 0 ≤ stake r := (stake_pos r).le
  have hmoved := abs_pointsWon_le ∅ r
  have hstart : DEFAULT_RATING ℝ = 1500 := by norm_num [DEFAULT_RATING]
  have hpenalty : PROMOTED_PENALTY ℝ = 50 := by norm_num [PROMOTED_PENALTY]
  rw [abs_le] at hmoved
  rw [ExtTreeMap.getD_eq_getD_getElem?, abs_le]
  cases hrated : (run [r] : EloState ℝ).ratings[(team, r.competitionId)]? with
  | none =>
      rw [Option.getD_none, seedRating_run_singleton hteams, hstart, hpenalty]
      constructor
      · linarith
      · linarith
  | some rating =>
      have hlisted := (run_singleton_ratings (R := ℝ) hteams).subset
        (ExtTreeMap.mem_toList_iff_getElem?_eq_some.mpr hrated)
      rw [List.mem_pair, Prod.mk.injEq, Prod.mk.injEq, hstart] at hlisted
      rw [Option.getD_some]
      rcases hlisted with ⟨-, rfl⟩ | ⟨-, rfl⟩
      · constructor
        · linarith
        · linarith
      · constructor
        · linarith
        · linarith

/-! ## The row -/

/-- The match ended one to nil. -/
structure OneNil (r : MatchResult) : Prop where
  teams : r.homeKey ≠ r.awayKey
  homeGoals : r.homeGoals = 1
  awayGoals : r.awayGoals = 0

theorem OneNil.stake {r : MatchResult} (h : OneNil r) : Elo.stake r = 20 := by
  rw [Elo.stake, marginMultiplier_eq, margin, h.homeGoals, h.awayGoals]
  norm_num [K_FACTOR]

variable {r : MatchResult} {m : Match}

theorem OneNil.probabilities (h : OneNil r) (now : Instant) (m : Match) :
    (numbers ℝ [r] now m).probabilities = scoreProbabilities 1 0 := by
  simp only [numbers, expectedGoals_singleton, h.homeGoals, h.awayGoals, Int.cast_one,
    Int.cast_zero]

/-- Postgres takes the row of a fixture of the league. -/
theorem OneNil.engineRow_fits (h : OneNil r) (hleague : r.competitionId = m.competitionId)
    (now : Instant) : (engineRow ℝ [r] now m).fits = true := by
  have hrated : ∀ team, |(run [r] : EloState ℝ).ratings.getD (team, m.competitionId)
      (seedRating (run [r] : EloState ℝ).ratings m.competitionId)| ≤ 99999 := by
    intro team
    rw [← hleague]
    refine (abs_rating_singleton h.teams team).trans ?_
    rw [h.stake]
    norm_num
  show (predictionValues (numbers ℝ [r] now m).probabilities _ _).fits = true
  rw [h.probabilities]
  refine predictionValues_fits (isDistribution_of_rates zero_le_one le_rfl) ?_ ?_ (hrated _)
    (hrated _)
  · exact ⟨zero_le_one, by norm_num [scoreProbabilities]⟩
  · exact ⟨le_rfl, by norm_num [scoreProbabilities]⟩

theorem roundDecimal_probDraw (a b : ℚ) :
    roundDecimal 4 (scoreProbabilities (a : ℝ) (b : ℝ)).probDraw =
      roundDecimal 4 (share isDraw a b) := by
  rw [(scoreProbabilities_share _ _).2.1, share_ratCast, roundDecimal_ratCast]

theorem roundDecimal_probDraw_zero :
    roundDecimal 4 (scoreProbabilities (0 : ℝ) 0).probDraw = 10000 := by
  have hdraw := roundDecimal_probDraw 0 0
  push_cast at hdraw
  rw [hdraw]
  decide +kernel

theorem roundDecimal_probDraw_one :
    roundDecimal 4 (scoreProbabilities (1 : ℝ) 0).probDraw = 3679 := by
  have hdraw := roundDecimal_probDraw 1 0
  push_cast at hdraw
  rw [hdraw]
  decide +kernel

/-- Without a match a draw is certain, after one goal it is not. -/
theorem OneNil.probDraw_ne (h : OneNil r) (now now' : Instant) (m m' : Match) :
    (engineRow ℝ [] now m).probDraw ≠ (engineRow ℝ [r] now' m').probDraw := by
  show roundDecimal 4 (numbers ℝ [] now m).probabilities.probDraw ≠
    roundDecimal 4 (numbers ℝ [r] now' m').probabilities.probDraw
  rw [numbers_nil, h.probabilities, roundDecimal_probDraw_zero, roundDecimal_probDraw_one]
  decide

end AGame.Brain
