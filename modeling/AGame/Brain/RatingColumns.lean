import AGame.Brain.Acceptance
import AGame.Brain.Corrections
import AGame.Engine.Drift

/-!
# The rating columns

`elo_home` and `elo_away` hold five digits before the point, and no statement of the
brain keeps a rating within them. What does is the engine: a rating is no further from
the default than the stakes of its team's matches and the seeds of its league allow
(`rating_columns_accept`).
-/

namespace AGame.Brain

open Std (ExtTreeMap)
open Base Engine Engine.Elo

/-- Two teams meet in every result a job trains on. -/
theorem history_teams_differ {db : Db} {c : ℤ} {before : Option Instant} {r : MatchResult}
    (hr : r ∈ fetchMatchHistory db c before) : r.homeKey ≠ r.awayKey := by
  obtain ⟨row, -, hresult⟩ := row_of_history hr
  unfold historyRow at hresult
  split at hresult
  · split_ifs at hresult
    rw [← Option.some.inj hresult]
    exact keys_ne row.match_teams_differ
  · cases hresult

theorem isRating_of_inRange {ratings : TeamMap ℝ} {l : List MatchResult} {key : TeamKey}
    {rating : ℝ} (h : InRange ratings l key rating)
    (hroom : PROMOTED_PENALTY ℝ * (1 + drift (ratedTeams key.2 ratings)) + staked key l ≤ 98499) :
    isRating (roundDecimal 2 rating) = true := by
  have hlow := h.low
  have hhigh := h.high
  have hpenalty := promotedPenalty_pos (R := ℝ)
  have hdrift := drift_nonneg (ratedTeams key.2 ratings)
  have hseed : 0 ≤ PROMOTED_PENALTY ℝ * (1 + drift (ratedTeams key.2 ratings)) := by positivity
  unfold DEFAULT_RATING at hlow hhigh
  refine isRating_roundDecimal (abs_le.mpr ⟨?_, ?_⟩)
  · linarith
  · linarith

/-- **The ratings a job stores stay in range**, and the columns take them as long as the
drift of the league and the stakes of the team leave room. -/
theorem rating_columns_accept (db : Db) (fixture : Match) (now : Instant) :
    let history := trainingSet db fixture
    let stored := numbers ℝ history now fixture
    let ratings : TeamMap ℝ := (run history).ratings
    let league := PROMOTED_PENALTY ℝ * (1 + drift (ratedTeams fixture.competitionId ratings))
    let home := staked (fixture.homeTeamId, fixture.competitionId) history
    let away := staked (fixture.awayTeamId, fixture.competitionId) history
    (DEFAULT_RATING ℝ - league - home ≤ stored.eloHome ∧
      stored.eloHome ≤ DEFAULT_RATING ℝ + home) ∧
    (DEFAULT_RATING ℝ - league - away ≤ stored.eloAway ∧
      stored.eloAway ≤ DEFAULT_RATING ℝ + away) ∧
    (league + home ≤ 98499 → isRating (roundDecimal 2 stored.eloHome) = true) ∧
    (league + away ≤ 98499 → isRating (roundDecimal 2 stored.eloAway) = true) := by
  intro history stored ratings league home away
  have hteams : ∀ r ∈ history, r.homeKey ≠ r.awayKey := fun r hr => history_teams_differ hr
  have hhome := run_inRange hteams (fixture.homeTeamId, fixture.competitionId)
  have haway := run_inRange hteams (fixture.awayTeamId, fixture.competitionId)
  refine ⟨⟨hhome.low, hhome.high⟩, ⟨haway.low, haway.high⟩, ?_, ?_⟩
  · intro hroom
    exact isRating_of_inRange hhome hroom
  · intro hroom
    exact isRating_of_inRange haway hroom

/-- After one match of the new league its winner has staked twenty points, and the column
takes its rating. -/
theorem winner_rating_accepted : isRating (roundDecimal 2 (numbers ℝ
    (trainingSet (withResult newLeague 1 newFixture.utcDate oneGoal noGoals) newFixture) 0
    newFixture).eloHome) = true := by
  have hpast : pastResults newLeague newFixture = [] := by decide +kernel
  have hperm := trainingSet_withResult oneGoal noGoals fetch_newFixture
  rw [hpast, List.nil_append, List.perm_singleton] at hperm
  have hteams : (resultOf newFixture oneGoal noGoals).homeKey ≠
      (resultOf newFixture oneGoal noGoals).awayKey := by decide
  have hstake : stake (resultOf newFixture oneGoal noGoals) = 20 := by
    rw [stake, marginMultiplier_eq, K_FACTOR]
    norm_num [margin, resultOf]
  have hstaked : staked (newFixture.homeTeamId, newFixture.competitionId)
      [resultOf newFixture oneGoal noGoals] = 20 := by
    rw [staked, List.filter_cons_of_pos (by decide), ← hstake]
    simp
  have htwo : ratedTeams newFixture.competitionId
      (run [resultOf newFixture oneGoal noGoals] : EloState ℝ).ratings ≤ 2 := by
    have hcount := ratedTeams_applyMatch (∅ : TeamMap ℝ) hteams
    have hnew := (List.length_filter_le (fun key => decide (key ∉ (∅ : TeamMap ℝ)))
      [(resultOf newFixture oneGoal noGoals).homeKey,
        (resultOf newFixture oneGoal noGoals).awayKey])
    rw [ratedTeams_empty, Nat.add_zero] at hcount
    rw [run_ratings, chronological_singleton]
    exact hcount.trans_le hnew
  have hdrift : drift 2 = 0 := by simp [drift]
  refine (rating_columns_accept _ newFixture 0).2.2.1 ?_
  show PROMOTED_PENALTY ℝ * (1 + drift (ratedTeams newFixture.competitionId (run
    (fetchMatchHistory _ newFixture.competitionId none) : EloState ℝ).ratings)) +
      staked _ (fetchMatchHistory _ newFixture.competitionId none) ≤ 98499
  rw [hperm, hstaked, PROMOTED_PENALTY]
  linarith [drift_mono htwo]

end AGame.Brain
