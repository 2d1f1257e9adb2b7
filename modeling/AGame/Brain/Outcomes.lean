import AGame.Brain.Acceptance
import AGame.Brain.Resilience
import AGame.Engine.Divisions

/-!
# What the engine can say about a fixture

Whatever the history, the engine reaches numbers that `a_game.prediction` takes
(`prediction_meets_checks`). They leave every outcome open exactly when both
sides of the pitch have scored somewhere in the history
(`outcomes_open_iff`): before that a lambda is zero, and a side that cannot
score cannot win.
-/

namespace AGame.Brain

open Base Engine Engine.Elo Engine.Poisson

/-! ## Insertable -/

/-- Every `CHECK` of `a_game.prediction`. The widths of its `NUMERIC` columns are
no `CHECK`s. -/
structure MeetsChecks (v : PredictionValues) : Prop where
  prob_home : isProbability v.probHome = true
  prob_draw : isProbability v.probDraw = true
  prob_away : isProbability v.probAway = true
  over_2_5 : isProbability v.over25 = true
  btts : isProbability v.btts = true
  lambda_home : 0 ≤ v.lambdaHome
  lambda_away : 0 ≤ v.lambdaAway
  prediction_1x2_sums_to_one : |v.probHome + v.probDraw + v.probAway - 10000| ≤ 5

theorem meetsChecks_of_isDistribution {p : ScoreProbabilities ℝ} (hp : IsDistribution p)
    (hhome : 0 ≤ p.lambdaHome) (haway : 0 ≤ p.lambdaAway) (eloHome eloAway : ℝ) :
    MeetsChecks (predictionValues p eloHome eloAway) := by
  have hsum := hp.sums_to_one
  have h1 := hp.home
  have h2 := hp.draw
  have h3 := hp.away
  exact {
    prob_home := isProbability_roundDecimal h1 (by linarith)
    prob_draw := isProbability_roundDecimal h2 (by linarith)
    prob_away := isProbability_roundDecimal h3 (by linarith)
    over_2_5 := isProbability_roundDecimal hp.over25.1 hp.over25.2
    btts := isProbability_roundDecimal hp.btts.1 hp.btts.2
    lambda_home := roundDecimal_nonneg hhome
    lambda_away := roundDecimal_nonneg haway
    prediction_1x2_sums_to_one := (rounded_outcomes_sum hsum).trans (by norm_num) }

/-- What is left to ask of a row that meets the checks is that it fits its columns. -/
theorem fits_iff_of_meetsChecks {v : PredictionValues} (h : MeetsChecks v) :
    v.fits = true ↔ v.lambdaHome < 10 ^ 6 ∧ v.lambdaAway < 10 ^ 6 ∧
      |v.eloHome| < 10 ^ 7 ∧ |v.eloAway| < 10 ^ 7 := by
  have hlambdas := And.intro h.lambda_home h.lambda_away
  simp only [PredictionValues.fits, Bool.and_eq_true, h.prob_home, h.prob_draw, h.prob_away,
    h.over_2_5, h.btts, isRate, isRating, decide_eq_true_eq, h.prediction_1x2_sums_to_one]
  tauto

/-- **Every prediction the engine produces is insertable.** From any history of
finished matches, at any anchor and for any two teams, no division by zero
stops the engine, the lambdas are not negative and the row passes every check,
so that only the width of its columns can keep it out of the table. -/
theorem prediction_meets_checks (history : List MatchResult) (hgoals : GoalsNonneg history)
    (asOf : Instant) (homeTeamId awayTeamId competitionId : ℤ) (eloHome eloAway : ℝ) :
    let lambdas :=
      expectedGoals (fit history asOf : Strengths ℝ) homeTeamId awayTeamId competitionId
    let probabilities := scoreProbabilities lambdas.1 lambdas.2
    let row := predictionValues probabilities eloHome eloAway
    pyPredict history asOf homeTeamId awayTeamId competitionId = .ok probabilities ∧
      0 ≤ lambdas.1 ∧ 0 ≤ lambdas.2 ∧ MeetsChecks row ∧
      (row.fits = true ↔ row.lambdaHome < 10 ^ 6 ∧ row.lambdaAway < 10 ^ 6 ∧
        |row.eloHome| < 10 ^ 7 ∧ |row.eloAway| < 10 ^ 7) := by
  intro lambdas probabilities row
  obtain ⟨hhome, haway⟩ := expectedGoals_nonneg hgoals asOf homeTeamId awayTeamId competitionId
  have hchecks : MeetsChecks row :=
    meetsChecks_of_isDistribution (isDistribution_of_rates hhome haway) hhome haway _ _
  exact ⟨predict_ok hgoals asOf homeTeamId awayTeamId competitionId, hhome, haway, hchecks,
    fits_iff_of_meetsChecks hchecks⟩

/-- Two teams that have met twice: two to one, and nil to three. -/
theorem return_match_meets_checks :
    ∃ p : ScoreProbabilities ℝ,
      pyPredict [⟨1, 2021, 0, 1, 2, 2, 1⟩, ⟨2, 2021, 86400000000, 2, 1, 0, 3⟩]
        172800000000 1 2 2021 = .ok p ∧
      MeetsChecks (predictionValues p 1516.5 1483.5) := by
  obtain ⟨hok, -, -, hchecks, -⟩ := prediction_meets_checks
    [⟨1, 2021, 0, 1, 2, 2, 1⟩, ⟨2, 2021, 86400000000, 2, 1, 0, 3⟩]
    (by unfold GoalsNonneg; decide) 172800000000 1 2 2021 1516.5 1483.5
  exact ⟨_, hok, hchecks⟩

/-! ## Open outcomes -/

/-- No outcome is impossible or certain. -/
def Open (p : ScoreProbabilities ℝ) : Prop :=
  (0 < p.probHome ∧ p.probHome < 1) ∧ (0 < p.probDraw ∧ p.probDraw < 1) ∧
    (0 < p.probAway ∧ p.probAway < 1)

theorem open_iff {a b : ℝ} (ha : 0 ≤ a) (hb : 0 ≤ b) :
    Open (scoreProbabilities a b) ↔ 0 < a ∧ 0 < b := by
  have hdraw := probDraw_pos ha hb
  have hsum := (isDistribution_of_rates ha hb).sums_to_one
  rw [← probHome_pos_iff ha hb, ← probAway_pos_iff ha hb]
  constructor
  · rintro ⟨⟨hhome, -⟩, -, haway, -⟩
    exact ⟨hhome, haway⟩
  · rintro ⟨hhome, haway⟩
    refine ⟨⟨hhome, ?_⟩, ⟨hdraw, ?_⟩, haway, ?_⟩
    · linarith
    · linarith
    · linarith

/-- **The engine leaves every outcome open exactly when both sides of the pitch
have scored.** One home goal and one away goal anywhere in the history are
enough, and nothing else is. -/
theorem outcomes_open_iff (history : List MatchResult) (hgoals : GoalsNonneg history)
    (now : Instant) (m : Match) :
    Open (numbers ℝ history now m).probabilities ↔
      (∃ r ∈ history, 0 < r.homeGoals) ∧ ∃ r ∈ history, 0 < r.awayGoals := by
  have hhome : ∀ r ∈ history, 0 ≤ r.homeGoals := fun r hr => (hgoals r hr).1
  have haway : ∀ r ∈ history, 0 ≤ r.awayGoals := fun r hr => (hgoals r hr).2
  obtain ⟨a, ha, b, hb, hlambdas⟩ :=
    expectedGoals_fit hgoals now m.homeTeamId m.awayTeamId m.competitionId
  have hprobabilities : (numbers ℝ history now m).probabilities =
      scoreProbabilities (decayedMean MatchResult.homeGoals history now * a)
        (decayedMean MatchResult.awayGoals history now * b) := by
    simp only [numbers, hlambdas]
  rw [hprobabilities, open_iff (mul_nonneg (decayedMean_nonneg hhome now) ha.le)
    (mul_nonneg (decayedMean_nonneg haway now) hb.le), mul_pos_iff_of_pos_right ha,
    mul_pos_iff_of_pos_right hb, decayedMean_pos_iff hhome, decayedMean_pos_iff haway]

/-- One match in which both sides scored opens a fixture of two other teams. -/
theorem one_open_match :
    Open (numbers ℝ [⟨1, 2021, 0, 1, 2, 2, 1⟩] 0 newFixture).probabilities := by
  have hiff := outcomes_open_iff [⟨1, 2021, 0, 1, 2, 2, 1⟩] (by unfold GoalsNonneg; decide) 0
    newFixture
  exact hiff.mpr (by decide)

/-- **Day one of a new competition is a certain draw**: neither side has a rate,
so all the mass is on the goalless score. -/
theorem day_one_is_a_certain_draw :
    GoalsNonneg [] ∧ (numbers ℝ [] 0 newFixture).probabilities.probHome = 0 ∧
      (numbers ℝ [] 0 newFixture).probabilities.probDraw = 1 ∧
      (numbers ℝ [] 0 newFixture).probabilities.probAway = 0 ∧
      ¬ Open (numbers ℝ [] 0 newFixture).probabilities := by
  have hdistribution := isDistribution_of_rates (le_refl (0 : ℝ)) (le_refl (0 : ℝ))
  have hhome : (scoreProbabilities (0 : ℝ) 0).probHome = 0 := by
    apply le_antisymm _ hdistribution.home
    rw [← not_lt, probHome_pos_iff le_rfl le_rfl]
    exact lt_irrefl 0
  have haway : (scoreProbabilities (0 : ℝ) 0).probAway = 0 := by
    apply le_antisymm _ hdistribution.away
    rw [← not_lt, probAway_pos_iff le_rfl le_rfl]
    exact lt_irrefl 0
  have hdraw : (scoreProbabilities (0 : ℝ) 0).probDraw = 1 := by
    have hsum := hdistribution.sums_to_one
    linarith
  rw [numbers_nil]
  refine ⟨List.forall_mem_nil _, hhome, hdraw, haway, ?_⟩
  rw [open_iff le_rfl le_rfl]
  exact fun hpos => lt_irrefl 0 hpos.1

end AGame.Brain
