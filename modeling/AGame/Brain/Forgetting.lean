import AGame.Brain.Corrections
import AGame.Engine.Forgetting

/-!
# A league that stops playing

The numbers a job computes depend on the clock. As long as no result is added to the
league they all go to the same place: whoever meets, the fixture's rates come to the league
rates and its row to the row of two average sides.
-/

namespace AGame.Brain

open Filter Topology
open Base Engine Engine.Elo Engine.Poisson

/-- The goals a job trains on are counts. -/
theorem history_goalsNonneg (db : Db) (c : ℤ) (before : Option Instant) :
    GoalsNonneg (fetchMatchHistory db c before) := by
  intro r hr
  obtain ⟨row, -, hresult⟩ := row_of_history hr
  unfold historyRow at hresult
  split at hresult
  · rename_i homeGoals awayGoals _ _ _
    split_ifs at hresult
    rw [← Option.some.inj hresult]
    exact ⟨homeGoals.property.1, awayGoals.property.1⟩
  · cases hresult

/-- **Without results a league is forgotten.** For every fixture: from some moment on every
strength is one and the rates are those of the league, up to a multiple of a weight that
halves with every half-life, and the reported probabilities go to those of the league
rates. -/
theorem numbers_forget (db : Db) (fixture : Match) :
    let history := trainingSet db fixture
    ∃ asOf, UpTo asOf history ∧
      (∀ key, Fades asOf (fun now => (fit history now : Strengths ℝ).attack.getD key 1) 1 ∧
        Fades asOf (fun now => (fit history now : Strengths ℝ).defence.getD key 1) 1) ∧
      Fades asOf (fun now => (numbers ℝ history now fixture).probabilities.lambdaHome)
        (decayedMean MatchResult.homeGoals history asOf) ∧
      Fades asOf (fun now => (numbers ℝ history now fixture).probabilities.lambdaAway)
        (decayedMean MatchResult.awayGoals history asOf) ∧
      Tendsto (fun now => (numbers ℝ history now fixture).probabilities.markets) atTop
        (𝓝 (scoreProbabilities (decayedMean MatchResult.homeGoals history asOf)
          (decayedMean MatchResult.awayGoals history asOf)).markets) := by
  intro history
  obtain ⟨asOf, hasOf⟩ := Finset.exists_le (history.map MatchResult.utcDate).toFinset
  have hl : UpTo asOf history :=
    fun m hm => hasOf _ (List.mem_toFinset.mpr (List.mem_map_of_mem hm))
  have hstrengths := strengths_fade hl
  have hrates := fixture_fades (history_goalsNonneg db _ none) hl fixture.homeTeamId
    fixture.awayTeamId fixture.competitionId
  exact ⟨asOf, hl, hstrengths, hrates⟩

end AGame.Brain
