import AGame.Brain.Db
import AGame.Engine.Probabilities

/-!
# Which rows `a_game.prediction` accepts

Rounding moves each number by at most half a unit in the last place, so the
three stored outcomes miss one by at most one and a half ten-thousandths, well
within the tolerance of `prediction_1x2_sums_to_one`.
-/

namespace AGame.Brain

open Base Engine Engine.Poisson

variable {R : Type} [Field R] [LinearOrder R] [FloorRing R] [IsStrictOrderedRing R]

theorem isProbability_roundDecimal {x : R} (h0 : 0 ≤ x) (h1 : x ≤ 1) :
    isProbability (roundDecimal 4 x) = true := by
  unfold isProbability
  rw [decide_eq_true_eq]
  refine ⟨roundDecimal_nonneg h0, roundDecimal_le ?_⟩
  push_cast
  linarith

theorem isRate_roundDecimal {x : R} (h0 : 0 ≤ x) (h1 : x ≤ 99) :
    isRate (roundDecimal 4 x) = true := by
  unfold isRate
  rw [decide_eq_true_eq]
  have hle : roundDecimal 4 x ≤ 990000 := by
    refine roundDecimal_le ?_
    push_cast
    linarith
  exact ⟨roundDecimal_nonneg h0, by omega⟩

theorem isRating_roundDecimal {x : R} (h : |x| ≤ 99999) :
    isRating (roundDecimal 2 x) = true := by
  obtain ⟨hlow, hhigh⟩ := abs_le.mp h
  have hle : roundDecimal 2 x ≤ 9999900 := by
    refine roundDecimal_le ?_
    push_cast
    linarith
  have hge : -9999900 ≤ roundDecimal 2 x := by
    refine le_roundDecimal ?_
    push_cast
    linarith
  unfold isRating
  rw [decide_eq_true_eq, abs_lt]
  constructor <;> omega

/-- The stored outcomes of a distribution add up to one, give or take two
ten-thousandths. -/
theorem rounded_outcomes_sum {x y z : R} (h : x + y + z = 1) :
    |roundDecimal 4 x + roundDecimal 4 y + roundDecimal 4 z - 10000| ≤ 2 := by
  obtain ⟨hx, hx'⟩ := roundDecimal_bounds (rfl : roundDecimal 4 x = _)
  obtain ⟨hy, hy'⟩ := roundDecimal_bounds (rfl : roundDecimal 4 y = _)
  obtain ⟨hz, hz'⟩ := roundDecimal_bounds (rfl : roundDecimal 4 z = _)
  have hscaled : x * 10 ^ 4 + y * 10 ^ 4 + z * 10 ^ 4 = 10 ^ 4 := by
    rw [← add_mul, ← add_mul, h, one_mul]
  rw [abs_le]
  constructor
  · have hcast : ((-2 : ℤ) : R) ≤
        ((roundDecimal 4 x + roundDecimal 4 y + roundDecimal 4 z - 10000 : ℤ) : R) := by
      push_cast
      linarith
    exact Int.cast_le.mp hcast
  · have hcast : ((roundDecimal 4 x + roundDecimal 4 y + roundDecimal 4 z - 10000 : ℤ) : R) ≤
        ((2 : ℤ) : R) := by
      push_cast
      linarith
    exact Int.cast_le.mp hcast

/-- **A distribution with moderate rates and ratings is insertable.** -/
theorem predictionValues_fits {p : ScoreProbabilities R} {eloHome eloAway : R}
    (hp : IsDistribution p) (hhome : 0 ≤ p.lambdaHome ∧ p.lambdaHome ≤ 99)
    (haway : 0 ≤ p.lambdaAway ∧ p.lambdaAway ≤ 99) (heloHome : |eloHome| ≤ 99999)
    (heloAway : |eloAway| ≤ 99999) :
    (predictionValues p eloHome eloAway).fits = true := by
  have hsum := rounded_outcomes_sum hp.sums_to_one
  have hparts := hp.sums_to_one
  have h1 := hp.home
  have h2 := hp.draw
  have h3 := hp.away
  simp only [PredictionValues.fits, predictionValues, Bool.and_eq_true]
  refine ⟨⟨⟨⟨⟨⟨⟨⟨⟨?_, ?_⟩, ?_⟩, ?_⟩, ?_⟩, ?_⟩, ?_⟩, ?_⟩, ?_⟩, ?_⟩
  · exact isProbability_roundDecimal h1 (by linarith)
  · exact isProbability_roundDecimal h2 (by linarith)
  · exact isProbability_roundDecimal h3 (by linarith)
  · exact isProbability_roundDecimal hp.over25.1 hp.over25.2
  · exact isProbability_roundDecimal hp.btts.1 hp.btts.2
  · exact isRate_roundDecimal hhome.1 hhome.2
  · exact isRate_roundDecimal haway.1 haway.2
  · exact isRating_roundDecimal heloHome
  · exact isRating_roundDecimal heloAway
  · exact decide_eq_true (hsum.trans (by norm_num))

end AGame.Brain
