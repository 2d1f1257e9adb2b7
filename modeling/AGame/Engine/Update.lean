import AGame.Engine.Replay

/-!
# One rating update

The points that change hands are a multiplier, at least one and growing with the
margin, times the distance between what happened and what was expected; and what
is expected of the home side lies strictly between zero and one and grows with
its lead over the away side (`expectedScore_lt_iff`).
-/

namespace AGame.Engine.Elo

open Std (ExtTreeMap)
open Base

/-! ## The expectation -/

theorem expectedScore_eq (ratingHome ratingAway : ℝ) :
    expectedScore ratingHome ratingAway =
      1 / (1 + (10 : ℝ) ^ ((ratingAway - (ratingHome + HOME_ADVANTAGE ℝ)) / 400)) :=
  rfl

theorem pow_ten_pos (x : ℝ) : (0 : ℝ) < 10 ^ x := by
  apply Real.rpow_pos_of_pos
  norm_num

theorem expectedScore_pos (ratingHome ratingAway : ℝ) :
    0 < (expectedScore ratingHome ratingAway : ℝ) := by
  have hpow := pow_ten_pos ((ratingAway - (ratingHome + HOME_ADVANTAGE ℝ)) / 400)
  rw [expectedScore_eq]
  positivity

theorem expectedScore_lt_one (ratingHome ratingAway : ℝ) :
    (expectedScore ratingHome ratingAway : ℝ) < 1 := by
  have hpow := pow_ten_pos ((ratingAway - (ratingHome + HOME_ADVANTAGE ℝ)) / 400)
  rw [expectedScore_eq, div_lt_one (by linarith)]
  linarith

/-- More is expected of a home side with a larger lead. -/
theorem expectedScore_lt_iff (ratingHome ratingAway ratingHome' ratingAway' : ℝ) :
    (expectedScore ratingHome ratingAway : ℝ) < expectedScore ratingHome' ratingAway' ↔
      ratingHome - ratingAway < ratingHome' - ratingAway' := by
  have hpow := pow_ten_pos ((ratingAway - (ratingHome + HOME_ADVANTAGE ℝ)) / 400)
  have hpow' := pow_ten_pos ((ratingAway' - (ratingHome' + HOME_ADVANTAGE ℝ)) / 400)
  rw [expectedScore_eq, expectedScore_eq, one_div_lt_one_div (by linarith) (by linarith),
    add_lt_add_iff_left, Real.rpow_lt_rpow_left_iff (by norm_num)]
  constructor
  · intro h
    linarith
  · intro h
    linarith

/-- Half a point is expected of level sides, home advantage counted in. -/
theorem expectedScore_level (ratingHome : ℝ) :
    (expectedScore ratingHome (ratingHome + HOME_ADVANTAGE ℝ) : ℝ) = 0.5 := by
  rw [expectedScore_eq, sub_self, zero_div, Real.rpow_zero]
  norm_num

/-! ## The multiplier -/

/-- The margin of a result. -/
def margin (m : MatchResult) : ℤ := |m.homeGoals - m.awayGoals|

/-- The special case of a level match is the multiplier of one goal. -/
theorem marginMultiplier_eq (m : MatchResult) :
    (marginMultiplier m : ℝ) = Real.logb 2 ((max (margin m) 1 : ℤ) + 1) := by
  have hmargin : 0 ≤ margin m := abs_nonneg _
  unfold marginMultiplier
  change (if margin m = 0 then 1 else goalDifferenceMultiplier (margin m)) = _
  split_ifs with hlevel
  · rw [hlevel, max_eq_right zero_le_one, Int.cast_one, one_add_one_eq_two,
      Real.logb_self_eq_one one_lt_two]
  · rw [max_eq_left (by omega)]
    rfl

theorem one_le_marginMultiplier (m : MatchResult) : (1 : ℝ) ≤ marginMultiplier m := by
  have hone : (1 : ℝ) ≤ ((max (margin m) 1 : ℤ) : ℝ) := by
    exact_mod_cast le_max_right (margin m) 1
  rw [marginMultiplier_eq, Real.le_logb_iff_rpow_le one_lt_two (by linarith), Real.rpow_one]
  linarith

theorem marginMultiplier_lt {m m' : MatchResult} (hm : 1 ≤ margin m)
    (hlt : margin m < margin m') : (marginMultiplier m : ℝ) < marginMultiplier m' := by
  have hone : (1 : ℝ) ≤ (margin m : ℝ) := by exact_mod_cast hm
  have hcast : (margin m : ℝ) < (margin m' : ℝ) := by exact_mod_cast hlt
  rw [marginMultiplier_eq, marginMultiplier_eq, max_eq_left hm, max_eq_left (hm.trans hlt.le)]
  exact Real.logb_lt_logb one_lt_two (by linarith) (by linarith)

/-! ## The change -/

theorem kFactor_pos : (0 : ℝ) < K_FACTOR ℝ := by
  unfold K_FACTOR
  norm_num

/-- What a unit of surprise is worth. -/
theorem stake_pos (m : MatchResult) : (0 : ℝ) < K_FACTOR ℝ * marginMultiplier m :=
  mul_pos kFactor_pos (one_pos.trans_le (one_le_marginMultiplier m))

theorem ratingChange_win {m : MatchResult} (h : m.homeGoals > m.awayGoals)
    (ratingHome ratingAway : ℝ) :
    ratingChange ratingHome ratingAway m =
      K_FACTOR ℝ * marginMultiplier m * (1 - expectedScore ratingHome ratingAway) := by
  rw [ratingChange, actualScore, if_pos h]

theorem ratingChange_loss {m : MatchResult} (h : m.homeGoals < m.awayGoals)
    (ratingHome ratingAway : ℝ) :
    ratingChange ratingHome ratingAway m =
      -(K_FACTOR ℝ * marginMultiplier m * expectedScore ratingHome ratingAway) := by
  rw [ratingChange, actualScore, if_neg h.asymm, if_pos h, zero_sub, mul_neg]

theorem ratingChange_draw {m : MatchResult} (h : m.homeGoals = m.awayGoals)
    (ratingHome ratingAway : ℝ) :
    ratingChange ratingHome ratingAway m =
      K_FACTOR ℝ * marginMultiplier m * (0.5 - expectedScore ratingHome ratingAway) := by
  rw [ratingChange, actualScore, if_neg h.not_gt, if_neg h.not_lt]

theorem ratingChange_win_pos {m : MatchResult} (h : m.homeGoals > m.awayGoals)
    (ratingHome ratingAway : ℝ) : 0 < ratingChange ratingHome ratingAway m := by
  rw [ratingChange_win h]
  exact mul_pos (stake_pos m) (sub_pos.mpr (expectedScore_lt_one _ _))

theorem ratingChange_loss_neg {m : MatchResult} (h : m.homeGoals < m.awayGoals)
    (ratingHome ratingAway : ℝ) : ratingChange ratingHome ratingAway m < 0 := by
  rw [ratingChange_loss h, neg_neg_iff_pos]
  exact mul_pos (stake_pos m) (expectedScore_pos _ _)

/-- Points go to the side that was short of its expectation. -/
theorem sign_ratingChange_draw {m : MatchResult} (h : m.homeGoals = m.awayGoals)
    (ratingHome ratingAway : ℝ) :
    SignType.sign (ratingChange ratingHome ratingAway m) =
      SignType.sign (ratingAway - (ratingHome + HOME_ADVANTAGE ℝ)) := by
  have hlevel := expectedScore_level ratingHome
  rw [ratingChange_draw h, sign_mul, sign_pos (stake_pos m), one_mul, ← hlevel]
  rcases lt_trichotomy (ratingHome + HOME_ADVANTAGE ℝ) ratingAway with hlt | heq | hgt
  · have hexpected := (expectedScore_lt_iff ratingHome ratingAway ratingHome
      (ratingHome + HOME_ADVANTAGE ℝ)).mpr (by linarith)
    rw [sign_pos (sub_pos.mpr hexpected), sign_pos (sub_pos.mpr hlt)]
  · rw [heq, sub_self, sub_self]
  · have hexpected := (expectedScore_lt_iff ratingHome (ratingHome + HOME_ADVANTAGE ℝ) ratingHome
      ratingAway).mpr (by linarith)
    rw [sign_neg (sub_neg.mpr hexpected), sign_neg (sub_neg.mpr hgt)]

/-- Nobody is surprised by a whole point. -/
theorem abs_surprise_lt_one (m : MatchResult) (ratingHome ratingAway : ℝ) :
    |actualScore m - expectedScore ratingHome ratingAway| < (1 : ℝ) := by
  have hpos := expectedScore_pos ratingHome ratingAway
  have hone := expectedScore_lt_one ratingHome ratingAway
  rw [abs_lt, actualScore]
  split_ifs
  · constructor
    · linarith
    · linarith
  · constructor
    · linarith
    · linarith
  · norm_num
    constructor
    · linarith
    · linarith

theorem abs_ratingChange_lt (m : MatchResult) (ratingHome ratingAway : ℝ) :
    |ratingChange ratingHome ratingAway m| <
      K_FACTOR ℝ * Real.logb 2 ((max (margin m) 1 : ℤ) + 1) := by
  rw [ratingChange, abs_mul, abs_of_pos (stake_pos m), ← marginMultiplier_eq]
  exact mul_lt_of_lt_one_right (stake_pos m) (abs_surprise_lt_one m _ _)

/-- Two results with the same winner. -/
def SameWinner (m m' : MatchResult) : Prop :=
  m.homeGoals > m.awayGoals ∧ m'.homeGoals > m'.awayGoals ∨
    m.homeGoals < m.awayGoals ∧ m'.homeGoals < m'.awayGoals

/-- A larger win between the same sides moves more points. -/
theorem abs_ratingChange_lt_of_margin {m m' : MatchResult} (hwinner : SameWinner m m')
    (hlt : margin m < margin m') (ratingHome ratingAway : ℝ) :
    |ratingChange ratingHome ratingAway m| < |ratingChange ratingHome ratingAway m'| := by
  have hpos := expectedScore_pos ratingHome ratingAway
  have hone := expectedScore_lt_one ratingHome ratingAway
  have hmargin : 1 ≤ margin m := by
    apply Int.one_le_abs
    rcases hwinner with ⟨h, -⟩ | ⟨h, -⟩
    · omega
    · omega
  have hstake : K_FACTOR ℝ * marginMultiplier m < K_FACTOR ℝ * marginMultiplier m' :=
    mul_lt_mul_of_pos_left (marginMultiplier_lt hmargin hlt) kFactor_pos
  rcases hwinner with ⟨h, h'⟩ | ⟨h, h'⟩
  · rw [abs_of_pos (ratingChange_win_pos h _ _), abs_of_pos (ratingChange_win_pos h' _ _),
      ratingChange_win h, ratingChange_win h']
    exact mul_lt_mul_of_pos_right hstake (by linarith)
  · rw [abs_of_neg (ratingChange_loss_neg h _ _), abs_of_neg (ratingChange_loss_neg h' _ _),
      ratingChange_loss h, ratingChange_loss h', neg_neg, neg_neg]
    exact mul_lt_mul_of_pos_right hstake hpos

/-- The same result is worth less to a home side with a larger lead. -/
theorem ratingChange_lt_of_lead {m m' : MatchResult} (hhome : m'.homeGoals = m.homeGoals)
    (haway : m'.awayGoals = m.awayGoals) {ratingHome ratingAway ratingHome' ratingAway' : ℝ}
    (hlead : ratingHome - ratingAway < ratingHome' - ratingAway') :
    ratingChange ratingHome' ratingAway' m' < ratingChange ratingHome ratingAway m := by
  have hsame : ratingChange ratingHome' ratingAway' m' =
      ratingChange ratingHome' ratingAway' m := by
    simp only [ratingChange, marginMultiplier, actualScore, hhome, haway]
  rw [hsame, ratingChange, ratingChange]
  apply mul_lt_mul_of_pos_left _ (stake_pos m)
  exact sub_lt_sub_left ((expectedScore_lt_iff _ _ _ _).mpr hlead) _

/-! ## One match -/

/-- What a match does to the ratings of its snapshot. -/
structure UpdateMoves (ratings : TeamMap ℝ) (m : MatchResult) : Prop where
  home : (applyMatch ratings m).1[m.homeKey]? =
    some ((applyMatch ratings m).2.home + pointsWon ratings m)
  away : (applyMatch ratings m).1[m.awayKey]? =
    some ((applyMatch ratings m).2.away - pointsWon ratings m)
  others : ∀ key : TeamKey, key ≠ m.homeKey → key ≠ m.awayKey →
    (applyMatch ratings m).1[key]? = ratings[key]?
  win : m.homeGoals > m.awayGoals → 0 < pointsWon ratings m
  loss : m.homeGoals < m.awayGoals → pointsWon ratings m < 0
  draw : m.homeGoals = m.awayGoals → SignType.sign (pointsWon ratings m) =
    SignType.sign ((applyMatch ratings m).2.away -
      ((applyMatch ratings m).2.home + HOME_ADVANTAGE ℝ))
  bounded : |pointsWon ratings m| < K_FACTOR ℝ * Real.logb 2 ((max (margin m) 1 : ℤ) + 1)
  larger_win : ∀ (ratings' : TeamMap ℝ) (m' : MatchResult),
    (applyMatch ratings' m').2.home = (applyMatch ratings m).2.home →
    (applyMatch ratings' m').2.away = (applyMatch ratings m).2.away →
    SameWinner m m' → margin m < margin m' → |pointsWon ratings m| < |pointsWon ratings' m'|
  larger_lead : ∀ (ratings' : TeamMap ℝ) (m' : MatchResult),
    m'.homeGoals = m.homeGoals → m'.awayGoals = m.awayGoals →
    (applyMatch ratings m).2.home - (applyMatch ratings m).2.away <
      (applyMatch ratings' m').2.home - (applyMatch ratings' m').2.away →
    pointsWon ratings' m' < pointsWon ratings m

theorem pointsWon_eq_snapshot (ratings : TeamMap ℝ) (m : MatchResult) :
    pointsWon ratings m =
      ratingChange (applyMatch ratings m).2.home (applyMatch ratings m).2.away m := by
  rw [applyMatch_snapshot, pointsWon]

/-- **One update moves the right way by a bounded amount**; between the same
ratings a larger win moves more, and with the same result a larger lead of the
home side earns it less. -/
theorem update_moves (ratings : TeamMap ℝ) (m : MatchResult)
    (hteams : m.homeTeamId ≠ m.awayTeamId) : UpdateMoves ratings m where
  home := by
    rw [applyMatch_snapshot, applyMatch_ratings, getElem?_put, if_neg, getElem?_put, if_pos rfl]
    exact fun heq => hteams (congrArg Prod.fst heq).symm
  away := by
    rw [applyMatch_snapshot, applyMatch_ratings, getElem?_put, if_pos rfl]
  others := by
    intro key hhome haway
    rw [applyMatch_ratings, getElem?_put, if_neg haway.symm, getElem?_put, if_neg hhome.symm]
  win := fun h => ratingChange_win_pos h _ _
  loss := fun h => ratingChange_loss_neg h _ _
  draw := by
    intro h
    rw [pointsWon_eq_snapshot]
    exact sign_ratingChange_draw h _ _
  bounded := abs_ratingChange_lt m _ _
  larger_win := by
    intro ratings' m' hhome haway hwinner hlt
    rw [pointsWon_eq_snapshot, pointsWon_eq_snapshot ratings' m', hhome, haway]
    exact abs_ratingChange_lt_of_margin hwinner hlt _ _
  larger_lead := by
    intro ratings' m' hhome haway hlead
    rw [pointsWon_eq_snapshot ratings m, pointsWon_eq_snapshot ratings' m']
    exact ratingChange_lt_of_lead hhome haway hlead

/-- The first match of two newcomers. -/
theorem update_moves_first_match : UpdateMoves ∅ ⟨1, 2021, 0, 1, 2, 3, 1⟩ :=
  update_moves ∅ ⟨1, 2021, 0, 1, 2, 3, 1⟩ (by decide)

end AGame.Engine.Elo
