import AGame.Engine.Shares
import Mathlib.Analysis.Calculus.MeanValue
import Mathlib.Analysis.Calculus.Deriv.Inv
import Mathlib.Analysis.Calculus.Deriv.Pow

/-!
# How far an error in a rate carries

Up to the factor that the normalisation cancels, the derivative of a Poisson probability is
the one before it. So a mean over the goals of one side, normalised as the matrix is, has a
slope between minus one and one in its rate (`abs_blend_sub_le`), and the share of an event
moves by no more than the two rates together (`abs_share_sub_le`).
-/

namespace AGame.Engine.Poisson

open Finset

/-- A sum over the goals of one side, weighted like the matrix. -/
noncomputable def weightedSum (n : ℕ) (g : ℕ → ℝ) (rate : ℝ) : ℝ :=
  ∑ goals ∈ range n, term rate goals * g goals

/-- The mean of `g` over the goals of one side. -/
noncomputable def blend (g : ℕ → ℝ) (rate : ℝ) : ℝ :=
  weightedSum (MAX_GOALS + 1) g rate / weightedSum (MAX_GOALS + 1) (fun _ => 1) rate

theorem hasDerivAt_term (n : ℕ) (rate : ℝ) :
    HasDerivAt (fun rate => term rate (n + 1)) (term rate n) rate := by
  have hpow := (hasDerivAt_pow (n + 1) rate).div_const ((n + 1).factorial : ℝ)
  refine hpow.congr_deriv ?_
  have hfactorial : (n.factorial : ℝ) ≠ 0 := Nat.cast_ne_zero.mpr n.factorial_ne_zero
  rw [term, Nat.factorial_succ, Nat.add_sub_cancel]
  push_cast
  field_simp

/-- Differentiating shifts the counts by one. -/
theorem hasDerivAt_weightedSum (n : ℕ) (g : ℕ → ℝ) (rate : ℝ) :
    HasDerivAt (weightedSum (n + 1) g) (weightedSum n (fun goals => g (goals + 1)) rate) rate := by
  have hshift : weightedSum (n + 1) g = fun rate =>
      ∑ goals ∈ range n, term rate (goals + 1) * g (goals + 1) + g 0 := by
    funext rate
    rw [weightedSum, sum_range_succ', term_zero, one_mul]
  rw [hshift]
  exact (HasDerivAt.fun_sum fun goals _ =>
    (hasDerivAt_term goals rate).mul_const (g (goals + 1))).add_const (g 0)

section

variable {g : ℕ → ℝ} {rate : ℝ}

theorem weightedSum_nonneg (hg : ∀ goals, 0 ≤ g goals) (hrate : 0 ≤ rate) (n : ℕ) :
    0 ≤ weightedSum n g rate :=
  sum_nonneg fun goals _ => mul_nonneg (term_nonneg hrate goals) (hg goals)

theorem weightedSum_le (hg : ∀ goals, g goals ≤ 1) (hrate : 0 ≤ rate) {n m : ℕ} (hle : n ≤ m) :
    weightedSum n g rate ≤ weightedSum m (fun _ => 1) rate := by
  calc weightedSum n g rate
      ≤ weightedSum n (fun _ => 1) rate :=
        sum_le_sum fun goals _ => mul_le_mul_of_nonneg_left (hg goals) (term_nonneg hrate goals)
    _ ≤ weightedSum m (fun _ => 1) rate :=
        sum_le_sum_of_subset_of_nonneg (range_subset_range.mpr hle) fun goals _ _ =>
          mul_nonneg (term_nonneg hrate goals) zero_le_one

theorem weightedSum_one_pos (hrate : 0 ≤ rate) (n : ℕ) :
    0 < weightedSum (n + 1) (fun _ => 1) rate := by
  have hfirst : term rate 0 * 1 ≤ weightedSum (n + 1) (fun _ => 1) rate :=
    single_le_sum (f := fun goals => term rate goals * 1)
      (fun goals _ => mul_nonneg (term_nonneg hrate goals) zero_le_one)
      (mem_range.mpr n.succ_pos)
  rw [term_zero] at hfirst
  linarith

/-- The slope of a mean of values between nought and one. -/
theorem abs_slope_le (hg : ∀ goals, 0 ≤ g goals ∧ g goals ≤ 1) (hrate : 0 ≤ rate) :
    |(weightedSum MAX_GOALS (fun goals => g (goals + 1)) rate *
        weightedSum (MAX_GOALS + 1) (fun _ => 1) rate -
      weightedSum (MAX_GOALS + 1) g rate * weightedSum MAX_GOALS (fun _ => 1) rate) /
        weightedSum (MAX_GOALS + 1) (fun _ => 1) rate ^ 2| ≤ 1 := by
  have hpos := weightedSum_one_pos hrate MAX_GOALS
  have hsum := weightedSum_nonneg (fun goals => (hg goals).1) hrate (MAX_GOALS + 1)
  have hsum' := weightedSum_nonneg (fun goals => (hg (goals + 1)).1) hrate MAX_GOALS
  have htotal' := weightedSum_nonneg (fun _ => zero_le_one) hrate MAX_GOALS
  have hle := weightedSum_le (fun goals => (hg goals).2) hrate le_rfl (n := MAX_GOALS + 1)
  have hle' := weightedSum_le (fun goals => (hg (goals + 1)).2) hrate (Nat.le_succ MAX_GOALS)
  have htotal := weightedSum_le (fun _ => le_refl (1 : ℝ)) hrate (Nat.le_succ MAX_GOALS)
  have hfirst := mul_nonneg hsum' hpos.le
  have hfirst' := mul_le_mul_of_nonneg_right hle' hpos.le
  have hsecond := mul_nonneg hsum htotal'
  have hsecond' := mul_le_mul hle htotal htotal' hpos.le
  rw [abs_div, abs_of_pos (pow_pos hpos 2), div_le_one (pow_pos hpos 2), abs_le, pow_two]
  constructor
  · linarith
  · linarith

/-- **A mean moves no faster than its rate.** -/
theorem abs_blend_sub_le (hg : ∀ goals, 0 ≤ g goals ∧ g goals ≤ 1) {rate' : ℝ} (hrate : 0 ≤ rate)
    (hrate' : 0 ≤ rate') : |blend g rate' - blend g rate| ≤ |rate' - rate| := by
  have hderiv : ∀ x ∈ Set.Ici (0 : ℝ), HasDerivWithinAt (blend g)
      ((weightedSum MAX_GOALS (fun goals => g (goals + 1)) x *
          weightedSum (MAX_GOALS + 1) (fun _ => 1) x -
        weightedSum (MAX_GOALS + 1) g x * weightedSum MAX_GOALS (fun _ => 1) x) /
          weightedSum (MAX_GOALS + 1) (fun _ => 1) x ^ 2) (Set.Ici 0) x := by
    intro x hx
    exact ((hasDerivAt_weightedSum MAX_GOALS g x).div
      (hasDerivAt_weightedSum MAX_GOALS (fun _ => 1) x)
      (weightedSum_one_pos hx MAX_GOALS).ne').hasDerivWithinAt
  have hlipschitz := Convex.norm_image_sub_le_of_norm_hasDerivWithin_le hderiv
    (fun x hx => abs_slope_le hg hx) (convex_Ici 0) hrate hrate'
  rwa [one_mul] at hlipschitz

end

/-! ## Shares -/

/-- The share of an event as a mean over the home goals. -/
theorem share_eq_blend (p : ℕ → ℕ → Bool) (a b : ℝ) :
    share p a b = blend (fun home => weightedSum (MAX_GOALS + 1)
      (fun away => if p home away = true then 1 else 0) b /
        weightedSum (MAX_GOALS + 1) (fun _ => 1) b) a := by
  have hmargin : ∀ rate : ℝ, weightedSum (MAX_GOALS + 1) (fun _ => 1) rate =
      ∑ goals ∈ goalCounts, term rate goals := by
    intro rate
    simp only [weightedSum, mul_one, goalCounts]
  have hevent : eventSum p a b = weightedSum (MAX_GOALS + 1) (fun home =>
      weightedSum (MAX_GOALS + 1) (fun away => if p home away = true then 1 else 0) b) a := by
    simp only [eventSum, weightedSum, goalCounts, mul_sum, mul_ite, mul_one, mul_zero]
  have hfactor : ∀ (g : ℕ → ℝ) (c : ℝ), weightedSum (MAX_GOALS + 1) (fun home => g home / c) a =
      weightedSum (MAX_GOALS + 1) g a / c := by
    intro g c
    simp only [weightedSum, sum_div, mul_div_assoc]
  rw [share, blend, hfactor, eventSum_anyScore, ← hmargin, ← hmargin, hevent, div_div, mul_comm]

theorem abs_share_sub_home_le (p : ℕ → ℕ → Bool) {a a' b : ℝ} (ha : 0 ≤ a) (ha' : 0 ≤ a')
    (hb : 0 ≤ b) : |share p a' b - share p a b| ≤ |a' - a| := by
  rw [share_eq_blend, share_eq_blend]
  refine abs_blend_sub_le (fun home => ?_) ha ha'
  have hpos := weightedSum_one_pos hb MAX_GOALS
  constructor
  · refine div_nonneg (weightedSum_nonneg (fun away => ?_) hb _) hpos.le
    split_ifs
    · exact zero_le_one
    · exact le_rfl
  · refine (div_le_one hpos).mpr (weightedSum_le (fun away => ?_) hb le_rfl)
    split_ifs
    · exact le_rfl
    · exact zero_le_one

/-- **A share moves no further than the two rates.** -/
theorem abs_share_sub_le (p : ℕ → ℕ → Bool) {a a' b b' : ℝ} (ha : 0 ≤ a) (ha' : 0 ≤ a')
    (hb : 0 ≤ b) (hb' : 0 ≤ b') :
    |share p a' b' - share p a b| ≤ |a' - a| + |b' - b| := by
  have hhome := abs_share_sub_home_le p ha ha' hb'
  have haway := abs_share_sub_home_le (fun away home => p home away) hb hb' ha
  rw [← share_swap, ← share_swap (fun away home => p home away) b a] at haway
  calc |share p a' b' - share p a b|
      ≤ |share p a' b' - share p a b'| + |share p a b' - share p a b| := abs_sub_le _ _ _
    _ ≤ |a' - a| + |b' - b| := add_le_add hhome haway

end AGame.Engine.Poisson
