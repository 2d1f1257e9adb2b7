import Mathlib

/-!
# Comparing distributions

Two facts about a distribution that is changed. A family of weights is below
another in likelihood-ratio order when the ratio of the second to the first
grows along the index: averages of a growing quantity are then larger under the
second weights, whatever the weights sum to. And conditioning on an event moves
no probability by more than the probability that the event fails.
-/

namespace Base

open Finset MeasureTheory ProbabilityTheory

/-! ## Likelihood-ratio order -/

section Ratio

variable {ι R : Type*} {s : Finset ι} {w w' : ι → R}

/-- Twice the difference of the averages, index by index against index. -/
theorem two_mul_cross [CommRing R] (g : ι → R) :
    2 * ((∑ i ∈ s, g i * w' i) * (∑ j ∈ s, w j) - (∑ i ∈ s, g i * w i) * ∑ j ∈ s, w' j) =
      ∑ i ∈ s, ∑ j ∈ s, (g j - g i) * (w i * w' j - w j * w' i) := by
  have hswap : ∑ i ∈ s, ∑ j ∈ s, g i * (w j * w' i - w i * w' j) =
      ∑ i ∈ s, ∑ j ∈ s, g j * (w i * w' j - w j * w' i) := sum_comm
  have hcross : (∑ i ∈ s, g i * w' i) * (∑ j ∈ s, w j) - (∑ i ∈ s, g i * w i) * ∑ j ∈ s, w' j =
      ∑ i ∈ s, ∑ j ∈ s, g i * (w j * w' i - w i * w' j) := by
    rw [sum_mul_sum, sum_mul_sum, ← sum_sub_distrib]
    refine sum_congr rfl fun i _ => ?_
    rw [← sum_sub_distrib]
    refine sum_congr rfl fun j _ => ?_
    ring
  calc 2 * ((∑ i ∈ s, g i * w' i) * (∑ j ∈ s, w j) - (∑ i ∈ s, g i * w i) * ∑ j ∈ s, w' j)
      = (∑ i ∈ s, ∑ j ∈ s, g j * (w i * w' j - w j * w' i)) +
          ∑ i ∈ s, ∑ j ∈ s, g i * (w j * w' i - w i * w' j) := by rw [hcross, hswap, two_mul]
    _ = ∑ i ∈ s, ∑ j ∈ s, (g j - g i) * (w i * w' j - w j * w' i) := by
        rw [← sum_add_distrib]
        refine sum_congr rfl fun i _ => ?_
        rw [← sum_add_distrib]
        refine sum_congr rfl fun j _ => ?_
        ring

variable [LinearOrder ι] [CommRing R] [LinearOrder R] [IsStrictOrderedRing R]

/-- `w` is below `w'` in likelihood-ratio order on `s`. -/
def RatioLE (s : Finset ι) (w w' : ι → R) : Prop :=
  ∀ i ∈ s, ∀ j ∈ s, i ≤ j → w j * w' i ≤ w i * w' j

/-- **The average of a growing quantity grows along the order.** -/
theorem RatioLE.average_le (h : RatioLE s w w') {g : ι → R} (hg : Monotone g) :
    (∑ i ∈ s, g i * w i) * ∑ j ∈ s, w' j ≤ (∑ i ∈ s, g i * w' i) * ∑ j ∈ s, w j := by
  have hpairs : 0 ≤ ∑ i ∈ s, ∑ j ∈ s, (g j - g i) * (w i * w' j - w j * w' i) := by
    refine sum_nonneg fun i hi => sum_nonneg fun j hj => ?_
    rcases le_total i j with hij | hji
    · exact mul_nonneg (sub_nonneg.mpr (hg hij)) (sub_nonneg.mpr (h i hi j hj hij))
    · apply mul_nonneg_of_nonpos_of_nonpos
      · exact sub_nonpos.mpr (hg hji)
      · have hratio := h j hj i hi hji
        linarith
  rw [← two_mul_cross] at hpairs
  linarith

/-- The average of a shrinking quantity shrinks along the order. -/
theorem RatioLE.le_average (h : RatioLE s w w') {g : ι → R} (hg : Antitone g) :
    (∑ i ∈ s, g i * w' i) * ∑ j ∈ s, w j ≤ (∑ i ∈ s, g i * w i) * ∑ j ∈ s, w' j := by
  have hneg := h.average_le hg.neg
  simp only [neg_mul, sum_neg_distrib] at hneg
  exact neg_le_neg_iff.mp hneg

end Ratio

/-! ## Conditioning -/

section Conditioning

variable {Ω : Type*} [MeasurableSpace Ω] (μ : Measure Ω) {s : Set Ω}

theorem cond_real_apply (hs : MeasurableSet s) (t : Set Ω) :
    (cond μ s).real t = μ.real (s ∩ t) / μ.real s := by
  rw [measureReal_def, cond_apply hs, ENNReal.toReal_mul, ENNReal.toReal_inv, inv_mul_eq_div]
  rfl

/-- **Conditioning on a likely event changes little.** -/
theorem abs_cond_real_sub_le [IsProbabilityMeasure μ] (hs : MeasurableSet s) (t : Set Ω) :
    |(cond μ s).real t - μ.real t| ≤ μ.real sᶜ := by
  have hinside : μ.real (s ∩ t) ≤ μ.real s := measureReal_mono Set.inter_subset_left
  have houtside : μ.real (t \ s) ≤ μ.real sᶜ := measureReal_mono fun ω hω => hω.2
  have hsplit : μ.real t = μ.real (s ∩ t) + μ.real (t \ s) := by
    rw [Set.inter_comm, measureReal_inter_add_sdiff hs]
  have hcompl : μ.real sᶜ = 1 - μ.real s := probReal_compl_eq_one_sub hs
  -- what is left of `t` inside `s` is the share `q` of `s`
  obtain ⟨q, hq⟩ : ∃ q, q = μ.real (s ∩ t) / μ.real s := ⟨_, rfl⟩
  have hq0 : 0 ≤ q := hq ▸ div_nonneg measureReal_nonneg measureReal_nonneg
  have hq1 : q ≤ 1 := hq ▸ div_le_one_of_le₀ hinside measureReal_nonneg
  have hmul : μ.real (s ∩ t) = q * μ.real s := by
    rw [hq, div_mul_cancel_of_imp]
    intro hzero
    exact le_antisymm (hzero ▸ hinside) measureReal_nonneg
  have hshare : q * μ.real sᶜ ≤ μ.real sᶜ := mul_le_of_le_one_left measureReal_nonneg hq1
  have hshare0 : 0 ≤ q * μ.real sᶜ := mul_nonneg hq0 measureReal_nonneg
  have hdiff : (cond μ s).real t - μ.real t = q * μ.real sᶜ - μ.real (t \ s) := by
    rw [cond_real_apply μ hs, ← hq, hsplit, hmul, hcompl]
    ring
  rw [hdiff, abs_le]
  have hrest : 0 ≤ μ.real (t \ s) := measureReal_nonneg
  constructor <;> linarith

end Conditioning

end Base
