import AGame.Base.Distributions
import AGame.Engine.Shares

/-!
# The score matrix as a conditional law

Let `X` and `Y` be independent Poisson variables with the two rates. The cells
of the matrix are the probabilities of `X = i, Y = j`, so the mass of the whole
matrix is that of neither side scoring more than `MAX_GOALS`, and dividing by it
conditions on this event (`scoreProbabilities_eq_cond`). What the matrix leaves
out bounds how far a reported probability is from that of the unbounded model
(`truncation_error_le_tail`).
-/

namespace AGame.Engine.Poisson

open Base Finset MeasureTheory ProbabilityTheory
open scoped NNReal

/-- The goals of the two sides of a fixture: independent, and Poisson with the
given rates. -/
structure PoissonGoals {Ω : Type*} [MeasurableSpace Ω] (μ : Measure Ω) (X Y : Ω → ℕ)
    (a b : ℝ≥0) : Prop where
  home_measurable : Measurable X
  away_measurable : Measurable Y
  home : HasLaw X (poissonMeasure a) μ
  away : HasLaw Y (poissonMeasure b) μ
  independent : IndepFun X Y μ

section Events

variable {Ω : Type*} {X Y : Ω → ℕ}

/-- Neither side scores more than the matrix has room for. -/
def withinMatrix (X Y : Ω → ℕ) : Set Ω := {ω | X ω ≤ MAX_GOALS ∧ Y ω ≤ MAX_GOALS}

/-- The scoreline is in the event. -/
def scoreEvent (p : ℕ → ℕ → Bool) (X Y : Ω → ℕ) : Set Ω := {ω | p (X ω) (Y ω) = true}

theorem scoreEvent_homeWins : scoreEvent homeWins X Y = {ω | X ω > Y ω} := by
  ext ω
  simp [scoreEvent, homeWins]

theorem scoreEvent_isDraw : scoreEvent isDraw X Y = {ω | X ω = Y ω} := by
  ext ω
  simp [scoreEvent, isDraw]

theorem scoreEvent_awayWins : scoreEvent awayWins X Y = {ω | X ω < Y ω} := by
  ext ω
  simp [scoreEvent, awayWins]

theorem scoreEvent_isOver25 : scoreEvent isOver25 X Y = {ω | X ω + Y ω ≥ 3} := by
  ext ω
  simp only [scoreEvent, isOver25, Set.mem_ofPred_eq, decide_eq_true_eq]
  omega

theorem scoreEvent_isBtts : scoreEvent isBtts X Y = {ω | X ω ≥ 1 ∧ Y ω ≥ 1} := by
  ext ω
  simp only [scoreEvent, isBtts, Set.mem_ofPred_eq, decide_eq_true_eq]
  omega

end Events

section Law

variable {Ω : Type*} [MeasurableSpace Ω] {μ : Measure Ω} {X Y : Ω → ℕ} {a b : ℝ≥0}

theorem PoissonGoals.isProbabilityMeasure (h : PoissonGoals μ X Y a b) :
    IsProbabilityMeasure μ :=
  h.home.isProbabilityMeasure

theorem PoissonGoals.measurableSet (h : PoissonGoals μ X Y a b) (q : ℕ → ℕ → Prop) :
    MeasurableSet {ω | q (X ω) (Y ω)} := by
  have hdiscrete : MeasurableSet {x : ℕ × ℕ | q x.1 x.2} := .of_discrete
  exact (h.home_measurable.prodMk h.away_measurable) hdiscrete

theorem PoissonGoals.measurableSet_within (h : PoissonGoals μ X Y a b) :
    MeasurableSet (withinMatrix X Y) :=
  h.measurableSet fun home away => home ≤ MAX_GOALS ∧ away ≤ MAX_GOALS

/-- The two sides' goals are independent. -/
theorem PoissonGoals.real_product (h : PoissonGoals μ X Y a b) (s t : Set ℕ) :
    μ.real ({ω | X ω ∈ s} ∩ {ω | Y ω ∈ t}) = μ.real {ω | X ω ∈ s} * μ.real {ω | Y ω ∈ t} := by
  rw [measureReal_def, measureReal_def, measureReal_def, ← ENNReal.toReal_mul]
  exact congrArg ENNReal.toReal
    (h.independent.measure_inter_preimage_eq_mul s t .of_discrete .of_discrete)

/-- A side's goal count has the probability the code computes. -/
theorem real_goals {Z : Ω → ℕ} {rate : ℝ≥0} (hZ : HasLaw Z (poissonMeasure rate) μ) (goals : ℕ) :
    μ.real {ω | Z ω = goals} = pmf (rate : ℝ) goals := by
  rw [hZ.measureReal_eq (p := fun n => n = goals) .of_discrete]
  exact poissonMeasure_real_singleton rate goals

theorem PoissonGoals.real_cell (h : PoissonGoals μ X Y a b) (home away : ℕ) :
    μ.real {ω | X ω = home ∧ Y ω = away} = pmf (a : ℝ) home * pmf (b : ℝ) away := by
  rw [← real_goals h.home, ← real_goals h.away]
  exact h.real_product {home} {away}

/-- **The mass of an event of the matrix** is the probability of the event
together with the scoreline fitting into the matrix. -/
theorem PoissonGoals.real_event (h : PoissonGoals μ X Y a b) (p : ℕ → ℕ → Bool) :
    μ.real (withinMatrix X Y ∩ scoreEvent p X Y) = mass p (scoreMatrix (a : ℝ) (b : ℝ)) := by
  have hprobability := h.isProbabilityMeasure
  let cells := (goalCounts ×ˢ goalCounts).filter fun x => p x.1 x.2 = true
  have hcells : withinMatrix X Y ∩ scoreEvent p X Y =
      ⋃ x ∈ cells, {ω | X ω = x.1 ∧ Y ω = x.2} := by
    ext ω
    simp only [withinMatrix, scoreEvent, Set.mem_inter_iff, Set.mem_ofPred_eq, Set.mem_iUnion,
      cells, mem_filter, mem_product, mem_goalCounts]
    constructor
    · rintro ⟨hwithin, hp⟩
      exact ⟨(X ω, Y ω), ⟨hwithin, hp⟩, rfl, rfl⟩
    · rintro ⟨⟨home, away⟩, ⟨hwithin, hp⟩, rfl, rfl⟩
      exact ⟨hwithin, hp⟩
  rw [hcells, measureReal_biUnion_finset, mass_scoreMatrix, sum_filter, sum_product]
  · simp only [h.real_cell]
  · rintro x - y - hxy
    refine Set.disjoint_left.mpr ?_
    rintro ω ⟨hx, hx'⟩ ⟨hy, hy'⟩
    exact hxy (Prod.ext (hx.symm.trans hy) (hx'.symm.trans hy'))
  · intro x _
    exact h.measurableSet fun home away => home = x.1 ∧ away = x.2

theorem PoissonGoals.real_within (h : PoissonGoals μ X Y a b) :
    μ.real (withinMatrix X Y) = total (a : ℝ) (b : ℝ) := by
  rw [total_eq_mass, ← h.real_event anyScore]
  congr 1
  ext ω
  simp [scoreEvent, anyScore]

/-- Normalising conditions on the scoreline fitting into the matrix. -/
theorem PoissonGoals.cond_event (h : PoissonGoals μ X Y a b) (p : ℕ → ℕ → Bool) :
    mass p (scoreMatrix (a : ℝ) (b : ℝ)) / mass anyScore (scoreMatrix (a : ℝ) (b : ℝ)) =
      (cond μ (withinMatrix X Y)).real (scoreEvent p X Y) := by
  rw [cond_real_apply μ h.measurableSet_within, h.real_event, h.real_within, total_eq_mass]

/-- Both teams score with the product of the probabilities that each does, given
that it does not score too often. -/
theorem PoissonGoals.cond_btts (h : PoissonGoals μ X Y a b) :
    (cond μ (withinMatrix X Y)).real (scoreEvent isBtts X Y) =
      (cond μ {ω | X ω ≤ MAX_GOALS}).real {ω | 1 ≤ X ω} *
        (cond μ {ω | Y ω ≤ MAX_GOALS}).real {ω | 1 ≤ Y ω} := by
  have hwithin : μ.real (withinMatrix X Y) =
      μ.real {ω | X ω ≤ MAX_GOALS} * μ.real {ω | Y ω ≤ MAX_GOALS} :=
    h.real_product {n | n ≤ MAX_GOALS} {n | n ≤ MAX_GOALS}
  have hscores : μ.real (withinMatrix X Y ∩ scoreEvent isBtts X Y) =
      μ.real ({ω | X ω ≤ MAX_GOALS} ∩ {ω | 1 ≤ X ω}) *
        μ.real ({ω | Y ω ≤ MAX_GOALS} ∩ {ω | 1 ≤ Y ω}) := by
    refine Eq.trans ?_ (h.real_product ({n | n ≤ MAX_GOALS} ∩ {n | 1 ≤ n})
      ({n | n ≤ MAX_GOALS} ∩ {n | 1 ≤ n}))
    congr 1
    ext ω
    simp only [withinMatrix, scoreEvent, isBtts, Set.mem_inter_iff, Set.mem_ofPred_eq,
      decide_eq_true_eq]
    omega
  have hhome : MeasurableSet {ω | X ω ≤ MAX_GOALS} :=
    h.measurableSet fun home _ => home ≤ MAX_GOALS
  have haway : MeasurableSet {ω | Y ω ≤ MAX_GOALS} :=
    h.measurableSet fun _ away => away ≤ MAX_GOALS
  rw [cond_real_apply μ h.measurableSet_within, cond_real_apply μ hhome, cond_real_apply μ haway,
    hscores, hwithin, div_mul_div_comm]

/-- Each reported probability is that of its event, given that the scoreline
fits into the matrix. -/
theorem PoissonGoals.cond_outcomes (h : PoissonGoals μ X Y a b) :
    (scoreProbabilities (a : ℝ) (b : ℝ)).probHome =
        (cond μ (withinMatrix X Y)).real {ω | X ω > Y ω} ∧
      (scoreProbabilities (a : ℝ) (b : ℝ)).probDraw =
        (cond μ (withinMatrix X Y)).real {ω | X ω = Y ω} ∧
      (scoreProbabilities (a : ℝ) (b : ℝ)).probAway =
        (cond μ (withinMatrix X Y)).real {ω | X ω < Y ω} ∧
      (scoreProbabilities (a : ℝ) (b : ℝ)).over25 =
        (cond μ (withinMatrix X Y)).real {ω | X ω + Y ω ≥ 3} ∧
      (scoreProbabilities (a : ℝ) (b : ℝ)).btts =
        (cond μ (withinMatrix X Y)).real {ω | X ω ≥ 1 ∧ Y ω ≥ 1} := by
  have houtcomes := scoreProbabilities_mass (a : ℝ) (b : ℝ)
  simp only [h.cond_event] at houtcomes
  rwa [scoreEvent_homeWins, scoreEvent_isDraw, scoreEvent_awayWins, scoreEvent_isOver25,
    scoreEvent_isBtts] at houtcomes

end Law

/-- **`score_probabilities` computes the conditioned independent-Poisson model.**
The divisor is the probability that both sides fit into the matrix and is
positive; each reported probability is that of its event under this condition;
the three outcomes sum to one, and both teams scoring factors. -/
theorem scoreProbabilities_eq_cond {Ω : Type*} [MeasurableSpace Ω] (μ : Measure Ω) (X Y : Ω → ℕ)
    (a b : ℝ≥0) (h : PoissonGoals μ X Y a b) :
    total (a : ℝ) (b : ℝ) = μ.real (withinMatrix X Y) ∧ 0 < total (a : ℝ) (b : ℝ) ∧
    (scoreProbabilities (a : ℝ) (b : ℝ)).probHome =
      (cond μ (withinMatrix X Y)).real {ω | X ω > Y ω} ∧
    (scoreProbabilities (a : ℝ) (b : ℝ)).probDraw =
      (cond μ (withinMatrix X Y)).real {ω | X ω = Y ω} ∧
    (scoreProbabilities (a : ℝ) (b : ℝ)).probAway =
      (cond μ (withinMatrix X Y)).real {ω | X ω < Y ω} ∧
    (scoreProbabilities (a : ℝ) (b : ℝ)).over25 =
      (cond μ (withinMatrix X Y)).real {ω | X ω + Y ω ≥ 3} ∧
    (scoreProbabilities (a : ℝ) (b : ℝ)).btts =
      (cond μ (withinMatrix X Y)).real {ω | X ω ≥ 1 ∧ Y ω ≥ 1} ∧
    (scoreProbabilities (a : ℝ) (b : ℝ)).probHome + (scoreProbabilities (a : ℝ) (b : ℝ)).probDraw +
      (scoreProbabilities (a : ℝ) (b : ℝ)).probAway = 1 ∧
    (scoreProbabilities (a : ℝ) (b : ℝ)).btts =
      (cond μ {ω | X ω ≤ MAX_GOALS}).real {ω | X ω ≥ 1} *
        (cond μ {ω | Y ω ≤ MAX_GOALS}).real {ω | Y ω ≥ 1} := by
  obtain ⟨hhome, hdraw, haway, hover, hbtts⟩ := h.cond_outcomes
  refine ⟨h.real_within.symm, ?_, hhome, hdraw, haway, hover, hbtts, ?_, ?_⟩
  · rw [total_eq_mass]
    exact scoreMatrix_mass_pos a.coe_nonneg b.coe_nonneg
  · exact (isDistribution_of_rates a.coe_nonneg b.coe_nonneg).sums_to_one
  · rw [hbtts, ← scoreEvent_isBtts, h.cond_btts]

/-- The two goal counts of a product of Poisson laws. -/
theorem poissonGoals_prod (a b : ℝ≥0) :
    PoissonGoals ((poissonMeasure a).prod (poissonMeasure b)) Prod.fst Prod.snd a b where
  home_measurable := measurable_fst
  away_measurable := measurable_snd
  home := ⟨measurable_fst.aemeasurable, Measure.fst_prod⟩
  away := ⟨measurable_snd.aemeasurable, Measure.snd_prod⟩
  independent := indepFun_prod measurable_id measurable_id

/-- A fixture with three goals expected of the one side and none of the other. -/
theorem three_to_none_conditioned :
    (scoreProbabilities ((3 : ℝ≥0) : ℝ) ((0 : ℝ≥0) : ℝ)).probHome =
      (cond ((poissonMeasure 3).prod (poissonMeasure 0)) (withinMatrix Prod.fst Prod.snd)).real
        {x : ℕ × ℕ | x.1 > x.2} :=
  (scoreProbabilities_eq_cond _ Prod.fst Prod.snd 3 0 (poissonGoals_prod 3 0)).2.2.1

/-! ## What the matrix leaves out -/

/-- **The truncation error is bounded by the tail.** -/
theorem truncation_error_le_tail {Ω : Type*} [MeasurableSpace Ω] (μ : Measure Ω) (X Y : Ω → ℕ)
    (a b : ℝ≥0) (h : PoissonGoals μ X Y a b) :
    |(scoreProbabilities (a : ℝ) (b : ℝ)).probHome - μ.real {ω | X ω > Y ω}| ≤
      μ.real {ω | X ω > MAX_GOALS ∨ Y ω > MAX_GOALS} ∧
    |(scoreProbabilities (a : ℝ) (b : ℝ)).probDraw - μ.real {ω | X ω = Y ω}| ≤
      μ.real {ω | X ω > MAX_GOALS ∨ Y ω > MAX_GOALS} ∧
    |(scoreProbabilities (a : ℝ) (b : ℝ)).probAway - μ.real {ω | X ω < Y ω}| ≤
      μ.real {ω | X ω > MAX_GOALS ∨ Y ω > MAX_GOALS} ∧
    |(scoreProbabilities (a : ℝ) (b : ℝ)).over25 - μ.real {ω | X ω + Y ω ≥ 3}| ≤
      μ.real {ω | X ω > MAX_GOALS ∨ Y ω > MAX_GOALS} ∧
    |(scoreProbabilities (a : ℝ) (b : ℝ)).btts - μ.real {ω | X ω ≥ 1 ∧ Y ω ≥ 1}| ≤
      μ.real {ω | X ω > MAX_GOALS ∨ Y ω > MAX_GOALS} := by
  have hprobability := h.isProbabilityMeasure
  have htail : (withinMatrix X Y)ᶜ = {ω | X ω > MAX_GOALS ∨ Y ω > MAX_GOALS} := by
    ext ω
    simp only [withinMatrix, Set.mem_compl_iff, Set.mem_ofPred_eq, not_and_or, not_le]
  have hbound := abs_cond_real_sub_le μ h.measurableSet_within
  rw [htail] at hbound
  obtain ⟨hhome, hdraw, haway, hover, hbtts⟩ := h.cond_outcomes
  rw [hhome, hdraw, haway, hover, hbtts]
  exact ⟨hbound _, hbound _, hbound _, hbound _, hbound _⟩

theorem three_to_none_truncated :
    |(scoreProbabilities ((3 : ℝ≥0) : ℝ) ((0 : ℝ≥0) : ℝ)).probHome -
        ((poissonMeasure 3).prod (poissonMeasure 0)).real {x : ℕ × ℕ | x.1 > x.2}| ≤
      ((poissonMeasure 3).prod (poissonMeasure 0)).real
        {x : ℕ × ℕ | x.1 > MAX_GOALS ∨ x.2 > MAX_GOALS} :=
  (truncation_error_le_tail _ Prod.fst Prod.snd 3 0 (poissonGoals_prod 3 0)).1

end AGame.Engine.Poisson
