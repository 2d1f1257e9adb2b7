import AGame.Engine.Poisson

/-!
# The score matrix as a distribution

The running sums of `score_probabilities` are masses of events on the matrix.
Dividing by the mass of the whole matrix makes the three outcomes a
distribution (`IsDistribution`), and rounding such a row to the columns' scales
keeps every constraint of `a_game.prediction`.
-/

namespace AGame.Engine.Poisson

open Base Elo

section Mass

variable {R : Type} [Field R]

/-- The probability mass of the cells whose scoreline meets `p`. -/
def mass (p : ℕ → ℕ → Bool) (cells : List (Cell R)) : R :=
  ((cells.filter fun c => p c.homeGoals c.awayGoals).map Cell.probability).sum

def homeWins (home away : ℕ) : Bool := decide (home > away)

def awayWins (home away : ℕ) : Bool := decide (home < away)

def isDraw (home away : ℕ) : Bool := decide (home = away)

def isOver25 (home away : ℕ) : Bool := decide (home + away > 2)

def isBtts (home away : ℕ) : Bool := decide (home > 0 ∧ away > 0)

def anyScore (_ _ : ℕ) : Bool := true

theorem mass_cons (p : ℕ → ℕ → Bool) (c : Cell R) (cells : List (Cell R)) :
    mass p (c :: cells) =
      (if p c.homeGoals c.awayGoals = true then c.probability else 0) + mass p cells := by
  unfold mass
  rw [List.filter_cons]
  by_cases h : p c.homeGoals c.awayGoals = true
  · rw [if_pos h, if_pos h, List.map_cons, List.sum_cons]
  · rw [if_neg h, if_neg h, zero_add]

/-- The loop adds to each running sum the mass of its event. -/
theorem foldl_sums (cells : List (Cell R)) : ∀ s : Sums R,
    cells.foldl Sums.add s =
      ⟨s.probHome + mass homeWins cells, s.probDraw + mass isDraw cells,
        s.probAway + mass awayWins cells, s.over25 + mass isOver25 cells,
        s.btts + mass isBtts cells⟩ := by
  induction cells with
  | nil =>
      intro s
      simp [mass]
  | cons c cells ih =>
      intro s
      rw [List.foldl_cons, ih (s.add c)]
      simp only [mass_cons, Sums.add, Sums.mk.injEq, homeWins, awayWins, isDraw, isOver25,
        isBtts, decide_eq_true_eq]
      refine ⟨?_, ?_, ?_, ?_, ?_⟩
      · split_ifs <;> ring
      · rcases lt_trichotomy c.homeGoals c.awayGoals with h | h | h
        · simp [h, h.not_gt, h.ne]
        · simp [h, add_assoc]
        · simp [h, h.ne']
      · rcases lt_trichotomy c.homeGoals c.awayGoals with h | h | h
        · simp [h, h.not_gt, add_assoc]
        · simp [h]
        · simp [h, h.not_gt]
      · split_ifs <;> ring
      · split_ifs <;> ring

/-- Every score is a home win, a draw or an away win. -/
theorem mass_outcomes (cells : List (Cell R)) :
    mass homeWins cells + mass isDraw cells + mass awayWins cells = mass anyScore cells := by
  induction cells with
  | nil => simp [mass]
  | cons c cells ih =>
      have hcell : ((if homeWins c.homeGoals c.awayGoals = true then c.probability else 0) +
          (if isDraw c.homeGoals c.awayGoals = true then c.probability else 0) +
          (if awayWins c.homeGoals c.awayGoals = true then c.probability else 0) : R) =
          if anyScore c.homeGoals c.awayGoals = true then c.probability else 0 := by
        rcases lt_trichotomy c.homeGoals c.awayGoals with h | h | h
        · simp [homeWins, isDraw, awayWins, anyScore, h, h.not_gt, h.ne]
        · simp [homeWins, isDraw, awayWins, anyScore, h]
        · simp [homeWins, isDraw, awayWins, anyScore, h, h.not_gt, h.ne']
      simp only [mass_cons]
      rw [← ih, ← hcell]
      ring

theorem mem_scoreMatrix [PyMath R] {a b : R} {c : Cell R} :
    c ∈ scoreMatrix a b ↔ ∃ home away : ℕ, home ≤ MAX_GOALS ∧ away ≤ MAX_GOALS ∧
      c = ⟨home, away, pmf a home * pmf b away⟩ := by
  simp only [scoreMatrix, List.mem_flatMap, List.mem_map, List.mem_range, Nat.lt_succ_iff]
  constructor
  · rintro ⟨home, hhome, away, haway, rfl⟩
    exact ⟨home, away, hhome, haway, rfl⟩
  · rintro ⟨home, away, hhome, haway, rfl⟩
    exact ⟨home, hhome, away, haway, rfl⟩

/-- The divisor of `score_probabilities`. -/
def total [PyMath R] (a b : R) : R :=
  let sums := (scoreMatrix a b).foldl Sums.add .zero
  sums.probHome + sums.probDraw + sums.probAway

theorem total_eq_mass [PyMath R] (a b : R) : total a b = mass anyScore (scoreMatrix a b) := by
  simp only [total, foldl_sums, Sums.zero, zero_add, mass_outcomes]

variable [LinearOrder R] [IsStrictOrderedRing R]

theorem mass_nonneg {p : ℕ → ℕ → Bool} {cells : List (Cell R)}
    (hcells : ∀ c ∈ cells, 0 ≤ c.probability) : 0 ≤ mass p cells := by
  unfold mass
  refine List.sum_nonneg fun x hx => ?_
  obtain ⟨c, hc, rfl⟩ := List.mem_map.mp hx
  exact hcells c (List.mem_of_mem_filter hc)

/-- A larger event has at least the mass. -/
theorem mass_mono {p q : ℕ → ℕ → Bool} {cells : List (Cell R)}
    (hcells : ∀ c ∈ cells, 0 ≤ c.probability)
    (hpq : ∀ home away, p home away = true → q home away = true) :
    mass p cells ≤ mass q cells := by
  induction cells with
  | nil => exact le_rfl
  | cons c cells ih =>
      rw [mass_cons, mass_cons]
      have hrest := ih fun c' hc' => hcells c' (List.mem_cons_of_mem _ hc')
      have hnonneg := hcells c List.mem_cons_self
      by_cases hp : p c.homeGoals c.awayGoals = true
      · rw [if_pos hp, if_pos (hpq _ _ hp)]
        linarith
      · rw [if_neg hp]
        by_cases hq : q c.homeGoals c.awayGoals = true
        · rw [if_pos hq]
          linarith
        · rw [if_neg hq]
          linarith

/-- A single cell is part of the whole mass. -/
theorem le_mass_of_mem {cells : List (Cell R)} (hcells : ∀ c ∈ cells, 0 ≤ c.probability)
    {c : Cell R} (hc : c ∈ cells) : c.probability ≤ mass anyScore cells := by
  have hmem : c.probability ∈ (cells.filter fun c => anyScore c.homeGoals c.awayGoals).map
      Cell.probability := List.mem_map_of_mem (List.mem_filter.mpr ⟨hc, rfl⟩)
  refine List.single_le_sum (fun x hx => ?_) _ hmem
  obtain ⟨c', hc', rfl⟩ := List.mem_map.mp hx
  exact hcells c' (List.mem_of_mem_filter hc')

end Mass

/-! ## The reported probabilities -/

/-- The probabilities of a row: three outcomes that share the whole mass, and
two more events. -/
structure IsDistribution {R : Type} [Field R] [LinearOrder R] (p : ScoreProbabilities R) :
    Prop where
  home : 0 ≤ p.probHome
  draw : 0 ≤ p.probDraw
  away : 0 ≤ p.probAway
  sums_to_one : p.probHome + p.probDraw + p.probAway = 1
  over25 : 0 ≤ p.over25 ∧ p.over25 ≤ 1
  btts : 0 ≤ p.btts ∧ p.btts ≤ 1

section

variable {R : Type} [Field R] [LinearOrder R] [FloorRing R] [PyMath R]

/-- Each probability is the mass of its event relative to the whole matrix. -/
theorem scoreProbabilities_mass (a b : R) :
    (scoreProbabilities a b).probHome =
        mass homeWins (scoreMatrix a b) / mass anyScore (scoreMatrix a b) ∧
      (scoreProbabilities a b).probDraw =
        mass isDraw (scoreMatrix a b) / mass anyScore (scoreMatrix a b) ∧
      (scoreProbabilities a b).probAway =
        mass awayWins (scoreMatrix a b) / mass anyScore (scoreMatrix a b) ∧
      (scoreProbabilities a b).over25 =
        mass isOver25 (scoreMatrix a b) / mass anyScore (scoreMatrix a b) ∧
      (scoreProbabilities a b).btts =
        mass isBtts (scoreMatrix a b) / mass anyScore (scoreMatrix a b) := by
  simp only [scoreProbabilities, foldl_sums, Sums.zero, zero_add, mass_outcomes, and_self]

variable [IsStrictOrderedRing R]

theorem scoreProbabilities_isDistribution {a b : R}
    (hcells : ∀ c ∈ scoreMatrix a b, 0 ≤ c.probability)
    (htotal : 0 < mass anyScore (scoreMatrix a b)) :
    IsDistribution (scoreProbabilities a b) := by
  obtain ⟨hhome, hdraw, haway, hover, hbtts⟩ := scoreProbabilities_mass a b
  have hpart : ∀ p : ℕ → ℕ → Bool, 0 ≤ mass p (scoreMatrix a b) / mass anyScore (scoreMatrix a b) ∧
      mass p (scoreMatrix a b) / mass anyScore (scoreMatrix a b) ≤ 1 := by
    intro p
    refine ⟨div_nonneg (mass_nonneg hcells) htotal.le, ?_⟩
    rw [div_le_one htotal]
    exact mass_mono hcells fun _ _ _ => rfl
  exact {
    home := hhome ▸ (hpart homeWins).1
    draw := hdraw ▸ (hpart isDraw).1
    away := haway ▸ (hpart awayWins).1
    sums_to_one := by
      rw [hhome, hdraw, haway, ← add_div, ← add_div, mass_outcomes, div_self htotal.ne']
    over25 := hover ▸ hpart isOver25
    btts := hbtts ▸ hpart isBtts }

end

/-! ## Over the reals -/

theorem pmf_nonneg {rate : ℝ} (h : 0 ≤ rate) (goals : ℕ) : 0 ≤ pmf rate goals := by
  unfold pmf
  have hexp : 0 < PyMath.exp (-rate) := Real.exp_pos (-rate)
  positivity

theorem pmf_zero_pos (rate : ℝ) : 0 < pmf rate 0 := by
  have hexp : 0 < PyMath.exp (-rate) := Real.exp_pos (-rate)
  simpa [pmf] using hexp

theorem scoreMatrix_nonneg {a b : ℝ} (ha : 0 ≤ a) (hb : 0 ≤ b) :
    ∀ c ∈ scoreMatrix a b, 0 ≤ c.probability := by
  intro c hc
  obtain ⟨home, away, -, -, rfl⟩ := mem_scoreMatrix.mp hc
  exact mul_nonneg (pmf_nonneg ha home) (pmf_nonneg hb away)

/-- Nobody scoring has positive probability at any rates. -/
theorem scoreMatrix_mass_pos {a b : ℝ} (ha : 0 ≤ a) (hb : 0 ≤ b) :
    0 < mass anyScore (scoreMatrix a b) := by
  have hgoalless : (⟨0, 0, pmf a 0 * pmf b 0⟩ : Cell ℝ) ∈ scoreMatrix a b :=
    mem_scoreMatrix.mpr ⟨0, 0, by decide, by decide, rfl⟩
  have hle := le_mass_of_mem (scoreMatrix_nonneg ha hb) hgoalless
  have hpos : 0 < pmf a 0 * pmf b 0 := mul_pos (pmf_zero_pos a) (pmf_zero_pos b)
  exact hpos.trans_le hle

theorem isDistribution_of_rates {a b : ℝ} (ha : 0 ≤ a) (hb : 0 ≤ b) :
    IsDistribution (scoreProbabilities a b) :=
  scoreProbabilities_isDistribution (scoreMatrix_nonneg ha hb) (scoreMatrix_mass_pos ha hb)

end AGame.Engine.Poisson
