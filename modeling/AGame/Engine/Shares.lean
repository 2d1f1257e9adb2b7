import AGame.Engine.Probabilities

/-!
# The score matrix without its exponentials

Every cell of the matrix has the factor `exp (-λ_home) * exp (-λ_away)`, which
the normalisation cancels. A reported probability is the share of its event in
the matrix of `rate ^ goals / goals!` alone, so how the probabilities compare is
a question about polynomials in the two rates.

Transposing the matrix exchanges the sides, and of two transposed cells the one
with more goals for the higher rate is the larger. Hence the favourite is the
side with the higher rate (`favourite_has_higher_rate`).
-/

namespace AGame.Engine.Poisson

open Base Finset

/-! ## Sums over the matrix -/

section Mass

variable {R : Type} [Field R]

theorem mass_append (p : ℕ → ℕ → Bool) (cells cells' : List (Cell R)) :
    mass p (cells ++ cells') = mass p cells + mass p cells' := by
  simp only [mass, List.filter_append, List.map_append, List.sum_append]

theorem mass_flatMap {α : Type} (p : ℕ → ℕ → Bool) (l : List α) (f : α → List (Cell R)) :
    mass p (l.flatMap f) = (l.map fun a => mass p (f a)).sum := by
  induction l with
  | nil => simp [mass]
  | cons a l ih => rw [List.flatMap_cons, mass_append, ih, List.map_cons, List.sum_cons]

theorem mass_map {α : Type} (p : ℕ → ℕ → Bool) (l : List α) (f : α → Cell R) :
    mass p (l.map f) = (l.map fun a =>
      if p (f a).homeGoals (f a).awayGoals = true then (f a).probability else 0).sum := by
  induction l with
  | nil => simp [mass]
  | cons a l ih => rw [List.map_cons, mass_cons, ih, List.map_cons, List.sum_cons]

/-- The goal counts of the matrix. -/
def goalCounts : Finset ℕ := range (MAX_GOALS + 1)

theorem mem_goalCounts {goals : ℕ} : goals ∈ goalCounts ↔ goals ≤ MAX_GOALS := by
  rw [goalCounts, mem_range, Nat.lt_succ_iff]

theorem mass_scoreMatrix [PyMath R] (p : ℕ → ℕ → Bool) (a b : R) :
    mass p (scoreMatrix a b) = ∑ home ∈ goalCounts, ∑ away ∈ goalCounts,
      if p home away = true then pmf a home * pmf b away else 0 := by
  unfold scoreMatrix
  rw [mass_flatMap]
  simp only [mass_map]
  rfl

/-- The Poisson probability of a goal count up to the factor `exp (-rate)`. -/
def term (rate : R) (goals : ℕ) : R := rate ^ goals / (goals.factorial : R)

@[simp] theorem term_zero (rate : R) : term rate 0 = 1 := by
  simp [term]

@[simp] theorem term_one (rate : R) : term rate 1 = rate := by
  simp [term]

/-- The sum of an event's cells, the exponentials left out. -/
def eventSum (p : ℕ → ℕ → Bool) (a b : R) : R :=
  ∑ home ∈ goalCounts, ∑ away ∈ goalCounts,
    if p home away = true then term a home * term b away else 0

/-- The share of an event in the whole matrix. -/
def share (p : ℕ → ℕ → Bool) (a b : R) : R := eventSum p a b / eventSum anyScore a b

theorem pmf_eq_term [PyMath R] (rate : R) (goals : ℕ) :
    pmf rate goals = PyMath.exp (-rate) * term rate goals := by
  rw [pmf, term, mul_div_assoc]

theorem mass_eq_eventSum [PyMath R] (p : ℕ → ℕ → Bool) (a b : R) :
    mass p (scoreMatrix a b) =
      PyMath.exp (-a) * PyMath.exp (-b) * eventSum p a b := by
  rw [mass_scoreMatrix, eventSum, mul_sum]
  refine sum_congr rfl fun home _ => ?_
  rw [mul_sum]
  refine sum_congr rfl fun away _ => ?_
  rw [pmf_eq_term, pmf_eq_term]
  split_ifs
  · ring
  · rw [mul_zero]

/-- At rational rates the shares are rational. -/
theorem share_ratCast [CharZero R] (p : ℕ → ℕ → Bool) (a b : ℚ) :
    share p (a : R) (b : R) = ((share p a b : ℚ) : R) := by
  simp only [share, eventSum, term, Rat.cast_div, Rat.cast_sum, apply_ite (Rat.cast : ℚ → R),
    Rat.cast_mul, Rat.cast_pow, Rat.cast_natCast, Rat.cast_zero]

/-- The whole matrix is a product of its margins. -/
theorem eventSum_anyScore (a b : R) :
    eventSum anyScore a b =
      (∑ home ∈ goalCounts, term a home) * ∑ away ∈ goalCounts, term b away := by
  rw [sum_mul_sum]
  rfl

/-- Transposing the matrix. -/
theorem eventSum_swap (p : ℕ → ℕ → Bool) (a b : R) :
    eventSum (fun home away => p away home) b a = eventSum p a b := by
  unfold eventSum
  rw [sum_comm]
  refine sum_congr rfl fun home _ => sum_congr rfl fun away _ => ?_
  rw [mul_comm]

theorem share_swap (p : ℕ → ℕ → Bool) (a b : R) :
    share (fun home away => p away home) b a = share p a b := by
  have htotal : eventSum anyScore b a = eventSum anyScore a b := eventSum_swap anyScore a b
  rw [share, share, eventSum_swap, htotal]

end Mass

/-! ### The five events, transposed -/

theorem homeWins_swap : (fun home away => homeWins away home) = awayWins := rfl

theorem awayWins_swap : (fun home away => awayWins away home) = homeWins := rfl

theorem isDraw_swap : (fun home away => isDraw away home) = isDraw := by
  ext home away
  simp only [isDraw, decide_eq_decide]
  exact eq_comm

theorem isOver25_swap : (fun home away => isOver25 away home) = isOver25 := by
  ext home away
  simp only [isOver25, Nat.add_comm]

theorem isBtts_swap : (fun home away => isBtts away home) = isBtts := by
  ext home away
  simp only [isBtts, and_comm]

/-- Every reported probability is the share of its event. -/
theorem scoreProbabilities_share (a b : ℝ) :
    (scoreProbabilities a b).probHome = share homeWins a b ∧
      (scoreProbabilities a b).probDraw = share isDraw a b ∧
      (scoreProbabilities a b).probAway = share awayWins a b ∧
      (scoreProbabilities a b).over25 = share isOver25 a b ∧
      (scoreProbabilities a b).btts = share isBtts a b := by
  have hratio : ∀ p, mass p (scoreMatrix a b) / mass anyScore (scoreMatrix a b) =
      share p a b := by
    intro p
    have hexp : PyMath.exp (-a) * PyMath.exp (-b) ≠ 0 :=
      (mul_pos (Real.exp_pos (-a)) (Real.exp_pos (-b))).ne'
    rw [mass_eq_eventSum, mass_eq_eventSum, mul_div_mul_left _ _ hexp]
    rfl
  simp only [scoreProbabilities_mass, hratio, and_self]

/-- **No side bias**: with the rates exchanged the sides are exchanged. -/
theorem scoreProbabilities_swap (a b : ℝ) :
    (scoreProbabilities b a).probHome = (scoreProbabilities a b).probAway ∧
      (scoreProbabilities b a).probAway = (scoreProbabilities a b).probHome ∧
      (scoreProbabilities b a).probDraw = (scoreProbabilities a b).probDraw ∧
      (scoreProbabilities b a).over25 = (scoreProbabilities a b).over25 ∧
      (scoreProbabilities b a).btts = (scoreProbabilities a b).btts := by
  obtain ⟨hhome, hdraw, haway, hover, hbtts⟩ := scoreProbabilities_share a b
  obtain ⟨hhome', hdraw', haway', hover', hbtts'⟩ := scoreProbabilities_share b a
  refine ⟨?_, ?_, ?_, ?_, ?_⟩
  · rw [hhome', haway, ← share_swap awayWins a b, awayWins_swap]
  · rw [haway', hhome, ← share_swap homeWins a b, homeWins_swap]
  · rw [hdraw', hdraw, ← share_swap isDraw a b, isDraw_swap]
  · rw [hover', hover, ← share_swap isOver25 a b, isOver25_swap]
  · rw [hbtts', hbtts, ← share_swap isBtts a b, isBtts_swap]

/-! ## Two transposed cells -/

section Order

variable {R : Type} [Field R] [LinearOrder R] [IsStrictOrderedRing R]

theorem term_nonneg {rate : R} (h : 0 ≤ rate) (goals : ℕ) : 0 ≤ term rate goals := by
  unfold term
  positivity

/-- The total of a side is at least the term of no goals. -/
theorem one_le_sum_term {rate : R} (h : 0 ≤ rate) : 1 ≤ ∑ goals ∈ goalCounts, term rate goals := by
  rw [← term_zero rate]
  exact single_le_sum (fun goals _ => term_nonneg h goals) (mem_goalCounts.mpr (Nat.zero_le _))

theorem eventSum_anyScore_pos {a b : R} (ha : 0 ≤ a) (hb : 0 ≤ b) : 0 < eventSum anyScore a b := by
  rw [eventSum_anyScore]
  have hhome := one_le_sum_term ha
  have haway := one_le_sum_term hb
  positivity

/-- More goals for the higher rate weigh more than the same goals exchanged. -/
theorem term_mul_le {low high : R} (h0 : 0 ≤ low) (hle : low ≤ high) {few many : ℕ}
    (hfew : few ≤ many) : term low many * term high few ≤ term high many * term low few := by
  have hpowers : low ^ many * high ^ few ≤ high ^ many * low ^ few := by
    obtain ⟨more, rfl⟩ := Nat.exists_eq_add_of_le hfew
    have hhigh : 0 ≤ high := h0.trans hle
    calc low ^ (few + more) * high ^ few
        = (low ^ few * high ^ few) * low ^ more := by ring
      _ ≤ (low ^ few * high ^ few) * high ^ more := by gcongr
      _ = high ^ (few + more) * low ^ few := by ring
  simp only [term, div_mul_div_comm]
  gcongr

/-- With the higher rate at home, the cells of a home win outweigh those of an
away win: pair every cell with its transpose. -/
theorem awaySum_lt_homeSum {a b : R} (hb : 0 ≤ b) (h : b < a) :
    eventSum awayWins a b < eventSum homeWins a b := by
  rw [← eventSum_swap awayWins a b, awayWins_swap]
  have hcell : ∀ home away, (if homeWins home away = true then term b home * term a away else 0) ≤
      if homeWins home away = true then term a home * term b away else 0 := by
    intro home away
    split_ifs with hwin
    · exact term_mul_le hb h.le (of_decide_eq_true hwin).le
    · exact le_rfl
  have hzero : 0 ∈ goalCounts := mem_goalCounts.mpr (by decide)
  have hone : 1 ∈ goalCounts := mem_goalCounts.mpr (by decide)
  apply sum_lt_sum (fun home _ => sum_le_sum fun away _ => hcell home away)
  refine ⟨1, hone, sum_lt_sum (fun away _ => hcell 1 away) ⟨0, hzero, ?_⟩⟩
  simpa [homeWins] using h

end Order

theorem probAway_lt_probHome {a b : ℝ} (hb : 0 ≤ b) (h : b < a) :
    (scoreProbabilities a b).probAway < (scoreProbabilities a b).probHome := by
  obtain ⟨hhome, -, haway, -⟩ := scoreProbabilities_share a b
  rw [hhome, haway, share, share]
  have htotal := eventSum_anyScore_pos (hb.trans h.le) hb
  exact div_lt_div_of_pos_right (awaySum_lt_homeSum hb h) htotal

theorem compare_outcomes {a b : ℝ} (ha : 0 ≤ a) (hb : 0 ≤ b) :
    ((scoreProbabilities a b).probAway < (scoreProbabilities a b).probHome ↔ b < a) ∧
      ((scoreProbabilities a b).probHome = (scoreProbabilities a b).probAway ↔ a = b) ∧
      ((scoreProbabilities a b).probHome < (scoreProbabilities a b).probAway ↔ a < b) := by
  obtain ⟨hhome, haway, -⟩ := scoreProbabilities_swap a b
  rcases lt_trichotomy a b with h | rfl | h
  · have hlt := probAway_lt_probHome ha h
    rw [hhome, haway] at hlt
    simp only [hlt, hlt.not_gt, hlt.ne, h, h.not_gt, h.ne, and_self]
  · simp only [hhome, lt_self_iff_false, and_self]
  · have hlt := probAway_lt_probHome hb h
    simp only [hlt, hlt.not_gt, hlt.ne', h, h.not_gt, h.ne', and_self]

/-- **The favourite is the side with the higher rate**, and the two sides are
treated alike. -/
theorem favourite_has_higher_rate (a b : ℝ) (ha : 0 ≤ a) (hb : 0 ≤ b) :
    ((scoreProbabilities a b).probAway < (scoreProbabilities a b).probHome ↔ b < a) ∧
    ((scoreProbabilities a b).probHome = (scoreProbabilities a b).probAway ↔ a = b) ∧
    ((scoreProbabilities a b).probHome < (scoreProbabilities a b).probAway ↔ a < b) ∧
    (scoreProbabilities b a).probHome = (scoreProbabilities a b).probAway ∧
    (scoreProbabilities b a).probAway = (scoreProbabilities a b).probHome ∧
    (scoreProbabilities b a).probDraw = (scoreProbabilities a b).probDraw ∧
    (scoreProbabilities b a).over25 = (scoreProbabilities a b).over25 ∧
    (scoreProbabilities b a).btts = (scoreProbabilities a b).btts := by
  obtain ⟨hhome, heven, haway⟩ := compare_outcomes ha hb
  exact ⟨hhome, heven, haway, scoreProbabilities_swap a b⟩

/-- Three to one at home, and a rate far beyond the matrix. -/
theorem favourites_three_to_one :
    (scoreProbabilities (3 : ℝ) 1).probAway < (scoreProbabilities (3 : ℝ) 1).probHome ∧
      (scoreProbabilities (1 : ℝ) 1000).probHome < (scoreProbabilities (1 : ℝ) 1000).probAway :=
  ⟨(favourite_has_higher_rate 3 1 (by norm_num) (by norm_num)).1.mpr (by norm_num),
    (favourite_has_higher_rate 1 1000 (by norm_num) (by norm_num)).2.2.1.mpr (by norm_num)⟩

end AGame.Engine.Poisson
