import AGame.Brain.Db
import AGame.Engine.RateError

/-!
# Regenerating a prediction from its stored rates

The comment on the two rates of `a_game.prediction` says that they regenerate
the whole matrix exactly. But the rates are rounded like the probabilities, so
the matrix that is built again is that of the rounded rates. In terms of the rates
a rounding boundary is the curve where the share of an event is half a unit after a
whole number of ten-thousandths. A prediction is regenerated, in whatever arithmetic,
when no boundary is as near as the rounding of the rates and of the arithmetic reaches;
it is not, where a boundary lies between the shares of the two pairs
(`regenerates_of_clear`).
-/

namespace AGame.Brain

open Base Engine.Poisson

/-! ## The stored probabilities -/

/-- The columns of a probability. -/
inductive Column where
  | probHome
  | probDraw
  | probAway
  | over25
  | btts
deriving DecidableEq, Repr

namespace Column

/-- The scores that a column counts. -/
def event : Column → ℕ → ℕ → Bool
  | probHome => homeWins
  | probDraw => isDraw
  | probAway => awayWins
  | over25 => isOver25
  | btts => isBtts

def reported (p : ScoreProbabilities ℝ) : Column → ℝ
  | probHome => p.probHome
  | probDraw => p.probDraw
  | probAway => p.probAway
  | over25 => p.over25
  | btts => p.btts

def stored (row : PredictionValues) : Column → ℤ
  | probHome => row.probHome
  | probDraw => row.probDraw
  | probAway => row.probAway
  | over25 => row.over25
  | btts => row.btts

theorem reported_eq_share (column : Column) (a b : ℝ) :
    column.reported (scoreProbabilities a b) = share column.event a b := by
  obtain ⟨hhome, hdraw, haway, hover, hbtts⟩ := scoreProbabilities_share a b
  cases column with
  | probHome => exact hhome
  | probDraw => exact hdraw
  | probAway => exact haway
  | over25 => exact hover
  | btts => exact hbtts

theorem stored_predictionValues (column : Column) (p : ScoreProbabilities ℝ)
    (eloHome eloAway : ℝ) :
    column.stored (predictionValues p eloHome eloAway) = roundDecimal 4 (column.reported p) := by
  cases column <;> rfl

end Column

/-! ## Regeneration -/

/-- An arithmetic to compute `score_probabilities` in, as that of the floats. -/
structure Arithmetic where
  /-- The number that a decimal is read as. -/
  read : ℝ → ℝ
  scoreProbabilities : ℝ → ℝ → ScoreProbabilities ℝ
  read_nonneg : ∀ x, 0 ≤ x → 0 ≤ read x
  /-- The rates are handed through. -/
  lambdaHome : ∀ a b, (scoreProbabilities a b).lambdaHome = a
  lambdaAway : ∀ a b, (scoreProbabilities a b).lambdaAway = b

/-- The arithmetic of the reals. -/
noncomputable def Arithmetic.exact : Arithmetic where
  read := id
  scoreProbabilities := Engine.Poisson.scoreProbabilities
  read_nonneg := fun _ h => h
  lambdaHome := fun _ _ => rfl
  lambdaAway := fun _ _ => rfl

/-- A `NUMERIC(6,4)` as the number it stands for. -/
noncomputable def storedRate (n : ℤ) : ℝ := (n : ℝ) / (10 ^ 4 : ℕ)

namespace Arithmetic

variable (arith : Arithmetic)

/-- Every probability of the two rates is computed to within `ε`. -/
def Within (ε a b : ℝ) : Prop :=
  ∀ column : Column, |column.reported (arith.scoreProbabilities a b) -
    column.reported (Engine.Poisson.scoreProbabilities a b)| ≤ ε

/-- The rate that comes back from the table. -/
noncomputable def reread (rate : ℝ) : ℝ := arith.read (storedRate (roundDecimal 4 rate))

/-- What `score_probabilities` gives for the stored rates. -/
noncomputable def regenerated (row : PredictionValues) : ScoreProbabilities ℝ :=
  arith.scoreProbabilities (arith.read (storedRate row.lambdaHome))
    (arith.read (storedRate row.lambdaAway))

/-- The stored rates give the five stored probabilities again. -/
def Regenerates (row : PredictionValues) : Prop :=
  ∀ column : Column, roundDecimal 4 (column.reported (arith.regenerated row)) = column.stored row

end Arithmetic

/-! ## The rounding boundaries -/

section

variable {R : Type} [Field R] [LinearOrder R]

/-- The share of the event at these rates is further than `reach` from half a unit after any
number of ten-thousandths. -/
def Clear (p : ℕ → ℕ → Bool) (reach a b : R) : Prop :=
  ∀ n : ℤ, reach * ((20000 : ℕ) * eventSum anyScore a b) <
    |(20000 : ℕ) * eventSum p a b - (2 * n + 1 : ℤ) * eventSum anyScore a b|

/-- The share of the event is more than `ε` below half a unit after `n` ten-thousandths. -/
def Short (p : ℕ → ℕ → Bool) (n : ℤ) (ε a b : R) : Prop :=
  (20000 : ℕ) * eventSum p a b + ε * ((20000 : ℕ) * eventSum anyScore a b) <
    (2 * n + 1 : ℤ) * eventSum anyScore a b

/-- The share of the event is more than `ε` beyond half a unit after `n` ten-thousandths. -/
def Beyond (p : ℕ → ℕ → Bool) (n : ℤ) (ε a b : R) : Prop :=
  (2 * n + 1 : ℤ) * eventSum anyScore a b + ε * ((20000 : ℕ) * eventSum anyScore a b) <
    (20000 : ℕ) * eventSum p a b

end

section

variable {p : ℕ → ℕ → Bool} {n : ℤ} {ε a b : ℝ}

theorem clear_iff (ha : 0 ≤ a) (hb : 0 ≤ b) : Clear p ε a b ↔
    ∀ n : ℤ, ε < |share p a b - (2 * n + 1) / (2 * 10 ^ 4)| := by
  have htotal := eventSum_anyScore_pos ha hb
  have hscale : 0 < 20000 * eventSum anyScore a b := by positivity
  refine forall_congr' fun n => ?_
  push_cast
  have hsame : 20000 * eventSum p a b - (2 * n + 1) * eventSum anyScore a b =
      (share p a b - (2 * n + 1) / (2 * 10 ^ 4)) * (20000 * eventSum anyScore a b) := by
    rw [share]
    field_simp
    ring
  rw [hsame, abs_mul, abs_of_pos hscale, mul_lt_mul_iff_left₀ hscale]

theorem short_iff (ha : 0 ≤ a) (hb : 0 ≤ b) :
    Short p n ε a b ↔ (share p a b + ε) * 20000 < 2 * n + 1 := by
  have htotal := eventSum_anyScore_pos ha hb
  have hevent : eventSum p a b = share p a b * eventSum anyScore a b :=
    (div_mul_cancel₀ _ htotal.ne').symm
  rw [← mul_lt_mul_iff_left₀ htotal, Short, hevent]
  push_cast
  constructor
  · intro h
    linarith
  · intro h
    linarith

theorem beyond_iff (ha : 0 ≤ a) (hb : 0 ≤ b) :
    Beyond p n ε a b ↔ 2 * n + 1 < (share p a b - ε) * 20000 := by
  have htotal := eventSum_anyScore_pos ha hb
  have hevent : eventSum p a b = share p a b * eventSum anyScore a b :=
    (div_mul_cancel₀ _ htotal.ne').symm
  rw [← mul_lt_mul_iff_left₀ htotal, Beyond, hevent]
  push_cast
  constructor
  · intro h
    linarith
  · intro h
    linarith

/-- What is short of a boundary and what is beyond it round differently. -/
theorem roundDecimal_lt_of_boundary {a' b' : ℝ} (ha : 0 ≤ a) (hb : 0 ≤ b) (ha' : 0 ≤ a')
    (hb' : 0 ≤ b') (hshort : Short p n ε a b) (hbeyond : Beyond p n ε a' b') {x y : ℝ}
    (hx : |x - share p a b| ≤ ε) (hy : |y - share p a' b'| ≤ ε) :
    roundDecimal 4 x < roundDecimal 4 y := by
  rw [short_iff ha hb] at hshort
  rw [beyond_iff ha' hb'] at hbeyond
  have hxle := (abs_le.mp hx).2
  have hyle := (abs_le.mp hy).1
  have hlow : ¬ n < roundDecimal 4 x := by
    rw [roundDecimal_eq, lt_roundHalfEven_iff]
    rintro (h | ⟨h, -⟩)
    · linarith
    · linarith
  have hhigh : n < roundDecimal 4 y := by
    rw [roundDecimal_eq, lt_roundHalfEven_iff]
    left
    linarith
  omega

end

/-! ## Stored rates -/

theorem storedRate_nonneg {rate : ℝ} (h : 0 ≤ rate) : 0 ≤ storedRate (roundDecimal 4 rate) := by
  have hrounded : 0 ≤ roundDecimal 4 rate := roundDecimal_nonneg h
  unfold storedRate
  positivity

section

variable {arith : Arithmetic} {ε a b : ℝ} {eloHome eloAway : ℝ}

theorem reread_nonneg (arith : Arithmetic) (h : 0 ≤ a) : 0 ≤ arith.reread a :=
  arith.read_nonneg _ (storedRate_nonneg h)

theorem regenerated_predictionValues :
    arith.regenerated (predictionValues (arith.scoreProbabilities a b) eloHome eloAway) =
      arith.scoreProbabilities (arith.reread a) (arith.reread b) := by
  simp only [Arithmetic.regenerated, predictionValues, arith.lambdaHome, arith.lambdaAway,
    Arithmetic.reread]

/-- The probabilities of the rates and those of the rates read back are near to one share. -/
theorem Arithmetic.Within.near (ha : 0 ≤ a) (hb : 0 ≤ b) (hε : arith.Within ε a b)
    (hε' : arith.Within ε (arith.reread a) (arith.reread b)) (column : Column) :
    |column.reported (arith.scoreProbabilities a b) - share column.event a b| ≤
        |arith.reread a - a| + |arith.reread b - b| + ε ∧
      |column.reported (arith.scoreProbabilities (arith.reread a) (arith.reread b)) -
        share column.event a b| ≤ |arith.reread a - a| + |arith.reread b - b| + ε := by
  have hhere := hε column
  have hthere := hε' column
  rw [column.reported_eq_share] at hhere hthere
  have hmoved := abs_share_sub_le column.event ha (reread_nonneg arith ha) hb
    (reread_nonneg arith hb)
  constructor
  · have hreach := add_nonneg (abs_nonneg (arith.reread a - a)) (abs_nonneg (arith.reread b - b))
    linarith
  · have hsplit := abs_sub_le
      (column.reported (arith.scoreProbabilities (arith.reread a) (arith.reread b)))
      (share column.event (arith.reread a) (arith.reread b)) (share column.event a b)
    linarith

/-- **When the stored rates regenerate the stored probabilities**: when both rates are read
back as they were, or no rounding boundary of the five events is as near as the two rates
have moved and the arithmetic errs. They do not where a boundary lies between the two. -/
theorem regenerates_of_clear (arith : Arithmetic) (ε a b eloHome eloAway : ℝ) (ha : 0 ≤ a)
    (hb : 0 ≤ b) (hε : arith.Within ε a b)
    (hε' : arith.Within ε (arith.reread a) (arith.reread b)) :
    ((arith.reread a = a ∧ arith.reread b = b ∨ ∀ column : Column,
        Clear column.event (|arith.reread a - a| + |arith.reread b - b| + ε) a b) →
      arith.Regenerates (predictionValues (arith.scoreProbabilities a b) eloHome eloAway)) ∧
    ((∃ (column : Column) (n : ℤ),
        Short column.event n ε a b ∧ Beyond column.event n ε (arith.reread a) (arith.reread b) ∨
          Short column.event n ε (arith.reread a) (arith.reread b) ∧
            Beyond column.event n ε a b) →
      ¬ arith.Regenerates (predictionValues (arith.scoreProbabilities a b) eloHome eloAway)) := by
  constructor
  · intro h column
    rw [regenerated_predictionValues, column.stored_predictionValues]
    rcases h with ⟨hhome, haway⟩ | hclear
    · rw [hhome, haway]
    · obtain ⟨hhere, hthere⟩ := hε.near ha hb hε' column
      have hboundaries := (clear_iff ha hb).mp (hclear column)
      rw [roundDecimal_eq_of_clear hboundaries hthere, roundDecimal_eq_of_clear hboundaries hhere]
  · rintro ⟨column, n, hcrossed⟩ hsame
    have hequal := hsame column
    rw [regenerated_predictionValues, column.stored_predictionValues] at hequal
    have ha' := reread_nonneg arith ha
    have hb' := reread_nonneg arith hb
    have hhere := hε column
    have hthere := hε' column
    rw [column.reported_eq_share] at hhere hthere
    rcases hcrossed with ⟨hshort, hbeyond⟩ | ⟨hshort, hbeyond⟩
    · have hlt := roundDecimal_lt_of_boundary ha hb ha' hb' hshort hbeyond hhere hthere
      omega
    · have hlt := roundDecimal_lt_of_boundary ha' hb' ha hb hshort hbeyond hthere hhere
      omega

end

/-- At rational rates a reported value takes rational arithmetic only. -/
theorem roundDecimal_reported (column : Column) (a b : ℚ) :
    roundDecimal 4 (column.reported (scoreProbabilities (a : ℝ) (b : ℝ))) =
      roundDecimal 4 (share column.event a b) := by
  rw [column.reported_eq_share, share_ratCast, roundDecimal_ratCast]

/-- A share well between two boundaries that follow each other is clear of all. -/
theorem clear_of_between {p : ℕ → ℕ → Bool} {k : ℤ} {ε a b : ℝ} (ha : 0 ≤ a) (hb : 0 ≤ b)
    (hlow : (2 * k - 1) / (2 * 10 ^ 4) + ε < share p a b)
    (hhigh : share p a b + ε < (2 * k + 1) / (2 * 10 ^ 4)) : Clear p ε a b := by
  rw [clear_iff ha hb]
  intro n
  rw [lt_abs]
  rcases lt_or_ge n k with hlt | hge
  · left
    have hnext : (n : ℝ) + 1 ≤ k := by exact_mod_cast hlt
    linarith
  · right
    have hnext : (k : ℝ) ≤ n := by exact_mod_cast hge
    linarith

/-- At rational rates that too takes rational arithmetic only. -/
theorem clear_ratCast {p : ℕ → ℕ → Bool} {k : ℤ} {ε a b : ℚ} (ha : 0 ≤ a) (hb : 0 ≤ b)
    (hlow : (2 * k - 1) / (2 * 10 ^ 4) + ε < share p a b)
    (hhigh : share p a b + ε < (2 * k + 1) / (2 * 10 ^ 4)) : Clear p (ε : ℝ) (a : ℝ) (b : ℝ) := by
  refine clear_of_between (k := k) (Rat.cast_nonneg.mpr ha) (Rat.cast_nonneg.mpr hb) ?_ ?_
  · rw [share_ratCast]
    exact_mod_cast hlow
  · rw [share_ratCast]
    exact_mod_cast hhigh

theorem exact_within (a b : ℝ) {ε : ℝ} (hε : 0 ≤ ε) : Arithmetic.exact.Within ε a b := by
  intro column
  show |column.reported (scoreProbabilities a b) - column.reported (scoreProbabilities a b)| ≤ ε
  rwa [sub_self, abs_zero]

/-- A home rate of 1.80001 is stored as 1.8, and no boundary is near. -/
theorem hundred_thousandth_regenerates :
    Arithmetic.exact.Regenerates
      (predictionValues (Arithmetic.exact.scoreProbabilities 1.80001 1.2) 1500 1500) := by
  have hhome : Arithmetic.exact.reread 1.80001 = 1.8 := by
    show storedRate (roundDecimal 4 (1.80001 : ℝ)) = 1.8
    have hrounded : roundDecimal 4 (1.80001 : ℚ) = 18000 := by decide +kernel
    rw [show (1.80001 : ℝ) = ((1.80001 : ℚ) : ℝ) by norm_num, roundDecimal_ratCast, hrounded]
    norm_num [storedRate]
  have haway : Arithmetic.exact.reread 1.2 = 1.2 := by
    show storedRate (roundDecimal 4 (1.2 : ℝ)) = 1.2
    have hrounded : roundDecimal 4 (1.2 : ℚ) = 12000 := by decide +kernel
    rw [show (1.2 : ℝ) = ((1.2 : ℚ) : ℝ) by norm_num, roundDecimal_ratCast, hrounded]
    norm_num [storedRate]
  refine (regenerates_of_clear Arithmetic.exact (10 ^ (-12 : ℤ)) 1.80001 1.2 1500 1500 (by norm_num)
    (by norm_num) (exact_within _ _ (by positivity)) (exact_within _ _ (by positivity))).1 ?_
  right
  intro column
  rw [hhome, haway]
  have hreach : |(1.8 : ℝ) - 1.80001| + |(1.2 : ℝ) - 1.2| + 10 ^ (-12 : ℤ) =
      ((0.000010000001 : ℚ) : ℝ) := by
    rw [abs_of_neg (by norm_num), sub_self, abs_zero]
    norm_num
  have hrate : (1.80001 : ℝ) = ((1.80001 : ℚ) : ℝ) := by norm_num
  have hrate' : (1.2 : ℝ) = ((1.2 : ℚ) : ℝ) := by norm_num
  have hpos : (0 : ℚ) ≤ 1.80001 := by norm_num
  have hpos' : (0 : ℚ) ≤ 1.2 := by norm_num
  rw [hreach, hrate, hrate']
  cases column with
  | probHome => exact clear_ratCast (k := 5144) hpos hpos' (by decide +kernel) (by decide +kernel)
  | probDraw => exact clear_ratCast (k := 2314) hpos hpos' (by decide +kernel) (by decide +kernel)
  | probAway => exact clear_ratCast (k := 2542) hpos hpos' (by decide +kernel) (by decide +kernel)
  | over25 => exact clear_ratCast (k := 5768) hpos hpos' (by decide +kernel) (by decide +kernel)
  | btts => exact clear_ratCast (k := 5833) hpos hpos' (by decide +kernel) (by decide +kernel)

/-- A home rate of 1.50004 is stored as 1.5: the stored probability of a home win
is 0.4880, and that of the stored rates 0.4879. -/
theorem rounded_rate_regenerates_less :
    let row := predictionValues (Arithmetic.exact.scoreProbabilities 1.50004 1) 1500 1500
    row.lambdaHome = 15000 ∧ row.lambdaAway = 10000 ∧ row.probHome = 4880 ∧
      roundDecimal 4 (Arithmetic.exact.regenerated row).probHome = 4879 ∧
      ¬ Arithmetic.exact.Regenerates row := by
  intro row
  have hrate : (1.50004 : ℝ) = ((1.50004 : ℚ) : ℝ) := by norm_num
  have hone : (1 : ℝ) = ((1 : ℚ) : ℝ) := by norm_num
  have hhome : row.lambdaHome = 15000 := by
    show roundDecimal 4 (1.50004 : ℝ) = 15000
    rw [hrate, roundDecimal_ratCast]
    decide +kernel
  have haway : row.lambdaAway = 10000 := by
    show roundDecimal 4 (1 : ℝ) = 10000
    rw [hone, roundDecimal_ratCast]
    decide +kernel
  have hstored : row.probHome = 4880 := by
    show roundDecimal 4 (Column.probHome.reported (scoreProbabilities (1.50004 : ℝ) 1)) = 4880
    rw [hrate, hone, roundDecimal_reported]
    decide +kernel
  have hagain : roundDecimal 4 (Arithmetic.exact.regenerated row).probHome = 4879 := by
    have hhome' : storedRate 15000 = ((1.5 : ℚ) : ℝ) := by norm_num [storedRate]
    have haway' : storedRate 10000 = ((1 : ℚ) : ℝ) := by norm_num [storedRate]
    show roundDecimal 4 (Column.probHome.reported
      (scoreProbabilities (storedRate row.lambdaHome) (storedRate row.lambdaAway))) = 4879
    rw [hhome, haway, hhome', haway', roundDecimal_reported]
    decide +kernel
  refine ⟨hhome, haway, hstored, hagain, fun h => ?_⟩
  have hequal : roundDecimal 4 (Arithmetic.exact.regenerated row).probHome = row.probHome :=
    h .probHome
  omega

end AGame.Brain
