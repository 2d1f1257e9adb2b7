import Mathlib

/-!
# Rounding to a fixed number of decimals, ties to even

`round(x, d)` of an exact number. The result is kept as the whole number of
units in the last place, so that rounded values are compared, summed and
stored without leaving the integers.
-/

namespace Base

variable {R : Type*} [Field R] [LinearOrder R] [FloorRing R]

/-- The nearest integer; a tie goes to the even neighbour. -/
def roundHalfEven (x : R) : ℤ :=
  if x - ⌊x⌋ < ⌊x⌋ + 1 - x then ⌊x⌋
  else if ⌊x⌋ + 1 - x < x - ⌊x⌋ then ⌊x⌋ + 1
  else if ⌊x⌋ % 2 = 0 then ⌊x⌋ else ⌊x⌋ + 1

/-- `round(x, d)`, in units of `10⁻ᵈ`. -/
def roundDecimal (d : ℕ) (x : R) : ℤ := roundHalfEven (x * (10 ^ d : ℕ))

theorem roundDecimal_eq (d : ℕ) (x : R) : roundDecimal d x = roundHalfEven (x * 10 ^ d) := by
  rw [roundDecimal, Nat.cast_pow, Nat.cast_ofNat]

theorem floor_le_roundHalfEven (x : R) : ⌊x⌋ ≤ roundHalfEven x := by
  unfold roundHalfEven
  split_ifs <;> omega

theorem roundHalfEven_le_floor_add_one (x : R) : roundHalfEven x ≤ ⌊x⌋ + 1 := by
  unfold roundHalfEven
  split_ifs <;> omega

theorem le_roundHalfEven {n : ℤ} {x : R} (h : (n : R) ≤ x) : n ≤ roundHalfEven x :=
  (Int.le_floor.mpr h).trans (floor_le_roundHalfEven x)

theorem le_roundDecimal {d : ℕ} {x : R} {n : ℤ} (h : (n : R) ≤ x * 10 ^ d) :
    n ≤ roundDecimal d x := by
  rw [roundDecimal_eq]
  exact le_roundHalfEven h

variable [IsStrictOrderedRing R]

theorem roundHalfEven_sub_le (x : R) : (roundHalfEven x : R) - x ≤ 1 / 2 := by
  unfold roundHalfEven
  have hfloor := Int.floor_le x
  split_ifs with hlow hhigh heven
  · linarith
  · push_cast
    linarith
  · linarith
  · push_cast
    linarith [not_lt.mp hlow]

theorem sub_roundHalfEven_le (x : R) : x - (roundHalfEven x : R) ≤ 1 / 2 := by
  unfold roundHalfEven
  have hfloor := Int.lt_floor_add_one x
  split_ifs with hlow hhigh heven
  · linarith
  · push_cast
    linarith
  · linarith [not_lt.mp hhigh]
  · push_cast
    linarith

theorem roundHalfEven_le {n : ℤ} {x : R} (h : x ≤ n) : roundHalfEven x ≤ n := by
  rcases h.lt_or_eq with hlt | rfl
  · have hfloor : ⌊x⌋ < n := Int.floor_lt.mpr hlt
    have := roundHalfEven_le_floor_add_one x
    omega
  · simp [roundHalfEven]

@[simp] theorem roundHalfEven_intCast (n : ℤ) : roundHalfEven (n : R) = n :=
  le_antisymm (roundHalfEven_le le_rfl) (le_roundHalfEven le_rfl)

/-! ## Where the rounded value steps

The rounded value exceeds `n` from the midpoint after `n` on; the midpoint
itself goes up when `n` is odd. Two numbers round alike when no midpoint tells
them apart.
-/

/-- The number rounds to more than `n`: it is nearer to `n + 1` than to `n`. -/
def RoundsAbove (n : ℤ) (x : R) : Prop :=
  (n : R) + 1 - x < x - n ∨ (n : R) + 1 - x = x - n ∧ Odd n

omit [FloorRing R] in
theorem RoundsAbove.mono {n : ℤ} {x y : R} (h : RoundsAbove n x) (hle : x ≤ y) :
    RoundsAbove n y := by
  rcases hle.lt_or_eq with hlt | rfl
  · refine Or.inl ?_
    rcases h with h | ⟨h, -⟩ <;> linarith
  · exact h

theorem lt_roundHalfEven_iff {n : ℤ} {x : R} : n < roundHalfEven x ↔ RoundsAbove n x := by
  have hfloor := Int.floor_le x
  have hnext := Int.lt_floor_add_one x
  rcases lt_trichotomy ⌊x⌋ n with hlt | rfl | hgt
  · have hle : ((⌊x⌋ + 1 : ℤ) : R) ≤ n := Int.cast_le.mpr hlt
    push_cast at hle
    have hbound := roundHalfEven_le_floor_add_one x
    constructor
    · intro h
      omega
    · rintro (h | ⟨h, -⟩) <;> linarith
  · unfold roundHalfEven RoundsAbove
    split_ifs with hlow hhigh heven
    · constructor
      · intro h
        omega
      · rintro (h | ⟨h, -⟩) <;> linarith
    · refine ⟨fun _ => Or.inl ?_, fun _ => lt_add_one _⟩
      linarith
    · constructor
      · intro h
        omega
      · rintro (h | ⟨-, h⟩)
        · linarith
        · rw [Int.odd_iff] at h
          omega
    · refine ⟨fun _ => Or.inr ⟨?_, ?_⟩, fun _ => lt_add_one _⟩
      · linarith [not_lt.mp hlow, not_lt.mp hhigh]
      · rw [Int.odd_iff]
        omega
  · have hle : ((n + 1 : ℤ) : R) ≤ ⌊x⌋ := Int.cast_le.mpr hgt
    push_cast at hle
    refine ⟨fun _ => Or.inl ?_, fun _ => hgt.trans_le (floor_le_roundHalfEven x)⟩
    linarith

theorem roundHalfEven_mono : Monotone (roundHalfEven : R → ℤ) := by
  intro x y hle
  refine le_of_forall_lt fun n hn => ?_
  exact lt_roundHalfEven_iff.mpr ((lt_roundHalfEven_iff.mp hn).mono hle)

/-- Two numbers round alike when no midpoint lies between them. -/
theorem roundHalfEven_eq_iff {x y : R} :
    roundHalfEven x = roundHalfEven y ↔ ∀ n : ℤ, RoundsAbove n x ↔ RoundsAbove n y := by
  simp only [← lt_roundHalfEven_iff]
  constructor
  · intro heq n
    rw [heq]
  · intro h
    apply le_antisymm
    · exact le_of_forall_lt fun n hn => (h n).mp hn
    · exact le_of_forall_lt fun n hn => (h n).mpr hn

omit [FloorRing R] in
/-- Seen from an even number, the midpoints are the same ones from the other side. -/
theorem roundsAbove_sub {n : ℤ} (hn : Even n) (k : ℤ) (x : R) :
    RoundsAbove k ((n : R) - x) ↔ ¬ RoundsAbove (n - k - 1) x := by
  have hodd : Odd (n - k - 1) ↔ ¬ Odd k := by
    rw [Int.not_odd_iff_even]
    obtain ⟨j, rfl⟩ := hn
    constructor
    · rintro ⟨i, hi⟩
      exact ⟨j - i - 1, by omega⟩
    · rintro ⟨i, rfl⟩
      exact ⟨j - i - 1, by omega⟩
  unfold RoundsAbove
  rw [hodd]
  push_cast
  rcases lt_trichotomy (2 * x) (2 * n - 2 * k - 1) with hlt | heq | hgt
  · have hleft : (k : R) + 1 - (n - x) < n - x - k := by linarith
    have hright : ¬ (n - k - 1 + 1 - x < x - ((n : R) - k - 1)) := by linarith
    have hne : ¬ (n - k - 1 + 1 - x = x - ((n : R) - k - 1)) := by
      intro h
      linarith
    simp only [hleft, hright, hne, true_or, false_and, or_self, not_false_eq_true]
  · have hleft : (k : R) + 1 - (n - x) = n - x - k := by linarith
    have hright : n - k - 1 + 1 - x = x - ((n : R) - k - 1) := by linarith
    simp only [hleft, hright, lt_irrefl, true_and, false_or, not_not]
  · have hleft : ¬ ((k : R) + 1 - (n - x) < n - x - k) := by linarith
    have hne : ¬ ((k : R) + 1 - (n - x) = n - x - k) := by
      intro h
      linarith
    have hright : n - k - 1 + 1 - x < x - ((n : R) - k - 1) := by linarith
    simp only [hleft, hne, hright, true_or, false_and, or_self, not_true_eq_false]

/-- What is left of an even number rounds to what rounding leaves of it. -/
theorem roundHalfEven_even_sub {n : ℤ} (hn : Even n) (x : R) :
    roundHalfEven ((n : R) - x) = n - roundHalfEven x := by
  apply eq_of_forall_lt_iff
  intro k
  rw [lt_roundHalfEven_iff, roundsAbove_sub hn, ← lt_roundHalfEven_iff]
  omega
/-! ## Rounding to decimals -/

theorem roundDecimal_mono (d : ℕ) : Monotone (roundDecimal d : R → ℤ) := by
  intro x y hle
  apply roundHalfEven_mono
  gcongr

theorem roundDecimal_nonneg {d : ℕ} {x : R} (h : 0 ≤ x) : 0 ≤ roundDecimal d x := by
  apply le_roundDecimal
  rw [Int.cast_zero]
  positivity

theorem roundDecimal_le {d : ℕ} {x : R} {n : ℤ} (h : x * 10 ^ d ≤ n) :
    roundDecimal d x ≤ n := by
  rw [roundDecimal_eq]
  exact roundHalfEven_le h

/-- A number with no more decimals is kept as it is. -/
theorem roundDecimal_div (d : ℕ) (n : ℤ) : roundDecimal d ((n : R) / 10 ^ d) = n := by
  have hscale : (10 ^ d : R) ≠ 0 := by positivity
  rw [roundDecimal_eq, div_mul_cancel₀ _ hscale, roundHalfEven_intCast]

/-- Rounding a rational number needs no more than rational arithmetic. -/
theorem roundDecimal_ratCast (d : ℕ) (q : ℚ) : roundDecimal d (q : R) = roundDecimal d q := by
  have hround : ∀ x : ℚ, roundHalfEven (x : R) = roundHalfEven x := by
    intro x
    simp only [roundHalfEven, Rat.floor_cast]
    norm_cast
  rw [roundDecimal_eq, roundDecimal_eq, ← hround]
  push_cast
  rfl

/-- A rounded value pins the number down to half a unit in the last place. -/
theorem roundDecimal_bounds {d : ℕ} {x : R} {n : ℤ} (h : roundDecimal d x = n) :
    (n : R) - 1 / 2 ≤ x * 10 ^ d ∧ x * 10 ^ d ≤ (n : R) + 1 / 2 := by
  subst h
  have hlow := roundHalfEven_sub_le (x * 10 ^ d)
  have hhigh := sub_roundHalfEven_le (x * 10 ^ d)
  rw [roundDecimal_eq]
  constructor <;> linarith

omit [FloorRing R] in
/-- Off its midpoint a number rounds up when it is above it. -/
theorem roundsAbove_mul_iff {d : ℕ} {z midpoint : R} {n : ℤ}
    (hmidpoint : midpoint * (2 * 10 ^ d) = 2 * n + 1) (hne : z ≠ midpoint) :
    RoundsAbove n (z * 10 ^ d) ↔ midpoint < z := by
  have hscale : (0 : R) < 2 * 10 ^ d := by positivity
  rw [← mul_lt_mul_iff_left₀ hscale, hmidpoint, RoundsAbove]
  constructor
  · rintro (h | ⟨h, -⟩)
    · linarith
    · refine absurd (mul_right_cancel₀ hscale.ne' ?_) hne
      rw [hmidpoint]
      linarith
  · intro h
    left
    linarith

/-- A number that no midpoint comes as near as `r` rounds like whatever is that near to it. -/
theorem roundDecimal_eq_of_clear {d : ℕ} {x y r : R}
    (hclear : ∀ n : ℤ, r < |x - (2 * n + 1) / (2 * 10 ^ d)|) (hnear : |y - x| ≤ r) :
    roundDecimal d y = roundDecimal d x := by
  have hscale : (0 : R) < 2 * 10 ^ d := by positivity
  rw [roundDecimal_eq, roundDecimal_eq, roundHalfEven_eq_iff]
  intro n
  have hmidpoint := div_mul_cancel₀ (2 * n + 1 : R) hscale.ne'
  have hfar := hclear n
  generalize (2 * n + 1 : R) / (2 * 10 ^ d) = midpoint at hmidpoint hfar
  obtain ⟨hlow, hhigh⟩ := abs_le.mp hnear
  rcases lt_abs.mp hfar with hover | hunder
  · have hx : midpoint < x := by linarith
    have hy : midpoint < y := by linarith
    rw [roundsAbove_mul_iff hmidpoint hx.ne', roundsAbove_mul_iff hmidpoint hy.ne']
    exact iff_of_true hy hx
  · have hx : x < midpoint := by linarith
    have hy : y < midpoint := by linarith
    rw [roundsAbove_mul_iff hmidpoint hx.ne, roundsAbove_mul_iff hmidpoint hy.ne]
    exact iff_of_false hy.not_gt hx.not_gt

/-- Numbers more than a unit apart round differently. -/
theorem roundDecimal_ne {d : ℕ} {x y : R} (h : y * 10 ^ d + 1 < x * 10 ^ d) :
    roundDecimal d x ≠ roundDecimal d y := by
  intro heq
  obtain ⟨-, hx⟩ := roundDecimal_bounds heq
  obtain ⟨hy, -⟩ := roundDecimal_bounds (rfl : roundDecimal d y = roundDecimal d y)
  linarith

end Base
