import AGame.Engine.Fit
import AGame.Engine.Probabilities

/-!
# When a rate is positive

Shrinkage keeps every strength above zero, so a lambda vanishes only with its
league rate, that is when nobody in the whole history scored on that side of the
pitch (`expectedGoals_fit`, `decayedMean_pos_iff`). A side with rate zero never
wins (`probHome_pos_iff`, `probAway_pos_iff`).
-/

namespace AGame.Engine.Poisson

open Std (ExtTreeMap)
open Base Elo

section Strengths

variable {R : Type} [Field R] [LinearOrder R] [IsStrictOrderedRing R]

theorem minSample_pos : 0 < MIN_SAMPLE R := by
  unfold MIN_SAMPLE
  norm_num

/-- Some of the prior is always left. -/
theorem shrink_pos {observed : R} (h : 0 ≤ observed) (expected sample : R) :
    0 < shrink observed expected sample := by
  unfold shrink
  split_ifs with hnothing
  · exact one_pos
  · rw [not_or, not_le, not_le] at hnothing
    obtain ⟨hexpected, hsample⟩ := hnothing
    have hprior := minSample_pos (R := R)
    have hconfidence : sample / (sample + MIN_SAMPLE R) < 1 := by
      rw [div_lt_one (by linarith)]
      linarith
    have hrecord : 0 ≤ sample / (sample + MIN_SAMPLE R) * (observed / expected) := by
      positivity
    linarith

/-- Goals are counted upwards. -/
structure Totals.Nonneg (t : Totals R) : Prop where
  scored : ∀ key, 0 ≤ t.scored.getD key 0
  conceded : ∀ key, 0 ≤ t.conceded.getD key 0

theorem nonneg_addAt {d : TeamMap R} (hd : ∀ key, 0 ≤ d.getD key 0) (key : TeamKey) {x : R}
    (hx : 0 ≤ x) : ∀ k, 0 ≤ (addAt d key x).getD k 0 := by
  intro k
  rw [getD_addAt]
  split_ifs
  · exact add_nonneg (hd k) hx
  · rw [add_zero]
    exact hd k

theorem Totals.Nonneg.addSide {t : Totals R} (ht : t.Nonneg) {w : R} (hw : 0 ≤ w) (key : TeamKey)
    {goalsFor goalsAgainst : ℤ} (hfor : 0 ≤ goalsFor) (hagainst : 0 ≤ goalsAgainst) (bf ba : R) :
    (addSide t w key goalsFor goalsAgainst bf ba).Nonneg := by
  constructor
  · apply nonneg_addAt ht.scored
    exact mul_nonneg hw (Int.cast_nonneg hfor)
  · apply nonneg_addAt ht.conceded
    exact mul_nonneg hw (Int.cast_nonneg hagainst)

theorem nonneg_foldl {entries : List (R × MatchResult)} (hpos : ∀ e ∈ entries, 0 < e.1)
    (hgoals : ∀ e ∈ entries, 0 ≤ e.2.homeGoals ∧ 0 ≤ e.2.awayGoals) (leagueHome leagueAway : R)
    {t : Totals R} (ht : t.Nonneg) :
    (entries.foldl (addMatch leagueHome leagueAway) t).Nonneg := by
  induction entries generalizing t with
  | nil => exact ht
  | cons e entries ih =>
      obtain ⟨hhome, haway⟩ := hgoals e List.mem_cons_self
      have hw := (hpos e List.mem_cons_self).le
      rw [List.foldl_cons]
      apply ih (fun e' he' => hpos e' (List.mem_cons_of_mem _ he'))
        (fun e' he' => hgoals e' (List.mem_cons_of_mem _ he'))
      exact (ht.addSide hw _ hhome haway _ _).addSide hw _ haway hhome _ _

theorem strengthsOf_pos {t : Totals R} (ht : t.Nonneg) (leagueHome leagueAway : R) (key : TeamKey) :
    0 < (strengthsOf leagueHome leagueAway t).attack.getD key 1 ∧
      0 < (strengthsOf leagueHome leagueAway t).defence.getD key 1 := by
  rw [ExtTreeMap.getD_eq_getD_getElem?, ExtTreeMap.getD_eq_getD_getElem?, getElem?_attack,
    getElem?_defence]
  cases t.sample[key]? with
  | none => exact ⟨one_pos, one_pos⟩
  | some n => exact ⟨shrink_pos (ht.scored key) _ n, shrink_pos (ht.conceded key) _ n⟩

end Strengths

/-! ## The lambdas of a fixture -/

/-- Goals are not negative. -/
def GoalsNonneg (l : List MatchResult) : Prop :=
  ∀ m ∈ l, 0 ≤ m.homeGoals ∧ 0 ≤ m.awayGoals

/-- Each lambda is its league rate, scaled by something positive. -/
theorem expectedGoals_fit {l : List MatchResult} (hgoals : GoalsNonneg l) (asOf : Instant)
    (home away c : ℤ) :
    ∃ a > 0, ∃ b > 0, expectedGoals (fit l asOf : Strengths ℝ) home away c =
      (decayedMean MatchResult.homeGoals l asOf * a,
        decayedMean MatchResult.awayGoals l asOf * b) := by
  have hcounted : ((weighted l asOf).foldl (addMatch (decayedMean MatchResult.homeGoals l asOf)
      (decayedMean MatchResult.awayGoals l asOf)) .empty).Nonneg := by
    apply nonneg_foldl (weighted_pos l asOf)
    · intro e he
      obtain ⟨m, hm, rfl⟩ := List.mem_map.mp he
      exact hgoals m hm
    · constructor
      · intro key
        simp [Totals.empty]
      · intro key
        simp [Totals.empty]
  have hpos := fun team : ℤ => strengthsOf_pos hcounted (decayedMean MatchResult.homeGoals l asOf)
    (decayedMean MatchResult.awayGoals l asOf) (team, c)
  rw [← fit_eq] at hpos
  refine ⟨_, mul_pos (hpos home).1 (hpos away).2, _, mul_pos (hpos away).1 (hpos home).2, ?_⟩
  simp only [expectedGoals, mul_assoc]
  rw [fit_eq]
  rfl

theorem decayedMean_nonneg {count : MatchResult → ℤ} {l : List MatchResult}
    (hcount : ∀ m ∈ l, 0 ≤ count m) (asOf : Instant) : 0 ≤ decayedMean count l asOf := by
  apply div_nonneg
  · apply List.sum_nonneg
    intro x hx
    obtain ⟨e, he, rfl⟩ := List.mem_map.mp hx
    obtain ⟨m, hm, rfl⟩ := List.mem_map.mp he
    exact mul_nonneg (weight_pos _ _).le (Int.cast_nonneg (hcount m hm))
  · apply List.sum_nonneg
    intro x hx
    obtain ⟨e, he, rfl⟩ := List.mem_map.mp hx
    exact (weighted_pos l asOf e he).le

/-- A mean of counts is positive once one of them is. -/
theorem decayedMean_pos_iff {count : MatchResult → ℤ} {l : List MatchResult}
    (hcount : ∀ m ∈ l, 0 ≤ count m) (asOf : Instant) :
    0 < decayedMean count l asOf ↔ ∃ m ∈ l, 0 < count m := by
  constructor
  · intro hpos
    by_contra hnone
    have hzero : ∀ e ∈ (weighted l asOf : List (ℝ × MatchResult)), e.1 * (count e.2 : ℝ) = 0 := by
      intro e he
      obtain ⟨m, hm, rfl⟩ := List.mem_map.mp he
      have hcase : count m = 0 :=
        le_antisymm (not_lt.mp fun h => hnone ⟨m, hm, h⟩) (hcount m hm)
      simp [hcase]
    have hsum : ((weighted l asOf).map fun e => e.1 * (count e.2 : ℝ)).sum = 0 := by
      rw [List.map_congr_left hzero]
      simp
    rw [decayedMean, weightedMean, hsum, zero_div] at hpos
    exact lt_irrefl 0 hpos
  · rintro ⟨m, hm, hpositive⟩
    have hmem : (weight m.utcDate asOf, m) ∈ (weighted l asOf : List (ℝ × MatchResult)) :=
      List.mem_map_of_mem hm
    have hterms : ∀ x ∈ (weighted l asOf).map fun e => e.1 * (count e.2 : ℝ), 0 ≤ x := by
      intro x hx
      obtain ⟨e, he, rfl⟩ := List.mem_map.mp hx
      obtain ⟨m', hm', rfl⟩ := List.mem_map.mp he
      exact mul_nonneg (weight_pos _ _).le (Int.cast_nonneg (hcount m' hm'))
    have hone : 0 < weight m.utcDate asOf * (count m : ℝ) :=
      mul_pos (weight_pos _ _) (Int.cast_pos.mpr hpositive)
    apply div_pos
    · exact hone.trans_le (List.single_le_sum hterms _
        (List.mem_map_of_mem (f := fun e : ℝ × MatchResult => e.1 * (count e.2 : ℝ)) hmem))
    · exact sum_fst_pos (weighted_pos l asOf) (List.ne_nil_of_mem hmem)

/-- Rates are not negative. -/
theorem expectedGoals_nonneg {l : List MatchResult} (hgoals : GoalsNonneg l) (asOf : Instant)
    (home away c : ℤ) :
    0 ≤ (expectedGoals (fit l asOf : Strengths ℝ) home away c).1 ∧
      0 ≤ (expectedGoals (fit l asOf : Strengths ℝ) home away c).2 := by
  obtain ⟨a, ha, b, hb, hlambdas⟩ := expectedGoals_fit hgoals asOf home away c
  rw [hlambdas]
  constructor
  · exact mul_nonneg (decayedMean_nonneg (fun m hm => (hgoals m hm).1) asOf) ha.le
  · exact mul_nonneg (decayedMean_nonneg (fun m hm => (hgoals m hm).2) asOf) hb.le

/-! ## The outcomes at given rates -/

theorem pmf_pos_iff {rate : ℝ} (h : 0 ≤ rate) (goals : ℕ) :
    0 < pmf rate goals ↔ goals = 0 ∨ 0 < rate := by
  rcases Nat.eq_zero_or_pos goals with rfl | hgoals
  · simp [pmf_zero_pos]
  · have hexp : 0 < PyMath.exp (-rate) := Real.exp_pos (-rate)
    rcases h.eq_or_lt with rfl | hrate
    · simp [pmf, hgoals.ne']
    · have hpmf : 0 < pmf rate goals := by
        unfold pmf
        positivity
      simp [hpmf, hrate]

theorem mass_pos_iff {p : ℕ → ℕ → Bool} {cells : List (Cell ℝ)}
    (hcells : ∀ c ∈ cells, 0 ≤ c.probability) :
    0 < mass p cells ↔ ∃ c ∈ cells, p c.homeGoals c.awayGoals = true ∧ 0 < c.probability := by
  induction cells with
  | nil => simp [mass]
  | cons c cells ih =>
      have hrest := mass_nonneg (p := p) fun c' hc' => hcells c' (List.mem_cons_of_mem _ hc')
      have hc := hcells c List.mem_cons_self
      rw [mass_cons, List.exists_mem_cons_iff,
        ← ih fun c' hc' => hcells c' (List.mem_cons_of_mem _ hc')]
      by_cases hp : p c.homeGoals c.awayGoals = true
      · rw [if_pos hp]
        constructor
        · intro hsum
          by_cases hpos : 0 < c.probability
          · exact Or.inl ⟨hp, hpos⟩
          · exact Or.inr (by linarith)
        · rintro (⟨-, hpos⟩ | hpos)
          · linarith
          · linarith
      · simp [hp]

/-- An event has positive mass when one of its scores is possible. -/
theorem scoreMatrix_mass_pos_iff {a b : ℝ} (ha : 0 ≤ a) (hb : 0 ≤ b) (p : ℕ → ℕ → Bool) :
    0 < mass p (scoreMatrix a b) ↔ ∃ home away : ℕ, home ≤ MAX_GOALS ∧ away ≤ MAX_GOALS ∧
      p home away = true ∧ (home = 0 ∨ 0 < a) ∧ (away = 0 ∨ 0 < b) := by
  rw [mass_pos_iff (scoreMatrix_nonneg ha hb)]
  have hcell : ∀ home away : ℕ, 0 < pmf a home * pmf b away ↔
      (home = 0 ∨ 0 < a) ∧ (away = 0 ∨ 0 < b) := by
    intro home away
    rw [← pmf_pos_iff ha, ← pmf_pos_iff hb]
    constructor
    · intro hpos
      constructor
      · exact (pmf_nonneg ha home).lt_of_ne' (left_ne_zero_of_mul hpos.ne')
      · exact (pmf_nonneg hb away).lt_of_ne' (right_ne_zero_of_mul hpos.ne')
    · rintro ⟨hhome, haway⟩
      exact mul_pos hhome haway
  constructor
  · rintro ⟨c, hc, hp, hpos⟩
    obtain ⟨home, away, hhome, haway, rfl⟩ := mem_scoreMatrix.mp hc
    exact ⟨home, away, hhome, haway, hp, (hcell home away).mp hpos⟩
  · rintro ⟨home, away, hhome, haway, hp, hpos⟩
    exact ⟨_, mem_scoreMatrix.mpr ⟨home, away, hhome, haway, rfl⟩, hp, (hcell home away).mpr hpos⟩

/-- The home side can win exactly when it can score. -/
theorem probHome_pos_iff {a b : ℝ} (ha : 0 ≤ a) (hb : 0 ≤ b) :
    0 < (scoreProbabilities a b).probHome ↔ 0 < a := by
  rw [(scoreProbabilities_mass a b).1, div_pos_iff_of_pos_right (scoreMatrix_mass_pos ha hb),
    scoreMatrix_mass_pos_iff ha hb]
  constructor
  · rintro ⟨home, away, -, -, hwin, hhome, -⟩
    have hmore : home > away := of_decide_eq_true hwin
    exact hhome.resolve_left (by omega)
  · intro hpos
    exact ⟨1, 0, by decide, by decide, rfl, Or.inr hpos, Or.inl rfl⟩

theorem probAway_pos_iff {a b : ℝ} (ha : 0 ≤ a) (hb : 0 ≤ b) :
    0 < (scoreProbabilities a b).probAway ↔ 0 < b := by
  rw [(scoreProbabilities_mass a b).2.2.1, div_pos_iff_of_pos_right (scoreMatrix_mass_pos ha hb),
    scoreMatrix_mass_pos_iff ha hb]
  constructor
  · rintro ⟨home, away, -, -, hwin, -, haway⟩
    have hmore : home < away := of_decide_eq_true hwin
    exact haway.resolve_left (by omega)
  · intro hpos
    exact ⟨0, 1, by decide, by decide, rfl, Or.inl rfl, Or.inr hpos⟩

/-- A goalless draw is always possible. -/
theorem probDraw_pos {a b : ℝ} (ha : 0 ≤ a) (hb : 0 ≤ b) :
    0 < (scoreProbabilities a b).probDraw := by
  rw [(scoreProbabilities_mass a b).2.1, div_pos_iff_of_pos_right (scoreMatrix_mass_pos ha hb),
    scoreMatrix_mass_pos_iff ha hb]
  exact ⟨0, 0, by decide, by decide, rfl, Or.inl rfl, Or.inl rfl⟩

end AGame.Engine.Poisson
