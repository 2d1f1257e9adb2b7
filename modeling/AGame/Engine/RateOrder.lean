import AGame.Base.Distributions
import AGame.Engine.Shares

/-!
# How the markets move with the rates

Cut off at `MAX_GOALS` and normalised again, the goal counts of a higher rate
are still above those of a lower one in likelihood-ratio order, since the
factorials and the normalisation cancel in the ratio. So the share of an event
that more home goals can only help grows with the home rate; the away rate
follows by transposing the matrix (`rates_move_markets`).
-/

namespace AGame.Engine.Poisson

open Base Finset

section

variable {R : Type} [Field R] [LinearOrder R] [IsStrictOrderedRing R]

/-- Goal counts of a higher rate are higher in likelihood-ratio order. -/
theorem term_ratioLE {low high : R} (h0 : 0 ≤ low) (hle : low ≤ high) :
    RatioLE goalCounts (term low) (term high) := by
  intro few _ many _ hfew
  rw [mul_comm (term low few)]
  exact term_mul_le h0 hle hfew

/-- The away part of an event at a given number of home goals. -/
def awayPart (p : ℕ → ℕ → Bool) (b : R) (home : ℕ) : R :=
  ∑ away ∈ goalCounts, if p home away = true then term b away else 0

omit [LinearOrder R] [IsStrictOrderedRing R] in
theorem eventSum_eq_awayPart (p : ℕ → ℕ → Bool) (a b : R) :
    eventSum p a b = ∑ home ∈ goalCounts, awayPart p b home * term a home := by
  refine sum_congr rfl fun home _ => ?_
  rw [awayPart, sum_mul]
  refine sum_congr rfl fun away _ => ?_
  split_ifs
  · rw [mul_comm]
  · rw [zero_mul]

/-- More home goals can only help the event. -/
def HomeHelps (p : ℕ → ℕ → Bool) : Prop :=
  ∀ home home' away, home ≤ home' → p home away = true → p home' away = true

/-- More home goals can only spoil the event. -/
def HomeSpoils (p : ℕ → ℕ → Bool) : Prop :=
  ∀ home home' away, home ≤ home' → p home' away = true → p home away = true

theorem awayPart_le {p q : ℕ → Bool} {b : R} (hb : 0 ≤ b)
    (h : ∀ away, p away = true → q away = true) :
    (∑ away ∈ goalCounts, if p away = true then term b away else 0) ≤
      ∑ away ∈ goalCounts, if q away = true then term b away else 0 := by
  refine sum_le_sum fun away _ => ?_
  have hterm := term_nonneg hb away
  by_cases hp : p away = true
  · rw [if_pos hp, if_pos (h away hp)]
  · rw [if_neg hp]
    split_ifs
    · exact hterm
    · exact le_rfl

/-- Shares at two home rates compare as the averages of the event's away parts. -/
theorem share_le_share {p : ℕ → ℕ → Bool} {a a' b : R} (ha : 0 ≤ a) (ha' : 0 ≤ a') (hb : 0 ≤ b)
    (h : (∑ home ∈ goalCounts, awayPart p b home * term a home) *
        ∑ home ∈ goalCounts, term a' home ≤
      (∑ home ∈ goalCounts, awayPart p b home * term a' home) *
        ∑ home ∈ goalCounts, term a home) : share p a b ≤ share p a' b := by
  rw [← eventSum_eq_awayPart, ← eventSum_eq_awayPart] at h
  rw [share, share, div_le_div_iff₀ (eventSum_anyScore_pos ha hb) (eventSum_anyScore_pos ha' hb),
    eventSum_anyScore, eventSum_anyScore, ← mul_assoc, ← mul_assoc]
  have htotal := one_le_sum_term hb
  gcongr

theorem share_le_of_homeHelps {p : ℕ → ℕ → Bool} (hp : HomeHelps p) {a a' b : R} (ha : 0 ≤ a)
    (hle : a ≤ a') (hb : 0 ≤ b) : share p a b ≤ share p a' b := by
  have hmono : Monotone (awayPart p b) := by
    intro home home' hhome
    exact awayPart_le hb fun away => hp home home' away hhome
  apply share_le_share ha (ha.trans hle) hb
  exact (term_ratioLE ha hle).average_le hmono

theorem share_le_of_homeSpoils {p : ℕ → ℕ → Bool} (hp : HomeSpoils p) {a a' b : R} (ha : 0 ≤ a)
    (hle : a ≤ a') (hb : 0 ≤ b) : share p a' b ≤ share p a b := by
  have hanti : Antitone (awayPart p b) := by
    intro home home' hhome
    exact awayPart_le hb fun away => hp home home' away hhome
  apply share_le_share (ha.trans hle) ha hb
  exact (term_ratioLE ha hle).le_average hanti

end

/-! ## The markets -/

theorem homeWins_homeHelps : HomeHelps homeWins := by
  intro home home' away hle hwin
  rw [homeWins, decide_eq_true_eq] at hwin ⊢
  omega

theorem isOver25_homeHelps : HomeHelps isOver25 := by
  intro home home' away hle hover
  rw [isOver25, decide_eq_true_eq] at hover ⊢
  omega

theorem isBtts_homeHelps : HomeHelps isBtts := by
  intro home home' away hle hbtts
  rw [isBtts, decide_eq_true_eq] at hbtts ⊢
  omega

theorem awayWins_homeSpoils : HomeSpoils awayWins := by
  intro home home' away hle hwin
  rw [awayWins, decide_eq_true_eq] at hwin ⊢
  omega

/-- A higher home rate lifts the home win, the goals and both teams scoring,
and lowers the away win. -/
theorem homeRate_moves_markets {a a' b : ℝ} (ha : 0 ≤ a) (hle : a ≤ a') (hb : 0 ≤ b) :
    (scoreProbabilities a b).probHome ≤ (scoreProbabilities a' b).probHome ∧
      (scoreProbabilities a b).over25 ≤ (scoreProbabilities a' b).over25 ∧
      (scoreProbabilities a b).btts ≤ (scoreProbabilities a' b).btts ∧
      (scoreProbabilities a' b).probAway ≤ (scoreProbabilities a b).probAway := by
  obtain ⟨hhome, -, haway, hover, hbtts⟩ := scoreProbabilities_share a b
  obtain ⟨hhome', -, haway', hover', hbtts'⟩ := scoreProbabilities_share a' b
  rw [hhome, hhome', haway, haway', hover, hover', hbtts, hbtts']
  exact ⟨share_le_of_homeHelps homeWins_homeHelps ha hle hb,
    share_le_of_homeHelps isOver25_homeHelps ha hle hb,
    share_le_of_homeHelps isBtts_homeHelps ha hle hb,
    share_le_of_homeSpoils awayWins_homeSpoils ha hle hb⟩

/-- **Goal rates move every market the right way**, the home rate and, by
symmetry, the away rate. -/
theorem rates_move_markets (a a' b : ℝ) (ha : 0 ≤ a) (hle : a ≤ a') (hb : 0 ≤ b) :
    ((scoreProbabilities a b).probHome ≤ (scoreProbabilities a' b).probHome ∧
      (scoreProbabilities a b).over25 ≤ (scoreProbabilities a' b).over25 ∧
      (scoreProbabilities a b).btts ≤ (scoreProbabilities a' b).btts ∧
      (scoreProbabilities a' b).probAway ≤ (scoreProbabilities a b).probAway) ∧
    (scoreProbabilities b a).probAway ≤ (scoreProbabilities b a').probAway ∧
      (scoreProbabilities b a).over25 ≤ (scoreProbabilities b a').over25 ∧
      (scoreProbabilities b a).btts ≤ (scoreProbabilities b a').btts ∧
      (scoreProbabilities b a').probHome ≤ (scoreProbabilities b a).probHome := by
  have hmoves := homeRate_moves_markets ha hle hb
  obtain ⟨hhome, haway, -, hover, hbtts⟩ := scoreProbabilities_swap a b
  obtain ⟨hhome', haway', -, hover', hbtts'⟩ := scoreProbabilities_swap a' b
  refine ⟨hmoves, ?_⟩
  rwa [hhome, haway, hover, hbtts, hhome', haway', hover', hbtts']

/-- From one goal to two. -/
theorem second_goal_moves_markets :
    (scoreProbabilities (1 : ℝ) 1).probHome ≤ (scoreProbabilities (2 : ℝ) 1).probHome ∧
      (scoreProbabilities (1 : ℝ) 2).probHome ≤ (scoreProbabilities (1 : ℝ) 1).probHome :=
  ⟨(rates_move_markets 1 2 1 (by norm_num) (by norm_num) (by norm_num)).1.1,
    (rates_move_markets 1 2 1 (by norm_num) (by norm_num) (by norm_num)).2.2.2.2⟩

end AGame.Engine.Poisson
