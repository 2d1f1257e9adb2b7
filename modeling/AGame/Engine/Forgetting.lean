import AGame.Engine.Shares
import AGame.Engine.Shrinkage

/-!
# What the goal model forgets

While no match is added, a history is worth less and less. The league rates stay, the
strengths go back to one, and the distance of both rates from the league's own halves
with every half-life; so what is reported goes to what the league rates alone report.
-/

namespace AGame.Engine.Poisson

open Filter Topology
open Base Elo

/-! ## One strength -/

/-- What trust a sample loses, its strength loses. -/
theorem abs_shrink_aged_sub_one_le {c : ℝ} (h0 : 0 < c) (observed expected sample : ℝ) :
    |shrink (c * observed) (c * expected) (c * sample) - 1| ≤
      |sample / MIN_SAMPLE ℝ * (observed / expected - 1)| * c := by
  have hprior := minSample_pos (R := ℝ)
  by_cases hnothing : c * expected ≤ 0 ∨ c * sample ≤ 0
  · rw [shrink_eq_one hnothing, sub_self, abs_zero]
    positivity
  · rw [not_or, not_le, not_le] at hnothing
    obtain ⟨hexpected, hsample⟩ := hnothing
    have hsample' : 0 < sample := pos_of_mul_pos_right hsample h0.le
    have htrust : confidence (c * sample) ≤ c * (sample / MIN_SAMPLE ℝ) := by
      rw [confidence, ← mul_div_assoc]
      exact div_le_div_of_nonneg_left hsample.le hprior (le_add_of_nonneg_left hsample.le)
    calc |shrink (c * observed) (c * expected) (c * sample) - 1|
        = |confidence (c * sample) * (observed / expected - 1)| := by
          rw [shrink_eq_pull hexpected hsample, mul_div_mul_left _ _ h0.ne', pull,
            add_sub_cancel_left]
      _ = confidence (c * sample) * |observed / expected - 1| := by
          rw [abs_mul, abs_of_nonneg (confidence_nonneg hsample.le)]
      _ ≤ c * (sample / MIN_SAMPLE ℝ) * |observed / expected - 1| :=
          mul_le_mul_of_nonneg_right htrust (abs_nonneg _)
      _ = |sample / MIN_SAMPLE ℝ * (observed / expected - 1)| * c := by
          rw [abs_mul, abs_of_nonneg (by positivity : 0 ≤ sample / MIN_SAMPLE ℝ)]
          ring

/-! ## Fading -/

section

variable {asOf : Instant} {f g : Instant → ℝ} {x y : ℝ}

/-- `f` comes to `x` at least as fast as the weight of `asOf` goes to zero. -/
def Fades (asOf : Instant) (f : Instant → ℝ) (x : ℝ) : Prop :=
  (fun now => f now - x) =O[atTop] fun now => (weight asOf now : ℝ)

theorem Fades.of_eq (h : ∀ now, asOf ≤ now → f now = x) : Fades asOf f x := by
  refine Asymptotics.IsBigO.of_bound 0 ?_
  filter_upwards [eventually_ge_atTop asOf] with now hnow
  rw [h now hnow, sub_self, norm_zero, zero_mul]

/-- Products fade with their factors. -/
theorem Fades.mul (hf : Fades asOf f x) (hg : Fades asOf g y) :
    Fades asOf (fun now => f now * g now) (x * y) := by
  have hboth : (fun now => (f now - x) * (g now - y)) =O[atTop]
      fun now => (weight asOf now : ℝ) := by
    have hone : (fun now => (weight asOf now : ℝ)) =O[atTop] fun _ => (1 : ℝ) := by
      refine Asymptotics.IsBigO.of_bound 1 (Eventually.of_forall fun now => ?_)
      rw [one_mul, norm_one, Real.norm_of_nonneg (weight_pos _ _).le]
      exact weight_le_one _ _
    simpa only [mul_one] using Asymptotics.IsBigO.mul hf (Asymptotics.IsBigO.trans hg hone)
  have hsum := (hboth.add (hf.const_mul_left y)).add (hg.const_mul_left x)
  refine hsum.congr_left fun now => ?_
  ring

/-- With every half-life the weight of a moment halves, so it vanishes. -/
theorem weight_tendsto_zero (asOf : Instant) :
    Tendsto (fun now => (weight asOf now : ℝ)) atTop (𝓝 0) := by
  have hage : Tendsto (fun now => (ageDays asOf now : ℝ) / HALF_LIFE_DAYS ℝ) atTop atTop := by
    have hdays : Tendsto (fun now : Instant => (((now - asOf : ℤ) : ℝ) / 1000000) / 86400)
        atTop atTop := by
      have hcast : Tendsto (fun now : Instant => ((now - asOf : ℤ) : ℝ)) atTop atTop :=
        tendsto_intCast_atTop_atTop.comp (tendsto_atTop_add_const_right _ (-asOf) tendsto_id)
      exact (hcast.atTop_div_const (by norm_num)).atTop_div_const (by norm_num)
    have hmax := tendsto_atTop_mono (fun now => le_max_left _ (0 : ℝ)) hdays
    refine Tendsto.atTop_div_const ?_ hmax
    unfold HALF_LIFE_DAYS
    norm_num
  have hpow := tendsto_rpow_atTop_of_base_lt_one (0.5 : ℝ) (by norm_num) (by norm_num)
  exact hpow.comp hage

theorem Fades.tendsto (hf : Fades asOf f x) : Tendsto f atTop (𝓝 x) := by
  have hgap := Asymptotics.IsBigO.trans_tendsto hf (weight_tendsto_zero asOf)
  rwa [tendsto_sub_nhds_zero_iff] at hgap

end

/-! ## The rates -/

section

variable {l : List MatchResult} {asOf : Instant}

/-- Every team's two strengths fade to one. -/
theorem strengths_fade (hl : UpTo asOf l) (key : TeamKey) :
    Fades asOf (fun now => (fit l now : Strengths ℝ).attack.getD key 1) 1 ∧
      Fades asOf (fun now => (fit l now : Strengths ℝ).defence.getD key 1) 1 := by
  have hshrunk : ∀ (home away home' away' : MatchResult → ℝ) (f : Instant → ℝ),
      (∀ now, asOf ≤ now → f now = shrink (tallied home away (weighted l now) key)
        (tallied home' away' (weighted l now) key)
        (tallied (fun _ => 1) (fun _ => 1) (weighted l now) key)) → Fades asOf f 1 := by
    intro home away home' away' f hf
    let observed := tallied home away (weighted l asOf) key
    let expected := tallied home' away' (weighted l asOf) key
    let sample : ℝ := tallied (fun _ => 1) (fun _ => 1) (weighted l asOf) key
    refine Asymptotics.IsBigO.of_bound |sample / MIN_SAMPLE ℝ * (observed / expected - 1)| ?_
    filter_upwards [eventually_ge_atTop asOf] with now hnow
    rw [hf now hnow, tallied_aged hl hnow, tallied_aged hl hnow home',
      tallied_aged hl hnow (fun _ => 1), Real.norm_of_nonneg (weight_pos asOf now).le]
    exact abs_shrink_aged_sub_one_le (weight_pos _ _) _ _ _
  by_cases hkey : Played l key
  · constructor
    · refine hshrunk (fun m => m.homeGoals) (fun m => m.awayGoals)
        (fun _ => decayedMean MatchResult.homeGoals l asOf)
        (fun _ => decayedMean MatchResult.awayGoals l asOf) _ fun now hnow => ?_
      rw [Std.ExtTreeMap.getD_eq_getD_getElem?, attack_of_played hkey, Option.getD_some,
        fitTotals_eq]
      simp only [getD_tally_weighted, decayedMean_aged hl hnow]
    · refine hshrunk (fun m => m.awayGoals) (fun m => m.homeGoals)
        (fun _ => decayedMean MatchResult.awayGoals l asOf)
        (fun _ => decayedMean MatchResult.homeGoals l asOf) _ fun now hnow => ?_
      rw [Std.ExtTreeMap.getD_eq_getD_getElem?, defence_of_played hkey, Option.getD_some,
        fitTotals_eq]
      simp only [getD_tally_weighted, decayedMean_aged hl hnow]
  · constructor
    · refine Fades.of_eq fun now _ => ?_
      rw [Std.ExtTreeMap.getD_eq_getD_getElem?, (strengths_absent hkey now).1, Option.getD_none]
    · refine Fades.of_eq fun now _ => ?_
      rw [Std.ExtTreeMap.getD_eq_getD_getElem?, (strengths_absent hkey now).2, Option.getD_none]

/-- Both rates fade to the league's own. -/
theorem expectedGoals_fade (hl : UpTo asOf l) (home away c : ℤ) :
    Fades asOf (fun now => (expectedGoals (fit l now : Strengths ℝ) home away c).1)
        (decayedMean MatchResult.homeGoals l asOf) ∧
      Fades asOf (fun now => (expectedGoals (fit l now : Strengths ℝ) home away c).2)
        (decayedMean MatchResult.awayGoals l asOf) := by
  have hleagueHome : Fades asOf (fun now => (fit l now : Strengths ℝ).leagueHome)
      (decayedMean MatchResult.homeGoals l asOf) := by
    refine Fades.of_eq fun now hnow => ?_
    rw [fit_eq]
    exact decayedMean_aged hl hnow _
  have hleagueAway : Fades asOf (fun now => (fit l now : Strengths ℝ).leagueAway)
      (decayedMean MatchResult.awayGoals l asOf) := by
    refine Fades.of_eq fun now hnow => ?_
    rw [fit_eq]
    exact decayedMean_aged hl hnow _
  have hhome := strengths_fade hl (home, c)
  have haway := strengths_fade hl (away, c)
  constructor
  · have hrate := (hleagueHome.mul hhome.1).mul haway.2
    rwa [mul_one, mul_one] at hrate
  · have hrate := (hleagueAway.mul haway.1).mul hhome.2
    rwa [mul_one, mul_one] at hrate

end

/-! ## The reported probabilities -/

/-- The five reported probabilities. -/
def ScoreProbabilities.markets {R : Type} (p : ScoreProbabilities R) : R × R × R × R × R :=
  (p.probHome, p.probDraw, p.probAway, p.over25, p.btts)

theorem continuous_eventSum (p : ℕ → ℕ → Bool) :
    Continuous fun rates : ℝ × ℝ => eventSum p rates.1 rates.2 := by
  unfold eventSum term
  refine continuous_finsetSum _ fun home _ => continuous_finsetSum _ fun away _ => ?_
  split_ifs
  · fun_prop
  · exact continuous_const

/-- At rates that are not negative, what is reported moves with the rates. -/
theorem continuousAt_markets {a b : ℝ} (ha : 0 ≤ a) (hb : 0 ≤ b) :
    ContinuousAt (fun rates : ℝ × ℝ => (scoreProbabilities rates.1 rates.2).markets) (a, b) := by
  have hany : eventSum anyScore a b ≠ 0 := (eventSum_anyScore_pos ha hb).ne'
  have hshare : ∀ p, ContinuousAt (fun rates : ℝ × ℝ => share p rates.1 rates.2) (a, b) :=
    fun p => (continuous_eventSum p).continuousAt.div (continuous_eventSum _).continuousAt hany
  have hmarkets : ∀ rates : ℝ × ℝ, (scoreProbabilities rates.1 rates.2).markets =
      (share homeWins rates.1 rates.2, share isDraw rates.1 rates.2, share awayWins rates.1 rates.2,
        share isOver25 rates.1 rates.2, share isBtts rates.1 rates.2) := by
    intro rates
    obtain ⟨hhome, hdraw, haway, hover, hbtts⟩ := scoreProbabilities_share rates.1 rates.2
    rw [ScoreProbabilities.markets, hhome, hdraw, haway, hover, hbtts]
  simp only [hmarkets]
  exact (hshare _).prodMk ((hshare _).prodMk ((hshare _).prodMk ((hshare _).prodMk (hshare _))))

/-- **What is forgotten.** While the history stays as it is, every fixture's rates come to
the league rates, as fast as the weight of its last match goes to zero, and the reported
probabilities to those of the league rates. -/
theorem fixture_fades {l : List MatchResult} {asOf : Instant} (hgoals : GoalsNonneg l)
    (hl : UpTo asOf l) (home away c : ℤ) :
    let rates := fun now => expectedGoals (fit l now : Strengths ℝ) home away c
    let leagueHome := decayedMean MatchResult.homeGoals l asOf
    let leagueAway := decayedMean MatchResult.awayGoals l asOf
    Fades asOf (fun now => (rates now).1) leagueHome ∧
      Fades asOf (fun now => (rates now).2) leagueAway ∧
      Tendsto (fun now => (scoreProbabilities (rates now).1 (rates now).2).markets) atTop
        (𝓝 (scoreProbabilities leagueHome leagueAway).markets) := by
  intro rates leagueHome leagueAway
  obtain ⟨hhome, haway⟩ := expectedGoals_fade hl home away c
  refine ⟨hhome, haway, ?_⟩
  have hrates : Tendsto rates atTop (𝓝 (leagueHome, leagueAway)) :=
    hhome.tendsto.prodMk_nhds haway.tendsto
  have hleague : 0 ≤ leagueHome ∧ 0 ≤ leagueAway :=
    ⟨decayedMean_nonneg (fun m hm => (hgoals m hm).1) asOf,
      decayedMean_nonneg (fun m hm => (hgoals m hm).2) asOf⟩
  exact (continuousAt_markets hleague.1 hleague.2).tendsto.comp hrates

end AGame.Engine.Poisson
