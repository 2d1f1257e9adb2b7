import AGame.Engine.Balance

/-!
# What shrinkage does to a strength

A strength is one, pulled towards its observed ratio by the confidence that the
effective sample gives (`shrink_eq_pull`). A larger sample pulls further; moving
`as_of` on makes every sample smaller by one factor and leaves the ratios
(`ageing_shrinks`).
-/

namespace AGame.Engine.Poisson

open Std (ExtTreeMap)
open Base Elo

section Pull

variable {R : Type} [Field R]

/-- From one towards `r`, the share `c` of the way. -/
def pull (c r : R) : R := 1 + c * (r - 1)

theorem pull_one (r : R) : pull 1 r = r := by
  rw [pull]
  ring

variable [LinearOrder R]

theorem shrink_eq_one {expected sample : R} (h : expected ≤ 0 ∨ sample ≤ 0) (observed : R) :
    shrink observed expected sample = 1 := by
  unfold shrink
  rw [if_pos h]

variable [IsStrictOrderedRing R]

/-- A weaker pull stays on the way of a stronger one. -/
theorem pull_mem_uIcc {c c' : R} (h0 : 0 ≤ c') (hle : c' ≤ c) (r : R) :
    pull c' r ∈ Set.uIcc 1 (pull c r) := by
  unfold pull
  rcases le_total 1 r with hr | hr
  · have hgap : 0 ≤ r - 1 := sub_nonneg.mpr hr
    apply Set.mem_uIcc_of_le
    · exact le_add_of_nonneg_right (mul_nonneg h0 hgap)
    · exact add_le_add_right (mul_le_mul_of_nonneg_right hle hgap) 1
  · have hgap : r - 1 ≤ 0 := sub_nonpos.mpr hr
    apply Set.mem_uIcc_of_ge
    · exact add_le_add_right (mul_le_mul_of_nonpos_right hle hgap) 1
    · exact add_le_of_nonpos_right (mul_nonpos_of_nonneg_of_nonpos h0 hgap)

/-- How far a sample is trusted. -/
def confidence (sample : R) : R := sample / (sample + MIN_SAMPLE R)

theorem confidence_nonneg {sample : R} (h : 0 ≤ sample) : 0 ≤ confidence sample := by
  have hprior := minSample_pos (R := R)
  unfold confidence
  positivity

theorem one_sub_confidence {sample : R} (h : 0 ≤ sample) :
    1 - confidence sample = MIN_SAMPLE R / (sample + MIN_SAMPLE R) := by
  have hprior := minSample_pos (R := R)
  unfold confidence
  field_simp
  ring

theorem confidence_le_one {sample : R} (h : 0 ≤ sample) : confidence sample ≤ 1 := by
  have hprior := minSample_pos (R := R)
  rw [← sub_nonneg, one_sub_confidence h]
  positivity

theorem confidence_mono {sample' sample : R} (h0 : 0 ≤ sample') (hle : sample' ≤ sample) :
    confidence sample' ≤ confidence sample := by
  have hprior := minSample_pos (R := R)
  unfold confidence
  rw [div_le_div_iff₀ (by linarith) (by linarith)]
  nlinarith

theorem shrink_eq_pull {expected sample : R} (hexpected : 0 < expected) (hsample : 0 < sample)
    (observed : R) :
    shrink observed expected sample = pull (confidence sample) (observed / expected) := by
  unfold shrink pull confidence
  rw [if_neg (not_or.mpr ⟨hexpected.not_ge, hsample.not_ge⟩)]
  ring

/-- Ageing everything by one factor moves a strength towards one. -/
theorem shrink_aged {c : R} (h0 : 0 < c) (h1 : c ≤ 1) (observed expected sample : R) :
    shrink (c * observed) (c * expected) (c * sample) ∈
      Set.uIcc 1 (shrink observed expected sample) := by
  by_cases hnothing : expected ≤ 0 ∨ sample ≤ 0
  · rw [shrink_eq_one hnothing, shrink_eq_one]
    · exact Set.left_mem_uIcc
    · exact hnothing.imp (mul_nonpos_of_nonneg_of_nonpos h0.le)
        (mul_nonpos_of_nonneg_of_nonpos h0.le)
  · rw [not_or, not_le, not_le] at hnothing
    obtain ⟨hexpected, hsample⟩ := hnothing
    rw [shrink_eq_pull hexpected hsample,
      shrink_eq_pull (mul_pos h0 hexpected) (mul_pos h0 hsample),
      mul_div_mul_left _ _ h0.ne']
    apply pull_mem_uIcc
    · exact confidence_nonneg (mul_pos h0 hsample).le
    · exact confidence_mono (mul_pos h0 hsample).le (mul_le_of_le_one_left hsample.le h1)

end Pull

/-! ## Moving the anchor -/

/-- Seen from a later moment, a weight is the weight it had times the weight of
that moment. -/
theorem weight_trans {matchDate asOf asOf' : Instant} (hdate : matchDate ≤ asOf)
    (hle : asOf ≤ asOf') :
    (weight matchDate asOf' : ℝ) = weight asOf asOf' * weight matchDate asOf := by
  have hage : ∀ {a b : Instant}, a ≤ b →
      (ageDays a b : ℝ) = ((b - a : ℤ) : ℝ) / 1000000 / 86400 := by
    intro a b hab
    have hnonneg : (0 : ℝ) ≤ ((b - a : ℤ) : ℝ) := by
      exact_mod_cast sub_nonneg.mpr hab
    exact max_eq_left (by positivity)
  have hadd : (ageDays matchDate asOf' : ℝ) = ageDays asOf asOf' + ageDays matchDate asOf := by
    rw [hage (hdate.trans hle), hage hle, hage hdate]
    push_cast
    ring
  have hbase : (0 : ℝ) < 0.5 := by norm_num
  simp only [weight, PyMath.pow]
  rw [hadd, add_div, Real.rpow_add hbase]

theorem weight_le_one (matchDate asOf : Instant) : (weight matchDate asOf : ℝ) ≤ 1 := by
  apply Real.rpow_le_one
  · norm_num
  · norm_num
  · have hage : (0 : ℝ) ≤ ageDays matchDate asOf := le_max_right _ _
    have hhalf : 0 < HALF_LIFE_DAYS ℝ := by
      unfold HALF_LIFE_DAYS
      norm_num
    positivity

/-- No match of the history is after the anchor. -/
def UpTo (asOf : Instant) (l : List MatchResult) : Prop := ∀ m ∈ l, m.utcDate ≤ asOf

theorem weighted_aged {l : List MatchResult} {asOf asOf' : Instant} (hl : UpTo asOf l)
    (hle : asOf ≤ asOf') :
    (weighted l asOf' : List (ℝ × MatchResult)) =
      (weighted l asOf).map fun e => (weight asOf asOf' * e.1, e.2) := by
  rw [weighted, weighted, List.map_map]
  refine List.map_congr_left fun m hm => ?_
  rw [weight_trans (hl m hm) hle]
  rfl

theorem tallied_scaled (c : ℝ) (home away : MatchResult → ℝ) (entries : List (ℝ × MatchResult))
    (key : TeamKey) :
    tallied home away (entries.map fun e => (c * e.1, e.2)) key =
      c * tallied home away entries key := by
  rw [tallied, tallied, List.map_map, ← List.sum_map_mul_left]
  congr 1
  refine List.map_congr_left fun e _ => ?_
  exact mul_assoc _ _ _

theorem weightedMean_scaled {c : ℝ} (hc : c ≠ 0) (count : MatchResult → ℤ)
    (entries : List (ℝ × MatchResult)) :
    weightedMean count (entries.map fun e => (c * e.1, e.2)) = weightedMean count entries := by
  have hcounts : ((entries.map fun e => (c * e.1, e.2)).map fun e => e.1 * (count e.2 : ℝ)).sum =
      c * (entries.map fun e => e.1 * (count e.2 : ℝ)).sum := by
    rw [List.map_map, ← List.sum_map_mul_left]
    congr 1
    refine List.map_congr_left fun e _ => ?_
    exact mul_assoc _ _ _
  have hweights : ((entries.map fun e => (c * e.1, e.2)).map Prod.fst).sum =
      c * (entries.map Prod.fst).sum := by
    rw [List.map_map, ← List.sum_map_mul_left]
    rfl
  rw [weightedMean, weightedMean, hcounts, hweights, mul_div_mul_left _ _ hc]

theorem decayedMean_aged {l : List MatchResult} {asOf asOf' : Instant} (hl : UpTo asOf l)
    (hle : asOf ≤ asOf') (count : MatchResult → ℤ) :
    decayedMean count l asOf' = decayedMean count l asOf := by
  rw [decayedMean, weighted_aged hl hle, weightedMean_scaled (weight_pos _ _).ne', decayedMean]

/-! ## The strengths of one team -/

theorem getElem?_sample_fitTotals {l : List MatchResult} {key : TeamKey} (h : Played l key)
    (asOf : Instant) : (fitTotals l asOf).sample[key]? =
      some (tallied (fun _ => 1) (fun _ => 1) (weighted l asOf) key) := by
  rw [fitTotals_eq]
  obtain ⟨s, hs⟩ := mem_iff_getElem?.mp (mem_tally_weighted.mpr h)
  rw [hs, ← getD_tally_weighted, ExtTreeMap.getD_eq_getD_getElem?, hs, Option.getD_some]

theorem sample_fitTotals_absent {l : List MatchResult} {key : TeamKey} (h : ¬ Played l key)
    (asOf : Instant) : (fitTotals l asOf).sample[key]? = none := by
  rw [fitTotals_eq]
  exact ExtTreeMap.getElem?_eq_none (mt mem_tally_weighted.mp h)

theorem attack_of_played {l : List MatchResult} {key : TeamKey} (h : Played l key)
    (asOf : Instant) : (fit l asOf : Strengths ℝ).attack[key]? =
      some (shrink ((fitTotals l asOf).scored.getD key 0)
        ((fitTotals l asOf).scoredBaseline.getD key 0)
        (tallied (fun _ => 1) (fun _ => 1) (weighted l asOf) key)) := by
  rw [fit_eq_fitTotals, getElem?_attack, getElem?_sample_fitTotals h, Option.map_some]

theorem defence_of_played {l : List MatchResult} {key : TeamKey} (h : Played l key)
    (asOf : Instant) : (fit l asOf : Strengths ℝ).defence[key]? =
      some (shrink ((fitTotals l asOf).conceded.getD key 0)
        ((fitTotals l asOf).concededBaseline.getD key 0)
        (tallied (fun _ => 1) (fun _ => 1) (weighted l asOf) key)) := by
  rw [fit_eq_fitTotals, getElem?_defence, getElem?_sample_fitTotals h, Option.map_some]

theorem strengths_absent {l : List MatchResult} {key : TeamKey} (h : ¬ Played l key)
    (asOf : Instant) : (fit l asOf : Strengths ℝ).attack[key]? = none ∧
      (fit l asOf : Strengths ℝ).defence[key]? = none := by
  rw [fit_eq_fitTotals, getElem?_attack, getElem?_defence, sample_fitTotals_absent h]
  exact ⟨rfl, rfl⟩

/-! ## Ageing -/

/-- Every total of an aged history is the total it was, times one factor. -/
theorem tallied_aged {l : List MatchResult} {asOf asOf' : Instant} (hl : UpTo asOf l)
    (hle : asOf ≤ asOf') (home away : MatchResult → ℝ) (key : TeamKey) :
    tallied home away (weighted l asOf') key =
      weight asOf asOf' * tallied home away (weighted l asOf) key := by
  rw [weighted_aged hl hle, tallied_scaled]

/-- A strength made of three totals moves towards one with them. -/
theorem shrink_tallied_aged {l : List MatchResult} {asOf asOf' : Instant} (hl : UpTo asOf l)
    (hle : asOf ≤ asOf') (home away home' away' : MatchResult → ℝ) (key : TeamKey) :
    shrink (tallied home away (weighted l asOf') key) (tallied home' away' (weighted l asOf') key)
        (tallied (fun _ => 1) (fun _ => 1) (weighted l asOf') key) ∈
      Set.uIcc 1 (shrink (tallied home away (weighted l asOf) key)
        (tallied home' away' (weighted l asOf) key)
        (tallied (fun _ => 1) (fun _ => 1) (weighted l asOf) key)) := by
  rw [tallied_aged hl hle home, tallied_aged hl hle home', tallied_aged hl hle (fun _ => 1)]
  exact shrink_aged (weight_pos _ _) (weight_le_one _ _) _ _ _

/-- The same teams have a strength, and each is on its way from one to what it was. -/
def Shrinks (later earlier : TeamMap ℝ) : Prop :=
  ∀ key : TeamKey, Option.Rel (fun x' x => x' ∈ Set.uIcc 1 x) later[key]? earlier[key]?

/-- **Ageing only shrinks**: a later anchor keeps the league rates and moves
every strength towards one, never past it and never away from it. -/
theorem ageing_shrinks (l : List MatchResult) (asOf asOf' : Instant)
    (hl : ∀ m ∈ l, m.utcDate ≤ asOf) (hle : asOf ≤ asOf') :
    (fit l asOf' : Strengths ℝ).leagueHome = (fit l asOf).leagueHome ∧
      (fit l asOf' : Strengths ℝ).leagueAway = (fit l asOf).leagueAway ∧
      Shrinks (fit l asOf').attack (fit l asOf).attack ∧
      Shrinks (fit l asOf').defence (fit l asOf).defence := by
  have hhome := decayedMean_aged hl hle MatchResult.homeGoals
  have haway := decayedMean_aged hl hle MatchResult.awayGoals
  refine ⟨?_, ?_, ?_, ?_⟩
  · rw [fit_eq, fit_eq]
    exact hhome
  · rw [fit_eq, fit_eq]
    exact haway
  · intro key
    by_cases hkey : Played l key
    · rw [attack_of_played hkey, attack_of_played hkey, fitTotals_eq, fitTotals_eq]
      simp only [getD_tally_weighted, hhome, haway]
      exact .some (shrink_tallied_aged hl hle _ _ _ _ key)
    · rw [(strengths_absent hkey asOf').1, (strengths_absent hkey asOf).1]
      exact .none
  · intro key
    by_cases hkey : Played l key
    · rw [defence_of_played hkey, defence_of_played hkey, fitTotals_eq, fitTotals_eq]
      simp only [getD_tally_weighted, hhome, haway]
      exact .some (shrink_tallied_aged hl hle _ _ _ _ key)
    · rw [(strengths_absent hkey asOf').2, (strengths_absent hkey asOf).2]
      exact .none

/-- Two matches seen on the day of the second and half a year on. -/
theorem ageing_shrinks_half_a_year :
    (fit twoRounds 16372800000000 : Strengths ℝ).leagueHome =
        (fit twoRounds 604800000000).leagueHome ∧
      (fit twoRounds 16372800000000 : Strengths ℝ).leagueAway =
        (fit twoRounds 604800000000).leagueAway ∧
      Shrinks (fit twoRounds 16372800000000).attack (fit twoRounds 604800000000).attack ∧
      Shrinks (fit twoRounds 16372800000000).defence (fit twoRounds 604800000000).defence :=
  ageing_shrinks twoRounds 604800000000 16372800000000 (by decide) (by decide)

/-! ## Bounds -/

/-- Whoever played has a sample. -/
theorem sample_pos {l : List MatchResult} {key : TeamKey} (h : Played l key) (asOf : Instant) :
    0 < tallied (fun _ => 1) (fun _ => 1) (weighted l asOf : List (ℝ × MatchResult)) key := by
  obtain ⟨m, hm, hside⟩ := h
  have hmem : (weight m.utcDate asOf, m) ∈ (weighted l asOf : List (ℝ × MatchResult)) :=
    List.mem_map_of_mem hm
  have hadds : (0 : ℝ) < added (fun _ => 1) (fun _ => 1) key (weight m.utcDate asOf, m) :=
    added_pos (weight_pos _ _) zero_le_one zero_le_one
      (hside.imp (fun hkey => ⟨hkey, one_pos⟩) fun hkey => ⟨hkey, one_pos⟩)
  refine hadds.trans_le (added_le_tallied ?_ hmem)
  intro e he
  exact added_nonneg (weighted_pos l asOf e he) zero_le_one zero_le_one

/-- What shrinkage leaves of an observed and an expected total. -/
structure Shrunk (observed expected sample strength : ℝ) : Prop where
  between : expected ≠ 0 → strength ∈ Set.uIcc 1 (observed / expected)
  average : expected = 0 → strength = 1
  least : MIN_SAMPLE ℝ / (sample + MIN_SAMPLE ℝ) ≤ strength
  least_pos : 0 < MIN_SAMPLE ℝ / (sample + MIN_SAMPLE ℝ)

theorem shrunk_shrink {observed expected sample : ℝ} (hobserved : 0 ≤ observed)
    (hexpected : 0 ≤ expected) (hsample : 0 < sample) :
    Shrunk observed expected sample (shrink observed expected sample) := by
  have hone := confidence_le_one hsample.le
  have hprior := minSample_pos (R := ℝ)
  have hleast : 0 < MIN_SAMPLE ℝ / (sample + MIN_SAMPLE ℝ) := by positivity
  rcases hexpected.eq_or_lt with rfl | hexpected
  · rw [shrink_eq_one (Or.inl le_rfl)]
    refine ⟨fun hne => absurd rfl hne, fun _ => rfl, ?_, hleast⟩
    rw [← one_sub_confidence hsample.le]
    exact sub_le_self _ (confidence_nonneg hsample.le)
  · rw [shrink_eq_pull hexpected hsample]
    refine ⟨fun _ => ?_, fun hzero => absurd hzero hexpected.ne', ?_, hleast⟩
    · have hpull := pull_mem_uIcc (confidence_nonneg hsample.le) hone (observed / expected)
      rwa [pull_one] at hpull
    · rw [← one_sub_confidence hsample.le, pull]
      have hratio : 0 ≤ confidence sample * (observed / expected) :=
        mul_nonneg (confidence_nonneg hsample.le) (div_nonneg hobserved hexpected.le)
      linarith

/-- A total of counts over a history is not negative. -/
theorem tallied_counts_nonneg {home away : MatchResult → ℝ} {l : List MatchResult}
    (hhome : ∀ m ∈ l, 0 ≤ home m) (haway : ∀ m ∈ l, 0 ≤ away m) (asOf : Instant) (key : TeamKey) :
    0 ≤ tallied home away (weighted l asOf) key := by
  apply tallied_nonneg
  intro e he
  have hpos := weighted_pos l asOf e he
  obtain ⟨m, hm, rfl⟩ := List.mem_map.mp he
  exact added_nonneg hpos (hhome m hm) (haway m hm)

/-- A strength made of a total of goals and a total of league rates. -/
theorem shrunk_tallied {l : List MatchResult} {key : TeamKey} (hkey : Played l key)
    (asOf : Instant) {home away : MatchResult → ℝ} {leagueHome leagueAway : ℝ}
    (hhome : ∀ m ∈ l, 0 ≤ home m) (haway : ∀ m ∈ l, 0 ≤ away m) (hhomeRate : 0 ≤ leagueHome)
    (hawayRate : 0 ≤ leagueAway) :
    Shrunk (tallied home away (weighted l asOf) key)
      (tallied (fun _ => leagueHome) (fun _ => leagueAway) (weighted l asOf) key)
      (tallied (fun _ => 1) (fun _ => 1) (weighted l asOf) key)
      (shrink (tallied home away (weighted l asOf) key)
        (tallied (fun _ => leagueHome) (fun _ => leagueAway) (weighted l asOf) key)
        (tallied (fun _ => 1) (fun _ => 1) (weighted l asOf) key)) := by
  apply shrunk_shrink _ _ (sample_pos hkey asOf)
  · exact tallied_counts_nonneg hhome haway asOf key
  · exact tallied_counts_nonneg (fun _ _ => hhomeRate) (fun _ _ => hawayRate) asOf key

/-- The bounds on the strengths and the rates that are read off a history. -/
structure StrengthsBounded (l : List MatchResult) (asOf : Instant) : Prop where
  played : ∀ key, Played l key → ∃ s attack defence,
    (fitTotals l asOf).sample[key]? = some s ∧
    (fit l asOf : Strengths ℝ).attack[key]? = some attack ∧
    (fit l asOf : Strengths ℝ).defence[key]? = some defence ∧
    Shrunk ((fitTotals l asOf).scored.getD key 0)
      ((fitTotals l asOf).scoredBaseline.getD key 0) s attack ∧
    Shrunk ((fitTotals l asOf).conceded.getD key 0)
      ((fitTotals l asOf).concededBaseline.getD key 0) s defence
  absent : ∀ key, ¬ Played l key → (fit l asOf : Strengths ℝ).attack[key]? = none ∧
    (fit l asOf : Strengths ℝ).defence[key]? = none
  home_rate : ∀ home away c : ℤ,
    (expectedGoals (fit l asOf : Strengths ℝ) home away c).1 = 0 → ∀ m ∈ l, m.homeGoals = 0
  away_rate : ∀ home away c : ℤ,
    (expectedGoals (fit l asOf : Strengths ℝ) home away c).2 = 0 → ∀ m ∈ l, m.awayGoals = 0

/-- **Shrinkage bounds every strength**: it lies between one and what was
observed, and never below what the prior is worth; so a rate of zero means that
nobody in the history scored on that side. -/
theorem strengths_bounded (l : List MatchResult) (hgoals : GoalsNonneg l) (asOf : Instant) :
    StrengthsBounded l asOf := by
  have hhome : ∀ m ∈ l, 0 ≤ m.homeGoals := fun m hm => (hgoals m hm).1
  have haway : ∀ m ∈ l, 0 ≤ m.awayGoals := fun m hm => (hgoals m hm).2
  have hhomeCast : ∀ m ∈ l, (0 : ℝ) ≤ m.homeGoals := fun m hm => Int.cast_nonneg (hhome m hm)
  have hawayCast : ∀ m ∈ l, (0 : ℝ) ≤ m.awayGoals := fun m hm => Int.cast_nonneg (haway m hm)
  have hhomeRate := decayedMean_nonneg hhome asOf
  have hawayRate := decayedMean_nonneg haway asOf
  refine ⟨?_, fun key hkey => strengths_absent hkey asOf, ?_, ?_⟩
  · intro key hkey
    refine ⟨_, _, _, getElem?_sample_fitTotals hkey asOf, attack_of_played hkey asOf,
      defence_of_played hkey asOf, ?_, ?_⟩
    · rw [fitTotals_eq, getD_tally_weighted, getD_tally_weighted]
      exact shrunk_tallied hkey asOf hhomeCast hawayCast hhomeRate hawayRate
    · rw [fitTotals_eq, getD_tally_weighted, getD_tally_weighted]
      exact shrunk_tallied hkey asOf hawayCast hhomeCast hawayRate hhomeRate
  · intro home away c hzero
    obtain ⟨a, ha, b, hb, hlambdas⟩ := expectedGoals_fit hgoals asOf home away c
    rw [hlambdas] at hzero
    exact count_eq_zero_of_decayedMean hhome ((mul_eq_zero.mp hzero).resolve_right ha.ne')
  · intro home away c hzero
    obtain ⟨a, ha, b, hb, hlambdas⟩ := expectedGoals_fit hgoals asOf home away c
    rw [hlambdas] at hzero
    exact count_eq_zero_of_decayedMean haway ((mul_eq_zero.mp hzero).resolve_right hb.ne')

/-- The bounds after a home win and a goalless return match. -/
theorem strengths_bounded_two_rounds : StrengthsBounded twoRounds 604800000000 :=
  strengths_bounded twoRounds (by unfold GoalsNonneg; decide) 604800000000

end AGame.Engine.Poisson
