import AGame.Engine.Rates

/-!
# What the totals of a fit balance

Each of the five dictionaries of `fit` is filled on its own, by what the home
side and what the away side add for one match (`tally`). Goals are scored by
somebody against somebody, so over all teams the goals and their baselines come
to the same (`calibrated_fitTotals`), and a goal scored is a goal conceded by
the other side (`fit_swapGoals`, `fit_swapSides`).
-/

namespace AGame.Engine.Poisson

open Std (ExtTreeMap)
open Base Elo

section

variable {R : Type} [Field R]

/-! ## One dictionary at a time -/

/-- One match in one dictionary: what the home side adds, then what the away
side adds. -/
def tally (home away : MatchResult → R) (d : TeamMap R) (e : R × MatchResult) : TeamMap R :=
  addAt (addAt d e.2.homeKey (e.1 * home e.2)) e.2.awayKey (e.1 * away e.2)

/-- What one match adds at a key. -/
def added (home away : MatchResult → R) (k : TeamKey) (e : R × MatchResult) : R :=
  e.1 * ((if e.2.homeKey = k then home e.2 else 0) + if e.2.awayKey = k then away e.2 else 0)

/-- What some matches add at a key. -/
def tallied (home away : MatchResult → R) (entries : List (R × MatchResult)) (k : TeamKey) : R :=
  (entries.map (added home away k)).sum

/-- `fit` keeps five tallies. -/
theorem foldl_addMatch (leagueHome leagueAway : R) (entries : List (R × MatchResult))
    (t : Totals R) :
    entries.foldl (addMatch leagueHome leagueAway) t =
      { scored := entries.foldl (tally (fun m => m.homeGoals) fun m => m.awayGoals) t.scored
        conceded := entries.foldl (tally (fun m => m.awayGoals) fun m => m.homeGoals) t.conceded
        scoredBaseline :=
          entries.foldl (tally (fun _ => leagueHome) fun _ => leagueAway) t.scoredBaseline
        concededBaseline :=
          entries.foldl (tally (fun _ => leagueAway) fun _ => leagueHome) t.concededBaseline
        sample := entries.foldl (tally (fun _ => 1) fun _ => 1) t.sample } := by
  induction entries generalizing t with
  | nil => rfl
  | cons e entries ih =>
      rw [List.foldl_cons, ih]
      simp only [List.foldl_cons, addMatch, addSide, tally, mul_one]

theorem getD_foldl_tally (home away : MatchResult → R) (entries : List (R × MatchResult))
    (d : TeamMap R) (k : TeamKey) :
    (entries.foldl (tally home away) d).getD k 0 = d.getD k 0 + tallied home away entries k := by
  induction entries generalizing d with
  | nil => simp [tallied]
  | cons e entries ih =>
      rw [List.foldl_cons, ih, tally, getD_addAt, getD_addAt]
      simp only [tallied, List.map_cons, List.sum_cons, added]
      split_ifs
      · ring
      · ring
      · ring
      · ring

theorem mem_foldl_tally {home away : MatchResult → R} {entries : List (R × MatchResult)}
    {d : TeamMap R} {k : TeamKey} :
    k ∈ entries.foldl (tally home away) d ↔
      k ∈ d ∨ ∃ e ∈ entries, e.2.homeKey = k ∨ e.2.awayKey = k := by
  induction entries generalizing d with
  | nil => simp
  | cons e entries ih =>
      rw [List.foldl_cons, ih, tally, mem_addAt, mem_addAt, List.exists_mem_cons_iff]
      generalize (∃ e ∈ entries, e.2.homeKey = k ∨ e.2.awayKey = k) = later
      tauto

/-- The sum over all teams. -/
abbrev overTeams (d : TeamMap R) : R := Base.total (fun _ x => x) d

theorem overTeams_addAt (d : TeamMap R) (key : TeamKey) (x : R) :
    overTeams (addAt d key x) = overTeams d + x := by
  rw [overTeams, addAt, ExtTreeMap.getD_eq_getD_getElem?]
  by_cases hkey : key ∈ d
  · obtain ⟨y, hy⟩ := mem_iff_getElem?.mp hkey
    have hput := total_put_held (fun (_ : TeamKey) (x : R) => x) (y + x) hy
    rw [hy, Option.getD_some]
    linear_combination hput
  · rw [ExtTreeMap.getElem?_eq_none hkey, Option.getD_none, total_put_new _ _ hkey, zero_add,
      add_comm]

theorem overTeams_foldl_tally (home away : MatchResult → R) (entries : List (R × MatchResult))
    (d : TeamMap R) :
    overTeams (entries.foldl (tally home away) d) =
      overTeams d + (entries.map fun e => e.1 * (home e.2 + away e.2)).sum := by
  induction entries generalizing d with
  | nil => simp
  | cons e entries ih =>
      rw [List.foldl_cons, ih, tally, overTeams_addAt, overTeams_addAt, List.map_cons,
        List.sum_cons]
      ring

/-! ## Calibration -/

theorem sum_map_weight_mul (entries : List (R × MatchResult)) (x : R) :
    (entries.map fun e => e.1 * x).sum = (entries.map Prod.fst).sum * x := by
  induction entries with
  | nil => simp
  | cons e entries ih =>
      rw [List.map_cons, List.sum_cons, ih, List.map_cons, List.sum_cons, add_mul]

/-- Taking the mean for every count keeps the weighted sum. -/
theorem sum_map_weightedMean (count : MatchResult → ℤ) {entries : List (R × MatchResult)}
    (htotal : (entries.map Prod.fst).sum ≠ 0) :
    (entries.map fun e => e.1 * weightedMean count entries).sum =
      (entries.map fun e => e.1 * (count e.2 : R)).sum := by
  rw [sum_map_weight_mul, weightedMean, mul_div_cancel₀ _ htotal]

/-- Over all teams the tally of two counts is the tally of their means. -/
theorem overTeams_tally_weightedMean (home away : MatchResult → ℤ)
    {entries : List (R × MatchResult)} (htotal : (entries.map Prod.fst).sum ≠ 0) :
    overTeams (entries.foldl (tally (fun m => (home m : R)) fun m => (away m : R))
        (∅ : TeamMap R)) =
      overTeams (entries.foldl (tally (fun _ => weightedMean home entries) fun _ =>
        weightedMean away entries) (∅ : TeamMap R)) := by
  rw [overTeams_foldl_tally, overTeams_foldl_tally]
  simp only [mul_add, List.sum_map_add, sum_map_weightedMean _ htotal]

/-- The mean over the teams of observed against expected, weighted by what was expected. -/
def meanRatio (observed expected : TeamMap R) : R :=
  Base.total (fun key e => e * (observed.getD key 0 / e)) expected / overTeams expected

/-- A team nothing was expected of did nothing, so every ratio is one of numbers. -/
def RatiosDefined (observed expected : TeamMap R) : Prop :=
  ∀ key, expected.getD key 0 = 0 → observed.getD key 0 = 0

/-- Ratios weighted by what was expected average to one when as much was
observed as expected. -/
theorem meanRatio_eq_one {observed expected : TeamMap R}
    (hkeys : ∀ key, key ∈ expected ↔ key ∈ observed)
    (hsame : overTeams observed = overTeams expected) (hdefined : RatiosDefined observed expected)
    (hexpected : overTeams expected ≠ 0) : meanRatio observed expected = 1 := by
  have hterms : Base.total (fun key e => e * (observed.getD key 0 / e)) expected =
      overTeams observed := by
    apply total_congr _ _ hkeys
    intro key e o he ho
    have hobserved : observed.getD key 0 = o := by
      rw [ExtTreeMap.getD_eq_getD_getElem?, ho, Option.getD_some]
    have hzero := hdefined key
    rw [ExtTreeMap.getD_eq_getD_getElem?, he, Option.getD_some, hobserved] at hzero
    rw [hobserved]
    by_cases h : e = 0
    · rw [hzero h, h, zero_mul]
    · rw [mul_div_cancel₀ _ h]
  rw [meanRatio, hterms, hsame, div_self hexpected]

end

/-! ## The totals of a fit -/

/-- The totals `fit` accumulates. -/
noncomputable def fitTotals (l : List MatchResult) (asOf : Instant) : Totals ℝ :=
  (weighted l asOf).foldl (addMatch (decayedMean MatchResult.homeGoals l asOf)
    (decayedMean MatchResult.awayGoals l asOf)) .empty

theorem fit_eq_fitTotals (l : List MatchResult) (asOf : Instant) :
    (fit l asOf : Strengths ℝ) =
      strengthsOf (decayedMean MatchResult.homeGoals l asOf)
        (decayedMean MatchResult.awayGoals l asOf) (fitTotals l asOf) :=
  fit_eq l asOf

theorem fitTotals_eq (l : List MatchResult) (asOf : Instant) :
    fitTotals l asOf =
      { scored := (weighted l asOf).foldl (tally (fun m => m.homeGoals) fun m => m.awayGoals) ∅
        conceded := (weighted l asOf).foldl (tally (fun m => m.awayGoals) fun m => m.homeGoals) ∅
        scoredBaseline := (weighted l asOf).foldl
          (tally (fun _ => decayedMean MatchResult.homeGoals l asOf) fun _ =>
            decayedMean MatchResult.awayGoals l asOf) ∅
        concededBaseline := (weighted l asOf).foldl
          (tally (fun _ => decayedMean MatchResult.awayGoals l asOf) fun _ =>
            decayedMean MatchResult.homeGoals l asOf) ∅
        sample := (weighted l asOf).foldl (tally (fun _ => 1) fun _ => 1) ∅ } :=
  foldl_addMatch _ _ _ _

/-- A team is in a history when it played one of its matches. -/
def Played (l : List MatchResult) (key : TeamKey) : Prop :=
  ∃ m ∈ l, m.homeKey = key ∨ m.awayKey = key

theorem mem_tally_weighted {home away : MatchResult → ℝ} {l : List MatchResult} {asOf : Instant}
    {key : TeamKey} : key ∈ (weighted l asOf).foldl (tally home away) ∅ ↔ Played l key := by
  rw [mem_foldl_tally, or_iff_right ExtTreeMap.not_mem_empty, weighted]
  simp only [List.mem_map, exists_exists_and_eq_and, Played]

theorem getD_tally_weighted (home away : MatchResult → ℝ) (l : List MatchResult) (asOf : Instant)
    (key : TeamKey) : ((weighted l asOf).foldl (tally home away) (∅ : TeamMap ℝ)).getD key 0 =
      tallied home away (weighted l asOf) key := by
  rw [getD_foldl_tally, ExtTreeMap.getD_empty, zero_add]

section

variable {home away : MatchResult → ℝ} {entries : List (ℝ × MatchResult)} {key : TeamKey}

theorem added_nonneg {e : ℝ × MatchResult} (he : 0 < e.1) (hhome : 0 ≤ home e.2)
    (haway : 0 ≤ away e.2) : 0 ≤ added home away key e := by
  apply mul_nonneg he.le
  apply add_nonneg
  · split_ifs
    · exact hhome
    · exact le_rfl
  · split_ifs
    · exact haway
    · exact le_rfl

theorem added_pos {e : ℝ × MatchResult} (he : 0 < e.1) (hhome : 0 ≤ home e.2)
    (haway : 0 ≤ away e.2)
    (hside : e.2.homeKey = key ∧ 0 < home e.2 ∨ e.2.awayKey = key ∧ 0 < away e.2) :
    0 < added home away key e := by
  apply mul_pos he
  rcases hside with ⟨hkey, hpos⟩ | ⟨hkey, hpos⟩
  · rw [if_pos hkey]
    apply add_pos_of_pos_of_nonneg hpos
    split_ifs
    · exact haway
    · exact le_rfl
  · rw [if_pos hkey]
    apply add_pos_of_nonneg_of_pos _ hpos
    split_ifs
    · exact hhome
    · exact le_rfl

/-- No match adds more than all of them together. -/
theorem added_le_tallied (hpos : ∀ e ∈ entries, 0 ≤ added home away key e) {e : ℝ × MatchResult}
    (he : e ∈ entries) : added home away key e ≤ tallied home away entries key := by
  refine List.single_le_sum ?_ _ (List.mem_map_of_mem he)
  intro x hx
  obtain ⟨e', he', rfl⟩ := List.mem_map.mp hx
  exact hpos e' he'

theorem tallied_nonneg (hpos : ∀ e ∈ entries, 0 ≤ added home away key e) :
    0 ≤ tallied home away entries key := by
  apply List.sum_nonneg
  intro x hx
  obtain ⟨e, he, rfl⟩ := List.mem_map.mp hx
  exact hpos e he

/-- Nothing is expected of a side only where its rate is zero. -/
theorem rates_of_tallied_eq_zero {leagueHome leagueAway : ℝ} (hhome : 0 ≤ leagueHome)
    (haway : 0 ≤ leagueAway) (hpos : ∀ e ∈ entries, 0 < e.1)
    (hzero : tallied (fun _ => leagueHome) (fun _ => leagueAway) entries key = 0) :
    ∀ e ∈ entries, (e.2.homeKey = key → leagueHome = 0) ∧ (e.2.awayKey = key → leagueAway = 0) := by
  intro e he
  have hle : added (fun _ => leagueHome) (fun _ => leagueAway) key e ≤ 0 := by
    rw [← hzero]
    exact added_le_tallied (fun e' he' => added_nonneg (hpos e' he') hhome haway) he
  constructor
  · intro hkey
    by_contra hne
    have hrate : 0 < leagueHome := lt_of_le_of_ne hhome (Ne.symm hne)
    exact hle.not_gt (added_pos (hpos e he) hhome haway (Or.inl ⟨hkey, hrate⟩))
  · intro hkey
    by_contra hne
    have hrate : 0 < leagueAway := lt_of_le_of_ne haway (Ne.symm hne)
    exact hle.not_gt (added_pos (hpos e he) hhome haway (Or.inr ⟨hkey, hrate⟩))

end

/-- A mean of counts is zero when all of them are. -/
theorem count_eq_zero_of_decayedMean {count : MatchResult → ℤ} {l : List MatchResult}
    (hcount : ∀ m ∈ l, 0 ≤ count m) {asOf : Instant} (hzero : decayedMean count l asOf = 0) :
    ∀ m ∈ l, count m = 0 := by
  intro m hm
  by_contra hne
  have hpos := (decayedMean_pos_iff hcount asOf).mpr
    ⟨m, hm, lt_of_le_of_ne (hcount m hm) (Ne.symm hne)⟩
  exact hpos.ne' hzero

/-- With goals counted upwards, a side with no baseline has no goals. -/
theorem tallied_eq_zero_of_baseline {home away : MatchResult → ℤ} {l : List MatchResult}
    (hhome : ∀ m ∈ l, 0 ≤ home m) (haway : ∀ m ∈ l, 0 ≤ away m) {asOf : Instant} {key : TeamKey}
    (hzero : tallied (fun _ => decayedMean home l asOf) (fun _ => decayedMean away l asOf)
      (weighted l asOf) key = 0) :
    tallied (fun m => (home m : ℝ)) (fun m => (away m : ℝ)) (weighted l asOf) key = 0 := by
  have hrates := rates_of_tallied_eq_zero (decayedMean_nonneg hhome asOf)
    (decayedMean_nonneg haway asOf) (weighted_pos l asOf) hzero
  apply List.sum_eq_zero
  intro x hx
  obtain ⟨e, he, rfl⟩ := List.mem_map.mp hx
  obtain ⟨m, hm, rfl⟩ := List.mem_map.mp he
  have hhomeGoals : (if m.homeKey = key then (home m : ℝ) else 0) = 0 := by
    split_ifs with hkey
    · rw [count_eq_zero_of_decayedMean hhome ((hrates _ he).1 hkey) m hm, Int.cast_zero]
    · rfl
  have hawayGoals : (if m.awayKey = key then (away m : ℝ) else 0) = 0 := by
    split_ifs with hkey
    · rw [count_eq_zero_of_decayedMean haway ((hrates _ he).2 hkey) m hm, Int.cast_zero]
    · rfl
  rw [added, hhomeGoals, hawayGoals, add_zero, mul_zero]

/-! ## Calibration of a fit -/

/-- The average side of a fit is worth one. -/
structure Calibrated (t : Totals ℝ) : Prop where
  scored : overTeams t.scored = overTeams t.scoredBaseline
  conceded : overTeams t.conceded = overTeams t.concededBaseline
  attack : RatiosDefined t.scored t.scoredBaseline → 0 < overTeams t.scoredBaseline →
    meanRatio t.scored t.scoredBaseline = 1
  defence : RatiosDefined t.conceded t.concededBaseline → 0 < overTeams t.concededBaseline →
    meanRatio t.conceded t.concededBaseline = 1

theorem ratiosDefined_fitTotals {l : List MatchResult} (hgoals : GoalsNonneg l) (asOf : Instant) :
    RatiosDefined (fitTotals l asOf).scored (fitTotals l asOf).scoredBaseline ∧
      RatiosDefined (fitTotals l asOf).conceded (fitTotals l asOf).concededBaseline := by
  have hhome : ∀ m ∈ l, 0 ≤ m.homeGoals := fun m hm => (hgoals m hm).1
  have haway : ∀ m ∈ l, 0 ≤ m.awayGoals := fun m hm => (hgoals m hm).2
  rw [fitTotals_eq]
  constructor
  · intro key hzero
    rw [getD_tally_weighted] at hzero ⊢
    exact tallied_eq_zero_of_baseline hhome haway hzero
  · intro key hzero
    rw [getD_tally_weighted] at hzero ⊢
    exact tallied_eq_zero_of_baseline haway hhome hzero

/-- `fit` reads calibrated totals, and where goals are counted upwards every
ratio it takes is one of numbers. -/
structure CalibratedFit (l : List MatchResult) (asOf : Instant) : Prop where
  read : (fit l asOf : Strengths ℝ) = strengthsOf (decayedMean MatchResult.homeGoals l asOf)
    (decayedMean MatchResult.awayGoals l asOf) (fitTotals l asOf)
  calibrated : Calibrated (fitTotals l asOf)
  attack_defined : GoalsNonneg l →
    RatiosDefined (fitTotals l asOf).scored (fitTotals l asOf).scoredBaseline
  defence_defined : GoalsNonneg l →
    RatiosDefined (fitTotals l asOf).conceded (fitTotals l asOf).concededBaseline

/-- **The average side is calibrated to one**: over all teams the goals of a
history come to their baselines, whoever met whom. -/
theorem calibrated_fitTotals (l : List MatchResult) (hl : l ≠ []) (asOf : Instant) :
    CalibratedFit l asOf := by
  have htotal := (totalWeight_pos hl asOf).ne'
  have hscored := overTeams_tally_weightedMean MatchResult.homeGoals MatchResult.awayGoals htotal
  have hconceded := overTeams_tally_weightedMean MatchResult.awayGoals MatchResult.homeGoals htotal
  refine ⟨fit_eq_fitTotals l asOf, ?_, fun hgoals => (ratiosDefined_fitTotals hgoals asOf).1,
    fun hgoals => (ratiosDefined_fitTotals hgoals asOf).2⟩
  rw [fitTotals_eq]
  refine ⟨hscored, hconceded, ?_, ?_⟩
  · intro hdefined hexpected
    apply meanRatio_eq_one _ hscored hdefined hexpected.ne'
    intro key
    rw [mem_tally_weighted, mem_tally_weighted]
  · intro hdefined hexpected
    apply meanRatio_eq_one _ hconceded hdefined hexpected.ne'
    intro key
    rw [mem_tally_weighted, mem_tally_weighted]

/-- Two teams have met twice, a week apart: three to one, and nil to nil. -/
abbrev twoRounds : List MatchResult :=
  [⟨1, 2021, 0, 1, 2, 3, 1⟩, ⟨2, 2021, 604800000000, 2, 1, 0, 0⟩]

/-- On the day of the second match the first one weighs less. -/
theorem calibrated_two_rounds : CalibratedFit twoRounds 604800000000 :=
  calibrated_fitTotals twoRounds (List.cons_ne_nil _ _) 604800000000

/-! ## The two symmetries -/

section

variable {R : Type} [Field R]

/-- The same match with the goals the other way round. -/
def swapGoals (m : MatchResult) : MatchResult :=
  { m with homeGoals := m.awayGoals, awayGoals := m.homeGoals }

/-- The same match told from the other ground: teams and goals change sides. -/
def swapSides (m : MatchResult) : MatchResult :=
  { swapGoals m with homeTeamId := m.awayTeamId, awayTeamId := m.homeTeamId }

def swapEntries (swap : MatchResult → MatchResult) (entries : List (R × MatchResult)) :
    List (R × MatchResult) :=
  entries.map fun e => (e.1, swap e.2)

/-- Told from the other ground, a tally swaps what it adds for the two sides. -/
theorem foldl_tally_swapSides (home away : MatchResult → R) (entries : List (R × MatchResult))
    (d : TeamMap R) :
    (swapEntries swapSides entries).foldl (tally home away) d =
      entries.foldl (tally (fun m => away (swapSides m)) fun m => home (swapSides m)) d := by
  rw [swapEntries, List.foldl_map]
  congr 1
  funext d e
  exact addAt_comm _ _ _ _ _

theorem foldl_tally_swapGoals (home away : MatchResult → R) (entries : List (R × MatchResult))
    (d : TeamMap R) :
    (swapEntries swapGoals entries).foldl (tally home away) d =
      entries.foldl (tally (fun m => home (swapGoals m)) fun m => away (swapGoals m)) d := by
  rw [swapEntries, List.foldl_map]
  rfl

/-- The same weights in the same order, with the counts of the swapped matches. -/
theorem weightedMean_swapEntries (swap : MatchResult → MatchResult) (count : MatchResult → ℤ)
    (entries : List (R × MatchResult)) :
    weightedMean count (swapEntries swap entries) =
      weightedMean (fun m => count (swap m)) entries := by
  simp only [weightedMean, swapEntries, List.map_map, Function.comp_def]

theorem sum_fst_swapEntries (swap : MatchResult → MatchResult) (entries : List (R × MatchResult)) :
    ((swapEntries swap entries).map Prod.fst).sum = (entries.map Prod.fst).sum := by
  simp only [swapEntries, List.map_map, Function.comp_def]

variable [LinearOrder R]

/-- `fit` from a weighted history, by its league rates and its totals. -/
theorem fitWeighted_of_totals (entries : List (R × MatchResult)) :
    fitWeighted entries =
      if (entries.map Prod.fst).sum ≤ 0 then .default
      else strengthsOf (weightedMean MatchResult.homeGoals entries)
        (weightedMean MatchResult.awayGoals entries)
        (entries.foldl (addMatch (weightedMean MatchResult.homeGoals entries)
          (weightedMean MatchResult.awayGoals entries)) .empty) :=
  rfl

theorem fitWeighted_swapGoals (entries : List (R × MatchResult)) :
    fitWeighted (swapEntries swapGoals entries) =
      { leagueHome := (fitWeighted entries).leagueAway
        leagueAway := (fitWeighted entries).leagueHome
        attack := (fitWeighted entries).defence
        defence := (fitWeighted entries).attack } := by
  rw [fitWeighted_of_totals, fitWeighted_of_totals, sum_fst_swapEntries]
  split_ifs
  · rfl
  · simp only [weightedMean_swapEntries, foldl_addMatch, foldl_tally_swapGoals]
    rfl

theorem fitWeighted_swapSides (entries : List (R × MatchResult)) :
    fitWeighted (swapEntries swapSides entries) =
      { leagueHome := (fitWeighted entries).leagueAway
        leagueAway := (fitWeighted entries).leagueHome
        attack := (fitWeighted entries).attack
        defence := (fitWeighted entries).defence } := by
  rw [fitWeighted_of_totals, fitWeighted_of_totals, sum_fst_swapEntries]
  split_ifs
  · rfl
  · simp only [weightedMean_swapEntries, foldl_addMatch, foldl_tally_swapSides]
    rfl

variable [PyMath R]

theorem weighted_map (swap : MatchResult → MatchResult)
    (hdate : ∀ m, (swap m).utcDate = m.utcDate) (l : List MatchResult) (asOf : Instant) :
    (weighted (l.map swap) asOf : List (R × MatchResult)) =
      swapEntries swap (weighted l asOf) := by
  simp only [weighted, swapEntries, List.map_map, Function.comp_def, hdate]

/-- **Attack and defence are dual**: with the goals of every match the other way
round they change places, and told from the other grounds they stay. -/
theorem attack_defence_dual (l : List MatchResult) (asOf : Instant) :
    (fit (l.map swapGoals) asOf : Strengths R) =
        { leagueHome := (fit l asOf).leagueAway
          leagueAway := (fit l asOf).leagueHome
          attack := (fit l asOf).defence
          defence := (fit l asOf).attack } ∧
      (fit (l.map swapSides) asOf : Strengths R) =
        { leagueHome := (fit l asOf).leagueAway
          leagueAway := (fit l asOf).leagueHome
          attack := (fit l asOf).attack
          defence := (fit l asOf).defence } := by
  simp only [fit_eq_fitWeighted]
  constructor
  · rw [weighted_map swapGoals (fun _ => rfl), fitWeighted_swapGoals]
  · rw [weighted_map swapSides (fun _ => rfl), fitWeighted_swapSides]

end

end AGame.Engine.Poisson
