import AGame.Engine.Points
import AGame.Engine.Update

/-!
# How far ratings drift

Nothing pulls a rating back to the default, so what bounds it is what can move it: the
stakes of its team's own matches, and the seed it entered with. A seed is the average of
the league less the penalty, and the average loses at most the harmonic share of the
penalty with every team the league takes in (`leagueAverage_ge`).
-/

namespace AGame.Engine.Elo

open Std (ExtTreeMap)
open Base

/-! ## Stakes -/

/-- The points that can change hands in a match. -/
noncomputable def stake (m : MatchResult) : ℝ := K_FACTOR ℝ * marginMultiplier m

def plays (key : TeamKey) (m : MatchResult) : Bool := decide (key = m.homeKey ∨ key = m.awayKey)

/-- The stakes of a team's matches. -/
noncomputable def staked (key : TeamKey) (l : List MatchResult) : ℝ :=
  ((l.filter (plays key)).map stake).sum

theorem staked_nonneg (key : TeamKey) (l : List MatchResult) : 0 ≤ staked key l := by
  refine List.sum_nonneg fun x hx => ?_
  obtain ⟨m, -, rfl⟩ := List.mem_map.mp hx
  exact (stake_pos m).le

theorem staked_perm {key : TeamKey} {l l' : List MatchResult} (h : l.Perm l') :
    staked key l = staked key l' :=
  ((h.filter _).map _).sum_eq

theorem staked_concat (key : TeamKey) (listing : List MatchResult) (m : MatchResult) :
    staked key (listing ++ [m]) = staked key listing + if plays key m then stake m else 0 := by
  rw [staked, List.filter_append, List.map_append, List.sum_append, ← staked]
  split_ifs with hside
  · rw [List.filter_cons_of_pos hside]
    simp
  · rw [List.filter_cons_of_neg hside]
    simp

theorem abs_pointsWon_le (ratings : TeamMap ℝ) (m : MatchResult) :
    |pointsWon ratings m| ≤ stake m := by
  rw [stake, marginMultiplier_eq]
  exact (abs_ratingChange_lt m _ _).le

/-! ## Seeds -/

/-- The penalties, as shares of one, that the average of a league has lost to the teams
it has taken in after its first two. -/
noncomputable def drift (n : ℕ) : ℝ := ∑ i ∈ Finset.Ioc 2 n, (i : ℝ)⁻¹

theorem drift_nonneg (n : ℕ) : 0 ≤ drift n :=
  Finset.sum_nonneg fun _ _ => by positivity

/-- Teams that enter together take no more than they would one after another. -/
theorem drift_add {n : ℕ} (hn : 2 ≤ n) (k : ℕ) :
    drift n + (k : ℝ) / ((n : ℝ) + (k : ℝ)) ≤ drift (n + k) := by
  have hsplit := Finset.sum_Ioc_consecutive (fun i : ℕ => (i : ℝ)⁻¹) hn (Nat.le_add_right n k)
  -- each of them takes at least what the last one would
  have hterm : ∀ i ∈ Finset.Ioc n (n + k), ((n : ℝ) + (k : ℝ))⁻¹ ≤ (i : ℝ)⁻¹ := by
    intro i hi
    obtain ⟨hlow, hhigh⟩ := Finset.mem_Ioc.mp hi
    have hpos : (0 : ℝ) < i := by
      exact_mod_cast Nat.zero_lt_of_lt hlow
    refine inv_anti₀ hpos ?_
    exact_mod_cast hhigh
  have hshare := Finset.card_nsmul_le_sum _ _ _ hterm
  rw [Nat.card_Ioc, Nat.add_sub_cancel_left, nsmul_eq_mul, ← div_eq_mul_inv] at hshare
  rw [drift, drift, ← hsplit]
  linarith

theorem drift_mono {n n' : ℕ} (h : n ≤ n') : drift n ≤ drift n' := by
  refine Finset.sum_le_sum_of_subset_of_nonneg (Finset.Ioc_subset_Ioc_right h) ?_
  intro i _ _
  positivity

theorem ratedTeams_empty (c : ℤ) : ratedTeams c (∅ : TeamMap ℝ) = 0 := by
  rw [ratedTeams, leagueOf_empty]
  exact ExtTreeMap.size_empty

/-- Nobody is ever taken out of a league. -/
theorem ratedTeams_mono (ratings : TeamMap ℝ) {m : MatchResult} (hteams : m.homeKey ≠ m.awayKey)
    (c : ℤ) : ratedTeams c ratings ≤ ratedTeams c (applyMatch ratings m).1 := by
  by_cases hleague : m.competitionId = c
  · subst hleague
    rw [ratedTeams_applyMatch _ hteams]
    omega
  · rw [ratedTeams, ratedTeams, applyMatch_leagueOf_other _ hleague]

section

variable {listing : List MatchResult} (hteams : ∀ m ∈ listing, m.homeKey ≠ m.awayKey)
include hteams

/-- **The average of a league sinks harmonically at most.** -/
theorem leagueAverage_ge (c : ℤ)
    (hrated : 0 < ratedTeams c (ratingsAfter (∅ : TeamMap ℝ) listing)) :
    2 ≤ ratedTeams c (ratingsAfter (∅ : TeamMap ℝ) listing) ∧
      DEFAULT_RATING ℝ -
          PROMOTED_PENALTY ℝ * drift (ratedTeams c (ratingsAfter (∅ : TeamMap ℝ) listing)) ≤
        leagueAverage c (ratingsAfter (∅ : TeamMap ℝ) listing) := by
  induction listing using List.reverseRecOn with
  | nil =>
      rw [ratingsAfter, finalState_nil, ratedTeams_empty] at hrated
      exact absurd hrated (lt_irrefl 0)
  | append_singleton listing m ih =>
      have ih := ih fun m' hm' => hteams m' (List.mem_append_left _ hm')
      have hm := hteams m (by simp)
      have hpenalty := promotedPenalty_pos (R := ℝ)
      rw [ratingsAfter_concat] at hrated ⊢
      by_cases hleague : m.competitionId = c
      · subst hleague
        rw [ratedTeams_applyMatch _ hm] at hrated ⊢
        rcases Nat.eq_zero_or_pos
          (ratedTeams m.competitionId (ratingsAfter (∅ : TeamMap ℝ) listing)) with
          hfirst | hlater
        · -- the first two teams are seeded with the default
          rw [leagueAverage_first hm hfirst, hfirst, newcomers_of_unrated hfirst]
          refine ⟨le_rfl, sub_le_self _ ?_⟩
          exact mul_nonneg hpenalty.le (drift_nonneg _)
        · obtain ⟨htwo, hfloor⟩ := ih hlater
          have hshare := mul_le_mul_of_nonneg_left
            (drift_add htwo (newcomers (ratingsAfter (∅ : TeamMap ℝ) listing) m).length) hpenalty.le
          rw [leagueAverage_applyMatch hm hlater, add_comm (List.length _)]
          refine ⟨htwo.trans (Nat.le_add_right _ _), ?_⟩
          rw [mul_add, ← mul_div_assoc, mul_comm _ (List.length _ : ℝ)] at hshare
          linarith
      · -- a match of another league
        rw [leagueAverage_other _ hleague]
        rw [ratedTeams, applyMatch_leagueOf_other _ hleague] at hrated ⊢
        exact ih hrated

theorem seedRating_inRange (c : ℤ) :
    DEFAULT_RATING ℝ -
        PROMOTED_PENALTY ℝ * (1 + drift (ratedTeams c (ratingsAfter (∅ : TeamMap ℝ) listing))) ≤
      seedRating (ratingsAfter (∅ : TeamMap ℝ) listing) c ∧
    seedRating (ratingsAfter (∅ : TeamMap ℝ) listing) c ≤ DEFAULT_RATING ℝ := by
  have hpenalty := promotedPenalty_pos (R := ℝ)
  rw [seedRating_eq]
  split_ifs with hfirst
  · refine ⟨sub_le_self _ ?_, le_rfl⟩
    have hdrift := drift_nonneg (ratedTeams c (ratingsAfter (∅ : TeamMap ℝ) listing))
    positivity
  · have hlater := Nat.pos_of_ne_zero hfirst
    have hfloor := (leagueAverage_ge hteams c hlater).2
    have hceiling := leagueAverage_le hteams c hlater
    constructor
    · linarith
    · linarith

end

/-! ## Ratings -/

/-- A rating its team can have after a listing: no more above the default than the team
has staked, and no more below the lowest seed. -/
structure InRange (ratings : TeamMap ℝ) (listing : List MatchResult) (key : TeamKey)
    (rating : ℝ) : Prop where
  low : DEFAULT_RATING ℝ - PROMOTED_PENALTY ℝ * (1 + drift (ratedTeams key.2 ratings)) -
    staked key listing ≤ rating
  high : rating ≤ DEFAULT_RATING ℝ + staked key listing

/-- A team that plays for a stake. -/
theorem InRange.played {ratings : TeamMap ℝ} {listing : List MatchResult} {key : TeamKey}
    {rating won : ℝ} {m : MatchResult} (h : InRange ratings listing key rating)
    (hteams : m.homeKey ≠ m.awayKey) (hside : plays key m = true) (hwon : |won| ≤ stake m) :
    InRange (applyMatch ratings m).1 (listing ++ [m]) key (rating + won) := by
  obtain ⟨hloss, hgain⟩ := abs_le.mp hwon
  have hdrift := mul_le_mul_of_nonneg_left (drift_mono (ratedTeams_mono ratings hteams key.2))
    (promotedPenalty_pos (R := ℝ)).le
  have hlow := h.low
  have hhigh := h.high
  constructor
  · rw [staked_concat, if_pos hside]
    linarith
  · rw [staked_concat, if_pos hside]
    linarith

/-- A team that sits a match out. -/
theorem InRange.satOut {ratings : TeamMap ℝ} {listing : List MatchResult} {key : TeamKey}
    {rating : ℝ} {m : MatchResult} (h : InRange ratings listing key rating)
    (hteams : m.homeKey ≠ m.awayKey) (hside : ¬ plays key m = true) :
    InRange (applyMatch ratings m).1 (listing ++ [m]) key rating := by
  have hdrift := mul_le_mul_of_nonneg_left (drift_mono (ratedTeams_mono ratings hteams key.2))
    (promotedPenalty_pos (R := ℝ)).le
  have hlow := h.low
  have hhigh := h.high
  constructor
  · rw [staked_concat, if_neg hside]
    linarith
  · rw [staked_concat, if_neg hside]
    linarith

/-- A lookup that falls back on the seed. -/
theorem getD_inRange {listing : List MatchResult} (hteams : ∀ m ∈ listing, m.homeKey ≠ m.awayKey)
    {key : TeamKey} (hrated : ∀ rating, (ratingsAfter (∅ : TeamMap ℝ) listing)[key]? = some rating →
      InRange (ratingsAfter ∅ listing) listing key rating) :
    InRange (ratingsAfter ∅ listing) listing key
      ((ratingsAfter (∅ : TeamMap ℝ) listing).getD key
        (seedRating (ratingsAfter ∅ listing) key.2)) := by
  rw [ExtTreeMap.getD_eq_getD_getElem?]
  cases hkey : (ratingsAfter (∅ : TeamMap ℝ) listing)[key]? with
  | some rating => exact hrated rating hkey
  | none =>
      obtain ⟨hlow, hhigh⟩ := seedRating_inRange hteams key.2
      have hstaked := staked_nonneg key listing
      rw [Option.getD_none]
      constructor
      · linarith
      · linarith

/-- **Every rating stays in range.** -/
theorem ratingsAfter_inRange {listing : List MatchResult}
    (hteams : ∀ m ∈ listing, m.homeKey ≠ m.awayKey) (key : TeamKey) (rating : ℝ)
    (hrating : (ratingsAfter (∅ : TeamMap ℝ) listing)[key]? = some rating) :
    InRange (ratingsAfter ∅ listing) listing key rating := by
  induction listing using List.reverseRecOn generalizing key rating with
  | nil =>
      rw [ratingsAfter, finalState_nil, ExtTreeMap.getElem?_empty] at hrating
      cases hrating
  | append_singleton listing m ih =>
      have hearlier : ∀ m' ∈ listing, m'.homeKey ≠ m'.awayKey := fun m' hm' =>
        hteams m' (List.mem_append_left _ hm')
      have hm := hteams m (by simp)
      have hkickoff := fun key => getD_inRange hearlier (ih hearlier key)
      have hwon := abs_pointsWon_le (ratingsAfter ∅ listing) m
      rw [ratingsAfter_concat] at hrating ⊢
      rw [applyMatch_ratings, getElem?_put, getElem?_put] at hrating
      split_ifs at hrating with haway hhome
      · obtain rfl := Option.some.inj hrating
        subst haway
        rw [sub_eq_add_neg]
        refine (hkickoff m.awayKey).played hm (by simp [plays]) ?_
        rwa [abs_neg]
      · obtain rfl := Option.some.inj hrating
        subst hhome
        exact (hkickoff m.homeKey).played hm (by simp [plays]) hwon
      · refine (ih hearlier key rating hrating).satOut hm ?_
        simp [plays, Ne.symm haway, Ne.symm hhome]

/-- What a fixture is rated at, whether its teams have played or not. -/
theorem run_inRange {l : List MatchResult} (hteams : ∀ m ∈ l, m.homeKey ≠ m.awayKey)
    (key : TeamKey) :
    InRange (run l).ratings l key
      ((run l : EloState ℝ).ratings.getD key (seedRating (run l).ratings key.2)) := by
  have hlisting : ∀ m ∈ chronological l, m.homeKey ≠ m.awayKey := fun m hm =>
    hteams m ((chronological_perm l).subset hm)
  rw [run_ratings]
  obtain ⟨hlow, hhigh⟩ := getD_inRange hlisting (ratingsAfter_inRange hlisting key)
  rw [staked_perm (chronological_perm l)] at hlow hhigh
  exact ⟨hlow, hhigh⟩

end AGame.Engine.Elo
