import AGame.Engine.Poisson
import AGame.Engine.Replay

/-!
# What `fit` reads from a history

The five dictionaries are sums over the matches, so the order of a history is
lost in them. They are kept apart by league, but the two league rates are not:
they are means over everything that was passed in (`weightedMean`).
-/

namespace AGame.Engine.Poisson

open Std (ExtTreeMap)
open Base Elo

section

variable {R : Type} [Field R]

/-! ## One dictionary -/

theorem getD_addAt (d : TeamMap R) (key k : TeamKey) (x : R) :
    (addAt d key x).getD k 0 = d.getD k 0 + if key = k then x else 0 := by
  rw [ExtTreeMap.getD_eq_getD_getElem?, addAt, getElem?_put]
  by_cases hk : key = k
  · subst hk
    simp
  · simp [hk, ExtTreeMap.getD_eq_getD_getElem?]

theorem mem_addAt {d : TeamMap R} {key k : TeamKey} {x : R} :
    k ∈ addAt d key x ↔ key = k ∨ k ∈ d :=
  mem_put

theorem addAt_comm (d : TeamMap R) (key key' : TeamKey) (x x' : R) :
    addAt (addAt d key x) key' x' = addAt (addAt d key' x') key x := by
  apply ExtTreeMap.ext_getElem?
  intro k
  have hx : (addAt d key x).getD key' 0 = d.getD key' 0 + if key = key' then x else 0 :=
    getD_addAt d key key' x
  have hx' : (addAt d key' x').getD key 0 = d.getD key 0 + if key' = key then x' else 0 :=
    getD_addAt d key' key x'
  rw [addAt, hx, getElem?_put, addAt, getElem?_put, addAt, hx', getElem?_put, addAt, getElem?_put]
  by_cases hk : key = k
  · by_cases hk' : key' = k
    · subst hk
      subst hk'
      simp only [if_true]
      congr 1
      ring
    · simp [hk, hk']
  · by_cases hk' : key' = k
    · simp [hk, hk']
    · simp [hk, hk']

theorem leagueOf_addAt (c : ℤ) (d : TeamMap R) {key : TeamKey} (hkey : ofLeague c key = true)
    (x : R) : leagueOf c (addAt d key x) = addAt (leagueOf c d) key x := by
  rw [addAt, leagueOf, part_put _ _ hkey, addAt, getD_part hkey]

theorem leagueOf_addAt_other (c : ℤ) (d : TeamMap R) {key : TeamKey}
    (hkey : ofLeague c key = false) (x : R) : leagueOf c (addAt d key x) = leagueOf c d := by
  rw [addAt, leagueOf, part_put_outside _ _ hkey]

/-! ## One match -/

theorem addSide_comm (t : Totals R) (w w' : R) (key key' : TeamKey) (gf ga gf' ga' : ℤ)
    (bf ba bf' ba' : R) :
    addSide (addSide t w key gf ga bf ba) w' key' gf' ga' bf' ba' =
      addSide (addSide t w' key' gf' ga' bf' ba') w key gf ga bf ba := by
  simp only [addSide, Totals.mk.injEq]
  refine ⟨?_, ?_, ?_, ?_, ?_⟩
  · apply addAt_comm
  · apply addAt_comm
  · apply addAt_comm
  · apply addAt_comm
  · apply addAt_comm

/-- The order of two matches is lost. -/
theorem addMatch_comm (leagueHome leagueAway : R) (t : Totals R) (e e' : R × MatchResult) :
    addMatch leagueHome leagueAway (addMatch leagueHome leagueAway t e) e' =
      addMatch leagueHome leagueAway (addMatch leagueHome leagueAway t e') e := by
  simp only [addMatch]
  rw [addSide_comm _ e.1 e'.1 e.2.awayKey e'.2.homeKey, addSide_comm t e.1 e'.1,
    addSide_comm _ e.1 e'.1 e.2.awayKey e'.2.awayKey, addSide_comm _ e.1 e'.1 e.2.homeKey]

/-- The dictionaries of one competition. -/
def Totals.league (c : ℤ) (t : Totals R) : Totals R where
  scored := leagueOf c t.scored
  conceded := leagueOf c t.conceded
  scoredBaseline := leagueOf c t.scoredBaseline
  concededBaseline := leagueOf c t.concededBaseline
  sample := leagueOf c t.sample

theorem league_addSide (c : ℤ) (t : Totals R) (w : R) {key : TeamKey} (hkey : ofLeague c key = true)
    (gf ga : ℤ) (bf ba : R) :
    (addSide t w key gf ga bf ba).league c = addSide (t.league c) w key gf ga bf ba := by
  simp only [Totals.league, addSide, leagueOf_addAt c _ hkey]

theorem league_addSide_other (c : ℤ) (t : Totals R) (w : R) {key : TeamKey}
    (hkey : ofLeague c key = false) (gf ga : ℤ) (bf ba : R) :
    (addSide t w key gf ga bf ba).league c = t.league c := by
  simp only [Totals.league, addSide, leagueOf_addAt_other c _ hkey]

/-- The dictionaries of a league are filled by its own matches. -/
theorem league_foldl_addMatch (c : ℤ) (leagueHome leagueAway : R)
    (entries : List (R × MatchResult)) (t : Totals R) :
    (entries.foldl (addMatch leagueHome leagueAway) t).league c =
      (entries.filter fun e => inLeague c e.2).foldl (addMatch leagueHome leagueAway)
        (t.league c) := by
  apply part_foldl
  · intro t e he
    obtain rfl := of_decide_eq_true he
    simp only [addMatch]
    rw [league_addSide _ _ _ (awayKey_ofLeague e.2), league_addSide _ _ _ (homeKey_ofLeague e.2)]
  · intro t e he
    have hne : e.2.competitionId ≠ c := of_decide_eq_false he
    have hhome : ofLeague c e.2.homeKey = false := decide_eq_false hne
    have haway : ofLeague c e.2.awayKey = false := decide_eq_false hne
    simp only [addMatch]
    rw [league_addSide_other _ _ _ haway, league_addSide_other _ _ _ hhome]

/-- A sample is kept for everyone who played. -/
theorem mem_sample {leagueHome leagueAway : R} {entries : List (R × MatchResult)} {k : TeamKey}
    (t : Totals R) :
    k ∈ (entries.foldl (addMatch leagueHome leagueAway) t).sample ↔
      k ∈ t.sample ∨ ∃ e ∈ entries, e.2.homeKey = k ∨ e.2.awayKey = k := by
  induction entries generalizing t with
  | nil => simp
  | cons e entries ih =>
      rw [List.foldl_cons, ih]
      simp only [addMatch, addSide, mem_addAt, List.exists_mem_cons_iff]
      generalize (∃ e ∈ entries, e.2.homeKey = k ∨ e.2.awayKey = k) = later
      tauto

end

variable {R : Type} [Field R] [LinearOrder R]

/-! ## Strengths -/

theorem getElem?_attack (leagueHome leagueAway : R) (t : Totals R) (k : TeamKey) :
    (strengthsOf leagueHome leagueAway t).attack[k]? =
      t.sample[k]?.map fun n => shrink (t.scored.getD k 0) (t.scoredBaseline.getD k 0) n :=
  ExtTreeMap.getElem?_map

theorem getElem?_defence (leagueHome leagueAway : R) (t : Totals R) (k : TeamKey) :
    (strengthsOf leagueHome leagueAway t).defence[k]? =
      t.sample[k]?.map fun n => shrink (t.conceded.getD k 0) (t.concededBaseline.getD k 0) n :=
  ExtTreeMap.getElem?_map

/-- The strengths of a league are computed from its dictionaries. -/
theorem leagueOf_attack (c : ℤ) (leagueHome leagueAway : R) (t : Totals R) :
    leagueOf c (strengthsOf leagueHome leagueAway t).attack =
      (strengthsOf leagueHome leagueAway (t.league c)).attack := by
  apply ExtTreeMap.ext_getElem?
  intro k
  rw [getElem?_part, getElem?_attack, getElem?_attack]
  simp only [Totals.league, getElem?_part]
  split_ifs with hk
  · simp only [leagueOf, getD_part hk]
  · rfl

theorem leagueOf_defence (c : ℤ) (leagueHome leagueAway : R) (t : Totals R) :
    leagueOf c (strengthsOf leagueHome leagueAway t).defence =
      (strengthsOf leagueHome leagueAway (t.league c)).defence := by
  apply ExtTreeMap.ext_getElem?
  intro k
  rw [getElem?_part, getElem?_defence, getElem?_defence]
  simp only [Totals.league, getElem?_part]
  split_ifs with hk
  · simp only [leagueOf, getD_part hk]
  · rfl

/-! ## The league rates -/

/-- The weighted mean of a count over some matches, zero over none. -/
def weightedMean (count : MatchResult → ℤ) (entries : List (R × MatchResult)) : R :=
  (entries.map fun e => e.1 * (count e.2 : R)).sum / (entries.map Prod.fst).sum

theorem sum_fst_pos [IsStrictOrderedRing R] {entries : List (R × MatchResult)}
    (hpos : ∀ e ∈ entries, 0 < e.1) (hne : entries ≠ []) : 0 < (entries.map Prod.fst).sum := by
  apply List.sum_pos
  · intro w hw
    obtain ⟨e, he, rfl⟩ := List.mem_map.mp hw
    exact hpos e he
  · simpa using hne

/-- `fit` from positive weights, in one form for every history. -/
theorem fitWeighted_eq [IsStrictOrderedRing R] {entries : List (R × MatchResult)}
    (hpos : ∀ e ∈ entries, 0 < e.1) :
    fitWeighted entries =
      strengthsOf (weightedMean MatchResult.homeGoals entries)
        (weightedMean MatchResult.awayGoals entries)
        (entries.foldl (addMatch (weightedMean MatchResult.homeGoals entries)
          (weightedMean MatchResult.awayGoals entries)) .empty) := by
  cases entries with
  | nil =>
      simp only [fitWeighted, weightedMean, List.map_nil, List.sum_nil, le_refl, if_true,
        div_zero, List.foldl_nil]
      rfl
  | cons e entries =>
      have htotal := sum_fst_pos hpos (List.cons_ne_nil e entries)
      unfold fitWeighted
      simp only
      rw [if_neg htotal.not_ge]
      rfl

variable [PyMath R]

theorem fit_eq_fitWeighted (l : List MatchResult) (asOf : Instant) :
    fit l asOf = fitWeighted (weighted l asOf : List (R × MatchResult)) := by
  cases l with
  | nil => simp [fit, weighted, fitWeighted]
  | cons m l => rfl

/-- `fit` reads a history as a bag of matches. -/
theorem fit_perm {l l' : List MatchResult} (hl : l'.Perm l) (asOf : Instant) :
    (fit l' asOf : Strengths R) = fit l asOf := by
  have hweighted : (weighted l' asOf : List (R × MatchResult)).Perm (weighted l asOf) :=
    hl.map _
  rw [fit_eq_fitWeighted, fit_eq_fitWeighted]
  unfold fitWeighted
  simp only [(hweighted.map Prod.fst).sum_eq,
    (hweighted.map fun e => e.1 * (e.2.homeGoals : R)).sum_eq,
    (hweighted.map fun e => e.1 * (e.2.awayGoals : R)).sum_eq]
  split_ifs with htotal
  · rfl
  · congr 1
    apply hweighted.foldl_eq'
    intro e _ e' _ t
    exact addMatch_comm _ _ t e e'

/-- **Training is order-independent**: neither model sees how a history without
equal ids is listed. -/
theorem training_order_independent (l l' : List MatchResult) (hids : DistinctIds l)
    (hl : l'.Perm l) (asOf : Instant) :
    (run l' : EloState R) = run l ∧ (fit l' asOf : Strengths R) = fit l asOf :=
  ⟨run_perm hids hl, fit_perm hl asOf⟩

/-- Two matches, listed either way. -/
theorem two_matches_either_way :
    (run [⟨2, 1, 5, 3, 4, 2, 2⟩, ⟨1, 1, 5, 1, 2, 1, 0⟩] : EloState ℝ) =
        run [⟨1, 1, 5, 1, 2, 1, 0⟩, ⟨2, 1, 5, 3, 4, 2, 2⟩] ∧
      (fit [⟨2, 1, 5, 3, 4, 2, 2⟩, ⟨1, 1, 5, 1, 2, 1, 0⟩] 9 : Strengths ℝ) =
        fit [⟨1, 1, 5, 1, 2, 1, 0⟩, ⟨2, 1, 5, 3, 4, 2, 2⟩] 9 :=
  training_order_independent _ _ (by decide) (List.Perm.swap _ _ _) 9

/-! ## Over the reals -/

theorem weight_pos (matchDate asOf : Instant) : 0 < (weight matchDate asOf : ℝ) := by
  apply Real.rpow_pos_of_pos
  norm_num

theorem weighted_pos (l : List MatchResult) (asOf : Instant) :
    ∀ e ∈ (weighted l asOf : List (ℝ × MatchResult)), 0 < e.1 := by
  intro e he
  obtain ⟨m, -, rfl⟩ := List.mem_map.mp he
  exact weight_pos m.utcDate asOf

theorem totalWeight_pos {l : List MatchResult} (hl : l ≠ []) (asOf : Instant) :
    0 < ((weighted l asOf : List (ℝ × MatchResult)).map Prod.fst).sum :=
  sum_fst_pos (weighted_pos l asOf) (by simpa [weighted] using hl)

/-- The decayed mean of a count over a history. -/
noncomputable def decayedMean (count : MatchResult → ℤ) (l : List MatchResult) (asOf : Instant) :
    ℝ :=
  weightedMean count (weighted l asOf)

theorem fit_eq (l : List MatchResult) (asOf : Instant) :
    (fit l asOf : Strengths ℝ) =
      strengthsOf (decayedMean MatchResult.homeGoals l asOf)
        (decayedMean MatchResult.awayGoals l asOf)
        ((weighted l asOf).foldl (addMatch (decayedMean MatchResult.homeGoals l asOf)
          (decayedMean MatchResult.awayGoals l asOf)) .empty) := by
  rw [fit_eq_fitWeighted, fitWeighted_eq (weighted_pos l asOf)]
  rfl

/-! ## The scope of a fit -/

/-- A competition is fitted as if the history held nothing else. -/
def FittedAlone (l : List MatchResult) (asOf : Instant) (c : ℤ) : Prop :=
  leagueOf c (fit l asOf : Strengths ℝ).attack = (fit (l.filter (inLeague c)) asOf).attack ∧
    leagueOf c (fit l asOf : Strengths ℝ).defence = (fit (l.filter (inLeague c)) asOf).defence ∧
    ∀ home away : ℤ, home ≠ away →
      expectedGoals (fit l asOf : Strengths ℝ) home away c =
        expectedGoals (fit (l.filter (inLeague c)) asOf) home away c

theorem weighted_filter (l : List MatchResult) (asOf : Instant) (c : ℤ) :
    (weighted (l.filter (inLeague c)) asOf : List (ℝ × MatchResult)) =
      (weighted l asOf).filter fun e => inLeague c e.2 := by
  rw [weighted, weighted, List.filter_map]
  rfl

theorem league_empty (c : ℤ) : (Totals.empty : Totals ℝ).league c = .empty := by
  simp only [Totals.league, Totals.empty, leagueOf_empty]

/-- With the same league rates the strengths are the same. -/
theorem fittedAlone_of_rates {l : List MatchResult} {asOf : Instant} {c : ℤ}
    (hhome : decayedMean MatchResult.homeGoals l asOf =
      decayedMean MatchResult.homeGoals (l.filter (inLeague c)) asOf)
    (haway : decayedMean MatchResult.awayGoals l asOf =
      decayedMean MatchResult.awayGoals (l.filter (inLeague c)) asOf) :
    FittedAlone l asOf c := by
  have hattack : leagueOf c (fit l asOf : Strengths ℝ).attack =
      (fit (l.filter (inLeague c)) asOf).attack := by
    rw [fit_eq, leagueOf_attack, league_foldl_addMatch, league_empty, fit_eq, weighted_filter,
      hhome, haway]
  have hdefence : leagueOf c (fit l asOf : Strengths ℝ).defence =
      (fit (l.filter (inLeague c)) asOf).defence := by
    rw [fit_eq, leagueOf_defence, league_foldl_addMatch, league_empty, fit_eq, weighted_filter,
      hhome, haway]
  have hleagueHome : (fit l asOf : Strengths ℝ).leagueHome =
      (fit (l.filter (inLeague c)) asOf).leagueHome := by
    rw [fit_eq, fit_eq]
    exact hhome
  have hleagueAway : (fit l asOf : Strengths ℝ).leagueAway =
      (fit (l.filter (inLeague c)) asOf).leagueAway := by
    rw [fit_eq, fit_eq]
    exact haway
  refine ⟨hattack, hdefence, ?_⟩
  intro home away _
  have hteam : ∀ team : ℤ, ofLeague c (team, c) = true := fun _ => decide_eq_true rfl
  simp only [expectedGoals]
  rw [← hattack, ← hdefence, getD_part (hteam home), getD_part (hteam away), getD_part (hteam home),
    getD_part (hteam away), hleagueHome, hleagueAway]

/-- A team that never played is average. -/
theorem expectedGoals_newcomers {l : List MatchResult} {home away : ℤ}
    (hhome : ∀ m ∈ l, m.homeTeamId ≠ home ∧ m.awayTeamId ≠ home)
    (haway : ∀ m ∈ l, m.homeTeamId ≠ away ∧ m.awayTeamId ≠ away) (asOf : Instant) (c : ℤ) :
    expectedGoals (fit l asOf : Strengths ℝ) home away c =
      (decayedMean MatchResult.homeGoals l asOf, decayedMean MatchResult.awayGoals l asOf) := by
  have hunknown : ∀ team : ℤ, (∀ m ∈ l, m.homeTeamId ≠ team ∧ m.awayTeamId ≠ team) →
      (fit l asOf : Strengths ℝ).attack.getD (team, c) 1 = 1 ∧
        (fit l asOf : Strengths ℝ).defence.getD (team, c) 1 = 1 := by
    intro team hteam
    have habsent : ((weighted l asOf).foldl (addMatch (decayedMean MatchResult.homeGoals l asOf)
        (decayedMean MatchResult.awayGoals l asOf)) .empty).sample[((team, c) : TeamKey)]? =
        none := by
      apply ExtTreeMap.getElem?_eq_none
      rw [mem_sample]
      rintro (hempty | ⟨e, he, hside⟩)
      · exact ExtTreeMap.not_mem_empty hempty
      · obtain ⟨m, hm, rfl⟩ := List.mem_map.mp he
        rcases hside with hside | hside
        · exact (hteam m hm).1 (congrArg Prod.fst hside)
        · exact (hteam m hm).2 (congrArg Prod.fst hside)
    rw [fit_eq, ExtTreeMap.getD_eq_getD_getElem?, ExtTreeMap.getD_eq_getD_getElem?,
      getElem?_attack, getElem?_defence, habsent]
    exact ⟨rfl, rfl⟩
  simp only [expectedGoals, (hunknown home hhome).1, (hunknown home hhome).2,
    (hunknown away haway).1, (hunknown away haway).2, mul_one]
  rw [fit_eq]
  rfl

/-- There are always two teams a history has not seen. -/
theorem exists_two_newcomers (l : List MatchResult) : ∃ home away : ℤ, home ≠ away ∧
    (∀ m ∈ l, m.homeTeamId ≠ home ∧ m.awayTeamId ≠ home) ∧
    ∀ m ∈ l, m.homeTeamId ≠ away ∧ m.awayTeamId ≠ away := by
  let seen : Finset ℤ :=
    (l.map MatchResult.homeTeamId).toFinset ∪ (l.map MatchResult.awayTeamId).toFinset
  have hseen : ∀ team ∉ seen, ∀ m ∈ l, m.homeTeamId ≠ team ∧ m.awayTeamId ≠ team := by
    intro team hteam m hm
    constructor
    · rintro rfl
      exact hteam (Finset.mem_union_left _ (List.mem_toFinset.mpr (List.mem_map_of_mem hm)))
    · rintro rfl
      exact hteam (Finset.mem_union_right _ (List.mem_toFinset.mpr (List.mem_map_of_mem hm)))
  obtain ⟨home, hhome⟩ := Infinite.exists_notMem_finset seen
  obtain ⟨away, haway⟩ := Infinite.exists_notMem_finset (insert home seen)
  rw [Finset.mem_insert, not_or] at haway
  exact ⟨home, away, Ne.symm haway.1, hseen home hhome, hseen away haway.2⟩

/-- With the rates of the whole history, and only with them, a competition is fitted alone. -/
theorem fittedAlone_iff_rates (l : List MatchResult) (asOf : Instant) (c : ℤ) :
    FittedAlone l asOf c ↔
      decayedMean MatchResult.homeGoals l asOf =
          decayedMean MatchResult.homeGoals (l.filter (inLeague c)) asOf ∧
        decayedMean MatchResult.awayGoals l asOf =
          decayedMean MatchResult.awayGoals (l.filter (inLeague c)) asOf := by
  constructor
  · rintro ⟨-, -, hgoals⟩
    obtain ⟨home, away, hne, hhome, haway⟩ := exists_two_newcomers l
    have hsame := hgoals home away hne
    rw [expectedGoals_newcomers hhome haway, expectedGoals_newcomers
      (fun m hm => hhome m (List.mem_of_mem_filter hm))
      (fun m hm => haway m (List.mem_of_mem_filter hm))] at hsame
    exact Prod.mk.inj hsame
  · rintro ⟨hhome, haway⟩
    exact fittedAlone_of_rates hhome haway

/-! ### Goals that offset each other -/

/-- The goals of one match over those of another, by the weights of both. -/
noncomputable def lead (count : MatchResult → ℤ) (asOf : Instant) (m m' : MatchResult) : ℝ :=
  weight m.utcDate asOf * weight m'.utcDate asOf * (count m - count m')

/-- The matches of the competition have scored, against those of the others, as much more here
as less there; where it has none, the others have scored nothing on balance. -/
def Offset (count : MatchResult → ℤ) (l : List MatchResult) (asOf : Instant) (c : ℤ) : Prop :=
  (∃ m ∈ l, m.competitionId = c) ∧
      ((l.filter (inLeague c)).map fun m =>
        ((l.filter fun m' => !inLeague c m').map (lead count asOf m)).sum).sum = 0 ∨
    (∀ m ∈ l, m.competitionId ≠ c) ∧
      (l.map fun m => weight m.utcDate asOf * (count m : ℝ)).sum = 0

/-- Two bags of matches against each other. -/
theorem sum_lead (count : MatchResult → ℤ) (asOf : Instant) (l l' : List MatchResult) :
    (l.map fun m => (l'.map (lead count asOf m)).sum).sum =
      (l.map fun m => weight m.utcDate asOf * (count m : ℝ)).sum *
          (l'.map fun m => weight m.utcDate asOf).sum -
        (l.map fun m => weight m.utcDate asOf).sum *
          (l'.map fun m => weight m.utcDate asOf * (count m : ℝ)).sum := by
  have hinner : ∀ m, (l'.map (lead count asOf m)).sum =
      weight m.utcDate asOf * (count m : ℝ) * (l'.map fun m => weight m.utcDate asOf).sum -
        weight m.utcDate asOf * (l'.map fun m => weight m.utcDate asOf * (count m : ℝ)).sum := by
    intro m
    induction l' with
    | nil => simp
    | cons m' l' ih =>
        simp only [List.map_cons, List.sum_cons, ih, lead]
        ring
  induction l with
  | nil => simp
  | cons m l ih =>
      rw [List.map_cons, List.sum_cons, ih, hinner]
      simp only [List.map_cons, List.sum_cons]
      ring

theorem decayedMean_eq_div (count : MatchResult → ℤ) (l : List MatchResult) (asOf : Instant) :
    decayedMean count l asOf = (l.map fun m => weight m.utcDate asOf * (count m : ℝ)).sum /
      (l.map fun m => weight m.utcDate asOf).sum := by
  simp only [decayedMean, weightedMean, weighted, List.map_map, Function.comp_def]

theorem sum_weight_pos {l : List MatchResult} (hl : l ≠ []) (asOf : Instant) :
    0 < (l.map fun m => weight m.utcDate asOf : List ℝ).sum := by
  simpa only [weighted, List.map_map, Function.comp_def] using totalWeight_pos hl asOf

/-- A history is the matches of a competition and the others. -/
theorem sum_inLeague (f : MatchResult → ℝ) (l : List MatchResult) (c : ℤ) :
    (l.map f).sum = ((l.filter (inLeague c)).map f).sum +
      ((l.filter fun m => !inLeague c m).map f).sum := by
  rw [← List.sum_append, ← List.map_append]
  exact (((List.filter_append_perm (inLeague c) l).map f).sum_eq).symm

/-- The rates agree when the goals offset each other. -/
theorem decayedMean_eq_iff (count : MatchResult → ℤ) (l : List MatchResult) (asOf : Instant)
    (c : ℤ) :
    decayedMean count l asOf = decayedMean count (l.filter (inLeague c)) asOf ↔
      Offset count l asOf c := by
  by_cases hplayed : ∃ m ∈ l, m.competitionId = c
  · obtain ⟨m, hm, hleague⟩ := hplayed
    have hkept : l.filter (inLeague c) ≠ [] :=
      List.ne_nil_of_mem (List.mem_filter.mpr ⟨hm, decide_eq_true hleague⟩)
    have htotal := sum_weight_pos (List.ne_nil_of_mem hm) asOf
    have hown := sum_weight_pos hkept asOf
    have hnever : ¬ ∀ m ∈ l, m.competitionId ≠ c := fun h => h m hm hleague
    rw [decayedMean_eq_div, decayedMean_eq_div, div_eq_div_iff htotal.ne' hown.ne', Offset,
      sum_lead, sum_inLeague _ l c, sum_inLeague (fun m => weight m.utcDate asOf) l c]
    constructor
    · intro h
      left
      refine ⟨⟨m, hm, hleague⟩, ?_⟩
      linear_combination -h
    · rintro (⟨-, h⟩ | ⟨hnever, -⟩)
      · linear_combination -h
      · exact absurd hleague (hnever m hm)
  · have hnever : ∀ m ∈ l, m.competitionId ≠ c := fun m hm h => hplayed ⟨m, hm, h⟩
    have hnone : l.filter (inLeague c) = [] := by
      rw [List.filter_eq_nil_iff]
      intro m hm
      rw [inLeague, decide_eq_true_eq]
      exact hnever m hm
    rw [decayedMean_eq_div, decayedMean_eq_div, hnone, Offset, List.map_nil, List.map_nil,
      List.sum_nil, div_zero, div_eq_zero_iff]
    constructor
    · rintro (hgoals | hzero)
      · exact Or.inr ⟨hnever, hgoals⟩
      · by_cases hempty : l = []
        · rw [hempty]
          exact Or.inr ⟨List.forall_mem_nil _, rfl⟩
        · exact absurd hzero (sum_weight_pos hempty asOf).ne'
    · rintro (⟨hsome, -⟩ | ⟨-, hgoals⟩)
      · exact absurd hsome hplayed
      · exact Or.inl hgoals

/-- **When a competition is fitted alone**: when the history holds no other, since then the two
fits are one and the same. In exact arithmetic it is fitted alone otherwise only where the
goals of the others offset its own, home and away. -/
theorem fittedAlone_of_league (l : List MatchResult) (asOf : Instant) (c : ℤ) :
    ((∀ m ∈ l, m.competitionId = c) → l.filter (inLeague c) = l ∧ FittedAlone l asOf c) ∧
      (FittedAlone l asOf c ↔
        Offset MatchResult.homeGoals l asOf c ∧ Offset MatchResult.awayGoals l asOf c) := by
  constructor
  · intro hleague
    have hsame : l.filter (inLeague c) = l :=
      List.filter_eq_self.mpr fun m hm => decide_eq_true (hleague m hm)
    refine ⟨hsame, fittedAlone_of_rates ?_ ?_⟩
    · rw [hsame]
    · rw [hsame]
  · rw [fittedAlone_iff_rates, decayedMean_eq_iff, decayedMean_eq_iff]

/-- **A goalless match elsewhere halves a league's rates.** -/
theorem goalless_match_elsewhere :
    ¬ FittedAlone [⟨1, 2021, 0, 1, 2, 1, 0⟩, ⟨2, 2001, 0, 3, 4, 0, 0⟩] 0 2021 := by
  rintro ⟨-, -, hgoals⟩
  have hweight : (weight 0 0 : ℝ) = 1 := by
    simp [weight, ageDays, PyMath.pow]
  have hkept : [⟨1, 2021, 0, 1, 2, 1, 0⟩, ⟨2, 2001, 0, 3, 4, 0, 0⟩].filter (inLeague 2021) =
      [⟨1, 2021, 0, 1, 2, 1, 0⟩] := by decide
  have hsame := hgoals 8 9 (by decide)
  rw [hkept, expectedGoals_newcomers (by decide) (by decide),
    expectedGoals_newcomers (by decide) (by decide)] at hsame
  have hhome := congrArg Prod.fst hsame
  simp only [decayedMean, weightedMean, weighted, hweight, List.map_cons, List.map_nil,
    List.sum_cons, List.sum_nil] at hhome
  norm_num at hhome

end AGame.Engine.Poisson
