import AGame.Base.Result
import AGame.Engine.Rates

/-!
# The engine with Python's division

Division by zero raises in Python and is zero here. The functions of this file
are those of `poisson.py` once more, with a division that raises, loop by loop;
on a history of finished matches none of them raises, and what they return is
what the other model returns (`predict_ok`).
-/

namespace AGame.Engine.Poisson

open Std (ExtTreeMap)
open Base Elo

/-- `ZeroDivisionError` -/
inductive ZeroDivisionError where
  | divisionByZero
deriving DecidableEq, Repr

section

variable {R : Type} [Field R] [LinearOrder R]

/-- `x / y` -/
def pyDiv (x y : R) : Except ZeroDivisionError R :=
  if y = 0 then .error .divisionByZero else .ok (x / y)

theorem pyDiv_ok (x : R) {y : R} (h : y ≠ 0) : pyDiv x y = .ok (x / y) := if_neg h

/-- `_shrink` -/
def pyShrink (observed expected sample : R) : Except ZeroDivisionError R :=
  if expected ≤ 0 ∨ sample ≤ 0 then .ok 1
  else do
    let confidence ← pyDiv sample (sample + MIN_SAMPLE R)
    let ratio ← pyDiv observed expected
    return confidence * ratio + (1 - confidence) * 1

/-- One turn of the last loop of `fit`. -/
def pyStrength (t : Totals R) (s : Strengths R) (entry : TeamKey × R) :
    Except ZeroDivisionError (Strengths R) := do
  let attack ← pyShrink (t.scored.getD entry.1 0) (t.scoredBaseline.getD entry.1 0) entry.2
  let defence ← pyShrink (t.conceded.getD entry.1 0) (t.concededBaseline.getD entry.1 0) entry.2
  return { s with
    attack := s.attack.insert entry.1 attack
    defence := s.defence.insert entry.1 defence }

variable [PyMath R]

/-- `_weight`; the age is divided by constants. -/
def pyWeight (matchDate asOf : Instant) : Except ZeroDivisionError R := do
  let halfLives ← pyDiv (ageDays matchDate asOf) (HALF_LIFE_DAYS R)
  return PyMath.pow 0.5 halfLives

/-- `fit` -/
def pyFit (matches_ : List MatchResult) (asOf : Instant) :
    Except ZeroDivisionError (Strengths R) :=
  if matches_.isEmpty then .ok .default
  else do
    let history ← matches_.mapM fun m => do
      let weight : R ← pyWeight m.utcDate asOf
      return (weight, m)
    let totalWeight := (history.map Prod.fst).sum
    if totalWeight ≤ 0 then return .default
    else
      let leagueHome ← pyDiv (history.map fun e => e.1 * (e.2.homeGoals : R)).sum totalWeight
      let leagueAway ← pyDiv (history.map fun e => e.1 * (e.2.awayGoals : R)).sum totalWeight
      let totals := history.foldl (addMatch leagueHome leagueAway) .empty
      totals.sample.toList.foldlM (pyStrength totals) ⟨leagueHome, leagueAway, ∅, ∅⟩

/-- `_pmf` -/
def pyPmf (rate : R) (goals : ℕ) : Except ZeroDivisionError R :=
  pyDiv (PyMath.exp (-rate) * rate ^ goals) (goals.factorial : R)

/-- `score_probabilities` -/
def pyScoreProbabilities [FloorRing R] (lambdaHome lambdaAway : R) :
    Except ZeroDivisionError (ScoreProbabilities R) := do
  let homePmf ← (List.range (MAX_GOALS + 1)).mapM (pyPmf lambdaHome)
  let awayPmf ← (List.range (MAX_GOALS + 1)).mapM (pyPmf lambdaAway)
  let cells : List (Cell R) := homePmf.zipIdx.flatMap fun home =>
    awayPmf.zipIdx.map fun away => ⟨home.2, away.2, home.1 * away.1⟩
  let sums := cells.foldl Sums.add .zero
  let total := sums.probHome + sums.probDraw + sums.probAway
  let mostLikelyScores ← ((byProbability cells).take 3).mapM fun c => do
    let probability ← pyDiv c.probability total
    return (⟨c.homeGoals, c.awayGoals, roundDecimal 4 probability⟩ : Scoreline)
  let probHome ← pyDiv sums.probHome total
  let probDraw ← pyDiv sums.probDraw total
  let probAway ← pyDiv sums.probAway total
  let over25 ← pyDiv sums.over25 total
  let btts ← pyDiv sums.btts total
  return { lambdaHome, lambdaAway, probHome, probDraw, probAway, over25, btts, mostLikelyScores }

/-- The chain of `process_job` from a history to the numbers of a fixture. -/
def pyPredict [FloorRing R] (history : List MatchResult) (asOf : Instant)
    (homeTeamId awayTeamId competitionId : ℤ) :
    Except ZeroDivisionError (ScoreProbabilities R) := do
  let strengths ← pyFit history asOf
  let lambdas := expectedGoals strengths homeTeamId awayTeamId competitionId
  pyScoreProbabilities lambdas.1 lambdas.2

end

/-! ## Nothing raises -/

section

variable {R : Type} [Field R] [LinearOrder R] [IsStrictOrderedRing R]

/-- The guard of `_shrink` covers both of its divisions. -/
theorem pyShrink_ok (observed expected sample : R) :
    pyShrink observed expected sample = .ok (shrink observed expected sample) := by
  unfold pyShrink shrink
  split_ifs with hnothing
  · rfl
  · rw [not_or, not_le, not_le] at hnothing
    have hprior := minSample_pos (R := R)
    have hsum : sample + MIN_SAMPLE R ≠ 0 := by linarith [hnothing.2]
    rw [pyDiv_ok _ hsum, pyDiv_ok _ hnothing.1.ne']
    rfl

/-- The last loop of `fit` fills the two maps of strengths. -/
theorem foldlM_pyStrength (leagueHome leagueAway : R) (t : Totals R) :
    t.sample.toList.foldlM (pyStrength t) ⟨leagueHome, leagueAway, ∅, ∅⟩ =
      .ok (strengthsOf leagueHome leagueAway t) := by
  have hstep : ∀ (s : Strengths R), ∀ e ∈ t.sample.toList, pyStrength t s e =
      .ok { s with
        attack := s.attack.insert e.1
          (shrink (t.scored.getD e.1 0) (t.scoredBaseline.getD e.1 0) e.2)
        defence := s.defence.insert e.1
          (shrink (t.conceded.getD e.1 0) (t.concededBaseline.getD e.1 0) e.2) } := by
    intro s e _
    simp only [pyStrength, pyShrink_ok]
    rfl
  have hmaps : ∀ (entries : List (TeamKey × R)) (s : Strengths R),
      entries.foldl (fun s e => ({ s with
        attack := s.attack.insert e.1
          (shrink (t.scored.getD e.1 0) (t.scoredBaseline.getD e.1 0) e.2)
        defence := s.defence.insert e.1
          (shrink (t.conceded.getD e.1 0) (t.concededBaseline.getD e.1 0) e.2) } :
            Strengths R)) s =
        ⟨s.leagueHome, s.leagueAway,
          entries.foldl (fun d e => d.insert e.1
            (shrink (t.scored.getD e.1 0) (t.scoredBaseline.getD e.1 0) e.2)) s.attack,
          entries.foldl (fun d e => d.insert e.1
            (shrink (t.conceded.getD e.1 0) (t.concededBaseline.getD e.1 0) e.2)) s.defence⟩ := by
    intro entries
    induction entries with
    | nil =>
        intro s
        rfl
    | cons e entries ih =>
        intro s
        rw [List.foldl_cons, ih]
        rfl
  rw [foldlM_ok hstep, hmaps, strengthsOf]
  congr 1
  simp only [Strengths.mk.injEq, true_and]
  constructor
  · exact foldl_insert_toList (fun key n => shrink (t.scored.getD key 0)
      (t.scoredBaseline.getD key 0) n) t.sample
  · exact foldl_insert_toList (fun key n => shrink (t.conceded.getD key 0)
      (t.concededBaseline.getD key 0) n) t.sample

variable [PyMath R]

theorem pyWeight_ok (matchDate asOf : Instant) :
    pyWeight matchDate asOf = .ok (weight matchDate asOf : R) := by
  have hhalf : HALF_LIFE_DAYS R ≠ 0 := by
    unfold HALF_LIFE_DAYS
    norm_num
  rw [pyWeight, pyDiv_ok _ hhalf]
  rfl

/-- The guard on the total weight covers both league rates. -/
theorem pyFit_ok (l : List MatchResult) (asOf : Instant) :
    pyFit l asOf = .ok (fit l asOf : Strengths R) := by
  have hweighted : (l.mapM fun m => do
      let weight : R ← pyWeight m.utcDate asOf
      return (weight, m)) = .ok (weighted l asOf) := by
    apply mapM_ok
    intro m _
    rw [pyWeight_ok]
    rfl
  unfold pyFit fit
  split_ifs with hempty
  · rfl
  · rw [hweighted, ok_bind]
    simp only [fitWeighted]
    by_cases htotal : ((weighted l asOf : List (R × MatchResult)).map Prod.fst).sum ≤ 0
    · rw [if_pos htotal, if_pos htotal]
      rfl
    · have hne := (not_le.mp htotal).ne'
      rw [if_neg htotal, if_neg htotal, pyDiv_ok _ hne, ok_bind, pyDiv_ok _ hne, ok_bind]
      exact foldlM_pyStrength _ _ _

theorem pyPmf_ok (rate : R) (goals : ℕ) : pyPmf rate goals = .ok (pmf rate goals) :=
  pyDiv_ok _ (Nat.cast_ne_zero.mpr goals.factorial_ne_zero)

omit [LinearOrder R] [IsStrictOrderedRing R] in
/-- Enumerating the two tables visits the cells of the matrix. -/
theorem enumerate_pmf (lambdaHome lambdaAway : R) :
    (((List.range (MAX_GOALS + 1)).map (pmf lambdaHome)).zipIdx.flatMap fun home =>
      ((List.range (MAX_GOALS + 1)).map (pmf lambdaAway)).zipIdx.map fun away =>
        (⟨home.2, away.2, home.1 * away.1⟩ : Cell R)) = scoreMatrix lambdaHome lambdaAway := by
  have hzip : ∀ f : ℕ → R, ((List.range (MAX_GOALS + 1)).map f).zipIdx =
      (List.range (MAX_GOALS + 1)).map fun goals => (f goals, goals) := by
    intro f
    apply List.ext_getElem
    · simp
    · intro i h₁ h₂
      simp
  rw [hzip, hzip, List.flatMap_map]
  simp only [List.map_map]
  rfl

variable [FloorRing R]

/-- With some mass in the matrix nothing is divided by zero. -/
theorem pyScoreProbabilities_ok {lambdaHome lambdaAway : R}
    (htotal : mass anyScore (scoreMatrix lambdaHome lambdaAway) ≠ 0) :
    pyScoreProbabilities lambdaHome lambdaAway =
      .ok (scoreProbabilities lambdaHome lambdaAway) := by
  have hsum : ((scoreMatrix lambdaHome lambdaAway).foldl Sums.add .zero).probHome +
      ((scoreMatrix lambdaHome lambdaAway).foldl Sums.add .zero).probDraw +
      ((scoreMatrix lambdaHome lambdaAway).foldl Sums.add .zero).probAway ≠ 0 := by
    simpa only [foldl_sums, Sums.zero, zero_add, mass_outcomes] using htotal
  have hhome := mapM_ok (l := List.range (MAX_GOALS + 1)) fun goals _ => pyPmf_ok lambdaHome goals
  have haway := mapM_ok (l := List.range (MAX_GOALS + 1)) fun goals _ => pyPmf_ok lambdaAway goals
  have hlikely : ((byProbability (scoreMatrix lambdaHome lambdaAway)).take 3).mapM (fun c => do
      let probability ← pyDiv c.probability
        (((scoreMatrix lambdaHome lambdaAway).foldl Sums.add .zero).probHome +
          ((scoreMatrix lambdaHome lambdaAway).foldl Sums.add .zero).probDraw +
          ((scoreMatrix lambdaHome lambdaAway).foldl Sums.add .zero).probAway)
      return (⟨c.homeGoals, c.awayGoals, roundDecimal 4 probability⟩ : Scoreline)) =
      .ok ((scoreProbabilities lambdaHome lambdaAway).mostLikelyScores) := by
    apply mapM_ok
    intro c _
    rw [pyDiv_ok _ hsum]
    rfl
  unfold pyScoreProbabilities
  rw [hhome, ok_bind, haway, ok_bind, enumerate_pmf]
  dsimp only
  rw [hlikely, ok_bind]
  simp only [pyDiv_ok _ hsum, ok_bind]
  rfl

end

/-- **No division by zero.** On finished matches the chain from a history to the
numbers of a fixture returns what the exact model says. -/
theorem predict_ok {history : List MatchResult} (hgoals : GoalsNonneg history) (asOf : Instant)
    (homeTeamId awayTeamId competitionId : ℤ) :
    pyPredict history asOf homeTeamId awayTeamId competitionId =
      .ok (scoreProbabilities
        (expectedGoals (fit history asOf : Strengths ℝ) homeTeamId awayTeamId competitionId).1
        (expectedGoals (fit history asOf : Strengths ℝ) homeTeamId awayTeamId
          competitionId).2) := by
  obtain ⟨hhome, haway⟩ :=
    expectedGoals_nonneg hgoals asOf homeTeamId awayTeamId competitionId
  rw [pyPredict, pyFit_ok, ok_bind]
  exact pyScoreProbabilities_ok (scoreMatrix_mass_pos hhome haway).ne'

end AGame.Engine.Poisson
