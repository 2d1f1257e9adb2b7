import AGame.Base.Rounding
import AGame.Engine.Elo

/-!
# The Poisson goal model (`a-game-brain/app/engine/poisson.py`)

Decayed goal data in, an attack and a defence strength per team out; two
expected goal counts; one score matrix, from which every reported probability
is read.
-/

namespace AGame.Engine.Poisson

open Std (ExtTreeMap)
open Base Elo

variable {R : Type} [Field R] [LinearOrder R]

/-- Fitted goal model as of a point in time. -/
structure Strengths (R : Type) where
  leagueHome : R
  leagueAway : R
  attack : TeamMap R
  defence : TeamMap R

/-- `Strengths()` -/
def Strengths.default : Strengths R := ⟨0, 0, ∅, ∅⟩

/-- Everything the prediction row stores, read off one score matrix. -/
structure ScoreProbabilities (R : Type) where
  lambdaHome : R
  lambdaAway : R
  probHome : R
  probDraw : R
  probAway : R
  over25 : R
  btts : R
  mostLikelyScores : List Scoreline

/-! ## Fitting -/

/-- The age of a match in days; a future match has age zero. -/
def ageDays (matchDate asOf : Instant) : R :=
  max ((((asOf - matchDate : ℤ) : R) / 1000000) / 86400) 0

def weight [PyMath R] (matchDate asOf : Instant) : R :=
  PyMath.pow 0.5 (ageDays matchDate asOf / HALF_LIFE_DAYS R)

def shrink (observed expected sample : R) : R :=
  if expected ≤ 0 ∨ sample ≤ 0 then 1
  else
    let confidence := sample / (sample + MIN_SAMPLE R)
    confidence * (observed / expected) + (1 - confidence) * 1

/-- The five dictionaries `fit` accumulates. -/
structure Totals (R : Type) where
  scored : TeamMap R
  conceded : TeamMap R
  scoredBaseline : TeamMap R
  concededBaseline : TeamMap R
  sample : TeamMap R

def Totals.empty : Totals R := ⟨∅, ∅, ∅, ∅, ∅⟩

/-- `d[key] = d.get(key, 0.0) + x` -/
def addAt (d : TeamMap R) (key : TeamKey) (x : R) : TeamMap R :=
  d.insert key (d.getD key 0 + x)

/-- One side of one match. -/
def addSide (t : Totals R) (weight : R) (key : TeamKey) (goalsFor goalsAgainst : ℤ)
    (baselineFor baselineAgainst : R) : Totals R where
  scored := addAt t.scored key (weight * goalsFor)
  conceded := addAt t.conceded key (weight * goalsAgainst)
  scoredBaseline := addAt t.scoredBaseline key (weight * baselineFor)
  concededBaseline := addAt t.concededBaseline key (weight * baselineAgainst)
  sample := addAt t.sample key weight

/-- One turn of the loop of `fit`: the home side, then the away side. -/
def addMatch (leagueHome leagueAway : R) (t : Totals R) (entry : R × MatchResult) :
    Totals R :=
  let (weight, m) := entry
  addSide
    (addSide t weight m.homeKey m.homeGoals m.awayGoals leagueHome leagueAway)
    weight m.awayKey m.awayGoals m.homeGoals leagueAway leagueHome

def strengthsOf (leagueHome leagueAway : R) (t : Totals R) : Strengths R where
  leagueHome := leagueHome
  leagueAway := leagueAway
  attack := t.sample.map fun key effectiveMatches =>
    shrink (t.scored.getD key 0) (t.scoredBaseline.getD key 0) effectiveMatches
  defence := t.sample.map fun key effectiveMatches =>
    shrink (t.conceded.getD key 0) (t.concededBaseline.getD key 0) effectiveMatches

/-- The matches of a history with their weights. -/
def weighted [PyMath R] (history : List MatchResult) (asOf : Instant) :
    List (R × MatchResult) :=
  history.map fun m => (weight m.utcDate asOf, m)

/-- `fit` from the weighted history. -/
def fitWeighted (history : List (R × MatchResult)) : Strengths R :=
  let totalWeight := (history.map Prod.fst).sum
  if totalWeight ≤ 0 then .default
  else
    let leagueHome := (history.map fun e => e.1 * (e.2.homeGoals : R)).sum / totalWeight
    let leagueAway := (history.map fun e => e.1 * (e.2.awayGoals : R)).sum / totalWeight
    strengthsOf leagueHome leagueAway
      (history.foldl (addMatch leagueHome leagueAway) .empty)

/-- `poisson.fit` -/
def fit [PyMath R] (matches_ : List MatchResult) (asOf : Instant) : Strengths R :=
  if matches_.isEmpty then .default else fitWeighted (weighted matches_ asOf)

/-- `poisson.expected_goals` -/
def expectedGoals (s : Strengths R) (homeTeamId awayTeamId competitionId : ℤ) : R × R :=
  let homeKey := (homeTeamId, competitionId)
  let awayKey := (awayTeamId, competitionId)
  (s.leagueHome * s.attack.getD homeKey 1 * s.defence.getD awayKey 1,
    s.leagueAway * s.attack.getD awayKey 1 * s.defence.getD homeKey 1)

/-! ## The score matrix -/

/-- Poisson probability of exactly `goals` given expected `rate`. -/
def pmf [PyMath R] (rate : R) (goals : ℕ) : R :=
  PyMath.exp (-rate) * rate ^ goals / (goals.factorial : R)

/-- One cell of the score matrix. -/
structure Cell (R : Type) where
  homeGoals : ℕ
  awayGoals : ℕ
  probability : R

/-- The cells in the order the two nested loops visit them. -/
def scoreMatrix [PyMath R] (lambdaHome lambdaAway : R) : List (Cell R) :=
  (List.range (MAX_GOALS + 1)).flatMap fun homeGoals =>
    (List.range (MAX_GOALS + 1)).map fun awayGoals =>
      ⟨homeGoals, awayGoals, pmf lambdaHome homeGoals * pmf lambdaAway awayGoals⟩

/-- The running sums of `score_probabilities`. -/
structure Sums (R : Type) where
  probHome : R
  probDraw : R
  probAway : R
  over25 : R
  btts : R

def Sums.zero : Sums R := ⟨0, 0, 0, 0, 0⟩

def Sums.add (s : Sums R) (c : Cell R) : Sums R where
  probHome := if c.homeGoals > c.awayGoals then s.probHome + c.probability else s.probHome
  probAway :=
    if c.homeGoals > c.awayGoals then s.probAway
    else if c.homeGoals < c.awayGoals then s.probAway + c.probability else s.probAway
  probDraw :=
    if c.homeGoals > c.awayGoals then s.probDraw
    else if c.homeGoals < c.awayGoals then s.probDraw else s.probDraw + c.probability
  over25 := if c.homeGoals + c.awayGoals > 2 then s.over25 + c.probability else s.over25
  btts := if c.homeGoals > 0 ∧ c.awayGoals > 0 then s.btts + c.probability else s.btts

/-- `cells.sort(key=…, reverse=True)`: descending, and stable. -/
def byProbability (cells : List (Cell R)) : List (Cell R) :=
  cells.mergeSort fun a b => decide (b.probability ≤ a.probability)

/-- `poisson.score_probabilities` -/
def scoreProbabilities [FloorRing R] [PyMath R] (lambdaHome lambdaAway : R) :
    ScoreProbabilities R :=
  let cells := scoreMatrix lambdaHome lambdaAway
  let sums := cells.foldl Sums.add .zero
  let total := sums.probHome + sums.probDraw + sums.probAway
  { lambdaHome := lambdaHome
    lambdaAway := lambdaAway
    probHome := sums.probHome / total
    probDraw := sums.probDraw / total
    probAway := sums.probAway / total
    over25 := sums.over25 / total
    btts := sums.btts / total
    mostLikelyScores := ((byProbability cells).take 3).map fun c =>
      ⟨c.homeGoals, c.awayGoals, roundDecimal 4 (c.probability / total)⟩ }

end AGame.Engine.Poisson
