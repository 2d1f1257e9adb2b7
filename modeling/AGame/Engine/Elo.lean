import AGame.Base.Store
import AGame.Engine.Params
import AGame.Postgres.Schema

/-!
# Elo ratings (`a-game-brain/app/engine/elo.py`)

One number per team and competition, replayed from the match history. The
mutable rating map of the source is threaded through explicitly.
-/

namespace AGame.Engine.Elo

open Std (ExtTreeMap)
open Base

/-- One finished match, in the shape the rating loop needs. -/
structure MatchResult where
  matchId : ℤ
  competitionId : ℤ
  utcDate : Instant
  homeTeamId : ℤ
  awayTeamId : ℤ
  homeGoals : ℤ
  awayGoals : ℤ
deriving DecidableEq, Repr

/-- `(team_id, competition_id)` -/
abbrev TeamKey := ℤ × ℤ

/-- A dictionary keyed by team and competition. -/
abbrev TeamMap (R : Type) := ExtTreeMap TeamKey R pairCmp

def MatchResult.homeKey (m : MatchResult) : TeamKey := (m.homeTeamId, m.competitionId)

def MatchResult.awayKey (m : MatchResult) : TeamKey := (m.awayTeamId, m.competitionId)

/-- Both sides' ratings as they stood before a match. -/
structure RatingSnapshot (R : Type) where
  matchId : ℤ
  home : R
  away : R

structure EloState (R : Type) where
  ratings : TeamMap R
  snapshots : List (RatingSnapshot R)

variable {R : Type} [Field R]

section

variable [PyMath R]

def expectedScore (ratingHome ratingAway : R) : R :=
  1 / (1 + PyMath.pow 10 ((ratingAway - (ratingHome + HOME_ADVANTAGE R)) / 400))

def goalDifferenceMultiplier (goalDifference : ℤ) : R :=
  PyMath.log ((goalDifference : R) + 1) / PyMath.log 2

end

def seedRating (ratings : TeamMap R) (competitionId : ℤ) : R :=
  let rated := (ratings.toList.filter fun entry => entry.1.2 = competitionId).map Prod.snd
  if rated.isEmpty then DEFAULT_RATING R
  else rated.sum / rated.length - PROMOTED_PENALTY R

/-- Both teams get an entry if they have none. The seed is computed once,
before either insert. -/
def seedTeams (ratings : TeamMap R) (m : MatchResult) : TeamMap R :=
  if m.homeKey ∉ ratings ∨ m.awayKey ∉ ratings then
    let seed := seedRating ratings m.competitionId
    (ratings.insertIfNew m.homeKey seed).insertIfNew m.awayKey seed
  else ratings

theorem mem_seedTeams (ratings : TeamMap R) (m : MatchResult) :
    m.homeKey ∈ seedTeams ratings m ∧ m.awayKey ∈ seedTeams ratings m := by
  unfold seedTeams
  by_cases hnew : m.homeKey ∉ ratings ∨ m.awayKey ∉ ratings
  · rw [if_pos hnew]
    constructor
    · rw [ExtTreeMap.mem_insertIfNew]
      exact Or.inr ExtTreeMap.mem_insertIfNew_self
    · exact ExtTreeMap.mem_insertIfNew_self
  · rw [if_neg hnew]
    tauto

variable [PyMath R]

/-- `1.0`, `0.5` or `0.0` for the home side. -/
def actualScore (m : MatchResult) : R :=
  if m.homeGoals > m.awayGoals then 1
  else if m.homeGoals < m.awayGoals then 0
  else 0.5

/-- A level match has no margin to scale by. -/
def marginMultiplier (m : MatchResult) : R :=
  let goalDifference := |m.homeGoals - m.awayGoals|
  if goalDifference = 0 then 1 else goalDifferenceMultiplier goalDifference

/-- The points the home side gains at the given ratings. -/
def ratingChange (ratingHome ratingAway : R) (m : MatchResult) : R :=
  K_FACTOR R * marginMultiplier m * (actualScore m - expectedScore ratingHome ratingAway)

def applyMatch (ratings : TeamMap R) (m : MatchResult) : TeamMap R × RatingSnapshot R :=
  let seeded := seedTeams ratings m
  let ratingHome := seeded.get m.homeKey (mem_seedTeams ratings m).1
  let ratingAway := seeded.get m.awayKey (mem_seedTeams ratings m).2
  let change := ratingChange ratingHome ratingAway m
  ((seeded.insert m.homeKey (ratingHome + change)).insert m.awayKey (ratingAway - change),
    ⟨m.matchId, ratingHome, ratingAway⟩)

/-- The sort key `(utc_date, match_id)`. -/
def kickoffLE (a b : MatchResult) : Bool :=
  decide (a.utcDate < b.utcDate ∨ (a.utcDate = b.utcDate ∧ a.matchId ≤ b.matchId))

/-- `sorted(matches, key=…)` -/
def chronological (matches_ : List MatchResult) : List MatchResult :=
  matches_.mergeSort kickoffLE

/-- One turn of the replay loop. -/
def replayMatch (state : EloState R) (m : MatchResult) : EloState R :=
  let (ratings, snapshot) := applyMatch state.ratings m
  ⟨ratings, state.snapshots ++ [snapshot]⟩

def EloState.initial : EloState R := ⟨∅, []⟩

/-- `elo.run` -/
def run (matches_ : List MatchResult) : EloState R :=
  (chronological matches_).foldl replayMatch EloState.initial

/-! ## The order of the replay -/

theorem kickoffLE_iff {a b : MatchResult} : kickoffLE a b = true ↔
    a.utcDate < b.utcDate ∨ (a.utcDate = b.utcDate ∧ a.matchId ≤ b.matchId) := by
  simp [kickoffLE]

theorem kickoffLE_trans {a b c : MatchResult} (hab : kickoffLE a b = true)
    (hbc : kickoffLE b c = true) : kickoffLE a c = true := by
  rw [kickoffLE_iff] at hab hbc ⊢
  rcases hab with hab | ⟨hab, hid⟩
  · rcases hbc with hbc | ⟨hbc, -⟩
    · exact Or.inl (hab.trans hbc)
    · exact Or.inl (hbc ▸ hab)
  · rcases hbc with hbc | ⟨hbc, hid'⟩
    · exact Or.inl (hab ▸ hbc)
    · exact Or.inr ⟨hab.trans hbc, hid.trans hid'⟩

theorem kickoffLE_total (a b : MatchResult) : (kickoffLE a b || kickoffLE b a) = true := by
  rw [Bool.or_eq_true, kickoffLE_iff, kickoffLE_iff]
  rcases lt_trichotomy a.utcDate b.utcDate with hlt | heq | hgt
  · exact Or.inl (Or.inl hlt)
  · rcases le_total a.matchId b.matchId with hid | hid
    · exact Or.inl (Or.inr ⟨heq, hid⟩)
    · exact Or.inr (Or.inr ⟨heq.symm, hid⟩)
  · exact Or.inr (Or.inl hgt)

/-- Without equal ids the kickoff order has no ties. -/
theorem matchId_eq_of_kickoffLE {a b : MatchResult} (hab : kickoffLE a b = true)
    (hba : kickoffLE b a = true) : a.matchId = b.matchId := by
  rw [kickoffLE_iff] at hab hba
  rcases hab with hab | ⟨hab, hid⟩
  · rcases hba with hba | ⟨hba, -⟩
    · exact absurd hab hba.asymm
    · exact absurd hab hba.symm.not_lt
  · rcases hba with hba | ⟨-, hid'⟩
    · exact absurd hba hab.symm.not_lt
    · exact le_antisymm hid hid'

theorem chronological_perm (l : List MatchResult) : (chronological l).Perm l :=
  List.mergeSort_perm l kickoffLE

theorem chronological_sorted (l : List MatchResult) :
    (chronological l).Pairwise fun a b => kickoffLE a b = true :=
  @List.pairwise_mergeSort _ kickoffLE (fun _ _ _ => kickoffLE_trans) kickoffLE_total l

/-- The match ids of a history are distinct. -/
def DistinctIds (l : List MatchResult) : Prop := (l.map MatchResult.matchId).Nodup

instance (l : List MatchResult) : Decidable (DistinctIds l) :=
  inferInstanceAs (Decidable (l.map MatchResult.matchId).Nodup)

theorem DistinctIds.perm {l l' : List MatchResult} (h : DistinctIds l) (hp : l'.Perm l) :
    DistinctIds l' :=
  ((hp.map MatchResult.matchId).nodup_iff).mpr h

/-- With distinct ids the kickoff order has no ties, so a history has one
chronological listing. -/
theorem chronological_eq_of_sorted {l l' : List MatchResult} (hids : DistinctIds l)
    (hp : l'.Perm l) (hs : l'.Pairwise fun a b => kickoffLE a b = true) :
    chronological l = l' := by
  have hperm : (chronological l).Perm l' := (chronological_perm l).trans hp.symm
  refine hperm.eq_of_pairwise ?_ (chronological_sorted l) hs
  intro a b ha hb hab hba
  have hid : a.matchId = b.matchId := matchId_eq_of_kickoffLE hab hba
  exact List.inj_on_of_nodup_map hids ((chronological_perm l).subset ha) (hp.subset hb) hid

/-- A match later than the whole history is replayed last. -/
theorem chronological_concat {l past : List MatchResult} {m : MatchResult}
    (hids : DistinctIds l) (hp : l.Perm (past ++ [m]))
    (hlast : ∀ p ∈ past, p.utcDate < m.utcDate) :
    chronological l = chronological past ++ [m] := by
  apply chronological_eq_of_sorted hids
  · exact ((chronological_perm past).append_right [m]).trans hp.symm
  · rw [List.pairwise_append]
    refine ⟨chronological_sorted past, List.pairwise_singleton _ _, ?_⟩
    intro a ha b hb
    rw [List.mem_singleton.mp hb, kickoffLE_iff]
    exact Or.inl (hlast a ((chronological_perm past).subset ha))

/-! ## The ratings after one more match -/

/-- The home side ends a match with its rating before it plus the change. -/
theorem applyMatch_home (ratings : TeamMap R) {m : MatchResult}
    (hteams : m.homeKey ≠ m.awayKey) :
    (applyMatch ratings m).1[m.homeKey]? = some ((applyMatch ratings m).2.home +
      ratingChange (applyMatch ratings m).2.home (applyMatch ratings m).2.away m) := by
  unfold applyMatch
  rw [getElem?_put, if_neg hteams.symm, getElem?_put, if_pos rfl]

theorem run_concat {l past : List MatchResult} {m : MatchResult}
    (hids : DistinctIds l) (hp : l.Perm (past ++ [m]))
    (hlast : ∀ p ∈ past, p.utcDate < m.utcDate) :
    (run l : EloState R) = replayMatch (run past) m := by
  unfold run
  rw [chronological_concat hids hp hlast, List.foldl_append]
  rfl

/-! ## Histories of one match and of none -/

theorem chronological_singleton (m : MatchResult) : chronological [m] = [m] :=
  List.mergeSort_singleton m

omit [PyMath R] in
theorem seedRating_empty (c : ℤ) : seedRating (∅ : TeamMap R) c = DEFAULT_RATING R := by
  simp [seedRating]

end AGame.Engine.Elo
