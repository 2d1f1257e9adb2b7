import AGame.Brain.Handlers
import AGame.Engine.Kickoff

/-!
# The ratings a job stores

The live path rates a fixture by a lookup after the whole history; the backtest
takes snapshots, or stops the history at a kickoff. The first two are one
number (`snapshots_prefix_consistent`). The third is another one when a team
enters the league at an instant at which smaller ids enter it as well
(`snapshot_eq_cut_iff`).
-/

namespace AGame.Brain

open Std (ExtTreeMap)
open Base Engine Engine.Elo

/-! ## The live lookup -/

/-- A fixture with a score. -/
def asPlayed (m : Match) (homeGoals awayGoals : ℤ) : MatchResult where
  matchId := m.id
  competitionId := m.competitionId
  utcDate := m.utcDate
  homeTeamId := m.homeTeamId
  awayTeamId := m.awayTeamId
  homeGoals := homeGoals
  awayGoals := awayGoals

section Live

variable {R : Type} [Field R] [LinearOrder R] [FloorRing R] [PyMath R]

/-- The pair of `process_job` is what the fixture would be played at. -/
theorem numbers_elo (history : List MatchResult) (now : Instant) (m : Match)
    (homeGoals awayGoals : ℤ) :
    ((numbers R history now m).eloHome, (numbers R history now m).eloAway) =
      kickoffRatings (run history : EloState R).ratings (asPlayed m homeGoals awayGoals) := rfl

theorem earlier_of_sorts_last {history l : List MatchResult} {x : MatchResult}
    (hlast : ∀ p ∈ history, kickoffLT p x = true) (hl : l.Perm (history ++ [x])) :
    (earlier l x).Perm history := by
  have hkept := hl.filter fun p => kickoffLT p x
  rw [List.filter_append, List.filter_eq_self.mpr hlast,
    List.filter_cons_of_neg (by simp [kickoffLT]), List.filter_nil, List.append_nil] at hkept
  exact hkept

/-- **Snapshots are prefix-consistent, and the live fallback is the loop's own
seed.** A snapshot is a lookup after the matches that sort before; nothing else
in the history has a say in it; and a job stores, for a fixture that sorts
last, the snapshot its replay would take. -/
theorem snapshots_prefix_consistent (l : List MatchResult) (hids : DistinctIds l) :
    (∀ m ∈ l,
      let ratings := (run (earlier l m) : EloState R).ratings
      let seed := seedRating ratings m.competitionId
      snapshotOf (run l) m.matchId =
        some ⟨m.matchId, ratings.getD m.homeKey seed, ratings.getD m.awayKey seed⟩) ∧
    (∀ m ∈ l, ∀ (homeGoals awayGoals : ℤ) (l' : List MatchResult), DistinctIds l' →
      { m with homeGoals, awayGoals } ∈ l' →
      (earlier l' { m with homeGoals, awayGoals }).Perm (earlier l m) →
      snapshotOf (run l' : EloState R) m.matchId = snapshotOf (run l) m.matchId) ∧
    ∀ (now : Instant) (m : Match) (homeGoals awayGoals : ℤ) (l' : List MatchResult),
      (∀ p ∈ l, kickoffLT p (asPlayed m homeGoals awayGoals) = true) →
      l'.Perm (l ++ [asPlayed m homeGoals awayGoals]) → DistinctIds l' →
      ∃ snapshot, snapshotOf (run l') m.id = some snapshot ∧
        (numbers R l now m).eloHome = snapshot.home ∧
        (numbers R l now m).eloAway = snapshot.away ∧
        (engineRow R l now m).eloHome = roundDecimal 2 snapshot.home ∧
        (engineRow R l now m).eloAway = roundDecimal 2 snapshot.away := by
  refine ⟨?_, ?_, ?_⟩
  · intro m hm
    rw [snapshotOf_run hids hm, applyMatch_snapshot]
    rfl
  · intro m hm homeGoals awayGoals l' hids' hm' hpast
    have hsame := snapshotOf_congr (R := R) hids hids' hm hm' rfl rfl rfl hpast
    exact hsame
  · intro now m homeGoals awayGoals l' hlast hl hids'
    have hx : asPlayed m homeGoals awayGoals ∈ l' := hl.mem_iff.mpr (by simp)
    have hsnapshot := snapshotOf_run (R := R) hids' hx
    rw [run_perm hids (earlier_of_sorts_last hlast hl), applyMatch_snapshot,
      ← numbers_elo l now m homeGoals awayGoals] at hsnapshot
    exact ⟨_, hsnapshot, rfl, rfl, rfl, rfl⟩

end Live

/-! ## Fixed histories -/

/-- A match, a later one between two other teams, and one that kicks off with the
first. -/
def opening : MatchResult := ⟨1, 2021, 0, 1, 2, 1, 0⟩

def laterDebut : MatchResult := ⟨2, 2021, 7, 3, 4, 0, 0⟩

def sharedDebut : MatchResult := ⟨2, 2021, 0, 3, 4, 0, 0⟩

/-- After the opening match, two new teams are looked up at its league's seed. -/
theorem newcomers_after_opening {m : MatchResult} (hleague : m.competitionId = 2021)
    (hhome : m.homeTeamId ≠ 1 ∧ m.homeTeamId ≠ 2) (haway : m.awayTeamId ≠ 1 ∧ m.awayTeamId ≠ 2) :
    kickoffRatings (run [opening] : EloState ℝ).ratings m =
      (DEFAULT_RATING ℝ - PROMOTED_PENALTY ℝ, DEFAULT_RATING ℝ - PROMOTED_PENALTY ℝ) := by
  have hseed : seedRating (run [opening] : EloState ℝ).ratings m.competitionId =
      DEFAULT_RATING ℝ - PROMOTED_PENALTY ℝ := by
    rw [hleague]
    exact seedRating_run_singleton (m := opening) (by decide)
  have habsent : ∀ team : ℤ, team ≠ 1 ∧ team ≠ 2 →
      (team, m.competitionId) ∉ (run [opening] : EloState ℝ).ratings := by
    intro team hteam
    rw [run_ratings, chronological_singleton, mem_ratingsAfter]
    rintro ⟨p, hp, hside⟩
    obtain rfl := List.mem_singleton.mp hp
    rcases hside with hside | hside
    · exact hteam.1 (congrArg Prod.fst hside)
    · exact hteam.2 (congrArg Prod.fst hside)
  simp only [kickoffRatings, hseed, MatchResult.homeKey, MatchResult.awayKey,
    ExtTreeMap.getD_eq_fallback (habsent _ hhome), ExtTreeMap.getD_eq_fallback (habsent _ haway)]

/-- Teams that enter a week later start fifty points below the others. -/
theorem laterDebut_snapshot :
    snapshotOf (run [opening, laterDebut] : EloState ℝ) 2 =
      some ⟨2, DEFAULT_RATING ℝ - PROMOTED_PENALTY ℝ, DEFAULT_RATING ℝ - PROMOTED_PENALTY ℝ⟩ := by
  have hsnapshot := (snapshots_prefix_consistent (R := ℝ) [opening, laterDebut] (by decide)).1
    laterDebut (by decide)
  have hearlier : earlier [opening, laterDebut] laterDebut = [opening] := by decide
  have hratings := newcomers_after_opening (m := laterDebut) rfl (by decide) (by decide)
  simp only [kickoffRatings, Prod.mk.injEq] at hratings
  rw [hearlier] at hsnapshot
  simp only [hratings.1, hratings.2] at hsnapshot
  exact hsnapshot

/-! ## The cut at the kickoff -/

section Cut

variable {R : Type} [Field R] [PyMath R] [LinearOrder R] [IsStrictOrderedRing R]

/-- **The replay and the cut agree exactly on known teams and quiet kickoffs.**
The snapshot of a match is what `fetch_match_history(before=…)` leads to unless
a side is new and a smaller id brings newcomers at the same instant; then it is
lower. -/
theorem snapshot_eq_cut_iff (l : List MatchResult) (hids : DistinctIds l)
    (hteams : ∀ m ∈ l, m.homeTeamId ≠ m.awayTeamId) (hslots : OneMatchAtATime l) :
    (∀ m ∈ l,
      let cut := (run (strictPast l m) : EloState R).ratings
      let seed := seedRating cut m.competitionId
      ∃ snapshot, snapshotOf (run l) m.matchId = some snapshot ∧
        snapshot.home ≤ cut.getD m.homeKey seed ∧ snapshot.away ≤ cut.getD m.awayKey seed ∧
        (snapshot = ⟨m.matchId, cut.getD m.homeKey seed, cut.getD m.awayKey seed⟩ ↔
          (HasPlayed l m m.homeKey ∧ HasPlayed l m m.awayKey) ∨ NoDebut l m)) ∧
    ∀ (db : Db) (m : MatchResult),
      fetchMatchHistory db m.competitionId (some m.utcDate) =
        strictPast (fetchMatchHistory db m.competitionId none) m := by
  refine ⟨?_, fun db m => fetchMatchHistory_before db m.competitionId m.utcDate⟩
  intro m hm
  have hreplayed := kickoffRatings_earlier (R := R) hids m
  obtain ⟨hhome, hhome'⟩ := kickoffRatings_cut (R := R) hteams hslots hm (Or.inl rfl) rfl rfl
  obtain ⟨haway, haway'⟩ := kickoffRatings_cut (R := R) hteams hslots hm (Or.inr rfl) rfl rfl
  refine ⟨_, snapshotOf_run hids hm, ?_⟩
  rw [applyMatch_snapshot, hreplayed]
  refine ⟨hhome, haway, ?_⟩
  simp only [RatingSnapshot.mk.injEq, true_and]
  refine (and_congr hhome' haway').trans ?_
  tauto

end Cut

/-- Nobody enters between the opening match and the later one. -/
theorem laterDebut_snapshot_eq_cut :
    snapshotOf (run [opening, laterDebut] : EloState ℝ) 2 =
      some ⟨2, (kickoffRatings (run [opening] : EloState ℝ).ratings laterDebut).1,
        (kickoffRatings (run [opening] : EloState ℝ).ratings laterDebut).2⟩ := by
  obtain ⟨hcut, -⟩ := snapshot_eq_cut_iff (R := ℝ) [opening, laterDebut] (by decide) (by decide)
    (by
      intro p hp q hq hdate hne team
      simp only [List.mem_cons, List.not_mem_nil, or_false] at hp hq
      rcases hp with rfl | rfl
      · rcases hq with rfl | rfl
        · exact absurd rfl hne
        · exact absurd hdate (by decide)
      · rcases hq with rfl | rfl
        · exact absurd hdate (by decide)
        · exact absurd rfl hne)
  obtain ⟨snapshot, hsnapshot, -, -, hiff⟩ := hcut laterDebut (by decide)
  have hpast : strictPast [opening, laterDebut] laterDebut = [opening] := by decide
  rw [hpast] at hiff
  have hquiet : NoDebut [opening, laterDebut] laterDebut := by decide
  exact hsnapshot.trans (congrArg some (hiff.mpr (Or.inr hquiet)))

/-- **Two pairs of newcomers at one kickoff**: the pair with the smaller id starts
at the default, the other fifty points lower, while a replay that stops at the
kickoff knows nobody and looks both pairs up at the default. -/
theorem debuts_at_one_kickoff_differ :
    DistinctIds [opening, sharedDebut] ∧
      (∀ m ∈ [opening, sharedDebut], m.homeTeamId ≠ m.awayTeamId) ∧
      OneMatchAtATime [opening, sharedDebut] ∧
      snapshotOf (run [opening, sharedDebut] : EloState ℝ) 2 =
        some ⟨2, DEFAULT_RATING ℝ - PROMOTED_PENALTY ℝ, DEFAULT_RATING ℝ - PROMOTED_PENALTY ℝ⟩ ∧
      kickoffRatings (run (strictPast [opening, sharedDebut] sharedDebut) : EloState ℝ).ratings
        sharedDebut = (DEFAULT_RATING ℝ, DEFAULT_RATING ℝ) ∧
      DEFAULT_RATING ℝ - PROMOTED_PENALTY ℝ ≠ DEFAULT_RATING ℝ := by
  have hids : DistinctIds [opening, sharedDebut] := by decide
  have hearlier : earlier [opening, sharedDebut] sharedDebut = [opening] := by decide
  have hpast : strictPast [opening, sharedDebut] sharedDebut = [] := by decide
  have hempty : (run [] : EloState ℝ).ratings = ∅ := by
    rw [run_ratings, chronological, List.mergeSort_nil]
    rfl
  refine ⟨hids, by decide, ?_, ?_, ?_, ?_⟩
  · intro p hp q hq hdate hne team
    simp only [List.mem_cons, List.not_mem_nil, or_false] at hp hq
    rintro ⟨hp', hq'⟩
    rcases hp with rfl | rfl
    · rcases hq with rfl | rfl
      · exact hne rfl
      · simp only [opening, sharedDebut] at hp' hq'
        omega
    · rcases hq with rfl | rfl
      · simp only [opening, sharedDebut] at hp' hq'
        omega
      · exact hne rfl
  · have hsnapshot := snapshotOf_run (R := ℝ) hids (m := sharedDebut) (by decide)
    rw [hearlier, applyMatch_snapshot,
      newcomers_after_opening (m := sharedDebut) rfl (by decide) (by decide)] at hsnapshot
    exact hsnapshot
  · rw [hpast, hempty, kickoffRatings, seedRating_empty]
    rfl
  · have hpenalty := promotedPenalty_pos (R := ℝ)
    intro heq
    linarith

end AGame.Brain
