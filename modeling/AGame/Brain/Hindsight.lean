import AGame.Brain.OneMatch

/-!
# What a stored prediction knows about its own match

The live path trains on every finished match of the competition, without a
bound on the kickoff. A fixture whose own result is in the table is therefore
rated after that result: a one-goal win instead of a one-goal defeat moves the
stored home rating by twenty points (`rowFor_won_ne_lost`), whatever happened
before. No database hides the result from the row
(`no_prediction_is_blind`).
-/

namespace AGame.Brain

open Std (ExtTreeMap)
open Base Engine Engine.Elo

/-! ## Two tables with the same past -/

/-- The row `process_job` hands to Postgres for a match. -/
def rowFor (R : Type) [Field R] [LinearOrder R] [FloorRing R] [PyMath R] (now : Instant)
    (db : Db) (matchId : ℤ) : Option PredictionValues :=
  (fetchMatchViaId db matchId).map fun m => engineRow R (trainingSet db m) now m

/-- It is the row a job leaves behind when Postgres takes it. -/
theorem processJob_stores_rowFor {R : Type} [Field R] [LinearOrder R] [FloorRing R] [PyMath R]
    {env : JobEnv} (hup : env.PostgresUp) {s : Stores} {matchId : ℤ} {m : Match}
    (hm : fetchMatchViaId s.db matchId = some m) (hfits : (jobRow R env s.db m).fits = true)
    (hpreview : previewStorable (jobPreview R env s.db m) = true) :
    ((processJob R env s matchId).1.prediction matchId).map Subtype.val =
      rowFor R env.now s.db matchId := by
  rw [processJob_prediction R hup hm hfits, if_pos hpreview, rowFor, hm]
  rfl

/-- The columns of a fixture that are known before it is played. -/
structure Fixture where
  seasonId : ℤ
  homeTeamId : ℤ
  awayTeamId : ℤ
  utcDate : Instant
deriving DecidableEq, Repr

def rowFixture (row : MatchRow) : Fixture :=
  ⟨row.seasonId, row.homeTeamId, row.awayTeamId, row.utcDate⟩

/-- The match is of the given competition and kicks off before the instant. -/
def PlayedBefore (db : Db) (competitionId : ℤ) (instant : Instant) (row : MatchRow) : Prop :=
  (∃ season, db.seasonRows[row.seasonId]? = some season ∧
    season.competitionId = competitionId) ∧ row.utcDate < instant

/-- The two databases agree on seasons and teams, on the fixture and on every
match of its competition that kicks off before it. -/
structure SamePast (matchId : ℤ) (db db' : Db) : Prop where
  seasons : db'.seasonRows = db.seasonRows
  teams : db'.teamRows = db.teamRows
  fixture : db'.matchRows[matchId]?.map rowFixture =
    db.matchRows[matchId]?.map rowFixture
  past : ∀ m, fetchMatchViaId db matchId = some m → ∀ (id : ℤ) (row : MatchRow),
    PlayedBefore db m.competitionId m.utcDate row →
      (db'.matchRows[id]? = some row ↔ db.matchRows[id]? = some row)

/-! ## The table with one result and nothing later -/

/-- Rewrite match rows, leaving every key alone. -/
def rewriteMatches (db : Db) (f : ℤ → MatchRow → MatchRow)
    (hf : ∀ id row, rowFixture (f id row) = rowFixture row) : Db :=
  have hback : ∀ (i : ℤ) (r : MatchRow), (db.matchRows.map f)[i]? = some r →
      ∃ row, db.matchRows[i]? = some row ∧ rowFixture r = rowFixture row := by
    intro i r h
    rw [ExtTreeMap.getElem?_map] at h
    obtain ⟨row, hrow, rfl⟩ := Option.map_eq_some_iff.mp h
    exact ⟨row, hrow, hf i row⟩
  { db with
    matchRows := db.matchRows.map f
    match_season_fk := by
      intro i r h
      obtain ⟨row, hrow, heq⟩ := hback i r h
      rw [show r.seasonId = row.seasonId from congrArg Fixture.seasonId heq]
      exact db.match_season_fk i row hrow
    match_home_team_fk := by
      intro i r h
      obtain ⟨row, hrow, heq⟩ := hback i r h
      rw [show r.homeTeamId = row.homeTeamId from congrArg Fixture.homeTeamId heq]
      exact db.match_home_team_fk i row hrow
    match_away_team_fk := by
      intro i r h
      obtain ⟨row, hrow, heq⟩ := hback i r h
      rw [show r.awayTeamId = row.awayTeamId from congrArg Fixture.awayTeamId heq]
      exact db.match_away_team_fk i row hrow
    rabbit_event_match_fk := fun i r h =>
      ExtTreeMap.mem_map.mpr (db.rabbit_event_match_fk i r h)
    commentary_match_fk := fun i h => ExtTreeMap.mem_map.mpr (db.commentary_match_fk i h)
    prediction_match_fk := fun k h => ExtTreeMap.mem_map.mpr (db.prediction_match_fk k h) }

/-- The match ended with the given score; nothing from its kickoff on has been
played otherwise. -/
def resultOnly (matchId : ℤ) (kickoff : Instant) (homeGoals awayGoals : Goals) (id : ℤ)
    (row : MatchRow) : MatchRow :=
  if id = matchId then
    { row with status := .finished, homeGoals := some homeGoals, awayGoals := some awayGoals }
  else if kickoff ≤ row.utcDate then { row with status := .scheduled }
  else row

theorem resultOnly_fixture (matchId : ℤ) (kickoff : Instant) (homeGoals awayGoals : Goals)
    (id : ℤ) (row : MatchRow) :
    rowFixture (resultOnly matchId kickoff homeGoals awayGoals id row) = rowFixture row := by
  unfold resultOnly
  split_ifs <;> rfl

def withResult (db : Db) (matchId : ℤ) (kickoff : Instant) (homeGoals awayGoals : Goals) : Db :=
  rewriteMatches db (resultOnly matchId kickoff homeGoals awayGoals)
    (resultOnly_fixture matchId kickoff homeGoals awayGoals)

section

variable {db : Db} {matchId : ℤ} {m : Match} (homeGoals awayGoals : Goals)

/-- What `fetch_match_via_id` found is a row of the match table. -/
theorem fetchMatchViaId_row (hm : fetchMatchViaId db matchId = some m) :
    ∃ row season, db.matchRows[matchId]? = some row ∧
      db.seasonRows[row.seasonId]? = some season ∧ m.id = matchId ∧
      m.competitionId = season.competitionId ∧ m.homeTeamId = row.homeTeamId ∧
      m.awayTeamId = row.awayTeamId ∧ m.utcDate = row.utcDate := by
  unfold fetchMatchViaId at hm
  obtain ⟨row, hrow, hrecord⟩ := Option.bind_eq_some_iff.mp hm
  unfold matchRecord at hrecord
  split at hrecord
  · rename_i season home away hseason _ _
    obtain rfl := Option.some.inj hrecord
    exact ⟨row, season, hrow, hseason, rfl, rfl, rfl, rfl, rfl⟩
  · cases hrecord

/-- Rewriting results changes nothing about the fixture a job looks up but its
status and score. -/
theorem fetch_withResult (hm : fetchMatchViaId db matchId = some m) :
    ∃ m', fetchMatchViaId (withResult db matchId m.utcDate homeGoals awayGoals) matchId =
        some m' ∧ m'.competitionId = m.competitionId ∧ m'.homeTeamId = m.homeTeamId ∧
      m'.awayTeamId = m.awayTeamId := by
  have hmem : matchId ∈ (withResult db matchId m.utcDate homeGoals awayGoals).matchRows := by
    refine ExtTreeMap.mem_map.mpr ?_
    rw [← fetchMatchViaId_isSome, hm]
    rfl
  obtain ⟨m', hm'⟩ := Option.isSome_iff_exists.mp (fetchMatchViaId_isSome.mpr hmem)
  obtain ⟨row, season, hrow, hseason, -, hcomp, hhome, haway, -⟩ := fetchMatchViaId_row hm
  obtain ⟨row', season', hrow', hseason', -, hcomp', hhome', haway', -⟩ :=
    fetchMatchViaId_row hm'
  have hrewritten : row' = resultOnly matchId m.utcDate homeGoals awayGoals matchId row := by
    have hlookup : (db.matchRows.map (resultOnly matchId m.utcDate homeGoals
        awayGoals))[matchId]? = some row' := hrow'
    rw [ExtTreeMap.getElem?_map, hrow] at hlookup
    exact (Option.some.inj hlookup).symm
  have hfixture : rowFixture row' = rowFixture row := by
    rw [hrewritten, resultOnly_fixture]
  have hseasonId : row'.seasonId = row.seasonId := congrArg Fixture.seasonId hfixture
  have hsame : season' = season := by
    rw [hseasonId] at hseason'
    change db.seasonRows[row.seasonId]? = some season' at hseason'
    rw [hseason] at hseason'
    exact (Option.some.inj hseason').symm
  refine ⟨m', hm', ?_, ?_, ?_⟩
  · rw [hcomp', hcomp, hsame]
  · rw [hhome', hhome]
    exact congrArg Fixture.homeTeamId hfixture
  · rw [haway', haway]
    exact congrArg Fixture.awayTeamId hfixture

/-- The results of the competition before the fixture's kickoff. -/
def pastResults (db : Db) (m : Match) : List MatchResult :=
  db.matchRows.toList.filterMap fun entry =>
    historyRow db m.competitionId (some m.utcDate) entry.1 entry.2

/-- The fixture as a result. -/
def resultOf (m : Match) (homeGoals awayGoals : Goals) : MatchResult where
  matchId := m.id
  competitionId := m.competitionId
  utcDate := m.utcDate
  homeTeamId := m.homeTeamId
  awayTeamId := m.awayTeamId
  homeGoals := homeGoals
  awayGoals := awayGoals

/-- Two selections from a list that differ at one of its elements only. -/
theorem filterMap_perm_concat {α β : Type} {l : List α} {f g : α → Option β} {x : α} {y : β}
    (hnodup : l.Nodup) (hx : x ∈ l) (hfx : f x = some y) (hgx : g x = none)
    (hsame : ∀ a ∈ l, a ≠ x → f a = g a) :
    (l.filterMap f).Perm (l.filterMap g ++ [y]) := by
  obtain ⟨l₁, l₂, rfl⟩ := List.append_of_mem hx
  have hout : x ∉ l₁ ++ l₂ := (List.nodup_cons.mp (List.perm_middle.nodup_iff.mp hnodup)).1
  have hrest : ∀ a ∈ l₁ ++ l₂, f a = g a := by
    intro a ha
    refine hsame a ?_ ?_
    · rcases List.mem_append.mp ha with h | h
      · exact List.mem_append_left _ h
      · exact List.mem_append_right _ (List.mem_cons_of_mem _ h)
    · rintro rfl
      exact hout ha
  have hperm : (l₁ ++ x :: l₂).Perm (x :: (l₁ ++ l₂)) := List.perm_middle
  have hf : ((l₁ ++ x :: l₂).filterMap f).Perm (y :: (l₁ ++ l₂).filterMap f) := by
    have := hperm.filterMap f
    rwa [List.filterMap_cons_some hfx] at this
  have hg : ((l₁ ++ x :: l₂).filterMap g).Perm ((l₁ ++ l₂).filterMap g) := by
    have := hperm.filterMap g
    rwa [List.filterMap_cons_none hgx] at this
  rw [List.filterMap_congr hrest] at hf
  exact hf.trans ((hg.symm.cons y).trans (List.perm_append_singleton y _).symm)

/-- A job on the rewritten table trains on the past and on the one result. -/
theorem trainingSet_withResult (hm : fetchMatchViaId db matchId = some m) :
    (fetchMatchHistory (withResult db matchId m.utcDate homeGoals awayGoals)
      m.competitionId none).Perm (pastResults db m ++ [resultOf m homeGoals awayGoals]) := by
  obtain ⟨row, season, hrow, hseason, hid, hcomp, hhome, haway, hdate⟩ := fetchMatchViaId_row hm
  refine (List.mergeSort_perm _ kickoffLE).trans ?_
  have hlist : (withResult db matchId m.utcDate homeGoals awayGoals).matchRows.toList =
      db.matchRows.toList.map fun entry =>
        (entry.1, resultOnly matchId m.utcDate homeGoals awayGoals entry.1 entry.2) :=
    ExtTreeMap.toList_map
  rw [hlist, List.filterMap_map]
  refine filterMap_perm_concat (x := (matchId, row)) (nodup_toList _)
    (ExtTreeMap.mem_toList_iff_getElem?_eq_some.mpr hrow) ?_ ?_ ?_
  · have hseason' : (withResult db matchId m.utcDate homeGoals awayGoals).seasonRows[
        row.seasonId]? = some season := hseason
    simp only [Function.comp, resultOnly, if_true, historyRow, hseason', hcomp,
      Option.all_none, and_self]
    rw [resultOf, hid, hcomp, hdate, hhome, haway]
  · simp only [historyRow, hseason]
    split
    · rename_i heq _ _
      obtain rfl := Option.some.inj heq
      rw [if_neg]
      rintro ⟨-, -, hbefore⟩
      rw [hdate] at hbefore
      exact lt_irrefl _ (decide_eq_true_eq.mp hbefore)
    · rfl
  · rintro ⟨id, row'⟩ hmem hne
    have hid' : id ≠ matchId := by
      rintro rfl
      have hrow' := ExtTreeMap.mem_toList_iff_getElem?_eq_some.mp hmem
      rw [hrow] at hrow'
      exact hne (by rw [Option.some.inj hrow'])
    simp only [Function.comp, resultOnly, if_neg hid']
    by_cases hlate : m.utcDate ≤ row'.utcDate
    · -- anything later is back to a fixture, and no result before the kickoff
      rw [if_pos hlate]
      simp [historyRow, withResult, rewriteMatches, hlate.not_gt]
    · rw [if_neg hlate]
      simp [historyRow, withResult, rewriteMatches, not_le.mp hlate]

theorem pastResults_before {p : MatchResult} (hp : p ∈ pastResults db m) :
    p.utcDate < m.utcDate := by
  obtain ⟨entry, -, hentry⟩ := List.mem_filterMap.mp hp
  exact (historyRow_eq_some hentry).2.2.2.2 m.utcDate rfl

/-- The rating a job stores for the home side: the past's rating, moved by the
match's own result. -/
theorem eloHome_withResult (hm : fetchMatchViaId db matchId = some m)
    (now : Instant) {m' : Match} (hcomp : m'.competitionId = m.competitionId)
    (hhome : m'.homeTeamId = m.homeTeamId) (hteams : m.homeTeamId ≠ m.awayTeamId) :
    (numbers ℝ (trainingSet (withResult db matchId m.utcDate homeGoals awayGoals) m') now
        m').eloHome =
      (applyMatch (run (pastResults db m)).ratings
          (resultOf m homeGoals awayGoals)).2.home +
        ratingChange
          (applyMatch (run (pastResults db m)).ratings (resultOf m homeGoals awayGoals)).2.home
          (applyMatch (run (pastResults db m)).ratings (resultOf m homeGoals awayGoals)).2.away
          (resultOf m homeGoals awayGoals) := by
  have hperm : (fetchMatchHistory (withResult db matchId m.utcDate homeGoals awayGoals)
      m.competitionId none).Perm (pastResults db m ++ [resultOf m homeGoals awayGoals]) :=
    trainingSet_withResult homeGoals awayGoals hm
  have hids := fetchMatchHistory_distinctIds
    (withResult db matchId m.utcDate homeGoals awayGoals) m.competitionId none
  have hrun := run_concat (R := ℝ) hids hperm fun p hp => pastResults_before hp
  have hkeys : (resultOf m homeGoals awayGoals).homeKey ≠
      (resultOf m homeGoals awayGoals).awayKey := by
    intro heq
    exact hteams (congrArg Prod.fst heq)
  have hrating := applyMatch_home (run (pastResults db m) : EloState ℝ).ratings hkeys
  unfold trainingSet
  rw [hcomp]
  simp only [numbers, hrun, replayMatch, hcomp, hhome]
  rw [ExtTreeMap.getD_eq_getD_getElem?]
  change Option.getD ((applyMatch _ _).1[(resultOf m homeGoals awayGoals).homeKey]?) _ = _
  rw [hrating, Option.getD_some]

/-! ## Twenty points -/

abbrev noGoals : Goals := ⟨0, by decide⟩

abbrev oneGoal : Goals := ⟨1, by decide⟩

/-- A one-goal win is worth twenty points more than a one-goal defeat, whatever
the two ratings. -/
theorem ratingChange_won_sub_lost (ratingHome ratingAway : ℝ) :
    ratingChange ratingHome ratingAway (resultOf m oneGoal noGoals) -
      ratingChange ratingHome ratingAway (resultOf m noGoals oneGoal) = 20 := by
  have hlog : Real.log 2 ≠ 0 := (Real.log_pos one_lt_two).ne'
  have hone : (goalDifferenceMultiplier 1 : ℝ) = 1 := by
    show Real.log (((1 : ℤ) : ℝ) + 1) / Real.log 2 = 1
    rw [Int.cast_one, one_add_one_eq_two, div_self hlog]
  have hwon : (marginMultiplier (resultOf m oneGoal noGoals) : ℝ) = 1 := by
    simpa [marginMultiplier, resultOf] using hone
  have hlost : (marginMultiplier (resultOf m noGoals oneGoal) : ℝ) = 1 := by
    simpa [marginMultiplier, resultOf] using hone
  have hactual : (actualScore (resultOf m oneGoal noGoals) : ℝ) = 1 := by
    simp [actualScore, resultOf]
  have hactual' : (actualScore (resultOf m noGoals oneGoal) : ℝ) = 0 := by
    simp [actualScore, resultOf]
  unfold ratingChange
  rw [hwon, hlost, hactual, hactual', K_FACTOR]
  ring

/-- **The row of a match depends on its own result.** -/
theorem rowFor_won_ne_lost (hm : fetchMatchViaId db matchId = some m) (now : Instant) :
    rowFor ℝ now (withResult db matchId m.utcDate oneGoal noGoals) matchId ≠
      rowFor ℝ now (withResult db matchId m.utcDate noGoals oneGoal) matchId := by
  intro heq
  have hteams : m.homeTeamId ≠ m.awayTeamId := by
    obtain ⟨row, _, -, -, -, -, hhome, haway, -⟩ := fetchMatchViaId_row hm
    rw [hhome, haway]
    exact row.match_teams_differ
  obtain ⟨m₁, hm₁, hcomp₁, hhome₁, -⟩ :=
    fetch_withResult oneGoal noGoals hm
  obtain ⟨m₂, hm₂, hcomp₂, hhome₂, -⟩ :=
    fetch_withResult noGoals oneGoal hm
  have hwon := eloHome_withResult oneGoal noGoals hm now hcomp₁ hhome₁ hteams
  have hlost := eloHome_withResult noGoals oneGoal hm now hcomp₂ hhome₂ hteams
  rw [rowFor, rowFor, hm₁, hm₂] at heq
  have helo := congrArg PredictionValues.eloHome (Option.some.inj heq)
  change roundDecimal 2 (numbers ℝ _ now m₁).eloHome =
    roundDecimal 2 (numbers ℝ _ now m₂).eloHome at helo
  rw [hwon, hlost] at helo
  -- before the match both sides are rated the same in the two tables
  let before := (applyMatch (run (pastResults db m) : EloState ℝ).ratings
    (resultOf m oneGoal noGoals)).2
  have htwenty := ratingChange_won_sub_lost (m := m) before.home before.away
  refine roundDecimal_ne ?_ helo
  change (before.home + ratingChange before.home before.away (resultOf m noGoals oneGoal)) *
      10 ^ 2 + 1 <
    (before.home + ratingChange before.home before.away (resultOf m oneGoal noGoals)) * 10 ^ 2
  linarith

/-! ## No input hides the result -/

/-- The rewritten table has the same past. -/
theorem samePast_withResult (hm : fetchMatchViaId db matchId = some m) :
    SamePast matchId db (withResult db matchId m.utcDate homeGoals awayGoals) := by
  have hlookup : ∀ i : ℤ, (withResult db matchId m.utcDate homeGoals awayGoals).matchRows[i]? =
      db.matchRows[i]?.map (resultOnly matchId m.utcDate homeGoals awayGoals i) :=
    fun i => ExtTreeMap.getElem?_map
  obtain ⟨fixtureRow, _, hrow, -, -, -, -, -, hdate⟩ := fetchMatchViaId_row hm
  have hkeep : ∀ (i : ℤ) (row : MatchRow), db.matchRows[i]? = some row →
      row.utcDate < m.utcDate → resultOnly matchId m.utcDate homeGoals awayGoals i row = row := by
    intro i row hi hbefore
    have hne : i ≠ matchId := by
      rintro rfl
      rw [hrow] at hi
      rw [← Option.some.inj hi, ← hdate] at hbefore
      exact lt_irrefl _ hbefore
    rw [resultOnly, if_neg hne, if_neg hbefore.not_ge]
  refine ⟨rfl, rfl, ?_, ?_⟩
  · rw [hlookup, Option.map_map]
    congr 1
    funext row
    exact resultOnly_fixture matchId m.utcDate homeGoals awayGoals matchId row
  · intro m' hm' i row hplayed
    rw [hm] at hm'
    obtain rfl := Option.some.inj hm'
    rw [hlookup]
    constructor
    · intro h
      obtain ⟨row', hi, hrewritten⟩ := Option.map_eq_some_iff.mp h
      have hfixture := resultOnly_fixture matchId m.utcDate homeGoals awayGoals i row'
      rw [hrewritten] at hfixture
      have hbefore : row'.utcDate < m.utcDate := by
        have hsame : row.utcDate = row'.utcDate := congrArg Fixture.utcDate hfixture
        rw [← hsame]
        exact hplayed.2
      rw [hkeep i row' hi hbefore] at hrewritten
      rw [hi, hrewritten]
    · intro hi
      rw [hi, Option.map_some, hkeep i row hi hplayed.2]

/-- **No prediction is blind to its own match**: whatever the tables hold, some
table with the same past makes a job at the same instant compute another row. -/
theorem no_prediction_is_blind (now : Instant) (db : Db) (matchId : ℤ)
    (hmatch : matchId ∈ db.matchRows) :
    ¬ ∀ db' : Db, SamePast matchId db db' →
      rowFor ℝ now db' matchId = rowFor ℝ now db matchId := by
  intro hblind
  obtain ⟨m, hm⟩ := Option.isSome_iff_exists.mp (fetchMatchViaId_isSome.mpr hmatch)
  have hwon := hblind _ (samePast_withResult oneGoal noGoals hm)
  have hlost := hblind _ (samePast_withResult noGoals oneGoal hm)
  exact rowFor_won_ne_lost hm now (hwon.trans hlost.symm)

/-- The first fixture of a new league is no exception. -/
theorem new_fixture_is_not_blind :
    ¬ ∀ db' : Db, SamePast 1 newLeague db' → rowFor ℝ 0 db' 1 = rowFor ℝ 0 newLeague 1 :=
  no_prediction_is_blind 0 newLeague 1 (by decide +kernel)

/-- The new league once its first match has ended one to nil. -/
def openingWon : Db := withResult newLeague 1 newFixture.utcDate oneGoal noGoals

theorem oneNil_opening : OneNil (resultOf newFixture oneGoal noGoals) where
  teams := by decide
  homeGoals := rfl
  awayGoals := rfl

theorem trainingSet_openingWon {m : Match} (hleague : m.competitionId = newFixture.competitionId) :
    trainingSet openingWon m = [resultOf newFixture oneGoal noGoals] := by
  have hpast : pastResults newLeague newFixture = [] := by decide +kernel
  have hset := trainingSet_withResult oneGoal noGoals fetch_newFixture
  rw [hpast, List.nil_append] at hset
  rw [trainingSet, hleague]
  exact List.perm_singleton.mp hset

/-- Two jobs for the first match of the new league, without a preview: one before the match
is played, one after it. The first stores a certain draw. -/
theorem result_leaks_into_its_prediction :
    ¬ ∀ (env : JobEnv) (s s' : Stores) (matchId : ℤ), env.PostgresUp →
      SamePast matchId s.db s'.db →
      s.prediction matchId = none → s'.prediction matchId = none →
      ∀ row row', (processJob ℝ env s matchId).1.prediction matchId = some row →
        (processJob ℝ env s' matchId).1.prediction matchId = some row' → row.val = row'.val := by
  intro hblind
  have hup : plainText.silent.PostgresUp := fun _ => rfl
  have hpast : SamePast 1 newLeague openingWon :=
    samePast_withResult oneGoal noGoals fetch_newFixture
  obtain ⟨m, hm, hleague⟩ : ∃ m, fetchMatchViaId openingWon 1 = some m ∧
      m.competitionId = newFixture.competitionId := by
    obtain ⟨m, hm, hleague, -, -⟩ := fetch_withResult oneGoal noGoals fetch_newFixture
    exact ⟨m, hm, hleague⟩
  have hset := trainingSet_openingWon hleague
  have hfits : (jobRow ℝ plainText.silent openingWon m).fits = true := by
    rw [jobRow, hset]
    exact oneNil_opening.engineRow_fits hleague.symm _
  have hplanned := processJob_stores_rowFor hup (s := ⟨newLeague, ∅⟩) fetch_newFixture
    (newLeague_accepts plainText.silent) rfl
  have hplayed := processJob_stores_rowFor hup (s := ⟨openingWon, ∅⟩) hm hfits rfl
  rw [rowFor, fetch_newFixture, Option.map_some, trainingSet_newLeague,
    Option.map_eq_some_iff] at hplanned
  rw [rowFor, hm, Option.map_some, hset, Option.map_eq_some_iff] at hplayed
  obtain ⟨row, hrow, hvalues⟩ := hplanned
  obtain ⟨row', hrow', hvalues'⟩ := hplayed
  have hsame := hblind plainText.silent ⟨newLeague, ∅⟩ ⟨openingWon, ∅⟩ 1 hup hpast
    (prediction_newLeague ∅) (prediction_newLeague ∅) row row' hrow hrow'
  rw [hvalues, hvalues'] at hsame
  exact oneNil_opening.probDraw_ne _ _ _ _ (congrArg PredictionValues.probDraw hsame)

end

end AGame.Brain
