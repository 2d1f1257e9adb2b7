import AGame.Base.Json
import AGame.Base.Replay
import AGame.Engine.Poisson

/-!
# The brain's queries (`a-game-brain/app/db.py`)

`fetch_match_history` is the training set of both models. `store_prediction`
rounds to the columns' scales before the row meets its constraints, and
`store_commentary` passes on what it is given: the model's name is an arbitrary
Python value by then.
-/

namespace AGame.Brain

open Std (ExtTreeMap)
open Base Engine Engine.Elo

/-! ## Reading -/

/-- A match record as returned by `fetch_match_via_id`. -/
structure Match where
  id : ℤ
  seasonId : ℤ
  competitionId : ℤ
  homeTeamId : ℤ
  awayTeamId : ℤ
  homeTeam : String
  awayTeam : String
  matchday : Option ℤ
  utcDate : Instant
  status : String
  homeGoals : Option ℤ
  awayGoals : Option ℤ
  fulltimeOutcome : Option FulltimeOutcome
deriving DecidableEq, Repr

/-- One row of the history query, if its `WHERE` lets it through. -/
def historyRow (db : Db) (competitionId : ℤ) (before : Option Instant) (id : ℤ)
    (row : MatchRow) : Option MatchResult :=
  match db.seasonRows[row.seasonId]?, row.homeGoals, row.awayGoals with
  | some season, some homeGoals, some awayGoals =>
      if season.competitionId = competitionId ∧ row.status = .finished ∧
          before.all (fun instant => decide (row.utcDate < instant)) then
        some {
          matchId := id
          competitionId := season.competitionId
          utcDate := row.utcDate
          homeTeamId := row.homeTeamId
          awayTeamId := row.awayTeamId
          homeGoals := homeGoals
          awayGoals := awayGoals }
      else none
  | _, _, _ => none

/-- Every finished match in one competition, oldest first. -/
def fetchMatchHistory (db : Db) (competitionId : ℤ) (before : Option Instant) :
    List MatchResult :=
  (db.matchRows.toList.filterMap fun entry =>
    historyRow db competitionId before entry.1 entry.2).mergeSort kickoffLE

/-- What the history query takes from a row it lets through. -/
theorem historyRow_eq_some {db : Db} {competitionId id : ℤ} {before : Option Instant}
    {row : MatchRow} {r : MatchResult}
    (h : historyRow db competitionId before id row = some r) :
    r.matchId = id ∧ r.competitionId = competitionId ∧ r.utcDate = row.utcDate ∧
      row.status = .finished ∧ ∀ instant, before = some instant → r.utcDate < instant := by
  unfold historyRow at h
  split at h
  · split_ifs at h with hwhere
    obtain ⟨hcompetition, hstatus, hbefore⟩ := hwhere
    obtain rfl := Option.some.inj h
    refine ⟨rfl, hcompetition, rfl, hstatus, ?_⟩
    rintro instant rfl
    exact decide_eq_true_eq.mp hbefore
  · cases h

/-- A match has at most one row, so a history lists it at most once. -/
theorem fetchMatchHistory_distinctIds (db : Db) (competitionId : ℤ)
    (before : Option Instant) : DistinctIds (fetchMatchHistory db competitionId before) := by
  have hkeys := ExtTreeMap.distinct_keys_toList (t := db.matchRows)
  refine DistinctIds.perm ?_ (List.mergeSort_perm _ kickoffLE)
  unfold DistinctIds List.Nodup
  rw [List.pairwise_map, List.pairwise_filterMap]
  refine hkeys.imp ?_
  intro a b hab r hr r' hr' heq
  rw [(historyRow_eq_some hr).1, (historyRow_eq_some hr').1] at heq
  exact hab (Std.LawfulEqCmp.compare_eq_iff_eq.mpr heq)

/-- A bound on the kickoff only drops what is not before it. -/
theorem historyRow_before (db : Db) (competitionId : ℤ) (instant : Instant) (id : ℤ)
    (row : MatchRow) :
    historyRow db competitionId (some instant) id row =
      (historyRow db competitionId none id row).filter fun p =>
        decide (p.competitionId = competitionId ∧ p.utcDate < instant) := by
  unfold historyRow
  cases db.seasonRows[row.seasonId]? with
  | none => rfl
  | some season =>
      cases row.homeGoals with
      | none => rfl
      | some homeGoals =>
          cases row.awayGoals with
          | none => rfl
          | some awayGoals =>
              by_cases hleague : season.competitionId = competitionId
              · by_cases hfinished : row.status = .finished
                · by_cases hbefore : row.utcDate < instant
                  · simp [Option.filter_some, hleague, hfinished, hbefore]
                  · simp [Option.filter_some, hleague, hfinished, hbefore]
                · simp [hfinished]
              · simp [hleague]

theorem fetchMatchHistory_before (db : Db) (competitionId : ℤ) (instant : Instant) :
    fetchMatchHistory db competitionId (some instant) =
      (fetchMatchHistory db competitionId none).filter fun p =>
        decide (p.competitionId = competitionId ∧ p.utcDate < instant) := by
  unfold fetchMatchHistory
  rw [@filter_mergeSort _ kickoffLE (fun _ _ _ => kickoffLE_trans) kickoffLE_total,
    List.filter_filterMap]
  simp only [historyRow_before]

/-- The joins of `fetch_match_via_id` on one match row. -/
def matchRecord (db : Db) (id : ℤ) (row : MatchRow) : Option Match :=
  match db.seasonRows[row.seasonId]?, db.teamRows[row.homeTeamId]?,
      db.teamRows[row.awayTeamId]? with
  | some season, some home, some away =>
      some {
        id := id
        seasonId := row.seasonId
        competitionId := season.competitionId
        homeTeamId := row.homeTeamId
        awayTeamId := row.awayTeamId
        homeTeam := home.name.val
        awayTeam := away.name.val
        matchday := row.matchday.map Subtype.val
        utcDate := row.utcDate
        status := row.status.text
        homeGoals := row.homeGoals.map Subtype.val
        awayGoals := row.awayGoals.map Subtype.val
        fulltimeOutcome := row.fulltimeOutcome }
  | _, _, _ => none

def fetchMatchViaId (db : Db) (matchId : ℤ) : Option Match :=
  db.matchRows[matchId]?.bind (matchRecord db matchId)

/-- The foreign keys leave the joins nothing to drop. -/
theorem fetchMatchViaId_isSome {db : Db} {matchId : ℤ} :
    (fetchMatchViaId db matchId).isSome ↔ matchId ∈ db.matchRows := by
  rw [mem_iff_getElem?]
  unfold fetchMatchViaId
  cases hrow : db.matchRows[matchId]? with
  | none => simp
  | some row =>
      obtain ⟨season, hseason⟩ := mem_iff_getElem?.mp (db.match_season_fk matchId row hrow)
      obtain ⟨home, hhome⟩ := mem_iff_getElem?.mp (db.match_home_team_fk matchId row hrow)
      obtain ⟨away, haway⟩ := mem_iff_getElem?.mp (db.match_away_team_fk matchId row hrow)
      simp [matchRecord, hseason, hhome, haway]

theorem fetchMatchViaId_id {db : Db} {matchId : ℤ} {m : Match}
    (h : fetchMatchViaId db matchId = some m) : m.id = matchId := by
  unfold fetchMatchViaId at h
  obtain ⟨row, -, hrecord⟩ := Option.bind_eq_some_iff.mp h
  unfold matchRecord at hrecord
  split at hrecord
  · rw [← Option.some.inj hrecord]
  · cases hrecord

/-! ## Writing -/

section

variable {R : Type} [Field R] [LinearOrder R] [FloorRing R]

/-- The arguments of `store_prediction`, rounded to the columns' scales. -/
def predictionValues (probabilities : Poisson.ScoreProbabilities R) (eloHome eloAway : R) :
    PredictionValues where
  probHome := roundDecimal 4 probabilities.probHome
  probDraw := roundDecimal 4 probabilities.probDraw
  probAway := roundDecimal 4 probabilities.probAway
  over25 := roundDecimal 4 probabilities.over25
  btts := roundDecimal 4 probabilities.btts
  lambdaHome := roundDecimal 4 probabilities.lambdaHome
  lambdaAway := roundDecimal 4 probabilities.lambdaAway
  mostLikelyScores := probabilities.mostLikelyScores
  eloHome := roundDecimal 2 eloHome
  eloAway := roundDecimal 2 eloAway

end

/-- The upsert of `store_prediction`. -/
def storePrediction (db : Db) (matchId : ℤ) (engineVersion : String)
    (values : PredictionValues) : Except PgError Db :=
  if hfits : values.fits = true then
    if hmatch : matchId ∈ db.matchRows then
      .ok (db.putPrediction matchId engineVersion ⟨values, hfits⟩ hmatch)
    else .error (.foreignKeyViolation "prediction_match_id_fkey")
  else .error (.checkViolation "prediction")

/-- A value of the running program, as far as anything looks at it. -/
inductive PyVal where
  | none
  | bool (b : Bool)
  | int (n : ℤ)
  | float (literal : Json.FloatText)
  | str (s : String)
  | list (items : List PyVal)
  | dict (items : List (String × PyVal))
  /-- An object with the given attributes. -/
  | obj (attributes : List (String × PyVal))
  /-- Anything else: a truth value, and no attribute or item anyone asks for. -/
  | other (truthy : Bool)

/-- A `TEXT NOT NULL` argument. -/
def textArgument : PyVal → Except PgError PgText
  | .none => .error .notNullViolation
  | .str s => if h : holdsNul s = false then .ok ⟨s, h⟩ else .error .dataError
  | _ => .error .dataError

/-- The upsert of `store_commentary`. -/
def storeCommentary (db : Db) (matchId : ℤ)
    (sourceModel prediction suggestedBet suggestedBetReason : PyVal) : Except PgError Db := do
  let sourceModel ← textArgument sourceModel
  let prediction ← textArgument prediction
  let suggestedBet ← textArgument suggestedBet
  let suggestedBetReason ← textArgument suggestedBetReason
  if hmatch : matchId ∈ db.matchRows then
    return db.putCommentary matchId
      { sourceModel, prediction, suggestedBet, suggestedBetReason } hmatch
  else throw (.foreignKeyViolation "commentary_match_id_fkey")

end AGame.Brain
