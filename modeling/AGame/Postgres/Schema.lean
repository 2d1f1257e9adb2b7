import AGame.Base.Store

/-!
# The Postgres schema `a_game`

The tables of `a-game-worker/postgres/*.sql`, one row type per table. What a
column type or a `CHECK` excludes cannot be built: text without NUL, goals that
are non-negative `SMALLINT`s, statuses from the closed list, a match between
two different teams, a season that ends after it starts. The foreign keys and
the `UNIQUE` code are fields of `Db`, so every database the services can reach
has them, and the `put` operations at the end are the only writes.

Left out are the columns no service reads or writes from a value it was given:
surrogate ids of `commentary` and `prediction`, `season.winner_id`, and the
`NOW()` timestamps.
-/

namespace AGame

open Std Base

/-- A `TIMESTAMPTZ`, in microseconds since the epoch. -/
abbrev Instant := ℤ

/-- A `DATE`, as its proleptic ordinal. -/
abbrev Date := ℤ

/-- A table with a `BIGINT` primary key. -/
abbrev Table (Row : Type) := ExtTreeMap ℤ Row compare

inductive PgError where
  /-- The driver cannot encode an argument for its column. -/
  | dataError
  | notNullViolation
  | checkViolation (constraint : String)
  | foreignKeyViolation (constraint : String)
  | uniqueViolation (constraint : String)
  | numericValueOutOfRange
deriving DecidableEq, Repr

/-! ## Column types -/

def holdsNul (s : String) : Bool := s.toList.any fun c => c.toNat = 0

/-- `TEXT`: Postgres stores no NUL character. -/
abbrev PgText := { s : String // holdsNul s = false }

/-- `JSONB` has no way to hold the escape of a NUL; a backslash escapes the
character behind it. -/
def jsonbAccepts : List Char → Bool
  | [] => true
  | c :: rest =>
      if c.toNat = 92 then
        match rest with
        | 'u' :: '0' :: '0' :: '0' :: '0' :: _ => false
        | _ :: rest' => jsonbAccepts rest'
        | [] => true
      else jsonbAccepts rest

abbrev Jsonb := { s : String // jsonbAccepts s.toList = true }

/-- `SMALLINT` -/
abbrev Smallint := { n : ℤ // -32768 ≤ n ∧ n ≤ 32767 }

/-- `SMALLINT CHECK (… >= 0)` -/
abbrev Goals := { n : ℤ // 0 ≤ n ∧ n ≤ 32767 }

def isBigint (n : ℤ) : Bool := decide (-(2 ^ 63) ≤ n ∧ n < 2 ^ 63)

/-- A `BIGINT` argument, as the driver encodes it. -/
def bigint (n : ℤ) : Except PgError ℤ :=
  if isBigint n then .ok n else .error .dataError

/-- `match_status_valid` -/
inductive MatchStatus where
  | scheduled | timed | inPlay | paused | finished | suspended | postponed
  | cancelled | awarded
deriving DecidableEq, Repr

def MatchStatus.text : MatchStatus → String
  | .scheduled => "SCHEDULED"
  | .timed => "TIMED"
  | .inPlay => "IN_PLAY"
  | .paused => "PAUSED"
  | .finished => "FINISHED"
  | .suspended => "SUSPENDED"
  | .postponed => "POSTPONED"
  | .cancelled => "CANCELLED"
  | .awarded => "AWARDED"

def MatchStatus.all : List MatchStatus :=
  [.scheduled, .timed, .inPlay, .paused, .finished, .suspended, .postponed,
    .cancelled, .awarded]

def MatchStatus.ofText? (s : String) : Option MatchStatus :=
  MatchStatus.all.find? fun status => status.text = s

/-- `match_duration_valid` -/
inductive MatchDuration where
  | regular | extraTime | penaltyShootout
deriving DecidableEq, Repr

def MatchDuration.text : MatchDuration → String
  | .regular => "REGULAR"
  | .extraTime => "EXTRA_TIME"
  | .penaltyShootout => "PENALTY_SHOOTOUT"

def MatchDuration.ofText? (s : String) : Option MatchDuration :=
  [MatchDuration.regular, .extraTime, .penaltyShootout].find? fun d => d.text = s

/-- `competition_type_valid` -/
inductive CompetitionType where
  | league | cup
deriving DecidableEq, Repr

def CompetitionType.ofText? (s : String) : Option CompetitionType :=
  if s = "LEAGUE" then some .league else if s = "CUP" then some .cup else none

theorem MatchStatus.text_of_ofText? {s : String} {status : MatchStatus}
    (h : MatchStatus.ofText? s = some status) : status.text = s := by
  simpa using List.find?_some h

/-! ## Rows -/

/-- `a_game.competition` -/
structure CompetitionRow where
  name : PgText
  code : PgText
  type : CompetitionType
  emblem : Option PgText
  enabled : Bool
deriving DecidableEq

/-- `a_game.team` -/
structure TeamRow where
  name : PgText
  shortname : Option PgText
  tla : Option PgText
  emblem : Option PgText
deriving DecidableEq

/-- `a_game.season` -/
structure SeasonRow where
  competitionId : ℤ
  startDate : Date
  endDate : Date
  season_dates_ordered : startDate < endDate
deriving DecidableEq

inductive FulltimeOutcome where
  | homeWin | awayWin | draw
deriving DecidableEq, Repr

/-- `a_game.match` -/
structure MatchRow where
  seasonId : ℤ
  homeTeamId : ℤ
  awayTeamId : ℤ
  matchday : Option Smallint
  utcDate : Instant
  status : MatchStatus
  duration : Option MatchDuration
  homeGoals : Option Goals
  awayGoals : Option Goals
  homeGoalsHt : Option Goals
  awayGoalsHt : Option Goals
  refereeName : Option PgText
  blob : Jsonb
  match_teams_differ : homeTeamId ≠ awayTeamId
deriving DecidableEq

/-- The generated column `fulltime_outcome`. -/
def MatchRow.fulltimeOutcome (row : MatchRow) : Option FulltimeOutcome :=
  match row.homeGoals, row.awayGoals with
  | some home, some away =>
      if home.val > away.val then some .homeWin
      else if home.val < away.val then some .awayWin
      else some .draw
  | _, _ => none

/-- `a_game.rabbit_event` -/
structure RabbitEventRow where
  eventType : String
  matchId : ℤ
deriving DecidableEq, Repr

/-- `a_game.commentary` -/
structure CommentaryRow where
  sourceModel : PgText
  prediction : PgText
  suggestedBet : PgText
  suggestedBetReason : PgText
deriving DecidableEq

/-- One entry of `most_likely_scores`; the probability in ten-thousandths. -/
structure Scoreline where
  home : ℕ
  away : ℕ
  prob : ℤ
deriving DecidableEq, Repr

/-- The numbers of a prediction row, each in units of its column's scale:
ten-thousandths for probabilities and rates, hundredths for ratings. -/
structure PredictionValues where
  probHome : ℤ
  probDraw : ℤ
  probAway : ℤ
  over25 : ℤ
  btts : ℤ
  lambdaHome : ℤ
  lambdaAway : ℤ
  mostLikelyScores : List Scoreline
  eloHome : ℤ
  eloAway : ℤ
deriving DecidableEq, Repr

/-- `CHECK (… BETWEEN 0 AND 1)` on a `NUMERIC(5,4)` -/
def isProbability (n : ℤ) : Bool := decide (0 ≤ n ∧ n ≤ 10000)

/-- `NUMERIC(6,4) CHECK (… >= 0)` -/
def isRate (n : ℤ) : Bool := decide (0 ≤ n ∧ n < 10 ^ 6)

/-- `NUMERIC(7,2)` -/
def isRating (n : ℤ) : Bool := decide (|n| < 10 ^ 7)

/-- Every constraint of `a_game.prediction` on the numbers. -/
def PredictionValues.fits (v : PredictionValues) : Bool :=
  isProbability v.probHome && isProbability v.probDraw && isProbability v.probAway &&
  isProbability v.over25 && isProbability v.btts &&
  isRate v.lambdaHome && isRate v.lambdaAway &&
  isRating v.eloHome && isRating v.eloAway &&
  -- prediction_1x2_sums_to_one
  decide (|v.probHome + v.probDraw + v.probAway - 10000| ≤ 5)

/-- `a_game.prediction` -/
abbrev PredictionRow := { v : PredictionValues // v.fits = true }

/-! ## The database -/

/-- A state of the database, with the keys that tie its tables together. -/
structure Db where
  competitionRows : Table CompetitionRow
  teamRows : Table TeamRow
  seasonRows : Table SeasonRow
  matchRows : Table MatchRow
  rabbitEventRows : Table RabbitEventRow
  /-- Keyed by the `UNIQUE` column `match_id`. -/
  commentaryRows : Table CommentaryRow
  /-- Keyed by `prediction_match_version_key`. -/
  predictionRows : ExtTreeMap (ℤ × String) PredictionRow pairCmp
  competition_code_key : ∀ (i j : ℤ) (r r' : CompetitionRow),
    competitionRows[i]? = some r → competitionRows[j]? = some r' → r.code = r'.code → i = j
  season_competition_fk : ∀ (i : ℤ) (r : SeasonRow),
    seasonRows[i]? = some r → r.competitionId ∈ competitionRows
  match_season_fk : ∀ (i : ℤ) (r : MatchRow),
    matchRows[i]? = some r → r.seasonId ∈ seasonRows
  match_home_team_fk : ∀ (i : ℤ) (r : MatchRow),
    matchRows[i]? = some r → r.homeTeamId ∈ teamRows
  match_away_team_fk : ∀ (i : ℤ) (r : MatchRow),
    matchRows[i]? = some r → r.awayTeamId ∈ teamRows
  rabbit_event_match_fk : ∀ (i : ℤ) (r : RabbitEventRow),
    rabbitEventRows[i]? = some r → r.matchId ∈ matchRows
  commentary_match_fk : ∀ i : ℤ, i ∈ commentaryRows → i ∈ matchRows
  prediction_match_fk : ∀ k : ℤ × String, k ∈ predictionRows → k.1 ∈ matchRows

namespace Db

/-- The schema before any row. -/
def empty : Db where
  competitionRows := ∅
  teamRows := ∅
  seasonRows := ∅
  matchRows := ∅
  rabbitEventRows := ∅
  commentaryRows := ∅
  predictionRows := ∅
  competition_code_key := by simp
  season_competition_fk := by simp
  match_season_fk := by simp
  match_home_team_fk := by simp
  match_away_team_fk := by simp
  rabbit_event_match_fk := by simp
  commentary_match_fk := by simp
  prediction_match_fk := by simp

/-- Two databases with the same tables are the same database. -/
@[ext] theorem ext {db db' : Db} (hc : db.competitionRows = db'.competitionRows)
    (ht : db.teamRows = db'.teamRows) (hs : db.seasonRows = db'.seasonRows)
    (hm : db.matchRows = db'.matchRows) (hr : db.rabbitEventRows = db'.rabbitEventRows)
    (hk : db.commentaryRows = db'.commentaryRows)
    (hp : db.predictionRows = db'.predictionRows) : db = db' := by
  cases db
  cases db'
  simp_all

/-! ### Writes that keep every key -/

def putCompetition (db : Db) (id : ℤ) (row : CompetitionRow)
    (hcode : ∀ (i : ℤ) (r : CompetitionRow),
      db.competitionRows[i]? = some r → r.code = row.code → i = id) : Db :=
  { db with
    competitionRows := db.competitionRows.insert id row
    competition_code_key := by
      intro i j r r' hi hj heq
      simp only [getElem?_put] at hi hj
      split_ifs at hi hj with h₁ h₂ h₂
      · exact h₁.symm.trans h₂
      · obtain rfl := Option.some.inj hi
        exact h₁.symm.trans (hcode j r' hj heq.symm).symm
      · obtain rfl := Option.some.inj hj
        exact (hcode i r hi heq).trans h₂
      · exact db.competition_code_key i j r r' hi hj heq
    season_competition_fk := fun i r h =>
      mem_put_of_mem (db.season_competition_fk i r h) }

def putTeam (db : Db) (id : ℤ) (row : TeamRow) : Db :=
  { db with
    teamRows := db.teamRows.insert id row
    match_home_team_fk := fun i r h => mem_put_of_mem (db.match_home_team_fk i r h)
    match_away_team_fk := fun i r h => mem_put_of_mem (db.match_away_team_fk i r h) }

def putSeason (db : Db) (id : ℤ) (row : SeasonRow)
    (hcompetition : row.competitionId ∈ db.competitionRows) : Db :=
  { db with
    seasonRows := db.seasonRows.insert id row
    season_competition_fk := by
      intro i r h
      rw [getElem?_put] at h
      split_ifs at h with heq
      · exact Option.some.inj h ▸ hcompetition
      · exact db.season_competition_fk i r h
    match_season_fk := fun i r h => mem_put_of_mem (db.match_season_fk i r h) }

def putMatch (db : Db) (id : ℤ) (row : MatchRow) (hseason : row.seasonId ∈ db.seasonRows)
    (hhome : row.homeTeamId ∈ db.teamRows) (haway : row.awayTeamId ∈ db.teamRows) : Db :=
  { db with
    matchRows := db.matchRows.insert id row
    match_season_fk := by
      intro i r h
      rw [getElem?_put] at h
      split_ifs at h with heq
      · exact Option.some.inj h ▸ hseason
      · exact db.match_season_fk i r h
    match_home_team_fk := by
      intro i r h
      rw [getElem?_put] at h
      split_ifs at h with heq
      · exact Option.some.inj h ▸ hhome
      · exact db.match_home_team_fk i r h
    match_away_team_fk := by
      intro i r h
      rw [getElem?_put] at h
      split_ifs at h with heq
      · exact Option.some.inj h ▸ haway
      · exact db.match_away_team_fk i r h
    rabbit_event_match_fk := fun i r h =>
      mem_put_of_mem (db.rabbit_event_match_fk i r h)
    commentary_match_fk := fun i h => mem_put_of_mem (db.commentary_match_fk i h)
    prediction_match_fk := fun k h => mem_put_of_mem (db.prediction_match_fk k h) }

def putRabbitEvent (db : Db) (id : ℤ) (row : RabbitEventRow)
    (hmatch : row.matchId ∈ db.matchRows) : Db :=
  { db with
    rabbitEventRows := db.rabbitEventRows.insert id row
    rabbit_event_match_fk := by
      intro i r h
      rw [getElem?_put] at h
      split_ifs at h with heq
      · exact Option.some.inj h ▸ hmatch
      · exact db.rabbit_event_match_fk i r h }

def eraseRabbitEvents (db : Db) (ids : List ℤ) : Db :=
  { db with
    rabbitEventRows := db.rabbitEventRows.filter fun id _ => !ids.contains id
    rabbit_event_match_fk := by
      intro i r h
      exact db.rabbit_event_match_fk i r (getElem?_keep.mp h).1 }

def putCommentary (db : Db) (matchId : ℤ) (row : CommentaryRow)
    (hmatch : matchId ∈ db.matchRows) : Db :=
  { db with
    commentaryRows := db.commentaryRows.insert matchId row
    commentary_match_fk := by
      intro i h
      rcases mem_put.mp h with rfl | h
      · exact hmatch
      · exact db.commentary_match_fk i h }

def putPrediction (db : Db) (matchId : ℤ) (engineVersion : String) (row : PredictionRow)
    (hmatch : matchId ∈ db.matchRows) : Db :=
  { db with
    predictionRows := db.predictionRows.insert (matchId, engineVersion) row
    prediction_match_fk := by
      intro k h
      rcases mem_put.mp h with rfl | h
      · exact hmatch
      · exact db.prediction_match_fk k h }

end Db

end AGame
