import AGame.Worker.Model

/-!
# The worker's writes (`a-game-worker/app/db.py`)

Each SQL statement is a function from a database to the database it leaves or
the error it raises. Constraints are checked on the proposed row before the
conflict is looked at, as Postgres does, so `DO NOTHING` still rejects a row
that breaks a `CHECK`; foreign keys are checked on the row that is written.

A transaction is the composition of its statements: an error keeps the
database it started from. Identity sequences are not transactional, so the one
of `rabbit_event` stands beside the database.
-/

namespace AGame.Worker

open Std Base

/-- A Postgres server: the committed database and the identity sequence. -/
structure Pg where
  db : Db
  rabbitEventSeq : ℤ

/-! ## Encoding arguments -/

def smallint (n : ℤ) : Except PgError Smallint :=
  if h : -32768 ≤ n ∧ n ≤ 32767 then .ok ⟨n, h⟩ else .error .dataError

def text (s : String) : Except PgError PgText :=
  if h : holdsNul s = false then .ok ⟨s, h⟩ else .error .dataError

def jsonb (s : String) : Except PgError Jsonb :=
  if h : jsonbAccepts s.toList = true then .ok ⟨s, h⟩ else .error .dataError

/-- A nullable argument: `None` is `NULL`. -/
def nullable {α β : Type} (encode : α → Except PgError β) : Option α → Except PgError (Option β)
  | none => .ok none
  | some a => (encode a).map some

/-- A `SMALLINT CHECK (… >= 0)` argument. -/
def goals (constraint : String) (n : ℤ) : Except PgError Goals :=
  if h : -32768 ≤ n ∧ n ≤ 32767 then
    if h' : 0 ≤ n then .ok ⟨n, h', h.2⟩ else .error (.checkViolation constraint)
  else .error .dataError

/-! ## Statements -/

/-- `SEASON_QUERY`: `INSERT … ON CONFLICT (id) DO NOTHING`. -/
def insertSeason (db : Db) (id competitionId : ℤ) (startDate endDate : Date) :
    Except PgError Db := do
  let id ← bigint id
  let competitionId ← bigint competitionId
  if hdates : startDate < endDate then
    if id ∈ db.seasonRows then return db
    else if hcompetition : competitionId ∈ db.competitionRows then
      return db.putSeason id ⟨competitionId, startDate, endDate, hdates⟩ hcompetition
    else throw (.foreignKeyViolation "season_competition_id_fkey")
  else throw (.checkViolation "season_dates_ordered")

/-- The row `TEAMS_QUERY` proposes. -/
def teamRow (name : String) (shortName tla crest : Option String) :
    Except PgError TeamRow := do
  let name ← text name
  let shortname ← nullable text shortName
  let tla ← nullable text tla
  let emblem ← nullable text crest
  return { name, shortname, tla, emblem }

/-- `TEAMS_QUERY`: `INSERT … ON CONFLICT (id) DO UPDATE` of every column. -/
def upsertTeam (db : Db) (team : Team) : Except PgError Db := do
  let id ← bigint team.id
  let row ← teamRow team.name team.shortName team.tla team.crest
  return db.putTeam id row

/-- The fourteen arguments of the match upsert. -/
structure MatchArgs where
  id : ℤ
  seasonId : ℤ
  homeTeamId : ℤ
  awayTeamId : ℤ
  matchday : Option ℤ
  utcDate : Instant
  status : String
  duration : Option String
  homeGoals : Option ℤ
  awayGoals : Option ℤ
  homeGoalsHt : Option ℤ
  awayGoalsHt : Option ℤ
  refereeName : Option String
  blob : String
deriving DecidableEq, Repr

def matchStatus (s : String) : Except PgError MatchStatus :=
  match MatchStatus.ofText? s with
  | some status => .ok status
  | none => .error (.checkViolation "match_status_valid")

def matchDuration (s : String) : Except PgError MatchDuration :=
  match MatchDuration.ofText? s with
  | some duration => .ok duration
  | none => .error (.checkViolation "match_duration_valid")

/-- The row the match upsert proposes (`excluded`). -/
def matchRow (a : MatchArgs) : Except PgError MatchRow := do
  let seasonId ← bigint a.seasonId
  let homeTeamId ← bigint a.homeTeamId
  let awayTeamId ← bigint a.awayTeamId
  let matchday ← nullable smallint a.matchday
  let status ← matchStatus a.status
  let duration ← nullable matchDuration a.duration
  let homeGoals ← nullable (goals "match_home_goals_check") a.homeGoals
  let awayGoals ← nullable (goals "match_away_goals_check") a.awayGoals
  let homeGoalsHt ← nullable (goals "match_home_goals_ht_check") a.homeGoalsHt
  let awayGoalsHt ← nullable (goals "match_away_goals_ht_check") a.awayGoalsHt
  let refereeName ← nullable text a.refereeName
  let blob ← jsonb a.blob
  if hteams : homeTeamId ≠ awayTeamId then
    return {
      seasonId, homeTeamId, awayTeamId, matchday, utcDate := a.utcDate, status, duration,
      homeGoals, awayGoals, homeGoalsHt, awayGoalsHt, refereeName, blob,
      match_teams_differ := hteams }
  else throw (.checkViolation "match_teams_differ")

/-- The change gate: the `WHERE` of the match upsert. Equality of optional
columns is the null-safe `IS NOT DISTINCT FROM`. -/
def changeGate (row excluded : MatchRow) : Bool :=
  row.status ≠ excluded.status ||
  row.utcDate ≠ excluded.utcDate ||
  row.homeGoals ≠ excluded.homeGoals ||
  row.awayGoals ≠ excluded.awayGoals ||
  row.homeGoalsHt ≠ excluded.homeGoalsHt ||
  row.awayGoalsHt ≠ excluded.awayGoalsHt

/-- Write `row` under `id` once its foreign keys are found. -/
def writeMatch (db : Db) (id : ℤ) (row : MatchRow) : Except PgError Db :=
  if hseason : row.seasonId ∈ db.seasonRows then
    if hhome : row.homeTeamId ∈ db.teamRows then
      if haway : row.awayTeamId ∈ db.teamRows then
        .ok (db.putMatch id row hseason hhome haway)
      else .error (.foreignKeyViolation "match_away_team_id_fkey")
    else .error (.foreignKeyViolation "match_home_team_id_fkey")
  else .error (.foreignKeyViolation "match_season_id_fkey")

/-- `MATCH_QUERY`: the upsert, with the id that `RETURNING` gives when the row
was inserted or the change gate let the update through. -/
def upsertMatch (db : Db) (a : MatchArgs) : Except PgError (Db × Option ℤ) := do
  let id ← bigint a.id
  let excluded ← matchRow a
  match db.matchRows[id]? with
  | none =>
      let db' ← writeMatch db id excluded
      return (db', some id)
  | some row =>
      if changeGate row excluded then
        let db' ← writeMatch db id excluded
        return (db', some id)
      else return (db, none)

/-- `RABBIT_EVENT_QUERY`, with the id the sequence assigned. -/
def insertRabbitEvent (db : Db) (eventId : ℤ) (eventType : String) (matchId : ℤ) :
    Except PgError Db :=
  if eventId ∈ db.rabbitEventRows then .error (.uniqueViolation "rabbit_event_pkey")
  else if hmatch : matchId ∈ db.matchRows then
    .ok (db.putRabbitEvent eventId ⟨eventType, matchId⟩ hmatch)
  else .error (.foreignKeyViolation "rabbit_event_match_id_fkey")

/-! ## `sync_matches_per_competition` -/

def dailyMatchArgs (m : Match) : MatchArgs where
  id := m.id
  seasonId := m.season.id
  homeTeamId := m.homeTeam.id
  awayTeamId := m.awayTeam.id
  matchday := m.matchday
  utcDate := m.utcDate
  status := m.status
  duration := m.score.duration
  homeGoals := m.score.fullTime.home
  awayGoals := m.score.fullTime.away
  homeGoalsHt := m.score.halfTime.home
  awayGoalsHt := m.score.halfTime.away
  refereeName := m.referees.head?.map Referee.name
  blob := m.modelDumpJson

/-- The statements up to the match upsert: season, both teams, match. -/
def syncMatchRows (db : Db) (m : Match) : Except PgError (Db × Option ℤ) := do
  let db ← insertSeason db m.season.id m.competition.id m.season.startDate m.season.endDate
  let db ← upsertTeam db m.homeTeam
  let db ← upsertTeam db m.awayTeam
  upsertMatch db (dailyMatchArgs m)

/-- One iteration of the loop, which is one transaction; `eventId` is what the
sequence gives the event insert if it is reached. -/
def syncMatch (eventId : ℤ) (db : Db) (m : Match) : Except PgError (Db × Option ℤ) := do
  let (db, row) ← syncMatchRows db m
  match row with
  | none => return (db, none)
  | some id =>
      let db ← insertRabbitEvent db eventId "match.changed" id
      return (db, some id)

/-- The loop. An exception leaves it with every earlier transaction committed. -/
def syncMatchesFrom (pg : Pg) (changed : ℕ) : List Match → Pg × Except PgError ℕ
  | [] => (pg, .ok changed)
  | m :: ms =>
      match syncMatch pg.rabbitEventSeq pg.db m with
      | .error e => (pg, .error e)
      | .ok (db, none) => syncMatchesFrom { pg with db := db } changed ms
      | .ok (db, some _) =>
          syncMatchesFrom ⟨db, pg.rabbitEventSeq + 1⟩ (changed + 1) ms

def syncMatchesPerCompetition (pg : Pg) (matches_ : List Match) : Pg × Except PgError ℕ :=
  syncMatchesFrom pg 0 matches_

/-! ## `sync_historic_matches` -/

def historicMatchArgs (m : Match) : MatchArgs where
  id := m.id
  seasonId := m.season.id
  homeTeamId := m.homeTeam.id
  awayTeamId := m.awayTeam.id
  matchday := m.matchday
  utcDate := m.utcDate
  status := m.status
  duration := m.score.duration
  homeGoals := m.score.fullTime.home
  awayGoals := m.score.fullTime.away
  homeGoalsHt := m.score.halfTime.home
  awayGoalsHt := m.score.halfTime.away
  refereeName := m.referees.head?.map Referee.name
  blob := m.modelDumpJson

def syncHistoricMatch (db : Db) (m : Match) : Except PgError (Db × Option ℤ) := do
  let db ← insertSeason db m.season.id m.competition.id m.season.startDate m.season.endDate
  let db ← upsertTeam db m.homeTeam
  let db ← upsertTeam db m.awayTeam
  upsertMatch db (historicMatchArgs m)

def syncHistoricFrom (db : Db) (changed : ℕ) : List Match → Except PgError (Db × ℕ)
  | [] => .ok (db, changed)
  | m :: ms =>
      match syncHistoricMatch db m with
      | .error e => .error e
      | .ok (db, none) => syncHistoricFrom db changed ms
      | .ok (db, some _) => syncHistoricFrom db (changed + 1) ms

/-- All matches in one transaction, and no outbox event. -/
def syncHistoricMatches (pg : Pg) (matches_ : List Match) : Pg × Except PgError ℕ :=
  match syncHistoricFrom pg.db 0 matches_ with
  | .ok (db, changed) => ({ pg with db := db }, .ok changed)
  | .error e => (pg, .error e)

/-! ## The outbox -/

/-- Pending outbox events as `(id, match_id)`, oldest first. -/
def fetchRabbitEvents (db : Db) : List (ℤ × ℤ) :=
  db.rabbitEventRows.toList.map fun (id, row) => (id, row.matchId)

/-- `DELETE … WHERE id = ANY($1)` -/
def deleteRabbitEvent (db : Db) (ids : List ℤ) : Db := db.eraseRabbitEvents ids

/-! ## `sync_competitions` and `get_league_codes` -/

def getLeagueCodes (db : Db) : List String :=
  (db.competitionRows.toList.filter fun (_, row) => row.enabled).map fun (_, row) => row.code.val

/-- An exception of `sync_competitions`. -/
inductive CompetitionError where
  /-- `comp["…"]` on a dictionary without the key. -/
  | keyError (key : String)
  /-- `date.fromisoformat` -/
  | valueError
  | pg (e : PgError)
deriving DecidableEq, Repr

def column (key : String) : Option String → Except CompetitionError String
  | some value => .ok value
  | none => .error (.keyError key)

def liftPg {α : Type} : Except PgError α → Except CompetitionError α
  | .ok a => .ok a
  | .error e => .error (.pg e)

def competitionType (s : String) : Except PgError CompetitionType :=
  match CompetitionType.ofText? s with
  | some type => .ok type
  | none => .error (.checkViolation "competition_type_valid")

/-- `UPSERT_COMPETITION`: an insert leaves `enabled` to its default, an update
leaves it alone. -/
def upsertCompetition (db : Db) (id : ℤ) (name code type : String) (emblem : Option String) :
    Except PgError Db := do
  let id ← bigint id
  let name ← text name
  let code ← text code
  let type ← competitionType type
  let emblem ← nullable text emblem
  let enabled := match db.competitionRows[id]? with
    | some row => row.enabled
    | none => false
  if hcode : ∀ entry ∈ db.competitionRows.toList, entry.2.code = code → entry.1 = id then
    return db.putCompetition id { name, code, type, emblem, enabled } fun i r h =>
      hcode (i, r) (ExtTreeMap.mem_toList_iff_getElem?_eq_some.mpr h)
  else throw (.uniqueViolation "competition_code_key")

/-- `UPSERT_SEASON` -/
def upsertSeason (db : Db) (id competitionId : ℤ) (startDate endDate : Date) :
    Except PgError Db := do
  let id ← bigint id
  if hdates : startDate < endDate then
    if hcompetition : competitionId ∈ db.competitionRows then
      return db.putSeason id ⟨competitionId, startDate, endDate, hdates⟩ hcompetition
    else throw (.foreignKeyViolation "season_competition_id_fkey")
  else throw (.checkViolation "season_dates_ordered")

def fromIsoFormat : DateField → Except CompetitionError Date
  | .iso d => .ok d
  | _ => .error .valueError

/-- The guard on `currentSeason`: all three of its fields are truthy. -/
def usableSeason (season : CurrentSeason) : Option ℤ :=
  match season.id with
  | some id =>
      if id ≠ 0 ∧ season.startDate ≠ .absent ∧ season.endDate ≠ .absent then some id else none
  | none => none

def syncCompetition (db : Db) (comp : CompetitionPayload) : Except CompetitionError Db := do
  match comp.id with
  | none => throw (.keyError "id")
  | some id =>
      let name ← column "name" comp.name
      let code ← column "code" comp.code
      let type ← column "type" comp.type
      let db ← liftPg (upsertCompetition db id name code type comp.emblem)
      match comp.currentSeason with
      | none => return db
      | some season =>
          match usableSeason season with
          | none => return db
          | some seasonId =>
              let startDate ← fromIsoFormat season.startDate
              let endDate ← fromIsoFormat season.endDate
              liftPg (upsertSeason db seasonId id startDate endDate)

/-- One transaction over every competition. -/
def syncCompetitions (pg : Pg) (competitions : List CompetitionPayload) :
    Pg × Except CompetitionError ℕ :=
  match competitions.foldlM syncCompetition pg.db with
  | .ok db => ({ pg with db := db }, .ok competitions.length)
  | .error e => (pg, .error e)

/-- The operator's `UPDATE a_game.competition SET enabled = …`. -/
def setEnabled (db : Db) (id : ℤ) (enabled : Bool) : Db :=
  match h : db.competitionRows[id]? with
  | none => db
  | some row =>
      db.putCompetition id { row with enabled := enabled } fun i r hi hcode =>
        db.competition_code_key i id r row hi h hcode

end AGame.Worker
