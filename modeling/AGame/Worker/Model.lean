import AGame.Postgres.Schema

/-!
# Payloads of football-data.org (`a-game-worker/app/model.py`)

The validated objects, reduced to the fields the ingest reads. The text that
`model_dump_json` makes of a whole match is a field of its own: it depends on
keys the model does not declare and is only ever copied into the `blob` column.
-/

namespace AGame.Worker

structure Competition where
  id : ℤ
deriving DecidableEq, Repr

structure Season where
  id : ℤ
  startDate : Date
  endDate : Date
deriving DecidableEq, Repr

structure Team where
  id : ℤ
  name : String
  shortName : Option String
  tla : Option String
  crest : Option String
deriving DecidableEq, Repr

structure Referee where
  name : String
deriving DecidableEq, Repr

/-- One half's goals. Both sides are null until the match is played. -/
structure ScoreLine where
  home : Option ℤ
  away : Option ℤ
deriving DecidableEq, Repr

structure Score where
  fullTime : ScoreLine
  halfTime : ScoreLine
  duration : Option String
deriving DecidableEq, Repr

/-- A fixture as returned by `/competitions/{code}/matches`. -/
structure Match where
  id : ℤ
  utcDate : Instant
  status : String
  competition : Competition
  season : Season
  homeTeam : Team
  awayTeam : Team
  score : Score
  matchday : Option ℤ
  referees : List Referee
  modelDumpJson : String
deriving DecidableEq, Repr

/-! ## The competitions envelope

`get_all_competitions` hands on plain dictionaries, so a key may be missing. -/

/-- A `startDate` or `endDate` of `currentSeason`: falsy, not a date to
`date.fromisoformat`, or a date. -/
inductive DateField where
  | absent
  | malformed
  | iso (d : Date)
deriving DecidableEq, Repr

structure CurrentSeason where
  id : Option ℤ
  startDate : DateField
  endDate : DateField
deriving DecidableEq, Repr

structure CompetitionPayload where
  id : Option ℤ
  name : Option String
  code : Option String
  type : Option String
  emblem : Option String
  currentSeason : Option CurrentSeason
deriving DecidableEq, Repr

end AGame.Worker
