import AGame.Brain.Commentary
import AGame.Redis.Cache

/-!
# One job of the brain (`a-game-brain/app/handlers.py`)

`process_job` trains on the match history, asks for a preview, writes both rows
in one transaction and then warms the cache. Whatever is raised on the way is
logged and swallowed, so a job is a function of the stores that never fails.
-/

namespace AGame.Brain

open Std (ExtTreeMap)
open Base Engine

/-! ## The numbers -/

/-- What the engine hands to `store_prediction`. -/
structure Numbers (R : Type) where
  probabilities : Poisson.ScoreProbabilities R
  eloHome : R
  eloAway : R

section

variable (R : Type) [Field R] [LinearOrder R] [FloorRing R] [PyMath R]

/-- The training step: both models from the history, one row of numbers. -/
def numbers (history : List Elo.MatchResult) (now : Instant) (m : Match) : Numbers R :=
  let ratings := (Elo.run history : Elo.EloState R).ratings
  let strengths : Poisson.Strengths R := Poisson.fit history now
  let (lambdaHome, lambdaAway) :=
    Poisson.expectedGoals strengths m.homeTeamId m.awayTeamId m.competitionId
  let seed := Elo.seedRating ratings m.competitionId
  { probabilities := Poisson.scoreProbabilities lambdaHome lambdaAway
    eloHome := ratings.getD (m.homeTeamId, m.competitionId) seed
    eloAway := ratings.getD (m.awayTeamId, m.competitionId) seed }

/-- The engine's output for a fixture, as it is stored. -/
def engineRow (history : List Elo.MatchResult) (now : Instant) (m : Match) :
    PredictionValues :=
  let n := numbers R history now m
  predictionValues n.probabilities n.eloHome n.eloAway

end

/-! ## The job -/

/-- The points at which Postgres may fail a job. -/
inductive JobStatement where
  | fetchMatch
  | fetchHistory
  | acquire
  | storePrediction
  | storeCommentary
  | commit
deriving DecidableEq, Repr

inductive RedisSet where
  | done
  | redisError
  | raised
deriving DecidableEq, Repr

/-- What a job meets with outside its own code. -/
structure JobEnv where
  now : Instant
  gateway : Gateway
  fails : JobStatement → Bool
  redisSet : RedisSet

inductive JobError where
  | preview (e : PyException)
  | pg (e : PgError)
  | unavailable (at_ : JobStatement)

structure Stores where
  db : Db
  cache : Cache

def statement (env : JobEnv) (at_ : JobStatement) : Except JobError Unit :=
  if env.fails at_ then .error (.unavailable at_) else .ok ()

def liftPg {α : Type} : Except PgError α → Except JobError α
  | .ok a => .ok a
  | .error e => .error (.pg e)

/-- The statements of the transaction: the numbers, then the prose if there is
any. -/
def writeRows (db : Db) (matchId : ℤ) (values : PredictionValues)
    (preview : Option Commentary) : Except PgError Db := do
  let db ← storePrediction db matchId ENGINE_VERSION values
  match preview with
  | none => return db
  | some c =>
      storeCommentary db matchId c.sourceModel (.str c.text) (.str c.suggestedBet)
        (.str c.suggestedBetReason)

/-- The transaction of a job, which Postgres may fail at any statement. -/
def storeRows (env : JobEnv) (db : Db) (matchId : ℤ) (values : PredictionValues)
    (preview : Option Commentary) : Except JobError Db := do
  statement env .acquire
  statement env .storePrediction
  let db ← liftPg (storePrediction db matchId ENGINE_VERSION values)
  match preview with
  | none =>
      statement env .commit
      return db
  | some c =>
      statement env .storeCommentary
      let db ← liftPg (storeCommentary db matchId c.sourceModel (.str c.text)
        (.str c.suggestedBet) (.str c.suggestedBetReason))
      statement env .commit
      return db

/-- The job up to its commit: the database it leaves and the preview. -/
def computeAndStore (R : Type) [Field R] [LinearOrder R] [FloorRing R] [PyMath R]
    (env : JobEnv) (db : Db) (m : Match) : Except JobError (Db × Option Commentary) := do
  statement env .fetchHistory
  let history := fetchMatchHistory db m.competitionId none
  let n := numbers R history env.now m
  let preview ← match writePreview env.gateway (userPrompt m n.probabilities) with
    | .ok preview => .ok preview
    | .error e => .error (JobError.preview e)
  let db ← storeRows env db m.id (predictionValues n.probabilities n.eloHome n.eloAway) preview
  return (db, preview)

/-- The cache after a commit, and what the job returns. -/
def warmCache (env : JobEnv) (cache : Cache) (matchId : ℤ) :
    Option Commentary → Cache × Option Commentary
  | none => (cache, none)
  | some c =>
      match env.redisSet with
      | .done => (cache.set matchId c.text, some c)
      | .redisError => (cache, some c)
      -- not a RedisError: only the broad except catches it
      | .raised => (cache, none)

def processJob (R : Type) [Field R] [LinearOrder R] [FloorRing R] [PyMath R]
    (env : JobEnv) (s : Stores) (matchId : ℤ) : Stores × Option Commentary :=
  if env.fails .fetchMatch then (s, none)
  else
    match fetchMatchViaId s.db matchId with
    | none => (s, none)
    | some m =>
        match computeAndStore R env s.db m with
        | .error _ => (s, none)
        | .ok (db, preview) =>
            let (cache, returned) := warmCache env s.cache matchId preview
            (⟨db, cache⟩, returned)

end AGame.Brain
