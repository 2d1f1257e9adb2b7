import AGame.Postgres.Schema
import AGame.Redis.Cache

/-!
# The read path (`a-game-api/app/db.py`, `a-game-api/app/main.py`)

One request: the cache first, Postgres on a miss, and only a Postgres read
backfills the cache.
-/

namespace AGame.Api

/-- The preview text in the table for a match. -/
def committedText (db : Db) (matchId : ℤ) : Option String :=
  db.commentaryRows[matchId]?.map fun row => row.prediction.val

/-- `get_prediction` -/
def getPrediction (db : Db) (matchId : ℤ) : Except PgError (Option String) := do
  let matchId ← bigint matchId
  return committedText db matchId

theorem getPrediction_bigint (db : Db) {matchId : ℤ} (h : isBigint matchId = true) :
    getPrediction db matchId = .ok (committedText db matchId) := by
  rw [getPrediction, bigint, if_pos h]
  rfl

/-- The driver rejects every other id. -/
theorem getPrediction_dataError (db : Db) {matchId : ℤ} (h : ¬ isBigint matchId = true) :
    getPrediction db matchId = .error .dataError := by
  rw [getPrediction, bigint, if_neg h]
  rfl

theorem getPrediction_ok {db : Db} {matchId : ℤ} {text : Option String}
    (h : getPrediction db matchId = .ok text) :
    isBigint matchId = true ∧ committedText db matchId = text := by
  by_cases hid : isBigint matchId = true
  · rw [getPrediction_bigint db hid] at h
    exact ⟨hid, Except.ok.inj h⟩
  · rw [getPrediction_dataError db hid] at h
    cases h

/-- What a request meets with: whether a Redis client is configured, and which
of its calls fail. -/
structure RequestEnv where
  redisConfigured : Bool
  redisGetFails : Bool
  postgresFails : Bool
  redisSetFails : Bool

inductive Answer where
  | prediction (description : String) (matchId : ℤ)
  /-- 404 with the detail's code and message. -/
  | notFound (code message : String)
  /-- The exception is logged and raised again. -/
  | serverError
deriving DecidableEq, Repr

/-- The response for the text found, if any. -/
def respond (matchId : ℤ) : Option String → Answer
  | some text => .prediction text matchId
  | none => .notFound "suggestion_not_ready" ("No suggestion for match " ++ toString matchId ++ ".")

/-- `GET /{match_id}` -/
def asyncPrediction (env : RequestEnv) (db : Db) (cache : Cache) (matchId : ℤ) :
    Cache × Answer :=
  if !env.redisConfigured then
    if env.postgresFails then (cache, .serverError)
    else
      match getPrediction db matchId with
      | .error _ => (cache, .serverError)
      | .ok text => (cache, respond matchId text)
  else if env.redisGetFails then (cache, .serverError)
  else
    match cache.get matchId with
    | some text => (cache, respond matchId (some text))
    | none =>
        if env.postgresFails then (cache, .serverError)
        else
          match getPrediction db matchId with
          | .error _ => (cache, .serverError)
          | .ok none => (cache, respond matchId none)
          | .ok (some text) =>
              if env.redisSetFails then (cache, .serverError)
              else (cache.set matchId text, respond matchId (some text))

end AGame.Api
