import AGame.Api.Main
import AGame.Base.Replay

/-!
# The cached read path against the plain one

With a cache whose entries hold committed text a request finds the text that
the branch without a Redis client reads from Postgres, hit or miss: cache and
table overlap to the table alone. What Redis can add is an exception. The
handler logs it and raises it again, so the two branches part exactly when a
failure meets a call that the request makes.
-/

namespace AGame.Api

open Std Base

/-- Every live entry holds the committed text of its match. -/
def Coherent (db : Db) (cache : Cache) : Prop :=
  ∀ matchId text, cache.get matchId = some text → getPrediction db matchId = .ok (some text)

/-- Which of the Redis calls raise. -/
structure RedisFailures where
  get : Bool
  set : Bool
deriving DecidableEq, Repr

/-- A request that meets these failures, Postgres being up. -/
def RedisFailures.env (failures : RedisFailures) : RequestEnv where
  redisConfigured := true
  redisGetFails := failures.get
  postgresFails := false
  redisSetFails := failures.set

/-- A request when no Redis client is configured, Postgres being up. -/
def withoutRedis : RequestEnv where
  redisConfigured := false
  redisGetFails := false
  postgresFails := false
  redisSetFails := false

/-- The request misses the cache and finds a text to put there. -/
def backfills (db : Db) (cache : Cache) (matchId : ℤ) : Bool :=
  (cache.get matchId).isNone && (committedText db matchId).isSome

/-- A call that the request makes raises. -/
def RedisFailures.hit (failures : RedisFailures) (db : Db) (cache : Cache) (matchId : ℤ) : Bool :=
  failures.get || (backfills db cache matchId && failures.set)

/-- The cache after a request that no failure meets. -/
def refilled (db : Db) (cache : Cache) (matchId : ℤ) : Cache :=
  match cache.get matchId, getPrediction db matchId with
  | none, .ok (some text) => cache.set matchId text
  | _, _ => cache

/-- The answer of Postgres alone. -/
def plainAnswer (db : Db) (matchId : ℤ) : Answer :=
  if isBigint matchId then respond matchId (committedText db matchId) else .serverError

theorem respond_ne_serverError (matchId : ℤ) (text : Option String) :
    respond matchId text ≠ .serverError := by
  cases text <;> simp [respond]

theorem asyncPrediction_withoutRedis (db : Db) (cache : Cache) (matchId : ℤ) :
    asyncPrediction withoutRedis db cache matchId = (cache, plainAnswer db matchId) := by
  unfold plainAnswer
  split_ifs with hid
  · simp [asyncPrediction, withoutRedis, getPrediction_bigint db hid]
  · simp [asyncPrediction, withoutRedis, getPrediction_dataError db hid]

/-- What a request with a Redis client does, for any content of the cache. -/
theorem asyncPrediction_env (failures : RedisFailures) (db : Db) (cache : Cache) {matchId : ℤ}
    (hid : isBigint matchId = true) :
    asyncPrediction failures.env db cache matchId =
      if failures.hit db cache matchId = true then (cache, .serverError)
      else (refilled db cache matchId,
        respond matchId ((cache.get matchId).or (committedText db matchId))) := by
  have hread := getPrediction_bigint db hid
  obtain ⟨getFails, setFails⟩ := failures
  cases getFails with
  | true => rfl
  | false =>
      cases hcache : cache.get matchId with
      | some text =>
          simp [asyncPrediction, RedisFailures.env, RedisFailures.hit, backfills, refilled, hcache]
      | none =>
          cases htext : committedText db matchId with
          | none =>
              simp [asyncPrediction, RedisFailures.env, RedisFailures.hit, backfills, refilled,
                hcache, hread, htext]
          | some text =>
              cases setFails <;>
                simp [asyncPrediction, RedisFailures.env, RedisFailures.hit, backfills, refilled,
                  hcache, hread, htext]

/-- Over a table that it agrees with, a cache adds nothing. -/
theorem Coherent.or_eq {db : Db} {cache : Cache} (h : Coherent db cache) (matchId : ℤ) :
    (cache.get matchId).or (committedText db matchId) = committedText db matchId := by
  cases hcache : cache.get matchId with
  | none => rfl
  | some text => rw [(getPrediction_ok (h matchId text hcache)).2, Option.some_or]

/-- No entry has a key that Postgres could not have. -/
theorem Coherent.get_none {db : Db} {cache : Cache} (h : Coherent db cache) {matchId : ℤ}
    (hid : ¬ isBigint matchId = true) : cache.get matchId = none := by
  cases hcache : cache.get matchId with
  | none => rfl
  | some text => exact absurd (getPrediction_ok (h matchId text hcache)).1 hid

theorem Coherent.asyncPrediction_dataError {db : Db} {cache : Cache} (h : Coherent db cache)
    (failures : RedisFailures) {matchId : ℤ} (hid : ¬ isBigint matchId = true) :
    asyncPrediction failures.env db cache matchId = (cache, .serverError) := by
  obtain ⟨getFails, setFails⟩ := failures
  cases getFails with
  | true => rfl
  | false =>
      simp [asyncPrediction, RedisFailures.env, h.get_none hid, getPrediction_dataError db hid]

theorem Coherent.refilled {db : Db} {cache : Cache} (h : Coherent db cache) (matchId : ℤ) :
    Coherent db (refilled db cache matchId) := by
  unfold Api.refilled
  split
  · rename_i text _ hread
    intro k other hget
    rcases cache.get_set_cases matchId k text with ⟨rfl, hset⟩ | hset
    · rw [← hget, hset]
      exact hread
    · exact h k other (hset.symm.trans hget)
  · exact h

/-- A request keeps the cache coherent, whatever fails. -/
theorem Coherent.asyncPrediction {db : Db} {cache : Cache} (h : Coherent db cache)
    (failures : RedisFailures) (matchId : ℤ) :
    Coherent db (asyncPrediction failures.env db cache matchId).1 := by
  by_cases hid : isBigint matchId = true
  · rw [asyncPrediction_env failures db cache hid]
    split_ifs
    · exact h
    · exact h.refilled matchId
  · rw [h.asyncPrediction_dataError failures hid]
    exact h

/-- The plain answer, or the exception of a call that the request makes. -/
theorem Coherent.answer {db : Db} {cache : Cache} (h : Coherent db cache)
    (failures : RedisFailures) (matchId : ℤ) :
    (Api.asyncPrediction failures.env db cache matchId).2 =
      if failures.hit db cache matchId = true then .serverError else plainAnswer db matchId := by
  unfold plainAnswer
  by_cases hid : isBigint matchId = true
  · rw [asyncPrediction_env failures db cache hid, h.or_eq, if_pos hid]
    split_ifs <;> rfl
  · rw [h.asyncPrediction_dataError failures hid, if_neg hid, ite_self]

/-! ## Runs of requests -/

/-- One request of a run, with the failures it meets. -/
def readStep (db : Db) (cache : Cache) (request : RedisFailures × ℤ) : Cache × Answer :=
  asyncPrediction request.1.env db cache request.2

theorem Coherent.finalState {db : Db} {cache : Cache} (h : Coherent db cache)
    (requests : List (RedisFailures × ℤ)) :
    Coherent db (finalState (readStep db) cache requests) := by
  induction requests generalizing cache with
  | nil => exact h
  | cons request requests ih =>
      rw [finalState_cons]
      apply ih
      exact h.asyncPrediction request.1 request.2

/-- However many requests came before, each with failures of its own, an answer
is the plain one or the exception. -/
theorem run_answers_plain_or_raises {db : Db} {cache : Cache} (hcoherent : Coherent db cache)
    (requests : List (RedisFailures × ℤ)) :
    requests.Forall₂ (fun request answer =>
      answer = plainAnswer db request.2 ∨ answer = .serverError)
      (outputs (readStep db) cache requests) := by
  induction requests generalizing cache with
  | nil => exact .nil
  | cons request requests ih =>
      refine .cons ?_ (ih (hcoherent.asyncPrediction request.1 request.2))
      rw [readStep, hcoherent.answer]
      split_ifs
      · exact Or.inr rfl
      · exact Or.inl rfl

/-! ## One request -/

/-- **The cached read path equals the plain one** exactly when no failure meets
a call that the request makes, or the id is none that the driver encodes. The plain answer
is the committed text or 404, and the other answer can only be the exception. -/
theorem cached_read_eq_plain_iff (db : Db) (cache : Cache) (hcoherent : Coherent db cache)
    (matchId : ℤ) (failures : RedisFailures) :
    (asyncPrediction withoutRedis db cache matchId).2 =
        (if isBigint matchId then respond matchId (committedText db matchId) else .serverError) ∧
      ((asyncPrediction failures.env db cache matchId).2 =
          (asyncPrediction withoutRedis db cache matchId).2 ↔
        (isBigint matchId = true → failures.get = false ∧
          (backfills db cache matchId = true → failures.set = false))) ∧
      ((asyncPrediction failures.env db cache matchId).2 ≠
          (asyncPrediction withoutRedis db cache matchId).2 →
        (asyncPrediction failures.env db cache matchId).2 = .serverError) := by
  rw [asyncPrediction_withoutRedis, hcoherent.answer]
  have hhit : failures.hit db cache matchId = true ↔
      ¬ (failures.get = false ∧ (backfills db cache matchId = true → failures.set = false)) := by
    unfold RedisFailures.hit
    cases failures.get <;> cases failures.set <;> cases backfills db cache matchId <;> simp
  refine ⟨rfl, ?_, ?_⟩
  · by_cases hid : isBigint matchId = true
    · have hplain : Answer.serverError ≠ plainAnswer db matchId := by
        rw [plainAnswer, if_pos hid]
        exact (respond_ne_serverError _ _).symm
      split_ifs with h
      · exact iff_of_false hplain fun hfine => hhit.mp h (hfine hid)
      · rw [hhit, not_not] at h
        exact iff_of_true rfl fun _ => h
    · have hraises : plainAnswer db matchId = .serverError := by
        rw [plainAnswer, if_neg hid]
      rw [hraises, ite_self]
      exact iff_of_true rfl fun hother => absurd hother hid
  · split_ifs with h
    · exact fun _ => rfl
    · exact fun hne => absurd rfl hne

/-! ## Failures that reach the answer -/

/-- Match 1 of a league of two teams, with its preview. -/
def onePreview : Db :=
  (((((Db.empty.putCompetition 2021
        ⟨⟨"Premier League", by decide⟩, ⟨"PL", by decide⟩, .league, none, true⟩
        (by simp [Db.empty])).putSeason 1 ⟨2021, 0, 300, by decide⟩
        (by simp [Db.putCompetition])).putTeam 57
        ⟨⟨"Arsenal FC", by decide⟩, none, none, none⟩).putTeam 65
        ⟨⟨"Manchester City FC", by decide⟩, none, none, none⟩).putMatch 1
        ⟨1, 57, 65, none, 0, .scheduled, none, none, none, none, none, none,
          ⟨"null", by decide⟩, by decide⟩
        (by simp [Db.putTeam, Db.putSeason]) (by simp [Db.putTeam])
        (by simp [Db.putTeam])).putCommentary 1
        ⟨⟨"model", by decide⟩, ⟨"A close one.", by decide⟩, ⟨"Draw", by decide⟩,
          ⟨"Even.", by decide⟩⟩ (by simp [Db.putMatch])

theorem coherent_empty (db : Db) : Coherent db ∅ := by
  intro matchId text h
  simp [Cache.get] at h

/-- The branch without Redis answers with the committed text; a get that raises
and, after Postgres has answered, a set that raises both put the exception in
its place. -/
theorem redis_failure_reaches_answer :
    Coherent onePreview ∅ ∧
      (asyncPrediction withoutRedis onePreview ∅ 1).2 = .prediction "A close one." 1 ∧
      (asyncPrediction (RedisFailures.env ⟨true, false⟩) onePreview ∅ 1).2 = .serverError ∧
      (asyncPrediction (RedisFailures.env ⟨false, true⟩) onePreview ∅ 1).2 = .serverError :=
  ⟨coherent_empty onePreview, by decide +kernel, by decide +kernel, by decide +kernel⟩

/-- The cache after a request that Redis could not serve, and one that it could. -/
def onceRead : Cache := finalState (readStep onePreview) ∅ [(⟨true, false⟩, 1), (⟨false, false⟩, 1)]

theorem onceRead_coherent : Coherent onePreview onceRead :=
  (coherent_empty onePreview).finalState _

/-- From then on a failing set is not reached. -/
theorem onceRead_survives_failing_set :
    (asyncPrediction (RedisFailures.env ⟨false, true⟩) onePreview onceRead 1).2 =
        (asyncPrediction withoutRedis onePreview onceRead 1).2 ∧
      (asyncPrediction withoutRedis onePreview onceRead 1).2 = .prediction "A close one." 1 :=
  ⟨(cached_read_eq_plain_iff onePreview onceRead onceRead_coherent 1 ⟨false, true⟩).2.1.mpr
    fun _ => ⟨rfl, by decide +kernel⟩, by decide +kernel⟩

end AGame.Api
