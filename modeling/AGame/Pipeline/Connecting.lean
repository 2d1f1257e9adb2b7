import AGame.Pipeline.Startup

/-!
# Waiting for Redis and the broker (`a-game-brain/app/stores.py`, `a-game-api/app/store.py`,
`a-game-brain/app/consumer.py`)

The loops around `make_pg_pool`. Those of `make_redis` test the client they have just
pinged, so that unlike the pool's none of them asks again without counting: each is a
bounded retry whatever comes back.
-/

namespace AGame.Startup

open Base

/-! ## The loops -/

/-- What one turn of `make_redis` comes to: `from_url` or `ping` may raise. -/
inductive MakeRedis (κ ε : Type) where
  | pinged (client : κ)
  | fromUrlRaised (e : ε)
  | pingRaised (client : κ) (e : ε)
deriving DecidableEq, Repr

/-- The variables of the loop. A client that was not reached stays in its variable. -/
structure RedisState (κ : Type) where
  retryCount : ℕ
  redisClient : Option κ
deriving DecidableEq, Repr

def RedisState.start {κ : Type} : RedisState κ where
  retryCount := 5
  redisClient := none

/-- What one turn of the connect loop in `run_consumer` comes to. -/
inductive Connect (κ ε : Type) where
  | connected (connection : κ)
  | raised (e : ε)
deriving DecidableEq, Repr

section Source

variable {κ ε : Type} (str : ε → String)

/-- `raise ConnectionError(f"… after multiple attempts: {e}") from e` -/
def redisError (e : ε) : ConnectionError ε where
  message := "Failed to connect to Redis after multiple attempts: " ++ str e
  cause := some (.raised e)

def afterRedisLoop : Option κ → Except (ConnectionError ε) κ
  | none => .error ⟨"Failed to connect to Redis: retries exhausted", none⟩
  | some client => .ok client

/-- The `except` branch of both. -/
def redisExcept (s : RedisState κ) (e : ε) : Turn (RedisState κ) (Except (ConnectionError ε) κ) :=
  if s.retryCount - 1 = 0 then .leave (.error (redisError str e))
  else .again (some 5) { s with retryCount := s.retryCount - 1 }

def redisTest (s : RedisState κ) : Option (Except (ConnectionError ε) κ) :=
  if 0 < s.retryCount then none else some (afterRedisLoop s.redisClient)

/-- `make_redis` of the brain. -/
def Brain.makeRedis :
    Loop (RedisState κ) (MakeRedis κ ε) (Except (ConnectionError ε) κ) where
  test := redisTest
  turn s answer :=
    match answer with
    | .pinged client =>
        -- `if redis_client is not None: break`
        .leave (afterRedisLoop (some client))
    | .fromUrlRaised e => redisExcept str s e
    | .pingRaised client e => redisExcept str { s with redisClient := some client } e

/-- `make_redis` of the API. -/
def Api.makeRedis :
    Loop (RedisState κ) (MakeRedis κ ε) (Except (ConnectionError ε) κ) where
  test := redisTest
  turn s answer :=
    match answer with
    | .pinged client => .leave (afterRedisLoop (some client))
    | .fromUrlRaised e => redisExcept str s e
    | .pingRaised client e => redisExcept str { s with redisClient := some client } e

/-- `raise ConnectionError(errMsg) from e` -/
def brokerError (e : ε) : ConnectionError ε where
  message := "Max retries reached for RabbitMQ. Exiting. Last error: " ++ str e
  cause := some (.raised e)

/-- The connect loop of `run_consumer`; its state is `max_retries`. -/
def Brain.connect : Loop ℕ (Connect κ ε) (Except (ConnectionError ε) κ) where
  test _ := none
  turn maxRetries answer :=
    match answer with
    | .connected connection => .leave (.ok connection)
    | .raised e =>
        if maxRetries - 1 ≤ 0 then .leave (.error (brokerError str e))
        else .again (some 5) (maxRetries - 1)

end Source

/-! ## As bounded retries -/

section

variable {κ ε : Type} (str : ε → String)

/-- A client that answers, or an error that names what was raised last. -/
def redisPolicy : Policy (MakeRedis κ ε) (Except (ConnectionError ε) κ) where
  settle answer :=
    match answer with
    | .pinged client => some (.ok client)
    | .fromUrlRaised _ | .pingRaised _ _ => none
  giveUp answer :=
    match answer with
    | .pinged client => .ok client
    | .fromUrlRaised e | .pingRaised _ e => .error (redisError str e)
  pause := 5

def brokerPolicy : Policy (Connect κ ε) (Except (ConnectionError ε) κ) where
  settle answer :=
    match answer with
    | .connected connection => some (.ok connection)
    | .raised _ => none
  giveUp answer :=
    match answer with
    | .connected connection => .ok connection
    | .raised e => .error (brokerError str e)
  pause := 5

theorem brain_redis_follows (answer : MakeRedis κ ε) :
    (Brain.makeRedis str).Follows (redisPolicy str) (fun n s => s.retryCount = n + 1) answer := by
  have htest : ∀ s : RedisState κ, 0 < s.retryCount →
      (Brain.makeRedis str).test s = none := fun s hs => if_pos hs
  cases answer with
  | pinged client =>
      refine .of_count (fun s => { s with retryCount := s.retryCount - 1 }) htest ?_ nofun
        fun _ => rfl
      rintro s result ⟨⟩
      rfl
  | fromUrlRaised e =>
      exact .of_count (fun s => { s with retryCount := s.retryCount - 1 }) htest nofun
        (fun _ _ => rfl) fun _ => rfl
  | pingRaised client e =>
      exact .of_count (fun s => ⟨s.retryCount - 1, some client⟩) htest nofun (fun _ _ => rfl)
        fun _ => rfl

theorem api_redis_follows (answer : MakeRedis κ ε) :
    (Api.makeRedis str).Follows (redisPolicy str) (fun n s => s.retryCount = n + 1) answer := by
  refine (brain_redis_follows str answer).congr rfl fun s => ?_
  cases answer <;> rfl

theorem connect_follows (answer : Connect κ ε) :
    (Brain.connect str).Follows (brokerPolicy str) (fun n maxRetries => maxRetries = n + 1)
      answer := by
  cases answer with
  | connected connection =>
      refine .of_count (fun maxRetries => maxRetries - 1) (fun _ _ => rfl) ?_ nofun fun _ => rfl
      rintro s result ⟨⟩
      rfl
  | raised e =>
      refine .of_count (fun maxRetries => maxRetries - 1) (fun _ _ => rfl) nofun ?_ fun _ => rfl
      intro maxRetries _
      exact if_congr Nat.le_zero rfl rfl

/-- So many calls are made, the last one being the first that comes through. -/
structure LastTry {ω ρ : Type} (p : Policy ω ρ) (answers : ℕ → ω) (last : ℕ) : Prop where
  bounds : 1 ≤ last ∧ last ≤ 5
  failed : ∀ j, 1 ≤ j → j < last → p.settle (answers j) = none
  through : last < 5 → p.settle (answers last) ≠ none

theorem lastTry {ω ρ : Type} (p : Policy ω ρ) (answers : ℕ → ω) :
    LastTry p answers (p.lastCall answers 4 1) where
  bounds := ⟨Policy.le_lastCall 4 1, Policy.lastCall_le 4 1⟩
  failed := ((Policy.le_lastCall_iff (Policy.le_lastCall 4 1)).mp le_rfl).2
  through hlast hnone := by
    have hnext : p.lastCall answers 4 1 + 1 ≤ p.lastCall answers 4 1 := by
      refine (Policy.le_lastCall_iff (Nat.le_succ_of_le (Policy.le_lastCall 4 1))).mpr
        ⟨by omega, fun m hm hbefore => ?_⟩
      rcases (Nat.le_of_lt_succ hbefore).eq_or_lt with rfl | hearlier
      · exact hnone
      · exact ((Policy.le_lastCall_iff (Policy.le_lastCall 4 1)).mp le_rfl).2 m hm hearlier
    omega

/-- **Redis and the broker get five tries, whatever comes back.** The loops always end,
after one call more than there were pauses of five seconds; they stop at the first client or
connection there is and else raise an error that names what came last. On Redis the services
do the same. -/
theorem redis_and_broker_get_five_tries (redisAnswers : ℕ → MakeRedis κ ε)
    (brokerAnswers : ℕ → Connect κ ε) :
    (∃ last, LastTry (redisPolicy str) redisAnswers last ∧ ∀ trace result,
      ((Brain.makeRedis str).Ends redisAnswers .start 1 trace result ↔
        trace = tries 5 (last - 1) ∧ result = (redisPolicy str).verdict (redisAnswers last)) ∧
      ((Api.makeRedis str).Ends redisAnswers .start 1 trace result ↔
        trace = tries 5 (last - 1) ∧ result = (redisPolicy str).verdict (redisAnswers last))) ∧
    ∃ last, LastTry (brokerPolicy str) brokerAnswers last ∧ ∀ trace result,
      (Brain.connect str).Ends brokerAnswers 5 1 trace result ↔
        trace = tries 5 (last - 1) ∧ result = (brokerPolicy str).verdict (brokerAnswers last) := by
  refine ⟨⟨_, lastTry _ _, fun trace result => ⟨?_, ?_⟩⟩, _, lastTry _ _, fun trace result => ?_⟩
  · exact Loop.ends_iff_tries (s := RedisState.start) rfl (brain_redis_follows str) trace result
  · exact Loop.ends_iff_tries (s := RedisState.start) rfl (api_redis_follows str) trace result
  · refine Loop.ends_iff_tries ?_ (connect_follows str) trace result
    rfl

end

end AGame.Startup
