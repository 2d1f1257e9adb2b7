import AGame.Brain.Redelivery

/-!
# The consumer loop (`a-game-brain/app/consumer.py`)

`process_job` swallows whatever its collaborators raise, but `run_consumer`
decodes the body before it calls it: what `json.loads` raises passes through
`message.process()`, which rejects the message, and out of the loop. So a session
reads its queue to the end exactly when every body decodes
(`runConsumer_survives_iff`).
-/

namespace AGame.Brain

open Engine

/-- The bytes of a message. -/
abbrev Body := List UInt8

/-- How `message.process()` leaves a message. -/
inductive Settlement where
  | ack
  | reject
deriving DecidableEq, Repr

/-- How the loop over the queue is left. -/
inductive LoopEnd where
  | iteratorEnded
  | raised (e : PyException)
deriving DecidableEq, Repr

/-- What a session meets with outside its own code. -/
structure ConsumerEnv where
  /-- `json.loads` -/
  loads : Body → Except PyException PyVal
  /-- The environment of each job in turn. -/
  jobEnv : ℕ → JobEnv
  /-- What a job leaves that was given no integer: asyncpg decides what to make of
  the argument, and the broad `except` returns in any case. -/
  oddJob : ℕ → PyVal → Stores → Stores

/-- A session, once connected. -/
structure Session where
  settled : List (Body × Settlement)
  /-- The arguments `process_job` was called with. -/
  called : List PyVal
  stores : Stores
  ended : LoopEnd

section Source

variable (R : Type) [Field R] [LinearOrder R] [FloorRing R] [PyMath R]

/-- `process_job` on whatever a body decodes to. -/
def processValue (env : ConsumerEnv) (n : ℕ) (s : Stores) : PyVal → Stores
  | .int matchId => (processJob R (env.jobEnv n) s matchId).1
  | value => env.oddJob n value s

/-- The loop over the messages, from the `n`-th on. `message.process()` acks on
normal exit; it rejects on an exception and lets it out. -/
def consume (env : ConsumerEnv) (n : ℕ) (s : Stores) : List Body → Session
  | [] => ⟨[], [], s, .iteratorEnded⟩
  | body :: queue =>
      match env.loads body with
      | .error e => ⟨[(body, .reject)], [], s, .raised e⟩
      | .ok value =>
          let rest := consume env (n + 1) (processValue R env n s value) queue
          { rest with
            settled := (body, .ack) :: rest.settled
            called := value :: rest.called }

/-- `run_consumer` on a queue, from the connection on. -/
def runConsumer (env : ConsumerEnv) (s : Stores) (queue : List Body) : Session :=
  consume R env 0 s queue

end Source

variable {R : Type} [Field R] [LinearOrder R] [FloorRing R] [PyMath R]

/-! ## One message -/

theorem consume_undecoded {env : ConsumerEnv} {body : Body} {e : PyException}
    (h : env.loads body = .error e) (n : ℕ) (s : Stores) (queue : List Body) :
    consume R env n s (body :: queue) = ⟨[(body, .reject)], [], s, .raised e⟩ := by
  simp only [consume, h]

theorem consume_decoded {env : ConsumerEnv} {body : Body} {value : PyVal}
    (h : env.loads body = .ok value) (n : ℕ) (s : Stores) (queue : List Body) :
    consume R env n s (body :: queue) =
      { consume R env (n + 1) (processValue R env n s value) queue with
        settled := (body, .ack) ::
          (consume R env (n + 1) (processValue R env n s value) queue).settled
        called := value ::
          (consume R env (n + 1) (processValue R env n s value) queue).called } := by
  simp only [consume, h]

/-! ## A whole session -/

/-- The body decodes to something. -/
def Decodes (env : ConsumerEnv) (body : Body) : Prop := ∃ value, env.loads body = .ok value

def PyVal.int? : PyVal → Option ℤ
  | .int n => some n
  | _ => Option.none

/-- The integer a body decodes to. -/
def decodedInt (env : ConsumerEnv) (body : Body) : Option ℤ :=
  match env.loads body with
  | .ok value => value.int?
  | .error _ => none

/-- The loop reads its queue to the end when nothing in it fails to decode. -/
theorem consume_ended_iff (env : ConsumerEnv) (n : ℕ) (s : Stores) (queue : List Body) :
    (consume R env n s queue).ended = .iteratorEnded ↔ ∀ body ∈ queue, Decodes env body := by
  induction queue generalizing n s with
  | nil => simp [consume]
  | cons body queue ih =>
      rw [List.forall_mem_cons]
      cases h : env.loads body with
      | error e =>
          rw [consume_undecoded h]
          simp [Decodes, h]
      | ok value =>
          rw [consume_decoded h, ih]
          simp [Decodes, h]

/-- As long as bodies decode, every message is acknowledged in turn and handed to
`process_job`. -/
theorem consume_all_decoded {env : ConsumerEnv} {queue : List Body}
    (hqueue : ∀ body ∈ queue, Decodes env body) (n : ℕ) (s : Stores) :
    (consume R env n s queue).settled = queue.map (fun body => (body, Settlement.ack)) ∧
      (consume R env n s queue).called.filterMap PyVal.int? =
        queue.filterMap (decodedInt env) := by
  induction queue generalizing n s with
  | nil => exact ⟨rfl, rfl⟩
  | cons body queue ih =>
      rw [List.forall_mem_cons] at hqueue
      obtain ⟨⟨value, hvalue⟩, hqueue⟩ := hqueue
      obtain ⟨hsettled, hcalled⟩ := ih hqueue (n + 1) (processValue R env n s value)
      have hint : decodedInt env body = value.int? := by
        rw [decodedInt, hvalue]
      rw [consume_decoded hvalue]
      constructor
      · rw [List.map_cons, ← hsettled]
      · rw [List.filterMap_cons, List.filterMap_cons, hint, hcalled]

variable (R) in
/-- The session settles every message once and in order, hands every integer of
the queue to `process_job`, and ends with the queue. -/
structure Survives (env : ConsumerEnv) (s : Stores) (queue : List Body) : Prop where
  settled : (runConsumer R env s queue).settled.map Prod.fst = queue
  called : (runConsumer R env s queue).called.filterMap PyVal.int? =
    queue.filterMap (decodedInt env)
  ended : (runConsumer R env s queue).ended = .iteratorEnded

/-- The first body that does not decode is rejected, and nothing behind it is
looked at. -/
theorem consume_stops {env : ConsumerEnv} {before : List Body}
    (hbefore : ∀ body ∈ before, Decodes env body) {bad : Body} {e : PyException}
    (hbad : env.loads bad = .error e) (after : List Body) (n : ℕ) (s : Stores) :
    (consume R env n s (before ++ bad :: after)).settled =
        before.map (fun body => (body, Settlement.ack)) ++ [(bad, .reject)] ∧
      (consume R env n s (before ++ bad :: after)).ended = .raised e := by
  induction before generalizing n s with
  | nil =>
      rw [List.nil_append, consume_undecoded hbad]
      exact ⟨rfl, rfl⟩
  | cons body before ih =>
      rw [List.forall_mem_cons] at hbefore
      obtain ⟨⟨value, hvalue⟩, hbefore⟩ := hbefore
      obtain ⟨hsettled, hended⟩ := ih hbefore (n + 1) (processValue R env n s value)
      rw [List.cons_append, consume_decoded hvalue]
      refine ⟨?_, hended⟩
      rw [hsettled, List.map_cons, List.cons_append]

/-- Where the queue holds the ids of matches only, a session is a job after a job. -/
theorem runConsumer_stores {env : ConsumerEnv} {ids : List ℤ} {queue : List Body}
    (h : List.Forall₂ (fun body id => env.loads body = .ok (.int id)) queue ids) (n : ℕ)
    (s : Stores) : (consume R env n s queue).stores =
      processAll R s ((ids.zipIdx n).map fun e => (env.jobEnv e.2, e.1)) := by
  induction h generalizing n s with
  | nil => rfl
  | cons hbody _ ih =>
      rw [consume_decoded hbody]
      exact ih (n + 1) _

/-- **A session survives exactly the queues whose every body decodes.** -/
theorem runConsumer_survives_iff (env : ConsumerEnv) (s : Stores) (queue : List Body) :
    Survives R env s queue ↔ ∀ body ∈ queue, Decodes env body := by
  constructor
  · intro h
    exact (consume_ended_iff env 0 s queue).mp h.ended
  · intro hqueue
    obtain ⟨hsettled, hcalled⟩ := consume_all_decoded (R := R) hqueue 0 s
    refine ⟨?_, hcalled, (consume_ended_iff env 0 s queue).mpr hqueue⟩
    rw [runConsumer, hsettled, List.map_map]
    exact List.map_id queue

/-! ## One bad body -/

/-- `json.loads` on bodies that are digits without a leading zero; it raises on
everything else that follows no JSON grammar. -/
def loadsDigits (body : Body) : Except PyException PyVal :=
  if body ≠ [] ∧ (∀ b ∈ body, 48 ≤ b ∧ b ≤ 57) ∧ (body.head? = some 48 → body.length = 1) then
    .ok (.int (body.foldl (fun n b => 10 * n + (b.toNat - 48 : ℤ)) 0))
  else .error .other

/-- A consumer whose every collaborator is up. -/
def digitsConsumer : ConsumerEnv where
  loads := loadsDigits
  jobEnv := fun _ =>
    ⟨0, ⟨fun _ => .error .openAIError, fun _ => .notAnObject⟩, fun _ => false, .done⟩
  oddJob := fun _ _ s => s

theorem loads_nonDigit {body : Body} {b : UInt8} (hb : b ∈ body) (h : ¬ b ≤ 57) :
    digitsConsumer.loads body = .error .other := by
  show loadsDigits body = .error .other
  rw [loadsDigits, if_neg]
  rintro ⟨-, hdigits, -⟩
  exact h (hdigits b hb).2

/-- `b"oops"` ends the session before `b"7"` is read. -/
theorem oops_ends_the_session :
    ¬ Survives ℝ digitsConsumer ⟨Db.empty, ∅⟩ [[111, 111, 112, 115], [55]] := by
  intro h
  have hbad : digitsConsumer.loads [111, 111, 112, 115] = .error .other :=
    loads_nonDigit List.mem_cons_self (by decide)
  have hstops := consume_stops (R := ℝ) (List.forall_mem_nil (Decodes digitsConsumer)) hbad [[55]]
    0 ⟨Db.empty, ∅⟩
  have hended := h.ended
  rw [runConsumer, ← List.nil_append ([111, 111, 112, 115] :: [[55]]), hstops.2] at hended
  cases hended

end AGame.Brain
