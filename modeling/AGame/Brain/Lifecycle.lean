import AGame.Base.Settling
import AGame.Brain.Consumer

/-!
# The life of the service (`a-game-brain/app/main.py`, `a-game-brain/app/consumer.py`)

`service_context` makes its clients, starts `run_consumer` as a task and leaves it alone
until the service is shut down: then it cancels the task, waits for it and closes the
clients. The task waits for the broker, consumes, and closes its connection on the way out.
The two meet at the `await`s of either, in any order, and `/readyz` reads one flag of
theirs.

A cancelled task gets its `CancelledError` at the `await` it stands at; `except Exception`
does not catch it.
-/

namespace AGame.Brain.Lifecycle

open Base

/-! ## The two tasks -/

/-- How a task is over. -/
inductive TaskEnd where
  | returned
  | raised
  | cancelled
deriving DecidableEq, Repr

/-- Where `run_consumer` stands. -/
inductive ConsumerPc where
  | absent
  /-- Created, and not run yet. -/
  | scheduled
  /-- In `connect_robust`. -/
  | connecting (maxRetries : ℕ)
  /-- In `asyncio.sleep(5)`. -/
  | pausing (maxRetries : ℕ)
  /-- In the `try`. -/
  | consuming
  /-- In `connection.close()`, with what comes after it. -/
  | closing (ended : TaskEnd)
  | done (ended : TaskEnd)
deriving DecidableEq, Repr

/-- Where `service_context` stands. -/
inductive ServicePc where
  | makingPool
  | makingRedis
  /-- Paused at its `yield`: requests are served. -/
  | serving
  | awaitingTask
  | closingPool
  | closingRedis
  | closingLlm
  | stopped
  /-- An exception before the `yield`. -/
  | failed
deriving DecidableEq, Repr

inductive Client where
  | absent
  | opened
  | closed
deriving DecidableEq, Repr

structure State where
  service : ServicePc
  consumer : ConsumerPc
  isRabbitmqReady : Bool
  pgPool : Client
  redisClient : Client
  llmClient : Client
deriving DecidableEq, Repr

inductive Event where
  | poolMade
  | poolFailed
  /-- `make_redis` came through: the other client and the task are made at once. -/
  | redisMade
  | redisFailed
  | taskStarted
  | connected
  | attemptFailed
  /-- The fifth attempt failed. -/
  | gaveUp
  | waited
  | handled (body : Body)
  | rejected (body : Body)
  /-- The channel, the queue or its iterator raised. -/
  | broken
  | iteratorEnded
  | connectionClosed
  | closeFailed
  /-- The status code of `/readyz`. -/
  | probed (status : ℕ)
  | shutdown
  | taskAwaited
  /-- `await task` raised the exception of the task. -/
  | taskRaised
  | poolClosed
  | redisClosed
  | llmClosed
  /-- One of the three clients raised while it was closed. -/
  | clientFailed
deriving DecidableEq, Repr

/-- The status code of `readyz` -/
def readyz (isRabbitmqReady : Bool) : ℕ := if isRabbitmqReady then 200 else 503

/-- What a `CancelledError` makes of the task. -/
def cancel : ConsumerPc → ConsumerPc
  | .consuming => .closing .cancelled
  | .done ended => .done ended
  | .closing _ => .done .cancelled
  | _ => .done .cancelled

section Source

variable (loads : Body → Except PyException PyVal)

inductive Step : State → Event → State → Prop
  | poolMade {s : State} : s.service = .makingPool →
      Step s .poolMade { s with pgPool := .opened, service := .makingRedis }
  | poolFailed {s : State} : s.service = .makingPool →
      Step s .poolFailed { s with service := .failed }
  | redisMade {s : State} : s.service = .makingRedis →
      Step s .redisMade { s with
        redisClient := .opened, llmClient := .opened, consumer := .scheduled,
        service := .serving }
  | redisFailed {s : State} : s.service = .makingRedis →
      Step s .redisFailed { s with service := .failed }
  | taskStarted {s : State} : s.consumer = .scheduled →
      Step s .taskStarted { s with consumer := .connecting 5 }
  | connected {s : State} {maxRetries : ℕ} : s.consumer = .connecting maxRetries →
      Step s .connected { s with consumer := .consuming, isRabbitmqReady := true }
  | attemptFailed {s : State} {maxRetries : ℕ} : s.consumer = .connecting maxRetries →
      0 < maxRetries - 1 →
      Step s .attemptFailed { s with consumer := .pausing (maxRetries - 1) }
  | gaveUp {s : State} {maxRetries : ℕ} : s.consumer = .connecting maxRetries →
      maxRetries - 1 ≤ 0 → Step s .gaveUp { s with consumer := .done .raised }
  | waited {s : State} {maxRetries : ℕ} : s.consumer = .pausing maxRetries →
      Step s .waited { s with consumer := .connecting maxRetries }
  | handled {s : State} {body : Body} {value : PyVal} : s.consumer = .consuming →
      loads body = .ok value → Step s (.handled body) s
  | rejected {s : State} {body : Body} {e : PyException} : s.consumer = .consuming →
      loads body = .error e → Step s (.rejected body) { s with consumer := .closing .raised }
  | broken {s : State} : s.consumer = .consuming →
      Step s .broken { s with consumer := .closing .raised }
  | iteratorEnded {s : State} : s.consumer = .consuming →
      Step s .iteratorEnded { s with consumer := .closing .returned }
  | connectionClosed {s : State} {ended : TaskEnd} : s.consumer = .closing ended →
      Step s .connectionClosed { s with consumer := .done ended, isRabbitmqReady := false }
  | closeFailed {s : State} {ended : TaskEnd} : s.consumer = .closing ended →
      Step s .closeFailed { s with consumer := .done .raised }
  | probed {s : State} : s.service = .serving → Step s (.probed (readyz s.isRabbitmqReady)) s
  | shutdown {s : State} : s.service = .serving →
      Step s .shutdown { s with consumer := cancel s.consumer, service := .awaitingTask }
  | taskAwaited {s : State} {ended : TaskEnd} : s.service = .awaitingTask →
      s.consumer = .done ended → ended ≠ .raised →
      Step s .taskAwaited { s with service := .closingPool }
  | taskRaised {s : State} : s.service = .awaitingTask → s.consumer = .done .raised →
      Step s .taskRaised { s with service := .stopped }
  | poolClosed {s : State} : s.service = .closingPool →
      Step s .poolClosed { s with pgPool := .closed, service := .closingRedis }
  | redisClosed {s : State} : s.service = .closingRedis →
      Step s .redisClosed { s with redisClient := .closed, service := .closingLlm }
  | llmClosed {s : State} : s.service = .closingLlm →
      Step s .llmClosed { s with llmClient := .closed, service := .stopped }
  | clientFailed {s : State} :
      s.service = .closingPool ∨ s.service = .closingRedis ∨ s.service = .closingLlm →
      Step s .clientFailed { s with service := .stopped }

/-- At the head of `service_context` -/
def start : State where
  service := .makingPool
  consumer := .absent
  isRabbitmqReady := false
  pgPool := .absent
  redisClient := .absent
  llmClient := .absent

/-- The service as a labelled system. -/
def service : System State Event where
  init s := s = start
  step := Step loads

end Source

variable {loads : Body → Except PyException PyVal} {h before after : List Event} {s t : State}
  {e : Event}

/-! ## The consumer's marks -/

/-- The event throws an exception out of the `try`. -/
def Event.throws : Event → Bool
  | .rejected _ | .broken => true
  | _ => false

/-- What the connection goes through, and how. -/
def Event.marks : Event → Bool
  | .connected | .gaveUp | .rejected _ | .broken | .connectionClosed | .closeFailed => true
  | _ => false

def marks (h : List Event) : List Event := h.filter Event.marks

@[simp] theorem marks_nil : marks [] = [] := rfl

theorem marks_mark (he : e.marks = true) : marks (h ++ [e]) = marks h ++ [e] := by
  rw [marks, List.filter_append, List.filter_cons_of_pos he]
  rfl

theorem marks_other (he : e.marks = false) : marks (h ++ [e]) = marks h := by
  rw [marks, List.filter_append, List.filter_cons_of_neg (by simp [he]), List.filter_nil,
    List.append_nil]
  rfl

theorem mem_marks (he : e.marks = true) : e ∈ marks h ↔ e ∈ h := by
  rw [marks, List.mem_filter, and_iff_left he]

/-- The marks that lead to each place of `run_consumer`. -/
def Told (trace : List Event) : ConsumerPc → Prop
  | .absent | .scheduled | .connecting _ | .pausing _ => trace = []
  | .consuming | .closing .returned | .closing .cancelled => trace = [.connected]
  | .closing .raised => ∃ e, e.throws = true ∧ trace = [.connected, e]
  | .done .raised =>
      trace = [.gaveUp] ∨ trace = [.connected, .closeFailed] ∨
        ∃ e, e.throws = true ∧
          (trace = [.connected, e, .closeFailed] ∨ trace = [.connected, e, .connectionClosed])
  | .done .returned => trace = [.connected, .connectionClosed]
  | .done .cancelled =>
      trace = [] ∨ trace = [.connected] ∨ trace = [.connected, .connectionClosed] ∨
        ∃ e, e.throws = true ∧ trace = [.connected, e]

theorem Told.cancel {trace : List Event} {pc : ConsumerPc} (h : Told trace pc) :
    Told trace (cancel pc) := by
  cases pc with
  | absent | scheduled | connecting | pausing => exact .inl h
  | consuming => exact h
  | closing ended =>
      cases ended with
      | returned | cancelled => exact .inr (.inl h)
      | raised => exact .inr (.inr (.inr h))
  | done => exact h

theorem Told.connectionClosed {trace : List Event} {ended : TaskEnd}
    (h : Told trace (.closing ended)) : Told (trace ++ [.connectionClosed]) (.done ended) := by
  cases ended with
  | returned =>
      rw [show trace = _ from h]
      rfl
  | cancelled =>
      rw [show trace = _ from h]
      exact .inr (.inr (.inl rfl))
  | raised =>
      obtain ⟨e, he, rfl⟩ := h
      exact .inr (.inr ⟨e, he, .inr rfl⟩)

theorem Told.closeFailed {trace : List Event} {ended : TaskEnd}
    (h : Told trace (.closing ended)) : Told (trace ++ [.closeFailed]) (.done .raised) := by
  cases ended with
  | returned | cancelled =>
      rw [show trace = _ from h]
      exact .inr (.inl rfl)
  | raised =>
      obtain ⟨e, he, rfl⟩ := h
      exact .inr (.inr ⟨e, he, .inl rfl⟩)

/-- A step of the task adds its mark; what else happens adds none. -/
theorem Told.step (hstep : Step loads s e t) (htold : Told (marks h) s.consumer)
    (hservice : s.service = .makingRedis → s.consumer = .absent) :
    Told (marks (h ++ [e])) t.consumer := by
  cases hstep with
  | redisMade hpc =>
      rw [hservice hpc] at htold
      rw [marks_other rfl]
      exact htold
  | taskStarted hpc | waited hpc | attemptFailed hpc | iteratorEnded hpc =>
      rw [hpc] at htold
      rw [marks_other rfl]
      exact htold
  | connected hpc =>
      rw [hpc] at htold
      rw [marks_mark rfl, show marks h = [] from htold]
      rfl
  | gaveUp hpc =>
      rw [hpc] at htold
      rw [marks_mark rfl, show marks h = [] from htold]
      exact .inl rfl
  | rejected hpc | broken hpc =>
      rw [hpc] at htold
      rw [marks_mark rfl, show marks h = _ from htold]
      exact ⟨_, rfl, rfl⟩
  | connectionClosed hpc =>
      rw [hpc] at htold
      rw [marks_mark rfl]
      exact htold.connectionClosed
  | closeFailed hpc =>
      rw [hpc] at htold
      rw [marks_mark rfl]
      exact htold.closeFailed
  | shutdown =>
      rw [marks_other rfl]
      exact htold.cancel
  | poolMade | poolFailed | redisFailed | handled | probed | taskAwaited | taskRaised | poolClosed
  | redisClosed | llmClosed | clientFailed =>
      rw [marks_other rfl]
      exact htold

/-! ## The clients -/

def State.Clients (s : State) (pgPool redisClient llmClient : Client) : Prop :=
  s.pgPool = pgPool ∧ s.redisClient = redisClient ∧ s.llmClient = llmClient

/-- The task is on its way out, or over. -/
def ConsumerPc.Leaving : ConsumerPc → Prop
  | .closing _ | .done _ => True
  | _ => False

/-- The task is over, and awaiting it raises nothing. -/
def ConsumerPc.Over (pc : ConsumerPc) : Prop := ∃ ended, ended ≠ .raised ∧ pc = .done ended

/-- The clients at each place of `service_context`; `failed` says that one of them raised
while it was closed. -/
def Held (failed : Prop) (s : State) : Prop :=
  match s.service with
  | .makingPool => s.Clients .absent .absent .absent ∧ s.consumer = .absent ∧ ¬ failed
  | .makingRedis => s.Clients .opened .absent .absent ∧ s.consumer = .absent ∧ ¬ failed
  | .failed => s.consumer = .absent
  | .serving => s.Clients .opened .opened .opened ∧ ¬ failed
  | .awaitingTask => s.Clients .opened .opened .opened ∧ s.consumer.Leaving ∧ ¬ failed
  | .closingPool => s.Clients .opened .opened .opened ∧ s.consumer.Over ∧ ¬ failed
  | .closingRedis => s.Clients .closed .opened .opened ∧ s.consumer.Over ∧ ¬ failed
  | .closingLlm => s.Clients .closed .closed .opened ∧ s.consumer.Over ∧ ¬ failed
  | .stopped =>
      (s.Clients .opened .opened .opened ∧ s.consumer = .done .raised ∧ ¬ failed) ∨
        (s.llmClient = .opened ∧ s.consumer.Over ∧ failed) ∨
          (s.Clients .closed .closed .closed ∧ s.consumer.Over ∧ ¬ failed)

/-- A step of the task, seen from `service_context`: it was there and not over, and once it
is on its way out it stays so. -/
structure TaskMoves (s t : State) : Prop where
  service : t.service = s.service
  pgPool : t.pgPool = s.pgPool
  redisClient : t.redisClient = s.redisClient
  llmClient : t.llmClient = s.llmClient
  present : s.consumer ≠ .absent
  running : ∀ ended, s.consumer ≠ .done ended
  leaving : s.consumer.Leaving → t.consumer.Leaving

theorem TaskMoves.held {failed : Prop} (hmoves : TaskMoves s t) (h : Held failed s) :
    Held failed t := by
  have hclients : ∀ {pg redis llm}, s.Clients pg redis llm → t.Clients pg redis llm := by
    rintro pg redis llm ⟨hpg, hredis, hllm⟩
    exact ⟨hmoves.pgPool.trans hpg, hmoves.redisClient.trans hredis, hmoves.llmClient.trans hllm⟩
  -- a task that moves is there and not over, which leaves three places
  have hover : ¬ s.consumer.Over := fun ⟨ended, _, hended⟩ => hmoves.running ended hended
  unfold Held at h ⊢
  rw [hmoves.service]
  cases hservice : s.service with
  | makingPool | makingRedis =>
      rw [hservice] at h
      exact absurd h.2.1 hmoves.present
  | failed =>
      rw [hservice] at h
      exact absurd h hmoves.present
  | serving =>
      rw [hservice] at h
      exact ⟨hclients h.1, h.2⟩
  | awaitingTask =>
      rw [hservice] at h
      exact ⟨hclients h.1, hmoves.leaving h.2.1, h.2.2⟩
  | closingPool | closingRedis | closingLlm =>
      rw [hservice] at h
      exact absurd h.2.1 hover
  | stopped =>
      rw [hservice] at h
      rcases h with ⟨-, hraised, -⟩ | ⟨-, h, -⟩ | ⟨-, h, -⟩
      · exact absurd hraised (hmoves.running .raised)
      · exact absurd h hover
      · exact absurd h hover

theorem leaving_cancel (pc : ConsumerPc) : (cancel pc).Leaving := by
  cases pc <;> trivial

/-- What `service_context` does by itself keeps to its place. -/
theorem Held.step {failed failed' : Prop} (hstep : Step loads s e t)
    (hfailed : failed' ↔ failed ∨ e = .clientFailed) (hheld : Held failed s) :
    Held failed' t := by
  have htask : e ≠ .clientFailed → TaskMoves s t → Held failed' t := by
    intro he hmoves
    rw [hfailed, or_iff_left he]
    exact hmoves.held hheld
  have hkeep : e ≠ .clientFailed → ¬ failed → ¬ failed' := by
    intro he hnot
    rw [hfailed, or_iff_left he]
    exact hnot
  cases hstep with
  | taskStarted hpc | connected hpc | attemptFailed hpc | gaveUp hpc | waited hpc | handled hpc
  | rejected hpc | broken hpc | iteratorEnded hpc =>
      refine htask nofun ⟨rfl, rfl, rfl, rfl, hpc ▸ nofun, hpc ▸ nofun, fun hleaving => ?_⟩
      rw [hpc] at hleaving
      exact hleaving.elim
  | connectionClosed hpc | closeFailed hpc =>
      exact htask nofun ⟨rfl, rfl, rfl, rfl, hpc ▸ nofun, hpc ▸ nofun, fun _ => trivial⟩
  | probed => rwa [hfailed, or_iff_left nofun]
  | poolMade hpc =>
      rw [Held, hpc] at hheld
      exact ⟨⟨rfl, hheld.1.2.1, hheld.1.2.2⟩, hheld.2.1, hkeep nofun hheld.2.2⟩
  | poolFailed hpc | redisFailed hpc =>
      rw [Held, hpc] at hheld
      exact hheld.2.1
  | redisMade hpc =>
      rw [Held, hpc] at hheld
      exact ⟨⟨hheld.1.1, rfl, rfl⟩, hkeep nofun hheld.2.2⟩
  | shutdown hpc =>
      rw [Held, hpc] at hheld
      exact ⟨hheld.1, leaving_cancel s.consumer, hkeep nofun hheld.2⟩
  | taskAwaited hpc hdone hended =>
      rw [Held, hpc] at hheld
      exact ⟨hheld.1, ⟨_, hended, hdone⟩, hkeep nofun hheld.2.2⟩
  | taskRaised hpc hdone =>
      rw [Held, hpc] at hheld
      exact .inl ⟨hheld.1, hdone, hkeep nofun hheld.2.2⟩
  | poolClosed hpc =>
      rw [Held, hpc] at hheld
      exact ⟨⟨rfl, hheld.1.2.1, hheld.1.2.2⟩, hheld.2.1, hkeep nofun hheld.2.2⟩
  | redisClosed hpc =>
      rw [Held, hpc] at hheld
      exact ⟨⟨hheld.1.1, rfl, hheld.1.2.2⟩, hheld.2.1, hkeep nofun hheld.2.2⟩
  | llmClosed hpc =>
      rw [Held, hpc] at hheld
      exact .inr (.inr ⟨⟨hheld.1.1, hheld.1.2.1, rfl⟩, hheld.2.1, hkeep nofun hheld.2.2⟩)
  | clientFailed hpc =>
      have hnow : failed' := hfailed.mpr (.inr rfl)
      rcases hpc with hpc | hpc | hpc
      all_goals
        rw [Held, hpc] at hheld
        exact .inr (.inl ⟨hheld.1.2.2, hheld.2.1, hnow⟩)

/-! ## What every run keeps -/

structure LifeInv (h : List Event) (s : State) : Prop where
  told : Told (marks h) s.consumer
  ready : s.isRabbitmqReady = true ↔ .connected ∈ h ∧ .connectionClosed ∉ h
  held : Held (.clientFailed ∈ h) s

theorem ready_step (hstep : Step loads s e t) (htold : Told (marks h) s.consumer)
    (hready : s.isRabbitmqReady = true ↔ .connected ∈ h ∧ .connectionClosed ∉ h) :
    t.isRabbitmqReady = true ↔ .connected ∈ h ++ [e] ∧ .connectionClosed ∉ h ++ [e] := by
  simp only [List.mem_append, List.mem_singleton]
  cases hstep with
  | connected hpc =>
      rw [hpc] at htold
      have hclosed : .connectionClosed ∉ h := by
        rw [← mem_marks rfl, show marks h = [] from htold]
        exact List.not_mem_nil
      simp only [or_true, reduceCtorEq, or_false, true_and, true_iff]
      exact hclosed
  | connectionClosed =>
      simp only [Bool.false_eq_true, or_true, not_true, and_false]
  | poolMade | poolFailed | redisMade | redisFailed | taskStarted | attemptFailed | gaveUp | waited
  | handled | rejected | broken | iteratorEnded | closeFailed | probed | shutdown | taskAwaited
  | taskRaised | poolClosed | redisClosed | llmClosed | clientFailed =>
      simp only [reduceCtorEq, or_false]
      exact hready

theorem lifeInv_of_run (hr : (service loads).Run h s) : LifeInv h s := by
  refine hr.invariant (P := LifeInv) ?_ ?_
  · rintro _ rfl
    exact {
      told := rfl
      ready := by simp [start]
      held := ⟨⟨rfl, rfl, rfl⟩, rfl, List.not_mem_nil⟩ }
  · intro h s e t _ hinv hstep
    refine ⟨hinv.told.step hstep fun hservice => ?_, ready_step hstep hinv.told hinv.ready,
      hinv.held.step hstep ?_⟩
    · have hheld := hinv.held
      rw [Held, hservice] at hheld
      exact hheld.2.1
    · rw [List.mem_append, List.mem_singleton]
      exact or_congr_right eq_comm

/-! ## Readiness -/

/-- The task leaves the `try`, or will never reach it. -/
def Event.leaves : Event → Bool
  | .gaveUp | .rejected _ | .broken | .iteratorEnded | .connectionClosed | .closeFailed
  | .shutdown => true
  | _ => false

/-- The task takes a message, or makes its connection. -/
def Event.takes : Event → Bool
  | .connected | .handled _ | .rejected _ => true
  | _ => false

theorem leaving_of_leaves (hstep : Step loads s e t) (he : e.leaves = true) :
    t.consumer.Leaving := by
  cases hstep with
  | gaveUp | rejected | broken | iteratorEnded | connectionClosed | closeFailed => trivial
  | shutdown => exact leaving_cancel s.consumer
  | poolMade | poolFailed | redisMade | redisFailed | taskStarted | connected | attemptFailed
  | waited | handled | probed | taskAwaited | taskRaised | poolClosed | redisClosed | llmClosed
  | clientFailed => cases he

theorem Leaving.step (hstep : Step loads s e t) (hservice : s.service ≠ .makingRedis)
    (hs : s.consumer.Leaving) : t.consumer.Leaving ∧ e.takes = false := by
  cases hstep with
  | redisMade hpc => exact absurd hpc hservice
  | taskStarted hpc | connected hpc | attemptFailed hpc | waited hpc | handled hpc
  | rejected hpc =>
      rw [hpc] at hs
      exact hs.elim
  | gaveUp | broken | iteratorEnded | connectionClosed | closeFailed => exact ⟨trivial, rfl⟩
  | shutdown => exact ⟨leaving_cancel s.consumer, rfl⟩
  | poolMade | poolFailed | redisFailed | probed | taskAwaited | taskRaised | poolClosed
  | redisClosed | llmClosed | clientFailed => exact ⟨hs, rfl⟩

/-- Out of the `try` the task takes nothing any more. -/
theorem left_for_good (hr : (service loads).Run h s) : ∀ before e after, h = before ++ e :: after →
    e.leaves = true → s.consumer.Leaving ∧ ∀ e' ∈ after, e'.takes = false := by
  induction hr with
  | start =>
      intro before e after heq
      exact absurd heq.symm (by simp)
  | next hr hstep ih =>
      intro before e after heq he
      rcases split_snoc.mp heq with ⟨rfl, rfl, rfl⟩ | ⟨after, rfl, hsplit⟩
      · exact ⟨leaving_of_leaves hstep he, nofun⟩
      · obtain ⟨hleaving, hafter⟩ := ih before e after hsplit he
        have hservice := (lifeInv_of_run hr).held
        have hnext := Leaving.step hstep (fun hmaking => by
          rw [Held, hmaking] at hservice
          rw [hservice.2.1] at hleaving
          exact hleaving) hleaving
        refine ⟨hnext.1, fun e' he' => ?_⟩
        rcases List.mem_append.mp he' with he' | he'
        · exact hafter e' he'
        · rw [List.mem_singleton.mp he']
          exact hnext.2

/-- A connection whose closing failed has been made, and never closed. -/
theorem Told.of_closeFailed {trace : List Event} {pc : ConsumerPc} (htold : Told trace pc)
    (hfailed : .closeFailed ∈ trace) :
    .connected ∈ trace ∧ .connectionClosed ∉ trace := by
  have hthrown : ∀ e : Event, e.throws = true →
      .closeFailed ≠ e ∧ .connectionClosed ≠ e := by
    intro e he
    constructor
    · rintro rfl
      cases he
    · rintro rfl
      cases he
  cases pc with
  | absent | scheduled | connecting | pausing =>
      rw [show trace = [] from htold] at hfailed
      cases hfailed
  | consuming =>
      rw [show trace = _ from htold] at hfailed
      simp at hfailed
  | closing ended =>
      cases ended with
      | returned | cancelled =>
          rw [show trace = _ from htold] at hfailed
          simp at hfailed
      | raised =>
          obtain ⟨e, he, rfl⟩ := htold
          simp [(hthrown e he).1] at hfailed
  | done ended =>
      cases ended with
      | returned =>
          rw [show trace = _ from htold] at hfailed
          simp at hfailed
      | cancelled =>
          rcases htold with rfl | rfl | rfl | ⟨e, he, rfl⟩
          · cases hfailed
          · simp at hfailed
          · simp at hfailed
          · simp [(hthrown e he).1] at hfailed
      | raised =>
          rcases htold with rfl | rfl | ⟨e, he, rfl | rfl⟩
          · simp at hfailed
          · simp
          · simp [(hthrown e he).2]
          · simp [(hthrown e he).1] at hfailed

/-- What `/readyz` says in a run. -/
structure Readiness (h : List Event) : Prop where
  /-- It follows the connection, from the moment it is made until its closing has come back. -/
  status : BeforeEach (fun e before => ∀ status, e = .probed status →
    status = if .connected ∈ before ∧ .connectionClosed ∉ before then 200 else 503) h
  /-- Once the task has left its `try`, no message is taken and no connection made. -/
  left : AfterEach (fun e after => e.leaves = true → ∀ e' ∈ after, e'.takes = false) h
  /-- A closing that failed leaves it ready for good. -/
  stale : BeforeEach (fun e before => ∀ status, e = .probed status → .closeFailed ∈ before →
    status = 200) h

/-- **Readiness follows the connection, not the consumer.** -/
theorem readiness_of_run (hr : (service loads).Run h s) : Readiness h := by
  have hprobes : BeforeEach (fun e before => ∀ status, e = .probed status →
      (status = if .connected ∈ before ∧ .connectionClosed ∉ before then 200 else 503) ∧
        (.closeFailed ∈ before → status = 200)) h := by
    refine hr.invariant (P := fun h _ => BeforeEach _ h) (fun _ _ => beforeEach_nil) ?_
    intro h s e t hr ih hstep
    refine beforeEach_snoc.mpr ⟨ih, ?_⟩
    rintro status rfl
    obtain ⟨htold, hready, -⟩ := lifeInv_of_run hr
    have hstatus : status = if .connected ∈ h ∧ .connectionClosed ∉ h then 200 else 503 := by
      cases hstep with
      | probed => exact if_congr hready rfl rfl
    refine ⟨hstatus, fun hfailed => ?_⟩
    have hconnected := htold.of_closeFailed ((mem_marks rfl).mpr hfailed)
    rw [mem_marks rfl, mem_marks rfl] at hconnected
    rw [hstatus, if_pos hconnected]
  exact {
    status := fun before e after heq status he => (hprobes before e after heq status he).1
    left := fun before e after heq he => (left_for_good hr before e after heq he).2
    stale := fun before e after heq status he => (hprobes before e after heq status he).2 }

/-! ## Shutdown -/

/-- The task ends in an exception of its own: it never got its connection, could not close
it, or closed it with an exception on its way. -/
def Raised (h : List Event) : Prop :=
  .gaveUp ∈ h ∨ .closeFailed ∈ h ∨ ((∃ e ∈ h, e.throws = true) ∧ .connectionClosed ∈ h)

theorem raised_marks : Raised (marks h) ↔ Raised h := by
  have hthrows : (∃ e ∈ marks h, e.throws = true) ↔ ∃ e ∈ h, e.throws = true := by
    refine exists_congr fun e => and_congr_left fun he => mem_marks ?_
    cases e with
    | rejected | broken => rfl
    | _ => cases he
  rw [Raised, Raised, mem_marks rfl, mem_marks rfl, mem_marks rfl, hthrows]

theorem Told.raised_iff {trace : List Event} {ended : TaskEnd}
    (htold : Told trace (.done ended)) : Raised trace ↔ ended = .raised := by
  cases ended with
  | returned =>
      rw [show trace = _ from htold]
      simp [Raised, Event.throws]
  | cancelled =>
      refine iff_of_false ?_ nofun
      rcases htold with rfl | rfl | rfl | ⟨e, he, rfl⟩
      · simp [Raised]
      · simp [Raised]
      · simp [Raised, Event.throws]
      · cases e with
        | rejected | broken => simp [Raised]
        | _ => cases he
  | raised =>
      refine iff_of_true ?_ rfl
      rcases htold with rfl | rfl | ⟨e, he, rfl | rfl⟩
      · simp [Raised]
      · simp [Raised]
      · simp [Raised]
      · simp [Raised, he]

/-- From the shutdown on. -/
def ServicePc.ShuttingDown : ServicePc → Prop
  | .awaitingTask | .closingPool | .closingRedis | .closingLlm | .stopped => True
  | _ => False

/-- So many steps are left at most. -/
def stepsLeft (s : State) : ℕ :=
  match s.service, s.consumer with
  | .awaitingTask, .closing _ => 5
  | .awaitingTask, _ => 4
  | .closingPool, _ => 3
  | .closingRedis, _ => 2
  | .closingLlm, _ => 1
  | _, _ => 0

theorem stepsLeft_le (s : State) : stepsLeft s ≤ 5 := by
  unfold stepsLeft
  split <;> decide

theorem Held.task_shuttingDown {failed : Prop} (hheld : Held failed s)
    (hs : s.service.ShuttingDown) :
    (s.service = .awaitingTask ∧ s.consumer.Leaving) ∨ ∃ ended, s.consumer = .done ended := by
  have hover : s.consumer.Over → ∃ ended, s.consumer = .done ended :=
    fun ⟨ended, _, hended⟩ => ⟨ended, hended⟩
  unfold Held at hheld
  cases hservice : s.service with
  | makingPool | makingRedis | serving | failed =>
      rw [hservice] at hs
      exact hs.elim
  | awaitingTask =>
      rw [hservice] at hheld
      exact .inl ⟨rfl, hheld.2.1⟩
  | closingPool | closingRedis | closingLlm =>
      rw [hservice] at hheld
      exact .inr (hover hheld.2.1)
  | stopped =>
      rw [hservice] at hheld
      rcases hheld with ⟨-, hraised, -⟩ | ⟨-, h, -⟩ | ⟨-, h, -⟩
      · exact .inr ⟨_, hraised⟩
      · exact .inr (hover h)
      · exact .inr (hover h)

/-- Once it is being shut down the service only goes on with that. -/
theorem shuttingDown_step {failed : Prop} (hstep : Step loads s e t) (hheld : Held failed s)
    (hs : s.service.ShuttingDown) : t.service.ShuttingDown ∧ stepsLeft t + 1 ≤ stepsLeft s := by
  cases hstep with
  | poolMade hpc | poolFailed hpc | redisMade hpc | redisFailed hpc | probed hpc | shutdown hpc =>
      rw [hpc] at hs
      exact hs.elim
  | taskStarted hpc | connected hpc | attemptFailed hpc | gaveUp hpc | waited hpc | handled hpc
  | rejected hpc | broken hpc | iteratorEnded hpc =>
      have htask := hheld.task_shuttingDown hs
      rw [hpc] at htask
      rcases htask with ⟨-, hleaving⟩ | ⟨ended, hended⟩
      · exact hleaving.elim
      · cases hended
  | connectionClosed hpc | closeFailed hpc =>
      have htask := hheld.task_shuttingDown hs
      rw [hpc] at htask
      rcases htask with ⟨hservice, -⟩ | ⟨ended, hended⟩
      · refine ⟨hs, ?_⟩
        simp only [stepsLeft, hservice, hpc]
        exact le_rfl
      · cases hended
  | taskAwaited hpc hdone =>
      refine ⟨trivial, ?_⟩
      simp only [stepsLeft, hpc, hdone]
      exact le_rfl
  | taskRaised hpc hdone =>
      refine ⟨trivial, ?_⟩
      simp only [stepsLeft, hpc, hdone]
      decide
  | poolClosed hpc | redisClosed hpc | llmClosed hpc =>
      refine ⟨trivial, ?_⟩
      simp only [stepsLeft, hpc]
      exact le_rfl
  | clientFailed hpc =>
      refine ⟨trivial, ?_⟩
      rcases hpc with hpc | hpc | hpc
      all_goals
        simp only [stepsLeft, hpc]
        decide

theorem shuttingDown_run (hr : (service loads).Run h s) : ∀ before after,
    h = before ++ .shutdown :: after →
    s.service.ShuttingDown ∧ after.length + stepsLeft s ≤ 5 := by
  induction hr with
  | start =>
      intro before after heq
      exact absurd heq.symm (by simp)
  | @next h s t e hr hstep ih =>
      intro before after heq
      rcases split_snoc.mp heq with ⟨rfl, rfl, rfl⟩ | ⟨after, rfl, hsplit⟩
      · cases hstep with
        | shutdown =>
            refine ⟨trivial, ?_⟩
            rw [List.length_nil, Nat.zero_add]
            exact stepsLeft_le _
      · obtain ⟨hs, hsteps⟩ := ih before after hsplit
        obtain ⟨ht, hless⟩ := shuttingDown_step hstep (lifeInv_of_run hr).held hs
        refine ⟨ht, ?_⟩
        rw [List.length_append, List.length_singleton]
        omega

/-- A shutdown can always go on until the service has stopped. -/
theorem stuck_iff_stopped {failed : Prop} (hheld : Held failed s) (hs : s.service.ShuttingDown) :
    (service loads).Stuck s ↔ s.service = .stopped := by
  constructor
  · intro hstuck
    cases hservice : s.service with
    | makingPool | makingRedis | serving | failed =>
        rw [hservice] at hs
        exact hs.elim
    | awaitingTask =>
        rw [Held, hservice] at hheld
        cases hpc : s.consumer with
        | closing ended => exact (hstuck _ _ (.connectionClosed hpc)).elim
        | done ended =>
            cases ended with
            | raised => exact (hstuck _ _ (.taskRaised hservice hpc)).elim
            | returned | cancelled => exact (hstuck _ _ (.taskAwaited hservice hpc nofun)).elim
        | absent | scheduled | connecting | pausing | consuming =>
            rw [hpc] at hheld
            exact hheld.2.1.elim
    | closingPool => exact (hstuck _ _ (.poolClosed hservice)).elim
    | closingRedis => exact (hstuck _ _ (.redisClosed hservice)).elim
    | closingLlm => exact (hstuck _ _ (.llmClosed hservice)).elim
    | stopped => rfl
  · intro hservice e t hstep
    have hless := (shuttingDown_step hstep hheld hs).2
    simp [stepsLeft, hservice] at hless

/-- Where the clients are once the service has stopped. -/
theorem stopped_clients (hinv : LifeInv h s) (hs : s.service = .stopped) :
    (s.Clients .closed .closed .closed ↔ ¬ Raised h ∧ .clientFailed ∉ h) ∧
      (Raised h → s.Clients .opened .opened .opened) := by
  have hraised : ∀ ended, s.consumer = .done ended → (Raised h ↔ ended = .raised) := by
    intro ended hended
    have htold := hinv.told
    rw [hended] at htold
    rw [← raised_marks]
    exact htold.raised_iff
  have hheld := hinv.held
  rw [Held, hs] at hheld
  rcases hheld with ⟨hclients, hended, hfailed⟩ | ⟨hllm, ⟨ended, hne, hended⟩, hfailed⟩ |
    ⟨hclients, ⟨ended, hne, hended⟩, hfailed⟩
  · have hyes : Raised h := (hraised _ hended).mpr rfl
    refine ⟨iff_of_false (fun hclosed => ?_) fun hnot => hnot.1 hyes, fun _ => hclients⟩
    exact nomatch hclients.1.symm.trans hclosed.1
  · have hno : ¬ Raised h := fun hyes => hne ((hraised _ hended).mp hyes)
    refine ⟨iff_of_false (fun hclosed => ?_) fun hnot => hnot.2 hfailed,
      fun hyes => absurd hyes hno⟩
    exact nomatch hllm.symm.trans hclosed.2.2
  · have hno : ¬ Raised h := fun hyes => hne ((hraised _ hended).mp hyes)
    exact ⟨iff_of_true hclients ⟨hno, hfailed⟩, fun hyes => absurd hyes hno⟩

/-- **Every shutdown comes to its end**, within five steps, and closes the three clients
unless one of them cannot be closed or the task ends in an exception of its own: then
`await task` raises, and all three stay open. -/
theorem shutdown_comes_to_end (hr : (service loads).Run h s)
    (heq : h = before ++ .shutdown :: after) :
    after.length ≤ 5 ∧ ((service loads).Stuck s ↔ s.service = .stopped) ∧
      (s.service = .stopped →
        (s.Clients .closed .closed .closed ↔ ¬ Raised h ∧ .clientFailed ∉ h) ∧
          (Raised h → s.Clients .opened .opened .opened)) := by
  have hinv := lifeInv_of_run hr
  obtain ⟨hs, hsteps⟩ := shuttingDown_run hr before after heq
  exact ⟨(Nat.le_add_right _ _).trans hsteps, stuck_iff_stopped hinv.held hs,
    stopped_clients hinv⟩

/-! ## A body that does not decode -/

def poisoned : List Event :=
  [.poolMade, .redisMade, .taskStarted, .connected, .probed 200, .rejected [], .connectionClosed,
    .probed 503, .shutdown, .taskRaised]

/-- The service as it leaves it. -/
def leftOpen : State where
  service := .stopped
  consumer := .done .raised
  isRabbitmqReady := false
  pgPool := .opened
  redisClient := .opened
  llmClient := .opened

theorem poisoned_run : (service fun _ => .error .other).Run poisoned leftOpen := by
  have hserving := ((System.Run.start (S := service fun _ => .error .other) rfl).next
    (.poolMade rfl)).next (.redisMade rfl)
  have hready := ((hserving.next (.taskStarted rfl)).next (.connected rfl)).next (.probed rfl)
  have hthrown : (service fun _ => .error .other).Run
      [.poolMade, .redisMade, .taskStarted, .connected, .probed 200, .rejected []]
      ⟨.serving, .closing .raised, true, .opened, .opened, .opened⟩ :=
    hready.next (.rejected rfl rfl)
  have hdown := (hthrown.next (.connectionClosed rfl)).next (.probed rfl)
  exact (hdown.next (.shutdown rfl)).next (.taskRaised rfl rfl)

theorem poisoned_readiness : Readiness poisoned := readiness_of_run poisoned_run

theorem poisoned_clients_stay_open : leftOpen.Clients .opened .opened .opened := by
  have heq : poisoned = [.poolMade, .redisMade, .taskStarted, .connected, .probed 200,
      .rejected [], .connectionClosed, .probed 503] ++ .shutdown :: [.taskRaised] := rfl
  have hraised : Raised poisoned :=
    .inr (.inr ⟨⟨.rejected [], by simp [poisoned], rfl⟩, by simp [poisoned]⟩)
  exact ((shutdown_comes_to_end poisoned_run heq).2.2 rfl).2 hraised

end AGame.Brain.Lifecycle
