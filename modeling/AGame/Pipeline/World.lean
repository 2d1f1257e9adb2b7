import AGame.Api.Main
import AGame.Base.History
import AGame.Brain.Handlers
import AGame.Worker.Main

/-!
# The pipeline

The worker's runs, the brain's jobs and the API's requests, interleaved. Each
of them is a program counter beside the stores they share; a step is what
happens between two points at which another party can get in: one statement,
one transaction, one publish, one call of Redis. Transactions are atomic and
take effect at their commit. A run may die, a job may raise, a pod may be
killed, a request may fail and a cache entry may expire at any moment.

Events name what a step did and, where a step reads the database, carry what
it read. Any number of runs, jobs and requests take part: `W`, `B` and `A` are
arbitrary types.
-/

namespace AGame.Pipeline

open Std (ExtTreeMap)
open Base Engine Brain

/-- The stores and the broker's queue. -/
structure Shared where
  pg : Worker.Pg
  /-- Messages ready for delivery. -/
  queue : List ℤ
  cache : Cache

/-- The shared state after a transaction that leaves `db`. -/
def Shared.setDb (sh : Shared) (db : Db) : Shared :=
  { sh with pg := { sh.pg with db := db } }

@[simp] theorem Shared.setDb_db (sh : Shared) (db : Db) : (sh.setDb db).pg.db = db := rfl

@[simp] theorem Shared.setDb_seq (sh : Shared) (db : Db) :
    (sh.setDb db).pg.rabbitEventSeq = sh.pg.rabbitEventSeq := rfl

@[simp] theorem Shared.setDb_queue (sh : Shared) (db : Db) :
    (sh.setDb db).queue = sh.queue := rfl

@[simp] theorem Shared.setDb_cache (sh : Shared) (db : Db) :
    (sh.setDb db).cache = sh.cache := rfl

/-! ## A run of the worker -/

inductive WorkerPc where
  | idle
  /-- The competitions are synced. -/
  | fetching
  | syncing (todo : List Worker.Match)
  /-- Inside a match transaction that has taken an id for its event. -/
  | reserved (eventId : ℤ) (m : Worker.Match) (todo : List Worker.Match)
  /-- In `run_producer`: events published, events to publish, and whether the
  broker has the message being published. -/
  | publishing (done rest : List (ℤ × ℤ)) (accepted : Bool)

inductive WorkerEvent where
  | competitionsSynced
  | fetched (matches_ : List Worker.Match)
  | reserved (eventId : ℤ)
  /-- A match transaction committed a gated change and its event. -/
  | changed (eventId matchId : ℤ)
  /-- A match transaction committed and its gate stayed shut. -/
  | unchanged (matchId : ℤ)
  | outboxRead
  | outboxEmpty
  /-- The broker has a message. -/
  | accepted (matchId : ℤ)
  /-- `publish` returned. -/
  | confirmed (matchId : ℤ)
  /-- Events dropped from the outbox. -/
  | deleted (ids : List ℤ)
  | died

inductive WorkerStep : Shared → WorkerPc → WorkerEvent → Shared → WorkerPc → Prop
  | competitionsSynced {sh : Shared} {pg : Worker.Pg} {n : ℕ}
      (competitions : List Worker.CompetitionPayload) :
      Worker.syncCompetitions sh.pg competitions = (pg, .ok n) →
      WorkerStep sh .idle .competitionsSynced { sh with pg := pg } .fetching
  | fetched {sh : Shared} (matches_ : List Worker.Match) :
      WorkerStep sh .fetching (.fetched matches_) sh (.syncing matches_)
  | reserved {sh : Shared} {m : Worker.Match} {todo : List Worker.Match} :
      WorkerStep sh (.syncing (m :: todo)) (.reserved sh.pg.rabbitEventSeq)
        { sh with pg := { sh.pg with rabbitEventSeq := sh.pg.rabbitEventSeq + 1 } }
        (.reserved sh.pg.rabbitEventSeq m todo)
  | changed {sh : Shared} {eventId matchId : ℤ} {m : Worker.Match}
      {todo : List Worker.Match} {db : Db} :
      Worker.syncMatch eventId sh.pg.db m = .ok (db, some matchId) →
      WorkerStep sh (.reserved eventId m todo) (.changed eventId matchId) (sh.setDb db)
        (.syncing todo)
  | unchanged {sh : Shared} {eventId : ℤ} {m : Worker.Match} {todo : List Worker.Match}
      {db : Db} :
      Worker.syncMatch eventId sh.pg.db m = .ok (db, none) →
      WorkerStep sh (.syncing (m :: todo)) (.unchanged m.id) (sh.setDb db) (.syncing todo)
  | outboxRead {sh : Shared} :
      Worker.fetchRabbitEvents sh.pg.db ≠ [] →
      WorkerStep sh (.syncing []) .outboxRead sh
        (.publishing [] (Worker.fetchRabbitEvents sh.pg.db) false)
  | outboxEmpty {sh : Shared} :
      Worker.fetchRabbitEvents sh.pg.db = [] →
      WorkerStep sh (.syncing []) .outboxEmpty sh .idle
  | accepted {sh : Shared} {done rest : List (ℤ × ℤ)} {event : ℤ × ℤ} {had : Bool} :
      WorkerStep sh (.publishing done (event :: rest) had) (.accepted event.2)
        { sh with queue := sh.queue ++ [event.2] } (.publishing done (event :: rest) true)
  | confirmed {sh : Shared} {done rest : List (ℤ × ℤ)} {event : ℤ × ℤ} :
      WorkerStep sh (.publishing done (event :: rest) true) (.confirmed event.2) sh
        (.publishing (done ++ [event]) rest false)
  | deleted {sh : Shared} {done : List (ℤ × ℤ)} {had : Bool} :
      WorkerStep sh (.publishing done [] had) (.deleted (done.map Prod.fst))
        (sh.setDb (Worker.deleteRabbitEvent sh.pg.db (done.map Prod.fst))) .idle
  | died {sh : Shared} {pc : WorkerPc} : WorkerStep sh pc .died sh .idle

/-! ## A consumer of the brain -/

inductive BrainPc where
  | waiting
  | delivered (m : ℤ)
  | matched (m : ℤ) (fixture : Match)
  | trained (m : ℤ) (fixture : Match) (history : List Elo.MatchResult) (now : Instant)
  /-- Before the transaction. -/
  | previewed (m : ℤ) (fixture : Match) (values : PredictionValues)
      (preview : Option Commentary)
  /-- Between the commit and the cache set. -/
  | committed (m : ℤ) (text : String)
  /-- `process_job` has returned; the message is not acknowledged yet. -/
  | finished (m : ℤ)

/-- The message being processed. -/
def BrainPc.message : BrainPc → Option ℤ
  | .waiting => none
  | .delivered m => some m
  | .matched m _ => some m
  | .trained m _ _ _ => some m
  | .previewed m _ _ _ => some m
  | .committed m _ => some m
  | .finished m => some m

/-- The job has not reached its commit. -/
def BrainPc.beforeCommit : BrainPc → Bool
  | .delivered _ | .matched _ _ | .trained _ _ _ _ | .previewed _ _ _ _ => true
  | .waiting | .committed _ _ | .finished _ => false

/-- Where a job continues after its commit. -/
def afterCommit (m : ℤ) : Option Commentary → BrainPc
  | none => .finished m
  | some c => .committed m c.text

inductive BrainEvent where
  | delivered (m : ℤ)
  /-- The match is not in the table that was read. -/
  | absent (m : ℤ) (db : Db)
  | matched (m : ℤ) (db : Db) (fixture : Match)
  | trained (m : ℤ) (db : Db) (fixture : Match) (now : Instant)
  | previewed (m : ℤ)
  /-- The transaction committed. -/
  | stored (m : ℤ) (values : PredictionValues) (preview : Option Commentary)
  | warmed (m : ℤ) (text : String)
  | warmFailed (m : ℤ)
  /-- An exception before the commit, swallowed by the broad `except`. -/
  | raised (m : ℤ)
  /-- The message left the queue: `message.process()` ended normally. -/
  | settled (m : ℤ)
  /-- The pod died; the broker queues the message again. -/
  | crashed (m : ℤ)
  /-- The consumer task was cancelled; the message is rejected, not requeued. -/
  | cancelled (m : ℤ)

/-- The next call of the job raises, in some environment of `process_job`. -/
inductive Raises (sh : Shared) : BrainPc → Prop
  | fetchMatch {m : ℤ} {env : JobEnv} {e : JobError} :
      statement env .fetchMatch = .error e → Raises sh (.delivered m)
  | fetchHistory {m : ℤ} {fixture : Match} {env : JobEnv} {e : JobError} :
      statement env .fetchHistory = .error e → Raises sh (.matched m fixture)
  | preview {m : ℤ} {fixture : Match} {history : List Elo.MatchResult} {now : Instant}
      {gateway : Gateway} {e : PyException} :
      writePreview gateway (userPrompt fixture (numbers ℝ history now fixture).probabilities) =
        .error e →
      Raises sh (.trained m fixture history now)
  | store {m : ℤ} {fixture : Match} {values : PredictionValues} {preview : Option Commentary}
      {env : JobEnv} {e : JobError} :
      storeRows env sh.pg.db fixture.id values preview = .error e →
      Raises sh (.previewed m fixture values preview)

inductive BrainStep : Shared → BrainPc → BrainEvent → Shared → BrainPc → Prop
  | delivered {sh : Shared} {pre post : List ℤ} {m : ℤ} :
      sh.queue = pre ++ m :: post →
      BrainStep sh .waiting (.delivered m) { sh with queue := pre ++ post } (.delivered m)
  | absent {sh : Shared} {m : ℤ} :
      fetchMatchViaId sh.pg.db m = none →
      BrainStep sh (.delivered m) (.absent m sh.pg.db) sh (.finished m)
  | matched {sh : Shared} {m : ℤ} {fixture : Match} :
      fetchMatchViaId sh.pg.db m = some fixture →
      BrainStep sh (.delivered m) (.matched m sh.pg.db fixture) sh (.matched m fixture)
  | trained {sh : Shared} {m : ℤ} {fixture : Match} (now : Instant) :
      BrainStep sh (.matched m fixture) (.trained m sh.pg.db fixture now) sh
        (.trained m fixture (fetchMatchHistory sh.pg.db fixture.competitionId none) now)
  | previewed {sh : Shared} {m : ℤ} {fixture : Match} {history : List Elo.MatchResult}
      {now : Instant} {preview : Option Commentary} (gateway : Gateway) :
      writePreview gateway (userPrompt fixture (numbers ℝ history now fixture).probabilities) =
        .ok preview →
      BrainStep sh (.trained m fixture history now) (.previewed m) sh
        (.previewed m fixture (engineRow ℝ history now fixture) preview)
  | stored {sh : Shared} {m : ℤ} {fixture : Match} {values : PredictionValues}
      {preview : Option Commentary} {db : Db} :
      writeRows sh.pg.db fixture.id values preview = .ok db →
      BrainStep sh (.previewed m fixture values preview) (.stored m values preview)
        (sh.setDb db) (afterCommit m preview)
  | warmed {sh : Shared} {m : ℤ} {text : String} :
      BrainStep sh (.committed m text) (.warmed m text)
        { sh with cache := sh.cache.set m text } (.finished m)
  | warmFailed {sh : Shared} {m : ℤ} {text : String} :
      BrainStep sh (.committed m text) (.warmFailed m) sh (.finished m)
  | raised {sh : Shared} {pc : BrainPc} {m : ℤ} :
      pc.message = some m → Raises sh pc →
      BrainStep sh pc (.raised m) sh (.finished m)
  | settled {sh : Shared} {m : ℤ} :
      BrainStep sh (.finished m) (.settled m) sh .waiting
  | crashed {sh : Shared} {pc : BrainPc} {m : ℤ} :
      pc.message = some m →
      BrainStep sh pc (.crashed m) { sh with queue := m :: sh.queue } .waiting
  | cancelled {sh : Shared} {pc : BrainPc} {m : ℤ} :
      pc.message = some m →
      BrainStep sh pc (.cancelled m) sh .waiting

theorem Raises.beforeCommit {sh : Shared} {pc : BrainPc} (h : Raises sh pc) :
    pc.beforeCommit = true := by
  cases h <;> rfl

/-- Any call before the commit may raise. -/
theorem raises_of_beforeCommit (sh : Shared) {pc : BrainPc} (h : pc.beforeCommit = true) :
    Raises sh pc := by
  let env : JobEnv := ⟨0, ⟨fun _ => .error .other, fun _ => .raised⟩, fun _ => true, .done⟩
  cases pc with
  | delivered => exact .fetchMatch (rfl : statement env .fetchMatch = _)
  | matched => exact .fetchHistory (rfl : statement env .fetchHistory = _)
  | trained => exact .preview (rfl : writePreview env.gateway _ = _)
  | previewed => exact .store (rfl : storeRows env _ _ _ _ = _)
  | waiting | committed | finished => cases h

/-! ## A request to the API -/

inductive RequestPc where
  | idle
  | started (m : ℤ)
  /-- The cache had no entry. -/
  | missed (m : ℤ)
  /-- Postgres has answered; the cache set is next. -/
  | backfilling (m : ℤ) (text : String)
  | answering (m : ℤ) (text : Option String)

inductive RequestEvent where
  | started (m : ℤ)
  | hit (m : ℤ) (text : String)
  | missed (m : ℤ)
  | absent (m : ℤ)
  | read (m : ℤ) (text : String)
  | backfilled (m : ℤ) (text : String)
  /-- No Redis client is configured: Postgres alone answers. -/
  | direct (m : ℤ) (text : Option String)
  /-- The response: the text, or 404. -/
  | answered (m : ℤ) (text : Option String)
  | failed

inductive RequestStep : Shared → RequestPc → RequestEvent → Shared → RequestPc → Prop
  | started {sh : Shared} (m : ℤ) : RequestStep sh .idle (.started m) sh (.started m)
  | hit {sh : Shared} {m : ℤ} {text : String} :
      sh.cache.get m = some text →
      RequestStep sh (.started m) (.hit m text) sh (.answering m (some text))
  | missed {sh : Shared} {m : ℤ} :
      sh.cache.get m = none →
      RequestStep sh (.started m) (.missed m) sh (.missed m)
  | absent {sh : Shared} {m : ℤ} :
      Api.getPrediction sh.pg.db m = .ok none →
      RequestStep sh (.missed m) (.absent m) sh (.answering m none)
  | read {sh : Shared} {m : ℤ} {text : String} :
      Api.getPrediction sh.pg.db m = .ok (some text) →
      RequestStep sh (.missed m) (.read m text) sh (.backfilling m text)
  | backfilled {sh : Shared} {m : ℤ} {text : String} :
      RequestStep sh (.backfilling m text) (.backfilled m text)
        { sh with cache := sh.cache.set m text } (.answering m (some text))
  | direct {sh : Shared} {m : ℤ} {text : Option String} :
      Api.getPrediction sh.pg.db m = .ok text →
      RequestStep sh (.started m) (.direct m text) sh (.answering m text)
  | answered {sh : Shared} {m : ℤ} {text : Option String} :
      RequestStep sh (.answering m text) (.answered m text) sh .idle
  | failed {sh : Shared} {pc : RequestPc} : RequestStep sh pc .failed sh .idle

/-! ## The rest of the world -/

inductive EnvEvent where
  /-- A backfill committed. -/
  | backfill (matches_ : List Worker.Match)
  | expired (m : ℤ)

inductive EnvStep : Shared → EnvEvent → Shared → Prop
  | backfill {sh : Shared} {pg : Worker.Pg} {matches_ : List Worker.Match} {n : ℕ} :
      Worker.syncHistoricMatches sh.pg matches_ = (pg, .ok n) →
      EnvStep sh (.backfill matches_) { sh with pg := pg }
  | expired {sh : Shared} (m : ℤ) :
      EnvStep sh (.expired m) { sh with cache := sh.cache.expire m }

/-! ## All together -/

structure World (W B A : Type) where
  shared : Shared
  workers : W → WorkerPc
  brains : B → BrainPc
  requests : A → RequestPc

inductive Event (W B A : Type) where
  | worker (w : W) (e : WorkerEvent)
  | brain (b : B) (e : BrainEvent)
  | request (r : A) (e : RequestEvent)
  | env (e : EnvEvent)

variable {W B A : Type} [DecidableEq W] [DecidableEq B] [DecidableEq A]

inductive WorldStep : World W B A → Event W B A → World W B A → Prop
  | worker {s : World W B A} {w : W} {e : WorkerEvent} {sh : Shared} {pc : WorkerPc} :
      WorkerStep s.shared (s.workers w) e sh pc →
      WorldStep s (.worker w e)
        { s with shared := sh, workers := Function.update s.workers w pc }
  | brain {s : World W B A} {b : B} {e : BrainEvent} {sh : Shared} {pc : BrainPc} :
      BrainStep s.shared (s.brains b) e sh pc →
      WorldStep s (.brain b e) { s with shared := sh, brains := Function.update s.brains b pc }
  | request {s : World W B A} {r : A} {e : RequestEvent} {sh : Shared} {pc : RequestPc} :
      RequestStep s.shared (s.requests r) e sh pc →
      WorldStep s (.request r e)
        { s with shared := sh, requests := Function.update s.requests r pc }
  | env {s : World W B A} {e : EnvEvent} {sh : Shared} :
      EnvStep s.shared e sh → WorldStep s (.env e) { s with shared := sh }

/-- Nobody is at work, nothing has been predicted or cached and the outbox is
empty. The facts and the messages in the queue are arbitrary. -/
structure Initial (s : World W B A) : Prop where
  workers : ∀ w, s.workers w = .idle
  brains : ∀ b, s.brains b = .waiting
  requests : ∀ r, s.requests r = .idle
  outbox : s.shared.pg.db.rabbitEventRows = ∅
  predictions : s.shared.pg.db.predictionRows = ∅
  commentaries : s.shared.pg.db.commentaryRows = ∅
  cache : s.shared.cache = ∅

/-- The pipeline as a labelled system. -/
def pipeline (W B A : Type) [DecidableEq W] [DecidableEq B] [DecidableEq A] :
    System (World W B A) (Event W B A) where
  init := Initial
  step := WorldStep

end AGame.Pipeline
