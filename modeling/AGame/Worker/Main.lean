import AGame.Worker.ApiClient
import AGame.Worker.Db

/-!
# The worker's two jobs (`producer.py`, `main.py`, `backfill.py`)

A run changes the server and appends messages to the broker's queue, also when
it ends in an error: whatever was committed or accepted before stays.
-/

namespace AGame.Worker

/-! ## `run_producer` -/

/-- One publish: it returns, which takes the broker's confirm, or it raises
with the message accepted or not. -/
inductive Publish where
  | confirmed
  | raised (accepted : Bool)
deriving DecidableEq, Repr

/-- What one call of `run_producer` meets with: whether the connection and the
queue come up, every publish, and whether closing the connection succeeds. -/
structure Broker where
  connects : Bool
  publish : ℕ → Publish
  closes : Bool

/-- The publish loop: the messages accepted, and whether it ran to its end. -/
def publishFrom (broker : Broker) (n : ℕ) : List ℤ → List ℤ × Bool
  | [] => ([], true)
  | matchId :: matchIds =>
      match broker.publish n with
      | .confirmed =>
          let (sent, complete) := publishFrom broker (n + 1) matchIds
          (matchId :: sent, complete)
      | .raised accepted => (if accepted then [matchId] else [], false)

/-- The messages accepted, and whether the call returned normally. -/
def runProducer (broker : Broker) (matchIds : List ℤ) : List ℤ × Bool :=
  if broker.connects then
    let (sent, complete) := publishFrom broker 0 matchIds
    (sent, complete && broker.closes)
  else ([], false)

/-- A prefix of the batch reaches the broker, and all of it when the call
returns normally. -/
theorem publishFrom_prefix (broker : Broker) (matchIds : List ℤ) : ∀ n : ℕ,
    (publishFrom broker n matchIds).1 <+: matchIds ∧
      ((publishFrom broker n matchIds).2 = true →
        (publishFrom broker n matchIds).1 = matchIds) := by
  induction matchIds with
  | nil => exact fun _ => ⟨List.prefix_rfl, fun _ => rfl⟩
  | cons matchId matchIds ih =>
      intro n
      obtain ⟨hsent, hall⟩ := ih (n + 1)
      cases hpub : broker.publish n with
      | confirmed =>
          simp only [publishFrom, hpub]
          exact ⟨List.cons_prefix_cons.mpr ⟨rfl, hsent⟩, fun h => by rw [hall h]⟩
      | raised accepted =>
          simp only [publishFrom, hpub]
          refine ⟨?_, fun h => Bool.noConfusion h⟩
          cases accepted
          · exact List.nil_prefix
          · exact List.cons_prefix_cons.mpr ⟨rfl, List.nil_prefix⟩

theorem runProducer_prefix (broker : Broker) (matchIds : List ℤ) :
    (runProducer broker matchIds).1 <+: matchIds ∧
      ((runProducer broker matchIds).2 = true →
        (runProducer broker matchIds).1 = matchIds) := by
  obtain ⟨hsent, hall⟩ := publishFrom_prefix broker matchIds 0
  unfold runProducer
  by_cases hconnects : broker.connects
  · simp only [hconnects, if_true]
    exact ⟨hsent, fun h => hall (Bool.and_eq_true_iff.mp h).1⟩
  · simp only [hconnects]
    exact ⟨List.nil_prefix, fun h => Bool.noConfusion h⟩

/-! ## `main` -/

/-- The stores a run writes to. -/
structure Stores where
  pg : Pg
  /-- The broker's queue, oldest message first. -/
  queue : List ℤ

inductive MainError where
  | fetch (e : FetchError)
  | competitions (e : CompetitionError)
  | pg (e : PgError)
  | producer
deriving DecidableEq, Repr

/-- The outbox drain at the end of `main`. -/
def drain (broker : Broker) (s : Stores) : Stores × Except MainError Unit :=
  let events := fetchRabbitEvents s.pg.db
  if events.isEmpty then (s, .ok ())
  else
    match runProducer broker (events.map Prod.snd) with
    | (sent, false) => ({ s with queue := s.queue ++ sent }, .error .producer)
    | (sent, true) =>
        ({ pg := { s.pg with db := deleteRabbitEvent s.pg.db (events.map Prod.fst) }
           queue := s.queue ++ sent }, .ok ())

/-- A drain of pending events queues what the producer got through, and deletes
the events it read when the call returned normally. -/
theorem drain_stores (broker : Broker) {s : Stores} (h : fetchRabbitEvents s.pg.db ≠ []) :
    (drain broker s).1 =
      { pg :=
          if (runProducer broker ((fetchRabbitEvents s.pg.db).map Prod.snd)).2 = true then
            { s.pg with
              db := deleteRabbitEvent s.pg.db ((fetchRabbitEvents s.pg.db).map Prod.fst) }
          else s.pg
        queue :=
          s.queue ++ (runProducer broker ((fetchRabbitEvents s.pg.db).map Prod.snd)).1 } := by
  have hnonempty : (fetchRabbitEvents s.pg.db).isEmpty = false := by
    rwa [List.isEmpty_eq_false_iff]
  simp only [drain, hnonempty, Bool.false_eq_true, if_false]
  cases hproducer : runProducer broker ((fetchRabbitEvents s.pg.db).map Prod.snd) with
  | mk sent returned => cases returned <;> rfl

/-- `main` from the point where the competitions are synced. -/
def syncMatchesAndDrain (client : Client) (now : UtcNow) (broker : Broker) (s : Stores) :
    Stores × Except MainError Unit :=
  match getMatchesPerCompetition client now (getLeagueCodes s.pg.db) with
  | .error e => (s, .error (.fetch e))
  | .ok matches_ =>
      match syncMatchesPerCompetition s.pg matches_ with
      | (pg, .error e) => ({ s with pg := pg }, .error (.pg e))
      | (pg, .ok _) => drain broker { s with pg := pg }

def main (client : Client) (now : UtcNow) (broker : Broker) (s : Stores) :
    Stores × Except MainError Unit :=
  match getAllCompetitions client with
  | .error e => (s, .error (.fetch e))
  | .ok competitions =>
      match syncCompetitions s.pg competitions with
      | (pg, .error e) => ({ s with pg := pg }, .error (.competitions e))
      | (pg, .ok _) => syncMatchesAndDrain client now broker { s with pg := pg }

/-! ## `backfill.main` -/

/-- Every exception is logged and swallowed. -/
def backfillMain (client : Client) (now : UtcNow) (pg : Pg) : Pg :=
  if (getLeagueCodes pg.db).isEmpty then pg
  else
    match getHistoricMatches client now (getLeagueCodes pg.db) with
    | none => pg
    | some matches_ => (syncHistoricMatches pg matches_).1

end AGame.Worker
