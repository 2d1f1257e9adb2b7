import AGame.Worker.Model

/-!
# Fetching from football-data.org (`a-game-worker/app/api_client.py`)

A client is what its requests meet with, attempt by attempt. Nothing is assumed
here about what the server answers.
-/

namespace AGame.Worker

/-! ## One GET with retries -/

/-- What one request meets with: a response that `raise_for_status` lets pass,
an HTTP error status, or a transport error. -/
inductive Outcome (α : Type) where
  | response (body : α)
  | httpStatusError (status : ℕ)
  | requestError
deriving DecidableEq, Repr

inductive FetchError where
  | httpStatusError (status : ℕ)
  | requestError
  | unreachable
  /-- `resp.json()["…"]` on an envelope without the key. -/
  | keyError (key : String)
  /-- `Match.model_validate` -/
  | validationError
deriving DecidableEq, Repr

/-- A 4xx that is not 429 is not worth another attempt. -/
def permanent (status : ℕ) : Bool :=
  decide (400 ≤ status ∧ status < 500 ∧ status ≠ 429)

/-- The loop of `_get` over the attempts it has left, counting the requests. -/
def getFrom {α : Type} (outcome : ℕ → Outcome α) (attempts : ℕ) :
    List ℕ → ℕ × Except FetchError α
  | [] => (0, .error .unreachable)
  | attempt :: rest =>
      match outcome attempt with
      | .response body => (1, .ok body)
      | .httpStatusError status =>
          if permanent status ∨ attempt = attempts then (1, .error (.httpStatusError status))
          else
            let (requests, result) := getFrom outcome attempts rest
            (requests + 1, result)
      | .requestError =>
          if attempt = attempts then (1, .error .requestError)
          else
            let (requests, result) := getFrom outcome attempts rest
            (requests + 1, result)

/-- `_get`: the number of requests issued, and the response or the error. -/
def get {α : Type} (outcome : ℕ → Outcome α) (attempts : ℕ) : ℕ × Except FetchError α :=
  getFrom outcome attempts (List.range' 1 attempts)

/-- The default of `attempts`. -/
def defaultAttempts : ℕ := 3

/-- What `_get` returns was a response to one of its attempts. -/
theorem getFrom_ok {α : Type} {outcome : ℕ → Outcome α} {attempts : ℕ} {body : α} :
    ∀ {rest : List ℕ}, (getFrom outcome attempts rest).2 = .ok body →
      ∃ attempt ∈ rest, outcome attempt = .response body := by
  intro rest
  induction rest with
  | nil =>
      intro h
      cases h
  | cons attempt rest ih =>
      intro h
      cases hout : outcome attempt with
      | response body' =>
          simp only [getFrom, hout, Except.ok.injEq] at h
          exact ⟨attempt, List.mem_cons_self, h ▸ hout⟩
      | httpStatusError | requestError =>
          simp only [getFrom, hout] at h
          split_ifs at h
          obtain ⟨a, ha, hbody⟩ := ih h
          exact ⟨a, List.mem_cons_of_mem _ ha, hbody⟩

/-! ## The endpoints -/

/-- An entry of `"matches"`, as `Match.model_validate` finds it. -/
inductive MatchPayload where
  | invalid
  | valid (m : Match)
deriving DecidableEq, Repr

/-- The envelope of a matches response; `none` when it has no `"matches"`. -/
abbrev MatchesEnvelope := Option (List MatchPayload)

/-- The query parameters of `get_matches_per_competition`. -/
structure MatchesParams where
  status : String
  season : ℤ
deriving DecidableEq, Repr

structure Client where
  competitions : ℕ → Outcome (Option (List CompetitionPayload))
  /-- `settings.sports_competitions_matches_endpoint` -/
  competitionMatches : String → MatchesParams → ℕ → Outcome MatchesEnvelope
  /-- `settings.sports_historic_matches_endpoint` -/
  historicMatches : String → ℤ → ℕ → Outcome MatchesEnvelope

def modelValidate : MatchPayload → Except FetchError Match
  | .valid m => .ok m
  | .invalid => .error .validationError

/-- `resp.json()[key]` -/
def envelopeEntry {α : Type} (key : String) : Option α → Except FetchError α
  | some a => .ok a
  | none => .error (.keyError key)

def getAllCompetitions (client : Client) : Except FetchError (List CompetitionPayload) := do
  let resp ← (get client.competitions defaultAttempts).2
  envelopeEntry "competitions" resp

/-- The part of the clock the client reads: `now.year` and `now.month`. -/
structure UtcNow where
  year : ℤ
  month : ℤ
deriving DecidableEq, Repr

def seasonStart (now : UtcNow) : ℤ := if 7 ≤ now.month then now.year else now.year - 1

def matchesParams (now : UtcNow) : MatchesParams where
  status := "SCHEDULED"
  season := seasonStart now

/-- One turn of the loop over the league codes. -/
def getLeagueMatches (client : Client) (params : MatchesParams) (code : String) :
    Except FetchError (List Match) := do
  let resp ← (get (client.competitionMatches code params) defaultAttempts).2
  let leagueMatches ← envelopeEntry "matches" resp
  leagueMatches.mapM modelValidate

def getMatchesFrom (client : Client) (params : MatchesParams) :
    List String → Except FetchError (List Match)
  | [] => .ok []
  | code :: codes => do
      let leagueMatches ← getLeagueMatches client params code
      let rest ← getMatchesFrom client params codes
      return leagueMatches ++ rest

def getMatchesPerCompetition (client : Client) (now : UtcNow) (leagueCodes : List String) :
    Except FetchError (List Match) :=
  getMatchesFrom client (matchesParams now) leagueCodes

/-! ### Historic matches -/

/-- The module-level `seasons`: the four years before this one. -/
def seasons (now : UtcNow) : List ℤ :=
  (List.range 4).map fun i => now.year - ((i : ℤ) + 1)

def getHistoricLeague (client : Client) (season : ℤ) (code : String) :
    Except FetchError (List MatchPayload) := do
  let resp ← (get (client.historicMatches code season) defaultAttempts).2
  envelopeEntry "matches" resp

/-- The entries of one response up to the first that does not validate. -/
def validPrefix : List MatchPayload → List Match × Bool
  | [] => ([], true)
  | .invalid :: _ => ([], false)
  | .valid m :: rest =>
      let (ms, complete) := validPrefix rest
      (m :: ms, complete)

/-- One season over the league codes: what was appended, and whether no
exception stopped it. -/
def getHistoricSeason (client : Client) (season : ℤ) : List String → List Match × Bool
  | [] => ([], true)
  | code :: codes =>
      match getHistoricLeague client season code with
      | .error _ => ([], false)
      | .ok payload =>
          match validPrefix payload with
          | (ms, false) => (ms, false)
          | (ms, true) =>
              let (rest, complete) := getHistoricSeason client season codes
              (ms ++ rest, complete)

/-- An exception ends the loop over the seasons and keeps what was appended. -/
def getHistoricFrom (client : Client) (leagueCodes : List String) : List ℤ → List Match
  | [] => []
  | season :: rest =>
      match getHistoricSeason client season leagueCodes with
      | (ms, false) => ms
      | (ms, true) => ms ++ getHistoricFrom client leagueCodes rest

def getHistoricMatches (client : Client) (now : UtcNow) (leagueCodes : List String) :
    Option (List Match) :=
  match getHistoricFrom client leagueCodes (seasons now) with
  | [] => none
  | m :: ms => some (m :: ms)

end AGame.Worker
