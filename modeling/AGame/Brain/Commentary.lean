import AGame.Base.Result
import AGame.Brain.Db

/-!
# Previews (`a-game-brain/app/commentary.py`)

The gateway's answer is an untyped Python value, and `write_preview` walks it
attribute by attribute. Each step of the walk may raise; only the call itself
is guarded, and only against `OpenAIError`. Reading the tool call's JSON is
pydantic's and stays a parameter; the checks of the `Commentary` model on the
fields it finds are here.
-/

namespace AGame.Brain

open Base Engine

/-! ## The prompt -/

/-- The facts and numbers of `_user_prompt`, as it prints them: percentages
without decimals, expected goals with two. -/
structure UserPrompt where
  homeTeam : String
  awayTeam : String
  kickoff : Instant
  matchday : Option ℤ
  homeWin : ℤ
  draw : ℤ
  awayWin : ℤ
  over25 : ℤ
  under25 : ℤ
  btts : ℤ
  bttsNo : ℤ
  expectedHome : ℤ
  expectedAway : ℤ
  /-- Home goals, away goals and the percentage of each listed scoreline. -/
  scores : List (ℕ × ℕ × ℤ)
deriving DecidableEq, Repr

section

variable {R : Type} [Field R] [LinearOrder R] [FloorRing R]

/-- The format `.0%` -/
def percent (x : R) : ℤ := roundDecimal 2 x

def userPrompt (m : Match) (probabilities : Poisson.ScoreProbabilities R) : UserPrompt where
  homeTeam := m.homeTeam
  awayTeam := m.awayTeam
  kickoff := m.utcDate
  matchday := m.matchday
  homeWin := percent probabilities.probHome
  draw := percent probabilities.probDraw
  awayWin := percent probabilities.probAway
  over25 := percent probabilities.over25
  under25 := percent (1 - probabilities.over25)
  btts := percent probabilities.btts
  bttsNo := percent (1 - probabilities.btts)
  expectedHome := roundDecimal 2 probabilities.lambdaHome
  expectedAway := roundDecimal 2 probabilities.lambdaAway
  scores := probabilities.mostLikelyScores.map fun s =>
    (s.home, s.away, percent ((s.prob : R) / 10000))

end

/-! ## Python values -/

inductive PyException where
  | openAIError
  | attributeError
  | indexError
  | typeError
  /-- Any other `Exception`. -/
  | other
deriving DecidableEq, Repr

/-- `value.name` -/
def PyVal.attr (value : PyVal) (name : String) : Except PyException PyVal :=
  match value with
  | .obj attributes =>
      match attributes.lookup name with
      | .some v => .ok v
      | .none => .error .attributeError
  | _ => .error .attributeError

/-- `bool(value)` -/
def PyVal.truthy : PyVal → Bool
  | .none => false
  | .bool b => b
  | .int n => n ≠ 0
  | .float literal => (literal.val.takeWhile fun c => c != 'e' && c != 'E').any
      fun c => c != '0' && c != '.' && c != '-'
  | .str s => s ≠ ""
  | .list items => !items.isEmpty
  | .dict items => !items.isEmpty
  | .obj _ => true
  | .other truthy => truthy

/-- `value[0]` -/
def PyVal.first : PyVal → Except PyException PyVal
  | .list [] => .error .indexError
  | .list (v :: _) => .ok v
  | .str s =>
      match s.toList with
      | [] => .error .indexError
      | c :: _ => .ok (.str (String.singleton c))
  | .dict _ => .error .other
  | _ => .error .typeError

def PyVal.isStr (value : PyVal) (s : String) : Bool :=
  match value with
  | .str s' => s' = s
  | _ => false

/-! ## The `Commentary` model -/

def SUGGESTED_BETS : List String :=
  ["Home win", "Draw", "Away win", "Over 2.5 goals", "Under 2.5 goals",
    "Both teams to score", "Both teams to score - no"]

/-- A field of the JSON object. -/
inductive JsonField where
  | absent
  | str (s : String)
  | other
deriving DecidableEq, Repr

/-- The fields of the model in the JSON of a tool call. -/
structure RawCommentary where
  text : JsonField
  suggestedBet : JsonField
  suggestedBetReason : JsonField
  sourceModel : JsonField
deriving DecidableEq, Repr

/-- Validated preview text. `source_model` is assigned after validation, so it
may be anything. -/
structure Commentary where
  text : String
  suggestedBet : String
  suggestedBetReason : String
  sourceModel : PyVal

/-- A `str` field with a default. -/
def strField (default_ : String) : JsonField → Option String
  | .absent => some default_
  | .str s => some s
  | .other => none

/-- `known_market` -/
def knownMarket (value : String) : Bool := value = "" || SUGGESTED_BETS.contains value

/-- The field checks of `Commentary`; `none` is a `ValidationError`. -/
def modelValidate (raw : RawCommentary) : Option Commentary :=
  match raw.text, strField "" raw.suggestedBet, strField "" raw.suggestedBetReason,
      strField "" raw.sourceModel with
  | .str text, some bet, some reason, some sourceModel =>
      if 40 ≤ text.length ∧ text.length ≤ 600 ∧ reason.length ≤ 200 ∧
          knownMarket bet = true then
        some ⟨text, bet, reason, .str sourceModel⟩
      else none
  | _, _, _, _ => none

/-- What pydantic makes of `arguments` before the fields are checked. -/
inductive Parsed where
  /-- Not a JSON object: a `ValidationError`. -/
  | notAnObject
  /-- An exception that is not a `ValidationError`. -/
  | raised
  | object (raw : RawCommentary)
deriving DecidableEq, Repr

/-- `Commentary.model_validate_json`; `none` is a `ValidationError`. -/
def modelValidateJson (parse : PyVal → Parsed) (arguments : PyVal) :
    Except PyException (Option Commentary) :=
  match parse arguments with
  | .notAnObject => .ok none
  | .raised => .error .other
  | .object raw => .ok (modelValidate raw)

/-! ## `write_preview` -/

/-- What comes back from the gateway: the header that names the model, and the
parsed response. -/
structure Reply where
  modelHeader : PyVal
  response : PyVal

/-- The LLM gateway and the JSON reader behind it. -/
structure Gateway where
  /-- `create(...)` and `raw.parse()` -/
  complete : UserPrompt → Except PyException Reply
  parse : PyVal → Parsed

/-- `log.info` reads both token counts when the response has a `usage`. -/
def logUsage (response : PyVal) : Except PyException Unit := do
  let usage ← response.attr "usage"
  if usage.truthy then
    let _ ← usage.attr "prompt_tokens"
    let _ ← usage.attr "completion_tokens"
    return ()
  else return ()

/-- Everything after `raw.parse()`. -/
def readReply (parse : PyVal → Parsed) (reply : Reply) :
    Except PyException (Option Commentary) := do
  let choices ← reply.response.attr "choices"
  if !choices.truthy then return none
  else
    let choice ← choices.first
    let message ← choice.attr "message"
    let toolCalls ← message.attr "tool_calls"
    if !toolCalls.truthy then return none
    else
      let toolCall ← toolCalls.first
      let type ← toolCall.attr "type"
      if !type.isStr "function" then return none
      else
        let function ← toolCall.attr "function"
        let arguments ← function.attr "arguments"
        match ← modelValidateJson parse arguments with
        | none => return none
        | some commentary =>
            let sourceModel ←
              if reply.modelHeader.truthy then .ok reply.modelHeader
              else reply.response.attr "model"
            let _ ← logUsage reply.response
            return some { commentary with sourceModel := sourceModel }

def writePreview (gateway : Gateway) (prompt : UserPrompt) :
    Except PyException (Option Commentary) :=
  match gateway.complete prompt with
  | .error .openAIError => .ok none
  | .error e => .error e
  | .ok reply => readReply gateway.parse reply

/-- What Postgres takes from a preview: four strings without NUL. -/
def Commentary.storable (c : Commentary) : Bool :=
  (textArgument c.sourceModel).isOk && (textArgument (.str c.text)).isOk &&
  (textArgument (.str c.suggestedBet)).isOk && (textArgument (.str c.suggestedBetReason)).isOk

end AGame.Brain
