import AGame.Base.JsonSchema
import AGame.Brain.Corpus
import AGame.Brain.Redelivery

/-!
# What the tool asks for and what the model accepts (`commentary.py`)

`PREVIEW_TOOL` tells the LLM which object to answer with, and `Commentary` checks the object
that came. The two name their bounds apart from each other, and `Commentary` has a field that
the tool does not ask for: an object that the schema lets through is a preview, unless it
brings a `source_model` that is no string.
-/

namespace AGame.Brain

open Base Engine

/-- The `properties`, without the descriptions. -/
def previewProperties : List (String × Json.Schema) :=
  [("text", .string (some 40) (some 600) none),
    ("suggested_bet", .string none none (some SUGGESTED_BETS)),
    ("suggested_bet_reason", .string (some 20) (some 200) none)]

/-- The `parameters` -/
def PREVIEW_TOOL : Json.Schema :=
  .object previewProperties ["text", "suggested_bet", "suggested_bet_reason"]

/-! ## The fields of an object -/

/-- A field of the model among the members. -/
def jsonField (members : List (String × Json.Value)) (key : String) : JsonField :=
  match Json.member members key with
  | none => .absent
  | some (.str s) => .str s
  -- in JSON nothing else is made a string
  | some _ => .other

/-- What the members are to the model; it has no use for the other ones. -/
def rawObject (members : List (String × Json.Value)) : RawCommentary :=
  ⟨jsonField members "text", jsonField members "suggested_bet",
    jsonField members "suggested_bet_reason", jsonField members "source_model"⟩

def isScalar : Json.Value → Bool
  | .null | .bool _ | .str _ => true
  | .int n => isBigint n
  | .float _ | .arr _ | .obj _ => false

/-- No key comes twice, and nothing is nested. -/
structure Flat (members : List (String × Json.Value)) : Prop where
  keys : (members.map Prod.fst).Nodup
  scalars : ∀ e ∈ members, isScalar e.2 = true

/-- Of pydantic's JSON reader: a flat object is read as the grammar of JSON has it. -/
def ReadsFlat (parse : PyVal → Parsed) : Prop :=
  ∀ (text : List Char) (members : List (String × Json.Value)), Flat members →
    Json.loads text = some (.obj members) →
      parse (.str (String.ofList text)) = .object (rawObject members)

/-- The object has what the tool asks for. -/
structure Answered (members : List (String × Json.Value)) (text bet reason : String) : Prop where
  hasText : Json.member members "text" = some (.str text)
  textLength : 40 ≤ text.length ∧ text.length ≤ 600
  hasBet : Json.member members "suggested_bet" = some (.str bet)
  known : bet ∈ SUGGESTED_BETS
  hasReason : Json.member members "suggested_bet_reason" = some (.str reason)
  reasonLength : 20 ≤ reason.length ∧ reason.length ≤ 200

/-- The schema says no more and no less than that. -/
theorem accepts_previewTool {members : List (String × Json.Value)} :
    PREVIEW_TOOL.accepts (.obj members) = true ↔
      ∃ text bet reason, Answered members text bet reason := by
  have hrequired : PREVIEW_TOOL =
      .object previewProperties (previewProperties.map Prod.fst) := rfl
  rw [hrequired, Json.Schema.accepts_all_required]
  simp only [previewProperties, List.forall_mem_cons, Json.Schema.accepts_string,
    Json.Schema.fits, Option.all_some, Option.all_none, Bool.and_true, Bool.true_and,
    Bool.and_eq_true, decide_eq_true_eq, List.contains_iff_mem]
  constructor
  · rintro ⟨⟨_, htext, text, rfl, htextLength⟩, ⟨_, hbet, bet, rfl, hknown⟩,
      ⟨_, hreason, reason, rfl, hreasonLength⟩, -⟩
    exact ⟨text, bet, reason, htext, htextLength, hbet, hknown, hreason, hreasonLength⟩
  · rintro ⟨text, bet, reason, h⟩
    exact ⟨⟨_, h.hasText, text, rfl, h.textLength⟩, ⟨_, h.hasBet, bet, rfl, h.known⟩,
      ⟨_, h.hasReason, reason, rfl, h.reasonLength⟩, fun _ hnone => absurd hnone List.not_mem_nil⟩

/-! ## The model -/

theorem modelValidate_answered {members : List (String × Json.Value)} {text bet reason : String}
    (h : Answered members text bet reason) (hsource : jsonField members "source_model" ≠ .other) :
    ∃ name, modelValidate (rawObject members) = some ⟨text, bet, reason, .str name⟩ := by
  obtain ⟨name, hname⟩ : ∃ name, strField "" (jsonField members "source_model") = some name := by
    cases hfield : jsonField members "source_model" with
    | absent => exact ⟨"", rfl⟩
    | str name => exact ⟨name, rfl⟩
    | other => exact absurd hfield hsource
  have hmarket : knownMarket bet = true := by
    rw [knownMarket, List.contains_iff_mem.mpr h.known, Bool.or_true]
  have htext : jsonField members "text" = .str text := by rw [jsonField, h.hasText]
  have hbet : jsonField members "suggested_bet" = .str bet := by rw [jsonField, h.hasBet]
  have hreason : jsonField members "suggested_bet_reason" = .str reason := by
    rw [jsonField, h.hasReason]
  refine ⟨name, ?_⟩
  rw [modelValidate, rawObject, htext, hbet, hreason, hname]
  exact if_pos ⟨h.textLength.1, h.textLength.2, h.reasonLength.2, hmarket⟩

theorem modelValidate_otherSource {members : List (String × Json.Value)}
    (hsource : jsonField members "source_model" = .other) :
    modelValidate (rawObject members) = none := by
  rw [modelValidate, rawObject, hsource]
  split
  · simp_all [strField]
  · rfl

/-! ## The reply -/

/-- What the gateway answers with when the LLM calls the tool. -/
structure ToolAnswer where
  modelHeader : PyVal
  model : PyVal
  arguments : List Char
  /-- The calls behind the first one. -/
  moreCalls : List PyVal
  /-- `prompt_tokens` and `completion_tokens` -/
  usage : Option (ℤ × ℤ)

/-- The first call -/
def ToolAnswer.toolCall (a : ToolAnswer) : PyVal :=
  let function := PyVal.obj
    [("name", .str "emit_preview"), ("arguments", .str (String.ofList a.arguments))]
  .obj [("type", .str "function"), ("function", function)]

def ToolAnswer.reply (a : ToolAnswer) : Reply where
  modelHeader := a.modelHeader
  response :=
    let message := PyVal.obj [("tool_calls", .list (a.toolCall :: a.moreCalls))]
    let usage := a.usage.elim PyVal.none fun u =>
      .obj [("prompt_tokens", .int u.1), ("completion_tokens", .int u.2)]
    .obj [("choices", .list [.obj [("message", message)]]), ("model", a.model), ("usage", usage)]

/-- `raw.headers.get(MODEL_HEADER) or response.model` -/
def ToolAnswer.sourceModel (a : ToolAnswer) : PyVal :=
  if a.modelHeader.truthy then a.modelHeader else a.model

/-- The gateway that answers so to every prompt. -/
def ToolAnswer.gateway (a : ToolAnswer) (parse : PyVal → Parsed) : Gateway :=
  ⟨fun _ => .ok a.reply, parse⟩

theorem ToolAnswer.logUsage_reply (a : ToolAnswer) : logUsage a.reply.response = .ok () := by
  cases husage : a.usage with
  | none =>
      have hattr : a.reply.response.attr "usage" = .ok .none := by
        rw [ToolAnswer.reply, husage]
        rfl
      rw [logUsage, hattr]
      rfl
  | some u =>
      have hattr : a.reply.response.attr "usage" =
          .ok (.obj [("prompt_tokens", .int u.1), ("completion_tokens", .int u.2)]) := by
        rw [ToolAnswer.reply, husage]
        rfl
      rw [logUsage, hattr]
      rfl

/-- What becomes of a preview that passed the checks. -/
def ToolAnswer.signed (a : ToolAnswer) (c : Commentary) :
    Except PyException (Option Commentary) := do
  let sourceModel ← if a.modelHeader.truthy then .ok a.modelHeader else .ok a.model
  let _ ← logUsage a.reply.response
  return some { c with sourceModel := sourceModel }

theorem writePreview_tool {parse : PyVal → Parsed} {a : ToolAnswer} {raw : RawCommentary}
    (hparse : parse (.str (String.ofList a.arguments)) = .object raw) (prompt : UserPrompt) :
    writePreview (a.gateway parse) prompt =
      .ok ((modelValidate raw).map fun c => { c with sourceModel := a.sourceModel }) := by
  have hread : modelValidateJson parse (.str (String.ofList a.arguments)) =
      .ok (modelValidate raw) := by
    rw [modelValidateJson, hparse]
  -- the reply is concrete down to its arguments, so the walk there computes
  obtain ⟨next, hwalk, hnone, hsome⟩ : ∃ next : Option Commentary → _,
      writePreview (a.gateway parse) prompt =
        (modelValidateJson parse (.str (String.ofList a.arguments)) >>= next) ∧
      next none = .ok none ∧ ∀ c, next (some c) = a.signed c :=
    ⟨_, rfl, rfl, fun _ => rfl⟩
  rw [hwalk, hread, ok_bind]
  cases modelValidate raw with
  | none => exact hnone
  | some c =>
      rw [hsome, ToolAnswer.signed, ToolAnswer.sourceModel, a.logUsage_reply]
      cases a.modelHeader.truthy <;> rfl

/-- A flat object that the schema accepts is the preview, unless it brings a `source_model`
that is no string. -/
theorem writePreview_answered {parse : PyVal → Parsed} (hparse : ReadsFlat parse) {a : ToolAnswer}
    {members : List (String × Json.Value)} (hread : Json.loads a.arguments = some (.obj members))
    (hflat : Flat members) {text bet reason : String} (h : Answered members text bet reason)
    (prompt : UserPrompt) :
    writePreview (a.gateway parse) prompt =
      .ok (if jsonField members "source_model" = .other then none
        else some ⟨text, bet, reason, a.sourceModel⟩) := by
  rw [writePreview_tool (hparse a.arguments members hflat hread)]
  by_cases hsource : jsonField members "source_model" = .other
  · rw [if_pos hsource, modelValidate_otherSource hsource]
    rfl
  · obtain ⟨name, hvalid⟩ := modelValidate_answered h hsource
    rw [if_neg hsource, hvalid]
    rfl

theorem readsFlat_readFields : ReadsFlat readFields := by
  intro text members hflat hloads
  have hfield (key : String) : members.lookup key = Json.member members key :=
    (Dict.lookup_reverse hflat.keys key).symm
  rw [readFields, String.toList_ofList, hloads]
  simp only [hfield]
  rfl

end AGame.Brain
