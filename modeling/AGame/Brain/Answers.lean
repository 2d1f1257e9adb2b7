import AGame.Base.Dict
import AGame.Brain.Commentary

/-!
# Answers of the gateway that spare the numbers

`write_preview` guards the call against `OpenAIError` and the JSON against `ValidationError`,
and nothing else. An answer spares the numbers (`Spares`) when the walk over it comes to one
of the returns of `None`, or to a preview that the columns of `a_game.commentary` can hold.
-/

namespace AGame.Brain

open Base Engine

/-- `write_preview` returned, and Postgres can hold what it returned. -/
def previewStorable : Except PyException (Option Commentary) → Bool
  | .error _ => false
  | .ok none => true
  | .ok (some c) => c.storable

/-! ## What the walk comes past -/

/-- `value.name` is there, and it is `v`. -/
def PyVal.Has (value : PyVal) (name : String) (v : PyVal) : Prop :=
  ∃ attributes, value = .obj attributes ∧ attributes.lookup name = some v

/-- The message of the first choice has these `tool_calls`. -/
def AsksFor (response toolCalls : PyVal) : Prop :=
  ∃ choice choices message, response.Has "choices" (.list (choice :: choices)) ∧
    choice.Has "message" message ∧ message.Has "tool_calls" toolCalls

/-- The first tool call. -/
def Calls (response toolCall : PyVal) : Prop :=
  ∃ toolCalls, AsksFor response (.list (toolCall :: toolCalls))

/-- The first tool call is one of a function, with these arguments. -/
def Passes (response arguments : PyVal) : Prop :=
  ∃ toolCall function, Calls response toolCall ∧ toolCall.Has "type" (.str "function") ∧
    toolCall.Has "function" function ∧ function.Has "arguments" arguments

/-- The field is a string, or absent with the default. -/
def JsonField.Holds (field : JsonField) (s : String) : Prop :=
  field = .str s ∨ field = .absent ∧ s = ""

/-- The fields of the JSON object pass the checks of `Commentary`. -/
structure RawCommentary.Valid (raw : RawCommentary) (text bet reason : String) : Prop where
  hasText : raw.text = .str text
  hasBet : raw.suggestedBet.Holds bet
  hasReason : raw.suggestedBetReason.Holds reason
  sourceModel : raw.sourceModel ≠ .other
  textLength : 40 ≤ text.length ∧ text.length ≤ 600
  reasonLength : reason.length ≤ 200
  market : bet = "" ∨ bet ∈ SUGGESTED_BETS

/-- The header names the model, or else the response does. -/
def Reply.Names (reply : Reply) (model : String) : Prop :=
  reply.modelHeader = .str model ∧ model ≠ "" ∨
    reply.modelHeader.truthy = false ∧ reply.response.Has "model" (.str model)

/-- A `usage` that counts anything counts both kinds of tokens. -/
def Counted (response : PyVal) : Prop :=
  ∃ usage, response.Has "usage" usage ∧ (usage.truthy = true →
    ∃ prompt completion, usage.Has "prompt_tokens" prompt ∧
      usage.Has "completion_tokens" completion)

theorem counted_of_none {response : PyVal} (h : response.Has "usage" .none) : Counted response :=
  ⟨.none, h, fun htruthy => absurd htruthy Bool.false_ne_true⟩

/-- What the gateway may answer without harm. -/
inductive Spares (parse : PyVal → Parsed) : Except PyException Reply → Prop
  | unreachable : Spares parse (.error .openAIError)
  | noChoices {reply : Reply} {choices : PyVal} : reply.response.Has "choices" choices →
      choices.truthy = false → Spares parse (.ok reply)
  | noToolCalls {reply : Reply} {toolCalls : PyVal} : AsksFor reply.response toolCalls →
      toolCalls.truthy = false → Spares parse (.ok reply)
  | noFunction {reply : Reply} {toolCall type : PyVal} : Calls reply.response toolCall →
      toolCall.Has "type" type → type ≠ .str "function" → Spares parse (.ok reply)
  | noObject {reply : Reply} {arguments : PyVal} : Passes reply.response arguments →
      parse arguments = .notAnObject → Spares parse (.ok reply)
  | invalid {reply : Reply} {arguments : PyVal} {raw : RawCommentary} :
      Passes reply.response arguments → parse arguments = .object raw →
      (∀ text bet reason, ¬ raw.Valid text bet reason) → Spares parse (.ok reply)
  | plain {reply : Reply} {arguments : PyVal} {raw : RawCommentary}
      {text bet reason model : String} :
      Passes reply.response arguments → parse arguments = .object raw →
      raw.Valid text bet reason → reply.Names model → Counted reply.response →
      holdsNul text = false → holdsNul reason = false → holdsNul model = false →
      Spares parse (.ok reply)

/-! ## The walk comes past them -/

theorem attr_eq_ok {value v : PyVal} {name : String} :
    value.attr name = .ok v ↔ value.Has name v := by
  constructor
  · intro h
    unfold PyVal.attr at h
    split at h
    · split at h
      · rename_i hlookup
        rw [← Except.ok.inj h]
        exact ⟨_, rfl, hlookup⟩
      · cases h
    · cases h
  · rintro ⟨attributes, rfl, hlookup⟩
    rw [PyVal.attr, hlookup]

@[simp] theorem truthy_cons (v : PyVal) (items : List PyVal) :
    (PyVal.list (v :: items)).truthy = true := rfl

@[simp] theorem first_cons (v : PyVal) (items : List PyVal) :
    (PyVal.list (v :: items)).first = .ok v := rfl

/-- Only what is an object has attributes, and no list of characters does. -/
theorem first_has {value v w : PyVal} {name : String} (hfirst : value.first = .ok v)
    (hhas : v.Has name w) : ∃ items, value = .list (v :: items) := by
  obtain ⟨attributes, rfl, -⟩ := hhas
  unfold PyVal.first at hfirst
  split at hfirst
  · cases hfirst
  · rw [← Except.ok.inj hfirst]
    exact ⟨_, rfl⟩
  · split at hfirst <;> cases hfirst
  · cases hfirst
  · cases hfirst

theorem isStr_iff {value : PyVal} {s : String} : value.isStr s = true ↔ value = .str s := by
  cases value <;> simp [PyVal.isStr]

theorem strField_eq_some {field : JsonField} {s : String} :
    strField "" field = some s ↔ field.Holds s := by
  cases field with
  | absent => simp [strField, JsonField.Holds, eq_comm]
  | str s' => simp [strField, JsonField.Holds]
  | other => simp [strField, JsonField.Holds]

theorem knownMarket_iff {bet : String} :
    knownMarket bet = true ↔ bet = "" ∨ bet ∈ SUGGESTED_BETS := by
  rw [knownMarket, Bool.or_eq_true, decide_eq_true_eq, List.contains_iff_mem]

theorem modelValidate_of_valid {raw : RawCommentary} {text bet reason : String}
    (h : raw.Valid text bet reason) :
    ∃ name, modelValidate raw = some ⟨text, bet, reason, .str name⟩ := by
  have hmodel : ∃ name, strField "" raw.sourceModel = some name := by
    cases hfield : raw.sourceModel with
    | absent => exact ⟨"", rfl⟩
    | str name => exact ⟨name, rfl⟩
    | other => exact absurd hfield h.sourceModel
  obtain ⟨name, hname⟩ := hmodel
  refine ⟨name, ?_⟩
  simp only [modelValidate, h.hasText, strField_eq_some.mpr h.hasBet,
    strField_eq_some.mpr h.hasReason, hname]
  exact if_pos ⟨h.textLength.1, h.textLength.2, h.reasonLength, knownMarket_iff.mpr h.market⟩

theorem valid_of_modelValidate {raw : RawCommentary} {c : Commentary}
    (h : modelValidate raw = some c) :
    raw.Valid c.text c.suggestedBet c.suggestedBetReason := by
  unfold modelValidate at h
  split at h
  · rename_i text bet reason model htext hbet hreason hmodel
    split_ifs at h with hbounds
    obtain ⟨hlow, hhigh, hlength, hmarket⟩ := hbounds
    rw [← Option.some.inj h]
    refine ⟨htext, strField_eq_some.mp hbet, strField_eq_some.mp hreason, ?_, ⟨hlow, hhigh⟩,
      hlength, knownMarket_iff.mp hmarket⟩
    intro hother
    rw [hother] at hmodel
    cases hmodel
  · cases h

theorem known_market_has_no_nul {bet : String} (h : bet = "" ∨ bet ∈ SUGGESTED_BETS) :
    holdsNul bet = false := by
  rcases h with rfl | hmem
  · rfl
  · have hall : ∀ bet ∈ SUGGESTED_BETS, holdsNul bet = false := by decide
    exact hall bet hmem

theorem textArgument_isOk_iff {v : PyVal} :
    (textArgument v).isOk = true ↔ ∃ s, v = .str s ∧ holdsNul s = false := by
  cases v with
  | str s =>
      rw [textArgument]
      split_ifs with hnul
      · exact iff_of_true rfl ⟨s, rfl, hnul⟩
      · exact iff_of_false Bool.false_ne_true (by rintro ⟨_, ⟨⟩, h⟩; exact hnul h)
  | none | bool | int | float | list | dict | obj | other =>
      exact iff_of_false Bool.false_ne_true (by rintro ⟨_, ⟨⟩, -⟩)

theorem logUsage_eq_ok {response : PyVal} {u : Unit} :
    logUsage response = .ok u ↔ Counted response := by
  unfold logUsage Counted
  rw [bind_eq_ok]
  constructor
  · rintro ⟨usage, husage, h⟩
    refine ⟨usage, attr_eq_ok.mp husage, fun htruthy => ?_⟩
    rw [if_pos htruthy] at h
    obtain ⟨prompt, hprompt, h⟩ := bind_eq_ok.mp h
    obtain ⟨completion, hcompletion, -⟩ := bind_eq_ok.mp h
    exact ⟨prompt, completion, attr_eq_ok.mp hprompt, attr_eq_ok.mp hcompletion⟩
  · rintro ⟨usage, husage, hcounted⟩
    refine ⟨usage, attr_eq_ok.mpr husage, ?_⟩
    split_ifs with htruthy
    · obtain ⟨prompt, completion, hprompt, hcompletion⟩ := hcounted htruthy
      rw [attr_eq_ok.mpr hprompt, ok_bind, attr_eq_ok.mpr hcompletion, ok_bind]
      rfl
    · rfl

/-- A name that can be stored comes from a header that is one or from the response. -/
theorem names_iff {reply : Reply} {model : String} :
    (if reply.modelHeader.truthy then .ok reply.modelHeader
      else reply.response.attr "model") = .ok (.str model) ↔ reply.Names model := by
  unfold Reply.Names
  split_ifs with hheader
  · constructor
    · intro h
      have hname := Except.ok.inj h
      refine Or.inl ⟨hname, ?_⟩
      rintro rfl
      rw [hname] at hheader
      simp [PyVal.truthy] at hheader
    · rintro (⟨hname, -⟩ | ⟨hfalse, -⟩)
      · rw [hname]
      · rw [hheader] at hfalse
        cases hfalse
  · rw [attr_eq_ok]
    constructor
    · exact fun h => Or.inr ⟨Bool.eq_false_iff.mpr hheader, h⟩
    · rintro (⟨hname, hne⟩ | ⟨-, h⟩)
      · rw [hname] at hheader
        simp [PyVal.truthy, hne] at hheader
      · exact h

/-! ## Where it ends -/

/-- What is left of the walk at the arguments. -/
def readArguments (parse : PyVal → Parsed) (reply : Reply) (arguments : PyVal) :
    Except PyException (Option Commentary) := do
  match ← modelValidateJson parse arguments with
  | none => return none
  | some commentary =>
      let sourceModel ←
        if reply.modelHeader.truthy then .ok reply.modelHeader
        else reply.response.attr "model"
      let _ ← logUsage reply.response
      return some { commentary with sourceModel := sourceModel }

variable {parse : PyVal → Parsed} {reply : Reply}

theorem readArguments_valid {arguments : PyVal} {c : Commentary}
    (h : modelValidateJson parse arguments = .ok (some c)) :
    readArguments parse reply arguments =
      ((if reply.modelHeader.truthy then .ok reply.modelHeader
        else reply.response.attr "model") >>= fun sourceModel =>
        logUsage reply.response >>= fun _ => .ok (some { c with sourceModel := sourceModel })) := by
  rw [readArguments, h, ok_bind]
  cases reply.modelHeader.truthy <;> rfl

theorem readReply_noToolCalls {toolCalls : PyVal} (hasks : AsksFor reply.response toolCalls)
    (hnone : toolCalls.truthy = false) : readReply parse reply = .ok none := by
  obtain ⟨choice, choices, message, hchoices, hmessage, htools⟩ := hasks
  simp only [readReply, attr_eq_ok.mpr hchoices, ok_bind, attr_eq_ok.mpr hmessage,
    attr_eq_ok.mpr htools, hnone, truthy_cons, first_cons]
  rfl

/-- From the first tool call on. -/
theorem readReply_calls {toolCall type : PyVal} (hcalls : Calls reply.response toolCall)
    (htype : toolCall.Has "type" type) :
    readReply parse reply =
      if type.isStr "function" then do
        let function ← toolCall.attr "function"
        let arguments ← function.attr "arguments"
        readArguments parse reply arguments
      else .ok none := by
  obtain ⟨toolCalls, choice, choices, message, hchoices, hmessage, htools⟩ := hcalls
  simp only [readReply, attr_eq_ok.mpr hchoices, ok_bind, attr_eq_ok.mpr hmessage,
    attr_eq_ok.mpr htools, truthy_cons, first_cons, attr_eq_ok.mpr htype]
  cases type.isStr "function" <;> rfl

theorem readReply_passes {arguments : PyVal} (h : Passes reply.response arguments) :
    readReply parse reply = readArguments parse reply arguments := by
  obtain ⟨toolCall, function, hcalls, htype, hfunction, harguments⟩ := h
  rw [readReply_calls hcalls htype, if_pos (isStr_iff.mpr rfl), attr_eq_ok.mpr hfunction, ok_bind,
    attr_eq_ok.mpr harguments, ok_bind]

/-- A walk that returns has come past one of its ends. -/
theorem readReply_returns {preview : Option Commentary} (h : readReply parse reply = .ok preview) :
    Spares parse (.ok reply) ∧ preview = none ∨
      ∃ arguments, Passes reply.response arguments ∧
        readArguments parse reply arguments = .ok preview := by
  obtain ⟨choices, hchoices, hwalk⟩ := bind_eq_ok.mp h
  rw [attr_eq_ok] at hchoices
  cases htruthy : choices.truthy with
  | false =>
      simp only [htruthy, Bool.not_false, if_true] at hwalk
      exact Or.inl ⟨.noChoices hchoices htruthy, (pure_eq_ok.mp hwalk).symm⟩
  | true =>
      simp only [htruthy, Bool.not_true, Bool.false_eq_true, if_false] at hwalk
      obtain ⟨choice, hfirst, hchoice⟩ := bind_eq_ok.mp hwalk
      obtain ⟨message, hmessage, hchoice⟩ := bind_eq_ok.mp hchoice
      obtain ⟨toolCalls, htools, hasked⟩ := bind_eq_ok.mp hchoice
      rw [attr_eq_ok] at hmessage htools
      obtain ⟨rest, rfl⟩ := first_has hfirst hmessage
      have hasks : AsksFor reply.response toolCalls :=
        ⟨choice, rest, message, hchoices, hmessage, htools⟩
      cases hsome : toolCalls.truthy with
      | false =>
          simp only [hsome, Bool.not_false, if_true] at hasked
          exact Or.inl ⟨.noToolCalls hasks hsome, (pure_eq_ok.mp hasked).symm⟩
      | true =>
          simp only [hsome, Bool.not_true, Bool.false_eq_true, if_false] at hasked
          obtain ⟨toolCall, hfirst, hcalled⟩ := bind_eq_ok.mp hasked
          obtain ⟨type, htype, hcalled⟩ := bind_eq_ok.mp hcalled
          rw [attr_eq_ok] at htype
          obtain ⟨rest, rfl⟩ := first_has hfirst htype
          have hcalls : Calls reply.response toolCall := ⟨rest, hasks⟩
          cases hfunction : type.isStr "function" with
          | false =>
              simp only [hfunction, Bool.not_false, if_true] at hcalled
              refine Or.inl ⟨.noFunction hcalls htype fun heq => ?_, (pure_eq_ok.mp hcalled).symm⟩
              rw [isStr_iff.mpr heq] at hfunction
              cases hfunction
          | true =>
              simp only [hfunction, Bool.not_true, Bool.false_eq_true, if_false] at hcalled
              obtain ⟨function, hfun, hcalled⟩ := bind_eq_ok.mp hcalled
              obtain ⟨arguments, harguments, hrest⟩ := bind_eq_ok.mp hcalled
              rw [attr_eq_ok] at hfun harguments
              rw [isStr_iff.mp hfunction] at htype
              exact Or.inr ⟨arguments, ⟨toolCall, function, hcalls, htype, hfun, harguments⟩, hrest⟩

theorem storable_iff {c : Commentary} (hmarket : c.suggestedBet = "" ∨
    c.suggestedBet ∈ SUGGESTED_BETS) : c.storable = true ↔
      ∃ model, c.sourceModel = .str model ∧ holdsNul model = false ∧
        holdsNul c.text = false ∧ holdsNul c.suggestedBetReason = false := by
  have hbet := known_market_has_no_nul hmarket
  simp only [Commentary.storable, Bool.and_eq_true, textArgument_isOk_iff, PyVal.str.injEq,
    exists_eq_left']
  constructor
  · rintro ⟨⟨⟨⟨model, hmodel, hnul⟩, htext⟩, -⟩, hreason⟩
    exact ⟨model, hmodel, hnul, htext, hreason⟩
  · rintro ⟨model, hmodel, hnul, htext, hreason⟩
    exact ⟨⟨⟨⟨model, hmodel, hnul⟩, htext⟩, hbet⟩, hreason⟩

/-- A preview is the validated object under the name of the model. -/
theorem readArguments_some {arguments : PyVal} {c : Commentary}
    (h : readArguments parse reply arguments = .ok (some c)) :
    ∃ raw validated sourceModel, parse arguments = .object raw ∧
      modelValidate raw = some validated ∧ c = { validated with sourceModel := sourceModel } ∧
      (if reply.modelHeader.truthy then .ok reply.modelHeader
        else reply.response.attr "model") = .ok sourceModel ∧
      Counted reply.response := by
  cases hparsed : parse arguments with
  | notAnObject | raised =>
      rw [readArguments, modelValidateJson, hparsed] at h
      cases h
  | object raw =>
      have hread : modelValidateJson parse arguments = .ok (modelValidate raw) := by
        rw [modelValidateJson, hparsed]
      cases hvalid : modelValidate raw with
      | none =>
          rw [hvalid] at hread
          rw [readArguments, hread] at h
          cases h
      | some validated =>
          rw [hvalid] at hread
          rw [readArguments_valid hread] at h
          obtain ⟨sourceModel, hmodel, h⟩ := bind_eq_ok.mp h
          obtain ⟨u, hlogged, h⟩ := bind_eq_ok.mp h
          exact ⟨raw, validated, sourceModel, rfl, hvalid,
            (Option.some.inj (Except.ok.inj h)).symm, hmodel, logUsage_eq_ok.mp hlogged⟩

/-- Without a preview there is no object, or none that passes the checks. -/
theorem spares_of_none {arguments : PyVal} (hpasses : Passes reply.response arguments)
    (h : readArguments parse reply arguments = .ok none) : Spares parse (.ok reply) := by
  cases hparsed : parse arguments with
  | notAnObject => exact .noObject hpasses hparsed
  | raised =>
      rw [readArguments, modelValidateJson, hparsed] at h
      cases h
  | object raw =>
      refine .invalid hpasses hparsed fun text bet reason hraw => ?_
      obtain ⟨name, hname⟩ := modelValidate_of_valid hraw
      have hread : modelValidateJson parse arguments =
          .ok (some ⟨text, bet, reason, .str name⟩) := by
        rw [modelValidateJson, hparsed]
        exact congrArg Except.ok hname
      rw [readArguments_valid hread] at h
      obtain ⟨_, -, h⟩ := bind_eq_ok.mp h
      obtain ⟨_, -, h⟩ := bind_eq_ok.mp h
      cases h

/-- At the arguments, what is stored is what passes the checks and fits the columns. -/
theorem spares_of_some {arguments : PyVal} {c : Commentary}
    (hpasses : Passes reply.response arguments)
    (h : readArguments parse reply arguments = .ok (some c)) (hstorable : c.storable = true) :
    Spares parse (.ok reply) := by
  obtain ⟨raw, validated, sourceModel, hparsed, hvalid, rfl, hmodel, hcounted⟩ :=
    readArguments_some h
  have hraw := valid_of_modelValidate hvalid
  obtain ⟨model, hname, hnul, htext, hreason⟩ := (storable_iff
    (c := { validated with sourceModel := sourceModel }) hraw.market).mp hstorable
  obtain rfl : sourceModel = .str model := hname
  exact .plain hpasses hparsed hraw (names_iff.mp hmodel) hcounted htext hreason hnul

/-- Only such an answer gets through the transaction. -/
theorem spares_of_storable {gateway : Gateway} {prompt : UserPrompt}
    (h : previewStorable (writePreview gateway prompt) = true) :
    Spares gateway.parse (gateway.complete prompt) := by
  unfold writePreview at h
  split at h
  · rename_i hcall
    rw [hcall]
    exact .unreachable
  · cases h
  · rename_i reply hcall
    rw [hcall]
    cases hread : readReply gateway.parse reply with
    | error e =>
        rw [hread] at h
        cases h
    | ok preview =>
        rw [hread] at h
        rcases readReply_returns hread with ⟨hspares, -⟩ | ⟨arguments, hpasses, hrest⟩
        · exact hspares
        · cases preview with
          | none => exact spares_of_none hpasses hrest
          | some c => exact spares_of_some hpasses hrest h

/-- Every such answer gets through the transaction. -/
theorem Spares.storable {gateway : Gateway} {prompt : UserPrompt}
    (h : Spares gateway.parse (gateway.complete prompt)) :
    previewStorable (writePreview gateway prompt) = true := by
  unfold writePreview
  generalize gateway.complete prompt = answer at h
  cases h with
  | unreachable => rfl
  | @noChoices reply choices hchoices hnone =>
      simp only [readReply, attr_eq_ok.mpr hchoices, ok_bind, hnone]
      rfl
  | noToolCalls hasks hnone =>
      simp only [readReply_noToolCalls hasks hnone]
      rfl
  | noFunction hcalls htype hother =>
      have hno := Bool.eq_false_iff.mpr fun heq => hother (isStr_iff.mp heq)
      simp only [readReply_calls hcalls htype, hno]
      rfl
  | noObject hpasses hparsed =>
      simp only [readReply_passes hpasses, readArguments, modelValidateJson, hparsed, ok_bind]
      rfl
  | @invalid reply arguments raw hpasses hparsed hnone =>
      have hinvalid : modelValidate raw = none := by
        by_contra hsome
        obtain ⟨c, hc⟩ := Option.ne_none_iff_exists'.mp hsome
        exact hnone _ _ _ (valid_of_modelValidate hc)
      simp only [readReply_passes hpasses, readArguments, modelValidateJson, hparsed, hinvalid,
        ok_bind]
      rfl
  | @plain reply arguments raw text bet reason model hpasses hparsed hraw hnames hcounted htext
      hreason hnul =>
      obtain ⟨name, hvalid⟩ := modelValidate_of_valid hraw
      have hread : modelValidateJson gateway.parse arguments =
          .ok (some ⟨text, bet, reason, .str name⟩) := by
        rw [modelValidateJson, hparsed]
        exact congrArg Except.ok hvalid
      have hlogged := (logUsage_eq_ok (u := ())).mpr hcounted
      simp only [readReply_passes hpasses, readArguments_valid hread, names_iff.mpr hnames,
        ok_bind, hlogged]
      exact (storable_iff (c := ⟨_, _, _, .str _⟩) hraw.market).mpr
        ⟨_, rfl, hnul, htext, hreason⟩

/-- **Which answers spare the numbers.** -/
theorem previewStorable_iff (gateway : Gateway) (prompt : UserPrompt) :
    previewStorable (writePreview gateway prompt) = true ↔
      Spares gateway.parse (gateway.complete prompt) :=
  ⟨spares_of_storable, Spares.storable⟩

/-- What `write_preview` returns has passed the checks of the model. -/
theorem writePreview_bounds {gateway : Gateway} {prompt : UserPrompt} {c : Commentary}
    (h : writePreview gateway prompt = .ok (some c)) :
    40 ≤ c.text.length ∧ c.text.length ≤ 600 ∧ c.suggestedBetReason.length ≤ 200 ∧
      knownMarket c.suggestedBet = true := by
  unfold writePreview at h
  split at h
  · cases h
  · cases h
  · rcases readReply_returns h with ⟨-, hnone⟩ | ⟨arguments, -, hrest⟩
    · cases hnone
    · obtain ⟨raw, validated, sourceModel, -, hvalid, rfl, -, -⟩ := readArguments_some hrest
      have hraw := valid_of_modelValidate hvalid
      exact ⟨hraw.textLength.1, hraw.textLength.2, hraw.reasonLength,
        knownMarket_iff.mpr hraw.market⟩

/-- An object that passes the checks is the preview. -/
theorem writePreview_passes {gateway : Gateway} {prompt : UserPrompt} {arguments : PyVal}
    {raw : RawCommentary} {validated : Commentary} {sourceModel : PyVal}
    (hcall : gateway.complete prompt = .ok reply) (hpasses : Passes reply.response arguments)
    (hparsed : gateway.parse arguments = .object raw) (hvalid : modelValidate raw = some validated)
    (hmodel : (if reply.modelHeader.truthy then .ok reply.modelHeader
      else reply.response.attr "model") = .ok sourceModel)
    (hcounted : Counted reply.response) :
    writePreview gateway prompt = .ok (some { validated with sourceModel := sourceModel }) := by
  have hread : modelValidateJson gateway.parse arguments = .ok (some validated) := by
    rw [modelValidateJson, hparsed]
    exact congrArg Except.ok hvalid
  unfold writePreview
  rw [hcall]
  show readReply gateway.parse reply = _
  rw [readReply_passes hpasses, readArguments_valid hread, hmodel, ok_bind,
    (logUsage_eq_ok (u := ())).mpr hcounted, ok_bind]

/-! ## Arguments that are an object of strings -/

/-- A JSON object of strings. -/
def strings (members : List (String × String)) : Json.Value :=
  .obj (members.map fun m => (m.1, .str m.2))

theorem plain_strings (members : List (String × String)) : Json.Plain (strings members) := by
  refine .obj fun member hmember => ?_
  obtain ⟨m, -, rfl⟩ := List.mem_map.mp hmember
  exact .str m.2

theorem loads_strings (members : List (String × String)) :
    Json.loads (Json.dumps Json.compact (strings members)) = some (strings members) := by
  have hread : Json.loads (Json.dumps Json.compact (strings members) ++ []) =
      some (strings members) := Json.loads_dumps (plain_strings members) Json.compact nofun
  rwa [List.append_nil] at hread

/-- The fields of the model among members that are strings. -/
def rawStrings (members : List (String × String)) : RawCommentary :=
  let field key := (members.lookup key).elim .absent JsonField.str
  ⟨field "text", field "suggested_bet", field "suggested_bet_reason", field "source_model"⟩

/-- Of pydantic's JSON reader: an object of strings is read as the grammar of JSON has it. -/
def ReadsStrings (parse : PyVal → Parsed) : Prop :=
  ∀ (text : List Char) (members : List (String × String)), (members.map Prod.fst).Nodup →
    Json.loads text = some (strings members) →
      parse (.str (String.ofList text)) = .object (rawStrings members)

/-- A JSON reader of objects. -/
def readFields : PyVal → Parsed
  | .str text =>
      match Json.loads text.toList with
      | some (.obj members) =>
          let field key :=
            match members.lookup key with
            | none => JsonField.absent
            | some (.str s) => .str s
            | some _ => .other
          .object ⟨field "text", field "suggested_bet", field "suggested_bet_reason",
            field "source_model"⟩
      | _ => .notAnObject
  | _ => .raised

theorem lookup_strings (members : List (String × String)) (key : String) :
    (members.map fun m => (m.1, Json.Value.str m.2)).lookup key =
      (members.lookup key).map Json.Value.str := by
  induction members with
  | nil => rfl
  | cons m members ih =>
      rw [List.map_cons, Dict.lookup_entry, Dict.lookup_entry, ih]
      split <;> rfl

theorem readsStrings_readFields : ReadsStrings readFields := by
  intro text members _ hloads
  rw [readFields, String.toList_ofList, hloads]
  simp only [strings, rawStrings, lookup_strings]
  congr 2 <;> cases List.lookup _ members <;> rfl

end AGame.Brain
