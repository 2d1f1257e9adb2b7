import AGame.Base.Dict
import AGame.Base.Json
import AGame.Brain.Resilience

/-!
# The recorded corpus (`a-game-brain/evals/conftest.py`)

A session of the eval suite puts every case through `write_preview` once: against the model,
or against a client that serves what a recorded session saved. Recording writes each preview
as JSON and replaying sends that text down the whole path of a live answer again, so the two
sessions have the same previews.

A file is the text it holds; the fixtures themselves are read elsewhere.
-/

namespace AGame.Brain

open Base Engine

/-- `Case`, without the bet that the scorer looks at. -/
structure Case (R : Type) where
  name : String
  «match» : Match
  probabilities : Poisson.ScoreProbabilities R

abbrev Previews := Dict (Option Commentary)

/-- The texts under `RECORDED`, by the stem of their file. -/
abbrev Recorded := String → Option (List Char)

/-- What ends a session before its first test. -/
inductive Stopped where
  /-- `pytest.exit` -/
  | exit (message : String)
  | raised (e : PyException)
deriving DecidableEq, Repr

/-! ## The replay client -/

/-- `_Completion` -/
def completion (arguments : String) (model : PyVal) : PyVal :=
  let function := PyVal.obj [("name", .str "emit_preview"), ("arguments", .str arguments)]
  let toolCall := PyVal.obj [("type", .str "function"), ("function", function)]
  let message := PyVal.obj [("tool_calls", .list [toolCall])]
  .obj [("choices", .list [.obj [("message", message)]]), ("model", model), ("usage", .none)]

/-- `ReplayClient`, with the JSON reader that every client has behind it. -/
def replayClient (parse : PyVal → Parsed) (arguments : String) (model : PyVal) : Gateway :=
  ⟨fun _ => .ok ⟨model, completion arguments model⟩, parse⟩

/-- A saved response goes all the way through `write_preview`. -/
theorem writePreview_replayClient {parse : PyVal → Parsed} {arguments : String}
    {raw : RawCommentary} {c : Commentary} (hparse : parse (.str arguments) = .object raw)
    (hvalid : modelValidate raw = some c) (model : PyVal) (prompt : UserPrompt) :
    writePreview (replayClient parse arguments model) prompt =
      .ok (some { c with sourceModel := model }) := by
  have hpasses : Passes (completion arguments model) (.str arguments) :=
    ⟨_, _, ⟨_, _, _, _, ⟨_, rfl, rfl⟩, ⟨_, rfl, rfl⟩, ⟨_, rfl, rfl⟩⟩, ⟨_, rfl, rfl⟩,
      ⟨_, rfl, rfl⟩, ⟨_, rfl, rfl⟩⟩
  have hcounted : Counted (completion arguments model) := counted_of_none ⟨_, rfl, rfl⟩
  have hcall : (replayClient parse arguments model).complete prompt =
      .ok ⟨model, completion arguments model⟩ := rfl
  refine writePreview_passes hcall hpasses hparse hvalid ?_ hcounted
  cases model.truthy <;> rfl

/-! ## Recording -/

mutual

/-- The JSON value of a `source_model`. An attribute of an answer holds what its JSON held, and
an instance is no JSON. -/
def modelJson : PyVal → Option Json.Value
  | .none => some .null
  | .bool b => some (.bool b)
  | .int n => some (.int n)
  | .float literal => some (.float literal.val)
  | .str s => some (.str s)
  | .list items => (modelItems items).map .arr
  | .dict items =>
      -- a `dict` has a key once
      if (Dict.keys items).Nodup then (modelMembers items).map .obj else none
  | .obj _ => none
  | .other _ => none

def modelItems : List PyVal → Option (List Json.Value)
  | [] => some []
  | value :: items => do
      let value ← modelJson value
      let items ← modelItems items
      return value :: items

def modelMembers : List (String × PyVal) → Option (List (String × Json.Value))
  | [] => some []
  | (key, value) :: items => do
      let value ← modelJson value
      let items ← modelMembers items
      return (key, value) :: items

end

/-- The object under `arguments`. -/
def argumentMembers (preview : Commentary) : List (String × String) :=
  [("text", preview.text), ("suggested_bet", preview.suggestedBet),
    ("suggested_bet_reason", preview.suggestedBetReason)]

def payload (preview : Commentary) (model : Json.Value) : Json.Value :=
  .obj [("arguments", strings (argumentMembers preview)), ("model", model)]

/-- `json.dumps(payload, indent=2) + "\n"` -/
def recordedText (preview : Commentary) (model : Json.Value) : List Char :=
  Json.dumps (Json.indented 2) (payload preview model) ++ ['\n']

/-- `_record` -/
def record (files : Recorded) : Previews → Recorded × Except Stopped Unit
  | [] => (files, .ok ())
  | (_, none) :: previews => record files previews
  | (name, some preview) :: previews =>
      match modelJson preview.sourceModel with
      | none => (files, .error (.raised .typeError))
      | some model =>
          record (Function.update files name (some (recordedText preview model))) previews

/-! ## Replaying -/

/-- `value[key]` -/
def subscript (value : Json.Value) (key : String) : Except PyException Json.Value :=
  match value with
  | .obj members =>
      match members.reverse.lookup key with
      | some v => .ok v
      | none => .error .other
  | _ => .error .typeError

mutual

/-- The Python value of a JSON value. -/
def savedModel : Json.Value → PyVal
  | .null => .none
  | .bool b => .bool b
  | .int n => .int n
  | .float literal =>
      if h : Json.isFloat literal = true then .float ⟨literal, h⟩ else .other true
  | .str s => .str s
  | .arr items => .list (savedItems items)
  | .obj members => .dict (Dict.ofPairs (savedMembers members))

def savedItems : List Json.Value → List PyVal
  | [] => []
  | value :: items => savedModel value :: savedItems items

def savedMembers : List (String × Json.Value) → List (String × PyVal)
  | [] => []
  | (key, value) :: members => (key, savedModel value) :: savedMembers members

end

variable {R : Type} [Field R] [LinearOrder R] [FloorRing R]

/-- One turn of `_generate_replay` -/
def replayCase (parse : PyVal → Parsed) (files : Recorded) (case : Case R) :
    Except Stopped (Option Commentary) :=
  match files case.name with
  | none => .error (.exit s!"no recorded response for {case.name} - run with --record")
  | some text =>
      Except.mapError Stopped.raised do
        let saved ← (Json.loads text).elim (.error PyException.other) .ok
        let arguments ← subscript saved "arguments"
        let model ← subscript saved "model"
        writePreview
          (replayClient parse (String.ofList (Json.dumps Json.compact arguments))
            (savedModel model))
          (userPrompt case.match case.probabilities)

/-- `_generate_replay` -/
def generateReplay (parse : PyVal → Parsed) (files : Recorded) (cases : List (Case R)) :
    Except Stopped Previews := do
  let previews ← cases.mapM (replayCase parse files)
  return Dict.ofPairs ((cases.map Case.name).zip previews)

/-! ## A session -/

/-- The flags and the environment of a session. -/
structure Options where
  live : Bool
  record : Bool
  gateway : Option String
  /-- `ANTHROPIC_API_KEY` -/
  apiKey : String

/-- `bool(gateway)` -/
def Options.throughGateway (options : Options) : Bool :=
  options.gateway.any fun url => url != ""

/-- `_generate_live`; the calls of a session are answered one by one. -/
def generateLive (options : Options) (answers : ℕ → Gateway) (cases : List (Case R)) :
    Except Stopped Previews :=
  if !options.throughGateway && options.apiKey == "" then
    .error (.exit "ANTHROPIC_API_KEY is not set - a live eval run cannot start")
  else do
    let previews ← Except.mapError Stopped.raised (cases.zipIdx.mapM fun e =>
      writePreview (answers e.2) (userPrompt e.1.match e.1.probabilities))
    return Dict.ofPairs ((cases.map Case.name).zip previews)

/-- The fixture `previews` -/
def previews (parse : PyVal → Parsed) (options : Options) (answers : ℕ → Gateway)
    (files : Recorded) (cases : List (Case R)) : Recorded × Except Stopped Previews :=
  let generated :=
    if options.live || options.record || options.throughGateway then
      generateLive options answers cases
    else generateReplay parse files cases
  match generated with
  | .error e => (files, .error e)
  | .ok generated =>
      if options.record then
        let (files, done) := record files generated
        (files, done.map fun _ => generated)
      else (files, .ok generated)

theorem previews_replaying (parse : PyVal → Parsed) (key : String) (answers : ℕ → Gateway)
    (files : Recorded) (cases : List (Case R)) :
    previews parse ⟨false, false, none, key⟩ answers files cases =
      (files, generateReplay parse files cases) := by
  show (match generateReplay parse files cases with
    | Except.error e => (files, Except.error e)
    | Except.ok generated => (files, Except.ok generated)) = _
  cases generateReplay parse files cases <;> rfl

/-! ## What a recording leaves -/

/-- Every key has its last preview on file; without one the file is as before. -/
theorem record_ok {files files' : Recorded} {generated : Previews}
    (hnodup : (Dict.keys generated).Nodup) (h : record files generated = (files', .ok ()))
    (name : String) :
    match generated.lookup name with
    | some (some preview) => ∃ model, modelJson preview.sourceModel = some model ∧
        files' name = some (recordedText preview model)
    | _ => files' name = files name := by
  induction generated generalizing files with
  | nil => exact congrFun (congrArg Prod.fst h).symm name
  | cons e generated ih =>
      obtain ⟨key, preview⟩ := e
      obtain ⟨hnew, hrest⟩ := List.nodup_cons.mp hnodup
      rw [Dict.lookup_entry]
      cases preview with
      | none =>
          have hfiles := ih hrest h
          by_cases hname : name = key
          · rw [if_pos hname]
            rwa [hname, Dict.lookup_eq_none.mpr hnew, ← hname] at hfiles
          · rwa [if_neg hname]
      | some preview =>
          cases hmodel : modelJson preview.sourceModel with
          | none =>
              rw [record, hmodel] at h
              cases congrArg Prod.snd h
          | some model =>
              rw [record, hmodel] at h
              have hfiles := ih hrest h
              by_cases hname : name = key
              · rw [if_pos hname]
                rw [hname, Dict.lookup_eq_none.mpr hnew] at hfiles
                exact ⟨model, hmodel, by rw [hname, hfiles, Function.update_self]⟩
              · rw [if_neg hname]
                rwa [Function.update_of_ne hname] at hfiles

mutual

/-- A model's name is written as JSON can write it, and read for itself. -/
theorem modelJson_spec {value : PyVal} {model : Json.Value} (h : modelJson value = some model) :
    Json.Plain model ∧ savedModel model = value := by
  cases value with
  | none | bool | int | str =>
      cases h
      exact ⟨by constructor, rfl⟩
  | float literal =>
      cases h
      exact ⟨.float literal, dif_pos literal.property⟩
  | list items =>
      obtain ⟨values, hvalues, rfl⟩ := Option.map_eq_some_iff.mp h
      obtain ⟨hplain, hsaved⟩ := modelItems_spec hvalues
      exact ⟨.arr hplain, congrArg PyVal.list hsaved⟩
  | dict items =>
      rw [modelJson] at h
      split_ifs at h with hnodup
      obtain ⟨members, hmembers, rfl⟩ := Option.map_eq_some_iff.mp h
      obtain ⟨hplain, hsaved⟩ := modelMembers_spec hmembers
      refine ⟨.obj hplain, ?_⟩
      rw [savedModel, hsaved, Dict.ofPairs_of_nodup hnodup]
  | obj | other => cases h

theorem modelItems_spec {items : List PyVal} {values : List Json.Value}
    (h : modelItems items = some values) :
    (∀ v ∈ values, Json.Plain v) ∧ savedItems values = items := by
  cases items with
  | nil =>
      cases h
      exact ⟨nofun, rfl⟩
  | cons value items =>
      obtain ⟨model, hmodel, h⟩ := Option.bind_eq_some_iff.mp h
      obtain ⟨rest, hrest, h⟩ := Option.bind_eq_some_iff.mp h
      cases h
      obtain ⟨hplain, hsaved⟩ := modelJson_spec hmodel
      obtain ⟨hplains, hsaveds⟩ := modelItems_spec hrest
      exact ⟨List.forall_mem_cons.mpr ⟨hplain, hplains⟩, by rw [savedItems, hsaved, hsaveds]⟩

theorem modelMembers_spec {items : List (String × PyVal)} {members : List (String × Json.Value)}
    (h : modelMembers items = some members) :
    (∀ m ∈ members, Json.Plain m.2) ∧ savedMembers members = items := by
  cases items with
  | nil =>
      cases h
      exact ⟨nofun, rfl⟩
  | cons item items =>
      obtain ⟨key, value⟩ := item
      obtain ⟨model, hmodel, h⟩ := Option.bind_eq_some_iff.mp h
      obtain ⟨rest, hrest, h⟩ := Option.bind_eq_some_iff.mp h
      cases h
      obtain ⟨hplain, hsaved⟩ := modelJson_spec hmodel
      obtain ⟨hplains, hsaveds⟩ := modelMembers_spec hrest
      exact ⟨List.forall_mem_cons.mpr ⟨hplain, hplains⟩, by rw [savedMembers, hsaved, hsaveds]⟩

end

theorem plain_payload (preview : Commentary) {model : Json.Value}
    (h : modelJson preview.sourceModel = some model) : Json.Plain (payload preview model) := by
  refine .obj fun member hmember => ?_
  rcases List.mem_cons.mp hmember with rfl | hmember
  · exact plain_strings _
  · rw [List.mem_singleton.mp hmember]
    exact (modelJson_spec h).1

theorem subscript_arguments (preview : Commentary) (model : Json.Value) :
    subscript (payload preview model) "arguments" = .ok (strings (argumentMembers preview)) := by
  simp [subscript, payload, Dict.lookup_entry]

theorem subscript_model (preview : Commentary) (model : Json.Value) :
    subscript (payload preview model) "model" = .ok model := by
  simp [subscript, payload]

theorem modelValidate_argumentMembers {preview : Commentary}
    (hbounds : 40 ≤ preview.text.length ∧ preview.text.length ≤ 600 ∧
      preview.suggestedBetReason.length ≤ 200 ∧ knownMarket preview.suggestedBet = true) :
    modelValidate (rawStrings (argumentMembers preview)) =
      some { preview with sourceModel := .str "" } :=
  if_pos hbounds

/-- What was recorded of a preview that had passed the checks is that preview again. -/
theorem replayCase_recorded {parse : PyVal → Parsed} (hparse : ReadsStrings parse)
    {files : Recorded} {preview : Commentary} {model : Json.Value}
    (hbounds : 40 ≤ preview.text.length ∧ preview.text.length ≤ 600 ∧
      preview.suggestedBetReason.length ≤ 200 ∧ knownMarket preview.suggestedBet = true)
    (hmodel : modelJson preview.sourceModel = some model) {case : Case R}
    (hfile : files case.name = some (recordedText preview model)) :
    replayCase parse files case = .ok (some preview) := by
  have hnewline : ∀ c ∈ ['\n'], Json.isBlank c = true := by
    intro c hc
    rw [List.mem_singleton.mp hc]
    rfl
  have hsaved : Json.loads (recordedText preview model) = some (payload preview model) :=
    Json.loads_dumps (plain_payload preview hmodel) (Json.indented 2) hnewline
  have harguments := loads_strings (argumentMembers preview)
  have hparsed := hparse _ (argumentMembers preview) (show List.Nodup
    ["text", "suggested_bet", "suggested_bet_reason"] by decide) harguments
  have hwritten := writePreview_replayClient hparsed (modelValidate_argumentMembers hbounds)
    (savedModel model) (userPrompt case.match case.probabilities)
  rw [(modelJson_spec hmodel).2] at hwritten
  rw [replayCase, hfile]
  show Except.mapError Stopped.raised (do
    let saved ← (Json.loads (recordedText preview model)).elim (.error PyException.other) .ok
    let arguments ← subscript saved "arguments"
    let model ← subscript saved "model"
    writePreview
      (replayClient parse (String.ofList (Json.dumps Json.compact arguments)) (savedModel model))
      (userPrompt case.match case.probabilities)) = _
  rw [hsaved, Option.elim_some, ok_bind, subscript_arguments, ok_bind, subscript_model, ok_bind,
    (modelJson_spec hmodel).2, hwritten]
  rfl

/-! ## Live previews -/

theorem generateLive_ok {options : Options} {answers : ℕ → Gateway} {cases : List (Case R)}
    {generated : Previews} (h : generateLive options answers cases = .ok generated) :
    ∃ made, generated = Dict.ofPairs ((cases.map Case.name).zip made) ∧
      List.Forall₂ (fun e preview =>
        writePreview (answers e.2) (userPrompt e.1.match e.1.probabilities) = .ok preview)
        cases.zipIdx made := by
  unfold generateLive at h
  split at h
  · cases h
  · obtain ⟨made, hmade, h⟩ := bind_eq_ok.mp h
    refine ⟨made, (pure_eq_ok.mp h).symm, forall₂_of_mapM ?_⟩
    cases hrun : cases.zipIdx.mapM fun e =>
        writePreview (answers e.2) (userPrompt e.1.match e.1.probabilities) with
    | error e =>
        rw [hrun] at hmade
        cases hmade
    | ok made' =>
        rw [hrun] at hmade
        exact congrArg Except.ok (Except.ok.inj hmade)

/-- A recording session goes through the live answers and writes them all. -/
theorem previews_recording {parse : PyVal → Parsed} {options : Options}
    (hrecord : options.record = true) {answers : ℕ → Gateway} {files files' : Recorded}
    {cases : List (Case R)} {generated : Previews}
    (h : previews parse options answers files cases = (files', .ok generated)) :
    generateLive options answers cases = .ok generated ∧
      record files generated = (files', .ok ()) := by
  rw [previews, hrecord, Bool.or_true, Bool.true_or, if_pos rfl] at h
  cases hmade : generateLive options answers cases with
  | error e =>
      rw [hmade] at h
      cases congrArg Prod.snd h
  | ok made =>
      rw [hmade] at h
      have hfiles : (record files made).1 = files' := congrArg Prod.fst h
      have hdone : (record files made).2.map (fun _ => made) = .ok generated :=
        congrArg Prod.snd h
      obtain ⟨u, hu, rfl⟩ := map_eq_ok.mp hdone
      exact ⟨rfl, Prod.ext hfiles hu⟩

/-- One case, replayed from what a recording left. -/
theorem replayCase_of_recording {parse : PyVal → Parsed} (hparse : ReadsStrings parse)
    {options : Options} {answers : ℕ → Gateway} {files files' : Recorded} {cases : List (Case R)}
    {generated : Previews} (hlive : generateLive options answers cases = .ok generated)
    (hdone : record files generated = (files', .ok ())) (case : Case R) :
    replayCase parse files' case =
      match generated.lookup case.name with
      | some (some preview) => .ok (some preview)
      | _ => replayCase parse files case := by
  obtain ⟨made, rfl, hmade⟩ := generateLive_ok hlive
  have hfile := record_ok (Dict.nodup_ofPairs _) hdone case.name
  cases hlookup : (Dict.ofPairs ((cases.map Case.name).zip made)).lookup case.name with
  | none =>
      rw [hlookup] at hfile
      unfold replayCase
      rw [hfile]
  | some preview =>
      rw [hlookup] at hfile
      cases preview with
      | none =>
          unfold replayCase
          rw [hfile]
      | some preview =>
          obtain ⟨model, hmodel, hfile⟩ := hfile
          have hmem : some preview ∈ made :=
            (List.of_mem_zip (Dict.mem_of_lookup_ofPairs hlookup)).2
          obtain ⟨e, -, hwritten⟩ := exists_of_forall₂ hmade.flip hmem
          exact replayCase_recorded hparse (writePreview_bounds hwritten) hmodel hfile

/-- **A recorded session is replayed.** With the corpus that a recording leaves, every case
that had a preview has the same one again, and every other case what it had before. Where no
case was left without a preview, the sessions that follow have the previews of the recorded
one, without a call to the model. -/
theorem recorded_session_replays {parse : PyVal → Parsed} (hparse : ReadsStrings parse)
    {options : Options} (hrecord : options.record = true) {answers : ℕ → Gateway}
    {files files' : Recorded} {cases : List (Case R)} {generated : Previews}
    (h : previews parse options answers files cases = (files', .ok generated)) :
    (∀ case : Case R, replayCase parse files' case =
      match generated.lookup case.name with
      | some (some preview) => .ok (some preview)
      | _ => replayCase parse files case) ∧
    ((∀ e ∈ generated, e.2 ≠ none) → ∀ key answers',
      previews parse ⟨false, false, none, key⟩ answers' files' cases =
        (files', .ok generated)) := by
  obtain ⟨hlive, hdone⟩ := previews_recording hrecord h
  have hcase := replayCase_of_recording hparse hlive hdone
  obtain ⟨made, rfl, hmade⟩ := generateLive_ok hlive
  refine ⟨hcase, fun hnone key answers' => ?_⟩
  have hlength : (cases.map Case.name).length = made.length := by
    rw [List.length_map, ← hmade.length_eq, List.length_zipIdx]
  have hlookup : ∀ case ∈ cases, ∃ preview,
      (Dict.ofPairs ((cases.map Case.name).zip made)).lookup case.name = some (some preview) := by
    intro case hmem
    have hname : case.name ∈ ((cases.map Case.name).zip made).map Prod.fst := by
      rw [List.map_fst_zip hlength.le]
      exact List.mem_map_of_mem hmem
    obtain ⟨e, he, hname⟩ := List.mem_map.mp hname
    obtain ⟨preview, hpreview⟩ := Dict.lookup_ofPairs he
    rw [hname] at hpreview
    obtain ⟨c, rfl⟩ := Option.ne_none_iff_exists'.mp (hnone _ (Dict.mem_of_lookup hpreview))
    exact ⟨c, hpreview⟩
  have hreplayed : cases.mapM (replayCase parse files') = .ok (cases.map fun case =>
      ((Dict.ofPairs ((cases.map Case.name).zip made)).lookup case.name).join) := by
    refine mapM_ok fun case hmem => ?_
    obtain ⟨preview, hpreview⟩ := hlookup case hmem
    rw [hcase, hpreview]
    rfl
  have hsame : Dict.ofPairs ((cases.map Case.name).zip (cases.map fun case =>
      ((Dict.ofPairs ((cases.map Case.name).zip made)).lookup case.name).join)) =
      Dict.ofPairs ((cases.map Case.name).zip made) := by
    refine Dict.ofPairs_eq ?_ fun e he => ?_
    · rw [List.map_fst_zip hlength.le, List.map_fst_zip (by simp only [List.length_map, le_refl])]
    · rw [List.zip_map'] at he
      obtain ⟨case, hmem, rfl⟩ := List.mem_map.mp he
      obtain ⟨preview, hpreview⟩ := hlookup case hmem
      rw [hpreview]
      rfl
  rw [previews_replaying, generateReplay, hreplayed, ok_bind, hsame]
  rfl

def derby : Case ℚ := ⟨"derby", newFixture, ⟨1, 1, 1, 0, 0, 0, 0, []⟩⟩

theorem derby_replays :
    previews readFields ⟨false, false, none, ""⟩ (fun _ => ⟨fun _ => .error .other, readFields⟩)
      (Function.update (fun _ => none) "derby"
        (some (recordedText (letterPreview 'a') (.str "claude-haiku")))) [derby] =
      (Function.update (fun _ => none) "derby"
        (some (recordedText (letterPreview 'a') (.str "claude-haiku"))),
        .ok [("derby", some (letterPreview 'a'))]) := by
  have hlive : generateLive ⟨false, true, none, "key"⟩ (fun _ => textGateway (letters 'a'))
      [derby] = .ok [("derby", some (letterPreview 'a'))] := by
    unfold generateLive
    rw [if_neg (by decide), List.zipIdx_singleton, List.mapM_cons, letters_preview]
    rfl
  have hrecorded : previews readFields ⟨false, true, none, "key"⟩
      (fun _ => textGateway (letters 'a')) (fun _ => none) [derby] =
      (Function.update (fun _ => none) "derby"
        (some (recordedText (letterPreview 'a') (.str "claude-haiku"))),
        .ok [("derby", some (letterPreview 'a'))]) := by
    rw [previews, hlive]
    rfl
  exact (recorded_session_replays readsStrings_readFields rfl hrecorded).2 (by simp) "" _

end AGame.Brain
