import AGame.Brain.ToolSchema
import AGame.Pipeline.Programs

/-!
# From the tool's answer to the response

What the LLM puts into `emit_preview` passes through `write_preview`, the transaction and
the cache before a request reads it. When the object is what the schema of the tool asks
for, its text arrives unless one of two things is wrong with it: a `source_model` that is
no string costs the prose, a NUL in a text costs the whole job.
-/

namespace AGame.Pipeline

open Base Brain Engine

/-! ## The row -/

theorem commentaryRow_prediction {c : Commentary} {row : CommentaryRow}
    (h : commentaryRow c = .ok row) : row.prediction.val = c.text := by
  obtain ⟨model, -, h⟩ := bind_eq_ok.mp h
  obtain ⟨prediction, hprediction, h⟩ := bind_eq_ok.mp h
  obtain ⟨bet, -, h⟩ := bind_eq_ok.mp h
  obtain ⟨reason, -, h⟩ := bind_eq_ok.mp h
  rw [← pure_eq_ok.mp h]
  exact textArgument_str_ok hprediction

theorem commentaryRow_ok_iff {c : Commentary} :
    (∃ row, commentaryRow c = .ok row) ↔ c.storable = true := by
  unfold commentaryRow Commentary.storable
  cases textArgument c.sourceModel with
  | error e => exact ⟨(fun ⟨_, h⟩ => nomatch h), nofun⟩
  | ok model =>
      cases textArgument (.str c.text) with
      | error e => exact ⟨(fun ⟨_, h⟩ => nomatch h), nofun⟩
      | ok text =>
          cases textArgument (.str c.suggestedBet) with
          | error e => exact ⟨(fun ⟨_, h⟩ => nomatch h), nofun⟩
          | ok bet =>
              cases textArgument (.str c.suggestedBetReason) with
              | error e => exact ⟨(fun ⟨_, h⟩ => nomatch h), nofun⟩
              | ok reason => exact ⟨fun _ => rfl, fun _ => ⟨_, rfl⟩⟩

/-! ## The request -/

/-- A request gets as far as the text: over Redis where there is one, else over Postgres,
whose ids are 64 bits. -/
def Reaches (request : Api.RequestEnv) (matchId : ℤ) : Prop :=
  if request.redisConfigured = true then request.redisGetFails = false
  else request.postgresFails = false ∧ isBigint matchId = true

/-- A text that both stores hold is answered, by either of them alone. -/
theorem asyncPrediction_of_prose {s : Stores} {matchId : ℤ} {text : String}
    (hcached : s.cache.get matchId = some text)
    (hstored : Api.committedText s.db matchId = some text) {request : Api.RequestEnv}
    (hreach : Reaches request matchId) :
    (Api.asyncPrediction request s.db s.cache matchId).2 = .prediction text matchId := by
  unfold Reaches at hreach
  unfold Api.asyncPrediction
  cases hconfigured : request.redisConfigured with
  | true =>
      rw [hconfigured, if_pos rfl] at hreach
      simp [hreach, hcached, Api.respond]
  | false =>
      rw [hconfigured, if_neg (by decide)] at hreach
      have hread := Api.getPrediction_bigint s.db hreach.2
      rw [hstored] at hread
      simp [hreach.1, hread, Api.respond]

/-! ## The job -/

variable {R : Type} [Field R] [LinearOrder R] [FloorRing R] [PyMath R]

section Prose

/-- The text of a match is what it was, in Postgres and in Redis. -/
structure SameProse (matchId : ℤ) (s s' : Stores) : Prop where
  stored : Api.committedText s'.db matchId = Api.committedText s.db matchId
  cached : s'.cache.get matchId = s.cache.get matchId

variable {matchId : ℤ} {s s' s'' : Stores}

theorem SameProse.refl (matchId : ℤ) (s : Stores) : SameProse matchId s s := ⟨rfl, rfl⟩

theorem SameProse.trans (h : SameProse matchId s s') (h' : SameProse matchId s' s'') :
    SameProse matchId s s'' := ⟨h'.stored.trans h.stored, h'.cached.trans h.cached⟩

/-- What is delivered is for another match, or its gateway has no preview to give. -/
def LeavesProse (matchId : ℤ) (delivery : JobEnv × ℤ) : Prop :=
  delivery.2 = matchId → ∀ prompt c, writePreview delivery.1.gateway prompt ≠ .ok (some c)

/-- Whatever fails in a job, it changes no text but that of its match, and this only when it
has a preview. -/
theorem processJob_prose {env : JobEnv} {k : ℤ} (hleaves : LeavesProse matchId (env, k)) :
    SameProse matchId s (processJob R env s k).1 := by
  by_cases hfetch : env.fails .fetchMatch = true
  · rw [processJob, if_pos hfetch]
    exact .refl matchId s
  · cases hm : fetchMatchViaId s.db k with
    | none =>
        have hjob : (processJob R env s k).1 = s := by simp [processJob, hfetch, hm]
        rw [hjob]
        exact .refl matchId s
    | some m =>
        cases hstore : computeAndStore R env s.db m with
        | error e =>
            have hjob : (processJob R env s k).1 = s := by simp [processJob, hfetch, hm, hstore]
            rw [hjob]
            exact .refl matchId s
        | ok result =>
            obtain ⟨db, preview⟩ := result
            obtain ⟨hpreview, hrows⟩ := computeAndStore_ok hstore
            have hjob : (processJob R env s k).1 =
                ⟨db, (warmCache env s.cache k preview).1⟩ := by
              simp [processJob, hfetch, hm, hstore]
            rw [hjob]
            obtain ⟨-, -, -, -, -, -, -, hprose⟩ := writeRows_ok hrows
            rw [fetchMatchViaId_id hm] at hprose
            rcases hprose with ⟨rfl, hcommentary⟩ | ⟨c, row, rfl, -, hcommentary⟩
            · exact ⟨by rw [Api.committedText, hcommentary, Api.committedText], rfl⟩
            · have hother : k ≠ matchId := fun hk => hleaves hk _ c hpreview
              constructor
              · rw [Api.committedText, hcommentary, getElem?_put, if_neg hother,
                  Api.committedText]
              · unfold warmCache
                cases env.redisSet with
                | done => exact (Cache.get_set ..).trans (if_neg hother)
                | redisError | raised => rfl

theorem processAll_prose {later : List (JobEnv × ℤ)}
    (hleaves : ∀ d ∈ later, LeavesProse matchId d) :
    SameProse matchId s (processAll R s later) := by
  induction later generalizing s with
  | nil => exact .refl matchId s
  | cons d later ih =>
      have hfirst : SameProse matchId s (processJob R d.1 s d.2).1 :=
        processJob_prose (hleaves d List.mem_cons_self)
      exact hfirst.trans (ih fun d' hd' => hleaves d' (List.mem_cons_of_mem _ hd'))

/-- The text a job has just written. -/
theorem prose_written (hmatch : matchId ∈ s.db.matchRows) (prediction : PredictionRow)
    {c : Commentary} {row : CommentaryRow} (hrow : commentaryRow c = .ok row) :
    Api.committedText (s.written matchId hmatch ⟨prediction, some (row, c.text)⟩).db matchId =
        some c.text ∧
      (s.written matchId hmatch ⟨prediction, some (row, c.text)⟩).cache.get matchId =
        some c.text := by
  constructor
  · rw [Api.committedText, Stores.written_commentary, if_pos rfl]
    exact congrArg some (commentaryRow_prediction hrow)
  · rw [Cache.get, Stores.written_cache, if_pos rfl]
    rfl

end Prose

/-- Everything is up, and the gateway gives every prompt the same preview. -/
theorem settled_of_preview {env : JobEnv} (hup : env.PostgresUp) (hredis : env.redisSet = .done)
    {preview : Option Commentary}
    (hpreview : ∀ prompt, writePreview env.gateway prompt = .ok preview) (db : Db) (matchId : ℤ) :
    Settled (R := R) env.now (fun _ _ => preview) db env matchId where
  clock := rfl
  postgresUp := hup
  redisUp := hredis
  preview _ _ := hpreview _

section

variable {now : Instant} {db : Db} {matchId : ℤ} {m : Match}

theorem jobWrites_silent (hm : fetchMatchViaId db matchId = some m)
    (hfits : (engineRow R (trainingSet db m) now m).fits = true) :
    jobWrites (R := R) now (fun _ _ => none) db matchId = some ⟨⟨_, hfits⟩, none⟩ := by
  simp only [jobWrites, hm, hfits, dif_pos]

theorem jobWrites_rejected (hm : fetchMatchViaId db matchId = some m)
    (hfits : (engineRow R (trainingSet db m) now m).fits = true) {c : Commentary} {e : PgError}
    (hrow : commentaryRow c = .error e) :
    jobWrites (R := R) now (fun _ _ => some c) db matchId = none := by
  simp only [jobWrites, hm, hfits, dif_pos, hrow]

theorem jobWrites_prose (hm : fetchMatchViaId db matchId = some m)
    (hfits : (engineRow R (trainingSet db m) now m).fits = true) {c : Commentary}
    {row : CommentaryRow} (hrow : commentaryRow c = .ok row) :
    jobWrites (R := R) now (fun _ _ => some c) db matchId =
      some ⟨⟨_, hfits⟩, some (row, c.text)⟩ := by
  simp only [jobWrites, hm, hfits, dif_pos, hrow]

end

theorem processJob_of_some {now : Instant} {preview : PreviewFunction R} {env : JobEnv}
    {s : Stores} {matchId : ℤ} (hs : Settled now preview s.db env matchId) {w : JobWrites}
    (hw : jobWrites now preview s.db matchId = some w) :
    ∃ hmatch, (processJob R env s matchId).1 = s.written matchId hmatch w := by
  rcases processJob_writes hs with ⟨hnone, -⟩ | ⟨w', hmatch, hw', hafter⟩
  · rw [hw] at hnone
    cases hnone
  · rw [hw] at hw'
    cases hw'
    exact ⟨hmatch, hafter⟩

theorem processJob_of_none {now : Instant} {preview : PreviewFunction R} {env : JobEnv}
    {s : Stores} {matchId : ℤ} (hs : Settled now preview s.db env matchId)
    (hw : jobWrites now preview s.db matchId = none) : (processJob R env s matchId).1 = s := by
  rcases processJob_writes hs with ⟨-, hsame⟩ | ⟨w, hmatch, hw', -⟩
  · exact hsame
  · rw [hw] at hw'
    cases hw'

variable (R) in
/-- What a job leaves and what is answered from then on, for an object that has what the
tool asks for. -/
structure Arrives (matchId : ℤ) (s after : Stores) (prediction : PredictionRow)
    (source : JsonField) (c : Commentary) : Prop where
  /-- The numbers alone are stored. -/
  silent : source = .other → ∃ hmatch, after = s.written matchId hmatch ⟨prediction, none⟩
  /-- Nothing is stored, the numbers neither. -/
  rejected : source ≠ .other → c.storable = false → after = s
  stored : source ≠ .other → c.storable = true → ∃ hmatch row, commentaryRow c = .ok row ∧
    after = s.written matchId hmatch ⟨prediction, some (row, c.text)⟩
  /-- Until a job for the match has another preview. -/
  served : source ≠ .other → c.storable = true → ∀ later, (∀ d ∈ later, LeavesProse matchId d) →
    ∀ request, Reaches request matchId →
      (Api.asyncPrediction request (processAll R after later).db (processAll R after later).cache
        matchId).2 = .prediction c.text matchId

/-- **An object that the tool's schema accepts reaches the reader.** Whatever its layout and
whatever else it brings, its text is what requests get after the job, until a job for the
match has another preview, unless it brings a `source_model` that is no string, or a string
in it or the model's name cannot be stored. -/
theorem accepted_answer_arrives {parse : PyVal → Parsed} (hparse : ReadsFlat parse)
    {a : ToolAnswer} {members : List (String × Json.Value)}
    (hread : Json.loads a.arguments = some (.obj members)) (hflat : Flat members)
    (haccepts : PREVIEW_TOOL.accepts (.obj members) = true) {env : JobEnv}
    (hgateway : env.gateway = a.gateway parse) (hup : env.PostgresUp)
    (hredis : env.redisSet = .done) {s : Stores} {matchId : ℤ} {m : Match}
    (hm : fetchMatchViaId s.db matchId = some m)
    (hfits : (engineRow R (trainingSet s.db m) env.now m).fits = true) :
    ∃ text bet reason, Answered members text bet reason ∧
      Arrives R matchId s (processJob R env s matchId).1 ⟨_, hfits⟩
        (jsonField members "source_model") ⟨text, bet, reason, a.sourceModel⟩ := by
  obtain ⟨text, bet, reason, hanswered⟩ := accepts_previewTool.mp haccepts
  refine ⟨text, bet, reason, hanswered, ?_⟩
  have hpreview (prompt : UserPrompt) := writePreview_answered hparse hread hflat hanswered prompt
  rw [← hgateway] at hpreview
  have hsettled := settled_of_preview (R := R) hup hredis hpreview s.db matchId
  by_cases hsource : jsonField members "source_model" = .other
  · rw [if_pos hsource] at hsettled
    exact {
      silent := fun _ => processJob_of_some hsettled (jobWrites_silent hm hfits)
      rejected := fun hnot => absurd hsource hnot
      stored := fun hnot => absurd hsource hnot
      served := fun hnot => absurd hsource hnot }
  · rw [if_neg hsource] at hsettled
    cases hrow : commentaryRow ⟨text, bet, reason, a.sourceModel⟩ with
    | error e =>
        -- the transaction takes the numbers back with the prose
        have hnot : ¬ Commentary.storable ⟨text, bet, reason, a.sourceModel⟩ = true := by
          rw [← commentaryRow_ok_iff, hrow]
          exact fun ⟨_, h⟩ => nomatch h
        exact {
          silent := fun h => absurd h hsource
          rejected := fun _ _ => processJob_of_none hsettled (jobWrites_rejected hm hfits hrow)
          stored := fun _ h => absurd h hnot
          served := fun _ h => absurd h hnot }
    | ok row =>
        obtain ⟨hmatch, hafter⟩ := processJob_of_some hsettled (jobWrites_prose hm hfits hrow)
        have hstorable := commentaryRow_ok_iff.mp ⟨row, hrow⟩
        exact {
          silent := fun h => absurd h hsource
          rejected := fun _ h => absurd hstorable (by rw [h]; decide)
          stored := fun _ _ => ⟨hmatch, row, hrow, hafter⟩
          served := fun _ _ later hleaves request hreach => by
            have hkept := processAll_prose (R := R) (s := (processJob R env s matchId).1) hleaves
            obtain ⟨hprose, hcached⟩ := prose_written hmatch ⟨_, hfits⟩ hrow
            rw [← hafter] at hprose hcached
            exact asyncPrediction_of_prose (hkept.cached.trans hcached)
              (hkept.stored.trans hprose) hreach }

/-! ### A draw -/

def drawMembers : List (String × String) :=
  [("text", letters 'a'), ("suggested_bet", "Draw"),
    ("suggested_bet_reason", "A draw is as likely as the two wins together.")]

def drawAnswer : ToolAnswer where
  modelHeader := .none
  model := .str "claude-haiku"
  arguments := Json.dumps Json.compact (strings drawMembers)
  moreCalls := []
  usage := some (700, 120)

/-- The gateway does not answer. -/
def noPreview : JobEnv := envOf ⟨fun _ => .error .openAIError, readFields⟩

/-- Another match and a job without a preview later, over Redis alone. -/
theorem draw_is_served :
    (Api.asyncPrediction ⟨true, false, true, true⟩
      (processAll ℝ (processJob ℝ (envOf (drawAnswer.gateway readFields)) ⟨newLeague, ∅⟩ 1).1
        [(plainText, 7), (noPreview, 1)]).db
      (processAll ℝ (processJob ℝ (envOf (drawAnswer.gateway readFields)) ⟨newLeague, ∅⟩ 1).1
        [(plainText, 7), (noPreview, 1)]).cache 1).2 = .prediction (letters 'a') 1 := by
  have hflat : Flat (drawMembers.map fun m => (m.1, Json.Value.str m.2)) :=
    ⟨by decide, by decide⟩
  have haccepts : PREVIEW_TOOL.accepts (strings drawMembers) = true := by decide +kernel
  have hgateway : (envOf (drawAnswer.gateway readFields)).gateway =
      drawAnswer.gateway readFields := rfl
  obtain ⟨text, bet, reason, hanswered, harrives⟩ :=
    accepted_answer_arrives (R := ℝ) (a := drawAnswer) readsFlat_readFields
      (loads_strings drawMembers) hflat haccepts hgateway (fun _ => rfl) rfl
      (s := ⟨newLeague, ∅⟩) fetch_newFixture (newLeague_accepts _)
  have hsource : jsonField (drawMembers.map fun m => (m.1, Json.Value.str m.2)) "source_model" ≠
      .other := by decide
  have hmember (key value : String) (h : drawMembers.reverse.lookup key = some value) :
      Json.member (drawMembers.map fun m => (m.1, Json.Value.str m.2)) key =
        some (.str value) := by
    rw [Json.member, ← List.map_reverse, lookup_strings, h]
    rfl
  have htext := hanswered.hasText.symm.trans (hmember "text" (letters 'a') (by decide))
  have hbet := hanswered.hasBet.symm.trans (hmember "suggested_bet" "Draw" (by decide))
  have hreason := hanswered.hasReason.symm.trans (hmember "suggested_bet_reason"
    "A draw is as likely as the two wins together." (by decide))
  obtain rfl := Json.Value.str.inj (Option.some.inj htext)
  obtain rfl := Json.Value.str.inj (Option.some.inj hbet)
  obtain rfl := Json.Value.str.inj (Option.some.inj hreason)
  have hleaves : ∀ d ∈ [(plainText, (7 : ℤ)), (noPreview, 1)], LeavesProse 1 d := by
    intro d hd
    rcases List.mem_cons.mp hd with rfl | hd
    · intro hmatch
      cases hmatch
    · rw [List.mem_singleton.mp hd]
      intro _ prompt c hpreview
      cases hpreview
  exact harrives.served hsource (by decide +kernel) _ hleaves ⟨true, false, true, true⟩ rfl

end AGame.Pipeline
