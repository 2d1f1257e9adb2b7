import AGame.Brain.Acceptance
import AGame.Brain.Answers
import AGame.Brain.Handlers
import AGame.Engine.Replay
import AGame.Worker.Isolation

/-!
# When the numbers survive the prose

A preview reaches Postgres in the transaction of the prediction. Whatever the
walk over the gateway's answer raises ends the job before that transaction, and
a preview with a NUL character or a model name that is no string ends it inside.
With Postgres up, a job stores the engine's row exactly when the answer of the gateway
spares it (`numbers_survive_preview_iff`).
-/

namespace AGame.Brain

open Std (ExtTreeMap)
open Base Engine

/-- The prediction row of the current engine version. -/
def Stores.prediction (s : Stores) (matchId : ℤ) : Option PredictionRow :=
  s.db.predictionRows[(matchId, ENGINE_VERSION)]?

/-- Nothing fails in Postgres but what a constraint rejects. -/
def JobEnv.PostgresUp (env : JobEnv) : Prop := ∀ at_, env.fails at_ = false

/-! ## The two upserts -/

theorem storePrediction_ok {db db' : Db} {matchId : ℤ} {version : String}
    {values : PredictionValues} (h : storePrediction db matchId version values = .ok db') :
    ∃ hfits hmatch, db' = db.putPrediction matchId version ⟨values, hfits⟩ hmatch := by
  unfold storePrediction at h
  split_ifs at h with hfits hmatch
  exact ⟨hfits, hmatch, (Except.ok.inj h).symm⟩

theorem storePrediction_eq {db : Db} {matchId : ℤ} {version : String}
    {values : PredictionValues} (hfits : values.fits = true) (hmatch : matchId ∈ db.matchRows) :
    storePrediction db matchId version values =
      .ok (db.putPrediction matchId version ⟨values, hfits⟩ hmatch) := by
  rw [storePrediction, dif_pos hfits, dif_pos hmatch]

theorem storeCommentary_ok {db db' : Db} {matchId : ℤ} {model text bet reason : PyVal}
    (h : storeCommentary db matchId model text bet reason = .ok db') :
    ∃ row hmatch, textArgument model = .ok row.sourceModel ∧
      textArgument text = .ok row.prediction ∧ textArgument bet = .ok row.suggestedBet ∧
      textArgument reason = .ok row.suggestedBetReason ∧
      db' = db.putCommentary matchId row hmatch := by
  simp only [storeCommentary, bind_eq_ok] at h
  obtain ⟨model', hmodel, text', htext, bet', hbet, reason', hreason, h⟩ := h
  split_ifs at h with hmatch
  exact ⟨⟨model', text', bet', reason'⟩, hmatch, hmodel, htext, hbet, hreason,
    (pure_eq_ok.mp h).symm⟩

theorem textArgument_isOk {v : PyVal} :
    (textArgument v).isOk = true ↔ ∃ t, textArgument v = .ok t := by
  cases textArgument v <;> simp [Except.isOk, Except.toBool]

theorem textArgument_str_ok {s : String} {t : PgText} (h : textArgument (.str s) = .ok t) :
    t.val = s := by
  simp only [textArgument] at h
  split_ifs at h with hnul
  rw [← Except.ok.inj h]

theorem storeCommentary_of_storable {c : Commentary} (hc : c.storable = true) (db : Db)
    {matchId : ℤ} (hmatch : matchId ∈ db.matchRows) :
    ∃ row, storeCommentary db matchId c.sourceModel (.str c.text) (.str c.suggestedBet)
      (.str c.suggestedBetReason) = .ok (db.putCommentary matchId row hmatch) := by
  simp only [Commentary.storable, Bool.and_eq_true, textArgument_isOk] at hc
  obtain ⟨⟨⟨⟨model, hmodel⟩, ⟨text, htext⟩⟩, ⟨bet, hbet⟩⟩, ⟨reason, hreason⟩⟩ := hc
  refine ⟨⟨model, text, bet, reason⟩, ?_⟩
  simp only [storeCommentary, hmodel, htext, hbet, hreason]
  simp [bind, Except.bind, pure, Except.pure, hmatch]

theorem storable_of_storeCommentary {db db' : Db} {matchId : ℤ} {c : Commentary}
    (h : storeCommentary db matchId c.sourceModel (.str c.text) (.str c.suggestedBet)
      (.str c.suggestedBetReason) = .ok db') : c.storable = true := by
  obtain ⟨row, -, hmodel, htext, hbet, hreason, -⟩ := storeCommentary_ok h
  simp only [Commentary.storable, Bool.and_eq_true, textArgument_isOk]
  exact ⟨⟨⟨⟨_, hmodel⟩, ⟨_, htext⟩⟩, ⟨_, hbet⟩⟩, ⟨_, hreason⟩⟩

/-! ## The transaction -/

theorem statement_up {env : JobEnv} (hup : env.PostgresUp) (at_ : JobStatement) :
    statement env at_ = .ok () := by
  rw [statement, hup at_]
  rfl

theorem liftPg_eq_ok {α : Type} {x : Except PgError α} {a : α} :
    liftPg x = .ok a ↔ x = .ok a := by
  cases x <;> simp [liftPg]

/-- With Postgres up, the transaction commits exactly when the preview can be
stored, and then the prediction row is the one it was given. -/
theorem storeRows_up {env : JobEnv} (hup : env.PostgresUp) {db : Db} {matchId : ℤ}
    {values : PredictionValues} (hfits : values.fits = true) (hmatch : matchId ∈ db.matchRows)
    (preview : Option Commentary) :
    (previewStorable (.ok preview) = true ∧ ∃ db',
        storeRows env db matchId values preview = .ok db' ∧
          db'.predictionRows[(matchId, ENGINE_VERSION)]? = some ⟨values, hfits⟩) ∨
      (previewStorable (.ok preview) = false ∧ ∃ e,
        storeRows env db matchId values preview = .error e) := by
  have hput : ∀ db' : Db, db'.predictionRows =
      (db.putPrediction matchId ENGINE_VERSION ⟨values, hfits⟩ hmatch).predictionRows →
        db'.predictionRows[(matchId, ENGINE_VERSION)]? = some ⟨values, hfits⟩ := by
    intro db' hrows
    rw [hrows, Db.putPrediction, getElem?_put, if_pos rfl]
  cases preview with
  | none =>
      refine Or.inl ⟨rfl, _, ?_, hput _ rfl⟩
      simp only [storeRows, statement_up hup, storePrediction_eq hfits hmatch, liftPg]
      rfl
  | some c =>
      by_cases hc : c.storable = true
      · obtain ⟨row, hrow⟩ := storeCommentary_of_storable hc
          (db.putPrediction matchId ENGINE_VERSION ⟨values, hfits⟩ hmatch) hmatch
        refine Or.inl ⟨hc, (db.putPrediction matchId ENGINE_VERSION ⟨values, hfits⟩
          hmatch).putCommentary matchId row hmatch, ?_, hput _ rfl⟩
        simp only [storeRows, statement_up hup, storePrediction_eq hfits hmatch, liftPg]
        simp only [bind, Except.bind, hrow]
        rfl
      · refine Or.inr ⟨by simpa [previewStorable] using hc, ?_⟩
        cases hrows : storeRows env db matchId values (some c) with
        | error e => exact ⟨e, rfl⟩
        | ok db' =>
            simp only [storeRows, bind_eq_ok, liftPg_eq_ok] at hrows
            obtain ⟨_, -, _, -, _, -, _, -, _, hcommentary, -⟩ := hrows
            exact absurd (storable_of_storeCommentary hcommentary) hc

/-! ## The job -/

section

variable (R : Type) [Field R] [LinearOrder R] [FloorRing R] [PyMath R]

/-- The training set of a job on the database it reads. -/
def trainingSet (db : Db) (m : Match) : List Elo.MatchResult :=
  fetchMatchHistory db m.competitionId none

/-- The preview a job gets. -/
def jobPreview (env : JobEnv) (db : Db) (m : Match) : Except PyException (Option Commentary) :=
  writePreview env.gateway (userPrompt m (numbers R (trainingSet db m) env.now m).probabilities)

/-- The row a job computes. -/
def jobRow (env : JobEnv) (db : Db) (m : Match) : PredictionValues :=
  engineRow R (trainingSet db m) env.now m

/-- A job that raises leaves everything as it was. -/
theorem processJob_error {env : JobEnv} (hup : env.PostgresUp) {s : Stores} {matchId : ℤ}
    {m : Match} (hm : fetchMatchViaId s.db matchId = some m) {e : JobError}
    (hstore : computeAndStore R env s.db m = .error e) :
    processJob R env s matchId = (s, none) := by
  have hfails := hup .fetchMatch
  simp [processJob, hfails, hm, hstore]

theorem processJob_ok {env : JobEnv} (hup : env.PostgresUp) {s : Stores} {matchId : ℤ}
    {m : Match} (hm : fetchMatchViaId s.db matchId = some m) {db : Db}
    {preview : Option Commentary} (hstore : computeAndStore R env s.db m = .ok (db, preview)) :
    processJob R env s matchId = (⟨db, (warmCache env s.cache matchId preview).1⟩,
      (warmCache env s.cache matchId preview).2) := by
  have hfails := hup .fetchMatch
  simp [processJob, hfails, hm, hstore]

/-- **What a job does to the prediction row** when Postgres is up and accepts it. -/
theorem processJob_prediction {env : JobEnv} (hup : env.PostgresUp) {s : Stores} {matchId : ℤ}
    {m : Match} (hm : fetchMatchViaId s.db matchId = some m)
    (hfits : (jobRow R env s.db m).fits = true) :
    (processJob R env s matchId).1.prediction matchId =
      if previewStorable (jobPreview R env s.db m) = true then
        some ⟨jobRow R env s.db m, hfits⟩
      else s.prediction matchId := by
  have hmatch : m.id ∈ s.db.matchRows := by
    rw [fetchMatchViaId_id hm, ← fetchMatchViaId_isSome, hm]
    rfl
  cases hpreview : jobPreview R env s.db m with
  | error e =>
      have herror : computeAndStore R env s.db m = .error (.preview e) := by
        unfold jobPreview trainingSet at hpreview
        simp only [computeAndStore, statement_up hup, hpreview]
        rfl
      rw [processJob_error R hup hm herror]
      rfl
  | ok preview =>
      have hstore : computeAndStore R env s.db m =
          (storeRows env s.db m.id (jobRow R env s.db m) preview).map fun db =>
            (db, preview) := by
        unfold jobPreview trainingSet at hpreview
        simp only [computeAndStore, statement_up hup, hpreview]
        rfl
      rcases storeRows_up hup hfits hmatch preview with
        ⟨hstorable, db', hrows, hrow⟩ | ⟨hnot, e, hrows⟩
      · rw [hrows] at hstore
        rw [processJob_ok R hup hm hstore, if_pos hstorable, ← fetchMatchViaId_id hm]
        exact hrow
      · rw [hrows] at hstore
        rw [processJob_error R hup hm hstore, hnot]
        rfl

end

/-- The same job with a gateway that cannot be reached, so that `write_preview`
returns `None`. -/
def JobEnv.silent (env : JobEnv) : JobEnv :=
  { env with gateway := { env.gateway with complete := fun _ => .error .openAIError } }

section

variable (R : Type) [Field R] [LinearOrder R] [FloorRing R] [PyMath R]

/-- What the gateway is asked. -/
def jobPrompt (env : JobEnv) (db : Db) (m : Match) : UserPrompt :=
  userPrompt m (numbers R (trainingSet db m) env.now m).probabilities

/-- The rates of a fixture by the finished matches in the table. -/
def tableRates (db : Db) (now : Instant) (m : Match) : R × R :=
  Poisson.expectedGoals (Poisson.fit (trainingSet db m) now) m.homeTeamId m.awayTeamId
    m.competitionId

/-- The rating of a team by the finished matches in the table. -/
def tableRating (db : Db) (m : Match) (teamId : ℤ) : R :=
  let ratings := (Elo.run (trainingSet db m) : Elo.EloState R).ratings
  ratings.getD (teamId, m.competitionId) (Elo.seedRating ratings m.competitionId)

/-- A row that the finished matches in the table still bear out, column by column. -/
structure UpToDate (db : Db) (now : Instant) (m : Match) (row : PredictionValues) : Prop where
  lambdaHome : row.lambdaHome = roundDecimal 4 (tableRates R db now m).1
  lambdaAway : row.lambdaAway = roundDecimal 4 (tableRates R db now m).2
  probHome : row.probHome = roundDecimal 4 (Poisson.scoreProbabilities
    (tableRates R db now m).1 (tableRates R db now m).2).probHome
  probDraw : row.probDraw = roundDecimal 4 (Poisson.scoreProbabilities
    (tableRates R db now m).1 (tableRates R db now m).2).probDraw
  probAway : row.probAway = roundDecimal 4 (Poisson.scoreProbabilities
    (tableRates R db now m).1 (tableRates R db now m).2).probAway
  over25 : row.over25 = roundDecimal 4 (Poisson.scoreProbabilities
    (tableRates R db now m).1 (tableRates R db now m).2).over25
  btts : row.btts = roundDecimal 4 (Poisson.scoreProbabilities
    (tableRates R db now m).1 (tableRates R db now m).2).btts
  mostLikelyScores : row.mostLikelyScores = (Poisson.scoreProbabilities
    (tableRates R db now m).1 (tableRates R db now m).2).mostLikelyScores
  eloHome : row.eloHome = roundDecimal 2 (tableRating R db m m.homeTeamId)
  eloAway : row.eloAway = roundDecimal 2 (tableRating R db m m.awayTeamId)

theorem upToDate_iff {db : Db} {now : Instant} {m : Match} {row : PredictionValues} :
    UpToDate R db now m row ↔ row = engineRow R (trainingSet db m) now m := by
  constructor
  · rintro ⟨h1, h2, h3, h4, h5, h6, h7, h8, h9, h10⟩
    obtain ⟨probHome, probDraw, probAway, over25, btts, lambdaHome, lambdaAway, scores, eloHome,
      eloAway⟩ := row
    dsimp only at h1 h2 h3 h4 h5 h6 h7 h8 h9 h10
    subst h1 h2 h3 h4 h5 h6 h7 h8 h9 h10
    rfl
  · rintro rfl
    exact ⟨rfl, rfl, rfl, rfl, rfl, rfl, rfl, rfl, rfl, rfl⟩

end

/-- **The numbers never depend on the prose** exactly when the answer of the gateway spares
them, or the row in the table is up to date. -/
theorem numbers_survive_preview_iff (R : Type) [Field R] [LinearOrder R] [FloorRing R]
    [PyMath R] (env : JobEnv) (s : Stores) (matchId : ℤ) (m : Match) (hup : env.PostgresUp)
    (hm : fetchMatchViaId s.db matchId = some m)
    (haccepts : (storePrediction s.db matchId ENGINE_VERSION (jobRow R env s.db m)).isOk) :
    (∃ row, (processJob R env s matchId).1.prediction matchId = some row ∧
        (processJob R env.silent s matchId).1.prediction matchId = some row) ↔
      Spares env.gateway.parse (env.gateway.complete (jobPrompt R env s.db m)) ∨
        ∃ row, s.prediction matchId = some row ∧ UpToDate R s.db env.now m row.val := by
  obtain ⟨db', hok⟩ : ∃ db', storePrediction s.db matchId ENGINE_VERSION
      (jobRow R env s.db m) = .ok db' := by
    cases h : storePrediction s.db matchId ENGINE_VERSION (jobRow R env s.db m) with
    | ok db' => exact ⟨db', rfl⟩
    | error e =>
        rw [h] at haccepts
        exact Bool.noConfusion haccepts
  obtain ⟨hfits, -, -⟩ := storePrediction_ok hok
  have hsilent : (processJob R env.silent s matchId).1.prediction matchId =
      some ⟨jobRow R env s.db m, hfits⟩ := by
    have hup' : env.silent.PostgresUp := hup
    rw [processJob_prediction R hup' hm hfits]
    rfl
  have hspares : previewStorable (jobPreview R env s.db m) = true ↔
      Spares env.gateway.parse (env.gateway.complete (jobPrompt R env s.db m)) :=
    previewStorable_iff env.gateway (jobPrompt R env s.db m)
  rw [hsilent, processJob_prediction R hup hm hfits, ← hspares]
  by_cases hstorable : previewStorable (jobPreview R env s.db m) = true
  · rw [if_pos hstorable]
    exact ⟨fun _ => Or.inl hstorable, fun _ => ⟨_, rfl, rfl⟩⟩
  · rw [if_neg hstorable]
    constructor
    · rintro ⟨row, hrow, hsame⟩
      obtain rfl := Option.some.inj hsame
      exact Or.inr ⟨_, hrow, (upToDate_iff R).mpr rfl⟩
    · rintro (h | ⟨row, hrow, hcurrent⟩)
      · exact absurd h hstorable
      · refine ⟨row, hrow, ?_⟩
        rw [Option.some.injEq]
        exact Subtype.ext ((upToDate_iff R).mp hcurrent).symm

/-! ## A fixture without history, and a preview with a NUL -/

theorem numbers_nil (R : Type) [Field R] [LinearOrder R] [FloorRing R] [PyMath R]
    (now : Instant) (m : Match) :
    numbers R [] now m = ⟨Poisson.scoreProbabilities 0 0, 1500, 1500⟩ := by
  have hratings : (Elo.run [] : Elo.EloState R).ratings = ∅ := by
    simp [Elo.run, Elo.chronological, Elo.EloState.initial]
  have hfit : (Poisson.fit [] now : Poisson.Strengths R) = .default := rfl
  unfold numbers
  simp [hratings, hfit, Poisson.expectedGoals, Poisson.Strengths.default, Elo.seedRating,
    DEFAULT_RATING]

/-- Postgres takes the row of a fixture without history. -/
theorem engineRow_nil_fits (now : Instant) (m : Match) : (engineRow ℝ [] now m).fits = true := by
  unfold engineRow
  rw [numbers_nil]
  refine predictionValues_fits (Poisson.isDistribution_of_rates le_rfl le_rfl) ?_ ?_ ?_ ?_
  · exact ⟨le_rfl, by norm_num [Poisson.scoreProbabilities]⟩
  · exact ⟨le_rfl, by norm_num [Poisson.scoreProbabilities]⟩
  · norm_num
  · norm_num

/-- Match 1 of a new league, not played yet. -/
def newLeague : Db :=
  (Worker.syncMatchesPerCompetition Worker.freshLeague
    [Worker.fixturePayload 1 "SCHEDULED"]).1.db

def newFixture : Match where
  id := 1
  seasonId := 1
  competitionId := 2021
  homeTeamId := 57
  awayTeamId := 65
  homeTeam := "Arsenal FC"
  awayTeam := "Manchester City FC"
  matchday := none
  utcDate := 0
  status := "SCHEDULED"
  homeGoals := none
  awayGoals := none
  fulltimeOutcome := none

theorem fetch_newFixture : fetchMatchViaId newLeague 1 = some newFixture := by
  decide +kernel

theorem trainingSet_newLeague : trainingSet newLeague newFixture = [] := by
  have hrows : (newLeague.matchRows.toList.filterMap fun entry =>
      historyRow newLeague newFixture.competitionId none entry.1 entry.2) = [] := by
    decide +kernel
  show (newLeague.matchRows.toList.filterMap _).mergeSort Elo.kickoffLE = []
  rw [hrows, List.mergeSort_nil]

theorem newLeague_accepts (env : JobEnv) :
    (jobRow ℝ env newLeague newFixture).fits = true := by
  rw [jobRow, trainingSet_newLeague]
  exact engineRow_nil_fits env.now newFixture

theorem newLeague_stores (env : JobEnv) :
    (storePrediction newLeague 1 ENGINE_VERSION (jobRow ℝ env newLeague newFixture)).isOk := by
  have hmatch : (1 : ℤ) ∈ newLeague.matchRows := by
    rw [← fetchMatchViaId_isSome, fetch_newFixture]
    rfl
  rw [storePrediction_eq (newLeague_accepts env) hmatch]
  rfl

/-- A tool call in the shape `write_preview` looks for. -/
def toolCallReply (arguments : String) (model : PyVal) : Reply where
  modelHeader := .none
  response := .obj [
    ("choices", .list [.obj [("message", .obj [("tool_calls", .list [.obj [
      ("type", .str "function"),
      ("function", .obj [("arguments", .str arguments)])]])])]]),
    ("model", model),
    ("usage", .none)]

theorem passes_toolCallReply (arguments : String) (model : PyVal) :
    Passes (toolCallReply arguments model).response (.str arguments) :=
  ⟨_, _, ⟨_, _, _, _, ⟨_, rfl, rfl⟩, ⟨_, rfl, rfl⟩, ⟨_, rfl, rfl⟩⟩, ⟨_, rfl, rfl⟩, ⟨_, rfl, rfl⟩,
    ⟨_, rfl, rfl⟩⟩

/-- The arguments of a tool call that has a text and nothing else. -/
def textArguments (text : String) : String :=
  String.ofList (Json.dumps Json.compact (strings [("text", text)]))

theorem readFields_textArguments (text : String) :
    readFields (.str (textArguments text)) = .object (rawStrings [("text", text)]) := by
  unfold textArguments
  exact readsStrings_readFields _ _ (List.nodup_singleton _) (loads_strings _)

/-- A gateway whose every answer is a tool call with the given preview text. -/
def textGateway (text : String) : Gateway where
  complete _ := .ok (toolCallReply (textArguments text) (.str "claude-haiku"))
  parse := readFields

theorem textGateway_parse (text : String) : (textGateway text).parse = readFields := rfl

theorem textGateway_preview {text : String} (hlength : 40 ≤ text.length ∧ text.length ≤ 600)
    (prompt : UserPrompt) :
    writePreview (textGateway text) prompt =
      .ok (some ⟨text, "", "", .str "claude-haiku"⟩) := by
  have hcall : (textGateway text).complete prompt =
      .ok (toolCallReply (textArguments text) (.str "claude-haiku")) := rfl
  have hparsed : (textGateway text).parse (.str (textArguments text)) =
      .object (rawStrings [("text", text)]) := by
    rw [textGateway_parse, readFields_textArguments]
  have hvalid : modelValidate (rawStrings [("text", text)]) = some ⟨text, "", "", .str ""⟩ := by
    simp [modelValidate, rawStrings, strField, knownMarket, hlength]
  exact writePreview_passes hcall (passes_toolCallReply _ _) hparsed hvalid rfl
    (counted_of_none ⟨_, rfl, rfl⟩)

/-- A preview text of forty times the same letter. -/
def letters (c : Char) : String := String.ofList (List.replicate 40 c)

def letterPreview (c : Char) : Commentary := ⟨letters c, "", "", .str "claude-haiku"⟩

theorem letters_preview (c : Char) (prompt : UserPrompt) :
    writePreview (textGateway (letters c)) prompt = .ok (some (letterPreview c)) :=
  textGateway_preview (by simp [letters]) prompt

def envOf (gateway : Gateway) : JobEnv where
  now := 0
  gateway := gateway
  fails _ := false
  redisSet := .done

def plainText : JobEnv := envOf (textGateway (letters 'a'))

/-- A NUL, and forty times the same letter. -/
def nulText : String := String.ofList (Char.ofNat 0 :: List.replicate 40 'a')

def textWithNul : JobEnv := envOf (textGateway nulText)

theorem previewStorable_textWithNul :
    previewStorable (jobPreview ℝ textWithNul newLeague newFixture) = false := by
  have hpreview : jobPreview ℝ textWithNul newLeague newFixture =
      .ok (some ⟨nulText, "", "", .str "claude-haiku"⟩) :=
    textGateway_preview (by decide) _
  rw [hpreview]
  decide +kernel

theorem prediction_newLeague (cache : Cache) :
    (⟨newLeague, cache⟩ : Stores).prediction 1 = none := by
  show newLeague.predictionRows[((1 : ℤ), ENGINE_VERSION)]? = none
  decide +kernel

/-- A plain preview text leaves the numbers alone. -/
theorem numbers_survive_plain_preview :
    ∃ row, (processJob ℝ plainText ⟨newLeague, ∅⟩ 1).1.prediction 1 = some row ∧
      (processJob ℝ plainText.silent ⟨newLeague, ∅⟩ 1).1.prediction 1 = some row := by
  have hup : plainText.PostgresUp := fun _ => rfl
  have hstores := newLeague_stores plainText
  have hiff := numbers_survive_preview_iff ℝ plainText ⟨newLeague, ∅⟩ 1 newFixture
    hup fetch_newFixture hstores
  rw [hiff, ← previewStorable_iff]
  left
  show previewStorable (writePreview (textGateway (letters 'a')) _) = true
  rw [letters_preview]
  decide +kernel

/-- The text is 41 characters long, and the NUL in it costs the fixture its numbers. -/
theorem nul_in_preview_loses_numbers :
    ¬ ∀ (env : JobEnv) (s : Stores) (matchId : ℤ) (m : Match), env.PostgresUp →
      fetchMatchViaId s.db matchId = some m →
      (storePrediction s.db matchId ENGINE_VERSION (jobRow ℝ env s.db m)).isOk →
      ∃ row, (processJob ℝ env s matchId).1.prediction matchId = some row ∧
        (processJob ℝ env.silent s matchId).1.prediction matchId = some row := by
  intro h
  have hup : textWithNul.PostgresUp := fun _ => rfl
  have haccepts := newLeague_accepts textWithNul
  obtain ⟨row, hrow, -⟩ := h textWithNul ⟨newLeague, ∅⟩ 1 newFixture hup fetch_newFixture
    (newLeague_stores textWithNul)
  have hjob := processJob_prediction ℝ (s := ⟨newLeague, ∅⟩) hup fetch_newFixture haccepts
  rw [previewStorable_textWithNul, if_neg Bool.false_ne_true, prediction_newLeague] at hjob
  rw [hjob] at hrow
  cases hrow

end AGame.Brain
