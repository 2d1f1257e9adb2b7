import AGame.Brain.Resilience
import AGame.Pipeline.World
import AGame.Worker.Frames

/-!
# Who writes what

The worker and the backfill write the facts and the outbox, the brain the
predictions, the previews and the cache, a request the cache. These are the
frame conditions of the four kinds of step; invariants about one table are
proved against the steps that write it.
-/

namespace AGame.Pipeline

open Std (ExtTreeMap)
open Base Brain

variable {sh sh' : Shared}

/-! ## The brain's two upserts -/

/-- The row of a preview. -/
structure Holds (row : CommentaryRow) (c : Commentary) : Prop where
  sourceModel : textArgument c.sourceModel = .ok row.sourceModel
  prediction : row.prediction.val = c.text
  suggestedBet : row.suggestedBet.val = c.suggestedBet
  suggestedBetReason : row.suggestedBetReason.val = c.suggestedBetReason

/-- What the transaction of a job does: the prediction row, and with a preview
the commentary row. -/
theorem writeRows_ok {db db' : Db} {m : ℤ} {values : PredictionValues}
    {preview : Option Commentary} (h : writeRows db m values preview = .ok db') :
    ∃ hfits, db'.predictionRows =
        db.predictionRows.insert (m, Engine.ENGINE_VERSION) ⟨values, hfits⟩ ∧
      db'.competitionRows = db.competitionRows ∧ db'.seasonRows = db.seasonRows ∧
      db'.teamRows = db.teamRows ∧ db'.matchRows = db.matchRows ∧
      db'.rabbitEventRows = db.rabbitEventRows ∧
      ((preview = none ∧ db'.commentaryRows = db.commentaryRows) ∨
        ∃ c row, preview = some c ∧ Holds row c ∧
          db'.commentaryRows = db.commentaryRows.insert m row) := by
  simp only [writeRows, bind_eq_ok] at h
  obtain ⟨db₁, hprediction, h⟩ := h
  obtain ⟨hfits, hmatch, rfl⟩ := storePrediction_ok hprediction
  refine ⟨hfits, ?_⟩
  cases preview with
  | none =>
      rw [← pure_eq_ok.mp h]
      exact ⟨rfl, rfl, rfl, rfl, rfl, rfl, Or.inl ⟨rfl, rfl⟩⟩
  | some c =>
      obtain ⟨row, _, hmodel, htext, hbet, hreason, rfl⟩ := storeCommentary_ok h
      have hholds : Holds row c := {
        sourceModel := hmodel
        prediction := textArgument_str_ok htext
        suggestedBet := textArgument_str_ok hbet
        suggestedBetReason := textArgument_str_ok hreason }
      exact ⟨rfl, rfl, rfl, rfl, rfl, rfl, Or.inr ⟨c, row, rfl, hholds, rfl⟩⟩

theorem writeRows_of_storable {db : Db} {m : ℤ} {values : PredictionValues}
    {preview : Option Commentary} (hfits : values.fits = true) (hmatch : m ∈ db.matchRows)
    (hpreview : previewStorable (.ok preview) = true) :
    ∃ db', writeRows db m values preview = .ok db' := by
  unfold writeRows
  rw [storePrediction_eq hfits hmatch]
  cases preview with
  | none => exact ⟨_, rfl⟩
  | some c =>
      obtain ⟨row, hrow⟩ := storeCommentary_of_storable hpreview
        (db.putPrediction m Engine.ENGINE_VERSION ⟨values, hfits⟩ hmatch) hmatch
      exact ⟨_, hrow⟩

/-- The worker sees nothing of a job. -/
theorem writeRows_view {db db' : Db} {m : ℤ} {values : PredictionValues}
    {preview : Option Commentary} (h : writeRows db m values preview = .ok db') :
    Worker.workerView db' = Worker.workerView db := by
  obtain ⟨-, -, hcompetitions, hseasons, hteams, hmatches, hevents, -⟩ := writeRows_ok h
  exact Db.ext hcompetitions hteams hseasons hmatches hevents rfl rfl

/-! ## Frames -/

/-- A run of the worker neither predicts nor previews nor caches, and no match
ever leaves the table. -/
theorem WorkerStep.frame {pc pc' : WorkerPc} {e : WorkerEvent}
    (h : WorkerStep sh pc e sh' pc') :
    sh'.cache = sh.cache ∧ sh'.pg.db.predictionRows = sh.pg.db.predictionRows ∧
      sh'.pg.db.commentaryRows = sh.pg.db.commentaryRows ∧
      ∀ k, k ∈ sh.pg.db.matchRows → k ∈ sh'.pg.db.matchRows := by
  cases h with
  | competitionsSynced competitions hsync =>
      have hframe := (Worker.syncCompetitions_frame sh.pg competitions).1
      rw [hsync] at hframe
      exact ⟨rfl, hframe.predictions, hframe.commentaries, fun k hk => hframe.matches_ ▸ hk⟩
  | changed hsync =>
      have hrows := Worker.syncMatch_ok hsync
      exact ⟨rfl, hrows.predictions, hrows.commentaries, fun k => hrows.kept⟩
  | unchanged hsync =>
      have hrows := Worker.syncMatch_ok hsync
      exact ⟨rfl, hrows.predictions, hrows.commentaries, fun k => hrows.kept⟩
  | fetched | reserved | outboxRead | outboxEmpty | accepted | confirmed | deleted | died =>
      exact ⟨rfl, rfl, rfl, fun _ hk => hk⟩

/-- The brain writes no fact and no outbox row. -/
theorem BrainStep.frame {pc pc' : BrainPc} {e : BrainEvent} (h : BrainStep sh pc e sh' pc') :
    sh'.pg.db.matchRows = sh.pg.db.matchRows ∧
      sh'.pg.db.rabbitEventRows = sh.pg.db.rabbitEventRows ∧
      sh'.pg.rabbitEventSeq = sh.pg.rabbitEventSeq := by
  cases h with
  | stored hwrite =>
      obtain ⟨-, -, -, -, -, hmatches, hevents, -⟩ := writeRows_ok hwrite
      exact ⟨hmatches, hevents, rfl⟩
  | delivered | absent | matched | trained | previewed | warmed | warmFailed | raised
  | settled | crashed | cancelled => exact ⟨rfl, rfl, rfl⟩

/-- The queue grows at its end, by one accepted message. -/
theorem WorkerStep.queue {pc pc' : WorkerPc} {e : WorkerEvent}
    (h : WorkerStep sh pc e sh' pc') :
    sh'.queue = sh.queue ∨ ∃ m, e = .accepted m ∧ sh'.queue = sh.queue ++ [m] := by
  cases h with
  | accepted => exact Or.inr ⟨_, rfl, rfl⟩
  | competitionsSynced | fetched | reserved | changed | unchanged | outboxRead | outboxEmpty
  | confirmed | deleted | died => exact Or.inl rfl

/-- A consumer takes a message out, and puts it back when it dies. -/
theorem BrainStep.queue {pc pc' : BrainPc} {e : BrainEvent} (h : BrainStep sh pc e sh' pc') :
    sh'.queue = sh.queue ∨
      (∃ m pre post, e = .delivered m ∧ pc = .waiting ∧ pc' = .delivered m ∧
        sh.queue = pre ++ m :: post ∧ sh'.queue = pre ++ post) ∨
      ∃ m, e = .crashed m ∧ pc.message = some m ∧ pc' = .waiting ∧
        sh'.queue = m :: sh.queue := by
  cases h with
  | delivered hqueue => exact Or.inr (Or.inl ⟨_, _, _, rfl, rfl, rfl, hqueue, rfl⟩)
  | crashed hmessage => exact Or.inr (Or.inr ⟨_, rfl, hmessage, rfl, rfl⟩)
  | absent | matched | trained | previewed | stored | warmed | warmFailed | raised | settled
  | cancelled => exact Or.inl rfl

/-- A request leaves Postgres and the queue alone. -/
theorem RequestStep.frame {pc pc' : RequestPc} {e : RequestEvent}
    (h : RequestStep sh pc e sh' pc') : sh'.pg = sh.pg ∧ sh'.queue = sh.queue := by
  cases h <;> exact ⟨rfl, rfl⟩

/-- Backfills and expiry predict nothing, preview nothing and publish nothing. -/
theorem EnvStep.frame {e : EnvEvent} (h : EnvStep sh e sh') :
    sh'.queue = sh.queue ∧ sh'.pg.db.rabbitEventRows = sh.pg.db.rabbitEventRows ∧
      sh'.pg.rabbitEventSeq = sh.pg.rabbitEventSeq ∧
      sh'.pg.db.predictionRows = sh.pg.db.predictionRows ∧
      sh'.pg.db.commentaryRows = sh.pg.db.commentaryRows ∧
      ∀ k, k ∈ sh.pg.db.matchRows → k ∈ sh'.pg.db.matchRows := by
  cases h with
  | @backfill pg ms n hsync =>
      have hframe := Worker.syncHistoricMatches_frame sh.pg ms
      rw [hsync] at hframe
      obtain ⟨hfacts, hseq⟩ := hframe
      exact ⟨rfl, hfacts.events, hseq, hfacts.predictions, hfacts.commentaries, hfacts.kept⟩
  | expired m => exact ⟨rfl, rfl, rfl, rfl, rfl, fun _ hk => hk⟩

end AGame.Pipeline
