import AGame.Brain.Resilience

/-!
# Messages that come twice, or in another order

A job reads matches, seasons and teams and writes none of them, so what it puts
under its match's keys is settled by these tables, the clock and the preview
(`jobWrites`). The prediction, the commentary and the cache entry of a match are
then registers to which every delivery of the match writes the same value, and
only the set of matches delivered counts (`redelivery_harmless`).
-/

namespace AGame.Brain

open Std (ExtTreeMap)
open Base Engine

/-! ## What a job writes -/

/-- The arguments of `store_commentary`, encoded. -/
def commentaryRow (c : Commentary) : Except PgError CommentaryRow := do
  let sourceModel ← textArgument c.sourceModel
  let prediction ← textArgument (.str c.text)
  let suggestedBet ← textArgument (.str c.suggestedBet)
  let suggestedBetReason ← textArgument (.str c.suggestedBetReason)
  return { sourceModel, prediction, suggestedBet, suggestedBetReason }

/-- The rows of one committed job, and the text it caches. -/
structure JobWrites where
  prediction : PredictionRow
  commentary : Option (CommentaryRow × String)

section

variable (R : Type) [Field R] [LinearOrder R] [FloorRing R] [PyMath R]

/-- The preview of a match and its probabilities. -/
abbrev PreviewFunction := Match → Poisson.ScoreProbabilities R → Option Commentary

variable {R}

/-- What a job for a match writes, if its rows are accepted. -/
def jobWrites (now : Instant) (preview : PreviewFunction R) (db : Db) (matchId : ℤ) :
    Option JobWrites :=
  match fetchMatchViaId db matchId with
  | none => none
  | some m =>
      let n := numbers R (trainingSet db m) now m
      if hfits : (engineRow R (trainingSet db m) now m).fits = true then
        match preview m n.probabilities with
        | none => some ⟨⟨_, hfits⟩, none⟩
        | some c =>
            match commentaryRow c with
            | .error _ => none
            | .ok row => some ⟨⟨_, hfits⟩, some (row, c.text)⟩
      else none

/-- Nothing fails around the job, and the gateway's answer makes the preview
that the match and its probabilities are to have. -/
structure Settled (now : Instant) (preview : PreviewFunction R) (db : Db) (env : JobEnv)
    (matchId : ℤ) : Prop where
  clock : env.now = now
  postgresUp : env.PostgresUp
  redisUp : env.redisSet = .done
  preview : ∀ m, fetchMatchViaId db matchId = some m →
    jobPreview R env db m = .ok (preview m (numbers R (trainingSet db m) now m).probabilities)

/-! ## The transaction -/

theorem storeCommentary_eq (db : Db) {matchId : ℤ} (hmatch : matchId ∈ db.matchRows)
    (c : Commentary) :
    storeCommentary db matchId c.sourceModel (.str c.text) (.str c.suggestedBet)
        (.str c.suggestedBetReason) =
      (commentaryRow c).map fun row => db.putCommentary matchId row hmatch := by
  unfold storeCommentary commentaryRow
  cases textArgument c.sourceModel with
  | error e => rfl
  | ok model =>
      cases textArgument (.str c.text) with
      | error e => rfl
      | ok text =>
          cases textArgument (.str c.suggestedBet) with
          | error e => rfl
          | ok bet =>
              cases textArgument (.str c.suggestedBetReason) with
              | error e => rfl
              | ok reason =>
                  simp only [bind, Except.bind, hmatch, dif_pos]
                  rfl

/-- The transaction fails, or puts the prediction, or puts both rows. -/
theorem storeRows_writes {env : JobEnv} (hup : env.PostgresUp) {db : Db} {matchId : ℤ}
    {values : PredictionValues} (hfits : values.fits = true) (hmatch : matchId ∈ db.matchRows)
    (preview : Option Commentary) :
    storeRows env db matchId values preview =
      match preview with
      | none => .ok (db.putPrediction matchId ENGINE_VERSION ⟨values, hfits⟩ hmatch)
      | some c => liftPg ((commentaryRow c).map fun row =>
          (db.putPrediction matchId ENGINE_VERSION ⟨values, hfits⟩ hmatch).putCommentary
            matchId row hmatch) := by
  cases preview with
  | none =>
      simp only [storeRows, statement_up hup, storePrediction_eq hfits hmatch, liftPg]
      rfl
  | some c =>
      have hcommentary := storeCommentary_eq
        (db.putPrediction matchId ENGINE_VERSION ⟨values, hfits⟩ hmatch) hmatch c
      simp only [storeRows, statement_up hup, storePrediction_eq hfits hmatch]
      simp only [liftPg, bind, Except.bind, hcommentary]
      cases commentaryRow c <;> rfl

theorem storeRows_misfit {env : JobEnv} (hup : env.PostgresUp) {db : Db} {matchId : ℤ}
    {values : PredictionValues} (hfits : ¬ values.fits = true) (preview : Option Commentary) :
    storeRows env db matchId values preview =
      .error (.pg (.checkViolation "prediction")) := by
  have hstore : storePrediction db matchId ENGINE_VERSION values =
      .error (.checkViolation "prediction") := by
    rw [storePrediction, dif_neg hfits]
  simp only [storeRows, statement_up hup, hstore, liftPg]
  rfl

/-! ## One job -/

/-- The tables a job reads are those of the start. -/
structure SameFacts (db db' : Db) : Prop where
  competitions : db'.competitionRows = db.competitionRows
  teams : db'.teamRows = db.teamRows
  seasons : db'.seasonRows = db.seasonRows
  matches_ : db'.matchRows = db.matchRows
  events : db'.rabbitEventRows = db.rabbitEventRows

theorem SameFacts.refl (db : Db) : SameFacts db db := ⟨rfl, rfl, rfl, rfl, rfl⟩

theorem SameFacts.trans {db db' db'' : Db} (h : SameFacts db db') (h' : SameFacts db' db'') :
    SameFacts db db'' where
  competitions := h'.competitions.trans h.competitions
  teams := h'.teams.trans h.teams
  seasons := h'.seasons.trans h.seasons
  matches_ := h'.matches_.trans h.matches_
  events := h'.events.trans h.events

theorem SameFacts.fetch {db db' : Db} (h : SameFacts db db') (matchId : ℤ) :
    fetchMatchViaId db' matchId = fetchMatchViaId db matchId := by
  unfold fetchMatchViaId matchRecord
  rw [h.matches_, h.seasons, h.teams]

theorem SameFacts.training {db db' : Db} (h : SameFacts db db') (m : Match) :
    trainingSet db' m = trainingSet db m := by
  unfold trainingSet fetchMatchHistory historyRow
  rw [h.matches_, h.seasons]

theorem Settled.congr {now : Instant} {preview : PreviewFunction R} {db db' : Db} {env : JobEnv}
    {matchId : ℤ} (hs : Settled now preview db env matchId) (h : SameFacts db db') :
    Settled now preview db' env matchId where
  clock := hs.clock
  postgresUp := hs.postgresUp
  redisUp := hs.redisUp
  preview := by
    intro m hm
    rw [h.fetch] at hm
    have hpreview := hs.preview m hm
    unfold jobPreview at hpreview ⊢
    rw [h.training]
    exact hpreview

theorem jobWrites_congr (now : Instant) (preview : PreviewFunction R) {db db' : Db}
    (h : SameFacts db db') (matchId : ℤ) :
    jobWrites now preview db' matchId = jobWrites now preview db matchId := by
  unfold jobWrites
  simp only [h.fetch, h.training]

/-- The stores after a job has written. -/
def Stores.written (s : Stores) (matchId : ℤ) (hmatch : matchId ∈ s.db.matchRows)
    (w : JobWrites) : Stores :=
  let db := s.db.putPrediction matchId ENGINE_VERSION w.prediction hmatch
  match w.commentary with
  | none => ⟨db, s.cache⟩
  | some (row, text) => ⟨db.putCommentary matchId row hmatch, s.cache.set matchId text⟩

section Written

variable (s : Stores) {matchId : ℤ} (hmatch : matchId ∈ s.db.matchRows) (w : JobWrites)

theorem Stores.written_facts : SameFacts s.db (s.written matchId hmatch w).db := by
  unfold Stores.written
  cases w.commentary <;> exact ⟨rfl, rfl, rfl, rfl, rfl⟩

theorem Stores.written_prediction (key : ℤ × String) :
    (s.written matchId hmatch w).db.predictionRows[key]? =
      (if (matchId, ENGINE_VERSION) = key then some w.prediction else none).or
        s.db.predictionRows[key]? := by
  have hrows : (s.written matchId hmatch w).db.predictionRows =
      s.db.predictionRows.insert (matchId, ENGINE_VERSION) w.prediction := by
    unfold Stores.written
    cases w.commentary <;> rfl
  rw [hrows, getElem?_put]
  split_ifs <;> rfl

theorem Stores.written_commentary (key : ℤ) :
    (s.written matchId hmatch w).db.commentaryRows[key]? =
      (if matchId = key then w.commentary.map Prod.fst else none).or
        s.db.commentaryRows[key]? := by
  unfold Stores.written
  cases w.commentary with
  | none => simp [Db.putPrediction]
  | some prose =>
      simp only [Db.putCommentary, Db.putPrediction, getElem?_put, Option.map_some]
      split_ifs <;> rfl

theorem Stores.written_cache (key : String) :
    (s.written matchId hmatch w).cache[key]? =
      (if cacheKey matchId = key then w.commentary.map Prod.snd else none).or s.cache[key]? := by
  unfold Stores.written
  cases w.commentary with
  | none => simp
  | some prose =>
      simp only [Cache.set, getElem?_put, Option.map_some]
      split_ifs <;> rfl

end Written

/-- With nothing failing, a job stores the engine's row and the preview that
goes with it. -/
theorem computeAndStore_settled {now : Instant} {preview : PreviewFunction R} {env : JobEnv}
    {db : Db} {matchId : ℤ} {m : Match} (hs : Settled now preview db env matchId)
    (hm : fetchMatchViaId db matchId = some m) :
    computeAndStore R env db m =
      (storeRows env db matchId (engineRow R (trainingSet db m) now m)
        (preview m (numbers R (trainingSet db m) now m).probabilities)).map fun db' =>
          (db', preview m (numbers R (trainingSet db m) now m).probabilities) := by
  have hpreview := hs.preview m hm
  unfold jobPreview trainingSet at hpreview
  rw [hs.clock] at hpreview
  simp only [computeAndStore, statement_up hs.postgresUp, hs.clock, hpreview, fetchMatchViaId_id hm]
  rfl

/-- **A settled job writes what `jobWrites` says**, and a match that is not
found or whose rows are rejected is as if it had not been delivered. -/
theorem processJob_writes {now : Instant} {preview : PreviewFunction R} {env : JobEnv}
    {s : Stores} {matchId : ℤ} (hs : Settled now preview s.db env matchId) :
    (jobWrites now preview s.db matchId = none ∧ (processJob R env s matchId).1 = s) ∨
      ∃ w hmatch, jobWrites now preview s.db matchId = some w ∧
        (processJob R env s matchId).1 = s.written matchId hmatch w := by
  have hup := hs.postgresUp
  cases hm : fetchMatchViaId s.db matchId with
  | none =>
      left
      have hfetch := hup .fetchMatch
      exact ⟨by simp only [jobWrites, hm], by simp [processJob, hfetch, hm]⟩
  | some m =>
      have hmatch : matchId ∈ s.db.matchRows := by
        rw [← fetchMatchViaId_isSome, hm]
        rfl
      have hstore := computeAndStore_settled hs hm
      by_cases hfits : (engineRow R (trainingSet s.db m) now m).fits = true
      · rw [storeRows_writes hup hfits hmatch] at hstore
        cases hprose : preview m (numbers R (trainingSet s.db m) now m).probabilities with
        | none =>
            right
            rw [hprose] at hstore
            refine ⟨⟨⟨_, hfits⟩, none⟩, hmatch, ?_, ?_⟩
            · simp only [jobWrites, hm, hfits, dif_pos, hprose]
            · rw [processJob_ok R hup hm hstore]
              rfl
        | some c =>
            rw [hprose] at hstore
            cases hrow : commentaryRow c with
            | error e =>
                left
                simp only [hrow] at hstore
                refine ⟨?_, ?_⟩
                · simp only [jobWrites, hm, hfits, dif_pos, hprose, hrow]
                · rw [processJob_error R hup hm hstore]
            | ok row =>
                right
                simp only [hrow] at hstore
                refine ⟨⟨⟨_, hfits⟩, some (row, c.text)⟩, hmatch, ?_, ?_⟩
                · simp only [jobWrites, hm, hfits, dif_pos, hprose, hrow]
                · rw [processJob_ok R hup hm hstore]
                  simp only [warmCache, hs.redisUp]
                  rfl
      · left
        rw [storeRows_misfit hup hfits] at hstore
        refine ⟨?_, ?_⟩
        · simp only [jobWrites, hm, hfits]
          rfl
        · rw [processJob_error R hup hm hstore]

/-! ## The registers of a match -/

variable (now : Instant) (preview : PreviewFunction R) (db : Db)

def predictionWrite (key : ℤ × String) (matchId : ℤ) : Option PredictionRow :=
  if (matchId, ENGINE_VERSION) = key then
    (jobWrites now preview db matchId).map JobWrites.prediction
  else none

def commentaryWrite (key : ℤ) (matchId : ℤ) : Option CommentaryRow :=
  if matchId = key then
    (jobWrites now preview db matchId).bind fun w => w.commentary.map Prod.fst
  else none

def cacheWrite (key : String) (matchId : ℤ) : Option String :=
  if cacheKey matchId = key then
    (jobWrites now preview db matchId).bind fun w => w.commentary.map Prod.snd
  else none

/-- Each register holds what the job writes to it, or what it held. -/
structure Registers (s : Stores) (matchId : ℤ) (s' : Stores) : Prop where
  facts : SameFacts s.db s'.db
  predictions : ∀ key, s'.db.predictionRows[key]? =
    (predictionWrite now preview db key matchId).or s.db.predictionRows[key]?
  commentaries : ∀ key : ℤ, s'.db.commentaryRows[key]? =
    (commentaryWrite now preview db key matchId).or s.db.commentaryRows[key]?
  cache : ∀ key : String, s'.cache[key]? =
    (cacheWrite now preview db key matchId).or s.cache[key]?

variable {now preview db}

theorem processJob_registers {env : JobEnv} {s : Stores} {matchId : ℤ}
    (hs : Settled now preview s.db env matchId) (hfacts : SameFacts db s.db) :
    Registers now preview db s matchId (processJob R env s matchId).1 := by
  have hwrites := jobWrites_congr now preview hfacts matchId
  rcases processJob_writes hs with ⟨hnone, hstate⟩ | ⟨w, hmatch, hsome, hstate⟩
  · rw [hwrites] at hnone
    rw [hstate]
    refine ⟨.refl _, ?_, ?_, ?_⟩
    · intro key
      simp [predictionWrite, hnone]
    · intro key
      simp [commentaryWrite, hnone]
    · intro key
      simp [cacheWrite, hnone]
  · rw [hwrites] at hsome
    rw [hstate]
    refine ⟨s.written_facts hmatch w, ?_, ?_, ?_⟩
    · intro key
      rw [s.written_prediction hmatch w, predictionWrite, hsome, Option.map_some]
    · intro key
      rw [s.written_commentary hmatch w, commentaryWrite, hsome, Option.bind_some]
    · intro key
      rw [s.written_cache hmatch w, cacheWrite, hsome, Option.bind_some]

/-! ## A list of deliveries -/

variable (R) in
/-- The consumer, one message after another. -/
def processAll (s : Stores) (deliveries : List (JobEnv × ℤ)) : Stores :=
  deliveries.foldl (fun s d => (processJob R d.1 s d.2).1) s

/-- Every delivery is settled with respect to the tables of the start. -/
def AllSettled (now : Instant) (preview : PreviewFunction R) (db : Db)
    (deliveries : List (JobEnv × ℤ)) : Prop :=
  ∀ d ∈ deliveries, Settled now preview db d.1 d.2

/-- One delivery of a list: what every register holds afterwards. -/
theorem delivery_registers {deliveries : List (JobEnv × ℤ)}
    (h : AllSettled now preview db deliveries) :
    ∀ s : Stores, SameFacts db s.db → ∀ d ∈ deliveries,
      Registers now preview db s d.2 (processJob R d.1 s d.2).1 := by
  intro s hfacts d hd
  exact processJob_registers ((h d hd).congr hfacts) hfacts

theorem processAll_facts {s : Stores} {deliveries : List (JobEnv × ℤ)}
    (h : AllSettled now preview s.db deliveries) :
    SameFacts s.db (processAll R s deliveries).db := by
  induction deliveries using List.reverseRecOn with
  | nil => exact .refl s.db
  | append_singleton deliveries d ih =>
      have hfacts := ih fun e he => h e (List.mem_append_left _ he)
      have hlast := delivery_registers h _ hfacts d (by simp)
      unfold processAll at hfacts ⊢
      rw [List.foldl_append]
      exact hfacts.trans hlast.facts

/-- A register after a list of deliveries: the last write to it, or what it held. -/
theorem processAll_register {κ : Type} {s : Stores} {deliveries : List (JobEnv × ℤ)}
    (h : AllSettled now preview s.db deliveries) (read : Stores → Option κ)
    (write : ℤ → Option κ)
    (hread : ∀ s₁ matchId s₂, Registers now preview s.db s₁ matchId s₂ →
      read s₂ = (write matchId).or (read s₁)) :
    read (processAll R s deliveries) =
      (lastValue write (deliveries.map Prod.snd)).or (read s) := by
  have hrun := foldl_register (fun s d => (processJob R d.1 s d.2).1) read
    (fun s' => SameFacts s.db s'.db) (fun d : JobEnv × ℤ => write d.2) deliveries ?_
    (SameFacts.refl s.db)
  · rw [processAll, hrun]
    congr 1
    simp only [lastValue, ← List.map_reverse, List.findSome?_map]
    rfl
  · intro s₁ hfacts d hd
    have hlast := delivery_registers h s₁ hfacts d hd
    exact ⟨hfacts.trans hlast.facts, hread _ _ _ hlast⟩

/-! ### Only the set of matches counts -/

/-- Two matches have no register in common, so a register holds the same after
two lists of deliveries of the same matches. -/
theorem processAll_register_eq {κ β : Type} [DecidableEq κ] {s : Stores}
    {deliveries deliveries' : List (JobEnv × ℤ)}
    (h : AllSettled now preview s.db deliveries) (h' : AllSettled now preview s.db deliveries')
    (hsame : ∀ matchId, matchId ∈ deliveries.map Prod.snd ↔
      matchId ∈ deliveries'.map Prod.snd)
    {place : ℤ → κ} (hplace : Function.Injective place) (key : κ) (value : ℤ → Option β)
    (read : Stores → Option β)
    (hread : ∀ s₁ matchId s₂, Registers now preview s.db s₁ matchId s₂ →
      read s₂ = (if place matchId = key then value matchId else none).or (read s₁)) :
    read (processAll R s deliveries) = read (processAll R s deliveries') := by
  have hagree : ∀ (a b : ℤ) (v w : β),
      (if place a = key then value a else none) = some v →
      (if place b = key then value b else none) = some w → v = w := by
    intro a b v w hv hw
    split_ifs at hv hw with ha hb
    obtain rfl := hplace (ha.trans hb.symm)
    exact Option.some.inj (hv.symm.trans hw)
  rw [processAll_register h read _ hread, processAll_register h' read _ hread,
    lastValue_congr hsame hagree]

theorem predictionPlace_injective :
    Function.Injective fun matchId : ℤ => (matchId, ENGINE_VERSION) := by
  intro a b h
  exact (Prod.mk.inj h).1

/-- What a list of deliveries does not touch: every table but the two of the
brain, and in those and in the cache whatever is not of a delivered match and
of this engine version. -/
structure Untouched (s s' : Stores) (ids : List ℤ) : Prop where
  facts : SameFacts s.db s'.db
  predictions : ∀ (matchId : ℤ) (version : String), matchId ∉ ids ∨ version ≠ ENGINE_VERSION →
    s'.db.predictionRows[(matchId, version)]? = s.db.predictionRows[(matchId, version)]?
  commentaries : ∀ matchId : ℤ, matchId ∉ ids →
    s'.db.commentaryRows[matchId]? = s.db.commentaryRows[matchId]?
  cache : ∀ key : String, (∀ matchId ∈ ids, cacheKey matchId ≠ key) →
    s'.cache[key]? = s.cache[key]?

theorem processAll_untouched {s : Stores} {deliveries : List (JobEnv × ℤ)}
    (h : AllSettled now preview s.db deliveries) :
    Untouched s (processAll R s deliveries) (deliveries.map Prod.snd) where
  facts := processAll_facts h
  predictions := by
    intro matchId version hother
    rw [processAll_register h (fun s => s.db.predictionRows[(matchId, version)]?) _
      fun _ _ _ hr => hr.predictions (matchId, version)]
    rw [lastValue_eq_none.mpr, Option.none_or]
    intro id hid
    rw [predictionWrite, if_neg]
    intro heq
    obtain ⟨rfl, rfl⟩ := Prod.mk.inj heq
    rcases hother with hother | hother
    · exact hother hid
    · exact hother rfl
  commentaries := by
    intro matchId hother
    rw [processAll_register h (fun s => s.db.commentaryRows[matchId]?) _
      fun _ _ _ hr => hr.commentaries matchId]
    rw [lastValue_eq_none.mpr, Option.none_or]
    intro id hid
    rw [commentaryWrite, if_neg]
    rintro rfl
    exact hother hid
  cache := by
    intro key hother
    rw [processAll_register h (fun s => s.cache[key]?) _ fun _ _ _ hr => hr.cache key]
    rw [lastValue_eq_none.mpr, Option.none_or]
    intro id hid
    rw [cacheWrite, if_neg (hother id hid)]

end

/-- **Duplicated and reordered messages are harmless.** Two lists of deliveries
of the same matches, in any order and any number, leave the same stores, and
nothing of a match that is not delivered or of another engine version moves. -/
theorem redelivery_harmless (R : Type) [Field R] [LinearOrder R] [FloorRing R] [PyMath R]
    (now : Instant) (preview : PreviewFunction R) (s : Stores)
    (deliveries deliveries' : List (JobEnv × ℤ))
    (h : AllSettled now preview s.db deliveries)
    (h' : AllSettled now preview s.db deliveries')
    (hsame : ∀ matchId, matchId ∈ deliveries.map Prod.snd ↔
      matchId ∈ deliveries'.map Prod.snd) :
    processAll R s deliveries = processAll R s deliveries' ∧
      Untouched s (processAll R s deliveries) (deliveries.map Prod.snd) := by
  refine ⟨?_, processAll_untouched h⟩
  have hfacts := processAll_facts h
  have hfacts' := processAll_facts h'
  have hdb : (processAll R s deliveries).db = (processAll R s deliveries').db := by
    apply Db.ext
    · rw [hfacts.competitions, hfacts'.competitions]
    · rw [hfacts.teams, hfacts'.teams]
    · rw [hfacts.seasons, hfacts'.seasons]
    · rw [hfacts.matches_, hfacts'.matches_]
    · rw [hfacts.events, hfacts'.events]
    · ext1 key
      exact processAll_register_eq h h' hsame Function.injective_id key _
        (fun s => s.db.commentaryRows[key]?) fun _ _ _ hr => hr.commentaries key
    · ext1 key
      exact processAll_register_eq h h' hsame predictionPlace_injective key _
        (fun s => s.db.predictionRows[key]?) fun _ _ _ hr => hr.predictions key
  have hcache : (processAll R s deliveries).cache = (processAll R s deliveries').cache := by
    ext1 key
    exact processAll_register_eq h h' hsame cacheKey_injective key _ (fun s => s.cache[key]?)
      fun _ _ _ hr => hr.cache key
  show (⟨(processAll R s deliveries).db, (processAll R s deliveries).cache⟩ : Stores) = _
  rw [hdb, hcache]

/-! ### A match twice, and one that is not there -/

theorem settled_plainText (db : Db) (matchId : ℤ) :
    Settled (R := ℝ) 0 (fun _ _ => some (letterPreview 'a')) db plainText matchId where
  clock := rfl
  postgresUp := fun _ => rfl
  redisUp := rfl
  preview := fun _ _ => letters_preview 'a' _

theorem newLeague_redelivered :
    processAll ℝ ⟨newLeague, ∅⟩ [(plainText, 1), (plainText, 7), (plainText, 1)] =
        processAll ℝ ⟨newLeague, ∅⟩ [(plainText, 7), (plainText, 1)] ∧
      Untouched ⟨newLeague, ∅⟩
        (processAll ℝ ⟨newLeague, ∅⟩ [(plainText, 1), (plainText, 7), (plainText, 1)])
        [1, 7, 1] := by
  apply redelivery_harmless ℝ 0 (fun _ _ => some (letterPreview 'a')) ⟨newLeague, ∅⟩
    [(plainText, 1), (plainText, 7), (plainText, 1)] [(plainText, 7), (plainText, 1)]
  · simp [AllSettled, settled_plainText]
  · simp [AllSettled, settled_plainText]
  · intro matchId
    simp only [List.map_cons, List.map_nil, List.mem_cons, List.not_mem_nil, or_false]
    omega

end AGame.Brain
