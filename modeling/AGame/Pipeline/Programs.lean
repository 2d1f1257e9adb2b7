import AGame.Pipeline.Frames

/-!
# The programs are runs of the pipeline

`process_job`, a request and the outbox drain were modelled as functions of the
stores they find. Undisturbed, each is a segment of the pipeline with the
same effect, whatever fails on the way; the pipeline adds only that others get in
between.
-/

namespace AGame.Pipeline

open Base Engine Brain

variable {W B A : Type}

/-- Everybody at rest. -/
def World.atRest (sh : Shared) : World W B A where
  shared := sh
  workers _ := .idle
  brains _ := .waiting
  requests _ := .idle

theorem initial_atRest {sh : Shared} (hevents : sh.pg.db.rabbitEventRows = ∅)
    (hpredictions : sh.pg.db.predictionRows = ∅) (hcommentaries : sh.pg.db.commentaryRows = ∅)
    (hcache : sh.cache = ∅) : Initial (World.atRest sh : World W B A) where
  workers _ := rfl
  brains _ := rfl
  requests _ := rfl
  outbox := hevents
  predictions := hpredictions
  commentaries := hcommentaries
  cache := hcache

/-! ## One party by itself -/

/-- A consumer alone with the stores. -/
def consumer : System (Shared × BrainPc) BrainEvent where
  init s := s.2 = .waiting
  step s e t := BrainStep s.1 s.2 e t.1 t.2

/-- A request alone with the stores. -/
def reader : System (Shared × RequestPc) RequestEvent where
  init s := s.2 = .idle
  step s e t := RequestStep s.1 s.2 e t.1 t.2

/-- A run of the worker alone with the stores. -/
def ingester : System (Shared × WorkerPc) WorkerEvent where
  init s := s.2 = .idle
  step s e t := WorkerStep s.1 s.2 e t.1 t.2

def World.setWorker [DecidableEq W] (s : World W B A) (w : W) (local_ : Shared × WorkerPc) :
    World W B A :=
  { s with shared := local_.1, workers := Function.update s.workers w local_.2 }

@[simp] theorem World.setWorker_self [DecidableEq W] (s : World W B A) (w : W) :
    s.setWorker w (s.shared, s.workers w) = s := by
  simp [World.setWorker]

def World.setBrain [DecidableEq B] (s : World W B A) (b : B) (local_ : Shared × BrainPc) :
    World W B A :=
  { s with shared := local_.1, brains := Function.update s.brains b local_.2 }

@[simp] theorem World.setBrain_self [DecidableEq B] (s : World W B A) (b : B) :
    s.setBrain b (s.shared, s.brains b) = s := by
  simp [World.setBrain]

def World.setRequest [DecidableEq A] (s : World W B A) (r : A) (local_ : Shared × RequestPc) :
    World W B A :=
  { s with shared := local_.1, requests := Function.update s.requests r local_.2 }

@[simp] theorem World.setRequest_self [DecidableEq A] (s : World W B A) (r : A) :
    s.setRequest r (s.shared, s.requests r) = s := by
  simp [World.setRequest]

section

variable [DecidableEq W] [DecidableEq B] [DecidableEq A]

theorem World.step_setWorker (s : World W B A) (w : W) {x y : Shared × WorkerPc}
    {e : WorkerEvent} (h : WorkerStep x.1 x.2 e y.1 y.2) :
    WorldStep (s.setWorker w x) (.worker w e) (s.setWorker w y) := by
  have hpc : (s.setWorker w x).workers w = x.2 := by
    simp [World.setWorker]
  have hnext : s.setWorker w y = (s.setWorker w x).setWorker w y := by
    simp [World.setWorker]
  rw [hnext]
  refine .worker ?_
  rw [hpc]
  exact h

/-- While the others wait, a run of the worker is a segment of the pipeline. -/
theorem steps_of_ingester {s : World W B A} {w : W} {es : List WorkerEvent}
    {t : Shared × WorkerPc} (h : ingester.Steps (s.shared, s.workers w) es t) :
    (pipeline W B A).Steps s (es.map (.worker w)) (s.setWorker w t) := by
  have hstep : ∀ x e y, ingester.step x e y →
      (pipeline W B A).step (s.setWorker w x) (.worker w e) (s.setWorker w y) :=
    fun _ _ _ hstep => s.step_setWorker w hstep
  have hsteps := h.map hstep
  rwa [World.setWorker_self] at hsteps

theorem World.step_setBrain (s : World W B A) (b : B) {x y : Shared × BrainPc}
    {e : BrainEvent} (h : BrainStep x.1 x.2 e y.1 y.2) :
    WorldStep (s.setBrain b x) (.brain b e) (s.setBrain b y) := by
  have hpc : (s.setBrain b x).brains b = x.2 := by
    simp [World.setBrain]
  have hnext : s.setBrain b y = (s.setBrain b x).setBrain b y := by
    simp [World.setBrain]
  rw [hnext]
  refine .brain ?_
  rw [hpc]
  exact h

/-- The same for a consumer, -/
theorem steps_of_consumer {s : World W B A} {b : B} {es : List BrainEvent}
    {t : Shared × BrainPc} (h : consumer.Steps (s.shared, s.brains b) es t) :
    (pipeline W B A).Steps s (es.map (.brain b)) (s.setBrain b t) := by
  have hstep : ∀ x e y, consumer.step x e y →
      (pipeline W B A).step (s.setBrain b x) (.brain b e) (s.setBrain b y) :=
    fun _ _ _ hstep => s.step_setBrain b hstep
  have hsteps := h.map hstep
  rwa [World.setBrain_self] at hsteps

theorem World.step_setRequest (s : World W B A) (r : A) {x y : Shared × RequestPc}
    {e : RequestEvent} (h : RequestStep x.1 x.2 e y.1 y.2) :
    WorldStep (s.setRequest r x) (.request r e) (s.setRequest r y) := by
  have hpc : (s.setRequest r x).requests r = x.2 := by
    simp [World.setRequest]
  have hnext : s.setRequest r y = (s.setRequest r x).setRequest r y := by
    simp [World.setRequest]
  rw [hnext]
  refine .request ?_
  rw [hpc]
  exact h

/-- and for a request. -/
theorem steps_of_reader {s : World W B A} {r : A} {es : List RequestEvent}
    {t : Shared × RequestPc} (h : reader.Steps (s.shared, s.requests r) es t) :
    (pipeline W B A).Steps s (es.map (.request r)) (s.setRequest r t) := by
  have hstep : ∀ x e y, reader.step x e y →
      (pipeline W B A).step (s.setRequest r x) (.request r e) (s.setRequest r y) :=
    fun _ _ _ hstep => s.step_setRequest r hstep
  have hsteps := h.map hstep
  rwa [World.setRequest_self] at hsteps

/-! ### From rest to rest -/

theorem atRest_consumer {sh sh' : Shared} {es : List BrainEvent} (b : B)
    (h : consumer.Steps (sh, .waiting) es (sh', .waiting)) :
    (pipeline W B A).Steps (.atRest sh) (es.map (.brain b)) (.atRest sh') := by
  have hrest : (World.atRest sh : World W B A).setBrain b (sh', .waiting) = .atRest sh' := by
    simp [World.setBrain, World.atRest]
  have hsteps := steps_of_consumer (s := (World.atRest sh : World W B A)) (b := b) h
  rwa [hrest] at hsteps

theorem atRest_env {sh sh' : Shared} {e : EnvEvent} (h : EnvStep sh e sh') :
    (pipeline W B A).Steps (.atRest sh) [.env e] (.atRest sh') :=
  .single (.env h)

end

/-! ### Nothing fails -/

/-- An error, or the death of a party. -/
def Event.failed : Event W B A → Bool
  | .worker _ .died => true
  | .brain _ (.raised _) => true
  | .brain _ (.warmFailed _) => true
  | .brain _ (.crashed _) => true
  | .brain _ (.cancelled _) => true
  | .request _ .failed => true
  | _ => false

def NoFailure (h : List (Event W B A)) : Prop := ∀ e ∈ h, e.failed = false

theorem NoFailure.append {h k : List (Event W B A)} (hh : NoFailure h) (hk : NoFailure k) :
    NoFailure (h ++ k) := List.forall_mem_append.mpr ⟨hh, hk⟩

/-! ## `process_job` -/

/-- What a committed transaction wrote does not depend on the failures that
did not happen. -/
theorem storeRows_ok {env : JobEnv} {db db' : Db} {m : ℤ} {values : PredictionValues}
    {preview : Option Commentary} (h : storeRows env db m values preview = .ok db') :
    writeRows db m values preview = .ok db' := by
  have hlift : ∀ {x : Except PgError Db} {y : Db}, Brain.liftPg x = .ok y → x = .ok y := by
    intro x y hxy
    cases x with
    | ok a => exact congrArg _ (Except.ok.inj hxy)
    | error e => cases hxy
  simp only [storeRows, bind_eq_ok] at h
  obtain ⟨-, -, -, -, db₁, hprediction, h⟩ := h
  simp only [writeRows, bind_eq_ok]
  refine ⟨db₁, hlift hprediction, ?_⟩
  cases preview with
  | none =>
      simp only [bind_eq_ok] at h
      obtain ⟨-, -, h⟩ := h
      exact congrArg _ (pure_eq_ok.mp h)
  | some c =>
      simp only [bind_eq_ok] at h
      obtain ⟨-, -, db₂, hcommentary, -, -, h⟩ := h
      show storeCommentary db₁ m _ _ _ _ = .ok db'
      rw [hlift hcommentary]
      exact congrArg _ (pure_eq_ok.mp h)

theorem consumer_next {start : Shared × BrainPc} {es : List BrainEvent} {e : BrainEvent}
    {sh sh' : Shared} {pc pc' : BrainPc} (h : consumer.Steps start es (sh, pc))
    (hstep : BrainStep sh pc e sh' pc') : consumer.Steps start (es ++ [e]) (sh', pc') :=
  h.next hstep

/-- The steps of a job up to its commit. -/
theorem job_steps (sh : Shared) {m : ℤ} {fixture : Match} {now : Instant} {gateway : Gateway}
    {preview : Option Commentary} {db : Db}
    (hm : fetchMatchViaId sh.pg.db m = some fixture)
    (hpreview : writePreview gateway (userPrompt fixture
      (numbers ℝ (trainingSet sh.pg.db fixture) now fixture).probabilities) = .ok preview)
    (hrows : writeRows sh.pg.db fixture.id
      (engineRow ℝ (trainingSet sh.pg.db fixture) now fixture) preview = .ok db) :
    consumer.Steps (sh, .delivered m)
      [.matched m sh.pg.db fixture, .trained m sh.pg.db fixture now, .previewed m,
        .stored m (engineRow ℝ (trainingSet sh.pg.db fixture) now fixture) preview]
      (sh.setDb db, afterCommit m preview) := by
  have hdelivered : consumer.Steps (sh, .delivered m) [] (sh, .delivered m) := .refl _
  have hmatched := consumer_next hdelivered (.matched hm)
  have htrained := consumer_next hmatched (.trained now)
  have hpreviewed := consumer_next htrained (.previewed gateway hpreview)
  exact consumer_next hpreviewed (.stored hrows)

/-- A job without a failure, from delivery to acknowledgement. -/
def smoothJob (db : Db) (m : ℤ) (fixture : Match) (now : Instant) (values : PredictionValues)
    (preview : Option Commentary) : List BrainEvent :=
  [.delivered m, .matched m db fixture, .trained m db fixture now, .previewed m,
    .stored m values preview] ++
    (preview.toList.map fun c => .warmed m c.text) ++ [.settled m]

theorem noFailure_smoothJob (b : B) (db : Db) (m : ℤ) (fixture : Match) (now : Instant)
    (values : PredictionValues) (preview : Option Commentary) :
    NoFailure ((smoothJob db m fixture now values preview).map
      (Event.brain b : _ → Event W B A)) := by
  cases preview <;> simp [NoFailure, smoothJob, Event.failed]

/-- The cache after a job. -/
def warmed (cache : Cache) (m : ℤ) : Option Commentary → Cache
  | none => cache
  | some c => cache.set m c.text

theorem smoothJob_steps {sh : Shared} {pre post : List ℤ} {m : ℤ} {fixture : Match}
    {now : Instant} {gateway : Gateway} {preview : Option Commentary} {db : Db}
    (hqueue : sh.queue = pre ++ m :: post)
    (hm : fetchMatchViaId sh.pg.db m = some fixture)
    (hpreview : writePreview gateway (userPrompt fixture
      (numbers ℝ (trainingSet sh.pg.db fixture) now fixture).probabilities) = .ok preview)
    (hrows : writeRows sh.pg.db fixture.id
      (engineRow ℝ (trainingSet sh.pg.db fixture) now fixture) preview = .ok db) :
    consumer.Steps (sh, .waiting) (smoothJob sh.pg.db m fixture now
        (engineRow ℝ (trainingSet sh.pg.db fixture) now fixture) preview)
      ({ sh.setDb db with queue := pre ++ post, cache := warmed sh.cache m preview },
        .waiting) := by
  have hwaiting : consumer.Steps (sh, .waiting) [] (sh, .waiting) := .refl _
  have hdelivered := consumer_next hwaiting (.delivered hqueue)
  have hstored := hdelivered.trans
    (job_steps { sh with queue := pre ++ post } hm hpreview hrows)
  cases preview with
  | none => exact consumer_next hstored .settled
  | some c => exact consumer_next (consumer_next hstored .warmed) .settled

/-- What a job that reaches its commit has computed and written. -/
theorem computeAndStore_ok {R : Type} [Field R] [LinearOrder R] [FloorRing R] [PyMath R]
    {env : JobEnv} {db db' : Db} {m : Match} {preview : Option Commentary}
    (h : computeAndStore R env db m = .ok (db', preview)) :
    writePreview env.gateway (userPrompt m
        (numbers R (trainingSet db m) env.now m).probabilities) = .ok preview ∧
      writeRows db m.id (engineRow R (trainingSet db m) env.now m) preview = .ok db' := by
  simp only [computeAndStore, bind_eq_ok] at h
  obtain ⟨-, -, h⟩ := h
  unfold trainingSet
  cases hwrite : writePreview env.gateway (userPrompt m
      (numbers R (fetchMatchHistory db m.competitionId none) env.now m).probabilities) with
  | error e =>
      rw [hwrite] at h
      cases h
  | ok preview' =>
      rw [hwrite] at h
      obtain ⟨_, hsame, h⟩ := bind_eq_ok.mp h
      obtain rfl := Except.ok.inj hsame
      obtain ⟨stored, hstored, hresult⟩ := bind_eq_ok.mp h
      obtain ⟨rfl, rfl⟩ := Prod.mk.inj (pure_eq_ok.mp hresult)
      exact ⟨rfl, storeRows_ok hstored⟩

/-- Where a job that does not reach its commit has raised. -/
theorem computeAndStore_error {R : Type} [Field R] [LinearOrder R] [FloorRing R] [PyMath R]
    {env : JobEnv} {db : Db} {m : Match} {e : JobError}
    (h : computeAndStore R env db m = .error e) :
    statement env .fetchHistory = .error e ∨
      (∃ e, writePreview env.gateway (userPrompt m
        (numbers R (trainingSet db m) env.now m).probabilities) = .error e) ∨
      ∃ preview, writePreview env.gateway (userPrompt m
          (numbers R (trainingSet db m) env.now m).probabilities) = .ok preview ∧
        storeRows env db m.id (engineRow R (trainingSet db m) env.now m) preview = .error e := by
  unfold computeAndStore at h
  unfold trainingSet
  cases hhistory : statement env .fetchHistory with
  | error e' =>
      rw [hhistory] at h
      cases h
      exact Or.inl rfl
  | ok u =>
      rw [hhistory, ok_bind] at h
      right
      cases hwrite : writePreview env.gateway (userPrompt m
          (numbers R (fetchMatchHistory db m.competitionId none) env.now m).probabilities) with
      | error e' => exact Or.inl ⟨e', rfl⟩
      | ok preview =>
          simp only [hwrite, ok_bind] at h
          refine Or.inr ⟨preview, rfl, ?_⟩
          show storeRows env db m.id (predictionValues _ _ _) preview = _
          cases hstore : storeRows env db m.id (predictionValues
              (numbers R (fetchMatchHistory db m.competitionId none) env.now m).probabilities
              (numbers R (fetchMatchHistory db m.competitionId none) env.now m).eloHome
              (numbers R (fetchMatchHistory db m.competitionId none) env.now m).eloAway)
              preview with
          | error e' =>
              rw [hstore] at h
              cases h
              rfl
          | ok stored =>
              rw [hstore] at h
              cases h

/-- The stores a job sees. -/
def Shared.stores (sh : Shared) : Stores := ⟨sh.pg.db, sh.cache⟩

def Shared.setStores (sh : Shared) (stores : Stores) : Shared :=
  { sh.setDb stores.db with cache := stores.cache }

/-- **An undisturbed job.** Whatever fails, `process_job` is a segment of the
pipeline that ends with the message ready to be acknowledged. -/
theorem processJob_steps (env : JobEnv) (sh : Shared) (m : ℤ) :
    ∃ es, consumer.Steps (sh, .delivered m) es
      (sh.setStores (processJob ℝ env sh.stores m).1, .finished m) := by
  have hdelivered : consumer.Steps (sh, .delivered m) [] (sh, .delivered m) := .refl _
  by_cases hfetch : env.fails .fetchMatch = true
  · have hjob : processJob ℝ env sh.stores m = (sh.stores, none) := by
      rw [processJob, if_pos hfetch]
    rw [hjob]
    exact ⟨_, consumer_next hdelivered (.raised rfl (.fetchMatch (if_pos hfetch)))⟩
  · cases hm : fetchMatchViaId sh.pg.db m with
    | none =>
        have hjob : processJob ℝ env sh.stores m = (sh.stores, none) := by
          simp [processJob, hfetch, Shared.stores, hm]
        rw [hjob]
        exact ⟨_, consumer_next hdelivered (.absent hm)⟩
    | some fixture =>
        have hmatched := consumer_next hdelivered (.matched hm)
        cases hstore : computeAndStore ℝ env sh.pg.db fixture with
        | error e =>
            -- the exception is swallowed wherever it comes from
            have hjob : processJob ℝ env sh.stores m = (sh.stores, none) := by
              simp [processJob, hfetch, Shared.stores, hm, hstore]
            rw [hjob]
            have htrained := consumer_next hmatched (.trained env.now)
            rcases computeAndStore_error hstore with
              hhistory | ⟨e', hpreview⟩ | ⟨preview, hpreview, hrows⟩
            · exact ⟨_, consumer_next hmatched (.raised rfl (.fetchHistory hhistory))⟩
            · exact ⟨_, consumer_next htrained (.raised rfl (.preview hpreview))⟩
            · have hpreviewed := consumer_next htrained (.previewed env.gateway hpreview)
              exact ⟨_, consumer_next hpreviewed (.raised rfl (.store hrows))⟩
        | ok result =>
            obtain ⟨db, preview⟩ := result
            obtain ⟨hpreview, hrows⟩ := computeAndStore_ok hstore
            have hjob : (processJob ℝ env sh.stores m).1 =
                ⟨db, (warmCache env sh.cache m preview).1⟩ := by
              simp [processJob, hfetch, Shared.stores, hm, hstore]
            rw [hjob]
            have hstored := job_steps sh hm hpreview hrows
            cases preview with
            | none => exact ⟨_, hstored⟩
            | some c =>
                cases hset : env.redisSet with
                | done =>
                    have hwarm : (warmCache env sh.cache m (some c)).1 =
                        sh.cache.set m c.text := by
                      simp [warmCache, hset]
                    rw [hwarm]
                    exact ⟨_, consumer_next hstored .warmed⟩
                | redisError | raised =>
                    have hwarm : (warmCache env sh.cache m (some c)).1 = sh.cache := by
                      simp [warmCache, hset]
                    rw [hwarm]
                    exact ⟨_, consumer_next hstored .warmFailed⟩

/-! ## A request -/

theorem reader_next {start : Shared × RequestPc} {es : List RequestEvent} {e : RequestEvent}
    {sh sh' : Shared} {pc pc' : RequestPc} (h : reader.Steps start es (sh, pc))
    (hstep : RequestStep sh pc e sh' pc') : reader.Steps start (es ++ [e]) (sh', pc') :=
  h.next hstep

/-- Where an answered request stands: a text or a 404 is still to be sent, an
exception has ended it. -/
def RequestPc.answers (m : ℤ) (pc : RequestPc) (answer : Api.Answer) : Prop :=
  (∃ text, pc = .answering m text ∧ answer = Api.respond m text) ∨
    (pc = .idle ∧ answer = .serverError)

/-- **An undisturbed request.** -/
theorem asyncPrediction_steps (env : Api.RequestEnv) (sh : Shared) (m : ℤ) :
    ∃ es pc, reader.Steps (sh, .started m) es
        ({ sh with cache := (Api.asyncPrediction env sh.pg.db sh.cache m).1 }, pc) ∧
      pc.answers m (Api.asyncPrediction env sh.pg.db sh.cache m).2 := by
  have hstarted : reader.Steps (sh, .started m) [] (sh, .started m) := .refl _
  cases hconfigured : env.redisConfigured with
  | false =>
      cases hpg : env.postgresFails with
      | true =>
          simp only [Api.asyncPrediction, hconfigured, hpg, Bool.not_false, if_true]
          exact ⟨_, _, reader_next hstarted .failed, Or.inr ⟨rfl, rfl⟩⟩
      | false =>
          cases hread : Api.getPrediction sh.pg.db m with
          | error e =>
              simp only [Api.asyncPrediction, hconfigured, hpg, hread, Bool.not_false, if_true]
              exact ⟨_, _, reader_next hstarted .failed, Or.inr ⟨rfl, rfl⟩⟩
          | ok text =>
              simp only [Api.asyncPrediction, hconfigured, hpg, hread, Bool.not_false, if_true]
              exact ⟨_, _, reader_next hstarted (.direct hread), Or.inl ⟨_, rfl, rfl⟩⟩
  | true =>
      cases hget : env.redisGetFails with
      | true =>
          simp only [Api.asyncPrediction, hconfigured, hget, Bool.not_true, if_true]
          exact ⟨_, _, reader_next hstarted .failed, Or.inr ⟨rfl, rfl⟩⟩
      | false =>
          cases hcache : sh.cache.get m with
          | some text =>
              simp only [Api.asyncPrediction, hconfigured, hget, hcache, Bool.not_true]
              exact ⟨_, _, reader_next hstarted (.hit hcache), Or.inl ⟨_, rfl, rfl⟩⟩
          | none =>
              have hmissed := reader_next hstarted (.missed hcache)
              cases hpg : env.postgresFails with
              | true =>
                  simp only [Api.asyncPrediction, hconfigured, hget, hcache, hpg, Bool.not_true]
                  exact ⟨_, _, reader_next hmissed .failed, Or.inr ⟨rfl, rfl⟩⟩
              | false =>
                  cases hread : Api.getPrediction sh.pg.db m with
                  | error e =>
                      simp only [Api.asyncPrediction, hconfigured, hget, hcache, hpg, hread,
                        Bool.not_true]
                      exact ⟨_, _, reader_next hmissed .failed, Or.inr ⟨rfl, rfl⟩⟩
                  | ok found =>
                      cases found with
                      | none =>
                          simp only [Api.asyncPrediction, hconfigured, hget, hcache, hpg, hread,
                            Bool.not_true]
                          exact ⟨_, _, reader_next hmissed (.absent hread), Or.inl ⟨_, rfl, rfl⟩⟩
                      | some text =>
                          have hback := reader_next hmissed (.read hread)
                          cases hset : env.redisSetFails with
                          | true =>
                              simp only [Api.asyncPrediction, hconfigured, hget, hcache, hpg,
                                hread, hset, Bool.not_true]
                              exact ⟨_, _, reader_next hback .failed, Or.inr ⟨rfl, rfl⟩⟩
                          | false =>
                              simp only [Api.asyncPrediction, hconfigured, hget, hcache, hpg,
                                hread, hset, Bool.not_true]
                              exact ⟨_, _, reader_next hback .backfilled,
                                Or.inl ⟨_, rfl, rfl⟩⟩

/-! ## A run of the worker -/

theorem ingester_next {start : Shared × WorkerPc} {es : List WorkerEvent} {e : WorkerEvent}
    {sh sh' : Shared} {pc pc' : WorkerPc} (h : ingester.Steps start es (sh, pc))
    (hstep : WorkerStep sh pc e sh' pc') : ingester.Steps start (es ++ [e]) (sh', pc') :=
  h.next hstep

/-- The loop of `sync_matches_per_competition`: it ends, or an exception ends
the run. -/
theorem syncMatches_steps (ms : List Worker.Match) : ∀ (sh : Shared) (changed : ℕ),
    ∃ es, ingester.Steps (sh, .syncing ms) es
      ({ sh with pg := (Worker.syncMatchesFrom sh.pg changed ms).1 },
        if (Worker.syncMatchesFrom sh.pg changed ms).2.isOk then .syncing [] else .idle) := by
  induction ms with
  | nil => exact fun sh changed => ⟨[], .refl _⟩
  | cons m ms ih =>
      intro sh changed
      have hstart : ingester.Steps (sh, .syncing (m :: ms)) [] (sh, .syncing (m :: ms)) :=
        .refl _
      cases hsync : Worker.syncMatch sh.pg.rabbitEventSeq sh.pg.db m with
      | error e =>
          simp only [Worker.syncMatchesFrom, hsync]
          exact ⟨_, ingester_next hstart .died⟩
      | ok result =>
          obtain ⟨db, row⟩ := result
          cases row with
          | none =>
              simp only [Worker.syncMatchesFrom, hsync]
              obtain ⟨es, hes⟩ := ih (sh.setDb db) changed
              exact ⟨_, (ingester_next hstart (.unchanged hsync)).trans hes⟩
          | some matchId =>
              simp only [Worker.syncMatchesFrom, hsync]
              have hreserved := ingester_next hstart .reserved
              have hchanged := ingester_next hreserved (.changed hsync)
              obtain ⟨es, hes⟩ := ih { sh with pg := ⟨db, sh.pg.rabbitEventSeq + 1⟩ } (changed + 1)
              exact ⟨_, hchanged.trans hes⟩

/-- The publish loop: the messages it gets to the broker, in order. -/
theorem publish_steps (broker : Worker.Broker) (rest : List (ℤ × ℤ)) :
    ∀ (sh : Shared) (done : List (ℤ × ℤ)) (n : ℕ),
    ∃ es, ingester.Steps (sh, .publishing done rest false) es
      ({ sh with
          queue := sh.queue ++ (Worker.publishFrom broker n (rest.map Prod.snd)).1 },
        if (Worker.publishFrom broker n (rest.map Prod.snd)).2 then
          .publishing (done ++ rest) [] false
        else .idle) := by
  induction rest with
  | nil =>
      intro sh done n
      simp only [List.map_nil, Worker.publishFrom, List.append_nil, if_true]
      exact ⟨[], .refl _⟩
  | cons event rest ih =>
      intro sh done n
      have hstart : ingester.Steps (sh, .publishing done (event :: rest) false) []
          (sh, .publishing done (event :: rest) false) := .refl _
      cases hpublish : broker.publish n with
      | confirmed =>
          have haccepted := ingester_next hstart .accepted
          have hconfirmed := ingester_next haccepted .confirmed
          obtain ⟨es, hes⟩ := ih { sh with queue := sh.queue ++ [event.2] } (done ++ [event])
            (n + 1)
          have hall := hconfirmed.trans hes
          simp only [List.append_assoc, List.singleton_append] at hall
          simp only [List.map_cons, Worker.publishFrom, hpublish]
          exact ⟨_, hall⟩
      | raised accepted =>
          simp only [List.map_cons, Worker.publishFrom, hpublish]
          cases accepted with
          | true => exact ⟨_, ingester_next (ingester_next hstart .accepted) .died⟩
          | false =>
              simp only [Bool.false_eq_true, if_false, List.append_nil]
              exact ⟨_, ingester_next hstart .died⟩

/-- The stores a run of the worker sees. -/
def Shared.workerStores (sh : Shared) : Worker.Stores := ⟨sh.pg, sh.queue⟩

def Shared.setWorkerStores (sh : Shared) (stores : Worker.Stores) : Shared :=
  { sh with pg := stores.pg, queue := stores.queue }

/-- The outbox drain. -/
theorem drain_steps (broker : Worker.Broker) (sh : Shared) :
    ∃ es, ingester.Steps (sh, .syncing []) es
      (sh.setWorkerStores (Worker.drain broker sh.workerStores).1, .idle) := by
  have hstart : ingester.Steps (sh, .syncing []) [] (sh, .syncing []) := .refl _
  by_cases hevents : Worker.fetchRabbitEvents sh.pg.db = []
  · have hdrain : Worker.drain broker sh.workerStores = (sh.workerStores, .ok ()) := by
      simp [Worker.drain, Shared.workerStores, hevents]
    rw [hdrain]
    exact ⟨_, ingester_next hstart (.outboxEmpty hevents)⟩
  · have hread := ingester_next hstart (.outboxRead hevents)
    rw [Worker.drain_stores (s := sh.workerStores) broker hevents]
    simp only [Shared.workerStores]
    by_cases hconnects : broker.connects = true
    · obtain ⟨es, hes⟩ := publish_steps broker (Worker.fetchRabbitEvents sh.pg.db) sh [] 0
      have hpublished := hread.trans hes
      rw [List.nil_append] at hpublished
      cases hpublish : Worker.publishFrom broker 0
          ((Worker.fetchRabbitEvents sh.pg.db).map Prod.snd) with
      | mk sent complete =>
          rw [hpublish] at hpublished
          simp only [Worker.runProducer, hconnects, hpublish, if_true]
          cases complete with
          | false => exact ⟨_, hpublished⟩
          | true =>
              cases broker.closes with
              | false => exact ⟨_, ingester_next hpublished .died⟩
              | true => exact ⟨_, ingester_next hpublished .deleted⟩
    · simp only [Worker.runProducer, hconnects, Bool.false_eq_true, if_false, List.append_nil]
      exact ⟨_, ingester_next hread .died⟩

/-- **An undisturbed run.** Whatever the API answers and the broker does,
`main` is a segment of the pipeline. -/
theorem main_steps (client : Worker.Client) (now : Worker.UtcNow) (broker : Worker.Broker)
    (sh : Shared) :
    ∃ es, ingester.Steps (sh, .idle) es
      (sh.setWorkerStores (Worker.main client now broker sh.workerStores).1, .idle) := by
  have hstart : ingester.Steps (sh, .idle) [] (sh, .idle) := .refl _
  cases hfetch : Worker.getAllCompetitions client with
  | error e =>
      have hmain : (Worker.main client now broker sh.workerStores).1 = sh.workerStores := by
        simp [Worker.main, hfetch]
      rw [hmain]
      exact ⟨[], hstart⟩
  | ok competitions =>
      cases hsync : Worker.syncCompetitions sh.pg competitions with
      | mk pg synced =>
          cases synced with
          | error e =>
              -- the one transaction was rolled back
              have hsame : pg = sh.pg := by
                unfold Worker.syncCompetitions at hsync
                split at hsync
                · cases hsync
                · exact (congrArg Prod.fst hsync).symm
              have hmain : (Worker.main client now broker sh.workerStores).1 =
                  sh.workerStores := by
                simp [Worker.main, hfetch, Shared.workerStores, hsync, hsame]
              rw [hmain]
              exact ⟨[], hstart⟩
          | ok n =>
              have hcompetitions := ingester_next hstart (.competitionsSynced competitions hsync)
              have hmain : Worker.main client now broker sh.workerStores =
                  Worker.syncMatchesAndDrain client now broker ⟨pg, sh.queue⟩ := by
                simp [Worker.main, hfetch, Shared.workerStores, hsync]
              rw [hmain]
              cases hmatches : Worker.getMatchesPerCompetition client now
                  (Worker.getLeagueCodes pg.db) with
              | error e =>
                  simp only [Worker.syncMatchesAndDrain, hmatches]
                  exact ⟨_, ingester_next hcompetitions .died⟩
              | ok matches_ =>
                  have hfetched := ingester_next hcompetitions (.fetched matches_)
                  obtain ⟨es, hes⟩ := syncMatches_steps matches_ { sh with pg := pg } 0
                  have hsynced := hfetched.trans hes
                  simp only [Worker.syncMatchesAndDrain, hmatches,
                    Worker.syncMatchesPerCompetition]
                  cases hloop : Worker.syncMatchesFrom pg 0 matches_ with
                  | mk pg' changed =>
                      rw [hloop] at hsynced
                      cases changed with
                      | error e => exact ⟨_, hsynced⟩
                      | ok changed =>
                          obtain ⟨es', hdrain⟩ := drain_steps broker { sh with pg := pg' }
                          exact ⟨_, hsynced.trans hdrain⟩

end AGame.Pipeline
