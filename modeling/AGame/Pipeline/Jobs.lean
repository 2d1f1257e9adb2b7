import AGame.Pipeline.Programs

/-!
# What a job has done by the time its message is gone

A consumer holds one message at a time. `Progress` says what the job has read
and written since the delivery at each point of `process_job`; from there follow
what an acknowledged message stands for and which prose belongs to which
numbers.
-/

namespace AGame.Pipeline

open Std (ExtTreeMap)
open Base Engine Brain

variable {W B A : Type}

/-! ## Since the delivery -/

def DeliveredTo (b : B) (e : Event W B A) : Prop := ∃ m, e = .brain b (.delivered m)

/-- `b`'s last delivery was of `m`, and `Q` holds of what followed it. -/
def SinceDelivery (b : B) (m : ℤ) (Q : List (Event W B A) → Prop) (h : List (Event W B A)) :
    Prop :=
  Since (DeliveredTo b) (fun e post => e = .brain b (.delivered m) ∧ Q post) h

/-- The job read the fixture. -/
def MatchedIn (b : B) (m : ℤ) (fixture : Match) (post : List (Event W B A)) : Prop :=
  ∃ db, fetchMatchViaId db m = some fixture ∧
    List.Sublist [.brain b (.matched m db fixture)] post

/-- The job read the fixture, and then the history out of `db`. -/
def TrainedIn (b : B) (m : ℤ) (fixture : Match) (db : Db) (now : Instant)
    (post : List (Event W B A)) : Prop :=
  ∃ db₀, fetchMatchViaId db₀ m = some fixture ∧
    List.Sublist [.brain b (.matched m db₀ fixture), .brain b (.trained m db fixture now)] post

/-- A committed transaction stored a prediction computed from what the job read. -/
def StoredIn (b : B) (m : ℤ) (post : List (Event W B A)) : Prop :=
  ∃ db₀ db fixture now preview, fetchMatchViaId db₀ m = some fixture ∧
    List.Sublist [.brain b (.matched m db₀ fixture), .brain b (.trained m db fixture now),
      .brain b (.stored m (engineRow ℝ (trainingSet db fixture) now fixture) preview)] post

/-- The job looked for the match and it was not there. -/
def AbsentIn (b : B) (m : ℤ) (post : List (Event W B A)) : Prop :=
  ∃ db, fetchMatchViaId db m = none ∧ Event.brain b (.absent m db) ∈ post

/-- The job raised before its commit. -/
def RaisedIn (b : B) (m : ℤ) (post : List (Event W B A)) : Prop :=
  Event.brain b (.raised m) ∈ post

/-- The ways in which a job ends. -/
def EndedIn (b : B) (m : ℤ) (post : List (Event W B A)) : Prop :=
  StoredIn b m post ∨ AbsentIn b m post ∨ RaisedIn b m post

/-- The values and the preview a job is about to store come out of one training
step. -/
def ComputedIn (b : B) (m : ℤ) (fixture : Match) (values : PredictionValues)
    (preview : Option Commentary) (post : List (Event W B A)) : Prop :=
  ∃ db now gateway, TrainedIn b m fixture db now post ∧
    values = engineRow ℝ (trainingSet db fixture) now fixture ∧
    writePreview gateway (userPrompt fixture
      (numbers ℝ (trainingSet db fixture) now fixture).probabilities) = .ok preview

/-- What a consumer's program counter says about its job. -/
def Progress (b : B) (post : List (Event W B A)) : BrainPc → Prop
  | .waiting => True
  | .delivered _ => True
  | .matched m fixture => MatchedIn b m fixture post
  | .trained m fixture history now =>
      ∃ db, history = trainingSet db fixture ∧ TrainedIn b m fixture db now post
  | .previewed m fixture values preview => ComputedIn b m fixture values preview post
  | .committed m _ => StoredIn b m post
  | .finished m => EndedIn b m post

/-- A consumer with a message is in the job it was last delivered. -/
def InJob (b : B) (h : List (Event W B A)) (pc : BrainPc) : Prop :=
  ∀ m, pc.message = some m → SinceDelivery b m (fun post => Progress b post pc) h

/-! ### What happens elsewhere does not matter -/

section

variable {b : B} {m : ℤ} {post : List (Event W B A)} {x : Event W B A}

theorem StoredIn.append (h : StoredIn b m post) : StoredIn b m (post ++ [x]) := by
  obtain ⟨db₀, db, fixture, now, preview, hm, hsub⟩ := h
  exact ⟨db₀, db, fixture, now, preview, hm, hsub.trans (List.sublist_append_left _ _)⟩

theorem TrainedIn.append {fixture : Match} {db : Db} {now : Instant}
    (h : TrainedIn b m fixture db now post) : TrainedIn b m fixture db now (post ++ [x]) := by
  obtain ⟨db₀, hm, hsub⟩ := h
  exact ⟨db₀, hm, hsub.trans (List.sublist_append_left _ _)⟩

theorem EndedIn.append (h : EndedIn b m post) : EndedIn b m (post ++ [x]) := by
  rcases h with hstored | ⟨db, hm, habsent⟩ | hraised
  · exact Or.inl hstored.append
  · exact Or.inr (Or.inl ⟨db, hm, List.mem_append_left _ habsent⟩)
  · exact Or.inr (Or.inr (List.mem_append_left _ hraised))

theorem Progress.append {pc : BrainPc} (h : Progress b post pc) :
    Progress b (post ++ [x]) pc := by
  cases pc with
  | waiting | delivered => trivial
  | matched m fixture =>
      obtain ⟨db, hm, hsub⟩ := h
      exact ⟨db, hm, hsub.trans (List.sublist_append_left _ _)⟩
  | trained m fixture history now =>
      obtain ⟨db, hhistory, htrained⟩ := h
      exact ⟨db, hhistory, htrained.append⟩
  | previewed m fixture values preview =>
      obtain ⟨db, now, gateway, htrained, hvalues, hpreview⟩ := h
      exact ⟨db, now, gateway, htrained.append, hvalues, hpreview⟩
  | committed m text => exact StoredIn.append h
  | finished m => exact EndedIn.append h

theorem InJob.append {h : List (Event W B A)} {pc : BrainPc} (hjob : InJob b h pc)
    (hx : ¬ DeliveredTo b x) : InJob b (h ++ [x]) pc := by
  intro m hm
  refine (hjob m hm).append hx ?_
  rintro e post ⟨hdelivered, hprogress⟩
  exact ⟨hdelivered, hprogress.append⟩

end

/-! ## The steps -/

/-- What the next step of a job adds to its progress. -/
theorem InJob.next {b : B} {h : List (Event W B A)} {pc pc' : BrainPc} {e : BrainEvent}
    (hjob : InJob b h pc) {m : ℤ} (hm : pc.message = some m)
    (hx : ∀ m', e ≠ .delivered m')
    (hnext : ∀ post : List (Event W B A), Progress b post pc →
      Progress b (post ++ [.brain b e]) pc') :
    SinceDelivery b m (fun post => Progress b post pc') (h ++ [.brain b e]) := by
  refine (hjob m hm).append ?_ ?_
  · rintro ⟨m', hdelivered⟩
    exact hx m' (Event.brain.inj hdelivered).2
  · rintro x post ⟨hdelivered, hprogress⟩
    exact ⟨hdelivered, hnext post hprogress⟩

theorem InJob.step {b : B} {h : List (Event W B A)} {sh sh' : Shared} {pc pc' : BrainPc}
    {e : BrainEvent} (hjob : InJob b h pc) (hstep : BrainStep sh pc e sh' pc') :
    InJob b (h ++ [.brain b e]) pc' := by
  intro m hm
  cases hstep with
  | delivered =>
      obtain rfl := Option.some.inj hm
      exact Since.here ⟨_, rfl⟩ ⟨rfl, trivial⟩
  | absent hfetch =>
      refine hjob.next hm nofun ?_
      intro post _
      exact Or.inr (Or.inl ⟨_, hfetch, by simp⟩)
  | matched hfetch =>
      refine hjob.next hm nofun ?_
      intro post _
      exact ⟨_, hfetch, List.sublist_append_right _ _⟩
  | trained now =>
      refine hjob.next hm nofun ?_
      rintro post ⟨db₀, hfetch, hmatched⟩
      exact ⟨_, rfl, db₀, hfetch, hmatched.append (List.Sublist.refl _)⟩
  | previewed gateway hpreview =>
      refine hjob.next hm nofun ?_
      rintro post ⟨db, rfl, htrained⟩
      exact ⟨db, _, gateway, htrained.append, rfl, hpreview⟩
  | @stored m' fixture values preview db hrows =>
      have hstored : ∀ post : List (Event W B A),
          Progress b post (.previewed m' fixture values preview) →
          StoredIn b m' (post ++ [.brain b (.stored m' values preview)]) := by
        rintro post ⟨db, now, gateway, ⟨db₀, hfetch, htrained⟩, rfl, hpreview⟩
        exact ⟨db₀, db, fixture, now, preview, hfetch, htrained.append (List.Sublist.refl _)⟩
      cases preview with
      | none => exact hjob.next hm nofun fun post hprogress => Or.inl (hstored post hprogress)
      | some c => exact hjob.next hm nofun hstored
  | warmed =>
      refine hjob.next hm nofun ?_
      intro post hstored
      exact Or.inl (StoredIn.append hstored)
  | warmFailed =>
      refine hjob.next hm nofun ?_
      intro post hstored
      exact Or.inl (StoredIn.append hstored)
  | raised hmessage _ =>
      obtain rfl := Option.some.inj hm
      refine hjob.next hmessage nofun ?_
      intro post _
      exact Or.inr (Or.inr (by simp [RaisedIn]))
  | settled | crashed | cancelled => cases hm

section

variable [DecidableEq W] [DecidableEq B] [DecidableEq A]

theorem inJob_step {h : List (Event W B A)} {s t : World W B A} {e : Event W B A}
    (hinv : ∀ b, InJob b h (s.brains b)) (hstep : WorldStep s e t) :
    ∀ b, InJob b (h ++ [e]) (t.brains b) := by
  intro b
  cases hstep with
  | worker | request | env => exact (hinv b).append (by rintro ⟨m, hm⟩; cases hm)
  | @brain b' e' sh pc hb =>
      show InJob b _ (Function.update s.brains b' pc b)
      by_cases heq : b = b'
      · subst heq
        rw [Function.update_self]
        exact (hinv b).step hb
      · rw [Function.update_of_ne heq]
        refine (hinv b).append ?_
        rintro ⟨m, hm⟩
        exact heq (Event.brain.inj hm).1.symm

/-- In every reachable state every consumer is in the job it was last delivered. -/
theorem inJob_of_run {h : List (Event W B A)} {s : World W B A}
    (hr : (pipeline W B A).Run h s) (b : B) : InJob b h (s.brains b) := by
  revert b
  refine hr.invariant (P := fun h s => ∀ b, InJob b h (s.brains b)) ?_
    fun _ _ _ _ _ hinv hstep => inJob_step hinv hstep
  intro s hs b m hm
  rw [hs.brains b] at hm
  cases hm

/-! ## Where a message can go -/

/-- A consumer loses its message by acknowledging it, by being cancelled, or by
dying, and then the message is back in the queue. -/
theorem BrainStep.custody {sh sh' : Shared} {pc pc' : BrainPc} {e : BrainEvent}
    (hstep : BrainStep sh pc e sh' pc') {m : ℤ} (hm : pc.message = some m)
    (hgone : pc'.message ≠ some m) :
    (e = .settled m ∧ pc = .finished m) ∨ e = .cancelled m ∨
      (e = .crashed m ∧ sh'.queue = m :: sh.queue) := by
  cases hstep with
  | delivered => cases hm
  | @stored m' fixture values preview db hrows =>
      cases preview <;> exact absurd hm hgone
  | raised hmessage _ =>
      rw [hm] at hmessage
      exact absurd hmessage.symm (Ne.symm hgone ∘ Eq.symm)
  | settled =>
      obtain rfl := Option.some.inj hm
      exact Or.inl ⟨rfl, rfl⟩
  | crashed hmessage =>
      obtain rfl := Option.some.inj (hm.symm.trans hmessage)
      exact Or.inr (Or.inr ⟨rfl, rfl⟩)
  | cancelled hmessage =>
      obtain rfl := Option.some.inj (hm.symm.trans hmessage)
      exact Or.inr (Or.inl rfl)
  | absent | matched | trained | previewed | warmed | warmFailed => exact absurd hm hgone

/-- The queue loses a message only to a consumer. -/
theorem WorldStep.queue_count {s t : World W B A} {e : Event W B A} (hstep : WorldStep s e t)
    {m : ℤ} (hless : t.shared.queue.count m < s.shared.queue.count m) :
    ∃ b, e = .brain b (.delivered m) ∧ (t.brains b).message = some m := by
  cases hstep with
  | @worker w e sh pc hw =>
      have hgrows : s.shared.queue.count m ≤ sh.queue.count m := by
        rcases hw.queue with hsame | ⟨m', -, hmore⟩
        · rw [hsame]
        · rw [hmore, List.count_append]
          exact Nat.le_add_right _ _
      exact absurd hless (not_lt.mpr hgrows)
  | @brain b e sh pc hb =>
      rcases hb.queue with hsame | ⟨m', pre, post, rfl, -, rfl, hqueue, hrest⟩ |
          ⟨m', -, -, -, hmore⟩
      · have hnot : ¬ sh.queue.count m < s.shared.queue.count m := by
          rw [hsame]
          exact lt_irrefl _
        exact absurd hless hnot
      · by_cases heq : m' = m
        · subst heq
          refine ⟨b, rfl, ?_⟩
          show (Function.update s.brains b (.delivered m') b).message = some m'
          rw [Function.update_self]
          rfl
        · have hsame : sh.queue.count m = s.shared.queue.count m := by
            rw [hqueue, hrest, List.count_append, List.count_append,
              List.count_cons_of_ne heq]
          exact absurd hless hsame.not_lt
      · have hgrows : s.shared.queue.count m ≤ sh.queue.count m := by
          rw [hmore]
          exact List.count_le_count_cons
        exact absurd hless (not_lt.mpr hgrows)
  | @request r e sh pc hq =>
      have hsame : sh.queue.count m = s.shared.queue.count m := by
        rw [hq.frame.2]
      exact absurd hless hsame.not_lt
  | @env e sh he =>
      have hsame : sh.queue.count m = s.shared.queue.count m := by
        rw [he.frame.1]
      exact absurd hless hsame.not_lt

/-- A consumer parts with its message after an outcome, by being cancelled, or
back to the queue. -/
theorem custody_of_run {h : List (Event W B A)} {s t : World W B A} {e : Event W B A}
    (hr : (pipeline W B A).Run h s) (hstep : WorldStep s e t) {b : B} {m : ℤ}
    (hm : (s.brains b).message = some m) (hgone : (t.brains b).message ≠ some m) :
    (e = .brain b (.settled m) ∧ SinceDelivery b m (EndedIn b m) h) ∨
      e = .brain b (.cancelled m) ∨
      (e = .brain b (.crashed m) ∧ t.shared.queue = m :: s.shared.queue) := by
  cases hstep with
  | worker | request | env => exact absurd hm hgone
  | @brain b' e sh pc hb =>
      change (Function.update s.brains b' pc b).message ≠ some m at hgone
      by_cases heq : b = b'
      · subst heq
        rw [Function.update_self] at hgone
        rcases hb.custody hm hgone with ⟨rfl, hpc⟩ | rfl | ⟨rfl, hqueue⟩
        · refine Or.inl ⟨rfl, ?_⟩
          have hjob := inJob_of_run hr b m hm
          rw [hpc] at hjob
          exact hjob
        · exact Or.inr (Or.inl rfl)
        · exact Or.inr (Or.inr ⟨rfl, hqueue⟩)
      · rw [Function.update_of_ne heq] at hgone
        exact absurd hm hgone

/-! ## No job is lost, unless it raises -/

/-- **What an acknowledged message stands for.** In every reachable state, a
consumer parts with its message only in one of three ways: the message goes back
to the queue; the consumer was cancelled; or the message is acknowledged, and
since its delivery a transaction stored a prediction computed from what the job
read, or the match was not there, or the job raised. The queue itself parts with
a message only to a consumer. -/
theorem acknowledged_job_ended {h : List (Event W B A)} {s t : World W B A}
    {e : Event W B A} (hr : (pipeline W B A).Run h s) (hstep : WorldStep s e t) :
    (∀ b m, (s.brains b).message = some m → (t.brains b).message ≠ some m →
      (e = .brain b (.settled m) ∧ SinceDelivery b m (EndedIn b m) h) ∨
        e = .brain b (.cancelled m) ∨
        (e = .brain b (.crashed m) ∧ t.shared.queue = m :: s.shared.queue)) ∧
      ∀ m, t.shared.queue.count m < s.shared.queue.count m →
        ∃ b, e = .brain b (.delivered m) ∧ (t.brains b).message = some m :=
  ⟨fun _ _ hm hgone => custody_of_run hr hstep hm hgone, fun _ => hstep.queue_count⟩

end

/-! ### The job of a first fixture -/

/-- A league with its first fixture, brought by a backfill. -/
def firstFixture : Worker.Pg :=
  (Worker.syncHistoricMatches Worker.freshLeague [Worker.fixturePayload 1 "SCHEDULED"]).1

/-- The stores of `firstFixture` with messages in the queue. -/
def fixtureQueue (queue : List ℤ) : Shared := ⟨firstFixture, queue, ∅⟩

theorem initial_fixtureQueue (queue : List ℤ) :
    Initial (World.atRest (fixtureQueue queue) : World W B A) := by
  have hevents : firstFixture.db.rabbitEventRows = ∅ := by decide +kernel
  have hpredictions : firstFixture.db.predictionRows = ∅ := by decide +kernel
  have hcommentaries : firstFixture.db.commentaryRows = ∅ := by decide +kernel
  exact initial_atRest hevents hpredictions hcommentaries rfl

theorem fetch_firstFixture : fetchMatchViaId firstFixture.db 1 = some newFixture := by
  decide +kernel

theorem trainingSet_firstFixture : trainingSet firstFixture.db newFixture = [] := by
  have hrows : (firstFixture.db.matchRows.toList.filterMap fun entry =>
      historyRow firstFixture.db newFixture.competitionId none entry.1 entry.2) = [] := by
    decide +kernel
  show (firstFixture.db.matchRows.toList.filterMap _).mergeSort Elo.kickoffLE = []
  rw [hrows, List.mergeSort_nil]

/-- A job for the fixture that nothing disturbs, whatever its league has played. -/
theorem fixtureJob_steps (sh : Shared) {post : List ℤ} {history : List Elo.MatchResult}
    {now : Instant} (gateway : Gateway) {preview : Option Commentary}
    (hqueue : sh.queue = 1 :: post)
    (hfetch : fetchMatchViaId sh.pg.db 1 = some newFixture)
    (hhistory : trainingSet sh.pg.db newFixture = history)
    (hfits : (engineRow ℝ history now newFixture).fits = true)
    (hpreview : writePreview gateway (userPrompt newFixture
      (numbers ℝ history now newFixture).probabilities) = .ok preview)
    (hstorable : previewStorable (.ok preview) = true) :
    ∃ db, writeRows sh.pg.db 1 (engineRow ℝ history now newFixture) preview = .ok db ∧
      consumer.Steps (sh, .waiting)
        (smoothJob sh.pg.db 1 newFixture now (engineRow ℝ history now newFixture) preview)
        ({ sh.setDb db with queue := post, cache := warmed sh.cache 1 preview }, .waiting) := by
  subst hhistory
  have hmatch : (1 : ℤ) ∈ sh.pg.db.matchRows := by
    rw [← fetchMatchViaId_isSome, hfetch]
    rfl
  have hfirst : sh.queue = [] ++ 1 :: post := hqueue
  obtain ⟨db, hrows⟩ := writeRows_of_storable hfits hmatch hstorable
  exact ⟨db, hrows, smoothJob_steps hfirst hfetch hpreview hrows⟩

/-- A message is delivered and its job raises. -/
def raisedJob : List BrainEvent := [.delivered 1, .raised 1]

theorem raisedJob_steps : consumer.Steps (fixtureQueue [1], .waiting) raisedJob
    (fixtureQueue [], .finished 1) := by
  have hstart : consumer.Steps (fixtureQueue [1], .waiting) [] (fixtureQueue [1], .waiting) :=
    .refl _
  have hqueue : (fixtureQueue [1]).queue = [] ++ 1 :: [] := rfl
  have hdelivered := consumer_next hstart (.delivered hqueue)
  exact consumer_next hdelivered (.raised rfl (raises_of_beforeCommit _ rfl))

/-- A message is delivered and its job stores the numbers without a preview. -/
noncomputable def storedJob : List BrainEvent :=
  [.delivered 1, .matched 1 firstFixture.db newFixture, .trained 1 firstFixture.db newFixture 0,
    .previewed 1, .stored 1 (engineRow ℝ [] 0 newFixture) none]

theorem storedJob_steps : ∃ db, consumer.Steps (fixtureQueue [1], .waiting) storedJob
    ((fixtureQueue []).setDb db, .finished 1) := by
  have hmatch : (1 : ℤ) ∈ firstFixture.db.matchRows := by
    rw [← fetchMatchViaId_isSome, fetch_firstFixture]
    rfl
  have hhistory : trainingSet (fixtureQueue []).pg.db newFixture = [] := trainingSet_firstFixture
  have hpreview : writePreview plainText.silent.gateway (userPrompt newFixture
      (numbers ℝ [] 0 newFixture).probabilities) = .ok none := rfl
  obtain ⟨db, hrows⟩ :=
    writeRows_of_storable (engineRow_nil_fits 0 newFixture) hmatch (rfl : previewStorable
      (.ok none) = true)
  have hstart : consumer.Steps (fixtureQueue [1], .waiting) [] (fixtureQueue [1], .waiting) :=
    .refl _
  have hqueue : (fixtureQueue [1]).queue = [] ++ 1 :: [] := rfl
  have hdelivered := consumer_next hstart (.delivered hqueue)
  rw [← hhistory] at hpreview hrows
  have hjob := job_steps (fixtureQueue []) fetch_firstFixture hpreview hrows
  rw [hhistory] at hjob
  exact ⟨db, hdelivered.trans hjob⟩

theorem raisedJob_run : (pipeline Unit Unit Unit).Run (raisedJob.map (.brain ()))
    ((World.atRest (fixtureQueue [1])).setBrain () (fixtureQueue [], .finished 1)) :=
  System.Run.of_steps (initial_fixtureQueue [1]) (steps_of_consumer raisedJob_steps)

theorem raised_settles : WorldStep
    ((World.atRest (fixtureQueue [1]) : World Unit Unit Unit).setBrain ()
      (fixtureQueue [], .finished 1))
    (.brain () (.settled 1))
    ((World.atRest (fixtureQueue [1])).setBrain () (fixtureQueue [], .waiting)) :=
  World.step_setBrain _ () .settled

/-- The message is gone: the job of the one has raised, that of the other has stored. -/
theorem raised_and_stored_jobs_ended :
    SinceDelivery () 1 (EndedIn () 1)
        (raisedJob.map (Event.brain () : _ → Event Unit Unit Unit)) ∧
      SinceDelivery () 1 (EndedIn () 1)
        (storedJob.map (Event.brain () : _ → Event Unit Unit Unit)) := by
  constructor
  · have hended := (acknowledged_job_ended raisedJob_run raised_settles).1 () 1 rfl nofun
    rcases hended with ⟨-, hended⟩ | hcancelled | ⟨hcrashed, -⟩
    · exact hended
    · cases hcancelled
    · cases hcrashed
  · obtain ⟨db, hsteps⟩ := storedJob_steps
    have hrun : (pipeline Unit Unit Unit).Run (storedJob.map (.brain ()))
        ((World.atRest (fixtureQueue [1])).setBrain () ((fixtureQueue []).setDb db, .finished 1)) :=
      System.Run.of_steps (initial_fixtureQueue [1]) (steps_of_consumer hsteps)
    have hsettles : WorldStep
        ((World.atRest (fixtureQueue [1]) : World Unit Unit Unit).setBrain ()
          ((fixtureQueue []).setDb db, .finished 1))
        (.brain () (.settled 1))
        ((World.atRest (fixtureQueue [1])).setBrain () ((fixtureQueue []).setDb db, .waiting)) :=
      World.step_setBrain _ () .settled
    have hended := (acknowledged_job_ended hrun hsettles).1 () 1 rfl nofun
    rcases hended with ⟨-, hended⟩ | hcancelled | ⟨hcrashed, -⟩
    · exact hended
    · cases hcancelled
    · cases hcrashed

/-- The fixture is in the table, and its message is acknowledged without a
prediction. -/
theorem raised_job_is_lost :
    ¬ ∀ (h : List (Event Unit Unit Unit)) (s t : World Unit Unit Unit) (b : Unit) (m : ℤ),
      (pipeline Unit Unit Unit).Run h s → WorldStep s (.brain b (.settled m)) t →
      SinceDelivery b m (fun post => StoredIn b m post ∨ AbsentIn b m post) h ∨
        m ∉ s.shared.pg.db.matchRows := by
  intro hlost
  rcases hlost _ _ _ () 1 raisedJob_run raised_settles with
    ⟨pre, e, post, heq, -, -, -, hdone⟩ | habsent
  · have hmem : ∀ x ∈ post, x = .brain () (.delivered 1) ∨ x = .brain () (.raised 1) := by
      intro x hx
      have hx' : x ∈ pre ++ e :: post := List.mem_append_right _ (List.mem_cons_of_mem _ hx)
      rw [← heq] at hx'
      simpa [raisedJob] using hx'
    rcases hdone with ⟨_, _, _, _, _, -, hsub⟩ | ⟨_, -, habsent⟩
    · have hstored := hmem _ (hsub.subset (List.mem_cons_of_mem _
        (List.mem_cons_of_mem _ List.mem_cons_self)))
      rcases hstored with hstored | hstored <;> cases hstored
    · rcases hmem _ habsent with habsent | habsent <;> cases habsent
  · exact habsent (by decide +kernel)

end AGame.Pipeline
