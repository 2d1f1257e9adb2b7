import AGame.Brain.OneMatch
import AGame.Pipeline.Jobs

/-!
# Prose and numbers

A job writes its numbers always and its prose only when there is a preview. So
a preview never stands alone, and it belongs to the numbers stored next to it
until a job without a preview replaces those.
-/

namespace AGame.Pipeline

open Std (ExtTreeMap)
open Base Engine Brain

variable {W B A : Type}

/-- The prediction row of the current engine. -/
def World.prediction (s : World W B A) (m : ℤ) : Option PredictionRow :=
  s.shared.pg.db.predictionRows[(m, ENGINE_VERSION)]?

def World.commentary (s : World W B A) (m : ℤ) : Option CommentaryRow :=
  s.shared.pg.db.commentaryRows[m]?

/-- A job stored a preview of `m`. -/
def WritesProse (m : ℤ) (e : Event W B A) : Prop :=
  ∃ b values c, e = .brain b (.stored m values (some c))

/-- A job without a preview stored `values` for `m`. -/
def RewrittenIn (m : ℤ) (values : PredictionValues) (post : List (Event W B A)) : Prop :=
  ∃ b, Event.brain b (.stored m values none) ∈ post

/-- `row` is the last preview stored for `m`, and `values` are the numbers
stored with it or those of a later job without a preview. -/
def Belongs (m : ℤ) (row : CommentaryRow) (values : PredictionValues)
    (h : List (Event W B A)) : Prop :=
  Since (WritesProse m) (fun e post => ∃ b values' c,
    e = .brain b (.stored m values' (some c)) ∧ Holds row c ∧
      (values = values' ∨ RewrittenIn m values post)) h

/-- Every commentary row stands next to a prediction row it belongs to. -/
def ProseInv (h : List (Event W B A)) (s : World W B A) : Prop :=
  ∀ m row, s.commentary m = some row →
    ∃ numbers, s.prediction m = some numbers ∧ Belongs m row numbers.val h

theorem Belongs.append {m : ℤ} {row : CommentaryRow} {values : PredictionValues}
    {h : List (Event W B A)} {x : Event W B A} (hb : Belongs m row values h)
    (hx : ¬ WritesProse m x) : Belongs m row values (h ++ [x]) := by
  refine Since.append hb hx ?_
  rintro e post ⟨b, values', c, he, hrow, hvalues⟩
  refine ⟨b, values', c, he, hrow, ?_⟩
  rcases hvalues with hsame | ⟨b', hrewritten⟩
  · exact Or.inl hsame
  · exact Or.inr ⟨b', List.mem_append_left _ hrewritten⟩

/-- A step that stores nothing keeps the pairing. -/
theorem ProseInv.quiet {h : List (Event W B A)} {s t : World W B A} {x : Event W B A}
    (hinv : ProseInv h s)
    (hpredictions : t.shared.pg.db.predictionRows = s.shared.pg.db.predictionRows)
    (hcommentaries : t.shared.pg.db.commentaryRows = s.shared.pg.db.commentaryRows)
    (hx : ∀ m, ¬ WritesProse m x) : ProseInv (h ++ [x]) t := by
  intro m row hrow
  unfold World.commentary at hrow
  rw [hcommentaries] at hrow
  obtain ⟨numbers, hnumbers, hbelongs⟩ := hinv m row hrow
  refine ⟨numbers, ?_, hbelongs.append (hx m)⟩
  unfold World.prediction
  rw [hpredictions]
  exact hnumbers

section

variable [DecidableEq B] {h : List (Event W B A)} {s : World W B A} {b : B}

/-- The commit of a job. -/
theorem ProseInv.store (hinv : ProseInv h s) {m : ℤ} {values : PredictionValues}
    {preview : Option Commentary} {db : Db} {pc : BrainPc}
    (hrows : writeRows s.shared.pg.db m values preview = .ok db) :
    ProseInv (h ++ [.brain b (.stored m values preview)])
      { s with shared := s.shared.setDb db, brains := Function.update s.brains b pc } := by
  obtain ⟨hfits, hpredictions, -, -, -, -, -, hprose⟩ := writeRows_ok hrows
  intro m' row hrow
  change db.commentaryRows[m']? = some row at hrow
  show ∃ numbers, db.predictionRows[(m', ENGINE_VERSION)]? = some numbers ∧ _
  by_cases heq : m = m'
  · subst heq
    refine ⟨⟨values, hfits⟩, ?_, ?_⟩
    · rw [hpredictions, getElem?_put, if_pos rfl]
    · rcases hprose with ⟨rfl, hsame⟩ | ⟨c, row', rfl, hholds, hinsert⟩
      · -- the preview stays behind with numbers it was not written for
        rw [hsame] at hrow
        obtain ⟨numbers, -, hbelongs⟩ := hinv m row hrow
        refine Since.append hbelongs ?_ ?_
        · rintro ⟨b', values', c, heq⟩
          cases heq
        · rintro e post ⟨b', values', c, he, hholds, -⟩
          exact ⟨b', values', c, he, hholds, Or.inr ⟨b, by simp⟩⟩
      · rw [hinsert, getElem?_put, if_pos rfl] at hrow
        obtain rfl := Option.some.inj hrow
        exact Since.here ⟨b, values, c, rfl⟩ ⟨b, values, c, rfl, hholds, Or.inl rfl⟩
  · have hrow' : s.commentary m' = some row := by
      rcases hprose with ⟨-, hsame⟩ | ⟨c, row', -, -, hinsert⟩
      · rw [hsame] at hrow
        exact hrow
      · rw [hinsert, getElem?_put, if_neg heq] at hrow
        exact hrow
    obtain ⟨numbers, hnumbers, hbelongs⟩ := hinv m' row hrow'
    refine ⟨numbers, ?_, hbelongs.append ?_⟩
    · rw [hpredictions, getElem?_put, if_neg]
      · exact hnumbers
      · intro hkey
        exact heq (Prod.mk.inj hkey).1
    · rintro ⟨b', values', c, he⟩
      exact heq (BrainEvent.stored.inj (Event.brain.inj he).2).1

end

variable [DecidableEq W] [DecidableEq B] [DecidableEq A]

/-- A job stores under the id of its message. -/
theorem fixture_id_of_run {h : List (Event W B A)} {s : World W B A}
    (hr : (pipeline W B A).Run h s) {b : B} {m : ℤ} {fixture : Match}
    {values : PredictionValues} {preview : Option Commentary}
    (hpc : s.brains b = .previewed m fixture values preview) : fixture.id = m := by
  have hjob := inJob_of_run hr b m (by rw [hpc]; rfl)
  rw [hpc] at hjob
  obtain ⟨_, _, _, -, -, -, -, _, _, _, ⟨_, hfetch, -⟩, -⟩ := hjob
  exact fetchMatchViaId_id hfetch

theorem ProseInv.step {h : List (Event W B A)} {s t : World W B A} {e : Event W B A}
    (hr : (pipeline W B A).Run h s) (hinv : ProseInv h s) (hstep : WorldStep s e t) :
    ProseInv (h ++ [e]) t := by
  cases hstep with
  | worker hw =>
      obtain ⟨-, hpredictions, hcommentaries, -⟩ := hw.frame
      exact hinv.quiet hpredictions hcommentaries (by rintro m ⟨_, _, _, he⟩; cases he)
  | @brain b e sh pc hb =>
      generalize hheld : s.brains b = held at hb
      cases hb with
      | stored hrows =>
          rw [fixture_id_of_run hr hheld] at hrows
          exact hinv.store hrows
      | delivered | absent | matched | trained | previewed | warmed | warmFailed | raised
      | settled | crashed | cancelled =>
          exact hinv.quiet rfl rfl (by rintro m ⟨_, _, _, he⟩; cases he)
  | request hq =>
      have hpg := hq.frame.1
      exact hinv.quiet (congrArg (·.db.predictionRows) hpg) (congrArg (·.db.commentaryRows) hpg)
        (by rintro m ⟨_, _, _, he⟩; cases he)
  | env he =>
      obtain ⟨-, -, -, hpredictions, hcommentaries, -⟩ := he.frame
      exact hinv.quiet hpredictions hcommentaries (by rintro m ⟨_, _, _, he⟩; cases he)

/-- What every commit wrote was computed together, out of what its job read. -/
def ComputedTogether (h : List (Event W B A)) : Prop :=
  BeforeEach (fun e pre => ∀ b m values preview, e = .brain b (.stored m values preview) →
    ∃ fixture, SinceDelivery b m (ComputedIn b m fixture values preview) pre) h

theorem computedTogether_of_run {h : List (Event W B A)} {s : World W B A}
    (hr : (pipeline W B A).Run h s) : ComputedTogether h := by
  refine hr.invariant (P := fun h _ => ComputedTogether h) (fun _ _ => beforeEach_nil) ?_
  intro h s e t hr hinv hstep
  refine beforeEach_snoc.mpr ⟨hinv, ?_⟩
  rintro b m values preview rfl
  cases hstep with
  | brain hb =>
      generalize hheld : s.brains b = held at hb
      cases hb with
      | stored hrows =>
          have hjob := inJob_of_run hr b m (by rw [hheld]; rfl)
          rw [hheld] at hjob
          exact ⟨_, hjob⟩

/-- **Prose and numbers.** In every reachable state a commentary row stands next
to a prediction row, and it is the last preview a job stored for the match: it
was written for the numbers of that job, which are the current ones unless a
later job without a preview has replaced them. -/
theorem prose_belongs_to_its_job {h : List (Event W B A)} {s : World W B A}
    (hr : (pipeline W B A).Run h s) :
    (∀ m row, s.commentary m = some row →
      ∃ numbers, s.prediction m = some numbers ∧ Belongs m row numbers.val h) ∧
      ComputedTogether h := by
  refine ⟨?_, computedTogether_of_run hr⟩
  refine hr.invariant (P := ProseInv) ?_ fun _ _ _ _ hr hinv hstep => hinv.step hr hstep
  intro s hs m row hrow
  unfold World.commentary at hrow
  rw [hs.commentaries] at hrow
  simp at hrow

/-! ### A preview that outlives its numbers -/

/-- One goal between two other teams. -/
def otherResult : Worker.Match :=
  { Worker.fixturePayload 2 "FINISHED" with
    homeTeam := ⟨58, "Aston Villa FC", none, none, none⟩
    awayTeam := ⟨66, "Manchester United FC", none, none, none⟩
    score := ⟨⟨some 1, some 0⟩, ⟨none, none⟩, none⟩ }

def otherWon : Elo.MatchResult := ⟨2, 2021, 0, 58, 66, 1, 0⟩

theorem oneNil_otherWon : OneNil otherWon := ⟨by decide, rfl, rfl⟩

/-- The league once a backfill has brought the other match. -/
def otherPlayed : Worker.Pg := (Worker.syncHistoricMatches firstFixture [otherResult]).1

theorem fetch_otherPlayed : fetchMatchViaId otherPlayed.db 1 = some newFixture := by
  decide +kernel

theorem trainingSet_otherPlayed : trainingSet otherPlayed.db newFixture = [otherWon] := by
  have hrows : (otherPlayed.db.matchRows.toList.filterMap fun entry =>
      historyRow otherPlayed.db newFixture.competitionId none entry.1 entry.2) =
        [otherWon] := by
    decide +kernel
  show (otherPlayed.db.matchRows.toList.filterMap _).mergeSort Elo.kickoffLE = [otherWon]
  rw [hrows, List.mergeSort_singleton]

/-- A backfill of the other match does not mind what was predicted before. -/
theorem backfill_otherResult (pg : Worker.Pg)
    (hview : Worker.workerView pg.db = firstFixture.db) :
    ∃ pg' n, Worker.syncHistoricMatches pg [otherResult] = (pg', .ok n) ∧
      fetchMatchViaId pg'.db 1 = some newFixture ∧
      trainingSet pg'.db newFixture = [otherWon] ∧ Worker.FactsOnly pg.db pg'.db := by
  have hframe := (Worker.syncHistoricMatches_frame pg [otherResult]).1
  have hok : (Worker.syncHistoricFrom firstFixture.db 0 [otherResult]).isOk := by
    decide +kernel
  have hsame := Worker.syncHistoricFrom_view [otherResult] pg.db 0
  rw [hview] at hsame
  rw [hsame] at hok
  cases hfill : Worker.syncHistoricFrom pg.db 0 [otherResult] with
  | error e =>
      rw [hfill] at hok
      cases hok
  | ok out =>
      have hplayed : Worker.workerView out.1 = otherPlayed.db := by
        unfold otherPlayed Worker.syncHistoricMatches
        rw [hsame, hfill]
        rfl
      have hwhole : Worker.syncHistoricMatches pg [otherResult] =
          ({ pg with db := out.1 }, .ok out.2) := by
        rw [Worker.syncHistoricMatches, hfill]
      rw [hwhole] at hframe
      refine ⟨_, out.2, hwhole, ?_, ?_, hframe⟩
      · rw [← fetch_otherPlayed, ← hplayed]
        rfl
      · rw [← trainingSet_otherPlayed, ← hplayed]
        rfl

theorem workerView_firstFixture : Worker.workerView firstFixture.db = firstFixture.db := by
  have hcommentaries : firstFixture.db.commentaryRows = ∅ := by decide +kernel
  have hpredictions : firstFixture.db.predictionRows = ∅ := by decide +kernel
  exact Db.ext rfl rfl rfl rfl rfl hcommentaries.symm hpredictions.symm

/-- A job that previews the first fixture with forty times the same letter. -/
theorem letterJob_steps (sh : Shared) {post : List ℤ} {c : Char}
    (hstorable : (letterPreview c).storable = true) (hqueue : sh.queue = 1 :: post)
    (hview : Worker.workerView sh.pg.db = firstFixture.db) :
    ∃ db, Worker.workerView db = firstFixture.db ∧
      Api.committedText db 1 = some (letters c) ∧
      consumer.Steps (sh, .waiting) (smoothJob sh.pg.db 1 newFixture 0
          (engineRow ℝ [] 0 newFixture) (some (letterPreview c)))
        ({ sh.setDb db with queue := post, cache := sh.cache.set 1 (letters c) },
          .waiting) := by
  have hfetch : fetchMatchViaId sh.pg.db 1 = some newFixture := by
    rw [← fetch_firstFixture, ← hview]
    rfl
  have hhistory : trainingSet sh.pg.db newFixture = [] := by
    rw [← trainingSet_firstFixture, ← hview]
    rfl
  obtain ⟨db, hrows, hjob⟩ := fixtureJob_steps sh _ hqueue hfetch hhistory
    (engineRow_nil_fits 0 newFixture) (letters_preview c _) hstorable
  refine ⟨db, (writeRows_view hrows).trans hview, ?_, hjob⟩
  obtain ⟨-, -, -, -, -, -, -, hprose⟩ := writeRows_ok hrows
  obtain ⟨_, row, hsome, hholds, hinsert⟩ := hprose.resolve_left (by simp)
  obtain rfl := Option.some.inj hsome
  rw [Api.committedText, hinsert, getElem?_put, if_pos rfl, Option.map_some,
    hholds.prediction]
  rfl

/-- The columns a prompt quotes: the result, the goals, and both sides to score. -/
def probabilityColumns (values : PredictionValues) : List ℤ :=
  [values.probHome, values.probDraw, values.probAway, values.over25, values.btts]

/-- Two jobs for the fixture, with a preview and without, and a backfill in
between: the probabilities go, the preview stays. -/
theorem preview_outlives_numbers : ∃ (h : List (Event Unit Unit Unit))
    (s : World Unit Unit Unit) (row : CommentaryRow) (numbers : PredictionRow),
    (pipeline Unit Unit Unit).Run h s ∧ s.commentary 1 = some row ∧
      s.prediction 1 = some numbers ∧
      ∀ b values c, Event.brain b (.stored 1 values (some c)) ∈ h →
        probabilityColumns values ≠ probabilityColumns numbers.val := by
  obtain ⟨db₁, hview₁, htext, hjob₁⟩ := letterJob_steps (fixtureQueue [1, 1]) (c := 'a')
    (by decide +kernel) rfl workerView_firstFixture
  obtain ⟨row, hrow, -⟩ := Option.map_eq_some_iff.mp htext
  obtain ⟨pg₂, n, hfill, hfetch₂, hhistory₂, hframe⟩ :=
    backfill_otherResult ⟨db₁, firstFixture.rabbitEventSeq⟩ hview₁
  obtain ⟨db₂, hrows₂, hjob₂⟩ := fixtureJob_steps
    ⟨pg₂, [1], (fixtureQueue [1, 1]).cache.set 1 (letters 'a')⟩ plainText.silent.gateway rfl
    hfetch₂ hhistory₂ (oneNil_otherWon.engineRow_fits rfl 0) rfl rfl
  have hfirst : (pipeline Unit Unit Unit).Steps _ _ _ := atRest_consumer () hjob₁
  have hsteps := (hfirst.trans (atRest_env (.backfill hfill))).trans (atRest_consumer () hjob₂)
  have hrun := System.Run.of_steps (initial_fixtureQueue [1, 1]) hsteps
  obtain ⟨hfits₂, hpredictions₂, -, -, -, -, -, hprose₂⟩ := writeRows_ok hrows₂
  obtain ⟨-, hsame⟩ := hprose₂.resolve_right (by simp)
  refine ⟨_, _, row, ⟨engineRow ℝ [otherWon] 0 newFixture, hfits₂⟩, hrun, ?_, ?_, ?_⟩
  · show db₂.commentaryRows[(1 : ℤ)]? = some row
    rw [hsame]
    show pg₂.db.commentaryRows[(1 : ℤ)]? = some row
    rw [hframe.commentaries]
    exact hrow
  · show db₂.predictionRows[((1 : ℤ), ENGINE_VERSION)]? = _
    rw [hpredictions₂, getElem?_put, if_pos rfl]
  · intro b values c hmem
    have hvalues : values = engineRow ℝ [] 0 newFixture := by
      simp [smoothJob] at hmem
      exact hmem.1
    rw [hvalues]
    intro hsame
    exact oneNil_otherWon.probDraw_ne 0 0 newFixture newFixture
      (List.cons.inj (List.cons.inj hsame).2).1

/-- It belongs to the first job, whose numbers the second one replaced. -/
theorem outliving_preview_belongs : ∃ (h : List (Event Unit Unit Unit))
    (s : World Unit Unit Unit) (row : CommentaryRow) (numbers : PredictionRow),
    (pipeline Unit Unit Unit).Run h s ∧ s.prediction 1 = some numbers ∧
      Belongs 1 row numbers.val h := by
  obtain ⟨h, s, row, _, hrun, hrow, -, -⟩ := preview_outlives_numbers
  obtain ⟨numbers, hnumbers, hbelongs⟩ := (prose_belongs_to_its_job hrun).1 1 row hrow
  exact ⟨h, s, row, numbers, hrun, hnumbers, hbelongs⟩

/-- A preview that quotes probabilities a later job has replaced. -/
theorem prose_outlives_its_numbers :
    ¬ ∀ (h : List (Event Unit Unit Unit)) (s : World Unit Unit Unit),
      (pipeline Unit Unit Unit).Run h s → ∀ m row, s.commentary m = some row →
      ∃ numbers, s.prediction m = some numbers ∧
        Since (WritesProse m) (fun e _ => ∃ b values c,
          e = .brain b (.stored m values (some c)) ∧ Holds row c ∧
            probabilityColumns values = probabilityColumns numbers.val) h := by
  intro htogether
  obtain ⟨h, s, row, numbers, hrun, hrow, hnumbers, hnever⟩ := preview_outlives_numbers
  obtain ⟨numbers', hnumbers', pre, e, post, rfl, -, -, b, values, c, rfl, -, hsame⟩ :=
    htogether h s hrun 1 row hrow
  obtain rfl := Option.some.inj (hnumbers.symm.trans hnumbers')
  exact hnever b values c (by simp) hsame

end AGame.Pipeline
