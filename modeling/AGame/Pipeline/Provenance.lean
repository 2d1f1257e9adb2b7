import AGame.Pipeline.Coherence
import AGame.Pipeline.Freshness

/-!
# Where an answer and a row come from

A text that a request answers with has been through Postgres, and perhaps through the
cache, but it started in one job: a validated preview of the numbers that job computed.
And with one consumer the jobs are serial, so a row that replaces another was computed
from what the tables held after the other was committed.
-/

namespace AGame.Pipeline

open Base Engine Brain

variable {W B A : Type}

section

variable [DecidableEq W] [DecidableEq B] [DecidableEq A]
variable {h : List (Event W B A)} {s t : World W B A}

/-! ## Answers -/

/-- A request that is about to answer with a text has it from Postgres, now or earlier. -/
def AnswersInv (h : List (Event W B A)) (s : World W B A) : Prop :=
  ∀ r m text, s.requests r = .answering m (some text) → WasCommitted h s m text

theorem AnswersInv.step {e : Event W B A} (hr : (pipeline W B A).Run h s)
    (hinv : AnswersInv h s) (hstep : WorldStep s e t) : AnswersInv (h ++ [e]) t := by
  intro r m text hpc
  cases hstep with
  | worker hw => exact (hinv r m text hpc).step (.worker hw)
  | brain hb => exact (hinv r m text hpc).step (.brain hb)
  | env he => exact (hinv r m text hpc).step (.env he)
  | @request r' e sh pc hq =>
      have hworld : WorldStep s (.request r' e)
          { s with shared := sh, requests := Function.update s.requests r' pc } := .request hq
      change Function.update s.requests r' pc r = .answering m (some text) at hpc
      by_cases heq : r = r'
      · subst heq
        rw [Function.update_self] at hpc
        generalize hheld : s.requests r = held at hq
        cases hq with
        | hit hget =>
            obtain ⟨rfl, htext⟩ := RequestPc.answering.inj hpc
            obtain rfl := Option.some.inj htext
            exact ((textInv_of_run hr).cache _ _ hget).step hworld
        | backfilled =>
            obtain ⟨rfl, htext⟩ := RequestPc.answering.inj hpc
            obtain rfl := Option.some.inj htext
            exact ((textInv_of_run hr).requests r _ _ hheld).step hworld
        | direct hread =>
            obtain ⟨rfl, rfl⟩ := RequestPc.answering.inj hpc
            exact (wasCommitted_now hr (Api.getPrediction_ok hread).2).step hworld
        | started | missed | absent | read | answered | failed => cases hpc
      · rw [Function.update_of_ne heq] at hpc
        exact (hinv r m text hpc).step hworld

theorem answersInv_of_run (hr : (pipeline W B A).Run h s) : AnswersInv h s := by
  refine hr.invariant ?_ fun _ _ _ _ hr hinv hstep => hinv.step hr hstep
  intro s hs r m text hpc
  rw [hs.requests r] at hpc
  cases hpc

theorem proseInv_of_run (hr : (pipeline W B A).Run h s) : ProseInv h s := by
  refine hr.invariant ?_ fun _ _ _ _ hr hinv hstep => hinv.step hr hstep
  intro s hs m row hrow
  unfold World.commentary at hrow
  rw [hs.commentaries] at hrow
  cases hrow

/-- What Postgres held, a job stored. -/
theorem WasCommitted.stored {m : ℤ} {text : String} (hc : WasCommitted h s m text) :
    ∃ pre b values c post, h = pre ++ .brain b (.stored m values (some c)) :: post ∧
      c.text = text := by
  obtain ⟨h₁, h₂, s₁, rfl, hr, -, htext⟩ := hc
  obtain ⟨row, hrow, rfl⟩ := Option.map_eq_some_iff.mp htext
  obtain ⟨numbers, -, pre, _, post, rfl, -, -, b, values, c, rfl, hholds, -⟩ :=
    proseInv_of_run hr m row hrow
  exact ⟨pre, b, values, c, post ++ h₂, by simp, hholds.prediction.symm⟩

/-- **Every answer goes back to a job.** Whatever text a request answers with, some job
for that match stored it before, as the preview the gateway wrote for the numbers the job
computed out of the fixture and the history it had read since its delivery. -/
theorem answer_goes_back_to_job (hr : (pipeline W B A).Run h s) {r : A} {m : ℤ} {text : String}
    (hstep : WorldStep s (.request r (.answered m (some text))) t) :
    ∃ pre b values c post fixture,
      h = pre ++ .brain b (.stored m values (some c)) :: post ∧ c.text = text ∧
      SinceDelivery b m (ComputedIn b m fixture values (some c)) pre ∧
      40 ≤ text.length ∧ text.length ≤ 600 := by
  have hanswering : s.requests r = .answering m (some text) := by
    cases hstep with
    | request hq =>
        generalize s.requests r = held at hq
        cases hq with
        | answered => rfl
  obtain ⟨pre, b, values, c, post, rfl, rfl⟩ := (answersInv_of_run hr r m text hanswering).stored
  obtain ⟨fixture, hjob⟩ := computedTogether_of_run hr pre _ post rfl b m values (some c) rfl
  have hbounds : 40 ≤ c.text.length ∧ c.text.length ≤ 600 := by
    obtain ⟨_, _, _, -, -, -, -, _, _, gateway, -, -, hpreview⟩ := hjob
    have hall := writePreview_bounds hpreview
    exact ⟨hall.1, hall.2.1⟩
  exact ⟨pre, b, values, c, post, fixture, rfl, rfl, hjob, hbounds.1, hbounds.2⟩

/-- The first preview of the first fixture, answered from the cache. -/
theorem first_answer_goes_back : ∃ (h : List (Event Unit Unit Unit)),
    ∃ pre b values c post fixture,
      h = pre ++ .brain b (.stored 1 values (some c)) :: post ∧ c.text = letters 'a' ∧
      SinceDelivery b 1 (ComputedIn b 1 fixture values (some c)) pre ∧
      40 ≤ (letters 'a').length ∧ (letters 'a').length ≤ 600 := by
  obtain ⟨db, -, -, hjob⟩ := letterJob_steps (fixtureQueue [1]) (c := 'a')
    (by decide +kernel) rfl workerView_firstFixture
  have hrun : (pipeline Unit Unit Unit).Run _ _ :=
    System.Run.of_steps (initial_fixtureQueue [1]) (atRest_consumer () hjob)
  generalize hsh : ({ (fixtureQueue [1]).setDb db with
    queue := [], cache := (fixtureQueue [1]).cache.set 1 (letters 'a') } : Shared) = sh at hrun
  have hget : sh.cache.get 1 = some (letters 'a') := by
    rw [← hsh]
    show ((fixtureQueue [1]).cache.set 1 (letters 'a')).get 1 = _
    rw [Cache.get_set, if_pos rfl]
  have hstart : reader.Steps (sh, .idle) [] (sh, .idle) := .refl _
  have hhit := reader_next (reader_next hstart (.started 1)) (.hit hget)
  have hquick := steps_of_reader (s := (World.atRest sh : World Unit Unit Unit)) (r := ()) hhit
  have hanswer := (World.atRest sh : World Unit Unit Unit).step_setRequest ()
    (x := (sh, .answering 1 (some (letters 'a')))) (y := (sh, .idle)) .answered
  exact ⟨_, answer_goes_back_to_job (hrun.append hquick) hanswer⟩

/-! ## Serial jobs -/

/-- A consumer comes to stand before a commit by being delivered a message. -/
theorem delivered_of_beforeCommit {k : List (Event W B A)} {b : B}
    (hk : (pipeline W B A).Steps s k t) (hrest : (s.brains b).beforeCommit = false) :
    (t.brains b).beforeCommit = true → ∃ x ∈ k, DeliveredTo b x := by
  refine hk.invariant (P := fun k t => (t.brains b).beforeCommit = true →
    ∃ x ∈ k, DeliveredTo b x) ?_ ?_
  · intro hs
    rw [hrest] at hs
    cases hs
  · intro k t e t' _ ih hstep hjob
    have hold : (t.brains b).beforeCommit = true → ∃ x ∈ k ++ [e], DeliveredTo b x := by
      intro ht
      obtain ⟨x, hx, hdelivered⟩ := ih ht
      exact ⟨x, List.mem_append_left _ hx, hdelivered⟩
    cases hstep with
    | worker | request | env => exact hold hjob
    | @brain b' e sh pc hb =>
        change (Function.update t.brains b' pc b).beforeCommit = true at hjob
        by_cases heq : b = b'
        · subst heq
          rw [Function.update_self] at hjob
          generalize t.brains b = held at hb hold
          cases hb with
          | delivered => exact ⟨_, List.mem_append_right _ (List.mem_singleton.mpr rfl), _, rfl⟩
          | matched | trained | previewed => exact hold rfl
          | @stored _ _ _ preview =>
              cases preview with
              | none | some => cases hjob
          | absent | warmed | warmFailed | raised | settled | crashed | cancelled => cases hjob
        · rw [Function.update_of_ne heq] at hjob
          exact hold hjob

/-- A job that commits stands behind its commit, and so does every other if there is one
consumer only. -/
theorem nobody_beforeCommit [Subsingleton B] {b : B} {m : ℤ} {values : PredictionValues}
    {preview : Option Commentary} (hstore : WorldStep s (.brain b (.stored m values preview)) t)
    (b' : B) : (t.brains b').beforeCommit = false := by
  obtain rfl := Subsingleton.elim b b'
  cases hstore with
  | brain hb =>
      generalize s.brains b = held at hb
      cases hb with
      | stored =>
          show (Function.update s.brains b (afterCommit m preview) b).beforeCommit = false
          rw [Function.update_self]
          cases preview with
          | none | some => rfl

/-- Where nobody stands before a commit, whatever is stored later is read later. -/
theorem computedOn_of_rest {m : ℤ} {k : List (Event W B A)} (hr : (pipeline W B A).Run h s)
    (hrest : ∀ b, (s.brains b).beforeCommit = false) (hk : (pipeline W B A).Steps s k t)
    (hstored : ∃ x ∈ k, StoresMatch m x) :
    ∃ row, t.prediction m = some row ∧ ComputedOn m row s k t := by
  obtain ⟨x, hx, hstores⟩ := hstored
  have hrun := hr.append hk
  have hlast := prediction_of_run hrun (m := m) ⟨x, List.mem_append_right _ hx, hstores⟩
  obtain ⟨k₁, _, k₂, rfl, -, -, b, row, preview, rfl, hrow⟩ := hlast.suffix hx hstores
  obtain ⟨s₁, s₂, hk₁, hstore, -⟩ := hk.moment
  have hbefore : (s₁.brains b).beforeCommit = true := by
    cases hstore with
    | brain hb =>
        generalize s₁.brains b = held at hb
        cases hb with
        | stored => rfl
  -- the job was delivered behind `s`, and read since
  obtain ⟨y, hy, hdelivered⟩ := delivered_of_beforeCommit hk₁ (hrest b) hbefore
  obtain ⟨fixture, hjob⟩ := computedTogether_of_run hrun (h ++ k₁) _ k₂ (by simp) b m row.val
    preview rfl
  obtain ⟨p, z, q, rfl, -, -, -, hcomputed⟩ := hjob.suffix hy hdelivered
  have hsplit : p ++ z :: q ++ .brain b (.stored m row.val preview) :: k₂ =
      (p ++ [z]) ++ q ++ .brain b (.stored m row.val preview) :: k₂ := by simp
  rw [hsplit] at hk ⊢
  exact ⟨row, hrow, hcomputed.computedOn hk⟩

/-- A row that no job stores stays. -/
theorem prediction_unstored {m : ℤ} {k : List (Event W B A)} (hr : (pipeline W B A).Run h s)
    (hk : (pipeline W B A).Steps s k t) :
    (∀ x ∈ k, ¬ StoresMatch m x) → t.prediction m = s.prediction m := by
  refine hk.invariant (P := fun k t => (∀ x ∈ k, ¬ StoresMatch m x) →
    t.prediction m = s.prediction m) (fun _ => rfl) ?_
  intro k t e t' hk ih hstep hnone
  rw [prediction_step (hr.append hk) hstep (hnone e (by simp))]
  exact ih fun x hx => hnone x (List.mem_append_left _ hx)

/-- **Rows never step back.** With one consumer, from the moment a job has stored a
prediction, the row of any match either stays as it is or is computed from readings that
are all later than that moment. -/
theorem predictions_never_step_back [Subsingleton B] {s' : World W B A} {k : List (Event W B A)}
    {b : B} {m' : ℤ} {values : PredictionValues} {preview : Option Commentary}
    (hr : (pipeline W B A).Run h s)
    (hstore : WorldStep s (.brain b (.stored m' values preview)) s')
    (hk : (pipeline W B A).Steps s' k t) (m : ℤ) :
    t.prediction m = s'.prediction m ∨
      ∃ row, t.prediction m = some row ∧ ComputedOn m row s' k t := by
  by_cases hstored : ∃ x ∈ k, StoresMatch m x
  · exact Or.inr (computedOn_of_rest (hr.next hstore) (nobody_beforeCommit hstore) hk hstored)
  · left
    exact prediction_unstored (hr.next hstore) hk fun x hx hx' => hstored ⟨x, hx, hx'⟩

end

/-- Two jobs for the first fixture: from the first commit on. -/
theorem second_job_steps_on : ∃ (h k : List (Event Unit Unit Unit))
    (s s' t : World Unit Unit Unit), (pipeline Unit Unit Unit).Run h s ∧
      (pipeline Unit Unit Unit).Steps s' k t ∧
      (∃ values preview, WorldStep s (.brain () (.stored 1 values preview)) s') ∧
      (∃ x ∈ k, StoresMatch 1 x) ∧
      (t.prediction 1 = s'.prediction 1 ∨
        ∃ row, t.prediction 1 = some row ∧ ComputedOn 1 row s' k t) := by
  obtain ⟨db, hview, -, hfirst⟩ := letterJob_steps (fixtureQueue [1, 1]) (c := 'a')
    (by decide +kernel) rfl workerView_firstFixture
  obtain ⟨db', -, -, hsecond⟩ := letterJob_steps
    { (fixtureQueue [1, 1]).setDb db with
      queue := [1], cache := (fixtureQueue [1, 1]).cache.set 1 (letters 'a') } (c := 'b')
    (by decide +kernel) rfl hview
  let computed : List BrainEvent := [.delivered 1,
    .matched 1 (fixtureQueue [1, 1]).pg.db newFixture,
    .trained 1 (fixtureQueue [1, 1]).pg.db newFixture 0, .previewed 1]
  have hfirst' : (pipeline Unit Unit Unit).Steps _
      (computed.map (.brain ()) ++ .brain () _ :: _) _ := atRest_consumer () hfirst
  obtain ⟨s, s', hpre, hstore, hrest⟩ := hfirst'.moment
  have hk := hrest.trans (atRest_consumer () hsecond)
  have hrun := System.Run.of_steps (initial_fixtureQueue [1, 1]) hpre
  refine ⟨_, _, _, _, _, hrun, hk, ⟨_, _, hstore⟩, ?_,
    predictions_never_step_back hrun hstore hk 1⟩
  exact ⟨.brain () (.stored 1 (engineRow ℝ [] 0 newFixture) (some (letterPreview 'b'))),
    by simp [smoothJob], (), _, _, rfl⟩

end AGame.Pipeline
