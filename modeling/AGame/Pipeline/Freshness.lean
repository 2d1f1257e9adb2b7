import AGame.Pipeline.Outbox
import AGame.Pipeline.Prose

/-!
# What a prediction follows

A gated change of a match is published, delivered and answered by a job that
reads the match table after the change. So when everything is at rest the row of
a match follows the match's own last change. It does not follow the rest of its
league: the result of another match moves the ratings and strengths behind the
row, but brings no job for it.
-/

namespace AGame.Pipeline

open Base Engine Brain

variable {W B A : Type}

/-- A job that ended without an outcome. -/
def Event.jobFailed : Event W B A → Bool
  | .brain _ (.raised _) => true
  | .brain _ (.cancelled _) => true
  | _ => false

/-- The outbox and the queue are empty and nobody is at work. -/
structure Quiescent (s : World W B A) : Prop where
  outbox : s.shared.pg.db.rabbitEventRows = ∅
  queue : s.shared.queue = []
  workers : ∀ w, s.workers w = .idle
  brains : ∀ b, s.brains b = .waiting

/-! ## From the broker to the end of a job -/

def Delivers (m : ℤ) (e : Event W B A) : Prop := ∃ b, e = .brain b (.delivered m)

/-- `m` is in the queue, or was delivered in `post`. -/
def UnderWay (m : ℤ) (s : World W B A) (post : List (Event W B A)) : Prop :=
  m ∈ s.shared.queue ∨ ∃ x ∈ post, Delivers m x

/-- What has become of a delivery of `m` to `b`: it is being processed, the
message was put back, or the job has ended. -/
def Outcome (b : B) (m : ℤ) (s : World W B A) (post : List (Event W B A)) : Prop :=
  ((s.brains b).message = some m ∧ ∀ x ∈ post, ¬ DeliveredTo b x) ∨ UnderWay m s post ∨
    EndedIn b m post ∨ Event.brain b (.cancelled m) ∈ post

/-- No message is lost on the way. -/
structure CustodyInv (h : List (Event W B A)) (s : World W B A) : Prop where
  accepted : AfterEach (fun e post => ∀ m, e.message? = some m → UnderWay m s post) h
  delivered : AfterEach (fun e post => ∀ b m, e = .brain b (.delivered m) →
    Outcome b m s post) h

section

variable [DecidableEq W] [DecidableEq B] [DecidableEq A]
variable {h pre post : List (Event W B A)} {s t : World W B A} {e : Event W B A} {b : B} {m : ℤ}

/-- A message stays in the queue until it is delivered. -/
theorem UnderWay.step (hway : UnderWay m s post) (hstep : WorldStep s e t) :
    UnderWay m t (post ++ [e]) := by
  rcases hway with hqueued | ⟨x, hx, hdelivers⟩
  · by_cases hless : t.shared.queue.count m < s.shared.queue.count m
    · obtain ⟨b, rfl, -⟩ := hstep.queue_count hless
      exact Or.inr ⟨_, by simp, b, rfl⟩
    · left
      have hpos : 0 < s.shared.queue.count m := List.count_pos_iff.mpr hqueued
      exact List.count_pos_iff.mp (hpos.trans_le (not_lt.mp hless))
  · exact Or.inr ⟨x, List.mem_append_left _ hx, hdelivers⟩

theorem accepted_step (hstep : WorldStep s e t) (hm : e.message? = some m) :
    m ∈ t.shared.queue := by
  cases hstep with
  | @worker w e sh pc hw =>
      generalize s.workers w = held at hw
      cases hw with
      | accepted =>
          obtain rfl := Option.some.inj hm
          exact List.mem_append_right _ (List.mem_singleton.mpr rfl)
      | competitionsSynced | fetched | reserved | changed | unchanged | outboxRead
      | outboxEmpty | confirmed | deleted | died => cases hm
  | brain | request | env => cases hm

/-- A consumer is delivered a message only when it has none. -/
theorem delivered_step (hstep : WorldStep s (.brain b (.delivered m)) t) :
    s.brains b = .waiting ∧ (t.brains b).message = some m := by
  cases hstep with
  | @brain _ _ sh pc hb =>
      generalize s.brains b = held at hb
      cases hb with
      | delivered =>
          refine ⟨rfl, ?_⟩
          show (Function.update s.brains b (.delivered m) b).message = some m
          rw [Function.update_self]
          rfl

theorem Outcome.step (hr : (pipeline W B A).Run h s)
    (hsplit : h = pre ++ .brain b (.delivered m) :: post) (hout : Outcome b m s post)
    (hstep : WorldStep s e t) : Outcome b m t (post ++ [e]) := by
  rcases hout with ⟨hheld, hlast⟩ | hway | hended | hcancelled
  · by_cases hstill : (t.brains b).message = some m
    · refine Or.inl ⟨hstill, ?_⟩
      intro x hx
      rcases List.mem_append.mp hx with hx | hx
      · exact hlast x hx
      · obtain rfl := List.mem_singleton.mp hx
        rintro ⟨m', rfl⟩
        rw [(delivered_step hstep).1] at hheld
        cases hheld
    · rcases custody_of_run hr hstep hheld hstill with ⟨-, hended⟩ | rfl | ⟨-, hqueue⟩
      · have hthis : Since (DeliveredTo b) (fun _ post' => post' = post) h :=
          ⟨pre, _, post, hsplit, ⟨m, rfl⟩, hlast, rfl⟩
        obtain ⟨_, _, _, -, -, -, ⟨-, hended⟩, rfl⟩ := hended.and hthis
        exact Or.inr (Or.inr (Or.inl hended.append))
      · exact Or.inr (Or.inr (Or.inr (by simp)))
      · refine Or.inr (Or.inl (Or.inl ?_))
        rw [hqueue]
        exact List.mem_cons_self
  · exact Or.inr (Or.inl (hway.step hstep))
  · exact Or.inr (Or.inr (Or.inl hended.append))
  · exact Or.inr (Or.inr (Or.inr (List.mem_append_left _ hcancelled)))

theorem CustodyInv.step (hr : (pipeline W B A).Run h s) (hinv : CustodyInv h s)
    (hstep : WorldStep s e t) : CustodyInv (h ++ [e]) t := by
  constructor
  · rw [afterEach_snoc]
    constructor
    · intro pre x post heq m hm
      exact (hinv.accepted pre x post heq m hm).step hstep
    · intro m hm
      exact Or.inl (accepted_step hstep hm)
  · rw [afterEach_snoc]
    constructor
    · rintro pre x post heq b m rfl
      exact (hinv.delivered pre _ post heq b m rfl).step hr heq hstep
    · rintro b m rfl
      exact Or.inl ⟨(delivered_step hstep).2, List.forall_mem_nil _⟩

theorem custodyInv_of_run (hr : (pipeline W B A).Run h s) : CustodyInv h s := by
  refine hr.invariant (P := CustodyInv) ?_ fun _ _ _ _ hr hinv hstep => hinv.step hr hstep
  intro s _
  exact ⟨afterEach_nil, afterEach_nil⟩

/-! ## The row of a match -/

/-- A job stored a prediction of `m`. -/
def StoresMatch (m : ℤ) (e : Event W B A) : Prop :=
  ∃ b values preview, e = .brain b (.stored m values preview)

theorem prediction_step (hr : (pipeline W B A).Run h s) (hstep : WorldStep s e t)
    (hx : ¬ StoresMatch m e) : t.prediction m = s.prediction m := by
  unfold World.prediction
  cases hstep with
  | worker hw => exact congrArg (·[(m, ENGINE_VERSION)]?) hw.frame.2.1
  | @brain b e sh pc hb =>
      generalize hheld : s.brains b = held at hb
      cases hb with
      | @stored m' fixture values preview db hrows =>
          rw [fixture_id_of_run hr hheld] at hrows
          obtain ⟨hfits, hpredictions, -⟩ := writeRows_ok hrows
          have hne : ((m', ENGINE_VERSION) : ℤ × String) ≠ (m, ENGINE_VERSION) := by
            intro hkey
            obtain ⟨rfl, -⟩ := Prod.mk.inj hkey
            exact hx ⟨b, values, preview, rfl⟩
          show db.predictionRows[(m, ENGINE_VERSION)]? = _
          rw [hpredictions, getElem?_put, if_neg hne]
      | delivered | absent | matched | trained | previewed | warmed | warmFailed | raised
      | settled | crashed | cancelled => rfl
  | request hq => exact congrArg (·.db.predictionRows[(m, ENGINE_VERSION)]?) hq.frame.1
  | env he => exact congrArg (·[(m, ENGINE_VERSION)]?) he.frame.2.2.2.1

theorem stored_step (hr : (pipeline W B A).Run h s) {values : PredictionValues}
    {preview : Option Commentary}
    (hstep : WorldStep s (.brain b (.stored m values preview)) t) :
    ∃ row, t.prediction m = some row ∧ row.val = values := by
  cases hstep with
  | brain hb =>
      generalize hheld : s.brains b = held at hb
      cases hb with
      | @stored _ fixture _ _ db hrows =>
          rw [fixture_id_of_run hr hheld] at hrows
          obtain ⟨hfits, hpredictions, -⟩ := writeRows_ok hrows
          refine ⟨⟨values, hfits⟩, ?_, rfl⟩
          show db.predictionRows[(m, ENGINE_VERSION)]? = _
          rw [hpredictions, getElem?_put, if_pos rfl]

/-- There is no row before a job stores one. -/
theorem prediction_none (hr : (pipeline W B A).Run h s) :
    (∀ x ∈ h, ¬ StoresMatch m x) → s.prediction m = none := by
  refine hr.invariant (P := fun h s => (∀ x ∈ h, ¬ StoresMatch m x) →
    s.prediction m = none) ?_ ?_
  · intro s hs _
    unfold World.prediction
    rw [hs.predictions]
    rfl
  · intro h s e t hr hinv hstep hnone
    rw [prediction_step hr hstep (hnone e (by simp))]
    exact hinv fun x hx => hnone x (List.mem_append_left _ hx)

/-- The row of a match is the one its last job stored. -/
theorem prediction_of_run (hr : (pipeline W B A).Run h s) :
    (∃ x ∈ h, StoresMatch m x) → Since (StoresMatch m) (fun x _ => ∃ b row preview,
      x = .brain b (.stored m row.val preview) ∧ s.prediction m = some row) h := by
  refine hr.invariant (P := fun h s => (∃ x ∈ h, StoresMatch m x) → Since (StoresMatch m)
    (fun x _ => ∃ b row preview,
      x = .brain b (.stored m row.val preview) ∧ s.prediction m = some row) h) ?_ ?_
  · rintro s _ ⟨x, hx, -⟩
    cases hx
  · rintro h s e t hr hinv hstep ⟨x, hmem, hx⟩
    by_cases he : StoresMatch m e
    · obtain ⟨b, values, preview, rfl⟩ := he
      obtain ⟨row, hrow, rfl⟩ := stored_step hr hstep
      exact Since.here ⟨b, row.val, preview, rfl⟩ ⟨b, row, preview, rfl, hrow⟩
    · have hold : ∃ x ∈ h, StoresMatch m x := by
        rcases List.mem_append.mp hmem with hmem | hmem
        · exact ⟨x, hmem, hx⟩
        · rw [List.mem_singleton.mp hmem] at hx
          exact absurd hx he
      refine (hinv hold).append he ?_
      rintro x post ⟨b, row, preview, rfl, hrow⟩
      exact ⟨b, row, preview, rfl, (prediction_step hr hstep he).trans hrow⟩

/-! ## A match that is in the table -/

theorem WorldStep.kept (hstep : WorldStep s e t) (hm : m ∈ s.shared.pg.db.matchRows) :
    m ∈ t.shared.pg.db.matchRows := by
  cases hstep with
  | worker hw => exact hw.frame.2.2.2 m hm
  | brain hb =>
      show m ∈ _
      rw [hb.frame.1]
      exact hm
  | request hq =>
      show m ∈ _
      rw [hq.frame.1]
      exact hm
  | env he => exact he.frame.2.2.2.2.2 m hm

/-- A job reads what is in the table. -/
theorem absent_step {db : Db} (hstep : WorldStep s (.brain b (.absent m db)) t) :
    m ∉ s.shared.pg.db.matchRows := by
  cases hstep with
  | brain hb =>
      generalize s.brains b = held at hb
      cases hb with
      | absent hfetch =>
          rw [← fetchMatchViaId_isSome, hfetch]
          exact Bool.false_ne_true

theorem matched_step {db : Db} {fixture : Match}
    (hstep : WorldStep s (.brain b (.matched m db fixture)) t) : s.shared.pg.db = db := by
  cases hstep with
  | brain hb =>
      generalize s.brains b = held at hb
      cases hb with
      | matched => rfl

theorem trained_step {db : Db} {fixture : Match} {now : Instant}
    (hstep : WorldStep s (.brain b (.trained m db fixture now)) t) : s.shared.pg.db = db := by
  cases hstep with
  | brain hb =>
      generalize s.brains b = held at hb
      cases hb with
      | trained => rfl

/-- No job misses a match that is there. -/
theorem present_of_steps {k : List (Event W B A)} (hm : m ∈ s.shared.pg.db.matchRows)
    (hk : (pipeline W B A).Steps s k t) :
    m ∈ t.shared.pg.db.matchRows ∧ ∀ b db, Event.brain b (.absent m db) ∉ k := by
  refine hk.invariant (P := fun k t => m ∈ t.shared.pg.db.matchRows ∧
    ∀ b db, Event.brain b (.absent m db) ∉ k) ⟨hm, fun _ _ => List.not_mem_nil⟩ ?_
  rintro k t e t' - ⟨hmem, hnever⟩ hstep
  refine ⟨hstep.kept hmem, ?_⟩
  intro b db hx
  rcases List.mem_append.mp hx with hx | hx
  · exact hnever b db hx
  · obtain rfl := List.mem_singleton.mp hx
    exact absent_step hstep hmem

/-- What is committed as a change is in the table. -/
theorem changed_step {w : W} {eventId : ℤ}
    (hstep : WorldStep s (.worker w (.changed eventId m)) t) :
    m ∈ t.shared.pg.db.matchRows := by
  cases hstep with
  | worker hw =>
      generalize s.workers w = held at hw
      cases hw with
      | @changed _ _ payload todo db hsync =>
          obtain ⟨_, -, ⟨-, hrow, hrows, -⟩ | ⟨-, hrow, -⟩⟩ := (Worker.syncMatch_ok hsync).match_
          · obtain rfl := Option.some.inj hrow
            show _ ∈ db.matchRows
            rw [hrows]
            exact mem_put.mpr (Or.inl rfl)
          · cases hrow

/-! ## At rest -/

/-- At rest, an accepted message has been delivered, and its last delivery ended
in a stored prediction. -/
theorem stored_of_accepted (hr : (pipeline W B A).Run (pre ++ post) s)
    (hrest : Quiescent s) (haccepted : AcceptedIn m post)
    (hfine : ∀ x ∈ post, x.jobFailed = false)
    (hpresent : ∀ b db, Event.brain b (.absent m db) ∉ post) :
    ∃ p b q, post = p ++ .brain b (.delivered m) :: q ∧ StoredIn b m q := by
  have hinv := custodyInv_of_run hr
  obtain ⟨x, hx, hm⟩ := haccepted
  obtain ⟨k₁, k₂, rfl⟩ := List.append_of_mem hx
  have hdelivered : ∃ y ∈ k₂, Delivers m y := by
    rcases hinv.accepted (pre ++ k₁) x k₂ (by simp) m hm with hqueued | hdelivered
    · rw [hrest.queue] at hqueued
      cases hqueued
    · exact hdelivered
  obtain ⟨p, _, q, rfl, ⟨b, rfl⟩, hlast, -⟩ := Since.of_mem hdelivered
  refine ⟨k₁ ++ x :: p, b, q, by simp, ?_⟩
  rcases hinv.delivered (pre ++ k₁ ++ x :: p) _ q (by simp) b m rfl with
    ⟨hheld, -⟩ | (hqueued | ⟨y, hy, hagain⟩) | (hstored | ⟨db, -, habsent⟩ | hraised) |
      hcancelled
  · rw [hrest.brains b] at hheld
    cases hheld
  · rw [hrest.queue] at hqueued
    cases hqueued
  · exact absurd hagain (hlast y hy)
  · exact hstored
  · exact absurd (by simp [habsent]) (hpresent b db)
  · have hnever := hfine (.brain b (.raised m)) (by simp [show _ ∈ q from hraised])
    cases hnever
  · have hnever := hfine (.brain b (.cancelled m)) (by simp [hcancelled])
    cases hnever

/-- The last job that stored the match was delivered no earlier, if there is one
consumer. -/
theorem computed_after_delivery [Subsingleton B] {q : List (Event W B A)}
    (hr : (pipeline W B A).Run (pre ++ .brain b (.delivered m) :: q) s)
    (hstored : StoredIn b m q) :
    ∃ fixture row preview q₀ q₁ q₂, s.prediction m = some row ∧
      q = q₀ ++ q₁ ++ q₂ ∧ ComputedIn b m fixture row.val preview q₁ := by
  obtain ⟨x, hx, hstores⟩ : ∃ x ∈ q, StoresMatch m x := by
    obtain ⟨db₀, db, fixture, now, preview, -, hsub⟩ := hstored
    exact ⟨.brain b (.stored m (engineRow ℝ (trainingSet db fixture) now fixture) preview),
      hsub.subset (by simp), b, _, preview, rfl⟩
  have hlast := prediction_of_run hr (m := m) ⟨x, by simp [hx], hstores⟩
  have hsplit : pre ++ Event.brain b (.delivered m) :: q =
      (pre ++ [.brain b (.delivered m)]) ++ q := by simp
  rw [hsplit] at hlast
  obtain ⟨q₁, _, q₂, rfl, -, -, b', row, preview, rfl, hrow⟩ := hlast.suffix hx hstores
  obtain rfl := Subsingleton.elim b b'
  obtain ⟨fixture, hcomputed⟩ := computedTogether_of_run hr
    (pre ++ .brain b (.delivered m) :: q₁) _ q₂ (by simp) b m row.val preview rfl
  obtain ⟨r₀, y, r₁, heq, -, -, -, hjob⟩ :=
    hcomputed.suffix List.mem_cons_self ⟨m, rfl⟩
  cases r₀ with
  | nil =>
      obtain ⟨-, rfl⟩ := List.cons.inj heq
      exact ⟨fixture, row, preview, [], q₁, _, hrow, rfl, hjob⟩
  | cons _ r₀ =>
      obtain ⟨-, rfl⟩ := List.cons.inj heq
      exact ⟨fixture, row, preview, r₀ ++ [y], r₁, .brain b (.stored m row.val preview) :: q₂,
        hrow, by simp, hjob⟩

/-- On the way `k` from `s` to `t` a job read the match and then its history, and
`row` is the engine's output on the two. -/
def ComputedOn (m : ℤ) (row : PredictionRow) (s : World W B A) (k : List (Event W B A))
    (t : World W B A) : Prop :=
  ∃ k₀ k₁ k₂ s₀ s₁ fixture now, k = k₀ ++ k₁ ++ k₂ ∧ (pipeline W B A).Steps s k₀ s₀ ∧
    (pipeline W B A).Steps s₀ k₁ s₁ ∧ (pipeline W B A).Steps s₁ k₂ t ∧
    fetchMatchViaId s₀.shared.pg.db m = some fixture ∧
    row.val = engineRow ℝ (trainingSet s₁.shared.pg.db fixture) now fixture

/-- What a job read, it read at two moments of the run. -/
theorem ComputedIn.computedOn {fixture : Match} {row : PredictionRow}
    {preview : Option Commentary} {q₀ q₁ q₂ : List (Event W B A)}
    (hcomputed : ComputedIn b m fixture row.val preview q₁)
    (hk : (pipeline W B A).Steps s (q₀ ++ q₁ ++ q₂) t) :
    ComputedOn m row s (q₀ ++ q₁ ++ q₂) t := by
  obtain ⟨db, now, gateway, ⟨db₀, hfetch, hsub⟩, hvalues, -⟩ := hcomputed
  obtain ⟨r₁, r₂, rfl, hmatched, hrest⟩ := List.cons_sublist_iff.mp hsub
  obtain ⟨a, c, rfl⟩ := List.append_of_mem hmatched
  obtain ⟨d, e, rfl⟩ := List.append_of_mem (List.singleton_sublist.mp hrest)
  have hwhole : q₀ ++ (a ++ .brain b (.matched m db₀ fixture) :: c ++
      (d ++ .brain b (.trained m db fixture now) :: e)) ++ q₂ =
      (q₀ ++ a ++ .brain b (.matched m db₀ fixture) :: (c ++ d)) ++
        .brain b (.trained m db fixture now) :: (e ++ q₂) := by simp
  rw [hwhole] at hk ⊢
  obtain ⟨s₁, t₁, hbefore, htrain, hafter⟩ := hk.moment
  obtain ⟨s₀, t₀, hfirst, hmatch, hbetween⟩ := hbefore.moment
  refine ⟨q₀ ++ a, .brain b (.matched m db₀ fixture) :: (c ++ d),
    .brain b (.trained m db fixture now) :: (e ++ q₂), s₀, s₁, fixture, now, by simp, hfirst,
    (System.Steps.single hmatch).trans hbetween, (System.Steps.single htrain).trans hafter,
    ?_, ?_⟩
  · rw [matched_step hmatch]
    exact hfetch
  · rw [trained_step htrain]
    exact hvalues

/-- Every row was computed by a job of the run. -/
theorem computedOn_of_prediction {row : PredictionRow} (hs : Initial s)
    (hk : (pipeline W B A).Steps s h t) (hrow : t.prediction m = some row) :
    ComputedOn m row s h t := by
  have hr : (pipeline W B A).Run h t := .of_steps hs hk
  have hsome : ∃ x ∈ h, StoresMatch m x := by
    by_contra hnone
    rw [prediction_none hr fun x hx hstores => hnone ⟨x, hx, hstores⟩] at hrow
    cases hrow
  obtain ⟨pre, _, post, rfl, -, -, b, row', preview, rfl, hrow'⟩ := prediction_of_run hr hsome
  obtain rfl := Option.some.inj (hrow'.symm.trans hrow)
  obtain ⟨fixture, p, x, q, rfl, -, -, -, hjob⟩ :=
    computedTogether_of_run hr pre _ post rfl b m row'.val preview rfl
  have hsplit : p ++ x :: q ++ .brain b (.stored m row'.val preview) :: post =
      (p ++ [x]) ++ q ++ .brain b (.stored m row'.val preview) :: post := by simp
  rw [hsplit] at hk ⊢
  exact hjob.computedOn hk

/-- The row at rest was computed after any change of its match. -/
theorem computedOn_of_change [Subsingleton B] {s' : World W B A} {k : List (Event W B A)}
    {w : W} {eventId : ℤ} (hr : (pipeline W B A).Run h s)
    (hchange : WorldStep s (.worker w (.changed eventId m)) s')
    (hk : (pipeline W B A).Steps s' k t) (hfine : ∀ x ∈ k, x.jobFailed = false)
    (hrest : Quiescent t) : ∃ row, t.prediction m = some row ∧ ComputedOn m row s' k t := by
  have hrun : (pipeline W B A).Run ((h ++ [.worker w (.changed eventId m)]) ++ k) t :=
    (hr.next hchange).append hk
  have haccepted : AcceptedIn m k := by
    rcases (outboxInv_of_run hrun).changes h (.worker w (.changed eventId m)) k (by simp)
      (eventId, m) rfl with hrow | haccepted
    · rw [hrest.outbox] at hrow
      simp at hrow
    · exact haccepted
  obtain ⟨-, hpresent⟩ := present_of_steps (changed_step hchange) hk
  obtain ⟨p, b, q, rfl, hstored⟩ := stored_of_accepted hrun hrest haccepted hfine hpresent
  rw [← List.append_assoc] at hrun
  obtain ⟨fixture, row, preview, q₀, q₁, q₂, hrow, rfl, hcomputed⟩ :=
    computed_after_delivery hrun hstored
  have hsplit : p ++ .brain b (.delivered m) :: (q₀ ++ q₁ ++ q₂) =
      (p ++ .brain b (.delivered m) :: q₀) ++ q₁ ++ q₂ := by simp
  rw [hsplit] at hk ⊢
  exact ⟨row, hrow, hcomputed.computedOn hk⟩

/-- **What a prediction follows.** In every reachable state a stored row is the
engine's output on the training set of the match table as it stood at some
moment of the run. At rest, with one consumer and no job having failed since,
that moment comes after every committed change of the match itself. -/
theorem predictions_follow_changes (hs : Initial s) :
    (∀ h t, (pipeline W B A).Steps s h t → ∀ m row, t.prediction m = some row →
      ComputedOn m row s h t) ∧
      (Subsingleton B → ∀ h s₁ w eventId m s₂ k t, (pipeline W B A).Steps s h s₁ →
        WorldStep s₁ (.worker w (.changed eventId m)) s₂ → (pipeline W B A).Steps s₂ k t →
        (∀ x ∈ k, x.jobFailed = false) → Quiescent t →
        ∃ row, t.prediction m = some row ∧ ComputedOn m row s₂ k t) := by
  constructor
  · intro h t hk m row hrow
    exact computedOn_of_prediction hs hk hrow
  · intro hone h s₁ w eventId m s₂ k t hh hchange hk hfine hrest
    exact computedOn_of_change (.of_steps hs hh) hchange hk hfine hrest

end

/-! ### The first change is followed -/

theorem quiescent_atRest {sh : Shared} (houtbox : sh.pg.db.rabbitEventRows = ∅)
    (hqueue : sh.queue = []) : Quiescent (World.atRest sh : World W B A) :=
  ⟨houtbox, hqueue, fun _ => rfl, fun _ => rfl⟩

theorem jobFailed_of_failed {e : Event W B A} (he : e.failed = false) : e.jobFailed = false := by
  by_contra hjob
  rcases e with _ | ⟨b, e⟩ | _ | _
  · exact hjob rfl
  · cases e with
    | raised | cancelled => cases he
    | delivered | absent | matched | trained | previewed | stored | warmed | warmFailed
    | settled | crashed => exact hjob rfl
  · exact hjob rfl
  · exact hjob rfl

theorem deleteRabbitEvent_newLeague :
    Worker.deleteRabbitEvent newLeague [1] = firstFixture.db := by
  refine Db.ext ?_ ?_ ?_ ?_ ?_ ?_ ?_ <;> decide +kernel

/-- The stores once the first fixture's event is published. -/
def published : Shared := ⟨⟨firstFixture.db, 2⟩, [1], ∅⟩

/-- The rest of the run that brought the first fixture. -/
def publishing : List WorkerEvent := [.outboxRead, .accepted 1, .confirmed 1, .deleted [1]]

/-- The run commits the first change. -/
theorem firstChange_commits :
    (pipeline Unit Unit Unit).Steps (.atRest ⟨Worker.freshLeague, [], ∅⟩)
      ([.competitionsSynced, .fetched [Worker.fixturePayload 1 "SCHEDULED"], .reserved 1].map
        (.worker ()))
      ((World.atRest published).setWorker () (⟨⟨Worker.freshLeague.db, 2⟩, [], ∅⟩,
        .reserved 1 (Worker.fixturePayload 1 "SCHEDULED") [])) ∧
    WorldStep ((World.atRest published).setWorker () (⟨⟨Worker.freshLeague.db, 2⟩, [], ∅⟩,
        .reserved 1 (Worker.fixturePayload 1 "SCHEDULED") []))
      (.worker () (.changed 1 1))
      ((World.atRest published : World Unit Unit Unit).setWorker ()
        (⟨⟨newLeague, 2⟩, [], ∅⟩, .syncing [])) :=
  ⟨steps_of_ingester firstChange_reserved,
    World.step_setWorker _ () (.changed firstChange_committed)⟩

theorem publishing_steps : ingester.Steps (⟨⟨newLeague, 2⟩, [], ∅⟩, .syncing []) publishing
    (published, .idle) := by
  have hevents : Worker.fetchRabbitEvents newLeague = [(1, 1)] := by
    decide +kernel
  have hstart : ingester.Steps (⟨⟨newLeague, 2⟩, [], ∅⟩, .syncing []) []
      (⟨⟨newLeague, 2⟩, [], ∅⟩, .syncing []) := .refl _
  have hread := ingester_next hstart (.outboxRead (by simp [hevents]))
  simp only [hevents] at hread
  have haccepted := ingester_next hread .accepted
  have hconfirmed := ingester_next haccepted .confirmed
  have hdeleted := ingester_next hconfirmed .deleted
  rw [published, ← deleteRabbitEvent_newLeague]
  exact hdeleted

/-- The job that follows finds no history. -/
theorem firstJob_steps : ∃ db, writeRows firstFixture.db 1 (engineRow ℝ [] 0 newFixture) none =
      .ok db ∧
    consumer.Steps (published, .waiting)
      (smoothJob firstFixture.db 1 newFixture 0 (engineRow ℝ [] 0 newFixture) none)
      (⟨⟨db, 2⟩, [], ∅⟩, .waiting) :=
  fixtureJob_steps published plainText.silent.gateway rfl
    fetch_firstFixture trainingSet_firstFixture (engineRow_nil_fits 0 newFixture) rfl rfl

/-- From the commit of the first change to rest. -/
theorem firstChange_to_rest : ∃ db, writeRows firstFixture.db 1 (engineRow ℝ [] 0 newFixture)
      none = .ok db ∧
    (pipeline Unit Unit Unit).Steps
      ((World.atRest published).setWorker () (⟨⟨newLeague, 2⟩, [], ∅⟩, .syncing []))
      (publishing.map (.worker ()) ++
        (smoothJob firstFixture.db 1 newFixture 0 (engineRow ℝ [] 0 newFixture) none).map
          (.brain ()))
      (.atRest ⟨⟨db, 2⟩, [], ∅⟩) := by
  obtain ⟨db, hrows, hjob⟩ := firstJob_steps
  refine ⟨db, hrows, ?_⟩
  have hpublish := steps_of_ingester
    (s := (World.atRest published : World Unit Unit Unit).setWorker ()
      (⟨⟨newLeague, 2⟩, [], ∅⟩, .syncing [])) (w := ()) publishing_steps
  have hrest : ((World.atRest published : World Unit Unit Unit).setWorker ()
      (⟨⟨newLeague, 2⟩, [], ∅⟩, .syncing [])).setWorker () (published, .idle) =
      .atRest published := by
    simp [World.setWorker, World.atRest]
  rw [hrest] at hpublish
  exact hpublish.trans (atRest_consumer () hjob)

theorem atRest_outbox {db : Db} {values : PredictionValues} {preview : Option Commentary}
    (hrows : writeRows firstFixture.db 1 values preview = .ok db) : db.rabbitEventRows = ∅ := by
  obtain ⟨-, -, -, -, -, -, hevents, -⟩ := writeRows_ok hrows
  rw [hevents]
  decide +kernel

theorem noFailure_toRest : NoFailure (publishing.map (Event.worker ()) ++
    (smoothJob firstFixture.db 1 newFixture 0 (engineRow ℝ [] 0 newFixture) none).map
      (Event.brain () : _ → Event Unit Unit Unit)) := by
  refine NoFailure.append ?_ (noFailure_smoothJob _ _ _ _ _ _ _)
  simp [NoFailure, publishing, Event.failed]

/-- The first change of a fresh league reaches its row. -/
theorem first_change_is_followed : ∃ (s t : World Unit Unit Unit)
    (k : List (Event Unit Unit Unit)) (row : PredictionRow),
    (pipeline Unit Unit Unit).Steps s k t ∧ t.prediction 1 = some row ∧
      ComputedOn 1 row s k t := by
  obtain ⟨db, hrows, hk⟩ := firstChange_to_rest
  obtain ⟨hreserved, hchange⟩ := firstChange_commits
  have hrest : Quiescent (World.atRest ⟨⟨db, 2⟩, [], ∅⟩ : World Unit Unit Unit) :=
    quiescent_atRest (atRest_outbox hrows) rfl
  obtain ⟨row, hrow, hcomputed⟩ :=
    (predictions_follow_changes initial_freshLeague).2 inferInstance _ _ () 1 1 _ _ _ hreserved
      hchange hk (fun x hx => jobFailed_of_failed (noFailure_toRest x hx)) hrest
  exact ⟨_, _, _, row, hk, hrow, hcomputed⟩

/-! ### A result that moves no other row -/

/-- A job for `m` has read the result `r`. -/
def ReadIn (m : ℤ) (r : Elo.MatchResult) (h : List (Event W B A)) : Prop :=
  ∃ b db fixture now, Event.brain b (.trained m db fixture now) ∈ h ∧ r ∈ trainingSet db fixture

/-- The league, its first fixture predicted, once a backfill has brought another
result. -/
theorem backfilled_rest : ∃ (h : List (Event Unit Unit Unit)) (s : World Unit Unit Unit)
    (row : PredictionRow), (pipeline Unit Unit Unit).Run h s ∧ NoFailure h ∧ Quiescent s ∧
      fetchMatchViaId s.shared.pg.db 1 = some newFixture ∧
      trainingSet s.shared.pg.db newFixture = [otherWon] ∧ s.prediction 1 = some row ∧
      row.val = engineRow ℝ [] 0 newFixture ∧ ∀ r, ¬ ReadIn 1 r h := by
  obtain ⟨db, hrows, hk⟩ := firstChange_to_rest
  obtain ⟨hreserved, hchange⟩ := firstChange_commits
  have hview : Worker.workerView db = firstFixture.db :=
    (writeRows_view hrows).trans workerView_firstFixture
  obtain ⟨pg, n, hfill, hfetch, hhistory, hframe⟩ := backfill_otherResult ⟨db, 2⟩ hview
  have hsteps := ((hreserved.next hchange).trans hk).trans (atRest_env (.backfill hfill))
  obtain ⟨hfits, hpredictions, -⟩ := writeRows_ok hrows
  refine ⟨_, _, ⟨engineRow ℝ [] 0 newFixture, hfits⟩, .of_steps initial_freshLeague hsteps,
    ?_, ?_, hfetch, hhistory, ?_, rfl, ?_⟩
  · refine NoFailure.append (NoFailure.append ?_ noFailure_toRest) ?_
    · simp [NoFailure, Event.failed]
    · simp [NoFailure, Event.failed]
  · exact quiescent_atRest (hframe.events.trans (atRest_outbox hrows)) rfl
  · show pg.db.predictionRows[((1 : ℤ), ENGINE_VERSION)]? = _
    rw [hframe.predictions, hpredictions, getElem?_put, if_pos rfl]
  · rintro r ⟨b, db', fixture, now, hmem, hr⟩
    obtain ⟨rfl, rfl⟩ : db' = firstFixture.db ∧ fixture = newFixture := by
      simp [publishing, smoothJob] at hmem
      exact ⟨hmem.1, hmem.2.1⟩
    rw [trainingSet_firstFixture] at hr
    cases hr

/-- A result arrives, and a fixture of the same league keeps a row computed
without it. -/
theorem result_moves_no_other_row :
    ¬ ∀ (h : List (Event Unit Unit Unit)) (s : World Unit Unit Unit),
      (pipeline Unit Unit Unit).Run h s → NoFailure h → Quiescent s →
      ∀ m fixture row, fetchMatchViaId s.shared.pg.db m = some fixture →
      fixture.status = "SCHEDULED" → s.prediction m = some row →
      ∃ history now, history.Nodup ∧
        (∀ r ∈ trainingSet s.shared.pg.db fixture, r ∈ history) ∧
        (∀ r ∈ history, r ∈ trainingSet s.shared.pg.db fixture ∨ ReadIn m r h) ∧
        row.val = engineRow ℝ history now fixture := by
  intro hfollows
  obtain ⟨h, s, row, hrun, hfine, hrest, hfetch, hset, hrow, hvalues, hread⟩ := backfilled_rest
  obtain ⟨history, now, hnodup, hcontains, honly, hnow⟩ :=
    hfollows h s hrun hfine hrest 1 newFixture row hfetch rfl hrow
  rw [hset] at hcontains honly
  have hhistory : history = [otherWon] := by
    apply List.perm_singleton.mp
    apply (List.perm_ext_iff_of_nodup hnodup (List.nodup_singleton otherWon)).mpr
    intro r
    constructor
    · intro hr
      rcases honly r hr with hr | hr
      · exact hr
      · exact absurd hr (hread r)
    · exact hcontains r
  rw [hhistory, hvalues] at hnow
  exact oneNil_otherWon.probDraw_ne 0 now newFixture newFixture
    (congrArg PredictionValues.probDraw hnow)

end AGame.Pipeline
