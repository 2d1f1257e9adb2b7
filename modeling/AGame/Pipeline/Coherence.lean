import AGame.Pipeline.CachedText

/-!
# When the cache agrees with Postgres

Neither the brain's warm-up nor the API's backfill looks at what it overwrites.
A set that was *overtaken* (while its text was under way, a job for the match
both committed and cached a newer one) puts an old text back, and nothing
corrects it until the entry expires. In a run without such a set, the cache
agrees with Postgres whenever no job stands between its commit and its set.
-/

namespace AGame.Pipeline

open Base Engine Brain

variable {W B A : Type}

/-! ## Sets that come in time -/

def StepsBy (b : B) (e : Event W B A) : Prop := ∃ e', e = .brain b e'

def StoresBy (b : B) (e : Event W B A) : Prop :=
  ∃ m values preview, e = .brain b (.stored m values preview)

/-- The last thing `b` did was to commit a preview of `m`. -/
def OwedBy (b : B) (m : ℤ) (h : List (Event W B A)) : Prop :=
  Since (StepsBy b) (fun e _ => ∃ values c, e = .brain b (.stored m values (some c))) h

/-- Redis refuses the text, or the consumer ends. -/
def SkipsWarmUp (b : B) (m : ℤ) (e : Event W B A) : Prop :=
  e = .brain b (.warmFailed m) ∨ e = .brain b (.crashed m) ∨ e = .brain b (.cancelled m)

/-- No consumer skips the set of a preview of `m` that it has just committed. -/
def Warms (m : ℤ) (e : Event W B A) (pre : List (Event W B A)) : Prop :=
  ∀ b, SkipsWarmUp b m e → ¬ OwedBy b m pre

/-- Every preview of `m` that is committed is cached in the end. -/
def AllWarmed (m : ℤ) (h : List (Event W B A)) : Prop := BeforeEach (Warms m) h

def ReadsBy (r : A) (e : Event W B A) : Prop := ∃ m text, e = .request r (.read m text)

/-- A job for `m` committed a preview and cached it. -/
def Passed (m : ℤ) (post : List (Event W B A)) : Prop :=
  ∃ b values c text, List.Sublist
    [.brain b (.stored m values (some c)), .brain b (.warmed m text)] post

/-- Nobody passed a set of the entry for `m` while its text was under way. -/
def InTime (m : ℤ) (e : Event W B A) (pre : List (Event W B A)) : Prop :=
  (∀ r text, e = .request r (.backfilled m text) →
    Since (ReadsBy r) (fun _ post => ¬ Passed m post) pre) ∧
  ∀ b text, e = .brain b (.warmed m text) →
    Since (StoresBy b) (fun _ post => ¬ Passed m post) pre

/-! ## What a step does to one match -/

section

variable [DecidableEq W] [DecidableEq B] [DecidableEq A]
variable {h : List (Event W B A)} {s t : World W B A} {e : Event W B A} {m : ℤ}

/-- Only the commit of a preview moves the committed text. -/
theorem committedText_step (hr : (pipeline W B A).Run h s) (hstep : WorldStep s e t)
    (hx : ¬ WritesProse m e) : t.committedText m = s.committedText m := by
  have hrows : t.shared.pg.db.commentaryRows[m]? = s.shared.pg.db.commentaryRows[m]? := by
    cases hstep with
    | worker hw => exact congrArg (·[m]?) hw.frame.2.2.1
    | @brain b e sh pc hb =>
        generalize hheld : s.brains b = held at hb
        cases hb with
        | @stored m' fixture values preview db hrows =>
            rw [fixture_id_of_run hr hheld] at hrows
            obtain ⟨-, -, -, -, -, -, -, hprose⟩ := writeRows_ok hrows
            show db.commentaryRows[m]? = _
            rcases hprose with ⟨-, hsame⟩ | ⟨c, row, rfl, -, hinsert⟩
            · rw [hsame]
            · have hne : m' ≠ m := by
                rintro rfl
                exact hx ⟨b, values, c, rfl⟩
              rw [hinsert, getElem?_put, if_neg hne]
        | delivered | absent | matched | trained | previewed | warmed | warmFailed | raised
        | settled | crashed | cancelled => rfl
    | request hq => exact congrArg (·.db.commentaryRows[m]?) hq.frame.1
    | env he => exact congrArg (·[m]?) he.frame.2.2.2.2.1
  unfold World.committedText Api.committedText
  rw [hrows]

/-- The commit of a preview: its text is the committed one, and the job is about
to cache it. -/
theorem writesProse_step (hr : (pipeline W B A).Run h s) {b : B} {values : PredictionValues}
    {c : Commentary} (hstep : WorldStep s (.brain b (.stored m values (some c))) t) :
    t.committedText m = some c.text ∧ t.brains b = .committed m c.text := by
  cases hstep with
  | @brain b _ sh pc hb =>
      generalize hheld : s.brains b = held at hb
      cases hb with
      | @stored _ fixture _ _ db hrows =>
          rw [fixture_id_of_run hr hheld] at hrows
          obtain ⟨-, -, -, -, -, -, -, hprose⟩ := writeRows_ok hrows
          obtain ⟨_, row, hsome, hholds, hinsert⟩ := hprose.resolve_left (by simp)
          obtain rfl := Option.some.inj hsome
          constructor
          · show Option.map _ db.commentaryRows[m]? = some c.text
            rw [hinsert, getElem?_put, if_pos rfl, Option.map_some, hholds.prediction]
          · show Function.update s.brains b _ b = _
            rw [Function.update_self]
            rfl

/-- A job between its commit and its cache set was there before, or has just
committed. -/
theorem committed_step (hstep : WorldStep s e t) {b : B} {text : String}
    (hpc : t.brains b = .committed m text) :
    (s.brains b = .committed m text ∧ ¬ StepsBy b e) ∨
      ∃ values c, e = .brain b (.stored m values (some c)) ∧ c.text = text := by
  cases hstep with
  | worker | request | env =>
      refine Or.inl ⟨hpc, ?_⟩
      rintro ⟨_, hstep⟩
      cases hstep
  | @brain b' e sh pc hb =>
      change Function.update s.brains b' pc b = _ at hpc
      by_cases heq : b = b'
      · subst heq
        rw [Function.update_self] at hpc
        generalize s.brains b = held at hb
        cases hb with
        | @stored m' fixture values preview db hrows =>
            cases preview with
            | none => cases hpc
            | some c =>
                obtain ⟨rfl, rfl⟩ := BrainPc.committed.inj hpc
                exact Or.inr ⟨values, c, rfl, rfl⟩
        | delivered | absent | matched | trained | previewed | warmed | warmFailed | raised
        | settled | crashed | cancelled => cases hpc
      · rw [Function.update_of_ne heq] at hpc
        refine Or.inl ⟨hpc, ?_⟩
        rintro ⟨_, hstep⟩
        exact heq (Event.brain.inj hstep).1.symm

/-- Such a job has done nothing since its commit. -/
theorem owed_of_run (hr : (pipeline W B A).Run h s) {b : B} {text : String}
    (hpc : s.brains b = .committed m text) : OwedBy b m h := by
  revert hpc
  refine hr.invariant (P := fun h s => s.brains b = .committed m text → OwedBy b m h) ?_ ?_
  · intro s hs hpc
    rw [hs.brains b] at hpc
    cases hpc
  · intro h s e t _ hinv hstep hpc
    rcases committed_step hstep hpc with ⟨hold, hx⟩ | ⟨values, c, rfl, -⟩
    · exact (hinv hold).append hx fun _ _ hstored => hstored
    · exact Since.here ⟨_, rfl⟩ ⟨values, c, rfl⟩

/-- Such a job caches its text next. -/
theorem committed_next (hr : (pipeline W B A).Run h s) (hstep : WorldStep s e t)
    (hwarm : Warms m e h) {b : B} {text : String} (hpc : s.brains b = .committed m text) :
    t.brains b = .committed m text ∨
      (e = .brain b (.warmed m text) ∧ t.shared.cache.get m = some text) := by
  cases hstep with
  | worker | request | env => exact Or.inl hpc
  | @brain b' e sh pc hb =>
      by_cases heq : b = b'
      · subst heq
        have howed := owed_of_run hr hpc
        rw [hpc] at hb
        cases hb with
        | warmed =>
            refine Or.inr ⟨rfl, ?_⟩
            show (s.shared.cache.set m text).get m = some text
            rw [Cache.get_set, if_pos rfl]
        | raised _ hraises => cases hraises
        | warmFailed => exact absurd howed (hwarm b (Or.inl rfl))
        | crashed hmessage =>
            obtain rfl := Option.some.inj hmessage
            exact absurd howed (hwarm b (Or.inr (Or.inl rfl)))
        | cancelled hmessage =>
            obtain rfl := Option.some.inj hmessage
            exact absurd howed (hwarm b (Or.inr (Or.inr rfl)))
      · left
        show Function.update s.brains b' pc b = _
        rw [Function.update_of_ne heq]
        exact hpc

/-- A request about to backfill was there before, or has just read. -/
theorem backfilling_step (hstep : WorldStep s e t) {r : A} {text : String}
    (hpc : t.requests r = .backfilling m text) :
    (s.requests r = .backfilling m text ∧ ¬ ReadsBy r e) ∨
      (e = .request r (.read m text) ∧ s.committedText m = some text) := by
  cases hstep with
  | worker | brain | env =>
      refine Or.inl ⟨hpc, ?_⟩
      rintro ⟨_, _, hread⟩
      cases hread
  | @request r' e sh pc hq =>
      change Function.update s.requests r' pc r = _ at hpc
      by_cases heq : r = r'
      · subst heq
        rw [Function.update_self] at hpc
        generalize s.requests r = held at hq
        cases hq with
        | read hread =>
            obtain ⟨rfl, rfl⟩ := RequestPc.backfilling.inj hpc
            exact Or.inr ⟨rfl, (Api.getPrediction_ok hread).2⟩
        | started | hit | missed | absent | backfilled | direct | answered | failed => cases hpc
      · rw [Function.update_of_ne heq] at hpc
        refine Or.inl ⟨hpc, ?_⟩
        rintro ⟨_, _, hread⟩
        exact heq (Event.request.inj hread).1.symm

/-- An entry stays, goes, or is set by a backfill or a warm-up. -/
theorem cache_step (hstep : WorldStep s e t) :
    t.shared.cache.get m = s.shared.cache.get m ∨ t.shared.cache.get m = none ∨
      (∃ r text, e = .request r (.backfilled m text) ∧ s.requests r = .backfilling m text ∧
        t.shared.cache.get m = some text) ∨
      ∃ b text, e = .brain b (.warmed m text) ∧ s.brains b = .committed m text ∧
        t.shared.cache.get m = some text := by
  cases hstep with
  | worker hw => exact Or.inl (congrArg (·.get m) hw.frame.1)
  | @brain b e sh pc hb =>
      generalize hheld : s.brains b = held at hb
      cases hb with
      | @warmed m' text =>
          rcases s.shared.cache.get_set_cases m' m text with ⟨rfl, hget⟩ | hget
          · exact Or.inr (Or.inr (Or.inr ⟨b, text, rfl, hheld, hget⟩))
          · exact Or.inl hget
      | delivered | absent | matched | trained | previewed | stored | warmFailed | raised
      | settled | crashed | cancelled => exact Or.inl rfl
  | @request r e sh pc hq =>
      generalize hheld : s.requests r = held at hq
      cases hq with
      | @backfilled m' text =>
          rcases s.shared.cache.get_set_cases m' m text with ⟨rfl, hget⟩ | hget
          · exact Or.inr (Or.inr (Or.inl ⟨r, text, rfl, hheld, hget⟩))
          · exact Or.inl hget
      | started | hit | missed | absent | read | direct | answered | failed => exact Or.inl rfl
  | env he =>
      cases he with
      | backfill => exact Or.inl rfl
      | expired m' =>
          have hget : (s.shared.cache.expire m').get m =
              if m' = m then none else s.shared.cache.get m := Cache.get_expire _ _ _
          by_cases heq : m' = m
          · rw [if_pos heq] at hget
            exact Or.inr (Or.inl hget)
          · rw [if_neg heq] at hget
            exact Or.inl hget

end

/-! ## The invariant -/

section

variable {h : List (Event W B A)} {s t : World W B A} {e : Event W B A} {m : ℤ}

/-- The latest preview is committed and its job is about to cache it. -/
def Pending (m : ℤ) (s : World W B A) : Prop :=
  ∃ b text, s.brains b = .committed m text ∧ s.committedText m = some text

/-- Nothing newer was committed since the text was obtained, so it is current. -/
def Current (m : ℤ) (text : String) (s : World W B A) (post : List (Event W B A)) : Prop :=
  (∀ x ∈ post, ¬ WritesProse m x) → s.committedText m = some text

structure CoherenceInv (m : ℤ) (h : List (Event W B A)) (s : World W B A) : Prop where
  /-- The last preview committed is the current one, and its job has cached it
  or is about to. -/
  latest : (∃ x ∈ h, WritesProse m x) → Since (WritesProse m) (fun x post => ∃ b values c,
    x = .brain b (.stored m values (some c)) ∧ s.committedText m = some c.text ∧
      (s.brains b = .committed m c.text ∨ .brain b (.warmed m c.text) ∈ post)) h
  readers : ∀ r text, s.requests r = .backfilling m text →
    Since (ReadsBy r) (fun _ post => Current m text s post) h
  writers : ∀ b text, s.brains b = .committed m text →
    Since (StoresBy b) (fun _ post => Current m text s post) h
  coherent : s.shared.cache.get m = none ∨ s.shared.cache.get m = s.committedText m ∨
    Pending m s

/-- A text that arrives in time is current, unless the job of the current one
is about to cache it. -/
theorem CoherenceInv.arrives (hinv : CoherenceInv m h s) {p : Event W B A → Prop}
    {text : String} (hcurrent : Since p (fun _ post => Current m text s post) h)
    (hintime : Since p (fun _ post => ¬ Passed m post) h) :
    s.committedText m = some text ∨ Pending m s := by
  obtain ⟨pre, x, post, rfl, -, -, hcurrent, hintime⟩ := hcurrent.and hintime
  by_cases hnewer : ∃ y ∈ post, WritesProse m y
  · right
    obtain ⟨y, hy, hwrites⟩ := hnewer
    have hlatest := hinv.latest ⟨y, by simp [hy], hwrites⟩
    have hsplit : pre ++ x :: post = (pre ++ [x]) ++ post := by simp
    rw [hsplit] at hlatest
    obtain ⟨pre', _, post', rfl, -, -, b, values, c, rfl, htext, hjob⟩ :=
      hlatest.suffix hy hwrites
    rcases hjob with hpending | hwarmed
    · exact ⟨b, c.text, hpending, htext⟩
    · -- committed and cached while the text was under way
      refine absurd ?_ hintime
      refine ⟨b, values, c, c.text, ?_⟩
      have hsub : List.Sublist [Event.brain b (.warmed m c.text)] post' :=
        List.singleton_sublist.mpr hwarmed
      exact (hsub.cons_cons _).trans (List.sublist_append_right _ _)
  · left
    refine hcurrent ?_
    intro y hy hwrites
    exact hnewer ⟨y, hy, hwrites⟩

/-- What is current stays so until something newer is committed. -/
theorem Current.append {text : String} {post : List (Event W B A)}
    (hc : Current m text s post)
    (hstep : ¬ WritesProse m e → t.committedText m = s.committedText m) :
    Current m text t (post ++ [e]) := by
  intro hnone
  rw [hstep (hnone e (by simp))]
  refine hc ?_
  intro x hx
  exact hnone x (by simp [hx])

theorem CoherenceInv.start (hs : Initial s) : CoherenceInv m [] s where
  latest := by
    rintro ⟨x, hx, -⟩
    cases hx
  readers := by
    intro r text hpc
    rw [hs.requests r] at hpc
    cases hpc
  writers := by
    intro b text hpc
    rw [hs.brains b] at hpc
    cases hpc
  coherent := by
    left
    rw [hs.cache]
    rfl

end

section

variable [DecidableEq W] [DecidableEq B] [DecidableEq A]
variable {h : List (Event W B A)} {s t : World W B A} {e : Event W B A} {m : ℤ}

theorem CoherenceInv.step (hr : (pipeline W B A).Run h s) (hinv : CoherenceInv m h s)
    (hstep : WorldStep s e t) (hwarm : Warms m e h) (hintime : InTime m e h) :
    CoherenceInv m (h ++ [e]) t := by
  have htext : ¬ WritesProse m e → t.committedText m = s.committedText m :=
    committedText_step hr hstep
  have hpending : Pending m s → ¬ WritesProse m e →
      t.shared.cache.get m = t.committedText m ∨ Pending m t := by
    rintro ⟨b, text, hpc, hcommitted⟩ hx
    rw [← htext hx] at hcommitted
    rcases committed_next hr hstep hwarm hpc with hstill | ⟨-, hget⟩
    · exact Or.inr ⟨b, text, hstill, hcommitted⟩
    · exact Or.inl (hget.trans hcommitted.symm)
  refine ⟨?_, ?_, ?_, ?_⟩
  · intro hsome
    by_cases hx : WritesProse m e
    · obtain ⟨b, values, c, rfl⟩ := hx
      obtain ⟨hcommitted, hpc⟩ := writesProse_step hr hstep
      exact Since.here ⟨b, values, c, rfl⟩ ⟨b, values, c, rfl, hcommitted, Or.inl hpc⟩
    · have hold : ∃ x ∈ h, WritesProse m x := by
        obtain ⟨x, hmem, hwrites⟩ := hsome
        rcases List.mem_append.mp hmem with hmem | hmem
        · exact ⟨x, hmem, hwrites⟩
        · rw [List.mem_singleton.mp hmem] at hwrites
          exact absurd hwrites hx
      refine (hinv.latest hold).append hx ?_
      rintro x post ⟨b, values, c, rfl, hcommitted, hjob⟩
      refine ⟨b, values, c, rfl, (htext hx).trans hcommitted, ?_⟩
      rcases hjob with hpc | hwarmed
      · rcases committed_next hr hstep hwarm hpc with hstill | ⟨rfl, -⟩
        · exact Or.inl hstill
        · exact Or.inr (by simp)
      · exact Or.inr (List.mem_append_left _ hwarmed)
  · intro r text hpc
    rcases backfilling_step hstep hpc with ⟨hold, hx⟩ | ⟨rfl, hread⟩
    · exact (hinv.readers r text hold).append hx fun _ _ hc => hc.append htext
    · refine Since.here ⟨m, text, rfl⟩ ?_
      intro _
      rw [htext (by rintro ⟨_, _, _, he⟩; cases he), hread]
  · intro b text hpc
    rcases committed_step hstep hpc with ⟨hold, hx⟩ | ⟨values, c, rfl, rfl⟩
    · refine (hinv.writers b text hold).append ?_ fun _ _ hc => hc.append htext
      rintro ⟨m', values, preview, rfl⟩
      exact hx ⟨_, rfl⟩
    · exact Since.here ⟨m, values, some c, rfl⟩ fun _ => (writesProse_step hr hstep).1
  · by_cases hx : WritesProse m e
    · obtain ⟨b, values, c, rfl⟩ := hx
      obtain ⟨hcommitted, hpc⟩ := writesProse_step hr hstep
      exact Or.inr (Or.inr ⟨b, c.text, hpc, hcommitted⟩)
    · -- the committed text stays; what matters is what happens to the entry
      rcases cache_step (m := m) hstep with hsame | hgone | ⟨r, text, rfl, hpc, hget⟩ |
          ⟨b, text, rfl, hpc, hget⟩
      · rcases hinv.coherent with hnone | hagrees | hpend
        · exact Or.inl (hsame.trans hnone)
        · exact Or.inr (Or.inl (hsame.trans (hagrees.trans (htext hx).symm)))
        · exact Or.inr (hpending hpend hx)
      · exact Or.inl hgone
      · rcases hinv.arrives (hinv.readers r text hpc) (hintime.1 r text rfl) with
          hcurrent | hpend
        · exact Or.inr (Or.inl (hget.trans (hcurrent.symm.trans (htext hx).symm)))
        · exact Or.inr (hpending hpend hx)
      · rcases hinv.arrives (hinv.writers b text hpc) (hintime.2 b text rfl) with
          hcurrent | hpend
        · exact Or.inr (Or.inl (hget.trans (hcurrent.symm.trans (htext hx).symm)))
        · exact Or.inr (hpending hpend hx)

theorem coherenceInv_of_run (hr : (pipeline W B A).Run h s) :
    AllWarmed m h → BeforeEach (InTime m) h → CoherenceInv m h s := by
  refine hr.invariant
    (P := fun h s => AllWarmed m h → BeforeEach (InTime m) h → CoherenceInv m h s)
    (fun _ hs _ _ => .start hs) ?_
  intro h s e t hr hinv hstep hwarm hintime
  obtain ⟨hwarmed, hwarms⟩ := beforeEach_snoc.mp hwarm
  obtain ⟨hbefore, hnow⟩ := beforeEach_snoc.mp hintime
  exact (hinv hwarmed hbefore).step hr hstep hwarms hnow

/-! ## A fresh request -/

/-- What a request for `m` has read or is about to answer is `current`. -/
def Served (m : ℤ) (current : Option String) : RequestPc → Prop
  | .backfilling m' text => m' = m → current = some text
  | .answering m' text => m' = m → text = current
  | .idle | .started _ | .missed _ => True

/-- A request that finds the cache in agreement with Postgres takes over what
both say. -/
theorem Served.step {sh sh' : Shared} {pc pc' : RequestPc} {x : RequestEvent}
    {current : Option String} (hserved : Served m current pc)
    (hcache : sh.cache.get m = none ∨ sh.cache.get m = current)
    (hcommitted : Api.committedText sh.pg.db m = current)
    (hstep : RequestStep sh pc x sh' pc') : Served m current pc' := by
  cases hstep with
  | hit hget =>
      rintro rfl
      rcases hcache with hnone | hagrees
      · rw [hnone] at hget
        cases hget
      · exact hget.symm.trans hagrees
  | absent hread =>
      rintro rfl
      exact (Api.getPrediction_ok hread).2.symm.trans hcommitted
  | read hread =>
      rintro rfl
      exact hcommitted.symm.trans (Api.getPrediction_ok hread).2
  | backfilled =>
      intro heq
      exact (hserved heq).symm
  | direct hread =>
      rintro rfl
      exact (Api.getPrediction_ok hread).2.symm.trans hcommitted
  | started | missed | answered | failed => trivial

/-- Between two commits for `m`: the committed text is `current`, no job is about
to cache, and the request is on its way to `current`. -/
structure Quiet (m : ℤ) (current : Option String) (r : A) (s : World W B A) : Prop where
  committed : s.committedText m = current
  brains : ∀ b text, s.brains b ≠ .committed m text
  served : Served m current (s.requests r)

omit [DecidableEq W] [DecidableEq B] [DecidableEq A] in
/-- Nobody is about to cache, so the cache agrees with Postgres. -/
theorem Quiet.cache {current : Option String} {r : A} (hquiet : Quiet m current r s)
    (hinv : CoherenceInv m h s) :
    s.shared.cache.get m = none ∨ s.shared.cache.get m = current := by
  rcases hinv.coherent with hgone | hagrees | ⟨b, text, hpc, -⟩
  · exact Or.inl hgone
  · exact Or.inr (hagrees.trans hquiet.committed)
  · exact absurd hpc (hquiet.brains b text)

/-- A step that commits no preview of `m` keeps the quiet. -/
theorem Quiet.step {current : Option String} {r : A} (hquiet : Quiet m current r s)
    (hr : (pipeline W B A).Run h s) (hinv : CoherenceInv m h s) (hstep : WorldStep s e t)
    (hnone : ¬ WritesProse m e) : Quiet m current r t where
  committed := (committedText_step hr hstep hnone).trans hquiet.committed
  brains := by
    intro b text hpc
    rcases committed_step hstep hpc with ⟨hold, -⟩ | ⟨values, c, rfl, -⟩
    · exact hquiet.brains b text hold
    · exact hnone ⟨b, values, c, rfl⟩
  served := by
    have hcache := hquiet.cache hinv
    cases hstep with
    | worker | brain | env => exact hquiet.served
    | @request r' x sh pc hq =>
        show Served m _ (Function.update s.requests r' pc r)
        by_cases heq : r = r'
        · subst heq
          rw [Function.update_self]
          exact hquiet.served.step hcache hquiet.committed hq
        · rw [Function.update_of_ne heq]
          exact hquiet.served

/-- The quiet lasts as long as no preview of `m` is committed. -/
theorem Quiet.steps {current : Option String} {r : A} (hquiet : Quiet m current r s)
    (hr : (pipeline W B A).Run h s) {k : List (Event W B A)} (hk : (pipeline W B A).Steps s k t)
    (hnone : ∀ x ∈ k, ¬ WritesProse m x) (hwarm : AllWarmed m (h ++ k))
    (hintime : BeforeEach (InTime m) (h ++ k)) : Quiet m current r t := by
  refine hk.invariant (P := fun k t => (∀ x ∈ k, ¬ WritesProse m x) → AllWarmed m (h ++ k) →
    BeforeEach (InTime m) (h ++ k) → Quiet m current r t) (fun _ _ _ => hquiet) ?_
    hnone hwarm hintime
  intro k t x t₂ hk hinv hstep hnone hwarm hintime
  rw [← List.append_assoc] at hwarm hintime
  obtain ⟨hwarmed, -⟩ := beforeEach_snoc.mp hwarm
  obtain ⟨hbefore, -⟩ := beforeEach_snoc.mp hintime
  have hold := hinv (fun y hy => hnone y (List.mem_append_left _ hy)) hwarmed hbefore
  have hrun : (pipeline W B A).Run (h ++ k) t := hr.append hk
  exact hold.step hrun (coherenceInv_of_run hrun hwarmed hbefore) hstep (hnone x (by simp))

/-- **Coherence.** In a run that caches every preview of `m` it commits, and none with
a set that was overtaken, take any state with no job for `m` between its commit and
its cache set. A request for `m` that starts then and ends before another preview of `m`
is committed answers with the text committed in Postgres, or 404 if there is
none. -/
theorem request_answers_committed_text (hr : (pipeline W B A).Run h s) {r : A}
    (hidle : s.requests r = .idle) (hquiet : ∀ b text, s.brains b ≠ .committed m text)
    {k : List (Event W B A)} (hk : (pipeline W B A).Steps s k t)
    (hnone : ∀ x ∈ k, ¬ WritesProse m x) (hwarm : AllWarmed m (h ++ k))
    (hintime : BeforeEach (InTime m) (h ++ k)) {text : Option String} {t' : World W B A}
    (hanswer : WorldStep t (.request r (.answered m text)) t') :
    text = s.committedText m := by
  have hstart : Quiet m (s.committedText m) r s := ⟨rfl, hquiet, by rw [hidle]; trivial⟩
  have hserved := (hstart.steps hr hk hnone hwarm hintime).served
  cases hanswer with
  | request hq =>
      generalize t.requests r = held at hq hserved
      cases hq with
      | answered => exact hserved rfl

end

/-! ### A preview that is served -/

/-- An event that sets nothing is in time. -/
theorem inTime_of_no_set {m : ℤ} {e : Event W B A}
    (hback : ∀ r text, e ≠ .request r (.backfilled m text))
    (hwarm : ∀ b text, e ≠ .brain b (.warmed m text)) (pre : List (Event W B A)) :
    InTime m e pre :=
  ⟨fun r text he => absurd he (hback r text), fun b text he => absurd he (hwarm b text)⟩

/-- A job that nothing disturbs is in time. -/
theorem inTime_smoothJob (b : B) (db : Db) (m : ℤ) (fixture : Match) (now : Instant)
    (values : PredictionValues) (c : Commentary) :
    BeforeEach (InTime m) ((smoothJob db m fixture now values (some c)).map
      (Event.brain b : _ → Event W B A)) := by
  let computed : List (Event W B A) := [.brain b (.delivered m), .brain b (.matched m db fixture),
    .brain b (.trained m db fixture now), .brain b (.previewed m)]
  show BeforeEach (InTime m) (((computed ++ [.brain b (.stored m values (some c))]) ++
    [.brain b (.warmed m c.text)]) ++ [.brain b (.settled m)])
  rw [beforeEach_snoc, beforeEach_snoc]
  refine ⟨⟨?_, ?_⟩, inTime_of_no_set nofun nofun _⟩
  · apply beforeEach_of_forall
    intro e he
    apply inTime_of_no_set
    · rintro r text rfl
      simp [computed] at he
    · rintro b' text rfl
      simp [computed] at he
  · refine ⟨nofun, ?_⟩
    rintro b' text he
    obtain ⟨rfl, -⟩ := Event.brain.inj he
    refine Since.here ⟨m, values, some c, rfl⟩ ?_
    rintro ⟨_, _, _, _, hsub⟩
    simp at hsub

/-- The first preview of the first fixture is what a request gets. -/
theorem first_preview_is_served : ∃ (h k : List (Event Unit Unit Unit))
    (s t t' : World Unit Unit Unit), (pipeline Unit Unit Unit).Run h s ∧
      (pipeline Unit Unit Unit).Steps s k t ∧
      WorldStep t (.request () (.answered 1 (some (letters 'a')))) t' ∧
      some (letters 'a') = s.committedText 1 := by
  obtain ⟨db, -, -, hjob⟩ := letterJob_steps (fixtureQueue [1]) (c := 'a')
    (by decide +kernel) rfl workerView_firstFixture
  have hrun : (pipeline Unit Unit Unit).Run _ _ :=
    System.Run.of_steps (initial_fixtureQueue [1]) (atRest_consumer () hjob)
  generalize hsh : ({ (fixtureQueue [1]).setDb db with
    queue := [], cache := (fixtureQueue [1]).cache.set 1 (letters 'a') } : Shared) = sh at hrun
  have hget : sh.cache.get 1 = some (letters 'a') := by
    rw [← hsh]
    show ((fixtureQueue [1]).cache.set 1 (letters 'a')).get 1 = _
    rw [Cache.get_set, if_pos rfl]
  have hstart : reader.Steps (sh, .idle) [] (sh, .idle) := .refl _
  have hhit := reader_next (reader_next hstart (.started 1)) (.hit hget)
  have hquick := steps_of_reader (s := (World.atRest sh : World Unit Unit Unit)) (r := ()) hhit
  have hanswer := (World.atRest sh : World Unit Unit Unit).step_setRequest ()
    (x := (sh, .answering 1 (some (letters 'a')))) (y := (sh, .idle)) .answered
  refine ⟨_, _, _, _, _, hrun, hquick, hanswer, ?_⟩
  have hwaiting : ∀ b text, (World.atRest sh : World Unit Unit Unit).brains b ≠
      .committed 1 text := by
    intro b text hpc
    cases hpc
  refine request_answers_committed_text hrun rfl hwaiting hquick ?_ ?_ ?_ hanswer
  · rintro x hx ⟨_, _, _, rfl⟩
    simp at hx
  · apply beforeEach_of_forall
    rintro x hx pre b (rfl | rfl | rfl)
    all_goals simp [smoothJob] at hx
  · simp only [List.nil_append, List.map_append, List.map_cons, List.map_nil,
      ← List.append_assoc]
    rw [beforeEach_snoc, beforeEach_snoc]
    refine ⟨⟨inTime_smoothJob _ _ _ _ _ _ _, inTime_of_no_set ?_ ?_ _⟩,
      inTime_of_no_set ?_ ?_ _⟩
    all_goals
      intro _ _ he
      cases he

/-! ### An overtaken backfill -/

/-- A request reads the first preview, a job commits and caches the second, and
the request puts the first one back. -/
theorem overtaken_backfill (sh : Shared) (hqueue : sh.queue = [1])
    (hview : Worker.workerView sh.pg.db = firstFixture.db)
    (htext : Api.committedText sh.pg.db 1 = some (letters 'a'))
    (hgone : sh.cache.get 1 = none) :
    ∃ (k : List (Event Unit Unit Bool)) (s : World Unit Unit Bool),
      (pipeline Unit Unit Bool).Steps (.atRest sh) k s ∧ NoFailure k ∧
      s.requests true = .idle ∧ s.brains () = .waiting ∧
      s.shared.cache.get 1 = some (letters 'a') ∧ s.committedText 1 = some (letters 'b') := by
  obtain ⟨db, -, hnewer, hjob⟩ := letterJob_steps sh (c := 'b') (by decide +kernel) hqueue hview
  have hidle : reader.Steps (sh, .idle) [] (sh, .idle) := .refl _
  have hmissed := reader_next (reader_next hidle (.started 1)) (.missed hgone)
  have hanswer : Api.getPrediction sh.pg.db 1 = .ok (some (letters 'a')) := by
    rw [Api.getPrediction_bigint sh.pg.db (by decide), htext]
  have hread := reader_next hmissed (.read hanswer)
  have hreads := steps_of_reader (s := (World.atRest sh : World Unit Unit Bool)) (r := false)
    hread
  have hjobs := hreads.trans (steps_of_consumer (b := ()) hjob)
  have hpending : reader.Steps
      ({ sh.setDb db with queue := [], cache := sh.cache.set 1 (letters 'b') },
        .backfilling 1 (letters 'a')) [] _ := .refl _
  have hback := reader_next hpending .backfilled
  have hall := hjobs.trans (steps_of_reader (r := false) hback)
  refine ⟨_, _, hall, ?_, rfl, rfl, ?_, hnewer⟩
  · refine NoFailure.append (NoFailure.append ?_ (noFailure_smoothJob _ _ _ _ _ _ _)) ?_
    · simp [NoFailure, Event.failed]
    · simp [NoFailure, Event.failed]
  · show ((sh.cache.set 1 (letters 'b')).set 1 (letters 'a')).get 1 = some (letters 'a')
    rw [Cache.get_set, if_pos rfl]

/-- A request that starts after all that answers with the first preview. -/
theorem stale_answer :
    ¬ ∀ (h k : List (Event Unit Unit Bool)) (s t t' : World Unit Unit Bool) (m : ℤ)
      (r : Bool) (text : Option String), (pipeline Unit Unit Bool).Run h s →
      s.requests r = .idle → (∀ b text, s.brains b ≠ .committed m text) →
      (pipeline Unit Unit Bool).Steps s k t → (∀ x ∈ k, ¬ WritesProse m x) →
      NoFailure (h ++ k) → WorldStep t (.request r (.answered m text)) t' →
      text = s.committedText m := by
  intro hcoherent
  obtain ⟨db, hview, htext, hjob⟩ := letterJob_steps (fixtureQueue [1, 1])
    (c := 'a') (by decide +kernel) rfl workerView_firstFixture
  have hfirst : (pipeline Unit Unit Bool).Steps _ _ _ := atRest_consumer () hjob
  have hexpired := hfirst.trans (atRest_env (.expired 1))
  have hgone : (((fixtureQueue [1, 1]).cache.set 1 (letters 'a')).expire 1).get 1 = none := by
    rw [Cache.get_expire, if_pos rfl]
  obtain ⟨k, s, hk, hfine, hidle, hwaiting, hget, hnewer⟩ := overtaken_backfill
    { (fixtureQueue [1, 1]).setDb db with
      queue := [1]
      cache := ((fixtureQueue [1, 1]).cache.set 1 (letters 'a')).expire 1 }
    rfl hview htext hgone
  have hrun := System.Run.of_steps (initial_fixtureQueue [1, 1]) (hexpired.trans hk)
  have hstart : reader.Steps (s.shared, .idle) [] (s.shared, .idle) := .refl _
  have hhit := reader_next (reader_next hstart (.started 1)) (.hit hget)
  rw [← hidle] at hhit
  have hquick := steps_of_reader hhit
  have hanswer := (s.step_setRequest true (x := (s.shared, .answering 1 (some (letters 'a'))))
    (y := (s.shared, .idle)) .answered)
  have hsame := hcoherent _ _ s _ _ 1 true (some (letters 'a')) hrun hidle ?_ hquick ?_ ?_
    hanswer
  · rw [hnewer] at hsame
    revert hsame
    decide +kernel
  · intro b text hpc
    rw [hwaiting] at hpc
    cases hpc
  · rintro x hx ⟨_, _, _, rfl⟩
    simp at hx
  · refine NoFailure.append (NoFailure.append (NoFailure.append
      (noFailure_smoothJob _ _ _ _ _ _ _) ?_) hfine) ?_
    · simp [NoFailure, Event.failed]
    · simp [NoFailure, Event.failed]

end AGame.Pipeline
