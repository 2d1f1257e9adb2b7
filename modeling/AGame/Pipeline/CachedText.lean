import AGame.Pipeline.Prose

/-!
# What the cache holds

Two services write the cache: a job after its commit, and a request after a
read of Postgres. Either way the text was committed for that match before; so
every entry is a text the commentary row of its match once held. A request that
ends in a hit or a 404 writes nothing.
-/

namespace AGame.Pipeline

open Base Engine Brain

variable {W B A : Type}

/-- The preview text Postgres holds for a match. -/
def World.committedText (s : World W B A) (m : ℤ) : Option String :=
  Api.committedText s.shared.pg.db m

section

variable [DecidableEq W] [DecidableEq B] [DecidableEq A]

/-- At some moment of the run Postgres held `text` for `m`. -/
def WasCommitted (h : List (Event W B A)) (s : World W B A) (m : ℤ) (text : String) : Prop :=
  ∃ h₁ h₂ s₁, h = h₁ ++ h₂ ∧ (pipeline W B A).Run h₁ s₁ ∧ (pipeline W B A).Steps s₁ h₂ s ∧
    s₁.committedText m = some text

theorem wasCommitted_now {h : List (Event W B A)} {s : World W B A} {m : ℤ} {text : String}
    (hr : (pipeline W B A).Run h s) (htext : s.committedText m = some text) :
    WasCommitted h s m text :=
  ⟨h, [], s, (List.append_nil h).symm, hr, .refl s, htext⟩

theorem WasCommitted.step {h : List (Event W B A)} {s t : World W B A} {e : Event W B A}
    {m : ℤ} {text : String} (hc : WasCommitted h s m text) (hstep : WorldStep s e t) :
    WasCommitted (h ++ [e]) t m text := by
  obtain ⟨h₁, h₂, s₁, rfl, hr, hsteps, htext⟩ := hc
  exact ⟨h₁, h₂ ++ [e], s₁, List.append_assoc _ _ _, hr, hsteps.next hstep, htext⟩

/-- Every text on its way to the cache, or in it, was committed for its match. -/
structure TextInv (h : List (Event W B A)) (s : World W B A) : Prop where
  cache : ∀ m text, s.shared.cache.get m = some text → WasCommitted h s m text
  brains : ∀ b m text, s.brains b = .committed m text → WasCommitted h s m text
  requests : ∀ r m text, s.requests r = .backfilling m text → WasCommitted h s m text

/-- A step of a consumer: what it caches it held, what it holds it has just
committed. -/
theorem TextInv.brain {h : List (Event W B A)} {s : World W B A} {b : B} {e : BrainEvent}
    {sh : Shared} {pc : BrainPc} (hinv : TextInv h s) (hr : (pipeline W B A).Run h s)
    (hstep : BrainStep s.shared (s.brains b) e sh pc) :
    TextInv (h ++ [.brain b e])
      { s with shared := sh, brains := Function.update s.brains b pc } := by
  have hworld : WorldStep s (.brain b e)
      { s with shared := sh, brains := Function.update s.brains b pc } := .brain hstep
  have hold : ∀ {m text}, WasCommitted h s m text → WasCommitted (h ++ [.brain b e])
      { s with shared := sh, brains := Function.update s.brains b pc } m text :=
    fun hc => hc.step hworld
  have hcache : ∀ m text, sh.cache.get m = some text → WasCommitted h s m text := by
    intro m text hget
    generalize hheld : s.brains b = held at hstep
    cases hstep with
    | @warmed m' text' =>
        rcases s.shared.cache.get_set_cases m' m text' with ⟨rfl, hset⟩ | hset
        · obtain rfl := Option.some.inj (hset.symm.trans hget)
          exact hinv.brains b m' text' hheld
        · exact hinv.cache m text (hset.symm.trans hget)
    | delivered | absent | matched | trained | previewed | stored | warmFailed | raised | settled
    | crashed | cancelled => exact hinv.cache m text hget
  refine ⟨fun m text hget => hold (hcache m text hget), ?_,
    fun r m text hpc => hold (hinv.requests r m text hpc)⟩
  intro b' m text hpc
  change Function.update s.brains b pc b' = .committed m text at hpc
  by_cases heq : b' = b
  · rw [heq, Function.update_self] at hpc
    refine wasCommitted_now (hr.next hworld) ?_
    generalize hheld : s.brains b = held at hstep
    cases hstep with
    | @stored m' fixture values preview db hrows =>
        rw [fixture_id_of_run hr hheld] at hrows
        obtain ⟨-, -, -, -, -, -, -, hprose⟩ := writeRows_ok hrows
        rcases hprose with ⟨rfl, -⟩ | ⟨c, row, rfl, hholds, hinsert⟩
        · cases hpc
        · obtain ⟨rfl, rfl⟩ := BrainPc.committed.inj hpc
          show Option.map _ db.commentaryRows[m']? = some c.text
          rw [hinsert, getElem?_put, if_pos rfl, Option.map_some, hholds.prediction]
    | delivered | absent | matched | trained | previewed | warmed | warmFailed | raised | settled
    | crashed | cancelled => cases hpc
  · rw [Function.update_of_ne heq] at hpc
    exact hold (hinv.brains b' m text hpc)

/-- A step of a request: what it caches it has read. -/
theorem TextInv.request {h : List (Event W B A)} {s : World W B A} {r : A} {e : RequestEvent}
    {sh : Shared} {pc : RequestPc} (hinv : TextInv h s) (hr : (pipeline W B A).Run h s)
    (hstep : RequestStep s.shared (s.requests r) e sh pc) :
    TextInv (h ++ [.request r e])
      { s with shared := sh, requests := Function.update s.requests r pc } := by
  have hworld : WorldStep s (.request r e)
      { s with shared := sh, requests := Function.update s.requests r pc } := .request hstep
  have hold : ∀ {m text}, WasCommitted h s m text → WasCommitted (h ++ [.request r e])
      { s with shared := sh, requests := Function.update s.requests r pc } m text :=
    fun hc => hc.step hworld
  have hcache : ∀ m text, sh.cache.get m = some text → WasCommitted h s m text := by
    intro m text hget
    generalize hheld : s.requests r = held at hstep
    cases hstep with
    | @backfilled m' text' =>
        rcases s.shared.cache.get_set_cases m' m text' with ⟨rfl, hset⟩ | hset
        · obtain rfl := Option.some.inj (hset.symm.trans hget)
          exact hinv.requests r m' text' hheld
        · exact hinv.cache m text (hset.symm.trans hget)
    | started | hit | missed | absent | read | direct | answered | failed =>
        exact hinv.cache m text hget
  refine ⟨fun m text hget => hold (hcache m text hget),
    fun b m text hpc => hold (hinv.brains b m text hpc), ?_⟩
  intro r' m text hpc
  change Function.update s.requests r pc r' = .backfilling m text at hpc
  by_cases heq : r' = r
  · rw [heq, Function.update_self] at hpc
    generalize hheld : s.requests r = held at hstep
    cases hstep with
    | read hread =>
        obtain ⟨rfl, rfl⟩ := RequestPc.backfilling.inj hpc
        exact hold (wasCommitted_now hr (Api.getPrediction_ok hread).2)
    | started | hit | missed | absent | backfilled | direct | answered | failed => cases hpc
  · rw [Function.update_of_ne heq] at hpc
    exact hold (hinv.requests r' m text hpc)

/-- A step that moves no service and adds no entry to the cache. -/
theorem TextInv.of_cache {h : List (Event W B A)} {s t : World W B A} {e : Event W B A}
    (hinv : TextInv h s) (hstep : WorldStep s e t) (hbrains : t.brains = s.brains)
    (hrequests : t.requests = s.requests)
    (hcache : ∀ m text, t.shared.cache.get m = some text → s.shared.cache.get m = some text) :
    TextInv (h ++ [e]) t where
  cache := fun m text hget => (hinv.cache m text (hcache m text hget)).step hstep
  brains := fun b m text hpc => (hinv.brains b m text (hbrains ▸ hpc)).step hstep
  requests := fun r m text hpc => (hinv.requests r m text (hrequests ▸ hpc)).step hstep

theorem TextInv.step {h : List (Event W B A)} {s t : World W B A} {e : Event W B A}
    (hr : (pipeline W B A).Run h s) (hinv : TextInv h s) (hstep : WorldStep s e t) :
    TextInv (h ++ [e]) t := by
  cases hstep with
  | worker hw =>
      apply hinv.of_cache (.worker hw) rfl rfl
      intro m text hget
      rw [← hget, ← hw.frame.1]
  | brain hb => exact hinv.brain hr hb
  | request hq => exact hinv.request hr hq
  | env he =>
      apply hinv.of_cache (.env he) rfl rfl
      intro m text hget
      cases he with
      | backfill => exact hget
      | expired m' =>
          change (s.shared.cache.expire m').get m = some text at hget
          rw [Cache.get_expire] at hget
          split_ifs at hget with heq
          exact hget

theorem textInv_of_run {h : List (Event W B A)} {s : World W B A}
    (hr : (pipeline W B A).Run h s) : TextInv h s := by
  refine hr.invariant ?_ fun _ _ _ _ hr hinv hstep => hinv.step hr hstep
  intro s hs
  refine ⟨?_, ?_, ?_⟩
  · intro m text hget
    rw [hs.cache] at hget
    cases hget
  · intro b m text hpc
    rw [hs.brains b] at hpc
    cases hpc
  · intro r m text hpc
    rw [hs.requests r] at hpc
    cases hpc

end

/-! ## Requests that write nothing -/

def StartedBy (r : A) (e : Event W B A) : Prop := ∃ m, e = .request r (.started m)

def NoHit (r : A) (post : List (Event W B A)) : Prop :=
  ∀ m text, Event.request r (.hit m text) ∉ post

def NoBackfill (r : A) (post : List (Event W B A)) : Prop :=
  ∀ m text, Event.request r (.backfilled m text) ∉ post

/-- The match a request asks for. -/
def RequestPc.match_ : RequestPc → Option ℤ
  | .idle => none
  | .started m => some m
  | .missed m => some m
  | .backfilling m _ => some m
  | .answering m _ => some m

/-- What a request has done to the cache since its start. -/
def Path (r : A) (post : List (Event W B A)) : RequestPc → Prop
  | .idle => True
  | .started _ | .missed _ | .backfilling _ _ => NoHit r post ∧ NoBackfill r post
  | .answering _ text => NoBackfill r post ∨ (text ≠ none ∧ NoHit r post)

/-- A request at work is on its path since it started. -/
def OnPath (r : A) (h : List (Event W B A)) (pc : RequestPc) : Prop :=
  ∀ m, pc.match_ = some m →
    Since (StartedBy r) (fun e post => e = .request r (.started m) ∧ Path r post pc) h

theorem NoHit.append {r : A} {post : List (Event W B A)} {x : Event W B A} (h : NoHit r post)
    (hx : ∀ m text, x ≠ .request r (.hit m text)) : NoHit r (post ++ [x]) := by
  intro m text
  apply List.not_mem_append (h m text)
  exact fun hmem => hx m text (List.mem_singleton.mp hmem).symm

theorem NoBackfill.append {r : A} {post : List (Event W B A)} {x : Event W B A}
    (h : NoBackfill r post) (hx : ∀ m text, x ≠ .request r (.backfilled m text)) :
    NoBackfill r (post ++ [x]) := by
  intro m text
  apply List.not_mem_append (h m text)
  exact fun hmem => hx m text (List.mem_singleton.mp hmem).symm

theorem Path.append {r : A} {post : List (Event W B A)} {pc : RequestPc} {x : Event W B A}
    (h : Path r post pc) (hx : ∀ e, x ≠ .request r e) : Path r (post ++ [x]) pc := by
  have hhit : ∀ m text, x ≠ .request r (.hit m text) := fun m text => hx _
  have hback : ∀ m text, x ≠ .request r (.backfilled m text) := fun m text => hx _
  cases pc with
  | idle => trivial
  | started | missed | backfilling => exact ⟨h.1.append hhit, h.2.append hback⟩
  | answering m text =>
      rcases h with h | ⟨hsome, h⟩
      · exact Or.inl (h.append hback)
      · exact Or.inr ⟨hsome, h.append hhit⟩

/-- The next step of a request. -/
theorem OnPath.next {r : A} {h : List (Event W B A)} {pc pc' : RequestPc} {e : RequestEvent}
    (hpath : OnPath r h pc) {m : ℤ} (hm : pc.match_ = some m) (hx : ∀ m', e ≠ .started m')
    (hnext : ∀ post : List (Event W B A), Path r post pc →
      Path r (post ++ [.request r e]) pc') :
    Since (StartedBy r) (fun x post => x = .request r (.started m) ∧ Path r post pc')
      (h ++ [.request r e]) := by
  refine (hpath m hm).append ?_ ?_
  · rintro ⟨m', hstarted⟩
    exact hx m' (Event.request.inj hstarted).2
  · rintro x post ⟨hstarted, hold⟩
    exact ⟨hstarted, hnext post hold⟩

theorem OnPath.step {r : A} {h : List (Event W B A)} {sh sh' : Shared} {pc pc' : RequestPc}
    {e : RequestEvent} (hpath : OnPath r h pc) (hstep : RequestStep sh pc e sh' pc') :
    OnPath r (h ++ [.request r e]) pc' := by
  intro m hm
  cases hstep with
  | started m' =>
      obtain rfl := Option.some.inj hm
      exact Since.here ⟨m', rfl⟩ ⟨rfl, nofun, nofun⟩
  | hit hget =>
      refine hpath.next hm nofun ?_
      rintro post ⟨-, hback⟩
      exact Or.inl (hback.append nofun)
  | missed hget =>
      refine hpath.next hm nofun ?_
      rintro post ⟨hhit, hback⟩
      exact ⟨hhit.append nofun, hback.append nofun⟩
  | absent hread =>
      refine hpath.next hm nofun ?_
      rintro post ⟨-, hback⟩
      exact Or.inl (hback.append nofun)
  | read hread =>
      refine hpath.next hm nofun ?_
      rintro post ⟨hhit, hback⟩
      exact ⟨hhit.append nofun, hback.append nofun⟩
  | backfilled =>
      refine hpath.next hm nofun ?_
      rintro post ⟨hhit, -⟩
      exact Or.inr ⟨nofun, hhit.append nofun⟩
  | direct =>
      refine hpath.next hm nofun ?_
      rintro post ⟨-, hback⟩
      exact Or.inl (hback.append nofun)
  | answered | failed => cases hm

section

variable [DecidableEq W] [DecidableEq B] [DecidableEq A]

theorem onPath_step {h : List (Event W B A)} {s t : World W B A} {e : Event W B A}
    (hinv : ∀ r, OnPath r h (s.requests r)) (hstep : WorldStep s e t) :
    ∀ r, OnPath r (h ++ [e]) (t.requests r) := by
  have hquiet : ∀ r, (∀ e', e ≠ .request r e') → OnPath r (h ++ [e]) (s.requests r) := by
    intro r hx m hm
    refine (hinv r m hm).append ?_ ?_
    · rintro ⟨m', hstarted⟩
      exact hx _ hstarted
    · rintro x post ⟨hstarted, hpath⟩
      exact ⟨hstarted, hpath.append hx⟩
  intro r
  cases hstep with
  | worker | brain | env => exact hquiet r nofun
  | @request r' e sh pc hq =>
      show OnPath r _ (Function.update s.requests r' pc r)
      by_cases heq : r = r'
      · subst heq
        rw [Function.update_self]
        exact (hinv r).step hq
      · rw [Function.update_of_ne heq]
        refine hquiet r ?_
        intro e' hsame
        exact heq (Event.request.inj hsame).1.symm

theorem onPath_of_run {h : List (Event W B A)} {s : World W B A}
    (hr : (pipeline W B A).Run h s) (r : A) : OnPath r h (s.requests r) := by
  revert r
  refine hr.invariant (P := fun h s => ∀ r, OnPath r h (s.requests r)) ?_
    fun _ _ _ _ _ hinv hstep => onPath_step hinv hstep
  intro s hs r m hm
  rw [hs.requests r] at hm
  cases hm

/-- **The cache holds committed texts of its own match only**: every entry was
once the commentary row of its match. A request writes the cache by its backfill
alone, and one that answers 404 or had a hit has made none. -/
theorem cache_holds_committed_text {h : List (Event W B A)} {s : World W B A}
    (hr : (pipeline W B A).Run h s) :
    (∀ m text, s.shared.cache.get m = some text → WasCommitted h s m text) ∧
      (∀ r e t, WorldStep s (.request r e) t → t.shared.cache ≠ s.shared.cache →
        ∃ m text, e = .backfilled m text) ∧
      ∀ r m text t, WorldStep s (.request r (.answered m text)) t →
        Since (StartedBy r) (fun e post => e = .request r (.started m) ∧
          ((text = none ∨ ∃ m' text', Event.request r (.hit m' text') ∈ post) →
            NoBackfill r post)) h := by
  refine ⟨(textInv_of_run hr).cache, ?_, ?_⟩
  · intro r e t hstep hmoved
    cases hstep with
    | request hq =>
        generalize s.requests r = held at hq
        cases hq with
        | @backfilled m text => exact ⟨m, text, rfl⟩
        | started | hit | missed | absent | read | direct | answered | failed =>
            exact absurd rfl hmoved
  · intro r m text t hstep
    cases hstep with
    | request hq =>
        have hpath := onPath_of_run hr r
        generalize s.requests r = held at hq hpath
        cases hq with
        | answered =>
            refine (hpath m rfl).mono ?_
            rintro e post ⟨hstarted, hpath⟩
            refine ⟨hstarted, ?_⟩
            intro hserved
            rcases hpath with hback | ⟨hsome, hhit⟩
            · exact hback
            · rcases hserved with hnone | ⟨m', text', hmem⟩
              · exact absurd hnone hsome
              · exact absurd hmem (hhit m' text')

end

/-- The first preview of a fixture reaches Postgres and the cache. -/
theorem first_preview_is_cached : ∃ (h : List (Event Unit Unit Unit))
    (s : World Unit Unit Unit) (text : String),
    (pipeline Unit Unit Unit).Run h s ∧ s.shared.cache.get 1 = some text ∧
      WasCommitted h s 1 text := by
  obtain ⟨db, -, -, hjob⟩ := letterJob_steps (fixtureQueue [1]) (c := 'a')
    (by decide +kernel) rfl workerView_firstFixture
  have hsteps : (pipeline Unit Unit Unit).Steps _ _ _ := atRest_consumer () hjob
  have hrun := System.Run.of_steps (initial_fixtureQueue [1]) hsteps
  have hget : ((fixtureQueue [1]).cache.set 1 (letters 'a')).get 1 = some (letters 'a') := by
    rw [Cache.get_set, if_pos rfl]
  exact ⟨_, _, letters 'a', hrun, hget, (cache_holds_committed_text hrun).1 1 _ hget⟩

end AGame.Pipeline
