import AGame.Pipeline.Programs

/-!
# The outbox

A gated change and its event commit together; an event leaves the outbox only
in a run that had read it and published all of its batch. Nothing keeps runs
apart: they may drain the same rows, and new rows may appear between a read and
a delete. What carries the proof is that ids are never reused, so that a delete
by id can only hit an event of the batch.
-/

namespace AGame.Pipeline

open Std (ExtTreeMap)
open Base

variable {W B A : Type}

/-! ## The events that matter -/

/-- The event id and match id of a committed gated change. -/
def Event.change? : Event W B A → Option (ℤ × ℤ)
  | .worker _ (.changed eventId matchId) => some (eventId, matchId)
  | _ => none

/-- The match id of a message the broker accepted. -/
def Event.message? : Event W B A → Option ℤ
  | .worker _ (.accepted matchId) => some matchId
  | _ => none

/-- The event ids dropped from the outbox. -/
def Event.deleted : Event W B A → List ℤ
  | .worker _ (.deleted ids) => ids
  | _ => []

/-- The gated change `ev` is committed in `h`. -/
def ChangedIn (ev : ℤ × ℤ) (h : List (Event W B A)) : Prop := ∃ e ∈ h, e.change? = some ev

/-- A message carrying `m` was accepted during `h`. -/
def AcceptedIn (m : ℤ) (h : List (Event W B A)) : Prop := ∃ e ∈ h, e.message? = some m

/-- Whenever `ev` was committed, its match was accepted afterwards. -/
def AcceptedSince (ev : ℤ × ℤ) (h : List (Event W B A)) : Prop :=
  AfterEach (fun e post => e.change? = some ev → AcceptedIn ev.2 post) h

theorem ChangedIn.append {ev : ℤ × ℤ} {h : List (Event W B A)} (hc : ChangedIn ev h)
    (x : Event W B A) : ChangedIn ev (h ++ [x]) := by
  obtain ⟨e, he, hev⟩ := hc
  exact ⟨e, List.mem_append_left _ he, hev⟩

theorem AcceptedIn.append {m : ℤ} {h : List (Event W B A)} (ha : AcceptedIn m h)
    (x : Event W B A) : AcceptedIn m (h ++ [x]) := by
  obtain ⟨e, he, hm⟩ := ha
  exact ⟨e, List.mem_append_left _ he, hm⟩

theorem changedIn_snoc {ev : ℤ × ℤ} {h : List (Event W B A)} {x : Event W B A} :
    ChangedIn ev (h ++ [x]) ↔ ChangedIn ev h ∨ x.change? = some ev := by
  simp [ChangedIn, or_and_right, exists_or]

/-- A step that commits nothing adds no change. -/
theorem ChangedIn.before {ev : ℤ × ℤ} {h : List (Event W B A)} {x : Event W B A}
    (hc : ChangedIn ev (h ++ [x])) (hx : x.change? = none) : ChangedIn ev h := by
  rcases changedIn_snoc.mp hc with hc | hc
  · exact hc
  · rw [hx] at hc
    cases hc

/-- A step that does not commit `ev` again leaves it accepted. -/
theorem AcceptedSince.append {ev : ℤ × ℤ} {h : List (Event W B A)} {x : Event W B A}
    (ha : AcceptedSince ev h) (hx : x.change? ≠ some ev) : AcceptedSince ev (h ++ [x]) := by
  unfold AcceptedSince
  rw [afterEach_snoc]
  refine ⟨ha.mono ?_, fun hev => absurd hev hx⟩
  intro e post _ hold hev
  exact (hold hev).append x

/-- An accepted message settles every earlier commit for its match. -/
theorem acceptedSince_of_message {ev : ℤ × ℤ} {h : List (Event W B A)} {x : Event W B A}
    (hx : x.message? = some ev.2) (hchange : x.change? = none) :
    AcceptedSince ev (h ++ [x]) := by
  unfold AcceptedSince
  rw [afterEach_snoc]
  constructor
  · intro pre e post _ _
    exact ⟨x, List.mem_append_right _ (List.mem_singleton.mpr rfl), hx⟩
  · intro hev
    rw [hchange] at hev
    cases hev

/-! ## The invariant -/

/-- The outbox row of a change of match `m`. -/
def changeRow (m : ℤ) : RabbitEventRow := ⟨"match.changed", m⟩

/-- Inside a match transaction that has taken an id. -/
def WorkerPc.isReserved : WorkerPc → Bool
  | .reserved _ _ _ => true
  | .idle | .fetching | .syncing _ | .publishing _ _ _ => false

/-- What a run of the worker may rely on at its program counter. -/
def WorkerInv (h : List (Event W B A)) (seq : ℤ) : WorkerPc → Prop
  | .reserved eventId _ _ => eventId < seq ∧ ∀ m, ¬ ChangedIn (eventId, m) h
  | .publishing done rest had =>
      (∀ ev ∈ done ++ rest, ChangedIn ev h) ∧ (∀ ev ∈ done, AcceptedSince ev h) ∧
        (had = true → ∀ ev ∈ rest.head?, AcceptedSince ev h)
  | _ => True

structure OutboxInv (h : List (Event W B A)) (s : World W B A) : Prop where
  /-- A row of the outbox is the event of a committed change. -/
  rows : ∀ (eventId : ℤ) (row : RabbitEventRow),
    s.shared.pg.db.rabbitEventRows[eventId]? = some row →
      row = changeRow row.matchId ∧ ChangedIn (eventId, row.matchId) h
  /-- A committed change is in the outbox or has been accepted since. -/
  changes : AfterEach (fun e post => ∀ ev, e.change? = some ev →
    s.shared.pg.db.rabbitEventRows[ev.1]? = some (changeRow ev.2) ∨ AcceptedIn ev.2 post) h
  /-- The sequence is past every id it gave out, -/
  below : ∀ ev, ChangedIn ev h → ev.1 < s.shared.pg.rabbitEventSeq
  /-- and gave none out twice. -/
  unique : ∀ eventId m m', ChangedIn (eventId, m) h → ChangedIn (eventId, m') h → m = m'
  apart : ∀ w w' eventId m m' todo todo', s.workers w = .reserved eventId m todo →
    s.workers w' = .reserved eventId m' todo' → w = w'
  workers : ∀ w, WorkerInv h s.shared.pg.rabbitEventSeq (s.workers w)
  /-- Only committed changes are published. -/
  messages : BeforeEach (fun e pre => ∀ m, e.message? = some m →
    ∃ eventId, ChangedIn (eventId, m) pre) h
  /-- Only accepted events are deleted. -/
  deletions : BeforeEach (fun e pre => ∀ eventId ∈ e.deleted, ∀ m,
    ChangedIn (eventId, m) pre → AcceptedSince (eventId, m) pre) h

/-- A step keeps what a run relies on if the id of a change it commits is new
and not held by the run. -/
theorem WorkerInv.keep {h : List (Event W B A)} {seq seq' : ℤ} {pc : WorkerPc}
    {x : Event W B A} (hinv : WorkerInv h seq pc) (hseq : seq ≤ seq')
    (hx : ∀ ev, x.change? = some ev →
      (∀ m, ¬ ChangedIn (ev.1, m) h) ∧ ∀ m todo, pc ≠ .reserved ev.1 m todo) :
    WorkerInv (h ++ [x]) seq' pc := by
  have hkeep : ∀ ev, ChangedIn ev h → AcceptedSince ev h → AcceptedSince ev (h ++ [x]) := by
    intro ev hc ha
    exact ha.append fun hev => (hx ev hev).1 ev.2 hc
  cases pc with
  | reserved eventId m todo =>
      obtain ⟨hlt, hfresh⟩ := hinv
      refine ⟨hlt.trans_le hseq, ?_⟩
      intro m' hc
      rcases changedIn_snoc.mp hc with hc | hc
      · exact hfresh m' hc
      · exact (hx _ hc).2 m todo rfl
  | publishing done rest had =>
      obtain ⟨hcommitted, hdone, hhead⟩ := hinv
      refine ⟨?_, ?_, ?_⟩
      · intro ev hev
        exact (hcommitted ev hev).append x
      · intro ev hev
        exact hkeep ev (hcommitted ev (List.mem_append_left _ hev)) (hdone ev hev)
      · intro hhad ev hev
        have hmem := List.mem_append_right done (List.mem_of_mem_head? hev)
        exact hkeep ev (hcommitted ev hmem) (hhead hhad ev hev)
  | idle | fetching | syncing => trivial

theorem WorkerInv.append {h : List (Event W B A)} {seq seq' : ℤ} {pc : WorkerPc}
    {x : Event W B A} (hinv : WorkerInv h seq pc) (hseq : seq ≤ seq')
    (hx : x.change? = none) : WorkerInv (h ++ [x]) seq' pc := by
  apply hinv.keep hseq
  intro ev hev
  rw [hx] at hev
  cases hev

/-- Committed changes after a step that takes none of their rows away and puts
the row of what it commits in the outbox. -/
theorem OutboxInv.changes_append {h : List (Event W B A)} {s : World W B A} {x : Event W B A}
    (hinv : OutboxInv h s) {rows : ExtTreeMap ℤ RabbitEventRow}
    (hkeep : ∀ ev, ChangedIn ev h →
      s.shared.pg.db.rabbitEventRows[ev.1]? = some (changeRow ev.2) →
        rows[ev.1]? = some (changeRow ev.2))
    (hx : ∀ ev, x.change? = some ev → rows[ev.1]? = some (changeRow ev.2)) :
    AfterEach (fun e post => ∀ ev, e.change? = some ev →
      rows[ev.1]? = some (changeRow ev.2) ∨ AcceptedIn ev.2 post) (h ++ [x]) := by
  rw [afterEach_snoc]
  refine ⟨hinv.changes.mono ?_, fun ev hev => Or.inl (hx ev hev)⟩
  intro e post he hold ev hev
  rcases hold ev hev with hrow | ha
  · exact Or.inl (hkeep ev ⟨e, he, hev⟩ hrow)
  · exact Or.inr (ha.append x)

/-- A change committed under an id that no other has keeps one match to an id. -/
theorem OutboxInv.unique_snoc {h : List (Event W B A)} {s : World W B A} {x : Event W B A}
    (hinv : OutboxInv h s) {eventId matchId : ℤ} (hx : x.change? = some (eventId, matchId))
    (hfresh : ∀ m, ¬ ChangedIn (eventId, m) h) (i m₁ m₂ : ℤ)
    (h₁ : ChangedIn (i, m₁) (h ++ [x])) (h₂ : ChangedIn (i, m₂) (h ++ [x])) : m₁ = m₂ := by
  rw [changedIn_snoc, hx, Option.some.injEq, Prod.mk.injEq] at h₁ h₂
  rcases h₁ with h₁ | ⟨rfl, hm₁⟩
  · rcases h₂ with h₂ | ⟨rfl, -⟩
    · exact hinv.unique i m₁ m₂ h₁ h₂
    · exact absurd h₁ (hfresh m₁)
  · rcases h₂ with h₂ | ⟨-, hm₂⟩
    · exact absurd h₂ (hfresh m₂)
    · exact hm₁.symm.trans hm₂

/-- A step that commits and deletes nothing keeps the invariant, once its
message and the program counters are accounted for. -/
theorem OutboxInv.kept {h : List (Event W B A)} {s t : World W B A} {x : Event W B A}
    (hinv : OutboxInv h s) (hchange : x.change? = none) (hdeleted : x.deleted = [])
    (hmessage : ∀ m, x.message? = some m → ∃ eventId, ChangedIn (eventId, m) h)
    (hrows : t.shared.pg.db.rabbitEventRows = s.shared.pg.db.rabbitEventRows)
    (hseq : s.shared.pg.rabbitEventSeq ≤ t.shared.pg.rabbitEventSeq)
    (hworkers : ∀ w, WorkerInv (h ++ [x]) t.shared.pg.rabbitEventSeq (t.workers w))
    (hapart : ∀ w w' eventId m m' todo todo', t.workers w = .reserved eventId m todo →
      t.workers w' = .reserved eventId m' todo' → w = w') :
    OutboxInv (h ++ [x]) t where
  rows := by
    intro eventId row hrow
    rw [hrows] at hrow
    obtain ⟨hevent, hc⟩ := hinv.rows eventId row hrow
    exact ⟨hevent, hc.append x⟩
  changes := by
    rw [hrows]
    apply hinv.changes_append (fun ev _ hrow => hrow)
    intro ev hev
    rw [hchange] at hev
    cases hev
  below := fun ev hc => (hinv.below ev (hc.before hchange)).trans_le hseq
  unique := fun eventId m m' hc hc' =>
    hinv.unique eventId m m' (hc.before hchange) (hc'.before hchange)
  apart := hapart
  workers := hworkers
  messages := by
    rw [beforeEach_snoc]
    exact ⟨hinv.messages, hmessage⟩
  deletions := by
    rw [beforeEach_snoc]
    refine ⟨hinv.deletions, ?_⟩
    intro eventId hid
    rw [hdeleted] at hid
    cases hid

/-- A step that commits, publishes and deletes nothing. -/
theorem OutboxInv.quiet {h : List (Event W B A)} {s t : World W B A} {x : Event W B A}
    (hinv : OutboxInv h s) (hchange : x.change? = none) (hmessage : x.message? = none)
    (hdeleted : x.deleted = [])
    (hrows : t.shared.pg.db.rabbitEventRows = s.shared.pg.db.rabbitEventRows)
    (hseq : s.shared.pg.rabbitEventSeq ≤ t.shared.pg.rabbitEventSeq)
    (hworkers : ∀ w, WorkerInv h t.shared.pg.rabbitEventSeq (t.workers w))
    (hapart : ∀ w w' eventId m m' todo todo', t.workers w = .reserved eventId m todo →
      t.workers w' = .reserved eventId m' todo' → w = w') :
    OutboxInv (h ++ [x]) t := by
  refine hinv.kept hchange hdeleted ?_ hrows hseq
    (fun w => (hworkers w).append le_rfl hchange) hapart
  intro m hm
  rw [hmessage] at hm
  cases hm

/-! ## The steps -/

theorem WorkerInv.mono {h : List (Event W B A)} {seq seq' : ℤ} {pc : WorkerPc}
    (hinv : WorkerInv h seq pc) (hseq : seq ≤ seq') : WorkerInv h seq' pc := by
  cases pc with
  | reserved eventId m todo => exact ⟨hinv.1.trans_le hseq, hinv.2⟩
  | publishing done rest had => exact hinv
  | idle | fetching | syncing => trivial

section

variable [DecidableEq W] {h : List (Event W B A)} {s : World W B A} {w : W} {pc : WorkerPc}

/-- The runs after one of them moved to a program counter it may rely on. -/
theorem OutboxInv.moved (hinv : OutboxInv h s) {seq : ℤ}
    (hseq : s.shared.pg.rabbitEventSeq ≤ seq) (hpc : WorkerInv h seq pc) (w' : W) :
    WorkerInv h seq (Function.update s.workers w pc w') := by
  revert w'
  rw [Function.forall_update_iff s.workers fun _ pc => WorkerInv h seq pc]
  refine ⟨hpc, ?_⟩
  intro w' _
  exact (hinv.workers w').mono hseq

/-- A run that takes an id others do not hold keeps the ids apart. -/
theorem OutboxInv.stillApart (hinv : OutboxInv h s)
    (hpc : ∀ eventId m todo, pc = .reserved eventId m todo →
      ∀ w' m' todo', w' ≠ w → s.workers w' ≠ .reserved eventId m' todo') :
    ∀ w₁ w₂ eventId m m' todo todo',
      Function.update s.workers w pc w₁ = .reserved eventId m todo →
      Function.update s.workers w pc w₂ = .reserved eventId m' todo' → w₁ = w₂ := by
  intro w₁ w₂ eventId m m' todo todo' h₁ h₂
  by_cases hw₁ : w₁ = w
  · by_cases hw₂ : w₂ = w
    · rw [hw₁, hw₂]
    · rw [hw₁, Function.update_self] at h₁
      rw [Function.update_of_ne hw₂] at h₂
      exact absurd h₂ (hpc eventId m todo h₁ w₂ m' todo' hw₂)
  · rw [Function.update_of_ne hw₁] at h₁
    by_cases hw₂ : w₂ = w
    · rw [hw₂, Function.update_self] at h₂
      exact absurd h₁ (hpc eventId m' todo' h₂ w₁ m todo hw₁)
    · rw [Function.update_of_ne hw₂] at h₂
      exact hinv.apart w₁ w₂ eventId m m' todo todo' h₁ h₂

/-- A run moves on without touching the outbox. -/
theorem OutboxInv.move (hinv : OutboxInv h s) {x : Event W B A} {sh : Shared}
    (hchange : x.change? = none) (hmessage : x.message? = none) (hdeleted : x.deleted = [])
    (hrows : sh.pg.db.rabbitEventRows = s.shared.pg.db.rabbitEventRows)
    (hseq : s.shared.pg.rabbitEventSeq ≤ sh.pg.rabbitEventSeq)
    (hpc : WorkerInv h sh.pg.rabbitEventSeq pc)
    (hfree : pc.isReserved = false) :
    OutboxInv (h ++ [x])
      { s with shared := sh, workers := Function.update s.workers w pc } := by
  refine hinv.quiet hchange hmessage hdeleted hrows hseq (hinv.moved hseq hpc) ?_
  exact hinv.stillApart fun eventId m todo heq => by
    rw [heq] at hfree
    cases hfree

/-- `nextval`: the id is past every other. -/
theorem OutboxInv.reserve (hinv : OutboxInv h s) {m : Worker.Match} {todo : List Worker.Match}
    {x : Event W B A} {sh : Shared} (hchange : x.change? = none) (hmessage : x.message? = none)
    (hdeleted : x.deleted = [])
    (hrows : sh.pg.db.rabbitEventRows = s.shared.pg.db.rabbitEventRows)
    (hseq : sh.pg.rabbitEventSeq = s.shared.pg.rabbitEventSeq + 1) :
    OutboxInv (h ++ [x]) { s with
      shared := sh
      workers := Function.update s.workers w
        (.reserved s.shared.pg.rabbitEventSeq m todo) } := by
  have hle : s.shared.pg.rabbitEventSeq ≤ sh.pg.rabbitEventSeq := by
    omega
  have hpc : WorkerInv h sh.pg.rabbitEventSeq
      (.reserved s.shared.pg.rabbitEventSeq m todo) := by
    refine ⟨by omega, ?_⟩
    intro m' hc
    exact lt_irrefl _ (hinv.below _ hc)
  refine hinv.quiet hchange hmessage hdeleted hrows hle (hinv.moved hle hpc) ?_
  refine hinv.stillApart ?_
  intro eventId m' todo' heq w' m₁ todo₁ _ hheld
  obtain ⟨rfl, -, -⟩ := WorkerPc.reserved.inj heq
  have hworker := hinv.workers w'
  rw [hheld] at hworker
  exact lt_irrefl _ hworker.1

/-- The commit of a gated change puts its event in the outbox. -/
theorem OutboxInv.commit (hinv : OutboxInv h s) {eventId matchId : ℤ} {m : Worker.Match}
    {todo : List Worker.Match} {db : Db} (hheld : s.workers w = .reserved eventId m todo)
    (hrows : db.rabbitEventRows =
      s.shared.pg.db.rabbitEventRows.insert eventId (changeRow matchId)) :
    OutboxInv (h ++ [.worker w (.changed eventId matchId)]) { s with
      shared := s.shared.setDb db
      workers := Function.update s.workers w (.syncing todo) } := by
  obtain ⟨hbelow, hfresh⟩ : eventId < s.shared.pg.rabbitEventSeq ∧
      ∀ m, ¬ ChangedIn (eventId, m) h := by
    have hworker := hinv.workers w
    rw [hheld] at hworker
    exact hworker
  have hother : ∀ ev, ChangedIn ev h → ev.1 ≠ eventId := by
    rintro ⟨i, m'⟩ hc rfl
    exact hfresh m' hc
  exact {
    rows := by
      intro i row hrow
      change db.rabbitEventRows[i]? = some row at hrow
      rw [hrows, getElem?_put] at hrow
      split_ifs at hrow with heq
      · obtain rfl := Option.some.inj hrow
        subst heq
        exact ⟨rfl, changedIn_snoc.mpr (Or.inr rfl)⟩
      · obtain ⟨hevent, hc⟩ := hinv.rows i row hrow
        exact ⟨hevent, hc.append _⟩
    changes := by
      apply hinv.changes_append
      · intro ev hc hrow
        show db.rabbitEventRows[ev.1]? = some (changeRow ev.2)
        rw [hrows, getElem?_put, if_neg (hother ev hc).symm]
        exact hrow
      · intro ev hev
        obtain rfl := Option.some.inj hev
        show db.rabbitEventRows[eventId]? = some (changeRow matchId)
        rw [hrows, getElem?_put, if_pos rfl]
    below := by
      intro ev hc
      rcases changedIn_snoc.mp hc with hc | hc
      · exact hinv.below ev hc
      · obtain rfl := Option.some.inj hc
        exact hbelow
    unique := hinv.unique_snoc rfl hfresh
    apart := hinv.stillApart fun i m' todo' heq => nomatch heq
    workers := by
      show ∀ w', WorkerInv _ s.shared.pg.rabbitEventSeq
        (Function.update s.workers w (.syncing todo) w')
      rw [Function.forall_update_iff s.workers fun _ pc =>
        WorkerInv _ s.shared.pg.rabbitEventSeq pc]
      refine ⟨trivial, ?_⟩
      intro w' hne
      apply (hinv.workers w').keep le_rfl
      intro ev hev
      obtain rfl := Option.some.inj hev
      refine ⟨hfresh, ?_⟩
      -- the other runs hold other ids
      intro m' todo' hpc
      exact hne (hinv.apart w' w _ m' m todo' todo hpc hheld)
    messages := by
      rw [beforeEach_snoc]
      exact ⟨hinv.messages, fun m' hm => nomatch hm⟩
    deletions := by
      rw [beforeEach_snoc]
      exact ⟨hinv.deletions, fun i hi => nomatch hi⟩ }

/-- The broker takes the message being published. -/
theorem OutboxInv.accept (hinv : OutboxInv h s) {done rest : List (ℤ × ℤ)} {event : ℤ × ℤ}
    {had : Bool} {sh : Shared} (hpc : s.workers w = .publishing done (event :: rest) had)
    (hrows : sh.pg = s.shared.pg) :
    OutboxInv (h ++ [.worker w (.accepted event.2)]) { s with
      shared := sh
      workers := Function.update s.workers w (.publishing done (event :: rest) true) } := by
  obtain ⟨hcommitted, hdone, -⟩ : (∀ ev ∈ done ++ event :: rest, ChangedIn ev h) ∧
      (∀ ev ∈ done, AcceptedSince ev h) ∧ _ := by
    have hworker := hinv.workers w
    rw [hpc] at hworker
    exact hworker
  have hevent : ChangedIn event h :=
    hcommitted event (List.mem_append_right _ List.mem_cons_self)
  refine hinv.kept rfl rfl ?_ (congrArg (·.db.rabbitEventRows) hrows)
    (congrArg (·.rabbitEventSeq) hrows).ge ?_
    (hinv.stillApart fun i m' todo' heq => nomatch heq)
  · intro m hm
    obtain rfl := Option.some.inj hm
    exact ⟨event.1, hevent⟩
  · show ∀ w', WorkerInv _ sh.pg.rabbitEventSeq
      (Function.update s.workers w (.publishing done (event :: rest) true) w')
    rw [hrows, Function.forall_update_iff s.workers fun _ pc =>
      WorkerInv _ s.shared.pg.rabbitEventSeq pc]
    constructor
    · refine ⟨?_, ?_, ?_⟩
      · intro ev hev
        exact (hcommitted ev hev).append _
      · intro ev hev
        exact (hdone ev hev).append fun hx => nomatch hx
      · intro _ ev hev
        obtain rfl := Option.some.inj hev
        exact acceptedSince_of_message rfl rfl
    · intro w' _
      exact (hinv.workers w').append le_rfl rfl

/-- The delete drops events whose match was accepted after their commit. -/
theorem OutboxInv.delete (hinv : OutboxInv h s) {done : List (ℤ × ℤ)} {had : Bool}
    (hpc : s.workers w = .publishing done [] had) :
    OutboxInv (h ++ [.worker w (.deleted (done.map Prod.fst))]) { s with
      shared := s.shared.setDb
        (Worker.deleteRabbitEvent s.shared.pg.db (done.map Prod.fst))
      workers := Function.update s.workers w .idle } := by
  obtain ⟨hcommitted, hdone, -⟩ : (∀ ev ∈ done ++ [], ChangedIn ev h) ∧
      (∀ ev ∈ done, AcceptedSince ev h) ∧ _ := by
    have hworker := hinv.workers w
    rw [hpc] at hworker
    exact hworker
  rw [List.append_nil] at hcommitted
  -- an id of the batch belongs to one committed change only
  have haccepted : ∀ eventId ∈ done.map Prod.fst, ∀ m, ChangedIn (eventId, m) h →
      AcceptedSince (eventId, m) h := by
    intro eventId hid m hc
    obtain ⟨⟨i, m'⟩, hev, rfl⟩ := List.mem_map.mp hid
    obtain rfl := hinv.unique i m m' hc (hcommitted _ hev)
    exact hdone _ hev
  exact {
    rows := by
      intro i row hrow
      obtain ⟨hrow', -⟩ := getElem?_keep.mp hrow
      obtain ⟨hevent, hc⟩ := hinv.rows i row hrow'
      exact ⟨hevent, hc.append _⟩
    changes := by
      rw [afterEach_snoc]
      refine ⟨?_, fun ev hev => nomatch hev⟩
      intro pre e post heq ev hev
      by_cases hid : ev.1 ∈ done.map Prod.fst
      · right
        have hc : ChangedIn ev h := ⟨e, by simp [heq], hev⟩
        exact (haccepted ev.1 hid ev.2 hc pre e post heq hev).append _
      · rcases hinv.changes pre e post heq ev hev with hrow | ha
        · exact Or.inl (getElem?_keep.mpr ⟨hrow, by simpa using hid⟩)
        · exact Or.inr (ha.append _)
    below := fun ev hc => hinv.below ev (hc.before rfl)
    unique := fun i m m' hc hc' => hinv.unique i m m' (hc.before rfl) (hc'.before rfl)
    apart := hinv.stillApart fun i m' todo' heq => nomatch heq
    workers := by
      intro w'
      have hidle : WorkerInv h s.shared.pg.rabbitEventSeq .idle := trivial
      exact (hinv.moved le_rfl hidle w').append le_rfl rfl
    messages := by
      rw [beforeEach_snoc]
      exact ⟨hinv.messages, fun m hm => nomatch hm⟩
    deletions := by
      rw [beforeEach_snoc]
      exact ⟨hinv.deletions, haccepted⟩ }

/-- Every step of a run of the worker keeps the invariant. -/
theorem OutboxInv.worker (hinv : OutboxInv h s) {e : WorkerEvent} {sh : Shared}
    (hstep : WorkerStep s.shared (s.workers w) e sh pc) :
    OutboxInv (h ++ [.worker w e])
      { s with shared := sh, workers := Function.update s.workers w pc } := by
  have hworker := hinv.workers w
  generalize hheld : s.workers w = held at hstep hworker
  cases hstep with
  | @competitionsSynced pg n competitions hsync =>
      obtain ⟨hframe, hseq⟩ := Worker.syncCompetitions_frame s.shared.pg competitions
      rw [hsync] at hframe hseq
      have hle : s.shared.pg.rabbitEventSeq ≤ pg.rabbitEventSeq := hseq.ge
      exact hinv.move rfl rfl rfl hframe.events hle trivial rfl
  | fetched matches_ => exact hinv.move rfl rfl rfl rfl le_rfl trivial rfl
  | @reserved m todo => exact hinv.reserve rfl rfl rfl rfl rfl
  | @changed eventId matchId m todo db hsync =>
      obtain ⟨_, -, ⟨-, hrow, -, -, hrows⟩ | ⟨-, hrow, -⟩⟩ := (Worker.syncMatch_ok hsync).match_
      · obtain rfl := Option.some.inj hrow
        exact hinv.commit hheld hrows
      · cases hrow
  | @unchanged eventId m todo db hsync =>
      obtain ⟨_, -, ⟨-, hrow, -⟩ | ⟨-, -, -, hrows⟩⟩ := (Worker.syncMatch_ok hsync).match_
      · cases hrow
      · exact hinv.move rfl rfl rfl hrows le_rfl trivial rfl
  | outboxRead =>
      refine hinv.move rfl rfl rfl rfl le_rfl ⟨?_, nofun, nofun⟩ rfl
      intro ev hev
      -- what is read are rows, and a row is a committed change
      obtain ⟨⟨eventId, row⟩, hentry, rfl⟩ := List.mem_map.mp hev
      exact (hinv.rows eventId row (ExtTreeMap.mem_toList_iff_getElem?_eq_some.mp hentry)).2
  | outboxEmpty => exact hinv.move rfl rfl rfl rfl le_rfl trivial rfl
  | accepted => exact hinv.accept hheld rfl
  | @confirmed done rest event =>
      obtain ⟨hcommitted, hdone, hhead⟩ := hworker
      refine hinv.move rfl rfl rfl rfl le_rfl ⟨?_, ?_, nofun⟩ rfl
      · intro ev hev
        exact hcommitted ev (by simpa using hev)
      · intro ev hev
        rcases List.mem_append.mp hev with hev | hev
        · exact hdone ev hev
        · obtain rfl := List.mem_singleton.mp hev
          exact hhead rfl ev rfl
  | deleted => exact hinv.delete hheld
  | died => exact hinv.move rfl rfl rfl rfl le_rfl trivial rfl

end

theorem OutboxInv.start {s : World W B A} (hs : Initial s) : OutboxInv [] s where
  rows := by
    intro eventId row hrow
    rw [hs.outbox] at hrow
    simp at hrow
  changes := afterEach_nil
  below := by
    rintro ev ⟨e, he, -⟩
    cases he
  unique := by
    rintro eventId m m' ⟨e, he, -⟩
    cases he
  apart := by
    intro w w' eventId m m' todo todo' hw
    rw [hs.workers w] at hw
    cases hw
  workers := by
    intro w
    rw [hs.workers w]
    trivial
  messages := beforeEach_nil
  deletions := beforeEach_nil

section

variable [DecidableEq W] [DecidableEq B] [DecidableEq A]

/-- **The step lemma.** -/
theorem OutboxInv.step {h : List (Event W B A)} {s t : World W B A} {e : Event W B A}
    (hinv : OutboxInv h s) (hstep : WorldStep s e t) : OutboxInv (h ++ [e]) t := by
  cases hstep with
  | worker hw => exact hinv.worker hw
  | brain hb =>
      obtain ⟨-, hrows, hseq⟩ := hb.frame
      have hworkers := hinv.workers
      rw [← hseq] at hworkers
      exact hinv.quiet rfl rfl rfl hrows hseq.ge hworkers hinv.apart
  | request hq =>
      obtain ⟨hpg, -⟩ := hq.frame
      have hworkers := hinv.workers
      rw [← hpg] at hworkers
      exact hinv.quiet rfl rfl rfl (congrArg (·.db.rabbitEventRows) hpg) (by rw [hpg])
        hworkers hinv.apart
  | env he =>
      obtain ⟨-, hrows, hseq, -⟩ := he.frame
      have hworkers := hinv.workers
      rw [← hseq] at hworkers
      exact hinv.quiet rfl rfl rfl hrows hseq.ge hworkers hinv.apart

theorem outboxInv_of_run {h : List (Event W B A)} {s : World W B A}
    (hr : (pipeline W B A).Run h s) : OutboxInv h s :=
  hr.invariant (fun _ hs => .start hs) fun _ _ _ _ _ hinv hstep => hinv.step hstep

end

/-! ## What leaves the outbox, and what enters it -/

/-- A run drops only the events it deletes. -/
theorem WorkerStep.keeps_event {sh sh' : Shared} {pc pc' : WorkerPc} {e : WorkerEvent} {w : W}
    (hstep : WorkerStep sh pc e sh' pc') {eventId : ℤ}
    (hkeep : eventId ∉ (Event.worker (B := B) (A := A) w e).deleted) {row : RabbitEventRow}
    (hrow : sh.pg.db.rabbitEventRows[eventId]? = some row) :
    sh'.pg.db.rabbitEventRows[eventId]? = some row := by
  cases hstep with
  | competitionsSynced competitions hsync =>
      have hframe := (Worker.syncCompetitions_frame sh.pg competitions).1
      rw [hsync] at hframe
      rw [← hrow]
      exact congrArg (·[eventId]?) hframe.events
  | @changed i m' m todo db hsync =>
      obtain ⟨_, -, ⟨-, -, -, hnew, hrows⟩ | ⟨-, -, -, hrows⟩⟩ :=
        (Worker.syncMatch_ok hsync).match_
      · have hne : i ≠ eventId := by
          rintro rfl
          exact hnew (mem_iff_getElem?.mpr ⟨row, hrow⟩)
        show db.rabbitEventRows[eventId]? = some row
        rw [hrows, getElem?_put, if_neg hne, hrow]
      · show db.rabbitEventRows[eventId]? = some row
        rw [hrows, hrow]
  | @unchanged i m todo db hsync =>
      obtain ⟨_, -, ⟨-, hnone, -⟩ | ⟨-, -, -, hrows⟩⟩ := (Worker.syncMatch_ok hsync).match_
      · cases hnone
      · show db.rabbitEventRows[eventId]? = some row
        rw [hrows, hrow]
  | deleted => exact getElem?_keep.mpr ⟨hrow, by simpa [Event.deleted] using hkeep⟩
  | fetched | reserved | outboxRead | outboxEmpty | accepted | confirmed | died => exact hrow

/-- A run of the worker that moves a match row commits its event with it. -/
theorem WorkerStep.announces {sh sh' : Shared} {pc pc' : WorkerPc} {e : WorkerEvent}
    (hstep : WorkerStep sh pc e sh' pc') (hmoved : sh'.pg.db.matchRows ≠ sh.pg.db.matchRows) :
    ∃ eventId m, e = .changed eventId m ∧
      sh'.pg.db.rabbitEventRows[eventId]? = some (changeRow m) ∧
      ∀ k ≠ m, sh'.pg.db.matchRows[k]? = sh.pg.db.matchRows[k]? := by
  cases hstep with
  | competitionsSynced competitions hsync =>
      have hframe := (Worker.syncCompetitions_frame sh.pg competitions).1
      rw [hsync] at hframe
      exact absurd hframe.matches_ hmoved
  | @changed eventId matchId m todo db hsync =>
      have hrows := Worker.syncMatch_ok hsync
      obtain ⟨_, -, ⟨-, hrow, -, -, hevents⟩ | ⟨-, hrow, -⟩⟩ := hrows.match_
      · obtain rfl := Option.some.inj hrow
        refine ⟨eventId, m.id, rfl, ?_, fun k hk => hrows.other hk⟩
        show db.rabbitEventRows[eventId]? = some (changeRow m.id)
        rw [hevents, getElem?_put, if_pos rfl]
        rfl
      · cases hrow
  | @unchanged eventId m todo db hsync =>
      obtain ⟨_, -, ⟨-, hrow, -⟩ | ⟨-, -, hrows, -⟩⟩ := (Worker.syncMatch_ok hsync).match_
      · cases hrow
      · exact absurd hrows hmoved
  | fetched | reserved | outboxRead | outboxEmpty | accepted | confirmed | deleted | died =>
      exact absurd rfl hmoved

section

variable [DecidableEq W] [DecidableEq B] [DecidableEq A]

/-- A row leaves the outbox only when its id is deleted. -/
theorem WorldStep.keeps_event {s t : World W B A} {e : Event W B A} (hstep : WorldStep s e t)
    {eventId : ℤ} (hkeep : eventId ∉ e.deleted) {row : RabbitEventRow}
    (hrow : s.shared.pg.db.rabbitEventRows[eventId]? = some row) :
    t.shared.pg.db.rabbitEventRows[eventId]? = some row := by
  cases hstep with
  | worker hw => exact hw.keeps_event hkeep hrow
  | brain hb =>
      rw [← hrow]
      exact congrArg (·[eventId]?) hb.frame.2.1
  | request hq =>
      rw [← hrow]
      exact congrArg (·.db.rabbitEventRows[eventId]?) hq.frame.1
  | env he =>
      rw [← hrow]
      exact congrArg (·[eventId]?) he.frame.2.1

/-- **Outbox safety.** In every reachable state: every committed change has its
event in the outbox or was accepted since; a step of the worker that moves a
match row commits such a change; a row leaves the outbox only after its match
was accepted since every commit of it; and a message carries the match of a
change committed before it. -/
theorem outbox_safety {h : List (Event W B A)} {s : World W B A}
    (hr : (pipeline W B A).Run h s) :
    AfterEach (fun e post => ∀ eventId m, e.change? = some (eventId, m) →
        s.shared.pg.db.rabbitEventRows[eventId]? = some (changeRow m) ∨ AcceptedIn m post) h ∧
      (∀ w e t, WorldStep s (.worker w e) t →
        t.shared.pg.db.matchRows ≠ s.shared.pg.db.matchRows →
        ∃ eventId m, e = .changed eventId m ∧
          t.shared.pg.db.rabbitEventRows[eventId]? = some (changeRow m) ∧
          ∀ k ≠ m, t.shared.pg.db.matchRows[k]? = s.shared.pg.db.matchRows[k]?) ∧
      (∀ e t, WorldStep s e t → ∀ eventId row,
        s.shared.pg.db.rabbitEventRows[eventId]? = some row →
        t.shared.pg.db.rabbitEventRows[eventId]? ≠ some row →
        ChangedIn (eventId, row.matchId) h ∧ AcceptedSince (eventId, row.matchId) h) ∧
      BeforeEach (fun e pre => ∀ m, e.message? = some m →
        ∃ eventId, ChangedIn (eventId, m) pre) h := by
  have hinv := outboxInv_of_run hr
  refine ⟨?_, ?_, ?_, hinv.messages⟩
  · intro pre e post heq eventId m hchange
    exact hinv.changes pre e post heq (eventId, m) hchange
  · intro w e t hstep hmoved
    cases hstep with
    | worker hw => exact hw.announces hmoved
  · intro e t hstep eventId row hrow hgone
    obtain ⟨-, hc⟩ := hinv.rows eventId row hrow
    have hdeleted : eventId ∈ e.deleted := by
      by_contra hkeep
      exact hgone (hstep.keeps_event hkeep hrow)
    have hnext := (beforeEach_snoc.mp (hinv.step hstep).deletions).2
    exact ⟨hc, hnext eventId hdeleted row.matchId hc⟩

end

/-! ### The first change of a league -/

theorem initial_freshLeague :
    Initial (World.atRest ⟨Worker.freshLeague, [], ∅⟩ : World W B A) :=
  initial_atRest (by decide +kernel) (by decide +kernel) (by decide +kernel) rfl

/-- The first fixture of a fresh league reaches the match table, and the run
dies before it reads the outbox. -/
def firstChange : List WorkerEvent :=
  [.competitionsSynced, .fetched [Worker.fixturePayload 1 "SCHEDULED"], .reserved 1,
    .changed 1 1, .died]

theorem firstChange_committed :
    Worker.syncMatch 1 Worker.freshLeague.db (Worker.fixturePayload 1 "SCHEDULED") =
      .ok (Brain.newLeague, some 1) := by
  have hchanged : (Worker.syncMatch 1 Worker.freshLeague.db
      (Worker.fixturePayload 1 "SCHEDULED")).toOption.bind Prod.snd = some 1 := by
    decide +kernel
  cases hresult : Worker.syncMatch 1 Worker.freshLeague.db
      (Worker.fixturePayload 1 "SCHEDULED") with
  | error e =>
      rw [hresult] at hchanged
      cases hchanged
  | ok result =>
      obtain ⟨db, row⟩ := result
      rw [hresult] at hchanged
      obtain rfl : row = some 1 := hchanged
      have hsync : Worker.syncMatch Worker.freshLeague.rabbitEventSeq Worker.freshLeague.db
          (Worker.fixturePayload 1 "SCHEDULED") = .ok (db, some 1) := hresult
      have hleague : Brain.newLeague = db := by
        simp only [Brain.newLeague, Worker.syncMatchesPerCompetition, Worker.syncMatchesFrom,
          hsync]
      rw [hleague]

/-- The run up to the commit of its change. -/
theorem firstChange_reserved : ingester.Steps (⟨Worker.freshLeague, [], ∅⟩, .idle)
    [.competitionsSynced, .fetched [Worker.fixturePayload 1 "SCHEDULED"], .reserved 1]
    (⟨⟨Worker.freshLeague.db, 2⟩, [], ∅⟩,
      .reserved 1 (Worker.fixturePayload 1 "SCHEDULED") []) := by
  have hstart : ingester.Steps (⟨Worker.freshLeague, [], ∅⟩, .idle) []
      (⟨Worker.freshLeague, [], ∅⟩, .idle) := .refl _
  have hcompetitions := ingester_next hstart (.competitionsSynced [] rfl)
  have hfetched := ingester_next hcompetitions
    (.fetched [Worker.fixturePayload 1 "SCHEDULED"])
  exact ingester_next hfetched .reserved

theorem firstChange_steps : ingester.Steps (⟨Worker.freshLeague, [], ∅⟩, .idle)
    firstChange (⟨⟨Brain.newLeague, 2⟩, [], ∅⟩, .idle) :=
  ingester_next (ingester_next firstChange_reserved (.changed firstChange_committed)) .died

/-- The fixture's event outlives the run. -/
theorem firstChange_survives : ∃ s : World Unit Unit Unit,
    (pipeline Unit Unit Unit).Run (firstChange.map (.worker ())) s ∧
      s.shared.pg.db.rabbitEventRows[(1 : ℤ)]? = some (changeRow 1) := by
  have hsteps : (pipeline Unit Unit Unit).Steps _ _ _ :=
    steps_of_ingester (s := .atRest ⟨Worker.freshLeague, [], ∅⟩) (w := ()) firstChange_steps
  have hrun := System.Run.of_steps initial_freshLeague hsteps
  refine ⟨_, hrun, ?_⟩
  have hchanges := (outbox_safety hrun).1
  rcases hchanges [.worker () .competitionsSynced,
      .worker () (.fetched [Worker.fixturePayload 1 "SCHEDULED"]), .worker () (.reserved 1)]
    (.worker () (.changed 1 1)) [.worker () .died] rfl 1 1 rfl with hrow | ⟨e, he, hm⟩
  · exact hrow
  · obtain rfl := List.mem_singleton.mp he
    cases hm

end AGame.Pipeline
