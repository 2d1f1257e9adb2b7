import AGame.Pipeline.Accounts
import AGame.Pipeline.Outbox

/-!
# Announced once

The outbox promises a message for every gated change, and several when a drain is
cut off or two drains meet. When drains take turns and come to their end, a change
is one message: with the account of the messages, it is in the outbox, in the
queue, with a consumer or done with, once.
-/

namespace AGame.Pipeline

open Std (ExtTreeMap)
open Base

variable {W B A : Type}

/-! ## The listing of the outbox -/

section

variable {db : Db}

theorem mem_fetchRabbitEvents {ev : ℤ × ℤ} :
    ev ∈ Worker.fetchRabbitEvents db ↔
      ∃ row : RabbitEventRow, db.rabbitEventRows[ev.1]? = some row ∧ row.matchId = ev.2 := by
  obtain ⟨eventId, m⟩ := ev
  rw [Worker.fetchRabbitEvents, List.mem_map]
  constructor
  · rintro ⟨⟨i, row⟩, hentry, heq⟩
    obtain ⟨rfl, rfl⟩ := Prod.mk.inj heq
    exact ⟨row, ExtTreeMap.mem_toList_iff_getElem?_eq_some.mp hentry, rfl⟩
  · rintro ⟨row, hrow, rfl⟩
    exact ⟨(eventId, row), ExtTreeMap.mem_toList_iff_getElem?_eq_some.mpr hrow, rfl⟩

theorem nodup_fetchRabbitEvents (db : Db) : (Worker.fetchRabbitEvents db).Nodup := by
  refine List.pairwise_map.mpr ?_
  refine (ExtTreeMap.distinct_keys_toList (t := db.rabbitEventRows)).imp ?_
  rintro ⟨i, row⟩ ⟨i', row'⟩ hab heq
  exact hab (Std.LawfulEqCmp.compare_eq_iff_eq.mpr (Prod.mk.inj heq).1)

/-- An id is listed with one match. -/
theorem fetchRabbitEvents_inj {ev ev' : ℤ × ℤ} (h : ev ∈ Worker.fetchRabbitEvents db)
    (h' : ev' ∈ Worker.fetchRabbitEvents db) (heq : ev.1 = ev'.1) : ev = ev' := by
  obtain ⟨row, hrow, hm⟩ := mem_fetchRabbitEvents.mp h
  obtain ⟨row', hrow', hm'⟩ := mem_fetchRabbitEvents.mp h'
  rw [heq, hrow'] at hrow
  obtain rfl := Option.some.inj hrow
  exact Prod.ext heq (hm.symm.trans hm')

/-- The unannounced changes of `m`. -/
def outbox (m : ℤ) (db : Db) : ℕ := ((Worker.fetchRabbitEvents db).map Prod.snd).count m

theorem outbox_insert {db' : Db} {eventId : ℤ} {row : RabbitEventRow}
    (hnew : eventId ∉ db.rabbitEventRows)
    (hrows : db'.rabbitEventRows = db.rabbitEventRows.insert eventId row) (m : ℤ) :
    outbox m db' = outbox m db + if row.matchId = m then 1 else 0 := by
  have hlist : (Worker.fetchRabbitEvents db').Perm
      ((eventId, row.matchId) :: Worker.fetchRabbitEvents db) := by
    have hput := (toList_put db.rabbitEventRows eventId row).map
      fun (e : ℤ × RabbitEventRow) => (e.1, e.2.matchId)
    rw [erase_absent hnew] at hput
    rw [Worker.fetchRabbitEvents, hrows]
    exact hput
  rw [outbox, (hlist.map Prod.snd).count_eq, List.map_cons, List.count_cons]
  simp [outbox]

/-- A batch that is listed is what its deletion takes away. -/
theorem outbox_delete {batch : List (ℤ × ℤ)} (hlisted : batch ⊆ Worker.fetchRabbitEvents db)
    (hnodup : batch.Nodup) (m : ℤ) :
    outbox m (Worker.deleteRabbitEvent db (batch.map Prod.fst)) + (batch.map Prod.snd).count m =
      outbox m db := by
  have hleft : Worker.fetchRabbitEvents (Worker.deleteRabbitEvent db (batch.map Prod.fst)) =
      (Worker.fetchRabbitEvents db).filter fun ev => !(batch.map Prod.fst).contains ev.1 := by
    simp only [Worker.fetchRabbitEvents, Worker.deleteRabbitEvent, Db.eraseRabbitEvents,
      ExtTreeMap.toList_filter, List.filter_map]
    rfl
  have hsplit : (Worker.fetchRabbitEvents db).Perm
      (Worker.fetchRabbitEvents (Worker.deleteRabbitEvent db (batch.map Prod.fst)) ++ batch) := by
    rw [hleft]
    refine (List.perm_ext_iff_of_nodup (nodup_fetchRabbitEvents db) ?_).mpr ?_
    · refine ((nodup_fetchRabbitEvents db).filter _).append hnodup ?_
      intro ev hkept hev
      have hid := List.mem_map_of_mem (f := Prod.fst) hev
      simpa [hid] using (List.mem_filter.mp hkept).2
    · intro ev
      rw [List.mem_append, List.mem_filter]
      constructor
      · intro hmem
        by_cases hid : ev.1 ∈ batch.map Prod.fst
        · obtain ⟨ev', hev', heq⟩ := List.mem_map.mp hid
          obtain rfl := fetchRabbitEvents_inj (hlisted hev') hmem heq
          exact Or.inr hev'
        · exact Or.inl ⟨hmem, by simpa using hid⟩
      · rintro (⟨hmem, -⟩ | hev)
        · exact hmem
        · exact hlisted hev
  rw [outbox, outbox, (hsplit.map Prod.snd).count_eq, List.map_append, List.count_append]

end

/-! ## Drains that take turns -/

def WorkerPc.isDraining : WorkerPc → Bool
  | .publishing _ _ _ => true
  | .idle | .fetching | .syncing _ | .reserved _ _ _ => false

/-- The events a drain has read. -/
def WorkerPc.batch : WorkerPc → List (ℤ × ℤ)
  | .publishing done rest _ => done ++ rest
  | .idle | .fetching | .syncing _ | .reserved _ _ _ => []

/-- Those of them that the broker has. -/
def WorkerPc.sent : WorkerPc → List (ℤ × ℤ)
  | .publishing done rest had => done ++ if had then rest.head?.toList else []
  | .idle | .fetching | .syncing _ | .reserved _ _ _ => []

theorem WorkerPc.batch_of_not_draining {pc : WorkerPc} (h : pc.isDraining = false) :
    pc.batch = [] := by
  cases pc with
  | publishing => cases h
  | idle | fetching | syncing | reserved => rfl

theorem WorkerPc.sent_subset_batch (pc : WorkerPc) : pc.sent.Sublist pc.batch := by
  cases pc with
  | publishing done rest had =>
      refine (List.Sublist.refl done).append ?_
      cases had with
      | false => exact List.nil_sublist _
      | true =>
          cases rest with
          | nil => exact List.Sublist.refl _
          | cons ev rest => exact (List.nil_sublist rest).cons_cons ev
  | idle | fetching | syncing | reserved => exact List.Sublist.refl _

/-- One drain at a time, none is cut off, and the broker takes a message once. -/
def InTurn (s : World W B A) : Event W B A → Prop
  | .worker _ .outboxRead => ∀ w, (s.workers w).isDraining = false
  | .worker w (.accepted _) => ∀ done rest, s.workers w ≠ .publishing done rest true
  | .worker w .died => (s.workers w).isDraining = false
  | _ => True

/-- The runs in which every step is in turn. -/
def inTurn (W B A : Type) [DecidableEq W] [DecidableEq B] [DecidableEq A] :
    System (World W B A) (Event W B A) :=
  (pipeline W B A).restrict fun s e _ => InTurn s e

/-- A gated change of `m` commits. -/
def Event.changes (m : ℤ) (e : Event W B A) : Bool := decide (e.change?.map Prod.snd = some m)

/-- How often a gated change of `m` committed. -/
def changes (m : ℤ) (h : List (Event W B A)) : ℕ := h.countP (Event.changes m)

/-- The events of the one drain that the broker has. -/
def World.sentBy (s : World W B A) (drainer : Option W) : List (ℤ × ℤ) :=
  drainer.elim [] fun w => (s.workers w).sent

structure Announced (h : List (Event W B A)) (s : World W B A) (drainer : Option W) : Prop where
  only : ∀ w, (s.workers w).isDraining = true → drainer = some w
  /-- The batch of a drain stays in the outbox until the drain deletes it. -/
  listed : ∀ w, (s.workers w).batch ⊆ Worker.fetchRabbitEvents s.shared.pg.db
  nodup : ∀ w, (s.workers w).batch.Nodup
  account : ∀ m, handovers .posted m h + outbox m s.shared.pg.db =
    changes m h + ((s.sentBy drainer).map Prod.snd).count m

theorem handovers_snoc (k : Handover) (m : ℤ) (h : List (Event W B A)) (x : Event W B A) :
    handovers k m (h ++ [x]) = handovers k m h + if x.handover? = some (k, m) then 1 else 0 := by
  rw [handovers, handovers, List.countP_append, List.countP_singleton]
  simp [Event.hands]

theorem changes_snoc (m : ℤ) (h : List (Event W B A)) (x : Event W B A) :
    changes m (h ++ [x]) = changes m h + if x.change?.map Prod.snd = some m then 1 else 0 := by
  rw [changes, changes, List.countP_append, List.countP_singleton, Event.changes]
  simp only [decide_eq_true_eq]

theorem handovers_snoc_other {k : Handover} {m : ℤ} {x : Event W B A}
    (hx : x.handover? ≠ some (k, m)) (h : List (Event W B A)) :
    handovers k m (h ++ [x]) = handovers k m h := by
  rw [handovers_snoc, if_neg hx, add_zero]

theorem changes_snoc_other {x : Event W B A} (hx : x.change? = none) (m : ℤ)
    (h : List (Event W B A)) : changes m (h ++ [x]) = changes m h := by
  rw [changes_snoc, hx]
  rfl

section

variable {h : List (Event W B A)} {s : World W B A} {drainer : Option W}

/-- A step that leaves the outbox and the batches alone, and neither commits a change nor
posts a message. -/
theorem Announced.kept (hinv : Announced h s drainer) {t : World W B A} {x : Event W B A}
    (hposted : ∀ m, x.handover? ≠ some (.posted, m)) (hchange : x.change? = none)
    (hrows : t.shared.pg.db.rabbitEventRows = s.shared.pg.db.rabbitEventRows)
    (hworkers : ∀ w, (t.workers w).sent = (s.workers w).sent ∧
      (t.workers w).batch = (s.workers w).batch ∧
      ((t.workers w).isDraining = true → (s.workers w).isDraining = true)) :
    Announced (h ++ [x]) t drainer where
  only := fun w hw => hinv.only w ((hworkers w).2.2 hw)
  listed := by
    intro w
    rw [(hworkers w).2.1, Worker.fetchRabbitEvents, hrows]
    exact hinv.listed w
  nodup := by
    intro w
    rw [(hworkers w).2.1]
    exact hinv.nodup w
  account := by
    intro m
    have hsent : t.sentBy drainer = s.sentBy drainer := by
      cases drainer with
      | none => rfl
      | some w => exact (hworkers w).1
    rw [handovers_snoc_other (hposted m), changes_snoc_other hchange, hsent, outbox,
      Worker.fetchRabbitEvents, hrows]
    exact hinv.account m

variable [DecidableEq W]

/-- A run of the worker moves on with the batch it has. -/
theorem Announced.move (hinv : Announced h s drainer) {w : W} {held pc : WorkerPc} {sh : Shared}
    {x : Event W B A} (hheld : s.workers w = held)
    (hposted : ∀ m, x.handover? ≠ some (.posted, m)) (hchange : x.change? = none)
    (hrows : sh.pg.db.rabbitEventRows = s.shared.pg.db.rabbitEventRows)
    (hsent : pc.sent = held.sent) (hbatch : pc.batch = held.batch)
    (hdraining : pc.isDraining = true → held.isDraining = true) :
    Announced (h ++ [x]) { s with shared := sh, workers := Function.update s.workers w pc }
      drainer := by
  refine hinv.kept hposted hchange hrows ?_
  rw [Function.forall_update_iff s.workers fun w pc => pc.sent = (s.workers w).sent ∧
    pc.batch = (s.workers w).batch ∧ (pc.isDraining = true → (s.workers w).isDraining = true)]
  rw [hheld]
  exact ⟨⟨hsent, hbatch, hdraining⟩, fun _ _ => ⟨rfl, rfl, id⟩⟩

/-- A gated change that commits is one more row of the outbox. -/
theorem Announced.commit (hinv : Announced h s drainer) {w : W} {eventId matchId : ℤ}
    {m : Worker.Match} {todo : List Worker.Match} {db : Db}
    (hheld : s.workers w = .reserved eventId m todo)
    (hnew : eventId ∉ s.shared.pg.db.rabbitEventRows)
    (hrows : db.rabbitEventRows =
      s.shared.pg.db.rabbitEventRows.insert eventId (changeRow matchId)) :
    Announced (h ++ [.worker w (.changed eventId matchId)]) { s with
      shared := s.shared.setDb db
      workers := Function.update s.workers w (.syncing todo) } drainer := by
  have hbatches : ∀ w', (Function.update s.workers w (.syncing todo) w').batch =
      (s.workers w').batch ∧ (Function.update s.workers w (.syncing todo) w').sent =
      (s.workers w').sent ∧ (Function.update s.workers w (.syncing todo) w').isDraining =
      (s.workers w').isDraining := by
    rw [Function.forall_update_iff s.workers fun w' pc => pc.batch = (s.workers w').batch ∧
      pc.sent = (s.workers w').sent ∧ pc.isDraining = (s.workers w').isDraining]
    rw [hheld]
    exact ⟨⟨rfl, rfl, rfl⟩, fun _ _ => ⟨rfl, rfl, rfl⟩⟩
  have hgrows : Worker.fetchRabbitEvents s.shared.pg.db ⊆ Worker.fetchRabbitEvents db := by
    intro ev hev
    obtain ⟨row, hrow, hm⟩ := mem_fetchRabbitEvents.mp hev
    refine mem_fetchRabbitEvents.mpr ⟨row, ?_, hm⟩
    rw [hrows, getElem?_put, if_neg, hrow]
    rintro rfl
    exact hnew (mem_iff_getElem?.mpr ⟨row, hrow⟩)
  refine ⟨?_, ?_, ?_, ?_⟩
  · intro w' hw'
    exact hinv.only w' ((hbatches w').2.2.symm.trans hw')
  · intro w'
    show (Function.update s.workers w (.syncing todo) w').batch ⊆ _
    rw [(hbatches w').1]
    exact List.Subset.trans (hinv.listed w') hgrows
  · intro w'
    show (Function.update s.workers w (.syncing todo) w').batch.Nodup
    rw [(hbatches w').1]
    exact hinv.nodup w'
  · intro m'
    have hsent : World.sentBy { s with
        shared := s.shared.setDb db
        workers := Function.update s.workers w (.syncing todo) } drainer =
        s.sentBy drainer := by
      cases drainer with
      | none => rfl
      | some w' => exact (hbatches w').2.1
    have hcommitted : (Event.worker (B := B) (A := A) w
        (.changed eventId matchId)).change?.map Prod.snd = some matchId := rfl
    have hone : outbox m' db = outbox m' s.shared.pg.db + if matchId = m' then 1 else 0 :=
      outbox_insert hnew hrows m'
    have hsilent : (Event.worker (B := B) (A := A) w (.changed eventId matchId)).handover? ≠
        some (.posted, m') := nofun
    have haccount := hinv.account m'
    rw [handovers_snoc_other hsilent, changes_snoc, hcommitted, hsent, Shared.setDb_db, hone]
    simp only [Option.some.injEq]
    omega

theorem World.sentBy_update (s : World W B A) (w : W) (pc : WorkerPc) (sh : Shared) :
    World.sentBy { s with shared := sh, workers := Function.update s.workers w pc } (some w) =
      pc.sent :=
  congrArg WorkerPc.sent (Function.update_self w pc s.workers)

/-- A drain that starts while there is no other has sent nothing. -/
theorem Announced.read (hinv : Announced h s drainer) {w : W}
    (hturn : ∀ w, (s.workers w).isDraining = false) :
    Announced (h ++ [.worker w .outboxRead]) { s with
      workers := Function.update s.workers w
        (.publishing [] (Worker.fetchRabbitEvents s.shared.pg.db) false) } (some w) where
  only := by
    rw [Function.forall_update_iff s.workers fun w' pc =>
      pc.isDraining = true → some w = some w']
    refine ⟨fun _ => rfl, ?_⟩
    intro w' _ hw'
    rw [hturn w'] at hw'
    cases hw'
  listed := by
    rw [Function.forall_update_iff s.workers fun w' pc =>
      pc.batch ⊆ Worker.fetchRabbitEvents s.shared.pg.db]
    exact ⟨List.Subset.refl _, fun w' _ => hinv.listed w'⟩
  nodup := by
    rw [Function.forall_update_iff s.workers fun w' pc => pc.batch.Nodup]
    exact ⟨nodup_fetchRabbitEvents _, fun w' _ => hinv.nodup w'⟩
  account := by
    intro m
    have hnone : s.sentBy drainer = [] := by
      cases drainer with
      | none => rfl
      | some w' =>
          have hsub := (s.workers w').sent_subset_batch
          rw [WorkerPc.batch_of_not_draining (hturn w')] at hsub
          exact List.sublist_nil.mp hsub
    have haccount := hinv.account m
    rw [hnone] at haccount
    have hsilent : (Event.worker (B := B) (A := A) w .outboxRead).handover? ≠
        some (.posted, m) := nofun
    rw [handovers_snoc_other hsilent, changes_snoc_other rfl, World.sentBy_update]
    exact haccount

/-- The broker takes the next message of the batch. -/
theorem Announced.accept (hinv : Announced h s drainer) {w : W} {done rest : List (ℤ × ℤ)}
    {event : ℤ × ℤ} (hheld : s.workers w = .publishing done (event :: rest) false) :
    Announced (h ++ [.worker w (.accepted event.2)]) { s with
      shared := { s.shared with queue := s.shared.queue ++ [event.2] }
      workers := Function.update s.workers w (.publishing done (event :: rest) true) }
      drainer := by
  have hdrainer : drainer = some w := hinv.only w (by rw [hheld]; rfl)
  refine ⟨?_, ?_, ?_, ?_⟩
  · rw [Function.forall_update_iff s.workers fun w' pc => pc.isDraining = true →
      drainer = some w']
    exact ⟨fun _ => hdrainer, fun w' _ => hinv.only w'⟩
  · rw [Function.forall_update_iff s.workers fun w' pc =>
      pc.batch ⊆ Worker.fetchRabbitEvents s.shared.pg.db]
    have hlisted := hinv.listed w
    rw [hheld] at hlisted
    exact ⟨hlisted, fun w' _ => hinv.listed w'⟩
  · rw [Function.forall_update_iff s.workers fun w' pc => pc.batch.Nodup]
    have hnodup := hinv.nodup w
    rw [hheld] at hnodup
    exact ⟨hnodup, fun w' _ => hinv.nodup w'⟩
  · intro m
    have hposted : (Event.worker (B := B) (A := A) w (.accepted event.2)).handover? =
        some (.posted, event.2) := rfl
    have haccount := hinv.account m
    rw [hdrainer, World.sentBy, Option.elim_some, hheld] at haccount
    rw [handovers_snoc, hposted, changes_snoc_other rfl, hdrainer, World.sentBy_update]
    simp only [WorkerPc.sent, Bool.false_eq_true, if_false, if_true, List.append_nil,
      List.head?_cons, Option.toList_some, List.map_append, List.map_singleton,
      List.count_append, List.count_singleton, Option.some.injEq, Prod.mk.injEq, true_and]
      at haccount ⊢
    simp only [beq_iff_eq]
    omega

/-- A drain that comes to its end takes its batch out of the outbox. -/
theorem Announced.delete (hinv : Announced h s drainer) {w : W} {done : List (ℤ × ℤ)}
    {had : Bool} (hheld : s.workers w = .publishing done [] had) :
    Announced (h ++ [.worker w (.deleted (done.map Prod.fst))]) { s with
      shared := s.shared.setDb
        (Worker.deleteRabbitEvent s.shared.pg.db (done.map Prod.fst))
      workers := Function.update s.workers w .idle } none := by
  have hdrainer : drainer = some w := hinv.only w (by rw [hheld]; rfl)
  have hrest : ∀ w', (Function.update s.workers w .idle w').isDraining = false := by
    rw [Function.forall_update_iff s.workers fun _ pc => pc.isDraining = false]
    refine ⟨rfl, ?_⟩
    intro w' hw'
    by_contra hdraining
    have honly := hinv.only w' (Bool.eq_true_of_not_eq_false hdraining)
    rw [hdrainer] at honly
    exact hw' (Option.some.inj honly).symm
  have hempty : ∀ w', (Function.update s.workers w .idle w').batch = [] := fun w' =>
    WorkerPc.batch_of_not_draining (hrest w')
  refine ⟨?_, ?_, ?_, ?_⟩
  · intro w' hw'
    exact absurd (hw'.symm.trans (hrest w')) nofun
  · intro w'
    show (Function.update s.workers w .idle w').batch ⊆ _
    rw [hempty w']
    exact List.nil_subset _
  · intro w'
    show (Function.update s.workers w .idle w').batch.Nodup
    rw [hempty w']
    exact List.nodup_nil
  · intro m
    have hlisted := hinv.listed w
    have hnodup := hinv.nodup w
    have haccount := hinv.account m
    rw [hheld, WorkerPc.batch, List.append_nil] at hlisted hnodup
    have hsent : (WorkerPc.publishing done [] had).sent = done := by
      cases had <;> simp [WorkerPc.sent]
    rw [hdrainer, World.sentBy, Option.elim_some, hheld, hsent] at haccount
    -- the batch is in the outbox, each row once, so as much leaves it as was sent
    have hleft := outbox_delete hlisted hnodup m
    have hsilent : (Event.worker (B := B) (A := A) w (.deleted (done.map Prod.fst))).handover? ≠
        some (.posted, m) := nofun
    rw [handovers_snoc_other hsilent, changes_snoc_other rfl, Shared.setDb_db,
      World.sentBy, Option.elim_none, List.map_nil, List.count_nil]
    omega

end

/-! ## Whole runs -/

section

variable {h : List (Event W B A)} {s : World W B A} {drainer : Option W}

theorem Announced.start (hs : Initial s) : Announced [] s none where
  only := by
    intro w hw
    rw [hs.workers w] at hw
    cases hw
  listed := by
    intro w
    rw [hs.workers w]
    exact List.nil_subset _
  nodup := by
    intro w
    rw [hs.workers w]
    exact List.nodup_nil
  account := by
    intro m
    have hempty : Worker.fetchRabbitEvents s.shared.pg.db = [] := by
      rw [Worker.fetchRabbitEvents, hs.outbox]
      rfl
    rw [outbox, hempty]
    rfl

/-- What a drain has sent is in the outbox, so there are never more messages than
changes. -/
theorem Announced.posted_le (hinv : Announced h s drainer) (m : ℤ) :
    handovers .posted m h ≤ changes m h := by
  have hsent : ((s.sentBy drainer).map Prod.snd).count m ≤ outbox m s.shared.pg.db := by
    cases drainer with
    | none => exact Nat.zero_le _
    | some w =>
        have hsub := (s.workers w).sent_subset_batch
        obtain ⟨l, hsame, hlisted⟩ := List.subperm_of_subset (hsub.nodup (hinv.nodup w))
          (List.Subset.trans hsub.subset (hinv.listed w))
        have hcount := (hlisted.map Prod.snd).count_le m
        rwa [(hsame.map Prod.snd).count_eq] at hcount
  have haccount := hinv.account m
  omega

theorem Announced.resting (hinv : Announced h s drainer)
    (hrest : ∀ w, (s.workers w).isDraining = false) (m : ℤ) :
    handovers .posted m h + outbox m s.shared.pg.db = changes m h := by
  have hnone : s.sentBy drainer = [] := by
    cases drainer with
    | none => rfl
    | some w =>
        have hsub := (s.workers w).sent_subset_batch
        rw [WorkerPc.batch_of_not_draining (hrest w)] at hsub
        exact List.sublist_nil.mp hsub
  have haccount := hinv.account m
  rwa [hnone] at haccount

end

section

variable [DecidableEq W] [DecidableEq B] [DecidableEq A] {h : List (Event W B A)}
  {s t : World W B A} {drainer : Option W}

/-- **The step lemma.** A step in turn keeps the account of the announcements. -/
theorem Announced.step (hinv : Announced h s drainer) {e : Event W B A} (hturn : InTurn s e)
    (hstep : WorldStep s e t) : ∃ drainer', Announced (h ++ [e]) t drainer' := by
  cases hstep with
  | @worker w e sh pc hw =>
      generalize hheld : s.workers w = held at hw
      cases hw with
      | @competitionsSynced pg n competitions hsync =>
          have hframe := (Worker.syncCompetitions_frame s.shared.pg competitions).1
          rw [hsync] at hframe
          exact ⟨drainer, hinv.move hheld nofun rfl hframe.events rfl rfl id⟩
      | fetched | reserved | outboxEmpty =>
          exact ⟨drainer, hinv.move hheld nofun rfl rfl rfl rfl id⟩
      | @changed eventId matchId m todo db hsync =>
          obtain ⟨_, -, ⟨-, hrow, -, hnew, hrows⟩ | ⟨-, hrow, -⟩⟩ :=
            (Worker.syncMatch_ok hsync).match_
          · obtain rfl := Option.some.inj hrow
            exact ⟨drainer, hinv.commit hheld hnew hrows⟩
          · cases hrow
      | @unchanged eventId m todo db hsync =>
          obtain ⟨_, -, ⟨-, hrow, -⟩ | ⟨-, -, -, hrows⟩⟩ := (Worker.syncMatch_ok hsync).match_
          · cases hrow
          · exact ⟨drainer, hinv.move hheld nofun rfl hrows rfl rfl id⟩
      | outboxRead => exact ⟨some w, hinv.read hturn⟩
      | @accepted done rest event had =>
          cases had with
          | true => exact absurd hheld (hturn done (event :: rest))
          | false => exact ⟨drainer, hinv.accept hheld⟩
      | @confirmed done rest event =>
          refine ⟨drainer, hinv.move hheld nofun rfl rfl ?_ ?_ id⟩
          · simp [WorkerPc.sent]
          · simp [WorkerPc.batch]
      | deleted => exact ⟨none, hinv.delete hheld⟩
      | died =>
          change (s.workers w).isDraining = false at hturn
          rw [hheld] at hturn
          refine ⟨drainer, hinv.move hheld nofun rfl rfl ?_ ?_ nofun⟩
          · have hsub := held.sent_subset_batch
            rw [WorkerPc.batch_of_not_draining hturn] at hsub
            exact (List.sublist_nil.mp hsub).symm
          · exact (WorkerPc.batch_of_not_draining hturn).symm
  | @brain b e sh pc hb =>
      have hsilent : ∀ m, (Event.brain (W := W) (A := A) b e).handover? ≠ some (.posted, m) := by
        intro m
        cases e <;> nofun
      exact ⟨drainer, hinv.kept hsilent rfl hb.frame.2.1 fun _ => ⟨rfl, rfl, id⟩⟩
  | request hq =>
      exact ⟨drainer, hinv.kept nofun rfl (congrArg (·.db.rabbitEventRows) hq.frame.1)
        fun _ => ⟨rfl, rfl, id⟩⟩
  | env he => exact ⟨drainer, hinv.kept nofun rfl he.frame.2.1 fun _ => ⟨rfl, rfl, id⟩⟩

theorem announced_of_run (hs : Initial s) (hr : (inTurn W B A).Steps s h t) :
    ∃ drainer, Announced h t drainer := by
  refine hr.invariant (P := fun h t => ∃ drainer, Announced h t drainer) ⟨none, .start hs⟩ ?_
  rintro h t e t' - ⟨drainer, hinv⟩ ⟨hstep, hturn⟩
  exact hinv.step hturn hstep

/-- **Announced once.** When drains take turns and none is cut off, no change is announced
twice; and whenever no drain is on its way, each change of a match is in the outbox, or it
is one message: in the queue, with a consumer, acknowledged or rejected. -/
theorem changes_announced_once (hs : Initial s) (hr : (inTurn W B A).Steps s h t) (m : ℤ) :
    handovers .posted m h ≤ changes m h ∧
      ((∀ w, (t.workers w).isDraining = false) →
        s.shared.queue.count m + changes m h =
          outbox m t.shared.pg.db + t.shared.queue.count m + (holders m t).ncard +
            handovers .settled m h + handovers .cancelled m h) := by
  obtain ⟨drainer, hinv⟩ := announced_of_run hs hr
  refine ⟨hinv.posted_le m, ?_⟩
  intro hrest
  have hposted := hinv.resting hrest m
  have hqueue := queue_balance hr.of_restrict m
  obtain ⟨-, hheld⟩ := deliveries_balance hs hr.of_restrict m
  omega

/-- **The spend follows the changes.** When drains take turns and none is cut off, the
language model is asked about a match at most once for every message there was, every
change and every message a dying consumer gave back. -/
theorem spend_follows_changes (hs : Initial s) (hr : (inTurn W B A).Steps s h t) (m : ℤ) :
    asked m h ≤ s.shared.queue.count m + changes m h + handovers .returned m h := by
  obtain ⟨drainer, hinv⟩ := announced_of_run hs hr
  have hposted := hinv.posted_le m
  have hasked := asked_le_deliveries hs hr.of_restrict m
  have hqueue := queue_balance hr.of_restrict m
  omega

end

/-! ### The first change of a league -/

theorem inTurn_next {s start : World Unit Unit Unit} {h : List (Event Unit Unit Unit)}
    {sh sh' : Shared} {pc pc' : WorkerPc} {e : WorkerEvent}
    (hr : (inTurn Unit Unit Unit).Steps start h (s.setWorker () (sh, pc)))
    (hstep : WorkerStep sh pc e sh' pc') (hturn : InTurn (s.setWorker () (sh, pc)) (.worker () e)) :
    (inTurn Unit Unit Unit).Steps start (h ++ [.worker () e]) (s.setWorker () (sh', pc')) :=
  hr.next ⟨World.step_setWorker s () hstep, hturn⟩

/-- The run that commits the first change and announces it. -/
def firstAnnouncement : List WorkerEvent :=
  [.competitionsSynced, .fetched [Worker.fixturePayload 1 "SCHEDULED"], .reserved 1,
    .changed 1 1, .outboxRead, .accepted 1, .confirmed 1, .deleted [1]]

theorem firstAnnouncement_steps :
    (inTurn Unit Unit Unit).Steps (.atRest ⟨Worker.freshLeague, [], ∅⟩)
      (firstAnnouncement.map (.worker ()))
      ((World.atRest ⟨Worker.freshLeague, [], ∅⟩).setWorker ()
        (⟨⟨Worker.deleteRabbitEvent Brain.newLeague [1], 2⟩, [1], ∅⟩, .idle)) := by
  have hevents : Worker.fetchRabbitEvents Brain.newLeague = [(1, 1)] := by
    decide +kernel
  have hstart := System.Steps.refl (S := inTurn Unit Unit Unit)
    (World.atRest ⟨Worker.freshLeague, [], ∅⟩)
  rw [← World.setWorker_self (World.atRest ⟨Worker.freshLeague, [], ∅⟩) ()] at hstart
  have hsynced := inTurn_next hstart (.competitionsSynced [] rfl) trivial
  have hfetched := inTurn_next hsynced (.fetched [Worker.fixturePayload 1 "SCHEDULED"]) trivial
  have hreserved := inTurn_next hfetched .reserved trivial
  have hchanged := inTurn_next hreserved (.changed firstChange_committed) trivial
  have hread := inTurn_next hchanged (.outboxRead (by simp [hevents])) fun _ => rfl
  simp only [Shared.setDb_db, hevents] at hread
  have haccepted := inTurn_next hread .accepted nofun
  have hconfirmed := inTurn_next haccepted .confirmed trivial
  exact inTurn_next hconfirmed .deleted trivial

theorem firstAnnouncement_counts :
    changes 1 (firstAnnouncement.map (.worker ()) : List (Event Unit Unit Unit)) = 1 ∧
      ∀ k ∈ [Handover.settled, .cancelled, .returned],
        handovers k 1 (firstAnnouncement.map (.worker ()) : List (Event Unit Unit Unit)) = 0 := by
  decide

/-- The message is all there is of the change. -/
theorem first_change_is_one_message :
    outbox 1 (Worker.deleteRabbitEvent Brain.newLeague [1]) = 0 := by
  have honce := (changes_announced_once initial_freshLeague firstAnnouncement_steps 1).2
    fun _ => rfl
  have hqueue : ((World.atRest ⟨Worker.freshLeague, [], ∅⟩ : World Unit Unit Unit).setWorker ()
      (⟨⟨Worker.deleteRabbitEvent Brain.newLeague [1], 2⟩, [1], ∅⟩, .idle)).shared.queue.count 1 =
      1 := rfl
  have hempty : (World.atRest ⟨Worker.freshLeague, [], ∅⟩ : World Unit Unit Unit).shared.queue.count
      1 = 0 := rfl
  rw [firstAnnouncement_counts.1, hqueue, hempty] at honce
  change _ = outbox 1 (Worker.deleteRabbitEvent Brain.newLeague [1]) + _ + _ + _ + _ at honce
  omega

theorem first_change_is_asked_once :
    asked 1 (firstAnnouncement.map (.worker ()) : List (Event Unit Unit Unit)) ≤ 1 := by
  have hspend := spend_follows_changes initial_freshLeague firstAnnouncement_steps 1
  rwa [firstAnnouncement_counts.1, firstAnnouncement_counts.2 .returned (by decide)] at hspend

end AGame.Pipeline
