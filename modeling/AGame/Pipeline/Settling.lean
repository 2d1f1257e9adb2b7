import AGame.Base.Settling
import AGame.Pipeline.Accounts

/-!
# The pipeline comes to rest

Left alone, the pipeline does not go on for ever: no retry loop feeds on itself, and a
job that fails is not put back. Whatever the parties were doing and however they get in
each other's way, they come to rest with an empty queue, and every message that was
under way has been acknowledged once.
-/

namespace AGame.Pipeline

open Base Engine Brain

variable {W B A : Type}

/-! ## Weights -/

/-- What is left to do: runs that have yet to fetch, then matches to sync and outboxes to
read, then steps. -/
abbrev Work := ℕ ×ₗ ℕ ×ₗ ℕ

def Work.of (fetches syncs steps : ℕ) : Work := toLex (fetches, toLex (syncs, steps))

theorem Work.of_add (a b c a' b' c' : ℕ) :
    Work.of a b c + Work.of a' b' c' = Work.of (a + a') (b + b') (c + c') := rfl

theorem Work.of_lt {a b c a' b' c' : ℕ} :
    Work.of a b c < Work.of a' b' c' ↔ a < a' ∨ a = a' ∧ (b < b' ∨ b = b' ∧ c < c') := by
  simp [Work.of, Prod.Lex.toLex_lt_toLex]

/-- A message that is ready has a whole job before it. -/
def queueWeight (queue : List ℤ) : ℕ := 8 * queue.length

def publishWeight : List (ℤ × ℤ) → Bool → ℕ
  | [], _ => 1
  | _ :: rest, true => 10 * rest.length + 2
  | _ :: rest, false => 10 * rest.length + 11

def WorkerPc.weight : WorkerPc → Work
  | .idle => Work.of 0 0 0
  | .fetching => Work.of 1 0 0
  | .syncing todo => Work.of 0 (2 * todo.length + 1) 0
  | .reserved _ _ todo => Work.of 0 (2 * todo.length + 2) 0
  | .publishing _ rest had => Work.of 0 0 (publishWeight rest had)

def BrainPc.weight : BrainPc → ℕ
  | .waiting => 0
  | .delivered _ => 7
  | .matched _ _ => 6
  | .trained _ _ _ _ => 5
  | .previewed _ _ _ _ => 4
  | .committed _ _ => 2
  | .finished _ => 1

def RequestPc.weight : RequestPc → ℕ
  | .idle => 0
  | .started _ => 4
  | .missed _ => 3
  | .backfilling _ _ => 2
  | .answering _ _ => 1

/-- Everybody's work. -/
noncomputable def World.work (s : World W B A) : Work :=
  (∑ᶠ w, (s.workers w).weight) + Work.of 0 0 (queueWeight s.shared.queue +
    (∑ᶠ b, (s.brains b).weight) + ∑ᶠ r, (s.requests r).weight)

theorem publishWeight_pos (rest : List (ℤ × ℤ)) (had : Bool) : 0 < publishWeight rest had := by
  unfold publishWeight
  split <;> omega

/-! ## Nothing from outside -/

/-- No run and no request starts, nobody at rest moves, nobody is killed, the broker takes
no message twice, and the rest of the world holds still. -/
def Undisturbed (s : World W B A) : Event W B A → Prop
  | .worker _ .competitionsSynced => False
  | .worker w (.accepted _) => ∀ done rest, s.workers w ≠ .publishing done rest true
  | .worker w .died => s.workers w ≠ .idle
  | .brain _ (.crashed _) => False
  | .brain _ (.cancelled _) => False
  | .request _ (.started _) => False
  | .request r .failed => s.requests r ≠ .idle
  | .env _ => False
  | _ => True

/-- The pipeline left alone. -/
def calm (W B A : Type) [DecidableEq W] [DecidableEq B] [DecidableEq A] :
    System (World W B A) (Event W B A) :=
  (pipeline W B A).restrict fun s e _ => Undisturbed s e

/-! ### One party -/

section

variable {s : World W B A}

theorem WorkerStep.lighter {w : W} {e : WorkerEvent} {sh : Shared} {pc : WorkerPc}
    (hstep : WorkerStep s.shared (s.workers w) e sh pc)
    (hcalm : Undisturbed s (.worker w e)) :
    pc.weight + Work.of 0 0 (queueWeight sh.queue) <
      (s.workers w).weight + Work.of 0 0 (queueWeight s.shared.queue) := by
  generalize hheld : s.workers w = held at hstep ⊢
  cases hstep with
  | competitionsSynced => exact hcalm.elim
  | fetched | reserved | changed | unchanged | outboxRead | outboxEmpty =>
      simp only [WorkerPc.weight, Work.of_add, Work.of_lt, Shared.setDb_queue, List.length_cons,
        true_and]
      omega
  | @accepted done rest event had =>
      cases had with
      | true => exact absurd hheld (hcalm done (event :: rest))
      | false =>
          simp only [WorkerPc.weight, publishWeight, queueWeight, Work.of_add, Work.of_lt, true_and,
            List.length_append, List.length_singleton]
          omega
  | @confirmed done rest event =>
      have hrest : publishWeight rest false < publishWeight (event :: rest) true := by
        cases rest with
        | nil => exact Nat.one_lt_two
        | cons event' rest =>
            simp only [publishWeight, List.length_cons]
            omega
      simp only [WorkerPc.weight, Work.of_add, Work.of_lt, true_and]
      omega
  | deleted =>
      simp only [WorkerPc.weight, publishWeight, Work.of_add, Work.of_lt, Shared.setDb_queue,
        true_and]
      omega
  | died =>
      cases held with
      | idle => exact absurd hheld hcalm
      | fetching | syncing | reserved =>
          simp only [WorkerPc.weight, Work.of_add, Work.of_lt, true_and]
          omega
      | publishing done rest had =>
          have hpos := publishWeight_pos rest had
          simp only [WorkerPc.weight, Work.of_add, Work.of_lt, true_and]
          omega

theorem BrainStep.lighter {b : B} {e : BrainEvent} {sh : Shared} {pc : BrainPc}
    (hstep : BrainStep s.shared (s.brains b) e sh pc)
    (hcalm : Undisturbed s (.brain b e)) :
    pc.weight + queueWeight sh.queue < (s.brains b).weight + queueWeight s.shared.queue := by
  generalize s.brains b = held at hstep ⊢
  cases hstep with
  | crashed | cancelled => exact hcalm.elim
  | delivered hqueue =>
      rw [hqueue]
      simp only [BrainPc.weight, queueWeight, List.length_append, List.length_cons]
      omega
  | raised hmessage hraises =>
      cases hraises with
      | fetchMatch | fetchHistory | preview | store =>
          simp only [BrainPc.weight]
          omega
  | @stored m fixture values preview db hrows =>
      cases preview with
      | none | some =>
          simp only [afterCommit, BrainPc.weight, Shared.setDb_queue]
          omega
  | absent | matched | trained | previewed | warmed | warmFailed | settled =>
      simp only [BrainPc.weight]
      omega

theorem RequestStep.lighter {r : A} {e : RequestEvent} {sh : Shared} {pc : RequestPc}
    (hstep : RequestStep s.shared (s.requests r) e sh pc)
    (hcalm : Undisturbed s (.request r e)) : pc.weight < (s.requests r).weight := by
  generalize hheld : s.requests r = held at hstep ⊢
  cases hstep with
  | started => exact hcalm.elim
  | failed =>
      cases held with
      | idle => exact absurd hheld hcalm
      | started | missed | backfilling | answering =>
          simp only [RequestPc.weight]
          omega
  | hit | missed | absent | read | backfilled | direct | answered =>
      simp only [RequestPc.weight]
      omega

end

/-! ### Everybody -/

/-- Few are at work: a run has moved finitely many. -/
structure FewAtWork (s : World W B A) : Prop where
  workers : {w | s.workers w ≠ .idle}.Finite
  brains : {b | s.brains b ≠ .waiting}.Finite
  requests : {r | s.requests r ≠ .idle}.Finite

section

variable [DecidableEq W] [DecidableEq B] [DecidableEq A] {s t : World W B A} {e : Event W B A}

theorem FewAtWork.step (hfew : FewAtWork s) (hstep : WorldStep s e t) : FewAtWork t := by
  cases hstep with
  | worker => exact ⟨atWork_moved hfew.workers _ _, hfew.brains, hfew.requests⟩
  | brain => exact ⟨hfew.workers, atWork_moved hfew.brains _ _, hfew.requests⟩
  | request => exact ⟨hfew.workers, hfew.brains, atWork_moved hfew.requests _ _⟩
  | env => exact ⟨hfew.workers, hfew.brains, hfew.requests⟩

theorem fewAtWork_of_run {h : List (Event W B A)} (hr : (pipeline W B A).Run h s) :
    FewAtWork s := by
  refine hr.invariant (P := fun _ s => FewAtWork s) ?_ fun _ _ _ _ _ hfew hstep => hfew.step hstep
  intro s hs
  constructor
  · simp [hs.workers]
  · simp [hs.brains]
  · simp [hs.requests]

/-- **One step less to do**, whoever takes it. -/
theorem work_step (hfew : FewAtWork s) (hstep : (calm W B A).step s e t) :
    t.work < s.work := by
  obtain ⟨hstep, hcalm⟩ := hstep
  cases hstep with
  | @worker w e sh pc hw =>
      have hmoved := weight_moved WorkerPc.weight rfl hfew.workers w pc
      have hlighter := hw.lighter hcalm
      let others := (∑ᶠ b, (s.brains b).weight) + ∑ᶠ r, (s.requests r).weight
      have hsplit : ∀ queue : List ℤ, Work.of 0 0 (queueWeight queue +
          (∑ᶠ b, (s.brains b).weight) + ∑ᶠ r, (s.requests r).weight) =
            Work.of 0 0 (queueWeight queue) + Work.of 0 0 others := by
        intro queue
        rw [Work.of_add, add_assoc]
      refine lt_of_add_lt_add_right (a := (s.workers w).weight) ?_
      calc (∑ᶠ x, (Function.update s.workers w pc x).weight) + Work.of 0 0 _ + (s.workers w).weight
          = (∑ᶠ x, (s.workers x).weight) +
              (pc.weight + Work.of 0 0 (queueWeight sh.queue) + Work.of 0 0 others) := by
            rw [hsplit, add_right_comm, hmoved]
            ac_rfl
        _ < (∑ᶠ x, (s.workers x).weight) + ((s.workers w).weight +
              Work.of 0 0 (queueWeight s.shared.queue) + Work.of 0 0 others) :=
            add_lt_add_right (add_lt_add_left hlighter _) _
        _ = s.work + (s.workers w).weight := by
            rw [World.work, hsplit]
            ac_rfl
  | @brain b e sh pc hb =>
      have hmoved := weight_moved BrainPc.weight rfl hfew.brains b pc
      have hlighter := hb.lighter hcalm
      show _ + Work.of 0 0 _ < _ + Work.of 0 0 _
      refine add_lt_add_right ?_ _
      simp only [Work.of_lt, true_and]
      omega
  | @request r e sh pc hq =>
      have hmoved := weight_moved RequestPc.weight rfl hfew.requests r pc
      have hlighter := hq.lighter hcalm
      show _ + Work.of 0 0 _ < _ + Work.of 0 0 _
      refine add_lt_add_right ?_ _
      simp only [Work.of_lt, true_and, hq.frame.2]
      omega
  | env => exact hcalm.elim

/-! ## Where it ends -/

/-- Who is at work can move. -/
theorem atRest_of_stuck (hstuck : (calm W B A).Stuck t) : t = .atRest t.shared := by
  have hworkers : ∀ w, t.workers w = .idle := by
    intro w
    by_contra hw
    exact hstuck (.worker w .died) _ ⟨.worker .died, hw⟩
  have hbrains : ∀ b, t.brains b = .waiting := by
    intro b
    have hnone : ∀ e sh pc, BrainStep t.shared (t.brains b) e sh pc →
        ¬ Undisturbed t (.brain b e) :=
      fun e sh pc hb hcalm => hstuck (.brain b e) _ ⟨.brain hb, hcalm⟩
    cases hpc : t.brains b with
    | waiting => rfl
    | delivered | matched | trained | previewed =>
        rw [hpc] at hnone
        exact (hnone _ _ _ (.raised rfl (raises_of_beforeCommit _ rfl)) trivial).elim
    | committed =>
        rw [hpc] at hnone
        exact (hnone _ _ _ .warmed trivial).elim
    | finished =>
        rw [hpc] at hnone
        exact (hnone _ _ _ .settled trivial).elim
  have hrequests : ∀ r, t.requests r = .idle := by
    intro r
    by_contra hr
    exact hstuck (.request r .failed) _ ⟨.request .failed, hr⟩
  obtain ⟨sh, workers, brains, requests⟩ := t
  obtain rfl : workers = fun _ => .idle := funext hworkers
  obtain rfl : brains = fun _ => .waiting := funext hbrains
  obtain rfl : requests = fun _ => .idle := funext hrequests
  rfl

/-- A message that is ready finds a consumer. -/
theorem queue_of_stuck [Nonempty B] (hstuck : (calm W B A).Stuck t) : t.shared.queue = [] := by
  obtain ⟨b⟩ := ‹Nonempty B›
  have hwaiting : t.brains b = .waiting := by
    rw [atRest_of_stuck hstuck]
    rfl
  by_contra hqueue
  obtain ⟨m, post, hqueue⟩ := List.exists_cons_of_ne_nil hqueue
  have hfirst : t.shared.queue = [] ++ m :: post := hqueue
  have hdelivered : BrainStep t.shared (t.brains b) (.delivered m)
      { t.shared with queue := post } (.delivered m) := by
    rw [hwaiting]
    exact .delivered hfirst
  exact hstuck (.brain b (.delivered m)) _ ⟨.brain hdelivered, trivial⟩

/-- Nothing is put back or rejected. -/
theorem handovers_calm {k : List (Event W B A)} (hk : (calm W B A).Steps s k t) (m : ℤ) :
    handovers .cancelled m k = 0 ∧ handovers .returned m k = 0 := by
  refine hk.invariant (P := fun k _ => handovers .cancelled m k = 0 ∧
    handovers .returned m k = 0) ⟨rfl, rfl⟩ ?_
  rintro k t e t' - ⟨hcancelled, hreturned⟩ ⟨-, hcalm⟩
  have hkinds : Event.hands .cancelled m e = false ∧ Event.hands .returned m e = false := by
    cases e with
    | worker w e => cases e <;> exact ⟨rfl, rfl⟩
    | brain b e =>
        cases e with
        | crashed | cancelled => exact hcalm.elim
        | delivered | absent | matched | trained | previewed | stored | warmed | warmFailed
        | raised | settled => simp [Event.hands, Event.handover?]
    | request | env => exact ⟨rfl, rfl⟩
  unfold handovers at *
  rw [List.countP_append, List.countP_append, hcancelled, hreturned]
  simp [hkinds.1, hkinds.2]

/-- **The pipeline comes to rest.** From a reachable state, with at least one consumer:
no undisturbed run goes on for ever, every undisturbed run can be continued to one that
ends, and where one ends everybody is at rest, the queue is empty, and of every match as
many messages have been acknowledged as were ready, in hand or posted meanwhile. -/
theorem pipeline_comes_to_rest [Nonempty B] {h : List (Event W B A)}
    (hr : (pipeline W B A).Run h s) :
    ¬ (calm W B A).Endless s ∧
      (∀ k t, (calm W B A).Steps s k t → ∃ k' t', (calm W B A).Steps t k' t' ∧
        (calm W B A).Stuck t') ∧
      ∀ k t, (calm W B A).Steps s k t → (calm W B A).Stuck t →
        t = .atRest t.shared ∧ t.shared.queue = [] ∧
          ∀ m, handovers .settled m k =
            s.shared.queue.count m + (holders m s).ncard + handovers .posted m k := by
  have hfew := fewAtWork_of_run hr
  have hkept : ∀ s e t, FewAtWork s → (calm W B A).step s e t → FewAtWork t :=
    fun _ _ _ hfew hstep => hfew.step hstep.1
  have hlower : ∀ s e t, FewAtWork s → (calm W B A).step s e t → t.work < s.work :=
    fun _ _ _ => work_step
  refine ⟨System.not_endless hkept hlower hfew, ?_, ?_⟩
  · intro k t hk
    exact System.exists_stuck hkept hlower (hk.kept hkept hfew)
  · intro k t hk hstuck
    have hrest := atRest_of_stuck hstuck
    have hempty := queue_of_stuck hstuck
    refine ⟨hrest, hempty, fun m => ?_⟩
    obtain ⟨hcancelled, hreturned⟩ := handovers_calm hk m
    have hqueue := queue_balance hk.of_restrict m
    have hheld := holders_balance hk.of_restrict m
    have hnone : holders m t = ∅ := by
      rw [hrest]
      exact Set.eq_empty_of_forall_notMem fun b hb => Option.some_ne_none m hb.symm
    have hfinite : (holders m s).Finite := by
      refine hfew.brains.subset fun b hb hwaiting => ?_
      rw [holders, Set.mem_ofPred_eq, hwaiting] at hb
      cases hb
    rw [hempty, List.count_nil, hreturned] at hqueue
    rw [hnone, Set.encard_empty, hcancelled, hreturned, ← hfinite.cast_ncard_eq] at hheld
    have hheld' : handovers .settled m k = (holders m s).ncard + handovers .delivered m k := by
      rw [Nat.cast_zero, add_zero, add_zero, zero_add] at hheld
      exact_mod_cast hheld
    omega

end

/-- Two messages for a fixture, left alone, are both acknowledged. -/
theorem two_messages_settle : ∃ (k : List (Event Unit Unit Unit)) (t : World Unit Unit Unit),
    (calm Unit Unit Unit).Steps (.atRest (fixtureQueue [1, 1])) k t ∧ t = .atRest t.shared ∧
      handovers .settled 1 k = 2 + handovers .posted 1 k := by
  obtain ⟨-, hends, hend⟩ := pipeline_comes_to_rest (W := Unit) (B := Unit) (A := Unit)
    (.start (initial_fixtureQueue [1, 1]))
  obtain ⟨k, t, hk, hstuck⟩ := hends _ _ (.refl _)
  obtain ⟨hrest, -, hsettled⟩ := hend k t hk hstuck
  refine ⟨k, t, hk, hrest, ?_⟩
  have hnobody : holders 1 (World.atRest (fixtureQueue [1, 1]) : World Unit Unit Unit) = ∅ :=
    Set.eq_empty_of_forall_notMem fun b hb => Option.some_ne_none _ hb.symm
  have hboth := hsettled 1
  rw [hnobody, Set.ncard_empty] at hboth
  exact hboth

end AGame.Pipeline
