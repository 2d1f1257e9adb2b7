import AGame.Base.Accounts
import AGame.Pipeline.Jobs

/-!
# The account of the messages

A message the broker takes is in the queue, with a consumer, acknowledged or
rejected, and in one of these places once: nothing the consumers do loses or
doubles it (`messages_conserved`). What a job asks of the language model is
bounded by the deliveries.
-/

namespace AGame.Pipeline

open Base Engine Brain

variable {W B A : Type}

/-! ## What happens to a message -/

inductive Handover where
  /-- The broker takes it. -/
  | posted
  | delivered
  /-- It is acknowledged. -/
  | settled
  /-- It is rejected. -/
  | cancelled
  /-- It goes back to the queue. -/
  | returned
deriving DecidableEq, Repr

/-- The message an event hands over, and how. -/
def Event.handover? : Event W B A → Option (Handover × ℤ)
  | .worker _ (.accepted m) => some (.posted, m)
  | .brain _ (.delivered m) => some (.delivered, m)
  | .brain _ (.settled m) => some (.settled, m)
  | .brain _ (.cancelled m) => some (.cancelled, m)
  | .brain _ (.crashed m) => some (.returned, m)
  | _ => none

def Event.hands (k : Handover) (m : ℤ) (e : Event W B A) : Bool :=
  decide (e.handover? = some (k, m))

/-- How often messages for `m` were handed over in this way. -/
def handovers (k : Handover) (m : ℤ) (h : List (Event W B A)) : ℕ := h.countP (Event.hands k m)

/-- The consumers that hold a message for `m`. -/
def holders (m : ℤ) (s : World W B A) : Set B := {b | (s.brains b).message = some m}

section

variable {γ : Type*} [AddCommMonoidWithOne γ] {e : Event W B A}

theorem indicator_handover {k : Handover} {m : ℤ} (h : e.handover? = some (k, m))
    (k' : Handover) (m' : ℤ) :
    indicator γ (Event.hands k' m') e = if k = k' ∧ m = m' then 1 else 0 := by
  simp [indicator, Event.hands, h]

theorem indicator_no_handover (h : e.handover? = none) (k : Handover) (m : ℤ) :
    indicator γ (Event.hands k m) e = 0 := by
  simp [indicator, Event.hands, h]

theorem sum_hands (k : Handover) (m : ℤ) (h : List (Event W B A)) :
    (h.map (indicator γ (Event.hands k m))).sum = (handovers k m h : γ) :=
  sum_indicator _ h

end

/-! ## The steps -/

/-- What one step of a consumer does to the queue and to the message it holds. -/
inductive BrainMove (sh sh' : Shared) (pc pc' : BrainPc) : Option (Handover × ℤ) → Prop
  | stays : sh'.queue = sh.queue → pc'.message = pc.message → BrainMove sh sh' pc pc' none
  | takes {m : ℤ} {pre post : List ℤ} : sh.queue = pre ++ m :: post → sh'.queue = pre ++ post →
      pc.message = none → pc'.message = some m → BrainMove sh sh' pc pc' (some (.delivered, m))
  | settles {m : ℤ} : sh'.queue = sh.queue → pc.message = some m → pc'.message = none →
      BrainMove sh sh' pc pc' (some (.settled, m))
  | drops {m : ℤ} : sh'.queue = sh.queue → pc.message = some m → pc'.message = none →
      BrainMove sh sh' pc pc' (some (.cancelled, m))
  | returns {m : ℤ} : sh'.queue = m :: sh.queue → pc.message = some m → pc'.message = none →
      BrainMove sh sh' pc pc' (some (.returned, m))

theorem BrainStep.move {sh sh' : Shared} {pc pc' : BrainPc} {e : BrainEvent}
    (h : BrainStep sh pc e sh' pc') (b : B) :
    BrainMove sh sh' pc pc' (Event.brain (W := W) (A := A) b e).handover? := by
  cases h with
  | delivered hqueue => exact .takes hqueue rfl rfl rfl
  | settled => exact .settles rfl rfl rfl
  | crashed hmessage => exact .returns rfl hmessage rfl
  | cancelled hmessage => exact .drops rfl hmessage rfl
  | @stored m fixture values preview db hrows =>
      refine .stays rfl ?_
      cases preview with
      | none => rfl
      | some c => rfl
  | raised hmessage _ => exact .stays rfl hmessage.symm
  | absent | matched | trained | previewed | warmed | warmFailed => exact .stays rfl rfl

/-- A job for `m` has trained and goes on to its preview. -/
def Event.asks (m : ℤ) : Event W B A → Bool
  | .brain _ (.trained m' _ _ _) => decide (m' = m)
  | _ => false

/-- How often the language model may have been asked about `m`. -/
def asked (m : ℤ) (h : List (Event W B A)) : ℕ := h.countP (Event.asks m)

/-- A job for `m` that has not come to its preview. -/
def BrainPc.beforePreview (m : ℤ) : BrainPc → Bool
  | .delivered m' | .matched m' _ => decide (m' = m)
  | .waiting | .trained _ _ _ _ | .previewed _ _ _ _ | .committed _ _ | .finished _ => false

/-- A job asks once, and a delivery starts one job. -/
theorem BrainStep.asks {sh sh' : Shared} {pc pc' : BrainPc} {e : BrainEvent}
    (h : BrainStep sh pc e sh' pc') (b : B) (m : ℤ) :
    ((if pc'.beforePreview m then 1 else 0) : ℕ∞) +
        indicator ℕ∞ (Event.asks m) (Event.brain (W := W) (A := A) b e) ≤
      (if pc.beforePreview m then 1 else 0) +
        indicator ℕ∞ (Event.hands .delivered m) (Event.brain (W := W) (A := A) b e) := by
  have hsilent : ∀ {n : ℕ∞}, pc'.beforePreview m = false →
      indicator ℕ∞ (Event.asks m) (Event.brain (W := W) (A := A) b e) = 0 →
      ((if pc'.beforePreview m then 1 else 0) : ℕ∞) +
        indicator ℕ∞ (Event.asks m) (Event.brain (W := W) (A := A) b e) ≤ n := by
    intro n hafter hasks
    rw [hafter, hasks, if_neg Bool.false_ne_true, add_zero]
    exact zero_le
  cases h with
  | delivered hqueue => simp [indicator, Event.hands, Event.handover?, Event.asks,
      BrainPc.beforePreview]
  | matched hfetch => simp [indicator, Event.hands, Event.handover?, Event.asks,
      BrainPc.beforePreview]
  | trained now => simp [indicator, Event.hands, Event.handover?, Event.asks,
      BrainPc.beforePreview]
  | @stored m' fixture values preview db hrows =>
      cases preview with
      | none => exact hsilent rfl rfl
      | some c => exact hsilent rfl rfl
  | absent | previewed | warmed | warmFailed | raised | settled | crashed | cancelled =>
      exact hsilent rfl rfl

section

variable [DecidableEq W] [DecidableEq B] [DecidableEq A] {s t : World W B A} {e : Event W B A}

/-- The queue books what is posted and put back, and what is delivered. -/
theorem queue_step (hstep : WorldStep s e t) (m : ℤ) :
    t.shared.queue.count m + indicator ℕ (Event.hands .delivered m) e =
      s.shared.queue.count m +
        (indicator ℕ (Event.hands .posted m) e + indicator ℕ (Event.hands .returned m) e) := by
  have hsame : ∀ {sh : Shared}, e.handover? = none → sh.queue = s.shared.queue →
      sh.queue.count m + indicator ℕ (Event.hands .delivered m) e =
        s.shared.queue.count m +
          (indicator ℕ (Event.hands .posted m) e + indicator ℕ (Event.hands .returned m) e) := by
    intro sh hnone hqueue
    rw [indicator_no_handover hnone, indicator_no_handover hnone, indicator_no_handover hnone,
      hqueue, add_zero, add_zero, add_zero]
  cases hstep with
  | @worker w e sh pc hw =>
      generalize s.workers w = held at hw
      cases hw with
      | @accepted done rest event had =>
          have hposted : (Event.worker (B := B) (A := A) w (.accepted event.2)).handover? =
              some (.posted, event.2) := rfl
          simp only [indicator_handover hposted, List.count_append, List.count_singleton]
          simp
      | competitionsSynced | fetched | reserved | changed | unchanged | outboxRead | outboxEmpty
      | confirmed | deleted | died => exact hsame rfl rfl
  | @brain b e sh pc hb =>
      have hmove := hb.move (W := W) (A := A) b
      generalize hhands : (Event.brain (W := W) (A := A) b e).handover? = hands at hmove
      cases hmove with
      | stays hqueue _ => exact hsame hhands hqueue
      | takes hbefore hafter _ _ =>
          simp only [indicator_handover hhands]
          rw [hbefore, hafter, List.count_append, List.count_append, List.count_cons]
          simp
          omega
      | settles hqueue _ _ | drops hqueue _ _ =>
          simp only [indicator_handover hhands]
          rw [hqueue]
          simp
      | returns hqueue _ _ =>
          simp only [indicator_handover hhands]
          rw [hqueue, List.count_cons]
          simp
  | request hq => exact hsame rfl hq.frame.2
  | env he => exact hsame rfl he.frame.1

/-- The consumers book what is delivered, and what leaves them in one of three ways. -/
theorem holders_step (hstep : WorldStep s e t) (m : ℤ) :
    (holders m t).encard + (indicator ℕ∞ (Event.hands .settled m) e +
        indicator ℕ∞ (Event.hands .cancelled m) e + indicator ℕ∞ (Event.hands .returned m) e) =
      (holders m s).encard + indicator ℕ∞ (Event.hands .delivered m) e := by
  cases hstep with
  | @worker w e sh pc hw =>
      have hother : ∀ k, k ≠ .posted →
          indicator ℕ∞ (Event.hands k m) (Event.worker (B := B) (A := A) w e) = 0 := by
        intro k hk
        cases e with
        | accepted m' =>
            have hposted : (Event.worker (B := B) (A := A) w (.accepted m')).handover? =
                some (.posted, m') := rfl
            rw [indicator_handover hposted, if_neg fun h => hk h.1.symm]
        | competitionsSynced | fetched | reserved | changed | unchanged | outboxRead
        | outboxEmpty | confirmed | deleted | died => exact indicator_no_handover rfl k m
      rw [hother .settled nofun, hother .cancelled nofun, hother .returned nofun,
        hother .delivered nofun]
      simp only [add_zero]
      rfl
  | @brain b e sh pc hb =>
      have hmoved :
          (holders m { s with shared := sh, brains := Function.update s.brains b pc }).encard +
            (if (s.brains b).message = some m then 1 else 0) =
          (holders m s).encard + (if pc.message = some m then 1 else 0) :=
        encard_moved (fun pc : BrainPc => pc.message = some m) s.brains b pc
      have hmove := hb.move (W := W) (A := A) b
      generalize hhands : (Event.brain (W := W) (A := A) b e).handover? = hands at hmove
      cases hmove with
      | stays _ hmessage =>
          simp only [indicator_no_handover hhands, add_zero]
          rw [hmessage] at hmoved
          exact ENat.add_left_injective_of_ne_top (by split_ifs <;> simp) hmoved
      | takes _ _ hbefore hafter =>
          simp only [indicator_handover hhands]
          rw [hbefore, hafter] at hmoved
          simpa using hmoved
      | settles _ hbefore hafter | drops _ hbefore hafter | returns _ hbefore hafter =>
          simp only [indicator_handover hhands]
          rw [hbefore, hafter] at hmoved
          simpa using hmoved
  | @request r e sh pc hq =>
      have hnone : (Event.request (W := W) (B := B) r e).handover? = none := rfl
      simp only [indicator_no_handover hnone, add_zero]
      rfl
  | @env e sh he =>
      have hnone : (Event.env (W := W) (B := B) (A := A) e).handover? = none := rfl
      simp only [indicator_no_handover hnone, add_zero]
      rfl

/-! ## Whole runs -/

variable {h : List (Event W B A)}

theorem queue_balance (hr : (pipeline W B A).Steps s h t) (m : ℤ) :
    t.shared.queue.count m + handovers .delivered m h =
      s.shared.queue.count m + (handovers .posted m h + handovers .returned m h) := by
  have hbalance := hr.balance fun _ _ _ hstep => queue_step hstep m
  simpa only [List.sum_map_add, sum_hands, Nat.cast_id] using hbalance

theorem holders_balance (hr : (pipeline W B A).Steps s h t) (m : ℤ) :
    (holders m t).encard + ((handovers .settled m h : ℕ∞) + handovers .cancelled m h +
        handovers .returned m h) = (holders m s).encard + handovers .delivered m h := by
  have hbalance := hr.balance fun _ _ _ hstep => holders_step hstep m
  simpa only [List.sum_map_add, sum_hands] using hbalance

/-- Every delivery is with its consumer, acknowledged, rejected or back in the queue. -/
theorem deliveries_balance (hs : Initial s) (hr : (pipeline W B A).Steps s h t) (m : ℤ) :
    (holders m t).Finite ∧
      handovers .delivered m h = (holders m t).ncard + handovers .settled m h +
        handovers .cancelled m h + handovers .returned m h := by
  have hnone : holders m s = ∅ := by
    refine Set.eq_empty_of_forall_notMem fun b hb => ?_
    rw [holders, Set.mem_ofPred_eq, hs.brains b] at hb
    cases hb
  have hheld := holders_balance hr m
  rw [hnone, Set.encard_empty, zero_add] at hheld
  have hfinite : (holders m t).Finite := by
    apply Set.finite_of_encard_le_coe (k := handovers .delivered m h)
    rw [← hheld]
    exact le_self_add
  rw [← hfinite.cast_ncard_eq] at hheld
  have hheld' : (holders m t).ncard + (handovers .settled m h + handovers .cancelled m h +
      handovers .returned m h) = handovers .delivered m h := by
    exact_mod_cast hheld
  exact ⟨hfinite, by omega⟩

/-- **Messages are conserved.** In every run, the messages for a match there were and
those the broker took are the ones in the queue, the ones with a consumer, the
acknowledged and the rejected. -/
theorem messages_conserved (hs : Initial s) (hr : (pipeline W B A).Steps s h t) (m : ℤ) :
    (holders m t).Finite ∧
      s.shared.queue.count m + handovers .posted m h =
        t.shared.queue.count m + (holders m t).ncard + handovers .settled m h +
          handovers .cancelled m h := by
  obtain ⟨hfinite, hheld⟩ := deliveries_balance hs hr m
  have hqueue := queue_balance hr m
  exact ⟨hfinite, by omega⟩

/-- The consumer of a job that raised holds the one message. -/
theorem raised_job_holds_message :
    (holders 1 ((World.atRest (fixtureQueue [1]) : World Unit Unit Unit).setBrain ()
      (fixtureQueue [], .finished 1))).ncard = 1 := by
  obtain ⟨-, hconserved⟩ := messages_conserved (W := Unit) (A := Unit) (initial_fixtureQueue [1])
    (steps_of_consumer (b := ()) raisedJob_steps) 1
  have hhands : ∀ k ∈ [Handover.posted, .settled, .cancelled],
      handovers k 1 (raisedJob.map (Event.brain () : _ → Event Unit Unit Unit)) = 0 := by
    decide
  have hposted := hhands .posted (by decide)
  have hsettled := hhands .settled (by decide)
  have hcancelled := hhands .cancelled (by decide)
  have hqueued : (World.atRest (fixtureQueue [1]) : World Unit Unit Unit).shared.queue.count 1 =
      1 := rfl
  have hempty : ((World.atRest (fixtureQueue [1]) : World Unit Unit Unit).setBrain ()
      (fixtureQueue [], .finished 1)).shared.queue.count 1 = 0 := rfl
  omega

/-! ## What is asked of the language model -/

theorem asked_step (hstep : WorldStep s e t) (m : ℤ) :
    {b | (t.brains b).beforePreview m}.encard + indicator ℕ∞ (Event.asks m) e ≤
      {b | (s.brains b).beforePreview m}.encard + indicator ℕ∞ (Event.hands .delivered m) e := by
  cases hstep with
  | worker | request | env => simp [indicator, Event.asks]
  | @brain b e sh pc hb =>
      have hmoved := encard_moved (fun pc : BrainPc => pc.beforePreview m = true) s.brains b pc
      have hasks := hb.asks (W := W) (A := A) b m
      have hfinite : ((if (s.brains b).beforePreview m then 1 else 0) : ℕ∞) ≠ ⊤ := by
        split_ifs <;> simp
      rw [← ENat.add_le_add_iff_right hfinite, add_right_comm]
      refine (congrArg (· + _) hmoved).trans_le ?_
      rw [add_assoc, add_assoc, add_comm (indicator ℕ∞ (Event.hands .delivered m) _)]
      exact add_le_add_right hasks _

/-- **The spend.** In every run, the language model is asked about a match at most once for
every delivery of a message for it. -/
theorem asked_le_deliveries (hs : Initial s) (hr : (pipeline W B A).Steps s h t) (m : ℤ) :
    asked m h ≤ handovers .delivered m h := by
  have hnone : {b | (s.brains b).beforePreview m} = ∅ := by
    refine Set.eq_empty_of_forall_notMem fun b hb => ?_
    rw [Set.mem_ofPred_eq, hs.brains b] at hb
    cases hb
  have hbalance := hr.balance_le fun _ _ _ hstep => asked_step hstep m
  rw [hnone, Set.encard_empty, zero_add, sum_hands, sum_indicator] at hbalance
  exact_mod_cast le_add_self.trans hbalance

end

end AGame.Pipeline
