import AGame.Base.History

/-!
# Accounts

A quantity of the state that every step changes by what its event says is, at
the end of a run, what it was at the start and what the history says
(`Steps.balance`). Counting the parties at a place is such a quantity: a party
that moves leaves one place and enters another (`encard_moved`).
-/

namespace Base

universe u v

namespace System

variable {State : Type u} {Event : Type v} {S : System State Event}

/-- **The account rule.** What each step books, the run has booked, exactly or as a
bound. -/
theorem Steps.account {γ : Type*} [AddCommMonoid γ] {r : γ → γ → Prop} (hrefl : ∀ x, r x x)
    (htrans : ∀ x y z, r x y → r y z → r x z) (hadd : ∀ x y z, r x y → r (x + z) (y + z))
    {held : State → γ} {gain loss : Event → γ}
    (hstep : ∀ s e t, S.step s e t → r (held t + loss e) (held s + gain e)) {s t : State}
    {h : List Event} (hr : S.Steps s h t) :
    r (held t + (h.map loss).sum) (held s + (h.map gain).sum) := by
  induction hr with
  | refl => exact hrefl _
  | @next t t' h e hr hs ih =>
      rw [List.map_append, List.map_append, List.sum_append, List.sum_append,
        List.map_singleton, List.map_singleton, List.sum_singleton, List.sum_singleton]
      have hlast := hadd _ _ (h.map loss).sum (hstep t e t' hs)
      rw [add_right_comm, add_assoc, add_right_comm (held t)] at hlast
      rw [← add_assoc (held s)]
      exact htrans _ _ _ hlast (hadd _ _ _ ih)

theorem Steps.balance {γ : Type*} [AddCommMonoid γ] {held : State → γ} {gain loss : Event → γ}
    (hstep : ∀ s e t, S.step s e t → held t + loss e = held s + gain e) {s t : State}
    {h : List Event} (hr : S.Steps s h t) :
    held t + (h.map loss).sum = held s + (h.map gain).sum :=
  hr.account (fun _ => rfl) (fun _ _ _ => Eq.trans) (fun _ _ _ hxy => by rw [hxy]) hstep

theorem Steps.balance_le {γ : Type*} [AddCommMonoid γ] [PartialOrder γ] [IsOrderedAddMonoid γ]
    {held : State → γ} {gain loss : Event → γ}
    (hstep : ∀ s e t, S.step s e t → held t + loss e ≤ held s + gain e) {s t : State}
    {h : List Event} (hr : S.Steps s h t) :
    held t + (h.map loss).sum ≤ held s + (h.map gain).sum :=
  hr.account (fun _ => le_rfl) (fun _ _ _ => le_trans)
    (fun _ _ z hxy => add_le_add_left hxy z) hstep

end System

/-! ## Counting events -/

section Counting

variable {Event : Type v} {γ : Type*} [AddCommMonoidWithOne γ]

/-- One for an event that meets `p`. -/
def indicator (γ : Type*) [AddCommMonoidWithOne γ] (p : Event → Bool) (e : Event) : γ :=
  if p e then 1 else 0

/-- A history books as many ones as events meet `p`. -/
theorem sum_indicator (p : Event → Bool) (h : List Event) :
    (h.map (indicator γ p)).sum = (h.countP p : γ) := by
  induction h with
  | nil => simp
  | cons e h ih =>
      rw [List.map_cons, List.sum_cons, ih, indicator]
      cases hp : p e with
      | true =>
          rw [if_pos rfl, List.countP_cons_of_pos hp, Nat.cast_succ, add_comm]
      | false =>
          rw [if_neg Bool.false_ne_true, List.countP_cons_of_neg (by rw [hp]; exact
            Bool.false_ne_true), zero_add]

end Counting

/-! ## Counting parties -/

section Parties

variable {B P : Type*} [DecidableEq B]

/-- **A party that moves** leaves the place it was at and enters the one it goes to. -/
theorem encard_moved (place : P → Prop) [DecidablePred place] (at_ : B → P) (b : B) (p : P) :
    {x | place (Function.update at_ b p x)}.encard + (if place (at_ b) then 1 else 0) =
      {x | place (at_ x)}.encard + (if place p then 1 else 0) := by
  have hstays : ∀ q, {x | place (Function.update at_ b q x)} =
      if place q then insert b {x | x ≠ b ∧ place (at_ x)} else {x | x ≠ b ∧ place (at_ x)} := by
    intro q
    ext x
    by_cases hx : x = b
    · subst hx
      by_cases hq : place q
      · simp [hq]
      · simp [hq]
    · by_cases hq : place q
      · simp [hx, hq]
      · simp [hx, hq]
  have hcount : ∀ q, {x | place (Function.update at_ b q x)}.encard =
      {x | x ≠ b ∧ place (at_ x)}.encard + if place q then 1 else 0 := by
    intro q
    rw [hstays q]
    split_ifs with hq
    · exact Set.encard_insert_of_notMem fun hb => hb.1 rfl
    · rw [add_zero]
  have hbefore := hcount (at_ b)
  rw [Function.update_eq_self] at hbefore
  rw [hcount p, hbefore]
  exact add_right_comm _ _ _

end Parties

end Base
