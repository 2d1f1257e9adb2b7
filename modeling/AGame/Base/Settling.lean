import AGame.Base.History

/-!
# Systems that come to rest

A rank that every step lowers, in a well-founded order, leaves no endless run
(`not_endless`) and lets every segment be continued to a state where nothing is
possible any more (`exists_stuck`). For a system of parties the rank is the sum of
their weights; a party that moves changes it by its own weight only
(`weight_moved`).
-/

namespace Base

universe u v

namespace System

variable {State : Type u} {Event : Type v} {S : System State Event} {s t : State}

/-- No step is possible. -/
def Stuck (S : System State Event) (s : State) : Prop := ∀ e t, ¬ S.step s e t

/-- Some run from `s` never ends. -/
def Endless (S : System State Event) (s : State) : Prop :=
  ∃ f : ℕ → State, f 0 = s ∧ ∀ n, ∃ e, S.step (f n) e (f (n + 1))

/-! ## Ranks -/

section Ranks

variable {α : Type*} {r : α → α → Prop} [IsWellFounded α r] {rank : State → α}
  {inv : State → Prop}

theorem Steps.kept (hkept : ∀ s e t, inv s → S.step s e t → inv t) (hs : inv s)
    {h : List Event} (hr : S.Steps s h t) : inv t :=
  hr.invariant (P := fun _ t => inv t) hs fun _ _ _ _ _ ih hstep => hkept _ _ _ ih hstep

/-- **No endless run** from a state that keeps the rank falling. -/
theorem not_endless (hkept : ∀ s e t, inv s → S.step s e t → inv t)
    (hrank : ∀ s e t, inv s → S.step s e t → r (rank t) (rank s)) (hs : inv s) :
    ¬ S.Endless s := by
  rintro ⟨f, rfl, hf⟩
  have hinv : ∀ n, inv (f n) := by
    intro n
    induction n with
    | zero => exact hs
    | succ n ih =>
        obtain ⟨e, hstep⟩ := hf n
        exact hkept _ _ _ ih hstep
  obtain ⟨n, hn⟩ := WellFounded.not_rel_apply_succ (r := r) fun n => rank (f n)
  obtain ⟨e, hstep⟩ := hf n
  exact hn (hrank _ _ _ (hinv n) hstep)

/-- **Every state can be left behind for good.** -/
theorem exists_stuck (hkept : ∀ s e t, inv s → S.step s e t → inv t)
    (hrank : ∀ s e t, inv s → S.step s e t → r (rank t) (rank s)) (hs : inv s) :
    ∃ h t, S.Steps s h t ∧ S.Stuck t := by
  induction hn : rank s using IsWellFounded.induction r generalizing s with
  | ind n ih =>
      by_cases hstuck : S.Stuck s
      · exact ⟨[], s, .refl s, hstuck⟩
      · unfold Stuck at hstuck
        push Not at hstuck
        obtain ⟨e, t, hstep⟩ := hstuck
        have hlower := hrank _ _ _ hs hstep
        rw [hn] at hlower
        obtain ⟨h, t', hsteps, hend⟩ := ih _ hlower (hkept _ _ _ hs hstep) rfl
        exact ⟨[e] ++ h, t', (Steps.single hstep).trans hsteps, hend⟩

end Ranks

end System

/-! ## Weighing parties -/

section Parties

variable {B P : Type*} [DecidableEq B] {rest : P} {at_ : B → P}

/-- A party that moves is one more at work at most. -/
theorem atWork_moved (hfinite : {x | at_ x ≠ rest}.Finite) (b : B) (p : P) :
    {x | Function.update at_ b p x ≠ rest}.Finite := by
  refine (hfinite.insert b).subset fun x hx => ?_
  by_cases hxb : x = b
  · exact Or.inl hxb
  · rw [Set.mem_ofPred_eq, Function.update_of_ne hxb] at hx
    exact Or.inr hx

variable {γ : Type*} [AddCommMonoid γ]

/-- **A party that moves** takes its weight along. -/
theorem weight_moved (weight : P → γ) (hrest : weight rest = 0)
    (hfinite : {x | at_ x ≠ rest}.Finite) (b : B) (p : P) :
    (∑ᶠ x, weight (Function.update at_ b p x)) + weight (at_ b) =
      (∑ᶠ x, weight (at_ x)) + weight p := by
  let atWork := (hfinite.insert b).toFinset
  have hsum : ∀ f : B → γ, (∀ x, x ≠ b → at_ x = rest → f x = 0) →
      ∑ᶠ x, f x = f b + ∑ x ∈ atWork.erase b, f x := by
    intro f hf
    have hb : b ∈ atWork := (hfinite.insert b).mem_toFinset.mpr (Set.mem_insert _ _)
    rw [Finset.add_sum_erase _ _ hb]
    refine finsum_eq_sum_of_support_subset _ fun x hx => ?_
    rw [Finset.mem_coe, Set.Finite.mem_toFinset]
    by_cases hxb : x = b
    · exact Or.inl hxb
    · exact Or.inr fun hat => hx (hf x hxb hat)
  have hothers : ∑ x ∈ atWork.erase b, weight (Function.update at_ b p x) =
      ∑ x ∈ atWork.erase b, weight (at_ x) := by
    refine Finset.sum_congr rfl fun x hx => ?_
    rw [Function.update_of_ne (Finset.ne_of_mem_erase hx)]
  rw [hsum (fun x => weight (at_ x)) fun x _ hat => by rw [hat, hrest],
    hsum (fun x => weight (Function.update at_ b p x)) fun x hxb hat => by
      rw [Function.update_of_ne hxb, hat, hrest], hothers, Function.update_self]
  ac_rfl

end Parties

end Base
