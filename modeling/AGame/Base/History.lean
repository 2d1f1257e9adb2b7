import Mathlib

/-!
# Labelled systems and the histories of their runs

A run is identified with its *history*, the list of the events it performed,
oldest first, and the state it ended in. Safety properties of a concurrent
system are then properties of a history and the state it leads to, and every
one of them is established by the same rule: it holds of the empty history and
one step preserves it (`Run.invariant`).

Three shapes of history property recur: "after every occurrence", "before
every occurrence" and "since the last occurrence". Their behaviour under one
more event is all a step lemma needs (`afterEach_snoc`, `beforeEach_snoc`,
`Since.here`, `Since.append`).
-/

namespace Base

universe u v

/-- A labelled transition system. -/
structure System (State : Type u) (Event : Type v) where
  init : State → Prop
  step : State → Event → State → Prop

namespace System

variable {State : Type u} {Event : Type v} {S : System State Event}

/-- `S.Run h s`: a run from an initial state performed `h` and ended in `s`. -/
inductive Run (S : System State Event) : List Event → State → Prop
  | start {s : State} : S.init s → Run S [] s
  | next {h : List Event} {s t : State} {e : Event} :
      Run S h s → S.step s e t → Run S (h ++ [e]) t

/-- `S.Steps s h t`: `h` leads from `s` to `t`, wherever `s` is. -/
inductive Steps (S : System State Event) : State → List Event → State → Prop
  | refl (s : State) : Steps S s [] s
  | next {s t t' : State} {h : List Event} {e : Event} :
      Steps S s h t → S.step t e t' → Steps S s (h ++ [e]) t'

/-- **The invariant rule.** What holds initially and is preserved by every
step of a run holds of every run. -/
theorem Run.invariant {P : List Event → State → Prop}
    (hinit : ∀ s, S.init s → P [] s)
    (hstep : ∀ h s e t, S.Run h s → P h s → S.step s e t → P (h ++ [e]) t) :
    ∀ {h : List Event} {s : State}, S.Run h s → P h s := by
  intro h s hr
  induction hr with
  | start hi => exact hinit _ hi
  | next hr hs ih => exact hstep _ _ _ _ hr ih hs

/-- The same rule for a segment that starts in a given state. -/
theorem Steps.invariant {P : List Event → State → Prop} {s : State}
    (hinit : P [] s)
    (hstep : ∀ h t e t', S.Steps s h t → P h t → S.step t e t' → P (h ++ [e]) t') :
    ∀ {h : List Event} {t : State}, S.Steps s h t → P h t := by
  intro h t hr
  induction hr with
  | refl => exact hinit
  | next hr hs ih => exact hstep _ _ _ _ hr ih hs

theorem Run.append {h k : List Event} {s t : State}
    (hr : S.Run h s) (hk : S.Steps s k t) : S.Run (h ++ k) t := by
  induction hk with
  | refl => simpa using hr
  | next _ hs ih =>
      rw [← List.append_assoc]
      exact ih.next hs

theorem Run.of_steps {k : List Event} {s t : State} (hi : S.init s) (hk : S.Steps s k t) :
    S.Run k t := by
  have hrun := (Run.start hi).append hk
  rwa [List.nil_append] at hrun

theorem Steps.single {s t : State} {e : Event} (hs : S.step s e t) :
    S.Steps s [e] t :=
  (Steps.refl s).next hs

theorem Steps.trans {s t t' : State} {h k : List Event}
    (hr : S.Steps s h t) (hk : S.Steps t k t') : S.Steps s (h ++ k) t' := by
  induction hk with
  | refl => simpa using hr
  | next _ hs ih =>
      rw [← List.append_assoc]
      exact ih.next hs

/-- A step-by-step simulation carries segments over. -/
theorem Steps.map {State' : Type u} {Event' : Type v} {S' : System State' Event'}
    {f : State → State'} {g : Event → Event'}
    (hsim : ∀ s e t, S.step s e t → S'.step (f s) (g e) (f t)) {s t : State} {h : List Event}
    (hr : S.Steps s h t) : S'.Steps (f s) (h.map g) (f t) := by
  induction hr with
  | refl => exact .refl _
  | next _ hs ih =>
      rw [List.map_append]
      exact ih.next (hsim _ _ _ hs)

/-- The state a segment was in when it had performed a part of its events. -/
theorem Steps.split {s t : State} {h : List Event} (hr : S.Steps s h t) :
    ∀ h₁ h₂, h = h₁ ++ h₂ → ∃ s₁, S.Steps s h₁ s₁ ∧ S.Steps s₁ h₂ t := by
  induction hr with
  | refl =>
      intro h₁ h₂ heq
      obtain ⟨rfl, rfl⟩ := List.append_eq_nil_iff.mp heq.symm
      exact ⟨s, .refl s, .refl s⟩
  | @next t t' h e hr hs ih =>
      intro h₁ h₂ heq
      rcases List.eq_nil_or_concat h₂ with rfl | ⟨h₂', x, rfl⟩
      · rw [List.append_nil] at heq
        exact ⟨t', heq ▸ hr.next hs, .refl t'⟩
      · rw [List.concat_eq_append, ← List.append_assoc] at heq
        obtain ⟨hinit, hx⟩ := List.append_inj' heq rfl
        obtain rfl := List.singleton_inj.mp hx
        obtain ⟨s₁, hr₁, hs₁⟩ := ih h₁ h₂' hinit
        rw [List.concat_eq_append]
        exact ⟨s₁, hr₁, hs₁.next hs⟩

/-- The moment of one event of a segment. -/
theorem Steps.moment {s t : State} {h₁ h₂ : List Event} {e : Event}
    (hr : S.Steps s (h₁ ++ e :: h₂) t) :
    ∃ s₁ s₂, S.Steps s h₁ s₁ ∧ S.step s₁ e s₂ ∧ S.Steps s₂ h₂ t := by
  obtain ⟨s₂, hfirst, hs₂⟩ := hr.split (h₁ ++ [e]) h₂ (by simp)
  generalize hsplit : h₁ ++ [e] = h at hfirst
  cases hfirst with
  | refl => exact absurd hsplit (by simp)
  | next hs₁ hstep =>
      obtain ⟨rfl, he⟩ := List.append_inj' hsplit rfl
      obtain rfl := List.singleton_inj.mp he
      exact ⟨_, s₂, hs₁, hstep, hs₂⟩

/-- The runs of `S` whose every step meets `ok`, as a system of its own. -/
def restrict (S : System State Event) (ok : State → Event → State → Prop) :
    System State Event where
  init := S.init
  step s e t := S.step s e t ∧ ok s e t

theorem Run.of_restrict {ok : State → Event → State → Prop} {h : List Event}
    {s : State} (hr : (S.restrict ok).Run h s) : S.Run h s := by
  induction hr with
  | start hi => exact .start hi
  | next _ hs ih => exact ih.next hs.1

theorem Steps.of_restrict {ok : State → Event → State → Prop} {h : List Event}
    {s t : State} (hr : (S.restrict ok).Steps s h t) : S.Steps s h t := by
  induction hr with
  | refl => exact .refl _
  | next _ hs ih => exact ih.next hs.1

end System

/-! ## Properties of histories -/

section Histories

variable {Event : Type v}

/-- `Q e post` holds for every event `e` of the history and what follows it. -/
def AfterEach (Q : Event → List Event → Prop) (h : List Event) : Prop :=
  ∀ pre e post, h = pre ++ e :: post → Q e post

/-- `Q e pre` holds for every event `e` of the history and what precedes it. -/
def BeforeEach (Q : Event → List Event → Prop) (h : List Event) : Prop :=
  ∀ pre e post, h = pre ++ e :: post → Q e pre

/-- Splitting a history that just grew: at the new event, or before it. -/
theorem split_snoc {h pre post : List Event} {x e : Event} :
    h ++ [x] = pre ++ e :: post ↔
      (pre = h ∧ e = x ∧ post = []) ∨
        ∃ post', post = post' ++ [x] ∧ h = pre ++ e :: post' := by
  constructor
  · intro heq
    rcases List.eq_nil_or_concat post with rfl | ⟨post', y, rfl⟩
    · obtain ⟨hpre, hx⟩ := List.append_inj' heq rfl
      simp only [List.cons.injEq, and_true] at hx
      exact Or.inl ⟨hpre.symm, hx.symm, rfl⟩
    · have heq' : h ++ [x] = (pre ++ e :: post') ++ [y] := by simpa using heq
      obtain ⟨hpre, hx⟩ := List.append_inj' heq' rfl
      obtain rfl := List.singleton_inj.mp hx
      exact Or.inr ⟨post', by simp, hpre⟩
  · rintro (⟨rfl, rfl, rfl⟩ | ⟨post', rfl, rfl⟩)
    · rfl
    · simp

@[simp] theorem afterEach_nil {Q : Event → List Event → Prop} : AfterEach Q [] := by
  intro pre e post h
  simp at h

@[simp] theorem beforeEach_nil {Q : Event → List Event → Prop} : BeforeEach Q [] := by
  intro pre e post h
  simp at h

/-- A property of every split of a history that grows is a property of the old
splits and of the one at the new event. -/
theorem forall_split_snoc {P : List Event → Event → List Event → Prop} {h : List Event}
    {x : Event} :
    (∀ pre e post, h ++ [x] = pre ++ e :: post → P pre e post) ↔
      (∀ pre e post, h = pre ++ e :: post → P pre e (post ++ [x])) ∧ P h x [] := by
  constructor
  · intro hp
    refine ⟨?_, hp h x [] rfl⟩
    intro pre e post heq
    exact hp pre e (post ++ [x]) (by simp [heq])
  · rintro ⟨hold, hnew⟩ pre e post heq
    rcases split_snoc.mp heq with ⟨rfl, rfl, rfl⟩ | ⟨post', rfl, heq'⟩
    · exact hnew
    · exact hold pre e post' heq'

theorem afterEach_snoc {Q : Event → List Event → Prop} {h : List Event} {x : Event} :
    AfterEach Q (h ++ [x]) ↔
      AfterEach (fun e post => Q e (post ++ [x])) h ∧ Q x [] := by
  unfold AfterEach
  exact forall_split_snoc

theorem beforeEach_snoc {Q : Event → List Event → Prop} {h : List Event} {x : Event} :
    BeforeEach Q (h ++ [x]) ↔ BeforeEach Q h ∧ Q x h := by
  unfold BeforeEach
  exact forall_split_snoc

theorem beforeEach_of_forall {Q : Event → List Event → Prop} {h : List Event}
    (hq : ∀ e ∈ h, ∀ pre, Q e pre) : BeforeEach Q h := by
  intro pre e post heq
  exact hq e (by simp [heq]) pre

/-- Some event meets `p`, and the last one that does meets `Q` together with
what follows it. -/
def Since (p : Event → Prop) (Q : Event → List Event → Prop) (h : List Event) : Prop :=
  ∃ pre e post, h = pre ++ e :: post ∧ p e ∧ (∀ x ∈ post, ¬ p x) ∧ Q e post

theorem Since.here {p : Event → Prop} {Q : Event → List Event → Prop} {h : List Event}
    {x : Event} (hp : p x) (hq : Q x []) : Since p Q (h ++ [x]) :=
  ⟨h, x, [], rfl, hp, nofun, hq⟩

theorem Since.append {p : Event → Prop} {Q Q' : Event → List Event → Prop} {h : List Event}
    {x : Event} (hs : Since p Q h) (hp : ¬ p x)
    (hmono : ∀ e post, Q e post → Q' e (post ++ [x])) : Since p Q' (h ++ [x]) := by
  obtain ⟨pre, e, post, rfl, he, hpost, hq⟩ := hs
  refine ⟨pre, e, post ++ [x], by simp, he, ?_, hmono e post hq⟩
  intro y hy
  rcases List.mem_append.mp hy with hy | hy
  · exact hpost y hy
  · rw [List.mem_singleton.mp hy]
    exact hp

/-- What occurs has a last occurrence. -/
theorem Since.of_mem {p : Event → Prop} {h : List Event} (hsome : ∃ x ∈ h, p x) :
    Since p (fun _ _ => True) h := by
  induction h using List.reverseRecOn with
  | nil =>
      obtain ⟨x, hx, -⟩ := hsome
      cases hx
  | append_singleton h y ih =>
      by_cases hy : p y
      · exact Since.here hy trivial
      · obtain ⟨x, hx, hpx⟩ := hsome
        rcases List.mem_append.mp hx with hx | hx
        · exact (ih ⟨x, hx, hpx⟩).append hy fun _ _ _ => trivial
        · rw [List.mem_singleton.mp hx] at hpx
          exact absurd hpx hy

theorem Since.mono {p : Event → Prop} {Q Q' : Event → List Event → Prop} {h : List Event}
    (hs : Since p Q h) (hmono : ∀ e post, Q e post → Q' e post) : Since p Q' h := by
  obtain ⟨pre, e, post, heq, he, hpost, hq⟩ := hs
  exact ⟨pre, e, post, heq, he, hpost, hmono e post hq⟩

/-- The last occurrence is one: two things known of it hold together. -/
theorem Since.and {p : Event → Prop} {Q Q' : Event → List Event → Prop} {h : List Event}
    (hs : Since p Q h) (hs' : Since p Q' h) : Since p (fun e post => Q e post ∧ Q' e post) h := by
  obtain ⟨pre, e, post, heq, he, hpost, hq⟩ := hs
  obtain ⟨pre', e', post', heq', he', hpost', hq'⟩ := hs'
  have hsame : e = e' ∧ post = post' := by
    rcases List.append_eq_append_iff.mp (heq.symm.trans heq') with
      ⟨mid, -, hmid⟩ | ⟨mid, -, hmid⟩
    · cases mid with
      | nil => simpa using hmid
      | cons y mid =>
          rw [List.cons_append, List.cons.injEq] at hmid
          exact absurd he' (hpost e' (by simp [hmid.2]))
    · cases mid with
      | nil => simpa [eq_comm] using hmid
      | cons y mid =>
          rw [List.cons_append, List.cons.injEq] at hmid
          exact absurd he (hpost' e (by simp [hmid.2]))
  obtain ⟨rfl, rfl⟩ := hsame
  exact ⟨pre, e, post, heq, he, hpost, hq, hq'⟩

/-- The last occurrence is in any final part that has one. -/
theorem Since.suffix {p : Event → Prop} {Q : Event → List Event → Prop} {h k : List Event}
    (hs : Since p Q (h ++ k)) {x : Event} (hx : x ∈ k) (hpx : p x) : Since p Q k := by
  obtain ⟨pre, e, post, heq, he, hpost, hq⟩ := hs
  rcases List.append_eq_append_iff.mp heq with ⟨mid, -, hmid⟩ | ⟨mid, -, hmid⟩
  · exact ⟨mid, e, post, hmid, he, hpost, hq⟩
  · cases mid with
    | nil => exact ⟨[], e, post, by simpa using hmid.symm, he, hpost, hq⟩
    | cons y mid =>
        rw [List.cons_append, List.cons.injEq] at hmid
        exact absurd hpx (hpost x (by simp [hmid.2, hx]))

theorem AfterEach.mono {Q Q' : Event → List Event → Prop} {h : List Event}
    (hq : AfterEach Q h) (hmono : ∀ e post, e ∈ h → Q e post → Q' e post) :
    AfterEach Q' h := by
  intro pre e post heq
  exact hmono e post (by simp [heq]) (hq pre e post heq)

end Histories

end Base
