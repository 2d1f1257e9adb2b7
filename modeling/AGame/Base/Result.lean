import Mathlib

/-!
# Peeling apart computations that may fail

One rule per shape: a sequence succeeds exactly when both parts do, and an
optional argument is encoded exactly when its value is.
-/

namespace Base

universe u

theorem bind_eq_ok {ε α β : Type u} {x : Except ε α} {f : α → Except ε β} {b : β} :
    (x >>= f) = .ok b ↔ ∃ a, x = .ok a ∧ f a = .ok b := by
  cases x <;> simp [bind, Except.bind]

theorem ok_bind {ε α β : Type u} (a : α) (f : α → Except ε β) :
    ((Except.ok a : Except ε α) >>= f) = f a := rfl

@[simp] theorem pure_eq_ok {ε α : Type u} {a b : α} :
    (pure a : Except ε α) = .ok b ↔ a = b := by
  simp [pure, Except.pure]

@[simp] theorem throw_ne_ok {ε α : Type u} {e : ε} {b : α} :
    (throw e : Except ε α) ≠ .ok b := by
  simp [throw, throwThe, MonadExceptOf.throw]

theorem map_eq_ok {ε α β : Type u} {x : Except ε α} {f : α → β} {b : β} :
    x.map f = .ok b ↔ ∃ a, x = .ok a ∧ f a = b := by
  cases x <;> simp [Except.map]

/-- A loop none of whose steps fails. -/
theorem mapM_ok {ε α β : Type} {f : α → Except ε β} {g : α → β} {l : List α}
    (h : ∀ a ∈ l, f a = .ok (g a)) : l.mapM f = .ok (l.map g) := by
  induction l with
  | nil => rfl
  | cons a l ih =>
      rw [List.mapM_cons, h a List.mem_cons_self, ih fun b hb => h b (List.mem_cons_of_mem _ hb)]
      rfl

theorem mapM_cons_eq_some {α β : Type} {read : α → Option β} {a : α} {l : List α} {bs : List β}
    (h : (a :: l).mapM read = some bs) :
    ∃ b rest, read a = some b ∧ l.mapM read = some rest ∧ bs = b :: rest := by
  rw [List.mapM_cons] at h
  obtain ⟨b, hb, h⟩ := Option.bind_eq_some_iff.mp h
  obtain ⟨rest, hrest, h⟩ := Option.bind_eq_some_iff.mp h
  exact ⟨b, rest, hb, hrest, (Option.some.inj h).symm⟩

/-- A loop whose every step reads what another reading has accepted. -/
theorem mapM_ok_of_some {ε α β γ : Type} {read : α → Option β} {f : α → Except ε γ} {g : β → γ}
    (h : ∀ a b, read a = some b → f a = .ok (g b)) {l : List α} {bs : List β}
    (hl : l.mapM read = some bs) : l.mapM f = .ok (bs.map g) := by
  induction l generalizing bs with
  | nil =>
      obtain rfl : [] = bs := Option.some.inj hl
      rfl
  | cons a l ih =>
      obtain ⟨b, rest, hb, hrest, rfl⟩ := mapM_cons_eq_some hl
      rw [List.mapM_cons, h a b hb, ih hrest]
      rfl

theorem foldlM_ok {ε α β : Type} {f : β → α → Except ε β} {g : β → α → β} {l : List α}
    (h : ∀ b, ∀ a ∈ l, f b a = .ok (g b a)) (b : β) : l.foldlM f b = .ok (l.foldl g b) := by
  induction l generalizing b with
  | nil => rfl
  | cons a l ih =>
      rw [List.foldlM_cons, h b a List.mem_cons_self, List.foldl_cons]
      exact ih (fun b' a' ha' => h b' a' (List.mem_cons_of_mem _ ha')) (g b a)

/-- A loop that has come through, item by item. -/
theorem forall₂_of_mapM {ε α β : Type} {f : α → Except ε β} {l : List α} {bs : List β}
    (h : l.mapM f = .ok bs) : List.Forall₂ (fun a b => f a = .ok b) l bs := by
  induction l generalizing bs with
  | nil =>
      obtain rfl := pure_eq_ok.mp h
      exact .nil
  | cons a l ih =>
      rw [List.mapM_cons] at h
      obtain ⟨b, hb, h⟩ := bind_eq_ok.mp h
      obtain ⟨rest, hrest, h⟩ := bind_eq_ok.mp h
      obtain rfl := pure_eq_ok.mp h
      exact .cons hb (ih hrest)

theorem exists_of_forall₂ {α β : Type} {R : α → β → Prop} {l : List α} {bs : List β}
    (h : List.Forall₂ R l bs) {a : α} (ha : a ∈ l) : ∃ b ∈ bs, R a b := by
  induction h with
  | nil => cases ha
  | cons hab _ ih =>
      rcases List.mem_cons.mp ha with rfl | ha
      · exact ⟨_, List.mem_cons_self, hab⟩
      · obtain ⟨b, hb, hab⟩ := ih ha
        exact ⟨b, List.mem_cons_of_mem _ hb, hab⟩

/-- Every item has its result. -/
theorem exists_result_of_mapM {ε α β : Type} {f : α → Except ε β} {l : List α} {bs : List β}
    (h : l.mapM f = .ok bs) {a : α} (ha : a ∈ l) : ∃ b ∈ bs, f a = .ok b :=
  exists_of_forall₂ (forall₂_of_mapM h) ha

/-- Every result is that of an item. -/
theorem exists_item_of_mapM {ε α β : Type} {f : α → Except ε β} {l : List α} {bs : List β}
    (h : l.mapM f = .ok bs) {b : β} (hb : b ∈ bs) : ∃ a ∈ l, f a = .ok b :=
  exists_of_forall₂ (forall₂_of_mapM h).flip hb

/-- A run that has come through keeps what every step keeps of the items so far. -/
theorem foldlM_run {ε α β : Type} {step : β → α → Except ε β} {P : List α → β → Prop}
    (hstep : ∀ seen a b b', P seen b → step b a = .ok b' → P (seen ++ [a]) b')
    {seen l : List α} {b b' : β} (hstart : P seen b) (h : l.foldlM step b = .ok b') :
    P (seen ++ l) b' := by
  induction l generalizing seen b with
  | nil =>
      obtain rfl := pure_eq_ok.mp h
      rwa [List.append_nil]
  | cons a l ih =>
      rw [List.foldlM_cons] at h
      obtain ⟨mid, hmid, h⟩ := bind_eq_ok.mp h
      have hnext := ih (hstep seen a b mid hstart hmid) h
      rwa [List.append_assoc] at hnext

/-- A filter none of whose tests fails. -/
theorem filterM_ok {ε α : Type} {f : α → Except ε Bool} {g : α → Bool} {l : List α}
    (h : ∀ a ∈ l, f a = .ok (g a)) : l.filterM f = .ok (l.filter g) := by
  have aux : ∀ acc, List.filterAuxM f l acc = .ok ((l.filter g).reverse ++ acc) := by
    induction l with
    | nil => intro acc; rfl
    | cons a l ih =>
        intro acc
        rw [List.filterAuxM, h a List.mem_cons_self, ok_bind,
          ih fun b hb => h b (List.mem_cons_of_mem _ hb)]
        cases hg : g a <;> simp [hg]
  rw [List.filterM, aux [], ok_bind, List.append_nil, List.reverse_reverse]
  rfl

/-- A function that commutes with every continuation commutes with the sequence. -/
theorem map_bind_eq {ε α β γ δ : Type} {x : Except ε α} {f : α → β} {g : β → Except ε γ}
    {k : α → Except ε δ} {f' : δ → γ} (h : ∀ a, g (f a) = (k a).map f') :
    (x.map f >>= g) = (x >>= k).map f' := by
  cases x with
  | error e => rfl
  | ok a => exact h a

/-! ## The beginning of a list up to its first error -/

section Prefixes

variable {ε α : Type}

/-- The values before the first error. -/
def okPrefix : List (Except ε α) → List α
  | [] => []
  | .error _ :: _ => []
  | .ok a :: l => a :: okPrefix l

def allOk : List (Except ε α) → Bool
  | [] => true
  | .error _ :: _ => false
  | .ok _ :: l => allOk l

theorem okPrefix_append (l l' : List (Except ε α)) :
    okPrefix (l ++ l') = okPrefix l ++ if allOk l then okPrefix l' else [] := by
  induction l with
  | nil => rfl
  | cons a l ih =>
      cases a with
      | error e => rfl
      | ok a =>
          rw [List.cons_append, okPrefix, okPrefix, allOk, ih, List.cons_append]

theorem allOk_append (l l' : List (Except ε α)) :
    allOk (l ++ l') = (allOk l && allOk l') := by
  induction l with
  | nil => rfl
  | cons a l ih =>
      cases a with
      | error e => rfl
      | ok a => exact ih

/-- What comes behind the same beginning. -/
theorem okPrefix_append_mono (l : List (Except ε α)) {l₁ l₂ : List (Except ε α)}
    (h : okPrefix l₁ <+: okPrefix l₂) : okPrefix (l ++ l₁) <+: okPrefix (l ++ l₂) := by
  rw [okPrefix_append, okPrefix_append]
  cases allOk l with
  | false => exact List.prefix_rfl
  | true => exact (List.prefix_append_right_inj _).mpr h

end Prefixes

end Base
