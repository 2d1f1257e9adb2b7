import Mathlib

/-!
# Replays

General facts about replaying a list. A stable sort commutes with keeping the
elements of a class, a machine whose state falls into independent parts replays
each part from the elements that concern it, and a register holds what the last
write to it says.
-/

namespace Base

universe u v w

/-! ## Stable sorting -/

section

variable {α : Type u} {le : α → α → Bool}

/-- A list is cut in one way into elements without and elements with a property. -/
theorem append_inj_of_cut {p : α → Bool} {l₁ l₂ k₁ k₂ : List α} (h : l₁ ++ l₂ = k₁ ++ k₂)
    (hl₁ : ∀ a ∈ l₁, p a = false) (hl₂ : ∀ a ∈ l₂, p a = true)
    (hk₁ : ∀ a ∈ k₁, p a = false) (hk₂ : ∀ a ∈ k₂, p a = true) : l₁ = k₁ ∧ l₂ = k₂ := by
  have hkeep : ∀ {xs ys : List α}, (∀ a ∈ xs, p a = false) → (∀ a ∈ ys, p a = true) →
      (xs ++ ys).filter p = ys := by
    intro xs ys hxs hys
    rw [List.filter_append, List.filter_eq_self.mpr hys, List.filter_eq_nil_iff.mpr]
    · rfl
    · intro a ha
      rw [hxs a ha]
      exact Bool.false_ne_true
  have hright : l₂ = k₂ := by
    rw [← hkeep hl₁ hl₂, h, hkeep hk₁ hk₂]
  subst hright
  exact ⟨List.append_cancel_right h, rfl⟩

/-- **A stable sort commutes with selection.** -/
theorem filter_mergeSort (htrans : ∀ a b c, le a b = true → le b c = true → le a c = true)
    (htotal : ∀ a b, (le a b || le b a) = true) (p : α → Bool) (l : List α) :
    (l.mergeSort le).filter p = (l.filter p).mergeSort le := by
  induction l with
  | nil => simp
  | cons a l ih =>
      obtain ⟨l₁, l₂, hcons, hl, hbefore⟩ := List.mergeSort_cons htrans htotal a l
      rw [hl, List.filter_append] at ih
      rw [hcons, List.filter_append]
      by_cases ha : p a = true
      · obtain ⟨k₁, k₂, hcons', hk, hbefore'⟩ :=
          List.mergeSort_cons htrans htotal a (l.filter p)
        rw [List.filter_cons_of_pos ha, List.filter_cons_of_pos ha, hcons']
        -- Both halves are what does not, and what does, sort after `a`.
        have hafter : ∀ b ∈ l₂, le a b = true := by
          have hsorted := List.pairwise_mergeSort htrans htotal (a :: l)
          rw [hcons, List.pairwise_append] at hsorted
          exact (List.pairwise_cons.mp hsorted.2.1).1
        have hafter' : ∀ b ∈ k₂, le a b = true := by
          have hsorted := List.pairwise_mergeSort htrans htotal (a :: l.filter p)
          rw [hcons', List.pairwise_append] at hsorted
          exact (List.pairwise_cons.mp hsorted.2.1).1
        have hcut : l₁.filter p ++ l₂.filter p = k₁ ++ k₂ := ih.trans hk
        obtain ⟨h₁, h₂⟩ := append_inj_of_cut (p := le a) hcut
          (fun b hb => by simpa using hbefore b (List.mem_of_mem_filter hb))
          (fun b hb => hafter b (List.mem_of_mem_filter hb))
          (fun b hb => by simpa using hbefore' b hb) hafter'
        rw [h₁, h₂]
      · rw [List.filter_cons_of_neg ha, List.filter_cons_of_neg ha]
        exact ih

end

/-! ## Folds over independent parts

A part of the state is seen through `part`: the elements that concern it move
it as they would move it alone, the others leave it as it is. -/

section Fold

variable {σ : Type u} {α : Type v} {f : σ → α → σ} {part : σ → σ} {p : α → Bool}

theorem part_foldl (hmoves : ∀ s a, p a = true → part (f s a) = f (part s) a)
    (hstays : ∀ s a, p a = false → part (f s a) = part s) (s : σ) (l : List α) :
    part (l.foldl f s) = (l.filter p).foldl f (part s) := by
  induction l generalizing s with
  | nil => rfl
  | cons a l ih =>
      rw [List.foldl_cons, ih]
      cases ha : p a with
      | true => rw [List.filter_cons_of_pos ha, List.foldl_cons, hmoves s a ha]
      | false => rw [List.filter_cons_of_neg (by simp [ha]), hstays s a ha]

end Fold

/-! ## Machines

A machine consumes a list and emits one output for each element. -/

section Machine

variable {σ : Type u} {α : Type v} {β : Type w}

/-- The state after a replay. -/
def finalState (step : σ → α → σ × β) (s : σ) (l : List α) : σ :=
  l.foldl (fun s a => (step s a).1) s

/-- The outputs of a replay, in order. -/
def outputs (step : σ → α → σ × β) : σ → List α → List β
  | _, [] => []
  | s, a :: l => (step s a).2 :: outputs step (step s a).1 l

variable {step : σ → α → σ × β}

@[simp] theorem finalState_nil (s : σ) : finalState step s [] = s := rfl

@[simp] theorem finalState_cons (s : σ) (a : α) (l : List α) :
    finalState step s (a :: l) = finalState step (step s a).1 l := rfl

@[simp] theorem finalState_concat (s : σ) (l : List α) (a : α) :
    finalState step s (l ++ [a]) = (step (finalState step s l) a).1 := by
  simp [finalState]

theorem finalState_append (s : σ) (l k : List α) :
    finalState step s (l ++ k) = finalState step (finalState step s l) k :=
  List.foldl_append

@[simp] theorem outputs_nil (s : σ) : outputs step s [] = [] := rfl

@[simp] theorem outputs_cons (s : σ) (a : α) (l : List α) :
    outputs step s (a :: l) = (step s a).2 :: outputs step (step s a).1 l := rfl

theorem outputs_append (s : σ) (l k : List α) :
    outputs step s (l ++ k) = outputs step s l ++ outputs step (finalState step s l) k := by
  induction l generalizing s with
  | nil => rfl
  | cons a l ih => simp [ih]

/-- Each output is what the state reached by then answers. -/
theorem outputs_eq_of_split {s : σ} {l before after : List α} {a : α}
    (h : l = before ++ a :: after) :
    outputs step s l = outputs step s before ++ (step (finalState step s before) a).2 ::
      outputs step (step (finalState step s before) a).1 after := by
  rw [h, outputs_append, outputs_cons]

section Apart

/-- Elements that the machine treats alike may be exchanged one for one. -/
theorem finalState_map {g : α → α} (hg : ∀ s a, (step s (g a)).1 = (step s a).1) (s : σ)
    (l : List α) : finalState step s (l.map g) = finalState step s l := by
  induction l generalizing s with
  | nil => rfl
  | cons a l ih => rw [List.map_cons, finalState_cons, finalState_cons, hg, ih]

variable {ok : σ → α → Prop} {apart : α → α → Prop}

/-- Where elements that are apart commute, as long as what they need is there
and stays there, a list of them may be replayed in any order. -/
theorem finalState_perm (hkeeps : ∀ s a b, ok s b → ok (step s a).1 b)
    (hcomm : ∀ s a b, ok s a → ok s b → apart a b →
      (step (step s a).1 b).1 = (step (step s b).1 a).1)
    (hsymm : ∀ a b, apart a b → apart b a) {l l' : List α} (hl : l.Perm l')
    (hapart : l.Pairwise apart) (s : σ) (hok : ∀ a ∈ l, ok s a) :
    finalState step s l = finalState step s l' := by
  induction hl generalizing s with
  | nil => rfl
  | cons a _ ih =>
      rw [finalState_cons, finalState_cons]
      apply ih (List.pairwise_cons.mp hapart).2
      exact fun b hb => hkeeps s a b (hok b (List.mem_cons_of_mem _ hb))
  | swap a b l =>
      have hab := (List.pairwise_cons.mp hapart).1 a List.mem_cons_self
      simp only [finalState_cons]
      rw [hcomm s b a (hok b List.mem_cons_self)
        (hok a (List.mem_cons_of_mem _ List.mem_cons_self)) hab]
  | trans h _ ih ih' =>
      rw [ih hapart s hok]
      apply ih'
      · exact h.pairwise hapart fun hab => hsymm _ _ hab
      · exact fun a ha => hok a (h.mem_iff.mpr ha)

end Apart

section Part

variable {part : σ → σ} {p : α → Bool}

theorem part_finalState (hmoves : ∀ s a, p a = true → part (step s a).1 = (step (part s) a).1)
    (hstays : ∀ s a, p a = false → part (step s a).1 = part s) (s : σ) (l : List α) :
    part (finalState step s l) = finalState step (part s) (l.filter p) :=
  part_foldl hmoves hstays s l

/-- The outputs for the elements of a part are those of the part alone. -/
theorem part_outputs (hmoves : ∀ s a, p a = true → part (step s a).1 = (step (part s) a).1)
    (hstays : ∀ s a, p a = false → part (step s a).1 = part s)
    (htells : ∀ s a, p a = true → (step s a).2 = (step (part s) a).2) (s : σ) (l : List α) :
    ((l.zip (outputs step s l)).filter fun e => p e.1).map Prod.snd =
      outputs step (part s) (l.filter p) := by
  induction l generalizing s with
  | nil => rfl
  | cons a l ih =>
      rw [outputs_cons, List.zip_cons_cons]
      cases ha : p a with
      | true =>
          rw [List.filter_cons_of_pos (by exact ha), List.filter_cons_of_pos ha, List.map_cons,
            outputs_cons, ih, hmoves s a ha, htells s a ha]
      | false =>
          rw [List.filter_cons_of_neg (by simp [ha]), List.filter_cons_of_neg (by simp [ha]), ih,
            hstays s a ha]

end Part

end Machine

/-! ## What a list of writes says last

A register that several writers overwrite holds what the last write to it says. -/

section Last

variable {α : Type v} {β : Type w} (value : α → Option β)

/-- The value of the last write that has one. -/
def lastValue (writes : List α) : Option β := writes.reverse.findSome? value

@[simp] theorem lastValue_nil : lastValue value [] = none := rfl

@[simp] theorem lastValue_concat (writes : List α) (write : α) :
    lastValue value (writes ++ [write]) = (value write).or (lastValue value writes) := by
  simp only [lastValue, List.reverse_append, List.reverse_singleton, List.singleton_append,
    List.findSome?_cons]
  cases value write <;> rfl

theorem findSome?_concat (writes : List α) (write : α) :
    (writes ++ [write]).findSome? value = (writes.findSome? value).or (value write) := by
  rw [List.findSome?_append]
  congr 1
  cases h : value write <;> simp [h]

theorem lastValue_eq_none {value : α → Option β} {writes : List α} :
    lastValue value writes = none ↔ ∀ write ∈ writes, value write = none := by
  rw [lastValue, List.findSome?_eq_none_iff]
  simp only [List.mem_reverse]

theorem lastValue_eq_some {value : α → Option β} {writes : List α} {b : β}
    (h : lastValue value writes = some b) : ∃ write ∈ writes, value write = some b := by
  obtain ⟨write, hwrite, hvalue⟩ := List.exists_of_findSome?_eq_some h
  exact ⟨write, List.mem_reverse.mp hwrite, hvalue⟩

/-- Where the writes to a register agree, only which of them occur matters. -/
theorem lastValue_congr {value : α → Option β} {writes writes' : List α}
    (hsame : ∀ write, write ∈ writes ↔ write ∈ writes')
    (hagree : ∀ a b v w, value a = some v → value b = some w → v = w) :
    lastValue value writes = lastValue value writes' := by
  cases h : lastValue value writes with
  | none =>
      rw [lastValue_eq_none] at h
      refine (lastValue_eq_none.mpr fun write hwrite => ?_).symm
      exact h write ((hsame write).mpr hwrite)
  | some v =>
      obtain ⟨a, ha, hv⟩ := lastValue_eq_some h
      cases h' : lastValue value writes' with
      | none =>
          rw [lastValue_eq_none.mp h' a ((hsame a).mp ha)] at hv
          cases hv
      | some w =>
          obtain ⟨b, -, hw⟩ := lastValue_eq_some h'
          rw [hagree a b v w hv hw]

/-- A machine whose every step overwrites the register or leaves it alone. -/
theorem foldl_register {σ : Type u} (step : σ → α → σ) (read : σ → Option β) (ok : σ → Prop)
    (value : α → Option β) (writes : List α)
    (hstep : ∀ s, ok s → ∀ a ∈ writes, ok (step s a) ∧
      read (step s a) = (value a).or (read s)) {s : σ} (hs : ok s) :
    read (writes.foldl step s) = (lastValue value writes).or (read s) := by
  have hrun : ok (writes.foldl step s) ∧
      read (writes.foldl step s) = (lastValue value writes).or (read s) := by
    induction writes using List.reverseRecOn with
    | nil => exact ⟨hs, rfl⟩
    | append_singleton writes a ih =>
        obtain ⟨hok, hread⟩ := ih fun s hs b hb => hstep s hs b (List.mem_append_left _ hb)
        obtain ⟨hok', hread'⟩ := hstep _ hok a (by simp)
        rw [List.foldl_append, List.foldl_cons, List.foldl_nil, lastValue_concat,
          Option.or_assoc, ← hread]
        exact ⟨hok', hread'⟩
  exact hrun.2

end Last

end Base
