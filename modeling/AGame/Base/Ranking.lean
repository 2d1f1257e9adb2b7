import Mathlib

/-!
# Ranking by a key

A stable sort, the largest key first. It orders by two things at once: an item
of a larger key ranks before, and among items of one key the sort keeps the
order they came in (`ranked_pairwise`). What is read off the top of a ranking is
then determined by the items alone.
-/

namespace Base

section Ranking

variable {α R : Type*} [LinearOrder R] (key : α → R)

/-- `sort(key=…, reverse=True)`: it compares downwards, and stays stable. -/
def ranked (l : List α) : List α := l.mergeSort fun x y => decide (key y ≤ key x)

theorem ranked_perm (l : List α) : (ranked key l).Perm l := List.mergeSort_perm l _

private theorem ranked_trans (x y z : α) (hxy : decide (key y ≤ key x) = true)
    (hyz : decide (key z ≤ key y) = true) : decide (key z ≤ key x) = true := by
  rw [decide_eq_true_eq] at hxy hyz ⊢
  exact hyz.trans hxy

private theorem ranked_total (x y : α) :
    (decide (key y ≤ key x) || decide (key x ≤ key y)) = true := by
  rw [Bool.or_eq_true, decide_eq_true_eq, decide_eq_true_eq]
  exact le_total (key y) (key x)

theorem ranked_descending (l : List α) : (ranked key l).Pairwise fun x y => key y ≤ key x := by
  have hsorted := List.pairwise_mergeSort (ranked_trans key) (ranked_total key) l
  exact hsorted.imp of_decide_eq_true

/-- The items of one key stand in the order they came in. -/
theorem ranked_filter (l : List α) (k : R) :
    (ranked key l).filter (fun x => decide (key x = k)) =
      l.filter (fun x => decide (key x = k)) := by
  have hlevel : (l.filter fun x => decide (key x = k)).Pairwise
      fun x y => decide (key y ≤ key x) = true := by
    apply List.pairwise_of_forall_mem_list
    intro x hx y hy
    have hkx := of_decide_eq_true (List.mem_filter.mp hx).2
    have hky := of_decide_eq_true (List.mem_filter.mp hy).2
    rw [hkx, hky]
    exact decide_eq_true le_rfl
  have hsublist := List.sublist_mergeSort (ranked_trans key) (ranked_total key) hlevel
    List.filter_sublist
  have hkept := hsublist.filter fun x => decide (key x = k)
  rw [List.filter_filter] at hkept
  simp only [Bool.and_self] at hkept
  exact (hkept.eq_of_length ((ranked_perm key l).filter _).length_eq.symm).symm

/-- Which of two items ranks before: the larger key, then the earlier place. -/
def RanksBefore (before : α → α → Prop) (x y : α) : Prop :=
  key y < key x ∨ key y = key x ∧ before x y

variable {key} {before : α → α → Prop}

theorem RanksBefore.le {x y : α} (h : RanksBefore key before x y) : key y ≤ key x := by
  rcases h with hlt | ⟨heq, -⟩
  · exact hlt.le
  · exact heq.le

theorem RanksBefore.of_le {x y : α} (hle : key y ≤ key x) (h : before x y) :
    RanksBefore key before x y := by
  rcases hle.lt_or_eq with hlt | heq
  · exact Or.inl hlt
  · exact Or.inr ⟨heq, h⟩

theorem RanksBefore.of_eq {x y : α} (h : RanksBefore key before x y) (heq : key y = key x) :
    before x y := by
  rcases h with hlt | ⟨-, hbefore⟩
  · exact absurd heq hlt.ne
  · exact hbefore

theorem RanksBefore.asymm (hasymm : ∀ x y, before x y → ¬ before y x) {x y : α}
    (h : RanksBefore key before x y) : ¬ RanksBefore key before y x := by
  intro h'
  have heq : key y = key x := le_antisymm h.le h'.le
  exact hasymm x y (h.of_eq heq) (h'.of_eq heq.symm)

variable (key) in
/-- **A ranking orders by key, then by place.** -/
theorem ranked_pairwise {l : List α} (h : l.Pairwise before) :
    (ranked key l).Pairwise (RanksBefore key before) := by
  rw [List.pairwise_iff_forall_sublist]
  intro x y hpair
  rcases (List.pairwise_pair.mp ((ranked_descending key l).sublist hpair)).lt_or_eq with hlt | heq
  · exact Or.inl hlt
  · refine Or.inr ⟨heq, ?_⟩
    have hlevel := hpair.filter fun z => decide (key z = key x)
    rw [ranked_filter] at hlevel
    have hkept : [x, y].filter (fun z => decide (key z = key x)) = [x, y] := by
      simp [heq]
    rw [hkept] at hlevel
    exact h.forall_sublist (hlevel.trans List.filter_sublist)

end Ranking

section Top

variable {α : Type*} {r : α → α → Prop} {l : List α}

/-- What is listed at the top comes before all that is not. -/
theorem top_before_rest (h : l.Pairwise r) {n : ℕ} {x y : α} (hx : x ∈ l.take n) (hy : y ∈ l)
    (hrest : y ∉ l.take n) : r x y := by
  rw [← List.take_append_drop n l] at h hy
  have hdrop := (List.mem_append.mp hy).resolve_left hrest
  exact (List.pairwise_append.mp h).2.2 x hx y hdrop

/-- An item that comes before all others is at the head. -/
theorem head_of_before_all (h : l.Pairwise r) (hasymm : ∀ x y, r x y → ¬ r y x) {x : α}
    (hx : x ∈ l) (hall : ∀ y ∈ l, y ≠ x → r x y) : l.head? = some x := by
  cases l with
  | nil => exact absurd hx List.not_mem_nil
  | cons y l =>
      rw [List.head?_cons]
      by_contra hne
      have hyx : y ≠ x := fun heq => hne (congrArg some heq)
      have hlater : x ∈ l := (List.mem_cons.mp hx).resolve_left hyx.symm
      exact hasymm y x (List.rel_of_pairwise_cons h hlater) (hall y List.mem_cons_self hyx)

end Top

end Base
