import AGame.Base.Store

/-!
# Gated registers

A gated register takes a value unless it holds one with the same key. With a constant
key the first write stays, with the value itself as key the last one does, and a key in
between lets a write through when that part of the value moves. Whatever the key, a list
of writes cannot be told from the same list cut off and started again
(`foldl_gatedPut_resumed`).
-/

namespace Base

open Std

universe u v w

variable {α : Type u} {β : Type v} {κ : Type w} [DecidableEq κ] (key : β → κ)

/-- One write to a gated register. -/
def gated (s : Option β) (v : β) : Option β :=
  if s.map key = some (key v) then s else some v

theorem gated_key (s : Option β) (v : β) : (gated key s v).map key = some (key v) := by
  unfold gated
  split_ifs with h
  · exact h
  · rfl

/-- The last write decides the key, whether it went through or not. -/
theorem foldl_gated_key (vs : List β) (v : β) (s : Option β) :
    ((vs ++ [v]).foldl (gated key) s).map key = some (key v) := by
  rw [List.foldl_append]
  exact gated_key key _ v

/-- The writes find nothing to do the second time. -/
theorem foldl_gated_twice (vs : List β) (s : Option β) :
    vs.foldl (gated key) (vs.foldl (gated key) s) = vs.foldl (gated key) s := by
  induction vs using List.reverseRecOn with
  | nil => rfl
  | append_singleton us v ih =>
      simp only [List.foldl_append, List.foldl_cons, List.foldl_nil]
      by_cases hshut : (us.foldl (gated key) s).map key = some (key v)
      · have hkept : gated key (us.foldl (gated key) s) v = us.foldl (gated key) s := if_pos hshut
        rw [hkept, ih, hkept]
      · -- the last write went through, and what comes before it closes no gate for it
        have hwritten : gated key (us.foldl (gated key) s) v = some v := if_neg hshut
        rw [hwritten]
        rcases List.eq_nil_or_concat us with rfl | ⟨ws, w, rfl⟩
        · exact if_pos rfl
        · rw [List.concat_eq_append] at hshut ⊢
          rw [foldl_gated_key] at hshut
          refine if_neg ?_
          rwa [foldl_gated_key]

/-! ## Stores of gated registers -/

section Store

variable {cmp : α → α → Ordering} [TransCmp cmp] [LawfulEqCmp cmp] [DecidableEq α]

/-- One write to a store of gated registers. -/
def gatedPut (t : ExtTreeMap α β cmp) (e : α × β) : ExtTreeMap α β cmp :=
  if t[e.1]?.map key = some (key e.2) then t else t.insert e.1 e.2

theorem getElem?_gatedPut (t : ExtTreeMap α β cmp) (e : α × β) (k : α) :
    (gatedPut key t e)[k]? = if e.1 = k then gated key t[k]? e.2 else t[k]? := by
  unfold gatedPut gated
  by_cases hk : e.1 = k
  · subst hk
    rw [if_pos rfl]
    split_ifs with h
    · rfl
    · rw [getElem?_put, if_pos rfl]
  · rw [if_neg hk]
    split_ifs with h
    · rfl
    · rw [getElem?_put, if_neg hk]

/-- With the value as key, the last write stays. -/
theorem gatedPut_id [DecidableEq β] (t : ExtTreeMap α β cmp) (e : α × β) :
    gatedPut id t e = t.insert e.1 e.2 := by
  unfold gatedPut
  split_ifs with h
  · rw [Option.map_id] at h
    exact (put_same h).symm
  · rfl

omit [DecidableEq α] [LawfulEqCmp cmp] in
/-- With a constant key, the first write stays. -/
theorem gatedPut_const (t : ExtTreeMap α β cmp) (e : α × β) :
    gatedPut (fun _ => ()) t e = if e.1 ∈ t then t else t.insert e.1 e.2 := by
  unfold gatedPut
  refine if_congr ?_ rfl rfl
  rw [mem_iff_getElem?, Option.map_eq_some_iff]
  simp only [and_true]

theorem mem_gatedPut {t : ExtTreeMap α β cmp} {e : α × β} {k : α} :
    k ∈ gatedPut key t e ↔ e.1 = k ∨ k ∈ t := by
  simp only [mem_iff_getElem?, getElem?_gatedPut]
  by_cases hk : e.1 = k
  · obtain ⟨v, hv, -⟩ := Option.map_eq_some_iff.mp (gated_key key t[k]? e.2)
    simp only [hk, if_true, true_or, iff_true]
    exact ⟨v, hv⟩
  · simp only [hk, if_false, false_or]

/-- Writes only ever add keys, and which ones does not depend on the store. -/
theorem mem_foldl_gatedPut {es : List (α × β)} {t : ExtTreeMap α β cmp} {k : α} :
    k ∈ es.foldl (gatedPut key) t ↔ (∃ e ∈ es, e.1 = k) ∨ k ∈ t := by
  induction es generalizing t with
  | nil => simp
  | cons e es ih =>
      rw [List.foldl_cons, ih, mem_gatedPut, List.exists_mem_cons_iff, or_left_comm, or_assoc]

/-- Each register is written by the entries that name it. -/
theorem getElem?_foldl_gatedPut (es : List (α × β)) (t : ExtTreeMap α β cmp) (k : α) :
    (es.foldl (gatedPut key) t)[k]? =
      ((es.filter fun e => e.1 = k).map Prod.snd).foldl (gated key) t[k]? := by
  induction es generalizing t with
  | nil => rfl
  | cons e es ih =>
      rw [List.foldl_cons, ih, getElem?_gatedPut]
      by_cases hk : e.1 = k
      · rw [if_pos hk, List.filter_cons_of_pos (by simpa using hk), List.map_cons, List.foldl_cons]
      · rw [if_neg hk, List.filter_cons_of_neg (by simpa using hk)]

theorem foldl_gatedPut_twice (es : List (α × β)) (t : ExtTreeMap α β cmp) :
    es.foldl (gatedPut key) (es.foldl (gatedPut key) t) = es.foldl (gatedPut key) t := by
  refine ExtTreeMap.ext_getElem? fun k => ?_
  simp only [getElem?_foldl_gatedPut, foldl_gated_twice]

/-- **A list that is cut off and started again** leaves what it leaves in one go. -/
theorem foldl_gatedPut_resumed {cut es : List (α × β)} (h : cut <+: es) (t : ExtTreeMap α β cmp) :
    es.foldl (gatedPut key) (cut.foldl (gatedPut key) t) = es.foldl (gatedPut key) t := by
  obtain ⟨rest, rfl⟩ := h
  rw [List.foldl_append, List.foldl_append, foldl_gatedPut_twice]

end Store

end Base
