import Mathlib

/-!
# Keyed stores

A store is Lean's extensional tree map: two stores with the same contents are
equal, whatever order they were filled in. This file adds a comparison for
pairs, so that pairs can be keys, and the few facts about the listing of a
store that reasoning about folds over it needs. A store is also read as a whole,
through the total of a quantity over its entries, and in part, through the
entries whose keys are in a class. Last comes what it means that a store only
ever gains entries, and which ones.
-/

namespace Base

open Std

universe u v w

variable {α : Type u} {β : Type v}

/-- Compare pairs by the first component, then by the second. -/
def pairCmp [Ord α] [Ord β] : α × β → α × β → Ordering :=
  compareLex (compareOn Prod.fst) (compareOn Prod.snd)

instance [Ord α] [Ord β] [TransOrd α] [TransOrd β] :
    TransCmp (pairCmp (α := α) (β := β)) :=
  inferInstanceAs (TransCmp (compareLex (compareOn Prod.fst) (compareOn Prod.snd)))

instance [Ord α] [Ord β] [LawfulEqOrd α] [LawfulEqOrd β] :
    LawfulEqCmp (pairCmp (α := α) (β := β)) where
  compare_self := by
    intro a
    simp [pairCmp, compareLex, compareOn]
  eq_of_compare := by
    intro a b h
    simp only [pairCmp, compareLex, compareOn, Ordering.then_eq_eq,
      LawfulEqOrd.compare_eq_iff_eq] at h
    exact Prod.ext h.1 h.2

variable {cmp : α → α → Ordering} [TransCmp cmp]

theorem mem_iff_getElem? {t : ExtTreeMap α β cmp} {k : α} :
    k ∈ t ↔ ∃ v, t[k]? = some v := by
  rw [← ExtTreeMap.isSome_getElem?_iff_mem, Option.isSome_iff_exists]

variable [LawfulEqCmp cmp]

/-! ## Reading a store back

`getElem?_insert` and `mem_insert` with the comparison read as equality. -/

theorem getElem?_put [DecidableEq α] {t : ExtTreeMap α β cmp} {k a : α} {v : β} :
    (t.insert k v)[a]? = if k = a then some v else t[a]? := by
  rw [ExtTreeMap.getElem?_insert]
  simp only [LawfulEqCmp.compare_eq_iff_eq]

theorem mem_put {t : ExtTreeMap α β cmp} {k a : α} {v : β} :
    a ∈ t.insert k v ↔ k = a ∨ a ∈ t := by
  rw [ExtTreeMap.mem_insert, LawfulEqCmp.compare_eq_iff_eq]

theorem mem_put_of_mem {t : ExtTreeMap α β cmp} {k a : α} {v : β} (h : a ∈ t) :
    a ∈ t.insert k v :=
  mem_put.mpr (Or.inr h)

theorem getElem?_keep {t : ExtTreeMap α β cmp} {f : α → β → Bool} {k : α} {v : β} :
    (t.filter f)[k]? = some v ↔ t[k]? = some v ∧ f k v = true := by
  rw [← ExtTreeMap.mem_toList_iff_getElem?_eq_some, ExtTreeMap.toList_filter,
    List.mem_filter, ExtTreeMap.mem_toList_iff_getElem?_eq_some]

/-- A listing never repeats a key, so it never repeats an entry. -/
theorem nodup_toList (t : ExtTreeMap α β cmp) : t.toList.Nodup := by
  refine (ExtTreeMap.distinct_keys_toList (t := t)).imp ?_
  rintro a b hab rfl
  exact hab (by simp)

/-- A store lists what it holds, in some order. -/
theorem toList_perm_of_holds {t : ExtTreeMap α β cmp} {l : List (α × β)} (hl : l.Nodup)
    (h : ∀ (k : α) (v : β), t[k]? = some v ↔ (k, v) ∈ l) : t.toList.Perm l := by
  refine (List.perm_ext_iff_of_nodup (nodup_toList t) hl).mpr ?_
  rintro ⟨k, v⟩
  rw [ExtTreeMap.mem_toList_iff_getElem?_eq_some]
  exact h k v

/-- Two stores that hold the same entries are the same store. -/
theorem store_ext {t t' : ExtTreeMap α β cmp}
    (h : ∀ (k : α) (v : β), t[k]? = some v ↔ t'[k]? = some v) : t = t' := by
  refine ExtTreeMap.ext_getElem? fun k => ?_
  exact Option.ext fun v => h k v

theorem put_same [DecidableEq α] {t : ExtTreeMap α β cmp} {k : α} {v : β} (h : t[k]? = some v) :
    t.insert k v = t := by
  refine store_ext fun a w => ?_
  rw [getElem?_put]
  split_ifs with hk
  · rw [← hk, h]
  · rfl

/-- A first write decides: a later one leaves the store as it is. -/
theorem insertIfNew_held {t : ExtTreeMap α β cmp} {k : α} (v : β) (h : k ∈ t) :
    t.insertIfNew k v = t := by
  refine ExtTreeMap.ext_getElem? fun a => ?_
  rw [ExtTreeMap.getElem?_insertIfNew, if_neg]
  rintro ⟨-, hnew⟩
  exact hnew h

theorem insertIfNew_new [DecidableEq α] {t : ExtTreeMap α β cmp} {k : α} (v : β) (h : k ∉ t) :
    t.insertIfNew k v = t.insert k v := by
  refine ExtTreeMap.ext_getElem? fun a => ?_
  rw [ExtTreeMap.getElem?_insertIfNew, getElem?_put]
  simp only [LawfulEqCmp.compare_eq_iff_eq, h, not_false_eq_true, and_true]

/-! ## Part of a store -/

section Part

variable {p : α → Bool}

/-- The entries whose keys are in a class. -/
def part (p : α → Bool) (t : ExtTreeMap α β cmp) : ExtTreeMap α β cmp :=
  t.filter fun k _ => p k

theorem getElem?_part {t : ExtTreeMap α β cmp} {k : α} :
    (part p t)[k]? = if p k = true then t[k]? else none := by
  apply Option.ext
  intro v
  rw [part, getElem?_keep]
  split_ifs with hk
  · simp [hk]
  · simp [hk]

theorem getD_part {t : ExtTreeMap α β cmp} {k : α} (hk : p k = true) (fallback : β) :
    (part p t).getD k fallback = t.getD k fallback := by
  rw [ExtTreeMap.getD_eq_getD_getElem?, ExtTreeMap.getD_eq_getD_getElem?, getElem?_part,
    if_pos hk]

omit [LawfulEqCmp cmp] in
theorem toList_part (t : ExtTreeMap α β cmp) :
    (part p t).toList = t.toList.filter fun e => p e.1 :=
  ExtTreeMap.toList_filter

variable [DecidableEq α]

theorem part_put (t : ExtTreeMap α β cmp) {k : α} (v : β) (hk : p k = true) :
    part p (t.insert k v) = (part p t).insert k v := by
  refine ExtTreeMap.ext_getElem? fun a => ?_
  rw [getElem?_part, getElem?_put, getElem?_put, getElem?_part]
  by_cases ha : k = a
  · rw [if_pos ha, if_pos ha, if_pos (ha ▸ hk)]
  · rw [if_neg ha, if_neg ha]

theorem part_put_outside (t : ExtTreeMap α β cmp) {k : α} (v : β) (hk : p k = false) :
    part p (t.insert k v) = part p t := by
  refine ExtTreeMap.ext_getElem? fun a => ?_
  rw [getElem?_part, getElem?_put, getElem?_part]
  by_cases ha : k = a
  · rw [← ha, hk]
    rfl
  · rw [if_neg ha]

end Part

/-! ## A store written from a listing -/

section Listing

variable [DecidableEq α] {γ : Type w} (f : α → β → γ)

theorem getElem?_foldl_insert {l : List (α × β)} (hkeys : l.Pairwise fun a b => a.1 ≠ b.1)
    (t : ExtTreeMap α γ cmp) :
    (∀ e ∈ l, (l.foldl (fun acc e => acc.insert e.1 (f e.1 e.2)) t)[e.1]? = some (f e.1 e.2)) ∧
      ∀ k, (∀ e ∈ l, e.1 ≠ k) →
        (l.foldl (fun acc e => acc.insert e.1 (f e.1 e.2)) t)[k]? = t[k]? := by
  induction l generalizing t with
  | nil => simp
  | cons e l ih =>
      obtain ⟨hhead, htail⟩ := List.pairwise_cons.mp hkeys
      obtain ⟨hwritten, hkept⟩ := ih htail (t.insert e.1 (f e.1 e.2))
      simp only [List.foldl_cons]
      constructor
      · intro e' he'
        rcases List.mem_cons.mp he' with rfl | he'
        · rw [hkept _ fun e' he' => (hhead e' he').symm, getElem?_put, if_pos rfl]
        · exact hwritten e' he'
      · intro k hk
        rw [hkept k fun e' he' => hk e' (List.mem_cons_of_mem _ he'), getElem?_put,
          if_neg (hk e List.mem_cons_self)]

/-- Writing a new store entry by entry maps the old one. -/
theorem foldl_insert_toList (t : ExtTreeMap α β cmp) :
    t.toList.foldl (fun acc e => acc.insert e.1 (f e.1 e.2)) (∅ : ExtTreeMap α γ cmp) =
      t.map f := by
  have hkeys : t.toList.Pairwise fun a b => a.1 ≠ b.1 := by
    refine (ExtTreeMap.distinct_keys_toList (t := t)).imp ?_
    intro a b hab heq
    exact hab (LawfulEqCmp.compare_eq_iff_eq.mpr heq)
  obtain ⟨hwritten, hkept⟩ := getElem?_foldl_insert f hkeys (∅ : ExtTreeMap α γ cmp)
  apply ExtTreeMap.ext_getElem?
  intro k
  rw [ExtTreeMap.getElem?_map]
  cases hk : t[k]? with
  | some v =>
      exact hwritten (k, v) (ExtTreeMap.mem_toList_iff_getElem?_eq_some.mpr hk)
  | none =>
      rw [hkept k]
      · exact ExtTreeMap.getElem?_empty
      · rintro ⟨k', v⟩ he rfl
        rw [ExtTreeMap.mem_toList_iff_getElem?_eq_some, hk] at he
        cases he

end Listing

/-! ## Totals over a store -/

section Total

variable [DecidableEq α] {γ : Type w} [AddCommMonoid γ] (f : α → β → γ)

theorem getElem?_erased {t : ExtTreeMap α β cmp} {k a : α} :
    (t.erase k)[a]? = if k = a then none else t[a]? := by
  rw [ExtTreeMap.getElem?_erase]
  simp only [LawfulEqCmp.compare_eq_iff_eq]

theorem erase_absent {t : ExtTreeMap α β cmp} {k : α} (h : k ∉ t) : t.erase k = t := by
  refine ExtTreeMap.ext_getElem? fun a => ?_
  rw [getElem?_erased]
  split_ifs with hk
  · rw [← hk, ExtTreeMap.getElem?_eq_none h]
  · rfl

/-- After a write a store lists the entry written and what stands beside it. -/
theorem toList_put (t : ExtTreeMap α β cmp) (k : α) (v : β) :
    (t.insert k v).toList.Perm ((k, v) :: (t.erase k).toList) := by
  apply toList_perm_of_holds
  · rw [List.nodup_cons]
    refine ⟨?_, nodup_toList _⟩
    rw [ExtTreeMap.mem_toList_iff_getElem?_eq_some, getElem?_erased, if_pos rfl]
    exact Option.some_ne_none v ∘ Eq.symm
  · intro a w
    rw [getElem?_put, List.mem_cons, ExtTreeMap.mem_toList_iff_getElem?_eq_some,
      getElem?_erased]
    by_cases h : k = a
    · subst h
      simp [eq_comm]
    · simp [h, Ne.symm h]

/-- The sum of a quantity over the entries. -/
def total (t : ExtTreeMap α β cmp) : γ := (t.toList.map fun e => f e.1 e.2).sum

omit [LawfulEqCmp cmp] [DecidableEq α] in
/-- Counting the entries. -/
theorem total_one (t : ExtTreeMap α β cmp) : total (fun _ _ => 1) t = t.size := by
  rw [total, List.map_const', List.sum_replicate, ExtTreeMap.length_toList, smul_eq_mul, mul_one]

omit [DecidableEq α] in
theorem total_eq_sum_keys (t : ExtTreeMap α β cmp) :
    total f t = (t.keys.map fun k => t[k]?.elim 0 (f k)).sum := by
  rw [total, ← ExtTreeMap.map_fst_toList_eq_keys, List.map_map]
  congr 1
  refine List.map_congr_left fun e he => ?_
  simp [ExtTreeMap.mem_toList_iff_getElem?_eq_some.mp he]

omit [DecidableEq α] in
/-- Two stores with the same keys are totalled alike when they agree key by key. -/
theorem total_congr {β' : Type v} (g : α → β' → γ) {t : ExtTreeMap α β cmp}
    {t' : ExtTreeMap α β' cmp} (hkeys : ∀ k, k ∈ t ↔ k ∈ t')
    (h : ∀ (k : α) (v : β) (v' : β'), t[k]? = some v → t'[k]? = some v' → f k v = g k v') :
    total f t = total g t' := by
  have hperm : t.keys.Perm t'.keys := by
    refine (List.perm_ext_iff_of_nodup ExtTreeMap.nodup_keys ExtTreeMap.nodup_keys).mpr ?_
    intro k
    rw [ExtTreeMap.mem_keys, ExtTreeMap.mem_keys, hkeys]
  rw [total_eq_sum_keys, total_eq_sum_keys, ← (hperm.map _).sum_eq]
  congr 1
  refine List.map_congr_left fun k hk => ?_
  obtain ⟨v, hv⟩ := mem_iff_getElem?.mp (ExtTreeMap.mem_keys.mp hk)
  obtain ⟨v', hv'⟩ := mem_iff_getElem?.mp ((hkeys k).mp (ExtTreeMap.mem_keys.mp hk))
  rw [hv, hv']
  exact h k v v' hv hv'
theorem total_put (t : ExtTreeMap α β cmp) (k : α) (v : β) :
    total f (t.insert k v) = f k v + total f (t.erase k) := by
  unfold total
  rw [((toList_put t k v).map _).sum_eq, List.map_cons, List.sum_cons]

theorem total_put_new {t : ExtTreeMap α β cmp} {k : α} (v : β) (h : k ∉ t) :
    total f (t.insert k v) = f k v + total f t := by
  rw [total_put, erase_absent h]

theorem total_put_held {t : ExtTreeMap α β cmp} {k : α} {w : β} (v : β) (h : t[k]? = some w) :
    total f (t.insert k v) + f k w = f k v + total f t := by
  have hold : total f t = f k w + total f (t.erase k) := by
    rw [← total_put, put_same h]
  rw [total_put, hold, add_assoc, add_comm (f k w)]

theorem total_insertIfNew (t : ExtTreeMap α β cmp) (k : α) (v : β) :
    total f (t.insertIfNew k v) = (if k ∈ t then 0 else f k v) + total f t := by
  split_ifs with hk
  · rw [insertIfNew_held v hk, zero_add]
  · rw [insertIfNew_new v hk, total_put_new f v hk]

end Total

/-! ## Stores that grow -/

/-- `t'` is `t` with one further entry for each of the values, and no other. -/
structure Grown (t t' : ExtTreeMap α β cmp) (values : Set β) : Prop where
  kept : ∀ (k : α) (v : β), t[k]? = some v → t'[k]? = some v
  once : ∀ v ∈ values, ∃! k : α, k ∉ t ∧ t'[k]? = some v
  noOther : ∀ (k : α) (v : β), k ∉ t → t'[k]? = some v → v ∈ values

omit [LawfulEqCmp cmp] in
theorem Grown.refl (t : ExtTreeMap α β cmp) : Grown t t ∅ where
  kept := fun _ _ h => h
  once := by simp
  noOther := by
    intro k v hk hv
    exact absurd (mem_iff_getElem?.mpr ⟨v, hv⟩) hk

omit [LawfulEqCmp cmp] in
theorem Grown.mem {t t' : ExtTreeMap α β cmp} {values : Set β} (h : Grown t t' values) {k : α}
    (hk : k ∈ t) : k ∈ t' := by
  obtain ⟨v, hv⟩ := mem_iff_getElem?.mp hk
  exact mem_iff_getElem?.mpr ⟨v, h.kept k v hv⟩

theorem Grown.one [DecidableEq α] {t : ExtTreeMap α β cmp} {k : α} (v : β) (h : k ∉ t) :
    Grown t (t.insert k v) {v} where
  kept := by
    intro a w ha
    rw [getElem?_put, if_neg, ha]
    rintro rfl
    exact h (mem_iff_getElem?.mpr ⟨w, ha⟩)
  once := by
    intro w hw
    obtain rfl := Set.mem_singleton_iff.mp hw
    refine ⟨k, ⟨h, by rw [getElem?_put, if_pos rfl]⟩, ?_⟩
    rintro a ⟨hnew, ha⟩
    by_contra hne
    rw [getElem?_put, if_neg (Ne.symm hne)] at ha
    exact hnew (mem_iff_getElem?.mpr ⟨w, ha⟩)
  noOther := by
    intro a w hnew ha
    rw [getElem?_put] at ha
    split_ifs at ha with heq
    · exact (Option.some.inj ha).symm
    · exact absurd (mem_iff_getElem?.mpr ⟨w, ha⟩) hnew

omit [LawfulEqCmp cmp] in
/-- Two growths by different values are one growth by all of them. -/
theorem Grown.trans {t t' t'' : ExtTreeMap α β cmp} {s s' : Set β} (h : Grown t t' s)
    (h' : Grown t' t'' s') (hdisjoint : Disjoint s s') : Grown t t'' (s ∪ s') := by
  -- an entry that is new at the end came with the first growth or with the second
  have hnew : ∀ (k : α) (v : β), k ∉ t → t''[k]? = some v →
      (v ∈ s ∧ t'[k]? = some v) ∨ (v ∈ s' ∧ k ∉ t') := by
    intro k v hk hv
    by_cases hmid : k ∈ t'
    · obtain ⟨w, hw⟩ := mem_iff_getElem?.mp hmid
      obtain rfl : w = v := Option.some.inj ((h'.kept k w hw).symm.trans hv)
      exact Or.inl ⟨h.noOther k w hk hw, hw⟩
    · exact Or.inr ⟨h'.noOther k v hmid hv, hmid⟩
  refine ⟨fun k v hv => h'.kept k v (h.kept k v hv), ?_, ?_⟩
  · rintro v (hv | hv)
    · obtain ⟨k, ⟨hk, hkv⟩, hunique⟩ := h.once v hv
      refine ⟨k, ⟨hk, h'.kept k v hkv⟩, ?_⟩
      rintro a ⟨ha, hav⟩
      rcases hnew a v ha hav with ⟨-, hmid⟩ | ⟨hvs', -⟩
      · exact hunique a ⟨ha, hmid⟩
      · exact absurd hvs' (Set.disjoint_left.mp hdisjoint hv)
    · obtain ⟨k, ⟨hk, hkv⟩, hunique⟩ := h'.once v hv
      refine ⟨k, ⟨fun hold => hk (h.mem hold), hkv⟩, ?_⟩
      rintro a ⟨ha, hav⟩
      rcases hnew a v ha hav with ⟨hvs, -⟩ | ⟨-, hmid⟩
      · exact absurd hv (Set.disjoint_left.mp hdisjoint hvs)
      · exact hunique a ⟨hmid, hav⟩
  · intro k v hk hv
    rcases hnew k v hk hv with ⟨hvs, -⟩ | ⟨hvs', -⟩
    · exact Or.inl hvs
    · exact Or.inr hvs'

end Base
