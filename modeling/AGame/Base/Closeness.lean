import AGame.Base.Replay
import AGame.Base.Store

/-!
# Stores that are close

Two stores with the same keys, the values of one at most `ε` above those of the
other (`Above`). Writes, parts and means keep the distance, so a machine whose every
step keeps it never lets two runs on the same input drift apart
(`Above.replay`).
-/

namespace Base

open Std (ExtTreeMap TransCmp LawfulEqCmp)

universe u v w

variable {α : Type u} {γ : Type v} {cmp : α → α → Ordering} [TransCmp cmp]

/-- `t` and `t'` have the same keys, and what `t` holds is at most `ε` above what `t'`
holds. -/
structure Above [Add γ] [LE γ] (ε : γ) (t t' : ExtTreeMap α γ cmp) : Prop where
  keys : ∀ k, k ∈ t ↔ k ∈ t'
  values : ∀ (k : α) (v v' : γ), t[k]? = some v → t'[k]? = some v' → v ≤ v' + ε

section

variable [AddCommGroup γ] [LinearOrder γ] {ε : γ} {t t' : ExtTreeMap α γ cmp}

theorem Above.refl (t : ExtTreeMap α γ cmp) : Above 0 t t where
  keys := fun _ => Iff.rfl
  values := by
    intro k v v' hv hv'
    rw [hv] at hv'
    rw [add_zero, Option.some.inj hv']

theorem Above.mono [IsOrderedAddMonoid γ] {δ : γ} (h : Above ε t t') (hle : ε ≤ δ) :
    Above δ t t' where
  keys := h.keys
  values := fun k v v' hv hv' => (h.values k v v' hv hv').trans (add_le_add_right hle v')

theorem Above.getD (h : Above ε t t') {d d' : γ} (hd : d ≤ d' + ε) (k : α) :
    t.getD k d ≤ t'.getD k d' + ε := by
  rw [ExtTreeMap.getD_eq_getD_getElem?, ExtTreeMap.getD_eq_getD_getElem?]
  by_cases hk : k ∈ t
  · obtain ⟨v, hv⟩ := mem_iff_getElem?.mp hk
    obtain ⟨v', hv'⟩ := mem_iff_getElem?.mp ((h.keys k).mp hk)
    rw [hv, hv']
    exact h.values k v v' hv hv'
  · rw [ExtTreeMap.getElem?_eq_none hk,
      ExtTreeMap.getElem?_eq_none (fun hk' => hk ((h.keys k).mpr hk'))]
    exact hd

/-- A machine whose steps on these inputs keep the distance keeps it over the whole input. -/
theorem Above.replay {ι : Type w} {β : Type*}
    {step : ExtTreeMap α γ cmp → ι → ExtTreeMap α γ cmp × β} {l : List ι}
    (hstep : ∀ t t', Above ε t t' → ∀ a ∈ l, Above ε (step t a).1 (step t' a).1)
    (h : Above ε t t') : Above ε (finalState step t l) (finalState step t' l) := by
  induction l generalizing t t' with
  | nil => exact h
  | cons a l ih =>
      rw [finalState_cons, finalState_cons]
      refine ih (fun t t' h b hb => hstep t t' h b (List.mem_cons_of_mem _ hb)) ?_
      exact hstep t t' h a List.mem_cons_self

variable [LawfulEqCmp cmp]

theorem Above.put [DecidableEq α] (h : Above ε t t') {k : α} {v v' : γ} (hv : v ≤ v' + ε) :
    Above ε (t.insert k v) (t'.insert k v') where
  keys := by
    intro a
    rw [mem_put, mem_put, h.keys a]
  values := by
    intro a w w' hw hw'
    rw [getElem?_put] at hw hw'
    by_cases ha : k = a
    · rw [if_pos ha] at hw hw'
      rw [← Option.some.inj hw, ← Option.some.inj hw']
      exact hv
    · rw [if_neg ha] at hw hw'
      exact h.values a w w' hw hw'

theorem Above.inPart (h : Above ε t t') (p : α → Bool) : Above ε (part p t) (part p t') where
  keys := by
    intro k
    rw [mem_iff_getElem?, mem_iff_getElem?, getElem?_part, getElem?_part]
    by_cases hk : p k = true
    · rw [if_pos hk, if_pos hk, ← mem_iff_getElem?, ← mem_iff_getElem?]
      exact h.keys k
    · rw [if_neg hk, if_neg hk]
  values := by
    intro k v v' hv hv'
    rw [getElem?_part] at hv hv'
    split_ifs at hv hv' with hk
    exact h.values k v v' hv hv'

theorem Above.perm_keys (h : Above ε t t') : t.keys.Perm t'.keys := by
  refine (List.perm_ext_iff_of_nodup ExtTreeMap.nodup_keys ExtTreeMap.nodup_keys).mpr ?_
  intro k
  rw [ExtTreeMap.mem_keys, ExtTreeMap.mem_keys, h.keys]

theorem Above.size_eq (h : Above ε t t') : t.size = t'.size := by
  rw [← ExtTreeMap.length_keys, ← ExtTreeMap.length_keys, h.perm_keys.length_eq]

/-- Totals are apart by the distance for each entry. -/
theorem Above.total_le [IsOrderedAddMonoid γ] (h : Above ε t t') :
    total (fun _ v => v) t ≤ total (fun _ v => v) t' + t'.size • ε := by
  have hsize : t'.size • ε = (t.keys.map fun _ => ε).sum := by
    rw [List.map_const', List.sum_replicate, ExtTreeMap.length_keys, h.size_eq]
  rw [total_eq_sum_keys, total_eq_sum_keys, ← (h.perm_keys.map _).sum_eq, hsize,
    ← List.sum_map_add]
  refine List.sum_le_sum fun k hk => ?_
  obtain ⟨v, hv⟩ := mem_iff_getElem?.mp (ExtTreeMap.mem_keys.mp hk)
  obtain ⟨v', hv'⟩ := mem_iff_getElem?.mp ((h.keys k).mp (ExtTreeMap.mem_keys.mp hk))
  rw [hv, hv']
  exact h.values k v v' hv hv'

/-- Means over a field are as close as the entries. -/
theorem Above.mean {γ : Type v} [Field γ] [LinearOrder γ] [IsStrictOrderedRing γ] {ε : γ}
    {t t' : ExtTreeMap α γ cmp} (h : Above ε t t') (hsome : t'.size ≠ 0) :
    total (fun _ v => v) t / (t.size : γ) ≤ total (fun _ v => v) t' / (t'.size : γ) + ε := by
  have hpos : (0 : γ) < (t'.size : γ) := by
    exact_mod_cast Nat.pos_of_ne_zero hsome
  rw [h.size_eq, div_add' _ _ _ hpos.ne', div_le_div_iff_of_pos_right hpos]
  have htotal := h.total_le
  rwa [nsmul_eq_mul, mul_comm] at htotal

end

end Base
