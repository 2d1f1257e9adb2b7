import Mathlib.Data.List.Nodup

/-!
# Dictionaries that keep their order

Python's `dict` as the list of its entries: assigning to a key that is there keeps its
place. A dictionary is determined by its keys and what they lead to, so that one built from
pairs does not depend on how often a pair is assigned again (`ofPairs_eq`).
-/

namespace Base

/-- A `dict` with string keys, in the order of insertion. -/
abbrev Dict (α : Type) := List (String × α)

namespace Dict

variable {α : Type} {d : Dict α}

/-- `d[key] = value` -/
def set (key : String) (value : α) : Dict α → Dict α
  | [] => [(key, value)]
  | e :: d => if e.1 = key then (key, value) :: d else e :: set key value d

def keys (d : Dict α) : List String := d.map Prod.fst

/-- `dict(pairs)` -/
def ofPairs (pairs : List (String × α)) : Dict α := pairs.foldl (fun d e => set e.1 e.2 d) []

theorem lookup_entry (e : String × α) (d : Dict α) (name : String) :
    List.lookup name (e :: d) = if name = e.1 then some e.2 else d.lookup name := by
  rw [List.lookup_cons]
  by_cases hname : name = e.1
  · rw [if_pos hname, beq_iff_eq.mpr hname]
  · rw [if_neg hname, beq_eq_false_iff_ne.mpr hname]

theorem lookup_set (key : String) (value : α) (d : Dict α) (name : String) :
    (set key value d).lookup name = if name = key then some value else d.lookup name := by
  induction d with
  | nil => exact lookup_entry (key, value) [] name
  | cons e d ih =>
      rw [set]
      by_cases he : e.1 = key
      · rw [if_pos he, lookup_entry, lookup_entry, he]
        split <;> rfl
      · rw [if_neg he, lookup_entry, lookup_entry, ih]
        by_cases hname : name = e.1
        · rw [if_pos hname, if_neg (hname ▸ he), if_pos hname]
        · rw [if_neg hname, if_neg hname]

/-- The keys of a dictionary after one more assignment. -/
def addKey (keys : List String) (key : String) : List String :=
  if key ∈ keys then keys else keys ++ [key]

theorem keys_set (key : String) (value : α) (d : Dict α) :
    keys (set key value d) = addKey (keys d) key := by
  induction d with
  | nil => rfl
  | cons e d ih =>
      unfold addKey keys at ih ⊢
      rw [set, List.map_cons]
      by_cases he : e.1 = key
      · rw [if_pos he, if_pos (he ▸ List.mem_cons_self), List.map_cons, he]
      · rw [if_neg he, List.map_cons, ih]
        by_cases hmem : key ∈ d.map Prod.fst
        · rw [if_pos hmem, if_pos (List.mem_cons_of_mem _ hmem)]
        · have hnot : key ∉ e.1 :: d.map Prod.fst :=
            fun h => (List.mem_cons.mp h).elim (fun h => he h.symm) hmem
          rw [if_neg hmem, if_neg hnot, List.cons_append]

theorem mem_addKey {names : List String} {key name : String} :
    name ∈ addKey names key ↔ name = key ∨ name ∈ names := by
  unfold addKey
  split
  · rename_i hkey
    exact ⟨.inr, fun h => h.elim (fun h => h ▸ hkey) id⟩
  · rw [List.mem_append, List.mem_singleton, or_comm]

theorem nodup_addKey {names : List String} (h : names.Nodup) (key : String) :
    (addKey names key).Nodup := by
  unfold addKey
  split
  · exact h
  · rename_i hkey
    exact List.nodup_append.mpr ⟨h, List.nodup_singleton key, fun a ha b hb hab =>
      hkey ((List.mem_singleton.mp hb) ▸ hab ▸ ha)⟩

theorem lookup_eq_none {name : String} : d.lookup name = none ↔ name ∉ keys d := by
  induction d with
  | nil => exact ⟨fun _ => List.not_mem_nil, fun _ => rfl⟩
  | cons e d ih =>
      rw [lookup_entry, keys, List.map_cons, List.mem_cons, not_or]
      by_cases hname : name = e.1
      · simp only [hname, if_true, reduceCtorEq, not_true, false_and]
      · rw [if_neg hname, ih]
        exact ⟨fun h => ⟨hname, h⟩, fun h => h.2⟩

/-- With distinct keys the order is no matter. -/
theorem lookup_reverse (h : (keys d).Nodup) (name : String) :
    d.reverse.lookup name = d.lookup name := by
  induction d with
  | nil => rfl
  | cons e d ih =>
      obtain ⟨hnew, hrest⟩ := List.nodup_cons.mp h
      rw [List.reverse_cons, List.lookup_append, ih hrest, lookup_entry, lookup_entry]
      by_cases hname : name = e.1
      · rw [if_pos hname, if_pos hname, hname, lookup_eq_none.mpr hnew, Option.none_or]
      · rw [if_neg hname, if_neg hname]
        exact Option.or_none

theorem mem_of_lookup {name : String} {value : α} (h : d.lookup name = some value) :
    (name, value) ∈ d := by
  obtain ⟨before, after, rfl, -⟩ := List.lookup_eq_some_iff.mp h
  exact List.mem_append_right _ List.mem_cons_self

/-- The keys in order and their values are all there is. -/
theorem ext_lookup {d' : Dict α} (h : (keys d).Nodup) (hkeys : keys d = keys d')
    (hlookup : ∀ name, d.lookup name = d'.lookup name) : d = d' := by
  induction d generalizing d' with
  | nil => exact (List.map_eq_nil_iff.mp hkeys.symm).symm
  | cons e d ih =>
      cases d' with
      | nil => cases hkeys
      | cons e' d' =>
          rw [keys, List.map_cons] at h
          rw [keys, keys, List.map_cons, List.map_cons] at hkeys
          obtain ⟨hkey, hrest⟩ := List.cons.inj hkeys
          have hvalue := hlookup e.1
          rw [lookup_entry, lookup_entry, if_pos rfl, if_pos hkey] at hvalue
          have he : e = e' := Prod.ext hkey (Option.some.inj hvalue)
          refine he ▸ congrArg (e :: ·) (ih (List.nodup_cons.mp h).2 hrest fun name => ?_)
          by_cases hname : name = e.1
          · have hnot : name ∉ keys d := hname ▸ (List.nodup_cons.mp h).1
            have hnot' : name ∉ keys d' := by
              show name ∉ d'.map Prod.fst
              rw [← hrest]
              exact hnot
            rw [lookup_eq_none.mpr hnot, lookup_eq_none.mpr hnot']
          · have htail := hlookup name
            rw [lookup_entry, lookup_entry, if_neg hname, ← hkey, if_neg hname] at htail
            exact htail

/-! ## Dictionaries from pairs -/

theorem keys_foldl_set (pairs : List (String × α)) (d : Dict α) :
    keys (pairs.foldl (fun d e => set e.1 e.2 d) d) =
      (pairs.map Prod.fst).foldl addKey (keys d) := by
  induction pairs generalizing d with
  | nil => rfl
  | cons e pairs ih => rw [List.foldl_cons, ih, keys_set, List.map_cons, List.foldl_cons]

theorem nodup_ofPairs (pairs : List (String × α)) : (keys (ofPairs pairs)).Nodup := by
  have hfold : ∀ names acc : List String, acc.Nodup → (names.foldl addKey acc).Nodup := by
    intro names
    induction names with
    | nil => exact fun acc h => h
    | cons name names ih => exact fun acc h => ih _ (nodup_addKey h name)
  rw [ofPairs, keys_foldl_set]
  exact hfold _ _ List.nodup_nil

theorem mem_of_lookup_foldl {pairs : List (String × α)} {name : String} {value : α}
    (h : (pairs.foldl (fun d e => set e.1 e.2 d) d).lookup name = some value) :
    (name, value) ∈ pairs ∨ d.lookup name = some value := by
  induction pairs generalizing d with
  | nil => exact .inr h
  | cons e pairs ih =>
      rcases ih h with hmem | hlookup
      · exact .inl (List.mem_cons_of_mem _ hmem)
      · rw [lookup_set] at hlookup
        split at hlookup
        · rename_i hname
          refine .inl (List.mem_cons.mpr (.inl ?_))
          rw [hname, ← Option.some.inj hlookup]
        · exact .inr hlookup

/-- What a key leads to was assigned to it. -/
theorem mem_of_lookup_ofPairs {pairs : List (String × α)} {name : String} {value : α}
    (h : (ofPairs pairs).lookup name = some value) : (name, value) ∈ pairs :=
  (mem_of_lookup_foldl h).resolve_right nofun

/-- What was assigned to is a key. -/
theorem lookup_ofPairs {pairs : List (String × α)} {e : String × α} (he : e ∈ pairs) :
    ∃ value, (ofPairs pairs).lookup e.1 = some value := by
  have hfold : ∀ names acc : List String, ∀ name, name ∈ names ∨ name ∈ acc →
      name ∈ names.foldl addKey acc := by
    intro names
    induction names with
    | nil => exact fun acc name h => h.resolve_left List.not_mem_nil
    | cons name names ih =>
        intro acc name' h
        refine ih _ _ ?_
        rw [mem_addKey]
        rcases h with h | h
        · rcases List.mem_cons.mp h with rfl | h
          · exact .inr (.inl rfl)
          · exact .inl h
        · exact .inr (.inr h)
  have hkey : e.1 ∈ keys (ofPairs pairs) := by
    rw [ofPairs, keys_foldl_set]
    exact hfold _ _ _ (.inl (List.mem_map_of_mem he))
  exact Option.ne_none_iff_exists'.mp fun h => lookup_eq_none.mp h hkey

/-- Assigning to the same keys, in the same order, what they lead to in the end. -/
theorem ofPairs_eq {pairs pairs' : List (String × α)}
    (hkeys : pairs'.map Prod.fst = pairs.map Prod.fst)
    (h : ∀ e ∈ pairs', (ofPairs pairs).lookup e.1 = some e.2) : ofPairs pairs' = ofPairs pairs := by
  have hsame : keys (ofPairs pairs') = keys (ofPairs pairs) := by
    rw [ofPairs, ofPairs, keys_foldl_set, keys_foldl_set, hkeys]
  refine ext_lookup (nodup_ofPairs pairs') hsame fun name => ?_
  cases hlookup : (ofPairs pairs').lookup name with
  | some value => exact (h _ (mem_of_lookup_ofPairs hlookup)).symm
  | none => exact (lookup_eq_none.mpr (hsame ▸ lookup_eq_none.mp hlookup)).symm

theorem set_new {d : Dict α} {key : String} (h : key ∉ keys d) (value : α) :
    set key value d = d ++ [(key, value)] := by
  induction d with
  | nil => rfl
  | cons e d ih =>
      obtain ⟨hne, hnot⟩ := not_or.mp (mt List.mem_cons.mpr h)
      rw [set, if_neg (Ne.symm hne), ih hnot]
      rfl

/-- Distinct keys are assigned to one after the other. -/
theorem ofPairs_of_nodup {pairs : List (String × α)} (h : (keys pairs).Nodup) :
    ofPairs pairs = pairs := by
  have hfold : ∀ (rest d : Dict α), (keys (d ++ rest)).Nodup →
      rest.foldl (fun d e => set e.1 e.2 d) d = d ++ rest := by
    intro rest
    induction rest with
    | nil => exact fun d _ => (List.append_nil d).symm
    | cons e rest ih =>
        intro d hnodup
        have hnew : e.1 ∉ keys d := by
          rw [keys, List.map_append, List.map_cons] at hnodup
          exact fun hmem => (List.disjoint_of_nodup_append hnodup) hmem List.mem_cons_self
        have happend : d ++ [(e.1, e.2)] ++ rest = d ++ e :: rest := by
          rw [List.append_assoc, List.singleton_append]
        rw [List.foldl_cons, set_new hnew, ih _ (happend ▸ hnodup), happend]
  exact hfold pairs [] h

end Dict

end Base
