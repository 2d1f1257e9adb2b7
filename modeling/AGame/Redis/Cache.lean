import AGame.Base.Store

/-!
# The Redis cache

Both services write a preview under the same key, built from the match id. An
entry may expire at any moment, so its time to live is left out: expiry is a
step of the environment.
-/

namespace AGame

open Std (ExtTreeMap)
open Base

abbrev Cache := ExtTreeMap String String compare

/-- `f"match_id:{match_id}"` -/
def cacheKey (matchId : ℤ) : String := "match_id:" ++ toString matchId

/-- Two matches never share a key. -/
theorem cacheKey_injective : Function.Injective cacheKey := by
  intro i j h
  have hdigits : toString i = toString j := by
    have hchars := congrArg String.toList h
    simp only [cacheKey, String.toList_append] at hchars
    exact String.toList_inj.mp (List.append_cancel_left hchars)
  exact Int.repr_inj.mp hdigits

/-- `redis.get` -/
def Cache.get (cache : Cache) (matchId : ℤ) : Option String := cache[cacheKey matchId]?

/-- `redis.set` -/
def Cache.set (cache : Cache) (matchId : ℤ) (text : String) : Cache :=
  cache.insert (cacheKey matchId) text

/-- An entry reaches the end of its time to live. -/
def Cache.expire (cache : Cache) (matchId : ℤ) : Cache := cache.erase (cacheKey matchId)

theorem Cache.get_set (cache : Cache) (i j : ℤ) (text : String) :
    (cache.set i text).get j = if i = j then some text else cache.get j := by
  rw [get, set, getElem?_put]
  simp only [cacheKey_injective.eq_iff]
  rfl

/-- A write is seen at its match and nowhere else. -/
theorem Cache.get_set_cases (cache : Cache) (i j : ℤ) (text : String) :
    (i = j ∧ (cache.set i text).get j = some text) ∨
      (cache.set i text).get j = cache.get j := by
  rw [get_set]
  split_ifs with h
  · exact Or.inl ⟨h, rfl⟩
  · exact Or.inr rfl

theorem Cache.get_expire (cache : Cache) (i j : ℤ) :
    (cache.expire i).get j = if i = j then none else cache.get j := by
  rw [get, expire, ExtTreeMap.getElem?_erase]
  simp only [Std.LawfulEqCmp.compare_eq_iff_eq, cacheKey_injective.eq_iff]
  rfl

end AGame
