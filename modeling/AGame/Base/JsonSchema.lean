import AGame.Base.Json

/-!
# JSON Schema

The keywords `type`, `properties`, `required`, `minLength`, `maxLength` and `enum`, on
objects and strings. As in JSON Schema, what is not named in `properties` may be anything.
-/

namespace Base.Json

/-- A member of an object; the last one with its key counts. -/
def member (members : List (String × Value)) (key : String) : Option Value :=
  members.reverse.lookup key

inductive Schema where
  | string (minLength maxLength : Option ℕ) (enum : Option (List String))
  | object (properties : List (String × Schema)) (required : List String)

namespace Schema

/-- A string against `minLength`, `maxLength` and `enum`. -/
def fits (minLength maxLength : Option ℕ) (enum : Option (List String)) (s : String) : Bool :=
  minLength.all (fun n => decide (n ≤ s.length)) &&
    maxLength.all (fun n => decide (s.length ≤ n)) && enum.all fun values => values.contains s

mutual

def accepts : Schema → Value → Bool
  | .string minLength maxLength enum, .str s => fits minLength maxLength enum s
  | .string _ _ _, _ => false
  | .object properties required, .obj members =>
      required.all (fun key => (member members key).isSome) &&
        acceptsProperties properties members
  | .object _ _, _ => false

def acceptsProperties : List (String × Schema) → List (String × Value) → Bool
  | [], _ => true
  | (key, schema) :: properties, members =>
      (match member members key with
        | some v => accepts schema v
        | none => true) && acceptsProperties properties members

end

theorem accepts_string {minLength maxLength : Option ℕ} {enum : Option (List String)} {v : Value} :
    accepts (.string minLength maxLength enum) v = true ↔
      ∃ s, v = .str s ∧ fits minLength maxLength enum s = true := by
  cases v with
  | str s => exact ⟨fun h => ⟨s, rfl, h⟩, fun ⟨s', hs, h⟩ => by cases hs; exact h⟩
  | _ => exact iff_of_false (fun h => nomatch h) fun ⟨_, hs, _⟩ => nomatch hs

/-- A required member is there, and a named member that is there is accepted. -/
theorem accepts_object {properties : List (String × Schema)} {required : List String} {v : Value} :
    accepts (.object properties required) v = true ↔
      ∃ members, v = .obj members ∧ (∀ key ∈ required, (member members key).isSome = true) ∧
        ∀ e ∈ properties, ∀ w, member members e.1 = some w → accepts e.2 w = true := by
  have hproperties : ∀ members, acceptsProperties properties members = true ↔
      ∀ e ∈ properties, ∀ w, member members e.1 = some w → accepts e.2 w = true := by
    intro members
    induction properties with
    | nil => exact iff_of_true rfl fun e he => absurd he List.not_mem_nil
    | cons e properties ih =>
        rw [acceptsProperties, Bool.and_eq_true, ih, List.forall_mem_cons]
        refine and_congr_left fun _ => ?_
        cases member members e.1 with
        | none => exact iff_of_true rfl nofun
        | some v => exact ⟨fun h w hw => by cases hw; exact h, fun h => h v rfl⟩
  cases v with
  | obj members =>
      rw [accepts, Bool.and_eq_true, List.all_eq_true, hproperties]
      exact ⟨fun h => ⟨members, rfl, h⟩, fun ⟨members', hv, h⟩ => by cases hv; exact h⟩
  | _ => exact iff_of_false (fun h => nomatch h) fun ⟨_, hv, _⟩ => nomatch hv

/-- Where every named member is required, each of them is there and accepted. -/
theorem accepts_all_required {properties : List (String × Schema)}
    {members : List (String × Value)} :
    accepts (.object properties (properties.map Prod.fst)) (.obj members) = true ↔
      ∀ e ∈ properties, ∃ w, member members e.1 = some w ∧ accepts e.2 w = true := by
  rw [accepts_object]
  constructor
  · rintro ⟨members', hsame, hrequired, hproperties⟩ e he
    cases hsame
    obtain ⟨w, hw⟩ := Option.isSome_iff_exists.mp (hrequired e.1 (List.mem_map_of_mem he))
    exact ⟨w, hw, hproperties e he w hw⟩
  · intro h
    refine ⟨members, rfl, fun key hkey => ?_, fun e he v hv => ?_⟩
    · obtain ⟨e, he, rfl⟩ := List.mem_map.mp hkey
      obtain ⟨w, hw, -⟩ := h e he
      rw [hw]
      rfl
    · obtain ⟨w, hw, haccepts⟩ := h e he
      rw [hw] at hv
      exact Option.some.inj hv ▸ haccepts

end Schema

end Base.Json
