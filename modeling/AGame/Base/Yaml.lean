import Mathlib

/-!
# YAML trees as Python sees them

What a loader hands over: scalars, lists, and dictionaries with string keys. A
script asks such a value for a field, for its items, for its truth; asked of the
wrong kind of value, Python raises. A tree is also read as a whole, through the
values that occur in it under a path of keys (`Occurs`), where lists add nothing
to the path.
-/

namespace Base

/-- A leaf. Two leaves are equal as Python compares them, but for truth values
and numbers, which are kept apart. -/
inductive Scalar where
  | null
  | bool (b : Bool)
  | int (n : ℤ)
  | str (s : String)
  /-- A float or a date: no string and no integer. -/
  | other (text : String) (truthy : Bool)
deriving DecidableEq, Repr

inductive Yaml where
  | scalar (value : Scalar)
  | seq (items : List Yaml)
  | map (entries : List (String × Yaml))

inductive PyError where
  | attributeError
  | typeError
  | keyError
deriving DecidableEq, Repr

namespace Yaml

def null : Yaml := .scalar .null

def str (s : String) : Yaml := .scalar (.str s)

/-- `bool(node)` -/
def truthy : Yaml → Bool
  | .scalar .null => false
  | .scalar (.bool b) => b
  | .scalar (.int n) => n ≠ 0
  | .scalar (.str s) => s ≠ ""
  | .scalar (.other _ truthy) => truthy
  | .seq items => !items.isEmpty
  | .map entries => !entries.isEmpty

/-- `node.get(key)`, without its default. -/
def get? (node : Yaml) (key : String) : Except PyError (Option Yaml) :=
  match node with
  | .map entries => .ok (entries.lookup key)
  | _ => .error .attributeError

/-- `node or fallback` -/
def orElse (node : Option Yaml) (fallback : Yaml) : Yaml :=
  match node with
  | some value => if value.truthy then value else fallback
  | none => fallback

/-- `node.get(key) or fallback` -/
def getOr (node : Yaml) (key : String) (fallback : Yaml) : Except PyError Yaml := do
  return orElse (← node.get? key) fallback

/-- `for item in node` -/
def iterate : Yaml → Except PyError (List Yaml)
  | .seq items => .ok items
  | .map entries => .ok (entries.map fun e => str e.1)
  | .scalar (.str s) => .ok (s.toList.map fun c => str (String.singleton c))
  | .scalar _ => .error .typeError

/-- `key in node` -/
def contains (node : Yaml) (key : String) : Except PyError Bool :=
  match node with
  | .map entries => .ok (entries.lookup key).isSome
  | .seq items => .ok (items.any fun item =>
      match item with
      | .scalar value => value = .str key
      | _ => false)
  | .scalar (.str s) => .ok (decide (key.toList <:+: s.toList))
  | .scalar _ => .error .typeError

/-- `node.items()` -/
def pairs : Yaml → Except PyError (List (String × Yaml))
  | .map entries => .ok entries
  | _ => .error .attributeError

/-- A value that goes into a set. -/
def hashable : Yaml → Except PyError Scalar
  | .scalar value => .ok value
  | _ => .error .typeError

/-- The value under a key of a dictionary, if it is one. -/
def field? (node : Yaml) (key : String) : Option Yaml :=
  match node with
  | .map entries => entries.lookup key
  | _ => none

/-! ## On dictionaries and lists -/

@[simp] theorem get?_map (entries : List (String × Yaml)) (key : String) :
    (Yaml.map entries).get? key = .ok (entries.lookup key) := rfl

@[simp] theorem contains_map (entries : List (String × Yaml)) (key : String) :
    (Yaml.map entries).contains key = .ok (entries.lookup key).isSome := rfl

@[simp] theorem getOr_map (entries : List (String × Yaml)) (key : String) (fallback : Yaml) :
    (Yaml.map entries).getOr key fallback = .ok (orElse (entries.lookup key) fallback) := rfl

@[simp] theorem pairs_map (entries : List (String × Yaml)) :
    (Yaml.map entries).pairs = .ok entries := rfl

@[simp] theorem iterate_seq (items : List Yaml) : (Yaml.seq items).iterate = .ok items := rfl

/-- A list under a key, and an absent one, are both read as a list. -/
@[simp] theorem orElse_seq (items : List Yaml) :
    orElse (some (.seq items)) (.seq []) = .seq items := by
  cases items with
  | nil => rfl
  | cons item items => rfl

@[simp] theorem orElse_map (entries : List (String × Yaml)) :
    orElse (some (.map entries)) (.map []) = .map entries := by
  cases entries with
  | nil => rfl
  | cons e entries => rfl

/-- Either the fallback or what is under the key. -/
theorem field?_of_getOr {node fallback value : Yaml} {key : String}
    (h : node.getOr key fallback = .ok value) :
    value = fallback ∨ node.field? key = some value := by
  cases node with
  | scalar s => cases h
  | seq items => cases h
  | map entries =>
      rw [getOr_map] at h
      obtain rfl := Except.ok.inj h
      show orElse (entries.lookup key) fallback = fallback ∨
        entries.lookup key = some (orElse (entries.lookup key) fallback)
      cases entries.lookup key with
      | none => exact .inl rfl
      | some value =>
          by_cases htruthy : value.truthy
          · exact .inr (by rw [orElse, if_pos htruthy])
          · exact .inl (by rw [orElse, if_neg htruthy])

theorem field?_of_get? {node : Yaml} {key : String} {field : Option Yaml}
    (h : node.get? key = .ok field) : node.field? key = field := by
  cases node with
  | scalar s => cases h
  | seq items => cases h
  | map entries => exact Except.ok.inj h

theorem getD_null_eq_str {field : Option Yaml} {s : String} (h : field.getD null = str s) :
    field = some (str s) := by
  cases field with
  | none => cases h
  | some value => exact congrArg some h

/-- A loop over anything but a list is over strings. -/
theorem seq_of_iterate {node item : Yaml} {items : List Yaml} (h : node.iterate = .ok items)
    (hitem : item ∈ items) : node = .seq items ∨ ∃ s, item = str s := by
  cases node with
  | scalar value =>
      cases value with
      | str s =>
          obtain rfl := Except.ok.inj h
          obtain ⟨c, -, rfl⟩ := List.mem_map.mp hitem
          exact .inr ⟨_, rfl⟩
      | _ => cases h
  | seq items => exact .inl (congrArg Yaml.seq (Except.ok.inj h))
  | map entries =>
      obtain rfl := Except.ok.inj h
      obtain ⟨entry, -, rfl⟩ := List.mem_map.mp hitem
      exact .inr ⟨_, rfl⟩

theorem eq_of_hashable {node : Yaml} {value : Scalar} (h : node.hashable = .ok value) :
    node = .scalar value := by
  cases node with
  | scalar s => exact congrArg Yaml.scalar (Except.ok.inj h)
  | seq items => cases h
  | map entries => cases h

/-! ## What occurs in a tree -/

/-- A value stands somewhere in a tree, under this path of keys. -/
inductive Occurs : Yaml → List String → Yaml → Prop
  | entry {entries : List (String × Yaml)} {key : String} {value : Yaml} :
      (key, value) ∈ entries → Occurs (.map entries) [key] value
  | under {entries : List (String × Yaml)} {key : String} {value node : Yaml}
      {path : List String} : (key, value) ∈ entries → Occurs value path node →
      Occurs (.map entries) (key :: path) node
  | item {items : List Yaml} {value node : Yaml} {path : List String} :
      value ∈ items → Occurs value path node → Occurs (.seq items) path node

/-- A part of a part is a part. -/
theorem Occurs.trans {root mid node : Yaml} {path path' : List String}
    (h : Occurs root path mid) (h' : Occurs mid path' node) :
    Occurs root (path ++ path') node := by
  induction h with
  | entry hmem => exact .under hmem h'
  | under hmem _ ih => exact .under hmem (ih h')
  | item hmem _ ih => exact .item hmem (ih h')

/-- A path names at least one key. -/
theorem Occurs.path_ne_nil {root node : Yaml} {path : List String} (h : Occurs root path node) :
    path ≠ [] := by
  induction h with
  | entry _ => exact List.cons_ne_nil _ _
  | under _ _ _ => exact List.cons_ne_nil _ _
  | item _ _ ih => exact ih

end Yaml

end Base
