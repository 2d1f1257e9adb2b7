import AGame.Base.Yaml

/-!
# The reference checker (`scripts/check_k8s_refs.py`)

Every manifest is walked from the top, and a string under a key that refers to
another object is looked up among the names of the tracked kinds, or for a Secret
in a fixed list. Whatever a document of another shape makes Python raise is an
error here.
-/

namespace AGame.Scripts.CheckK8sRefs

open Base Yaml

/-- The kinds of object that are referred to by name. -/
inductive Kind where
  | serviceAccount
  | configMap
  | persistentVolumeClaim
  | secret
deriving DecidableEq, Repr

def Kind.text : Kind → String
  | .serviceAccount => "ServiceAccount"
  | .configMap => "ConfigMap"
  | .persistentVolumeClaim => "PersistentVolumeClaim"
  | .secret => "Secret"

/-- `EXTERNAL_SECRETS` -/
def externalSecrets : List String := [
  "anthropic-credentials",
  "argocd-dex-server-tls",
  "argocd-redis",
  "argocd-repo-server-mtls",
  "argocd-repo-server-tls",
  "clickhouse-credentials",
  "db-credentials",
  "lang-db-credentials",
  "langfuse-credentials",
  "langfuse-web-secrets",
  "minio-credentials",
  "openai-credentials",
  "rabbitmq-credentials",
  "sports-api-credentials"]

/-- `TRACKED` -/
def tracked : List Kind := [.serviceAccount, .configMap, .persistentVolumeClaim]

/-- `documents(directory)`, on the documents of its files in order. -/
def documents (files : List (String × Yaml)) : List (String × Yaml) :=
  files.filter fun file =>
    match file.2 with
    | .map entries => ((entries.lookup "kind").map Yaml.truthy).getD false
    | _ => false

mutual
/-- `walk(node, found, path)`: what it appends to `found`. -/
def walk (path : List String) : Yaml → List (List String × Yaml)
  | .scalar _ => []
  | .seq items => walkItems path items
  | .map entries => walkEntries path entries

def walkItems (path : List String) : List Yaml → List (List String × Yaml)
  | [] => []
  | item :: items => walk path item ++ walkItems path items

def walkEntries (path : List String) : List (String × Yaml) → List (List String × Yaml)
  | [] => []
  | entry :: entries => walkEntry path entry ++ walkEntries path entries

def walkEntry (path : List String) : String × Yaml → List (List String × Yaml)
  | (key, value) => (path ++ [key], value) :: walk (path ++ [key]) value
end

/-- The kind of object that a string under these keys refers to. -/
def referenceKind (keys : List String) : Option Kind :=
  let key := keys.getLastD ""
  let parent := keys.dropLast.getLastD ""
  if key = "serviceAccountName" then some .serviceAccount
  else if key = "claimName" then some .persistentVolumeClaim
  else if key = "secretName" then some .secret
  else if key = "name" ∧ parent ∈ ["configMapKeyRef", "configMapRef", "configMap"] then
    some .configMap
  else if key = "name" ∧ parent ∈ ["secretKeyRef", "secretRef"] then some .secret
  else none

/-- An entry of the list `references`. -/
structure Reference (α : Type) where
  filename : String
  owner : α
  kind : Kind
  target : String
deriving DecidableEq

/-- What `collect` returns. -/
structure Collected where
  defined : Finset (Kind × Scalar)
  references : List (Reference Yaml)

def Collected.empty : Collected := ⟨∅, []⟩

/-- `(node.get("metadata") or {}).get("name")` -/
def metadataName (node : Yaml) : Except PyError Yaml := do
  return (← (← node.getOr "metadata" (.map [])).get? "name").getD null

/-- The name of the document, if its kind is tracked. -/
def definedName (doc : Yaml) (name : Yaml) : Except PyError (List (Kind × Scalar)) := do
  let kind ← ((← doc.get? "kind").getD null).hashable
  match tracked.find? fun k => kind = .str k.text with
  | some k => if name.truthy then return [(k, ← name.hashable)] else return []
  | none => return []

/-- The names of the claims that a StatefulSet mints. -/
def mintedNames (doc : Yaml) : Except PyError (List (Kind × Scalar)) := do
  let spec ← doc.getOr "spec" (.map [])
  let templates ← (← spec.getOr "volumeClaimTemplates" (.seq [])).iterate
  let found ← templates.mapM fun template => do
    let templateName ← metadataName template
    if templateName.truthy then return [(.persistentVolumeClaim, ← templateName.hashable)]
    else return []
  return found.flatten

/-- The references among the pairs of a document. -/
def referencesOf (filename : String) (name : Yaml) (pairs : List (List String × Yaml)) :
    List (Reference Yaml) :=
  pairs.filterMap fun pair =>
    match pair.2 with
    | .scalar (.str value) => (referenceKind pair.1).map fun kind => ⟨filename, name, kind, value⟩
    | _ => none

/-- One turn of the loop over the documents. -/
def collectDocument (acc : Collected) (filename : String) (doc : Yaml) :
    Except PyError Collected := do
  let name ← metadataName doc
  let own ← definedName doc name
  let minted ← mintedNames doc
  return {
    defined := acc.defined ∪ (own ++ minted).toFinset
    references := acc.references ++ referencesOf filename name (walk [] doc) }

/-- `collect(directory)` -/
def collect (files : List (String × Yaml)) : Except PyError Collected :=
  (documents files).foldlM (fun acc file => collectDocument acc file.1 file.2) .empty

/-- Two names that Python can put in order, or need not. -/
def comparable : Scalar → Scalar → Bool
  | .null, .null => true
  | .null, _ => false
  | _, .null => false
  | .str _, .str _ => true
  | .str _, _ => false
  | _, .str _ => false
  | _, _ => true

/-- `sorted(set(references))`, but for the order, which only the report shows. Two
references of one file are put in order by the names of their documents. -/
def sortedReferences (references : List (Reference Yaml)) :
    Except PyError (List (Reference Scalar)) := do
  let hashed ← references.mapM fun r => do
    return Reference.mk r.filename (← r.owner.hashable) r.kind r.target
  if hashed.all fun a => hashed.all fun b => a.filename ≠ b.filename || comparable a.owner b.owner
  then return hashed.dedup
  else throw .typeError

/-- `target in known` -/
def isKnown (defined : Finset (Kind × Scalar)) (kind : Kind) (target : String) : Bool :=
  if kind = .secret then target ∈ externalSecrets else (kind, .str target) ∈ defined

/-- `main()`: the exit code, where `none` is no directory. -/
def main (directory : Option (List (String × Yaml))) : Except PyError ℕ := do
  match directory with
  | none => return 2
  | some files =>
      let collected ← collect files
      let references ← sortedReferences collected.references
      let problems := references.filter fun r => !isKnown collected.defined r.kind r.target
      if problems.isEmpty then return 0 else return 1

end AGame.Scripts.CheckK8sRefs
