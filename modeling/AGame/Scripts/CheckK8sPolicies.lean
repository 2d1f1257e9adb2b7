import AGame.Base.Yaml

/-!
# The network-policy checker (`scripts/check_k8s_policies.py`)

Each egress rule becomes entries of one list, each ingress rule entries of one
set, and a pair of pod groups is in order when the same entry, or the one for any
port, is in both. Groups are compared by their labels as sets. Whatever a
document of another shape makes Python raise is an error here.
-/

namespace AGame.Scripts

open Base Yaml

/-- A pod selector as `selector` reduces it. -/
abbrev Selector := Finset (String × Scalar)

/-- `ANY_PORT` is `none`; otherwise a protocol and a port. -/
abbrev PortRef (α : Type) := Option (α × α)

/-- `selector(node)` -/
def selector (node : Yaml) : Except PyError Selector := do
  if !node.truthy then return ∅
  else
    let labels ← (← node.getOr "matchLabels" (.map [])).pairs
    let items ← labels.mapM fun label => do return (label.1, ← label.2.hashable)
    return items.toFinset

/-- `ports_of(rule)` -/
def portsOf (rule : Yaml) : Except PyError (List (PortRef Yaml)) := do
  let entries ← rule.getOr "ports" (.seq [])
  if !entries.truthy then return [none]
  else
    (← entries.iterate).mapM fun entry => do
      let protocol := (← entry.get? "protocol").getD (str "TCP")
      let port := (← entry.get? "port").getD null
      return some (protocol, port)

/-- `peer["podSelector"]`, where the key is known to be there. -/
def podSelector (peer : Yaml) : Except PyError Yaml :=
  match peer with
  | .map entries =>
      match entries.lookup "podSelector" with
      | some node => .ok node
      | none => .error .keyError
  | _ => .error .typeError

/-- `peers_of(rule, key)` -/
def peersOf (rule : Yaml) (key : String) : Except PyError (List Selector) := do
  let peers ← (← rule.getOr key (.seq [])).iterate
  let found ← peers.mapM fun peer => do
    if (← peer.contains "ipBlock") || (← peer.contains "namespaceSelector") then return none
    else if ← peer.contains "podSelector" then return some (← selector (← podSelector peer))
    else return none
  return found.reduceOption

/-- A port that goes into a set. -/
def PortRef.hashed : PortRef Yaml → Except PyError (PortRef Scalar)
  | none => .ok none
  | some (protocol, port) => do return some (← protocol.hashable, ← port.hashable)

/-- An entry of the list `egress`. -/
structure EgressEntry where
  filename : String
  policyName : Yaml
  source : Selector
  destination : Selector
  port : PortRef Yaml

/-- What `main` collects. -/
structure Collected where
  protectedGroups : Finset Selector
  allowed : Finset (Selector × Selector × PortRef Scalar)
  egress : List EgressEntry

def Collected.empty : Collected := ⟨∅, ∅, []⟩

/-- The sources and ports of an ingress rule. -/
def ingressEntries (subject : Selector) (rule : Yaml) :
    Except PyError (List (Selector × Selector × PortRef Scalar)) := do
  let sources ← peersOf rule "from"
  let found ← sources.mapM fun source => do
    (← portsOf rule).mapM fun port => do return (subject, source, ← port.hashed)
  return found.flatten

/-- The destinations and ports of an egress rule. -/
def egressEntries (filename : String) (policyName : Yaml) (subject : Selector) (rule : Yaml) :
    Except PyError (List EgressEntry) := do
  let destinations ← peersOf rule "to"
  let found ← destinations.mapM fun destination => do
    (← portsOf rule).mapM fun port => return ⟨filename, policyName, subject, destination, port⟩
  return found.flatten

/-- The entries of the rules under a key of the spec, if the kind of policy is on. -/
def rulesOf {α : Type} (spec : Yaml) (on : Bool) (key : String)
    (entries : Yaml → Except PyError (List α)) : Except PyError (List α) := do
  if on then
    let found ← (← (← spec.getOr key (.seq [])).iterate).mapM entries
    return found.flatten
  else return []

/-- One turn of the loop over the documents. -/
def readPolicy (acc : Collected) (filename : String) (doc : Yaml) :
    Except PyError Collected := do
  let spec ← doc.getOr "spec" (.map [])
  let subject ← selector ((← spec.get? "podSelector").getD null)
  let kinds ← spec.getOr "policyTypes" (.seq [])
  let policyName := (← (← doc.getOr "metadata" (.map [])).get? "name").getD null
  -- the name goes into a set that nothing reads
  let _ ← policyName.hashable
  let ingress ← kinds.contains "Ingress"
  let admitted ← rulesOf spec ingress "ingress" (ingressEntries subject)
  let egress ← kinds.contains "Egress"
  let opened ← rulesOf spec egress "egress" (egressEntries filename policyName subject)
  return {
    protectedGroups := if ingress then insert subject acc.protectedGroups else acc.protectedGroups
    allowed := acc.allowed ∪ admitted.toFinset
    egress := acc.egress ++ opened }

/-- One turn of the loop over the pairs: whether the pair is a problem. -/
def isProblem (t : Collected) (entry : EgressEntry) : Except PyError Bool := do
  if entry.destination ∉ t.protectedGroups then return false
  else
    let port ← entry.port.hashed
    if (entry.destination, entry.source, port) ∈ t.allowed then return false
    else if (entry.destination, entry.source, none) ∈ t.allowed then return false
    else return true

/-- `policies(directory)`, on the documents of its files in order. -/
def policies (documents : List (String × Yaml)) : List (String × Yaml) :=
  documents.filter fun document =>
    match document.2 with
    | .map entries =>
        match entries.lookup "kind" with
        | some (.scalar kind) => kind = .str "NetworkPolicy"
        | _ => false
    | _ => false

/-- The problems `main` reports. -/
def problems (documents : List (String × Yaml)) : Except PyError (List EgressEntry) := do
  let collected ← (policies documents).foldlM
    (fun acc document => readPolicy acc document.1 document.2) Collected.empty
  collected.egress.filterM fun entry => isProblem collected entry

/-- `main()`: the exit code, where `none` is no directory. -/
def main (directory : Option (List (String × Yaml))) : Except PyError ℕ := do
  match directory with
  | none => return 2
  | some documents => if (← problems documents).isEmpty then return 0 else return 1

end AGame.Scripts
