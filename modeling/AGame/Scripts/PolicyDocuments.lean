import AGame.Base.Result
import AGame.Scripts.CheckK8sPolicies
import AGame.Scripts.NetworkPolicies

/-!
# Policy documents

The documents that describe a network policy: explicit `policyTypes`, selectors by
`matchLabels` alone, peers by `podSelector` alone. A null is read as an absent
field. On such documents the checker raises nothing, and what it collects is read
off the policies themselves (`readPolicy_of_decode`).
-/

namespace AGame.Scripts

open Base Yaml

/-! ## From documents to policies -/

/-- A field that may be absent. -/
def decodeOptional {α : Type} (absent : α) (decode : Yaml → Option α) : Option Yaml → Option α
  | none => some absent
  | some (.scalar .null) => some absent
  | some node => decode node

def decodeList {α : Type} (decode : Yaml → Option α) : Option Yaml → Option (List α) :=
  decodeOptional [] fun node =>
    match node with
    | .seq items => items.mapM decode
    | _ => none

def decodeLabel (label : String × Yaml) : Option (String × String) :=
  match label.2 with
  | .scalar (.str value) => some (label.1, value)
  | _ => none

def decodeLabels : Yaml → Option Labels
  | .map entries => do
      let pairs ← entries.mapM decodeLabel
      if h : (pairs.map Prod.fst).Nodup then some ⟨pairs, h⟩ else none
  | _ => none

/-- The one field of a dictionary that has no other. -/
def onlyField (entries : List (String × Yaml)) (key : String) : Option (Option Yaml) :=
  if entries.all fun e => e.1 = key then some (entries.lookup key) else none

def decodeSelector : Yaml → Option Labels
  | .map entries => do decodeOptional .empty decodeLabels (← onlyField entries "matchLabels")
  | _ => none

def decodePeer : Yaml → Option Labels
  | .map entries => do decodeSelector (← ← onlyField entries "podSelector")
  | _ => none

def Protocol.text : Protocol → String
  | .tcp => "TCP"
  | .udp => "UDP"
  | .sctp => "SCTP"

def decodeProtocol : Option Yaml → Option (Option (Option Protocol))
  | none => some none
  | some (.scalar .null) => some (some none)
  | some (.scalar (.str s)) =>
      ([.tcp, .udp, .sctp].find? fun protocol => protocol.text = s).map fun p => some (some p)
  | _ => none

def decodePortValue : Option Yaml → Option (Option PortValue) :=
  decodeOptional none fun node =>
    match node with
    | .scalar (.int n) => some (some (.number n))
    | .scalar (.str s) => some (some (.name s))
    | _ => none

def decodeEndPort : Option Yaml → Option (Option ℤ) :=
  decodeOptional none fun node =>
    match node with
    | .scalar (.int n) => some (some n)
    | _ => none

def decodePort : Yaml → Option PolicyPort
  | .map entries => do
      let protocol ← decodeProtocol (entries.lookup "protocol")
      let port ← decodePortValue (entries.lookup "port")
      let endPort ← decodeEndPort (entries.lookup "endPort")
      return { protocol, port, endPort }
  | _ => none

/-- A rule, whose peers are under the key. -/
def decodeRule (key : String) : Yaml → Option PolicyRule
  | .map entries => do
      let peers ← decodeList decodePeer (entries.lookup key)
      let ports ← decodeList decodePort (entries.lookup "ports")
      return { peers, ports }
  | _ => none

def PolicyType.text : PolicyType → String
  | .ingress => "Ingress"
  | .egress => "Egress"

def decodeType : Yaml → Option PolicyType
  | .scalar (.str s) => [.ingress, .egress].find? fun type => type.text = s
  | _ => none

/-- An empty list of types is not an explicit one. -/
def decodeTypes : Option Yaml → Option (List PolicyType)
  | some (.seq (item :: items)) => (item :: items).mapM decodeType
  | _ => none

def decodeName : Option Yaml → Option String
  | some (.map entries) =>
      match entries.lookup "name" with
      | some (.scalar (.str name)) => some name
      | _ => none
  | _ => none

def decodeSpec (name : String) : Option Yaml → Option NetworkPolicy
  | some (.map entries) => do
      let podSelector ← decodeOptional .empty decodeSelector (entries.lookup "podSelector")
      let policyTypes ← decodeTypes (entries.lookup "policyTypes")
      let ingress ← decodeList (decodeRule "from") (entries.lookup "ingress")
      let egress ← decodeList (decodeRule "to") (entries.lookup "egress")
      return { name, podSelector, policyTypes, ingress, egress }
  | _ => none

def decodePolicy : Yaml → Option NetworkPolicy
  | .map entries => do
      let name ← decodeName (entries.lookup "metadata")
      decodeSpec name (entries.lookup "spec")
  | _ => none

/-! ## What the checker makes of a policy -/

/-- Labels as the checker holds them. -/
def Labels.asSelector (labels : Labels) : Selector :=
  (labels.pairs.map fun label => (label.1, Scalar.str label.2)).toFinset

def PortValue.scalar : PortValue → Scalar
  | .number n => .int n
  | .name s => .str s

/-- An entry of `ports` as the checker holds it: the end of a range is not in it. -/
def portRef (entry : Option PolicyPort) : PortRef Scalar :=
  entry.map fun port =>
    ((port.protocol.getD (some .tcp)).elim .null fun protocol => .str protocol.text,
      port.port.elim .null PortValue.scalar)

def yamlRef (entry : Option PolicyPort) : PortRef Yaml :=
  (portRef entry).map fun ref => (.scalar ref.1, .scalar ref.2)

def NetworkPolicy.admitted (p : NetworkPolicy) : List (Selector × Selector × PortRef Scalar) :=
  if .ingress ∈ p.policyTypes then
    p.ingress.flatMap fun rule => rule.peers.flatMap fun peer =>
      rule.entries.map fun entry => (p.podSelector.asSelector, peer.asSelector, portRef entry)
  else []

def NetworkPolicy.opened (filename : String) (p : NetworkPolicy) : List EgressEntry :=
  if .egress ∈ p.policyTypes then
    p.egress.flatMap fun rule => rule.peers.flatMap fun peer =>
      rule.entries.map fun entry =>
        ⟨filename, str p.name, p.podSelector.asSelector, peer.asSelector, yamlRef entry⟩
  else []

def Collected.add (acc : Collected) (filename : String) (p : NetworkPolicy) : Collected where
  protectedGroups :=
    if .ingress ∈ p.policyTypes then insert p.podSelector.asSelector acc.protectedGroups
    else acc.protectedGroups
  allowed := acc.allowed ∪ p.admitted.toFinset
  egress := acc.egress ++ p.opened filename

/-! ## The checker on such documents -/

theorem decodeOptional_eq_some {α : Type} {absent : α} {decode : Yaml → Option α}
    {field : Option Yaml} {value : α} (h : decodeOptional absent decode field = some value) :
    ((field = none ∨ field = some null) ∧ value = absent) ∨
      ∃ node, field = some node ∧ decode node = some value := by
  unfold decodeOptional at h
  split at h
  · exact .inl ⟨.inl rfl, (Option.some.inj h).symm⟩
  · exact .inl ⟨.inr rfl, (Option.some.inj h).symm⟩
  · exact .inr ⟨_, rfl, h⟩

/-- `node.get(key) or []` -/
theorem orElse_of_decodeList {α : Type} {decode : Yaml → Option α} {field : Option Yaml}
    {values : List α} (h : decodeList decode field = some values) :
    ∃ items, orElse field (.seq []) = .seq items ∧ items.mapM decode = some values := by
  rcases decodeOptional_eq_some h with ⟨rfl | rfl, rfl⟩ | ⟨node, rfl, hnode⟩
  · exact ⟨[], rfl, rfl⟩
  · exact ⟨[], rfl, rfl⟩
  · split at hnode
    · exact ⟨_, orElse_seq _, hnode⟩
    · cases hnode

theorem onlyField_eq_some {entries : List (String × Yaml)} {key : String} {field : Option Yaml}
    (h : onlyField entries key = some field) :
    field = entries.lookup key ∧ ∀ key', key' ≠ key → entries.lookup key' = none := by
  unfold onlyField at h
  split at h
  case isTrue hall =>
    refine ⟨(Option.some.inj h).symm, fun key' hne => List.lookup_eq_none_iff.mpr ?_⟩
    intro e he
    have hkey : e.1 = key := of_decide_eq_true (List.all_eq_true.mp hall e he)
    simpa [hkey] using hne
  case isFalse => cases h

theorem hashable_of_decodeLabel {label : String × Yaml} {pair : String × String}
    (h : decodeLabel label = some pair) :
    (do return (label.1, ← label.2.hashable) : Except PyError (String × Scalar)) =
      .ok (pair.1, .str pair.2) := by
  obtain ⟨key, value⟩ := label
  unfold decodeLabel at h
  split at h
  case h_1 value heq =>
    obtain rfl := heq
    obtain rfl := Option.some.inj h
    rfl
  case h_2 => cases h

/-- An empty dictionary has no labels either way. -/
theorem selector_map (entries : List (String × Yaml)) :
    selector (.map entries) = (do
      let labels ← (orElse (entries.lookup "matchLabels") (.map [])).pairs
      let items ← labels.mapM fun label => do return (label.1, ← label.2.hashable)
      return items.toFinset) := by
  cases entries with
  | nil => rfl
  | cons e entries => rfl

theorem selector_of_decode {node : Yaml} {labels : Labels} (h : decodeSelector node = some labels) :
    selector node = .ok labels.asSelector := by
  unfold decodeSelector at h
  split at h
  case h_2 => cases h
  case h_1 entries =>
    obtain ⟨field, hfield, hlabels⟩ := Option.bind_eq_some_iff.mp h
    obtain ⟨rfl, -⟩ := onlyField_eq_some hfield
    rw [selector_map]
    rcases decodeOptional_eq_some hlabels with ⟨hfield | hfield, rfl⟩ | ⟨node, hfield, hnode⟩
    · rw [hfield]
      rfl
    · rw [hfield]
      rfl
    · unfold decodeLabels at hnode
      split at hnode
      case h_2 => cases hnode
      case h_1 entries =>
        obtain ⟨pairs, hpairs, hnodup⟩ := Option.bind_eq_some_iff.mp hnode
        split at hnodup
        case isFalse => cases hnodup
        case isTrue =>
          obtain rfl := Option.some.inj hnodup
          rw [hfield, orElse_map, pairs_map, ok_bind,
            mapM_ok_of_some (fun _ _ => hashable_of_decodeLabel) hpairs]
          rfl

theorem selector_of_decodeOptional {field : Option Yaml} {labels : Labels}
    (h : decodeOptional .empty decodeSelector field = some labels) :
    selector (field.getD null) = .ok labels.asSelector := by
  rcases decodeOptional_eq_some h with ⟨rfl | rfl, rfl⟩ | ⟨node, rfl, hnode⟩
  · rfl
  · rfl
  · exact selector_of_decode hnode

/-- A peer names a group and nothing outside the namespace. -/
theorem peer_of_decode {peer : Yaml} {labels : Labels} (h : decodePeer peer = some labels) :
    (do
      if (← peer.contains "ipBlock") || (← peer.contains "namespaceSelector") then return none
      else if ← peer.contains "podSelector" then return some (← selector (← podSelector peer))
      else return none : Except PyError (Option Selector)) = .ok (some labels.asSelector) := by
  unfold decodePeer at h
  split at h
  case h_2 => cases h
  case h_1 entries =>
    obtain ⟨field, hfield, hlabels⟩ := Option.bind_eq_some_iff.mp h
    obtain ⟨node, rfl, hnode⟩ := Option.bind_eq_some_iff.mp hlabels
    obtain ⟨hlookup, hother⟩ := onlyField_eq_some hfield
    simp only [contains_map, ok_bind, hother "ipBlock" (by decide),
      hother "namespaceSelector" (by decide), ← hlookup, podSelector, selector_of_decode hnode]
    rfl

theorem peersOf_of_decode {entries : List (String × Yaml)} {key : String} {peers : List Labels}
    (h : decodeList decodePeer (entries.lookup key) = some peers) :
    peersOf (.map entries) key = .ok (peers.map Labels.asSelector) := by
  obtain ⟨items, hitems, hpeers⟩ := orElse_of_decodeList h
  unfold peersOf
  rw [getOr_map, ok_bind, hitems, iterate_seq, ok_bind,
    mapM_ok_of_some (fun _ _ => peer_of_decode) hpeers, ok_bind]
  simp [List.reduceOption, pure, Except.pure]

theorem decodeProtocol_eq_some {field : Option Yaml} {protocol : Option (Option Protocol)}
    (h : decodeProtocol field = some protocol) :
    field.getD (str "TCP") =
      .scalar ((protocol.getD (some .tcp)).elim .null fun p => .str p.text) := by
  unfold decodeProtocol at h
  split at h
  · obtain rfl := Option.some.inj h
    rfl
  · obtain rfl := Option.some.inj h
    rfl
  · obtain ⟨p, hp, rfl⟩ := Option.map_eq_some_iff.mp h
    have htext := List.find?_some hp
    rw [← of_decide_eq_true htext]
    rfl
  · cases h

theorem decodePortValue_eq_some {field : Option Yaml} {port : Option PortValue}
    (h : decodePortValue field = some port) :
    field.getD null = .scalar (port.elim .null PortValue.scalar) := by
  rcases decodeOptional_eq_some h with ⟨rfl | rfl, rfl⟩ | ⟨node, rfl, hnode⟩
  · rfl
  · rfl
  · split at hnode
    · obtain rfl := Option.some.inj hnode
      rfl
    · obtain rfl := Option.some.inj hnode
      rfl
    · cases hnode

theorem port_of_decode {entry : Yaml} {port : PolicyPort} (h : decodePort entry = some port) :
    (do
      let protocol := (← entry.get? "protocol").getD (str "TCP")
      let port := (← entry.get? "port").getD null
      return some (protocol, port) : Except PyError (PortRef Yaml)) =
      .ok (yamlRef (some port)) := by
  unfold decodePort at h
  split at h
  case h_2 => cases h
  case h_1 entries =>
    obtain ⟨protocol, hprotocol, h⟩ := Option.bind_eq_some_iff.mp h
    obtain ⟨value, hvalue, h⟩ := Option.bind_eq_some_iff.mp h
    obtain ⟨endPort, -, h⟩ := Option.bind_eq_some_iff.mp h
    obtain rfl := Option.some.inj h
    rw [get?_map, ok_bind, get?_map, ok_bind, decodeProtocol_eq_some hprotocol,
      decodePortValue_eq_some hvalue]
    rfl

theorem portsOf_of_decode {entries : List (String × Yaml)} {peers : List Labels}
    {ports : List PolicyPort} (h : decodeList decodePort (entries.lookup "ports") = some ports) :
    portsOf (.map entries) = .ok ((PolicyRule.mk peers ports).entries.map yamlRef) := by
  obtain ⟨items, hitems, hports⟩ := orElse_of_decodeList h
  unfold portsOf
  rw [getOr_map, ok_bind, hitems]
  cases items with
  | nil =>
      obtain rfl := Option.some.inj hports
      rfl
  | cons item items =>
      obtain ⟨port, rest, -, -, rfl⟩ := mapM_cons_eq_some hports
      show (Yaml.seq (item :: items)).iterate >>= _ = _
      rw [iterate_seq, ok_bind, mapM_ok_of_some (fun _ _ => port_of_decode) hports]
      simp [PolicyRule.entries]

/-- The port of an entry goes into a set. -/
theorem hashed_yamlRef (entry : Option PolicyPort) :
    (yamlRef entry).hashed = .ok (portRef entry) := by
  cases entry with
  | none => rfl
  | some port => rfl

/-- A rule as both loops read it. -/
theorem rule_of_decode {key : String} {node : Yaml} {rule : PolicyRule}
    (h : decodeRule key node = some rule) :
    peersOf node key = .ok (rule.peers.map Labels.asSelector) ∧
      portsOf node = .ok (rule.entries.map yamlRef) := by
  unfold decodeRule at h
  split at h
  case h_2 => cases h
  case h_1 entries =>
    obtain ⟨peers, hpeers, h⟩ := Option.bind_eq_some_iff.mp h
    obtain ⟨ports, hports, h⟩ := Option.bind_eq_some_iff.mp h
    obtain rfl := Option.some.inj h
    exact ⟨peersOf_of_decode hpeers, portsOf_of_decode hports⟩

theorem ingressEntries_of_decode {node : Yaml} {rule : PolicyRule} (subject : Selector)
    (h : decodeRule "from" node = some rule) :
    ingressEntries subject node = .ok (rule.peers.flatMap fun peer =>
      rule.entries.map fun entry => (subject, peer.asSelector, portRef entry)) := by
  obtain ⟨hpeers, hports⟩ := rule_of_decode h
  unfold ingressEntries
  rw [hpeers, ok_bind, mapM_ok
    (g := fun source => rule.entries.map fun entry => (subject, source, portRef entry)), ok_bind]
  · simp [List.flatMap_def, List.map_map, Function.comp_def, pure, Except.pure]
  · intro source _
    rw [hports, ok_bind, List.mapM_map]
    exact mapM_ok fun entry _ => by rw [Function.comp_apply, hashed_yamlRef, ok_bind]; rfl

theorem egressEntries_of_decode {node : Yaml} {rule : PolicyRule} (filename : String)
    (policyName : Yaml) (subject : Selector) (h : decodeRule "to" node = some rule) :
    egressEntries filename policyName subject node = .ok (rule.peers.flatMap fun peer =>
      rule.entries.map fun entry =>
        ⟨filename, policyName, subject, peer.asSelector, yamlRef entry⟩) := by
  obtain ⟨hpeers, hports⟩ := rule_of_decode h
  unfold egressEntries
  rw [hpeers, ok_bind, mapM_ok
    (g := fun destination => rule.entries.map fun entry =>
      ⟨filename, policyName, subject, destination, yamlRef entry⟩), ok_bind]
  · simp [List.flatMap_def, List.map_map, Function.comp_def, pure, Except.pure]
  · intro destination _
    rw [hports, ok_bind, List.mapM_map]
    exact mapM_ok fun entry _ => rfl

/-- The rules of a direction, when it is on and when it is off. -/
theorem rulesOf_of_decode {α : Type} {spec : List (String × Yaml)} {key : String} {peerKey : String}
    {rules : List PolicyRule} {entries : Yaml → Except PyError (List α)} {g : PolicyRule → List α}
    (hentries : ∀ node rule, decodeRule peerKey node = some rule → entries node = .ok (g rule))
    (h : decodeList (decodeRule peerKey) (spec.lookup key) = some rules) (on : Bool) :
    rulesOf (.map spec) on key entries = .ok (if on then rules.flatMap g else []) := by
  cases on with
  | false => rfl
  | true =>
      obtain ⟨items, hitems, hrules⟩ := orElse_of_decodeList h
      unfold rulesOf
      rw [if_pos rfl, getOr_map, ok_bind, hitems, iterate_seq, ok_bind,
        mapM_ok_of_some hentries hrules, ok_bind, if_pos rfl, List.flatMap_def]
      rfl

theorem decodeType_eq_some {node : Yaml} {type : PolicyType} (h : decodeType node = some type) :
    node = str type.text := by
  unfold decodeType at h
  split at h
  · have htext := List.find?_some h
    rw [of_decide_eq_true htext]
    rfl
  · cases h

theorem PolicyType.text_injective : Function.Injective PolicyType.text := by
  intro a b h
  cases a <;> cases b <;> first | rfl | exact absurd h (by decide)

theorem any_of_decodeTypes {items : List Yaml} {types : List PolicyType}
    (h : items.mapM decodeType = some types) (type : PolicyType) :
    (items.any fun item =>
      match item with
      | .scalar value => value = .str type.text
      | _ => false) = decide (type ∈ types) := by
  induction items generalizing types with
  | nil =>
      obtain rfl := Option.some.inj h
      rfl
  | cons item items ih =>
      obtain ⟨type', rest, hitem, hrest, rfl⟩ := mapM_cons_eq_some h
      obtain rfl := decodeType_eq_some hitem
      rw [List.any_cons, ih hrest]
      simp [str, PolicyType.text_injective.eq_iff, eq_comm]

/-- `"Ingress" in kinds`, `"Egress" in kinds` -/
theorem contains_of_decodeTypes {field : Option Yaml} {types : List PolicyType}
    (h : decodeTypes field = some types) (type : PolicyType) :
    (orElse field (.seq [])).contains type.text = .ok (decide (type ∈ types)) := by
  unfold decodeTypes at h
  split at h
  case h_2 => cases h
  case h_1 item items =>
    rw [orElse_seq, ← any_of_decodeTypes h]
    rfl

theorem decodeName_eq_some {field : Option Yaml} {name : String}
    (h : decodeName field = some name) :
    ∃ entries, field = some (.map entries) ∧ entries.lookup "name" = some (str name) := by
  unfold decodeName at h
  split at h
  case h_2 => cases h
  case h_1 entries =>
    split at h
    case h_2 => cases h
    case h_1 hname =>
      obtain rfl := Option.some.inj h
      exact ⟨entries, rfl, hname⟩

theorem readPolicy_of_decode {doc : Yaml} {p : NetworkPolicy} (acc : Collected) (filename : String)
    (h : decodePolicy doc = some p) : readPolicy acc filename doc = .ok (acc.add filename p) := by
  unfold decodePolicy at h
  split at h
  case h_2 => cases h
  case h_1 fields =>
    obtain ⟨name, hname, h⟩ := Option.bind_eq_some_iff.mp h
    obtain ⟨metadata, hmetadata, hname⟩ := decodeName_eq_some hname
    unfold decodeSpec at h
    split at h
    case h_2 => cases h
    case h_1 spec hspec =>
      obtain ⟨subject, hsubject, h⟩ := Option.bind_eq_some_iff.mp h
      obtain ⟨types, htypes, h⟩ := Option.bind_eq_some_iff.mp h
      obtain ⟨ingress, hingress, h⟩ := Option.bind_eq_some_iff.mp h
      obtain ⟨egress, hegress, h⟩ := Option.bind_eq_some_iff.mp h
      obtain rfl := Option.some.inj h
      have hin : (orElse (spec.lookup "policyTypes") (.seq [])).contains "Ingress" =
        .ok (decide (.ingress ∈ types)) := contains_of_decodeTypes htypes .ingress
      have hout : (orElse (spec.lookup "policyTypes") (.seq [])).contains "Egress" =
        .ok (decide (.egress ∈ types)) := contains_of_decodeTypes htypes .egress
      unfold readPolicy
      simp only [getOr_map, get?_map, ok_bind, hspec, hmetadata, hname, orElse_map,
        Option.getD_some]
      rw [selector_of_decodeOptional hsubject, ok_bind, hin, ok_bind,
        rulesOf_of_decode (fun _ _ => ingressEntries_of_decode _) hingress, ok_bind, hout, ok_bind,
        rulesOf_of_decode (fun _ _ => egressEntries_of_decode filename _ _) hegress]
      simp [str, hashable, ok_bind, pure, Except.pure, Collected.add, NetworkPolicy.admitted,
        NetworkPolicy.opened]

/-! ## What is collected -/

theorem NetworkPolicy.mem_admitted {p : NetworkPolicy}
    {item : Selector × Selector × PortRef Scalar} :
    item ∈ p.admitted ↔ .ingress ∈ p.policyTypes ∧ ∃ rule ∈ p.ingress, ∃ peer ∈ rule.peers,
      ∃ entry ∈ rule.entries,
        (p.podSelector.asSelector, peer.asSelector, portRef entry) = item := by
  unfold NetworkPolicy.admitted
  split_ifs with hin <;> simp [hin]

theorem NetworkPolicy.mem_opened {p : NetworkPolicy} {filename : String} {item : EgressEntry} :
    item ∈ p.opened filename ↔ .egress ∈ p.policyTypes ∧ ∃ rule ∈ p.egress, ∃ peer ∈ rule.peers,
      ∃ entry ∈ rule.entries,
        ⟨filename, str p.name, p.podSelector.asSelector, peer.asSelector, yamlRef entry⟩ =
          item := by
  unfold NetworkPolicy.opened
  split_ifs with hout <;> simp [hout]

/-- The loop over the documents of some policies, file by file. -/
theorem foldlM_readPolicy {documents : List (String × Yaml)} {ps : List NetworkPolicy}
    (h : documents.mapM (fun document => decodePolicy document.2) = some ps) (acc : Collected) :
    ∃ files : List (String × NetworkPolicy), files.map Prod.snd = ps ∧
      documents.foldlM (fun acc document => readPolicy acc document.1 document.2) acc =
        .ok (files.foldl (fun acc file => acc.add file.1 file.2) acc) := by
  induction documents generalizing ps acc with
  | nil =>
      obtain rfl := Option.some.inj h
      exact ⟨[], rfl, rfl⟩
  | cons document documents ih =>
      obtain ⟨p, rest, hp, hrest, rfl⟩ := mapM_cons_eq_some h
      obtain ⟨files, hfiles, hfold⟩ := ih hrest (acc.add document.1 p)
      refine ⟨(document.1, p) :: files, congrArg _ hfiles, ?_⟩
      rw [List.foldlM_cons, readPolicy_of_decode acc document.1 hp, ok_bind, hfold]
      rfl

section Collecting

variable {files : List (String × NetworkPolicy)} {acc : Collected}

theorem mem_protectedGroups {group : Selector} :
    group ∈ (files.foldl (fun acc file => acc.add file.1 file.2) acc).protectedGroups ↔
      group ∈ acc.protectedGroups ∨ ∃ p ∈ files.map Prod.snd,
        .ingress ∈ p.policyTypes ∧ p.podSelector.asSelector = group := by
  induction files generalizing acc with
  | nil => simp
  | cons file files ih =>
      rw [List.foldl_cons, ih]
      simp only [Collected.add, List.map_cons, List.mem_cons, exists_eq_or_imp]
      split_ifs with hin
      · rw [Finset.mem_insert, eq_comm (a := group), or_comm (b := group ∈ _), or_assoc]
        simp [hin]
      · simp [hin]

theorem mem_allowed {entry : Selector × Selector × PortRef Scalar} :
    entry ∈ (files.foldl (fun acc file => acc.add file.1 file.2) acc).allowed ↔
      entry ∈ acc.allowed ∨ ∃ p ∈ files.map Prod.snd, entry ∈ p.admitted := by
  induction files generalizing acc with
  | nil => simp
  | cons file files ih =>
      rw [List.foldl_cons, ih]
      simp [Collected.add, or_assoc]

theorem mem_egress {entry : EgressEntry} :
    entry ∈ (files.foldl (fun acc file => acc.add file.1 file.2) acc).egress ↔
      entry ∈ acc.egress ∨ ∃ file ∈ files, entry ∈ file.2.opened file.1 := by
  induction files generalizing acc with
  | nil => simp
  | cons file files ih =>
      rw [List.foldl_cons, ih]
      simp [Collected.add, or_assoc]

end Collecting

end AGame.Scripts
