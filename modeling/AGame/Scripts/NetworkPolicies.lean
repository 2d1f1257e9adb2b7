import AGame.Base.Yaml

/-!
# What network policies say

Pods are told apart by their labels and by the names they have for ports. A
selector picks the pods that have all of its labels, the empty one every pod, and
the policies that pick a pod add up: a pod picked by an Ingress policy takes in
what the rules of those policies admit and nothing else. Whether some pod behind an
egress rule is shut off is decided on selectors alone (`connected_iff`): it is enough
to look at the smallest pods.
-/

namespace AGame.Scripts

/-! ## Labels -/

/-- The labels of a pod, or of a selector. -/
structure Labels where
  pairs : List (String × String)
  nodup_keys : (pairs.map Prod.fst).Nodup
deriving DecidableEq

namespace Labels

def empty : Labels := ⟨[], List.nodup_nil⟩

/-- A selector selects a pod that has all of its labels. -/
def Selects (selector pod : Labels) : Prop := selector.pairs ⊆ pod.pairs

instance (selector pod : Labels) : Decidable (selector.Selects pod) :=
  inferInstanceAs (Decidable (selector.pairs ⊆ pod.pairs))

/-- The two give no key two values. -/
def Compatible (a b : Labels) : Prop := ∀ x ∈ a.pairs, ∀ y ∈ b.pairs, x.1 = y.1 → x.2 = y.2

instance (a b : Labels) : Decidable (a.Compatible b) :=
  inferInstanceAs (Decidable (∀ x ∈ a.pairs, ∀ y ∈ b.pairs, x.1 = y.1 → x.2 = y.2))

/-- The same labels, in whatever order. -/
def Same (a b : Labels) : Prop := a.Selects b ∧ b.Selects a

instance (a b : Labels) : Decidable (a.Same b) := inferInstanceAs (Decidable (_ ∧ _))

/-- The smallest pod that both select. -/
def merge (a b : Labels) : Labels where
  pairs := a.pairs ++ b.pairs.filter fun e => decide (e.1 ∉ a.pairs.map Prod.fst)
  nodup_keys := by
    rw [List.map_append, List.nodup_append]
    refine ⟨a.nodup_keys, (b.nodup_keys.sublist (List.filter_sublist.map _)), ?_⟩
    rintro k hk _ hk' rfl
    obtain ⟨e, he, rfl⟩ := List.mem_map.mp hk'
    exact of_decide_eq_true (List.mem_filter.mp he).2 hk

theorem Selects.refl (a : Labels) : a.Selects a := List.Subset.refl _

theorem Selects.trans {a b c : Labels} (h : a.Selects b) (h' : b.Selects c) : a.Selects c :=
  List.Subset.trans h h'

/-- A pod has one value for a key. -/
theorem compatible_of_selects {a b pod : Labels} (ha : a.Selects pod) (hb : b.Selects pod) :
    a.Compatible b := by
  intro x hx y hy hkey
  have heq := List.inj_on_of_nodup_map pod.nodup_keys (ha hx) (hb hy) hkey
  rw [heq]

theorem selects_merge_left (a b : Labels) : a.Selects (a.merge b) :=
  List.subset_append_left _ _

theorem selects_merge_right {a b : Labels} (h : a.Compatible b) : b.Selects (a.merge b) := by
  intro y hy
  by_cases hkey : y.1 ∈ a.pairs.map Prod.fst
  · obtain ⟨x, hx, hxy⟩ := List.mem_map.mp hkey
    obtain rfl : x = y := Prod.ext hxy (h x hx y hy hxy)
    exact List.mem_append_left _ hx
  · exact List.mem_append_right _ (List.mem_filter.mpr ⟨hy, decide_eq_true hkey⟩)

theorem merge_selects {a b pod : Labels} (ha : a.Selects pod) (hb : b.Selects pod) :
    (a.merge b).Selects pod :=
  List.append_subset.mpr ⟨ha, List.Subset.trans (List.filter_subset_self _) hb⟩

end Labels

/-! ## Pods and ports -/

inductive Protocol where
  | tcp
  | udp
  | sctp
deriving DecidableEq, Repr

/-- What a connection is made to. -/
structure Port where
  protocol : Protocol
  number : ℕ
  in_range : 1 ≤ number ∧ number ≤ 65535
deriving DecidableEq, Repr

/-- The labels of a pod and the ports it has names for. -/
structure Pod where
  labels : Labels
  named : String → Option Port

/-! ## Policies -/

/-- A number, or a name that each pod reads its own way. -/
inductive PortValue where
  | number (n : ℤ)
  | name (s : String)
deriving DecidableEq, Repr

/-- An entry of `ports`: TCP unless it says otherwise (a null says nothing), every
port of the protocol unless it names one or a range. -/
structure PolicyPort where
  protocol : Option (Option Protocol)
  port : Option PortValue
  endPort : Option ℤ
deriving DecidableEq, Repr

/-- The entry covers a port of a pod that has these names. -/
def PolicyPort.Opens (entry : PolicyPort) (named : String → Option Port) (q : Port) : Prop :=
  entry.protocol.join.getD .tcp = q.protocol ∧
    match entry.port, entry.endPort with
    | none, _ => True
    | some (.number first), some last => first ≤ q.number ∧ q.number ≤ last
    | some (.number n), none => n = q.number
    | some (.name s), _ => named s = some q

/-- A rule: its peers are in `from` or in `to`. An empty list is an absent one. -/
structure PolicyRule where
  peers : List Labels
  ports : List PolicyPort

/-- The entries of `ports`, where `none` is any port. -/
def PolicyRule.entries (rule : PolicyRule) : List (Option PolicyPort) :=
  if rule.ports = [] then [none] else rule.ports.map some

/-- An entry covers a port. -/
def Covers (entry : Option PolicyPort) (named : String → Option Port) (q : Port) : Prop :=
  ∀ port, entry = some port → port.Opens named q

/-- No entry covers every port. -/
theorem covers_none (named : String → Option Port) (q : Port) : Covers none named q :=
  fun port h => absurd h.symm (Option.some_ne_none port)

def PolicyRule.OpensPort (rule : PolicyRule) (named : String → Option Port) (q : Port) : Prop :=
  ∃ entry ∈ rule.entries, Covers entry named q

/-- An ingress rule admits a pod on a port. -/
def PolicyRule.Admits (rule : PolicyRule) (source : Labels) (named : String → Option Port)
    (q : Port) : Prop :=
  (rule.peers = [] ∨ ∃ peer ∈ rule.peers, peer.Selects source) ∧ rule.OpensPort named q

inductive PolicyType where
  | ingress
  | egress
deriving DecidableEq, Repr

/-- The rules of a direction are in force when `policyTypes` names it. -/
structure NetworkPolicy where
  name : String
  podSelector : Labels
  policyTypes : List PolicyType
  ingress : List PolicyRule
  egress : List PolicyRule

/-- An Ingress policy that selects a pod. -/
def NetworkPolicy.Protects (p : NetworkPolicy) (pod : Labels) : Prop :=
  .ingress ∈ p.policyTypes ∧ p.podSelector.Selects pod

variable (ps : List NetworkPolicy)

/-- A pod takes in connections from another one on a port. -/
def TakesIn (source destination : Pod) (q : Port) : Prop :=
  (∀ p ∈ ps, ¬ p.Protects destination.labels) ∨
    ∃ p ∈ ps, p.Protects destination.labels ∧
      ∃ rule ∈ p.ingress, rule.Admits source.labels destination.named q

/-- An egress rule leads from one group of pods to another by an entry of its ports. -/
def Aimed (source destination : Labels) (entry : Option PolicyPort) : Prop :=
  ∃ p ∈ ps, .egress ∈ p.policyTypes ∧ p.podSelector = source ∧
    ∃ rule ∈ p.egress, destination ∈ rule.peers ∧ entry ∈ rule.entries

/-- Every pod an egress rule lets a pod reach takes that pod in. -/
def Connected : Prop :=
  ∀ source destination entry, Aimed ps source destination entry →
    ∀ (pod pod' : Pod) (q : Port), source.Selects pod.labels → destination.Selects pod'.labels →
      Covers entry pod'.named q → TakesIn ps pod pod' q

/-- No policy that selects the pod admits a source on a port. -/
def LeftOut (source pod : Labels) (named : String → Option Port) (q : Port) : Prop :=
  ∀ p ∈ ps, p.Protects pod → ∀ rule ∈ p.ingress, ¬ rule.Admits source named q

/-- Some Ingress policy has pods in common with the destination, and on the
smallest of them nothing admits the source. -/
def Barred (source destination : Labels) (named : String → Option Port) (q : Port) : Prop :=
  ∃ p ∈ ps, .ingress ∈ p.policyTypes ∧ destination.Compatible p.podSelector ∧
    LeftOut ps source (destination.merge p.podSelector) named q

variable {ps}

/-- A pod with more labels is admitted by no fewer rules. -/
theorem PolicyRule.Admits.mono {rule : PolicyRule} {source pod : Labels}
    {named : String → Option Port} {q : Port} (h : rule.Admits source named q)
    (hpod : source.Selects pod) : rule.Admits pod named q := by
  refine ⟨h.1.imp_right ?_, h.2⟩
  rintro ⟨peer, hpeer, hselects⟩
  exact ⟨peer, hpeer, hselects.trans hpod⟩

/-- A pod with more labels is selected by no fewer policies. -/
theorem LeftOut.anti {source pod pod' : Labels} {named : String → Option Port} {q : Port}
    (h : LeftOut ps source pod' named q) (hpod : pod.Selects pod') :
    LeftOut ps source pod named q :=
  fun p hp hprotects => h p hp ⟨hprotects.1, hprotects.2.trans hpod⟩

/-- The group as a whole is taken in exactly when no Ingress policy bars it. -/
theorem barred_iff {source destination : Labels} {named : String → Option Port} {q : Port} :
    Barred ps source destination named q ↔
      ∃ pod pod' : Pod, source.Selects pod.labels ∧ destination.Selects pod'.labels ∧
        pod'.named = named ∧ ¬ TakesIn ps pod pod' q := by
  constructor
  · rintro ⟨p, hp, hingress, hcompatible, hleft⟩
    refine ⟨⟨source, named⟩, ⟨destination.merge p.podSelector, named⟩, .refl _,
      Labels.selects_merge_left _ _, rfl, ?_⟩
    rintro (hopen | ⟨p', hp', hprotects, rule, hrule, hadmits⟩)
    · exact hopen p hp ⟨hingress, Labels.selects_merge_right hcompatible⟩
    · exact hleft p' hp' hprotects rule hrule hadmits
  · rintro ⟨pod, pod', hsource, hdestination, rfl, hshut⟩
    simp only [TakesIn, not_or, not_forall, not_not, not_exists, not_and] at hshut
    obtain ⟨⟨p, hp, hingress, hselects⟩, hshut⟩ := hshut
    refine ⟨p, hp, hingress, Labels.compatible_of_selects hdestination hselects, ?_⟩
    rintro p' hp' ⟨hingress', hselects'⟩ rule hrule hadmits
    have hlarger := Labels.merge_selects hdestination hselects
    exact hshut p' hp' ⟨hingress', hselects'.trans hlarger⟩ rule hrule (hadmits.mono hsource)

/-- **Connectivity is decided on selectors.** -/
theorem connected_iff :
    Connected ps ↔ ∀ source destination entry, Aimed ps source destination entry →
      ∀ named q, Covers entry named q → ¬ Barred ps source destination named q := by
  constructor
  · intro hconnected source destination entry haimed named q hcovers hbarred
    obtain ⟨pod, pod', hsource, hdestination, rfl, hshut⟩ := barred_iff.mp hbarred
    exact hshut (hconnected source destination entry haimed pod pod' q hsource hdestination hcovers)
  · intro hnone source destination entry haimed pod pod' q hsource hdestination hcovers
    by_contra hshut
    exact hnone source destination entry haimed pod'.named q hcovers
      (barred_iff.mpr ⟨pod, pod', hsource, hdestination, rfl, hshut⟩)

/-- Where an Ingress policy selects just the destination, no other one need be
looked at than those that select all of it. -/
theorem barred_iff_leftOut {source destination : Labels} {named : String → Option Port} {q : Port}
    (h : ∃ p ∈ ps, .ingress ∈ p.policyTypes ∧ p.podSelector.Same destination) :
    Barred ps source destination named q ↔ LeftOut ps source destination named q := by
  constructor
  · rintro ⟨p, hp, hingress, hcompatible, hleft⟩
    exact hleft.anti (Labels.selects_merge_left _ _)
  · intro hleft
    obtain ⟨p, hp, hingress, hsame⟩ := h
    refine ⟨p, hp, hingress, Labels.compatible_of_selects (.refl destination) hsame.1, ?_⟩
    exact hleft.anti (Labels.merge_selects (.refl destination) hsame.1)

end AGame.Scripts
