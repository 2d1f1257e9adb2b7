import AGame.Scripts.PolicyDocuments

/-!
# How exact the network-policy checker is

The checker asks of an egress pair that its literal counterpart be there: a group
with the same labels, a peer with the same labels, the same protocol and port.
Kubernetes asks for less, by matching labels by inclusion, and for more, since a
policy on other labels may select the same pods. Each question is put on policies
here, and the two come to the same of pairs that can be read literally
(`checker_exact_of_literal`).
-/

namespace AGame.Scripts

open Base Yaml

/-! ## The question the checker asks -/

/-- One entry for both: the end of a range is not looked at, and a null protocol is
not the absent one. -/
def PolicyPort.Agrees (a b : PolicyPort) : Prop :=
  a.protocol.getD (some .tcp) = b.protocol.getD (some .tcp) ∧ a.port = b.port

/-- The entry of an ingress rule is taken as the counterpart of an egress entry. -/
def Counterpart : Option PolicyPort → Option PolicyPort → Prop
  | none, _ => True
  | some _, none => False
  | some admitting, some opening => admitting.Agrees opening

variable (ps : List NetworkPolicy)

/-- An Ingress policy has just these labels for its selector. -/
def Guarded (destination : Labels) : Prop :=
  ∃ p ∈ ps, .ingress ∈ p.policyTypes ∧ p.podSelector.Same destination

/-- The literal counterpart of an egress pair is there. -/
def Listed (source destination : Labels) (entry : Option PolicyPort) : Prop :=
  ∃ p ∈ ps, .ingress ∈ p.policyTypes ∧ p.podSelector.Same destination ∧
    ∃ rule ∈ p.ingress, (∃ peer ∈ rule.peers, peer.Same source) ∧
      ∃ admitting ∈ rule.entries, Counterpart admitting entry

/-- The pair is one the checker complains of. -/
def Unmatched (source destination : Labels) (entry : Option PolicyPort) : Prop :=
  Guarded ps destination ∧ ¬ Listed ps source destination entry

variable {ps}

theorem Labels.asSelector_inj {a b : Labels} : a.asSelector = b.asSelector ↔ a.Same b := by
  have hmem : ∀ (labels : Labels) (x : String × String),
      (x.1, Scalar.str x.2) ∈ labels.asSelector ↔ x ∈ labels.pairs := by
    intro labels x
    simp [Labels.asSelector]
  constructor
  · intro h
    exact ⟨fun x hx => (hmem b x).mp (h ▸ (hmem a x).mpr hx),
      fun x hx => (hmem a x).mp (h ▸ (hmem b x).mpr hx)⟩
  · rintro ⟨hab, hba⟩
    unfold Labels.asSelector
    ext x
    simp only [List.mem_toFinset, List.mem_map]
    exact ⟨fun ⟨e, he, hx⟩ => ⟨e, hab he, hx⟩, fun ⟨e, he, hx⟩ => ⟨e, hba he, hx⟩⟩

theorem Protocol.text_injective : Function.Injective Protocol.text := by
  intro a b h
  cases a <;> cases b <;> first | rfl | exact absurd h (by decide)

theorem PortValue.scalar_injective : Function.Injective PortValue.scalar := by
  intro a b h
  cases a <;> cases b <;> simp_all [PortValue.scalar]

/-- A field that is null when there is nothing in it. -/
theorem elim_null_inj {α : Type} {f : α → Scalar} (hf : Function.Injective f)
    (hnull : ∀ a, f a ≠ .null) {a b : Option α} :
    a.elim .null f = b.elim .null f ↔ a = b := by
  cases a with
  | none => cases b with
    | none => simp
    | some b => simp [(hnull b).symm]
  | some a => cases b with
    | none => simp [hnull a]
    | some b => simp [hf.eq_iff]

theorem portRef_some_inj {a b : PolicyPort} :
    portRef (some a) = portRef (some b) ↔ a.Agrees b := by
  have hprotocol : Function.Injective fun p : Protocol => Scalar.str p.text :=
    fun p q h => Protocol.text_injective (Scalar.str.inj h)
  unfold PolicyPort.Agrees portRef
  rw [Option.map_some, Option.map_some, Option.some_inj, Prod.mk.injEq,
    elim_null_inj hprotocol (fun p => by simp),
    elim_null_inj PortValue.scalar_injective (fun p => by cases p <;> simp [PortValue.scalar])]

/-- The two lookups of the checker. -/
theorem counterpart_iff {admitting opening : Option PolicyPort} :
    Counterpart admitting opening ↔
      portRef admitting = portRef opening ∨ portRef admitting = none := by
  cases admitting with
  | none => simp [Counterpart, portRef]
  | some a => cases opening with
    | none => simp [Counterpart, portRef]
    | some b => simp [Counterpart, ← portRef_some_inj, portRef]

/-! ## What the checker finds -/

section Collected

variable {files : List (String × NetworkPolicy)}

/-- What is collected from the files. -/
def collect (files : List (String × NetworkPolicy)) : Collected :=
  files.foldl (fun acc file => acc.add file.1 file.2) Collected.empty

theorem guarded_iff {destination : Labels} :
    destination.asSelector ∈ (collect files).protectedGroups ↔
      Guarded (files.map Prod.snd) destination := by
  unfold collect
  rw [mem_protectedGroups]
  simp only [Collected.empty, Finset.notMem_empty, false_or, Labels.asSelector_inj]
  rfl

theorem listed_iff {source destination : Labels} {entry : Option PolicyPort} :
    (destination.asSelector, source.asSelector, portRef entry) ∈ (collect files).allowed ∨
        (destination.asSelector, source.asSelector, none) ∈ (collect files).allowed ↔
      Listed (files.map Prod.snd) source destination entry := by
  unfold collect
  simp only [mem_allowed, Collected.empty, Finset.notMem_empty, false_or,
    NetworkPolicy.mem_admitted, Prod.mk.injEq, Labels.asSelector_inj]
  constructor
  · rintro (⟨p, hp, hin, rule, hrule, peer, hpeer, admitting, hentry, hsubject, hsource, hport⟩ |
      ⟨p, hp, hin, rule, hrule, peer, hpeer, admitting, hentry, hsubject, hsource, hport⟩)
    · exact ⟨p, hp, hin, hsubject, rule, hrule, ⟨peer, hpeer, hsource⟩, admitting, hentry,
        counterpart_iff.mpr (.inl hport)⟩
    · exact ⟨p, hp, hin, hsubject, rule, hrule, ⟨peer, hpeer, hsource⟩, admitting, hentry,
        counterpart_iff.mpr (.inr hport)⟩
  · rintro ⟨p, hp, hin, hsubject, rule, hrule, ⟨peer, hpeer, hsource⟩, admitting, hentry, hport⟩
    refine (counterpart_iff.mp hport).imp (fun hport => ?_) (fun hport => ?_)
    · exact ⟨p, hp, hin, rule, hrule, peer, hpeer, admitting, hentry, hsubject, hsource, hport⟩
    · exact ⟨p, hp, hin, rule, hrule, peer, hpeer, admitting, hentry, hsubject, hsource, hport⟩

variable (files) in
theorem isProblem_iff {item : EgressEntry} {source destination : Labels}
    {entry : Option PolicyPort} (hsource : item.source = source.asSelector)
    (hdestination : item.destination = destination.asSelector) (hport : item.port = yamlRef entry) :
    ∃ bad, isProblem (collect files) item = .ok bad ∧
      (bad = true ↔ Unmatched (files.map Prod.snd) source destination entry) := by
  unfold isProblem Unmatched
  rw [hsource, hdestination, hport, hashed_yamlRef, ok_bind, ← guarded_iff, ← listed_iff]
  split_ifs with hguarded hentry hany
  · exact ⟨false, rfl, by simp [hentry]⟩
  · exact ⟨false, rfl, by simp [hany]⟩
  · exact ⟨true, rfl, by simp [hguarded, hentry, hany]⟩
  · exact ⟨false, rfl, by simp [hguarded]⟩

/-- An entry of the list of egress pairs stands for a pair of groups and an entry of
their ports. -/
theorem aimed_of_mem_egress {item : EgressEntry} (h : item ∈ (collect files).egress) :
    ∃ source destination entry, Aimed (files.map Prod.snd) source destination entry ∧
      item.source = source.asSelector ∧ item.destination = destination.asSelector ∧
      item.port = yamlRef entry := by
  rcases mem_egress.mp h with h | ⟨file, hfile, h⟩
  · cases h
  · obtain ⟨hout, rule, hrule, peer, hpeer, entry, hentry, rfl⟩ := NetworkPolicy.mem_opened.mp h
    exact ⟨file.2.podSelector, peer, entry, ⟨file.2, List.mem_map_of_mem hfile, hout, rfl,
      rule, hrule, hpeer, hentry⟩, rfl, rfl, rfl⟩

theorem mem_egress_of_aimed {source destination : Labels} {entry : Option PolicyPort}
    (h : Aimed (files.map Prod.snd) source destination entry) :
    ∃ item ∈ (collect files).egress, item.source = source.asSelector ∧
      item.destination = destination.asSelector ∧ item.port = yamlRef entry := by
  obtain ⟨p, hp, hout, rfl, rule, hrule, hpeer, hentry⟩ := h
  obtain ⟨file, hfile, rfl⟩ := List.mem_map.mp hp
  exact ⟨_, mem_egress.mpr (.inr ⟨file, hfile, NetworkPolicy.mem_opened.mpr
    ⟨hout, rule, hrule, destination, hpeer, entry, hentry, rfl⟩⟩), rfl, rfl, rfl⟩

end Collected

variable {documents : List (String × Yaml)}

theorem problems_of_decode
    (h : (policies documents).mapM (fun document => decodePolicy document.2) = some ps) :
    ∃ found, problems documents = .ok found ∧
      (found = [] ↔ ∀ source destination entry, Aimed ps source destination entry →
        ¬ Unmatched ps source destination entry) := by
  obtain ⟨files, rfl, hfold⟩ := foldlM_readPolicy h Collected.empty
  have hfilter : ∀ item ∈ (collect files).egress, isProblem (collect files) item =
      .ok ((isProblem (collect files) item).toOption.getD false) := by
    intro item hitem
    obtain ⟨source, destination, entry, -, hsource, hdestination, hport⟩ :=
      aimed_of_mem_egress hitem
    obtain ⟨bad, hbad, -⟩ := isProblem_iff files hsource hdestination hport
    rw [hbad]
    rfl
  have hproblems : problems documents = .ok ((collect files).egress.filter fun item =>
      (isProblem (collect files) item).toOption.getD false) := by
    unfold problems
    rw [hfold, ok_bind]
    exact filterM_ok hfilter
  refine ⟨_, hproblems, ?_⟩
  rw [List.filter_eq_nil_iff]
  constructor
  · intro hnone source destination entry haimed hunmatched
    obtain ⟨item, hitem, hsource, hdestination, hport⟩ := mem_egress_of_aimed haimed
    obtain ⟨bad, hbad, hiff⟩ := isProblem_iff files hsource hdestination hport
    have hgood := hnone item hitem
    rw [hbad] at hgood
    exact hgood (hiff.mpr hunmatched)
  · intro hnone item hitem
    obtain ⟨source, destination, entry, haimed, hsource, hdestination, hport⟩ :=
      aimed_of_mem_egress hitem
    obtain ⟨bad, hbad, hiff⟩ := isProblem_iff files hsource hdestination hport
    rw [hbad]
    exact fun hbad => hnone source destination entry haimed (hiff.mp hbad)

/-- **The exit code on policies.** -/
theorem main_eq_zero_iff
    (h : (policies documents).mapM (fun document => decodePolicy document.2) = some ps) :
    main (some documents) = .ok 0 ↔ ∀ source destination entry,
      Aimed ps source destination entry → ¬ Unmatched ps source destination entry := by
  obtain ⟨found, hfound, hiff⟩ := problems_of_decode h
  rw [← hiff]
  unfold main
  simp only [hfound, ok_bind]
  cases found with
  | nil => simp
  | cons item found => simp

/-! ## Where the two questions come to the same -/

/-- An ingress rule that has just the labels of the two groups. -/
structure NamesPair (p : NetworkPolicy) (rule : PolicyRule) (source destination : Labels) :
    Prop where
  ingress : .ingress ∈ p.policyTypes
  destination : p.podSelector.Same destination
  listed : rule ∈ p.ingress
  source : ∃ peer ∈ rule.peers, peer.Same source

/-- Every port, or the same entry again with the end of its range. -/
def SameEntry (admitting opening : Option PolicyPort) : Prop :=
  admitting = none ∨
    ∃ a b, admitting = some a ∧ opening = some b ∧ a.Agrees b ∧ a.endPort = b.endPort

variable (ps) in
/-- The selectors, the peers and the ports of an egress pair can be compared as they stand. -/
inductive Literal (source destination : Labels) (entry : Option PolicyPort) : Prop
  /-- No Ingress policy has the labels of the destination, and one that selects some pod of it
  lets everything in. -/
  | unprotected : ¬ Guarded ps destination →
      (∀ p ∈ ps, .ingress ∈ p.policyTypes → destination.Compatible p.podSelector →
        ∃ rule ∈ p.ingress, rule.peers = [] ∧ rule.ports = []) →
      Literal source destination entry
  /-- A rule on just the two groups has the entry. -/
  | met {p : NetworkPolicy} {rule : PolicyRule} {admitting : Option PolicyPort} : p ∈ ps →
      NamesPair p rule source destination → admitting ∈ rule.entries →
      SameEntry admitting entry → Literal source destination entry
  /-- Whatever rule lets the source in is on just the two groups; none of their entries is the
  counterpart, and all leave out some port of the entry. -/
  | unmet {named : String → Option Port} {q : Port} : Guarded ps destination →
      Covers entry named q →
      (∀ p ∈ ps, p.Protects destination → ∀ rule ∈ p.ingress,
        (rule.peers = [] ∨ ∃ peer ∈ rule.peers, peer.Selects source) →
          NamesPair p rule source destination) →
      (∀ p ∈ ps, ∀ rule, NamesPair p rule source destination → ∀ admitting ∈ rule.entries,
        ¬ Counterpart admitting entry ∧ ¬ Covers admitting named q) →
      Literal source destination entry

theorem SameEntry.counterpart {admitting opening : Option PolicyPort}
    (h : SameEntry admitting opening) : Counterpart admitting opening := by
  rcases h with rfl | ⟨a, b, rfl, rfl, hagrees, -⟩
  · trivial
  · exact hagrees

/-- The same entry opens the same ports. -/
theorem SameEntry.covers {admitting opening : Option PolicyPort} (h : SameEntry admitting opening)
    {named : String → Option Port} {q : Port} (hcovers : Covers opening named q) :
    Covers admitting named q := by
  rcases h with rfl | ⟨a, b, rfl, rfl, ⟨hprotocol, hport⟩, hend⟩
  · exact covers_none named q
  · rintro _ ⟨⟩
    obtain ⟨hopen, hnumber⟩ := hcovers b rfl
    have hjoin : ∀ x : Option (Option Protocol),
        x.join.getD .tcp = (x.getD (some .tcp)).getD .tcp := by
      intro x
      cases x <;> rfl
    have hsame : a.protocol.join.getD .tcp = b.protocol.join.getD .tcp := by
      rw [hjoin, hjoin, hprotocol]
    refine ⟨hsame.trans hopen, ?_⟩
    rw [hport, hend]
    exact hnumber

/-- A pair that is met is listed, and nothing bars it. -/
theorem Literal.right_of_met {source destination : Labels} {entry admitting : Option PolicyPort}
    {p : NetworkPolicy} {rule : PolicyRule} (hp : p ∈ ps)
    (hnames : NamesPair p rule source destination) (hentry : admitting ∈ rule.entries)
    (hsame : SameEntry admitting entry) :
    Listed ps source destination entry ∧
      ∀ named q, Covers entry named q → ¬ Barred ps source destination named q := by
  refine ⟨⟨p, hp, hnames.ingress, hnames.destination, rule, hnames.listed, hnames.source, admitting,
    hentry, hsame.counterpart⟩, fun named q hcovers hbarred => ?_⟩
  have hleft := (barred_iff_leftOut ⟨p, hp, hnames.ingress, hnames.destination⟩).mp hbarred
  obtain ⟨peer, hpeer, hsource⟩ := hnames.source
  exact hleft p hp ⟨hnames.ingress, hnames.destination.1⟩ rule hnames.listed
    ⟨.inr ⟨peer, hpeer, hsource.1⟩, admitting, hentry, hsame.covers hcovers⟩

/-- A pair that is not met is unmatched, and barred on a port. -/
theorem Literal.right_of_unmet {source destination : Labels} {entry : Option PolicyPort}
    {named : String → Option Port} {q : Port} (hguarded : Guarded ps destination)
    (hnames : ∀ p ∈ ps, p.Protects destination → ∀ rule ∈ p.ingress,
      (rule.peers = [] ∨ ∃ peer ∈ rule.peers, peer.Selects source) →
        NamesPair p rule source destination)
    (hentries : ∀ p ∈ ps, ∀ rule, NamesPair p rule source destination →
      ∀ admitting ∈ rule.entries, ¬ Counterpart admitting entry ∧ ¬ Covers admitting named q) :
    Unmatched ps source destination entry ∧ Barred ps source destination named q := by
  refine ⟨⟨hguarded, ?_⟩, (barred_iff_leftOut hguarded).mpr ?_⟩
  · rintro ⟨p, hp, hin, hsame, rule, hrule, hpeer, admitting, hentry, hcounter⟩
    exact (hentries p hp rule ⟨hin, hsame, hrule, hpeer⟩ admitting hentry).1 hcounter
  · rintro p hp hprotects rule hrule ⟨hpeers, admitting, hentry, hcovers⟩
    have hpair := hnames p hp hprotects rule hrule hpeers
    exact (hentries p hp rule hpair admitting hentry).2 hcovers

/-- Of a literal pair the checker complains just when some of its pods are shut off. -/
theorem Literal.unmatched_iff {source destination : Labels} {entry : Option PolicyPort}
    (h : Literal ps source destination entry) :
    Unmatched ps source destination entry ↔
      ∃ named q, Covers entry named q ∧ Barred ps source destination named q := by
  cases h with
  | unprotected hunguarded hopen =>
      constructor
      · rintro ⟨hguarded, -⟩
        exact absurd hguarded hunguarded
      · rintro ⟨named, q, -, p, hp, hin, hcompatible, hleft⟩
        obtain ⟨rule, hrule, hpeers, hports⟩ := hopen p hp hin hcompatible
        have hentry : none ∈ rule.entries := by
          rw [PolicyRule.entries, if_pos hports]
          exact .head _
        exact absurd ⟨.inl hpeers, none, hentry, covers_none named q⟩
          (hleft p hp ⟨hin, Labels.selects_merge_right hcompatible⟩ rule hrule)
  | met hp hnames hentry hsame =>
      obtain ⟨hlisted, hfree⟩ := Literal.right_of_met hp hnames hentry hsame
      constructor
      · rintro ⟨-, hunlisted⟩
        exact absurd hlisted hunlisted
      · rintro ⟨named, q, hcovers, hbarred⟩
        exact absurd hbarred (hfree named q hcovers)
  | @unmet named q hguarded hcovers hnames hentries =>
      obtain ⟨hunmatched, hbarred⟩ := Literal.right_of_unmet hguarded hnames hentries
      exact iff_of_true hunmatched ⟨named, q, hcovers, hbarred⟩

/-- **The checker is exact on policies that can be read literally.** -/
theorem checker_exact_of_literal
    (h : (policies documents).mapM (fun document => decodePolicy document.2) = some ps)
    (hliteral : ∀ source destination entry, Aimed ps source destination entry →
      Literal ps source destination entry) :
    main (some documents) = .ok 0 ↔ Connected ps := by
  rw [main_eq_zero_iff h, connected_iff]
  constructor
  · intro hquiet source destination entry haimed named q hcovers hbarred
    have hiff := (hliteral source destination entry haimed).unmatched_iff
    exact hquiet source destination entry haimed (hiff.mpr ⟨named, q, hcovers, hbarred⟩)
  · intro hfree source destination entry haimed hunmatched
    have hiff := (hliteral source destination entry haimed).unmatched_iff
    obtain ⟨named, q, hcovers, hbarred⟩ := hiff.mp hunmatched
    exact hfree source destination entry haimed named q hcovers hbarred

/-! ## A namespace that is closed by default -/

/-- The labels of a component. -/
def component (name : String) : Labels := ⟨[("app.kubernetes.io/name", name)], by simp⟩

def componentNode (name : String) : Yaml :=
  .map [("matchLabels", .map [("app.kubernetes.io/name", str name)])]

def policyNode (name : String) (spec : List (String × Yaml)) : String × Yaml :=
  ("50-networkpolicies.yaml", .map [
    ("kind", str "NetworkPolicy"), ("metadata", .map [("name", str name)]), ("spec", .map spec)])

def portsNode (port : ℤ) : Yaml :=
  .seq [.map [("protocol", str "TCP"), ("port", .scalar (.int port))]]

/-- Nothing comes in, and the api may go out to postgres. -/
def closedDocuments : List (String × Yaml) := [
  policyNode "a-game-network-policy" [
    ("podSelector", .map []), ("policyTypes", .seq [str "Ingress"])],
  policyNode "allow-api" [
    ("podSelector", componentNode "a-game-api"), ("policyTypes", .seq [str "Egress"]),
    ("egress", .seq [.map [
      ("to", .seq [.map [("podSelector", componentNode "a-game-postgres")]]),
      ("ports", portsNode 5432)]])]]

def defaultPolicy : NetworkPolicy where
  name := "a-game-network-policy"
  podSelector := .empty
  policyTypes := [.ingress]
  ingress := []
  egress := []

def postgresPort : PolicyPort := ⟨some (some .tcp), some (.number 5432), none⟩

def apiPolicy : NetworkPolicy where
  name := "allow-api"
  podSelector := component "a-game-api"
  policyTypes := [.egress]
  ingress := []
  egress := [⟨[component "a-game-postgres"], [postgresPort]⟩]

theorem decode_closedDocuments :
    (policies closedDocuments).mapM (fun document => decodePolicy document.2) =
      some [defaultPolicy, apiPolicy] := rfl

/-- The same with the ingress half of the pair. -/
def pairedDocuments : List (String × Yaml) := closedDocuments ++ [
  policyNode "allow-postgres" [
    ("podSelector", componentNode "a-game-postgres"), ("policyTypes", .seq [str "Ingress"]),
    ("ingress", .seq [.map [
      ("from", .seq [.map [("podSelector", componentNode "a-game-api")]]),
      ("ports", portsNode 5432)]])]]

def postgresPolicy : NetworkPolicy where
  name := "allow-postgres"
  podSelector := component "a-game-postgres"
  policyTypes := [.ingress]
  ingress := [⟨[component "a-game-api"], [postgresPort]⟩]
  egress := []

theorem checker_exact_paired : main (some pairedDocuments) = .ok 0 ↔
    Connected [defaultPolicy, apiPolicy, postgresPolicy] := by
  refine checker_exact_of_literal (by rfl) ?_
  rintro source destination entry ⟨p, hp, hout, rfl, rule, hrule, hpeer, hentry⟩
  simp only [List.mem_cons, List.not_mem_nil, or_false] at hp
  rcases hp with rfl | rfl | rfl
  · cases hrule
  · obtain rfl := List.mem_singleton.mp hrule
    obtain rfl := List.mem_singleton.mp hpeer
    obtain rfl := List.mem_singleton.mp hentry
    exact .met (p := postgresPolicy) (.tail _ (.tail _ (.head _)))
      ⟨.head _, by decide, .head _, _, .head _, by decide⟩ (.head _)
      (.inr ⟨_, _, rfl, rfl, ⟨rfl, rfl⟩, rfl⟩)
  · cases hrule

theorem aimed_at_postgres : Aimed [defaultPolicy, apiPolicy] (component "a-game-api")
    (component "a-game-postgres") (some postgresPort) :=
  ⟨apiPolicy, .tail _ (.head _), by decide, rfl, _, .head _, .head _, .head _⟩

/-- The api is cut off from postgres. -/
theorem closed_not_connected : ¬ Connected [defaultPolicy, apiPolicy] := by
  intro hconnected
  rcases hconnected _ _ _ aimed_at_postgres ⟨component "a-game-api", fun _ => none⟩
      ⟨component "a-game-postgres", fun _ => none⟩ ⟨.tcp, 5432, by decide⟩ (.refl _) (.refl _)
      (by rintro _ ⟨⟩; exact ⟨rfl, rfl⟩) with hopen | ⟨p, hp, hprotects, rule, hrule, -⟩
  · exact hopen defaultPolicy (.head _) ⟨by decide, by decide⟩
  · rcases List.mem_pair.mp hp with rfl | rfl
    · cases hrule
    · cases hrule

/-- Postgres has the labels of no Ingress policy, so the checker does not look at the
pair; the policy of the whole namespace selects it all the same. -/
theorem closed_is_passed_over :
    (policies closedDocuments).mapM (fun document => decodePolicy document.2) =
        some [defaultPolicy, apiPolicy] ∧
      ¬ (main (some closedDocuments) = .ok 0 ↔ Connected [defaultPolicy, apiPolicy]) := by
  refine ⟨decode_closedDocuments, fun hexact => closed_not_connected (hexact.mp ?_)⟩
  decide +kernel

end AGame.Scripts
