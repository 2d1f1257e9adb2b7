import AGame.Base.Result
import AGame.Scripts.CheckK8sRefs

/-!
# What manifests refer to

A pod spec names other objects in a fixed set of fields, and a manifest may hold a
pod spec at any depth. The walk of the reference checker reaches every value of a
manifest (`mem_walk`), so what it comes down to is which fields its test on the last
two keys recognises, and what it takes for a definition.
-/

namespace AGame.Scripts.CheckK8sRefs

open Base Yaml

/-! ## The walk -/

mutual
theorem mem_walk {path keys : List String} {value : Yaml} : ∀ node : Yaml,
    (keys, value) ∈ walk path node ↔ ∃ rest, keys = path ++ rest ∧ Occurs node rest value
  | .scalar s => by
      rw [walk]
      constructor
      · intro h
        cases h
      · rintro ⟨rest, -, h⟩
        cases h
  | .seq items => by
      rw [walk, mem_walkItems items]
      constructor
      · rintro ⟨rest, rfl, item, hitem, h⟩
        exact ⟨rest, rfl, .item hitem h⟩
      · rintro ⟨rest, rfl, h⟩
        cases h with
        | item hitem h => exact ⟨rest, rfl, _, hitem, h⟩
  | .map entries => by
      rw [walk, mem_walkEntries entries]
      constructor
      · rintro ⟨⟨key, node⟩, hentry, rest, rfl, ⟨rfl, rfl⟩ | h⟩
        · exact ⟨[key], rfl, .entry hentry⟩
        · exact ⟨key :: rest, rfl, .under hentry h⟩
      · rintro ⟨rest, rfl, h⟩
        cases h with
        | entry hentry => exact ⟨_, hentry, [], rfl, .inl ⟨rfl, rfl⟩⟩
        | under hentry h => exact ⟨_, hentry, _, rfl, .inr h⟩

theorem mem_walkItems {path keys : List String} {value : Yaml} : ∀ items : List Yaml,
    (keys, value) ∈ walkItems path items ↔
      ∃ rest, keys = path ++ rest ∧ ∃ item ∈ items, Occurs item rest value
  | [] => by simp [walkItems]
  | item :: items => by
      rw [walkItems, List.mem_append, mem_walk item, mem_walkItems items, ← exists_or]
      simp only [List.mem_cons, exists_eq_or_imp, and_or_left]

theorem mem_walkEntries {path keys : List String} {value : Yaml} :
    ∀ entries : List (String × Yaml), (keys, value) ∈ walkEntries path entries ↔
      ∃ entry ∈ entries, ∃ rest, keys = path ++ entry.1 :: rest ∧
        ((rest = [] ∧ value = entry.2) ∨ Occurs entry.2 rest value)
  | [] => by simp [walkEntries]
  | entry :: entries => by
      rw [walkEntries, List.mem_append, mem_walkEntry entry, mem_walkEntries entries]
      simp only [List.mem_cons, exists_eq_or_imp]

theorem mem_walkEntry {path keys : List String} {value : Yaml} : ∀ entry : String × Yaml,
    (keys, value) ∈ walkEntry path entry ↔ ∃ rest, keys = path ++ entry.1 :: rest ∧
      ((rest = [] ∧ value = entry.2) ∨ Occurs entry.2 rest value)
  | (key, node) => by
      rw [walkEntry, List.mem_cons, mem_walk node]
      simp only [Prod.mk.injEq, List.append_assoc, List.singleton_append]
      constructor
      · rintro (⟨rfl, rfl⟩ | ⟨rest, rfl, h⟩)
        · exact ⟨[], rfl, .inl ⟨rfl, rfl⟩⟩
        · exact ⟨rest, rfl, .inr h⟩
      · rintro ⟨rest, rfl, ⟨rfl, rfl⟩ | h⟩
        · exact .inl ⟨rfl, rfl⟩
        · exact .inr ⟨rest, rfl, h⟩
end

/-- From the top, the walk finds what occurs in the manifest. -/
theorem mem_walk_nil {doc value : Yaml} {keys : List String} :
    (keys, value) ∈ walk [] doc ↔ Occurs doc keys value := by
  rw [mem_walk]
  simp

/-- `keys[-1]` is there. -/
theorem keys_ne_nil {doc value : Yaml} {keys : List String} (h : (keys, value) ∈ walk [] doc) :
    keys ≠ [] :=
  (mem_walk_nil.mp h).path_ne_nil

/-! ## What is defined -/

/-- `metadata.name` -/
def HasName (node : Yaml) (name : String) : Prop :=
  (node.field? "metadata").bind (·.field? "name") = some (str name)

/-- The manifest is an object of this kind and name. -/
def IsObject (doc : Yaml) (kind : Kind) (name : String) : Prop :=
  doc.field? "kind" = some (str kind.text) ∧ HasName doc name

/-- The manifest has a claim template of this name. -/
def HasTemplate (doc : Yaml) (name : String) : Prop :=
  ∃ templates, (doc.field? "spec").bind (·.field? "volumeClaimTemplates") = some (.seq templates) ∧
    ∃ template ∈ templates, HasName template name

theorem hasName_of_metadataName {node : Yaml} {name : String}
    (h : metadataName node = .ok (str name)) : HasName node name := by
  unfold metadataName at h
  obtain ⟨metadata, hmetadata, h⟩ := bind_eq_ok.mp h
  obtain ⟨field, hfield, h⟩ := bind_eq_ok.mp h
  obtain rfl := getD_null_eq_str (pure_eq_ok.mp h)
  have hname := field?_of_get? hfield
  unfold HasName
  rcases field?_of_getOr hmetadata with rfl | hmetadata
  · cases hname
  · rw [hmetadata]
    exact hname

theorem isObject_of_definedName {doc name : Yaml} {own : List (Kind × Scalar)} {kind : Kind}
    {target : String} (hname : metadataName doc = .ok name)
    (h : definedName doc name = .ok own) (hmem : (kind, .str target) ∈ own) :
    IsObject doc kind target := by
  unfold definedName at h
  obtain ⟨field, hfield, h⟩ := bind_eq_ok.mp h
  obtain ⟨found, hfound, h⟩ := bind_eq_ok.mp h
  split at h
  case h_1 k hk =>
    split at h
    case isTrue =>
      obtain ⟨value, hvalue, h⟩ := bind_eq_ok.mp h
      obtain rfl := pure_eq_ok.mp h
      obtain ⟨rfl, rfl⟩ := Prod.mk.inj (List.mem_singleton.mp hmem)
      obtain rfl := eq_of_hashable hvalue
      have hkind := List.find?_some hk
      rw [of_decide_eq_true hkind] at hfound
      refine ⟨?_, hasName_of_metadataName hname⟩
      rw [field?_of_get? hfield]
      exact getD_null_eq_str (eq_of_hashable hfound)
    case isFalse =>
      obtain rfl := pure_eq_ok.mp h
      cases hmem
  case h_2 =>
    obtain rfl := pure_eq_ok.mp h
    cases hmem

theorem template_of_mintedNames {doc : Yaml} {minted : List (Kind × Scalar)} {kind : Kind}
    {target : String} (h : mintedNames doc = .ok minted) (hmem : (kind, .str target) ∈ minted) :
    kind = .persistentVolumeClaim ∧ HasTemplate doc target := by
  unfold mintedNames at h
  obtain ⟨spec, hspec, h⟩ := bind_eq_ok.mp h
  obtain ⟨field, hfield, h⟩ := bind_eq_ok.mp h
  obtain ⟨templates, htemplates, h⟩ := bind_eq_ok.mp h
  obtain ⟨found, hfound, h⟩ := bind_eq_ok.mp h
  obtain rfl := pure_eq_ok.mp h
  obtain ⟨names, hnames, hmem⟩ := List.mem_flatten.mp hmem
  obtain ⟨template, htemplate, hread⟩ := exists_item_of_mapM hfound hnames
  obtain ⟨templateName, hname, hread⟩ := bind_eq_ok.mp hread
  split at hread
  case isFalse =>
    obtain rfl := pure_eq_ok.mp hread
    cases hmem
  case isTrue =>
    obtain ⟨value, hvalue, hread⟩ := bind_eq_ok.mp hread
    obtain rfl := pure_eq_ok.mp hread
    obtain ⟨rfl, rfl⟩ := Prod.mk.inj (List.mem_singleton.mp hmem)
    obtain rfl := eq_of_hashable hvalue
    refine ⟨rfl, templates, ?_, template, htemplate, hasName_of_metadataName hname⟩
    rcases seq_of_iterate htemplates htemplate with rfl | ⟨s, rfl⟩
    · rcases field?_of_getOr hfield with hempty | hfield
      · obtain rfl := Yaml.seq.inj hempty
        cases htemplate
      · rcases field?_of_getOr hspec with rfl | hspec
        · cases hfield
        · rw [hspec]
          exact hfield
    · cases hname

/-! ## What is collected -/

/-- What one document adds. -/
theorem collectDocument_eq_ok {acc acc' : Collected} {filename : String} {doc : Yaml}
    (h : collectDocument acc filename doc = .ok acc') :
    ∃ name own minted, metadataName doc = .ok name ∧ definedName doc name = .ok own ∧
      mintedNames doc = .ok minted ∧ acc'.defined = acc.defined ∪ (own ++ minted).toFinset ∧
      acc'.references = acc.references ++ referencesOf filename name (walk [] doc) := by
  unfold collectDocument at h
  obtain ⟨name, hname, h⟩ := bind_eq_ok.mp h
  obtain ⟨own, hown, h⟩ := bind_eq_ok.mp h
  obtain ⟨minted, hminted, h⟩ := bind_eq_ok.mp h
  obtain rfl := pure_eq_ok.mp h
  exact ⟨name, own, minted, hname, hown, hminted, rfl, rfl⟩

/-- A manifest defines a name of this kind for the checker. -/
def Defines (doc : Yaml) (kind : Kind) (name : String) : Prop :=
  IsObject doc kind name ∨ (kind = .persistentVolumeClaim ∧ HasTemplate doc name)

/-- The accumulator has nothing that the documents so far do not define, and every
reference in them. -/
structure Sound (seen : List (String × Yaml)) (acc : Collected) : Prop where
  defined : ∀ kind name, (kind, .str name) ∈ acc.defined → ∃ file ∈ seen, Defines file.2 kind name
  references : ∀ file ∈ seen, ∀ keys value kind, Occurs file.2 keys (str value) →
    referenceKind keys = some kind → ∃ r ∈ acc.references, r.kind = kind ∧ r.target = value

theorem Sound.empty : Sound [] .empty where
  defined _ _ h := by cases h
  references _ h := by cases h

theorem Sound.step {seen : List (String × Yaml)} {acc acc' : Collected} {file : String × Yaml}
    (hsound : Sound seen acc) (h : collectDocument acc file.1 file.2 = .ok acc') :
    Sound (seen ++ [file]) acc' := by
  obtain ⟨name, own, minted, hname, hown, hminted, hdefined, hreferences⟩ := collectDocument_eq_ok h
  constructor
  · intro kind target hmem
    rw [hdefined, Finset.mem_union, List.mem_toFinset, List.mem_append] at hmem
    rcases hmem with hmem | hmem | hmem
    · obtain ⟨file', hfile', hdefines⟩ := hsound.defined kind target hmem
      exact ⟨file', List.mem_append_left _ hfile', hdefines⟩
    · exact ⟨file, List.mem_append_right _ (List.mem_singleton.mpr rfl),
        .inl (isObject_of_definedName hname hown hmem)⟩
    · exact ⟨file, List.mem_append_right _ (List.mem_singleton.mpr rfl),
        .inr (template_of_mintedNames hminted hmem)⟩
  · intro file' hfile' keys value kind hoccurs hkind
    rw [hreferences]
    rcases List.mem_append.mp hfile' with hfile' | hfile'
    · obtain ⟨r, hr, hfacts⟩ := hsound.references file' hfile' keys value kind hoccurs hkind
      exact ⟨r, List.mem_append_left _ hr, hfacts⟩
    · obtain rfl := List.mem_singleton.mp hfile'
      refine ⟨⟨file'.1, name, kind, value⟩, List.mem_append_right _ ?_, rfl, rfl⟩
      refine List.mem_filterMap.mpr ⟨(keys, str value), mem_walk_nil.mpr hoccurs, ?_⟩
      show (referenceKind keys).map _ = _
      rw [hkind]
      rfl

theorem sound_of_collect {files : List (String × Yaml)} {collected : Collected}
    (h : collect files = .ok collected) : Sound (documents files) collected :=
  foldlM_run (P := Sound) (fun _ _ _ _ hsound hstep => hsound.step hstep) Sound.empty h

/-! ## What an exit code of 0 means -/

theorem exists_sorted {references : List (Reference Yaml)} {sorted : List (Reference Scalar)}
    (h : sortedReferences references = .ok sorted) {r : Reference Yaml} (hr : r ∈ references) :
    ∃ r' ∈ sorted, r'.kind = r.kind ∧ r'.target = r.target := by
  unfold sortedReferences at h
  obtain ⟨hashed, hhashed, h⟩ := bind_eq_ok.mp h
  split at h
  case isTrue =>
    obtain rfl := pure_eq_ok.mp h
    obtain ⟨r', hr', hread⟩ := exists_result_of_mapM hhashed hr
    obtain ⟨owner, -, hread⟩ := bind_eq_ok.mp hread
    obtain rfl := pure_eq_ok.mp hread
    exact ⟨_, List.mem_dedup.mpr hr', rfl, rfl⟩
  case isFalse => exact absurd h throw_ne_ok

/-- No reference of the manifests is to a name that is not known. -/
theorem known_of_main {files : List (String × Yaml)} (h : main (some files) = .ok 0) :
    ∃ collected, collect files = .ok collected ∧
      ∀ r ∈ collected.references, isKnown collected.defined r.kind r.target := by
  unfold main at h
  obtain ⟨collected, hcollected, h⟩ := bind_eq_ok.mp h
  obtain ⟨references, hreferences, h⟩ := bind_eq_ok.mp h
  refine ⟨collected, hcollected, fun r hr => ?_⟩
  dsimp only at h
  split at h
  case isTrue hempty =>
    obtain ⟨r', hr', hkind, htarget⟩ := exists_sorted hreferences hr
    have hgood := List.filter_eq_nil_iff.mp (List.isEmpty_iff.mp hempty) r' hr'
    rw [hkind, htarget] at hgood
    simpa using hgood
  case isFalse => cases h

/-- What a name of each kind comes down to when the checker is content. -/
def Resolves (files : List (String × Yaml)) (kind : Kind) (name : String) : Prop :=
  if kind = .secret then name ∈ externalSecrets
  else ∃ file ∈ documents files, Defines file.2 kind name

/-- A string under keys that the checker recognises resolves, wherever it stands. -/
theorem resolves_of_occurs {files : List (String × Yaml)} (h : main (some files) = .ok 0)
    {file : String × Yaml} (hfile : file ∈ documents files) {keys : List String} {name : String}
    {kind : Kind} (hoccurs : Occurs file.2 keys (str name))
    (hkind : referenceKind keys = some kind) :
    Resolves files kind name := by
  obtain ⟨collected, hcollected, hknown⟩ := known_of_main h
  have hsound := sound_of_collect hcollected
  obtain ⟨r, hr, rfl, rfl⟩ := hsound.references file hfile keys name kind hoccurs hkind
  have hgood := hknown r hr
  unfold isKnown at hgood
  unfold Resolves
  split at hgood
  case isTrue hsecret =>
    rw [if_pos hsecret]
    exact of_decide_eq_true hgood
  case isFalse hsecret =>
    rw [if_neg hsecret]
    exact hsound.defined r.kind r.target (of_decide_eq_true hgood)

/-! ## Pod specs -/

/-- The fields of a container that name another object. -/
def containerFields : List (List String × Kind) := [
  (["env", "valueFrom", "configMapKeyRef", "name"], .configMap),
  (["env", "valueFrom", "secretKeyRef", "name"], .secret),
  (["envFrom", "configMapRef", "name"], .configMap),
  (["envFrom", "secretRef", "name"], .secret)]

/-- The fields of a volume, plain or projected, that name another object. -/
def volumeFields : List (List String × Kind) := [
  (["configMap", "name"], .configMap),
  (["secret", "secretName"], .secret),
  (["persistentVolumeClaim", "claimName"], .persistentVolumeClaim),
  (["projected", "sources", "configMap", "name"], .configMap),
  (["projected", "sources", "secret", "name"], .secret),
  (["azureFile", "secretName"], .secret),
  (["cephfs", "secretRef", "name"], .secret),
  (["csi", "nodePublishSecretRef", "name"], .secret),
  (["flexVolume", "secretRef", "name"], .secret),
  (["iscsi", "secretRef", "name"], .secret),
  (["rbd", "secretRef", "name"], .secret),
  (["scaleIO", "secretRef", "name"], .secret),
  (["storageos", "secretRef", "name"], .secret)]

/-- The fields of a pod spec that name another object, list positions left out. The checker
does not read the deprecated alias `serviceAccount` either, which is not among them. -/
def podSpecFields : List (List String × Kind) :=
  (["serviceAccountName"], .serviceAccount) :: (["imagePullSecrets", "name"], .secret) ::
    (["containers", "initContainers", "ephemeralContainers"].flatMap fun key =>
      containerFields.map fun field => (key :: field.1, field.2)) ++
    volumeFields.map fun field => ("volumes" :: field.1, field.2)

/-- The fields whose last two keys the checker does not recognise. -/
def unreadFields : List (List String) := [
  ["imagePullSecrets", "name"],
  ["volumes", "projected", "sources", "secret", "name"],
  ["volumes", "csi", "nodePublishSecretRef", "name"]]

/-- A pod spec somewhere in the manifest names an object in this field. -/
def Refers (doc : Yaml) (field : List String) (kind : Kind) (name : String) : Prop :=
  (field, kind) ∈ podSpecFields ∧
    ∃ path podSpec, Occurs doc path podSpec ∧ Occurs podSpec field (str name)

theorem getLastD_append (path : List String) {keys : List String} (h : keys ≠ []) :
    (path ++ keys).getLastD "" = keys.getLastD "" := by
  rw [List.getLastD_eq_getLast?, List.getLastD_eq_getLast?, List.getLast?_append_of_ne_nil _ h]

/-- The last two keys decide, whatever is above them. -/
theorem referenceKind_append (path : List String) {field : List String} (h : 2 ≤ field.length) :
    referenceKind (path ++ field) = referenceKind field := by
  have hne : field ≠ [] := by
    rintro rfl
    exact absurd h (by decide)
  have hinit : field.dropLast ≠ [] := by
    intro hnil
    have hlength := congrArg List.length hnil
    rw [List.length_dropLast, List.length_nil] at hlength
    omega
  unfold referenceKind
  rw [List.dropLast_append_of_ne_nil hne, getLastD_append path hne, getLastD_append path hinit]

theorem referenceKind_serviceAccountName (path : List String) :
    referenceKind (path ++ ["serviceAccountName"]) = some .serviceAccount := by
  unfold referenceKind
  simp

theorem referenceKind_field : ∀ field ∈ podSpecFields, field.1 ∉ unreadFields →
    referenceKind field.1 = some field.2 ∧
      (2 ≤ field.1.length ∨ field = (["serviceAccountName"], .serviceAccount)) := by
  decide +kernel

/-- **Nothing in the fields the checker reads is missed.** -/
theorem names_resolve {files : List (String × Yaml)} (h : main (some files) = .ok 0)
    {file : String × Yaml} (hfile : file ∈ documents files) {field : List String} {kind : Kind}
    {name : String} (hrefers : Refers file.2 field kind name) (hread : field ∉ unreadFields) :
    Resolves files kind name := by
  obtain ⟨hfield, path, podSpec, hpath, hoccurs⟩ := hrefers
  refine resolves_of_occurs h hfile (hpath.trans hoccurs) ?_
  obtain ⟨hkind, hlength | hname⟩ := referenceKind_field _ hfield hread
  · rw [referenceKind_append path hlength]
    exact hkind
  · obtain ⟨rfl, rfl⟩ := Prod.mk.inj hname
    exact referenceKind_serviceAccountName path

def manifest (kind name : String) (spec : Yaml) : Yaml :=
  .map [("kind", str kind), ("metadata", .map [("name", str name)]), ("spec", spec)]

/-- A Deployment that runs under an account of its own, and the account. -/
def accountFiles : List (String × Yaml) := [
  ("20-api.yaml", manifest "Deployment" "a-game-api" (.map [("template", .map [("spec", .map [
    ("serviceAccountName", str "a-game-api-sa")])])])),
  ("10-accounts.yaml", manifest "ServiceAccount" "a-game-api-sa" null)]

theorem account_resolves : Resolves accountFiles .serviceAccount "a-game-api-sa" :=
  names_resolve (by decide +kernel) (.head _)
    ⟨by decide, ["spec", "template", "spec"], _,
      .under (.tail _ (.tail _ (.head _))) (.under (.head _) (.entry (.head _))),
      .entry (.head _)⟩ (by decide)

/-- A name in a field of a pod spec that no object of its kind has, and that is not
in the list of Secrets. -/
def Missed (files : List (String × Yaml)) (field : List String) (kind : Kind) (name : String) :
    Prop :=
  (∃ file ∈ documents files, Refers file.2 field kind name) ∧
    (∀ file ∈ documents files, ¬ IsObject file.2 kind name) ∧
    ¬ (kind = .secret ∧ name ∈ externalSecrets)

/-- The pod of the api mounts the claim template of postgres, and names a Secret
wherever the checker does not look. -/
def missedPodSpec : Yaml := .map [
  ("imagePullSecrets", .seq [.map [("name", str "registry-credentials")]]),
  ("volumes", .seq [
    .map [("persistentVolumeClaim", .map [("claimName", str "data")])],
    .map [("projected", .map [("sources", .seq [
      .map [("secret", .map [("name", str "registry-credentials")])]])])],
    .map [("csi", .map [
      ("nodePublishSecretRef", .map [("name", str "registry-credentials")])])]])]

def missedFiles : List (String × Yaml) := [
  ("20-postgres.yaml", manifest "StatefulSet" "a-game-postgres" (.map [
    ("volumeClaimTemplates", .seq [.map [("metadata", .map [("name", str "data")])]])])),
  ("50-api.yaml", manifest "Pod" "a-game-api" missedPodSpec)]

/-- The checker is content with all of them. -/
theorem names_are_missed : main (some missedFiles) = .ok 0 ∧
    Missed missedFiles ["volumes", "persistentVolumeClaim", "claimName"] .persistentVolumeClaim
      "data" ∧
    ∀ field ∈ unreadFields, Missed missedFiles field .secret "registry-credentials" := by
  have hpod : ("50-api.yaml", manifest "Pod" "a-game-api" missedPodSpec) ∈ documents missedFiles :=
    .tail _ (.head _)
  have hspec : Occurs (manifest "Pod" "a-game-api" missedPodSpec) ["spec"] missedPodSpec :=
    .entry (.tail _ (.tail _ (.head _)))
  have hobject : ∀ kind name, ∀ file ∈ documents missedFiles, ¬ IsObject file.2 kind name := by
    rintro kind name file hfile ⟨hkind, -⟩
    have htext : "StatefulSet" ≠ kind.text ∧ "Pod" ≠ kind.text := by
      cases kind <;> decide
    have hfile : file ∈ missedFiles := hfile
    rcases List.mem_pair.mp hfile with rfl | rfl
    · exact htext.1 (Scalar.str.inj (Yaml.scalar.inj (Option.some.inj hkind)))
    · exact htext.2 (Scalar.str.inj (Yaml.scalar.inj (Option.some.inj hkind)))
  refine ⟨by decide +kernel, ?_, ?_⟩
  · refine ⟨⟨_, hpod, by decide, _, _, hspec, ?_⟩, hobject _ _, by decide⟩
    exact .under (.tail _ (.head _)) (.item (.head _) (.under (.head _) (.entry (.head _))))
  · intro field hfield
    refine ⟨?_, hobject _ _, by decide⟩
    rw [unreadFields, List.mem_cons, List.mem_pair] at hfield
    rcases hfield with rfl | rfl | rfl
    · refine ⟨_, hpod, by decide, _, _, hspec, ?_⟩
      exact .under (.head _) (.item (.head _) (.entry (.head _)))
    · refine ⟨_, hpod, by decide, _, _, hspec, ?_⟩
      exact .under (.tail _ (.head _)) (.item (.tail _ (.head _))
        (.under (.head _) (.under (.head _) (.item (.head _) (.under (.head _)
          (.entry (.head _)))))))
    · refine ⟨_, hpod, by decide, _, _, hspec, ?_⟩
      exact .under (.tail _ (.head _)) (.item (.tail _ (.tail _ (.head _)))
        (.under (.head _) (.under (.head _) (.entry (.head _)))))

end AGame.Scripts.CheckK8sRefs
