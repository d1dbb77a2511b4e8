import Appstore.Api.AppDeployment

namespace Appstore.Kube

open Appstore.Api

/-- The `StatusReason` of an API error; `unavailable` is any transient failure
(timeout, network, server error) of a call that had no effect. -/
inductive ApiError
  | notFound
  | alreadyExists
  | conflict
  | invalid (detail : String)
  | forbidden (detail : String)
  | unavailable
  deriving DecidableEq, Repr

def ApiError.toString : ApiError → String
  | .notFound => "not found"
  | .alreadyExists => "already exists"
  | .conflict => "the object has been modified; please apply your changes to the latest version and try again"
  | .invalid d => "invalid: " ++ d
  | .forbidden d => "forbidden: " ++ d
  | .unavailable => "the server is currently unable to handle the request"

def alnum (c : Char) : Bool := ('a' ≤ c && c ≤ 'z') || c.isDigit

def dnsLabel (cs : List Char) : Bool :=
  match cs.head?, cs.getLast? with
  | some a, some b => alnum a && alnum b && cs.all (fun c ↦ alnum c || c = '-')
  | _, _ => false

/-- The CRD's pattern and length limit for `spec.releaseName`. -/
def validReleaseName (s : String) : Bool := s.length ≤ 53 && dnsLabel s.toList

def dnsLabels : List Char → List (List Char)
  | [] => [[]]
  | c :: cs =>
    if c = '.' then [] :: dnsLabels cs
    else match dnsLabels cs with
      | [] => [[c]]
      | l :: ls => (c :: l) :: ls

/-- `IsDNS1123Subdomain`, which a custom resource's name must satisfy. -/
def dnsSubdomain (s : String) : Bool :=
  s.length ≤ 253 && (dnsLabels s.toList).all dnsLabel

def labelValueChar (c : Char) : Bool := c.isAlphanum || c = '-' || c = '_' || c = '.'

def validLabelValue (s : String) : Bool :=
  s.length ≤ 63 && (s.isEmpty ||
    (s.toList.head?.any Char.isAlphanum && s.toList.getLast?.any Char.isAlphanum &&
      s.toList.all labelValueChar))

/-- The name and label checks of `ObjectMeta`, then the CRD's OpenAPI validation
of an `AppDeployment`. -/
def validate (ad : AppDeployment) : Option String :=
  if !dnsSubdomain ad.metadata.name then some "metadata.name: a lowercase RFC 1123 subdomain"
  else if !ad.metadata.labels.all (fun l ↦ validLabelValue l.2) then
    some "metadata.labels: a valid label must be an empty string or consist of alphanumeric characters, '-', '_' or '.'"
  else if ad.spec.appName = "" then some "spec.appName: should be at least 1 chars long"
  else if ad.spec.releaseName ≠ "" && !validReleaseName ad.spec.releaseName then
    some "spec.releaseName: should match '^[a-z0-9]([-a-z0-9]*[a-z0-9])?$'"
  else if !ad.spec.valuesFrom.all (fun ref ↦ ref.kind = "ConfigMap" || ref.kind = "Secret") then
    some "spec.valuesFrom.kind: Unsupported value: supported values: \"ConfigMap\", \"Secret\""
  else none

/-- The API server's store of the objects the operator reads and writes. `revision`
is the store's last resource version, also used for fresh uids and as the
logical time of a deletion. -/
structure Cluster where
  appDeployments : ObjectKey → Option AppDeployment
  configMaps : ObjectKey → Option (List (String × String))
  secrets : ObjectKey → Option (List (String × String))
  namespaces : List String
  revision : Nat
  keyed : ∀ k ad, appDeployments k = some ad → ad.key = k
  storable : ∀ k ad, appDeployments k = some ad → ad.Storable

namespace Cluster

def empty (namespaces : List String) : Cluster :=
  ⟨fun _ ↦ none, fun _ ↦ none, fun _ ↦ none, namespaces, 0, fun _ _ h ↦ Option.noConfusion h,
    fun _ _ h ↦ Option.noConfusion h⟩

def put (c : Cluster) (ad : AppDeployment) (hs : ad.Storable) : Cluster :=
  { c with
    appDeployments := Function.update c.appDeployments ad.key (some ad)
    keyed := fun k x h ↦ by
      by_cases hk : k = ad.key
      · subst hk
        rw [Function.update_same, Option.some.injEq] at h
        exact h ▸ rfl
      · rw [Function.update_noteq hk] at h
        exact c.keyed k x h
    storable := fun k x h ↦ by
      by_cases hk : k = ad.key
      · subst hk
        rw [Function.update_same, Option.some.injEq] at h
        exact h ▸ hs
      · rw [Function.update_noteq hk] at h
        exact c.storable k x h }

def remove (c : Cluster) (k : ObjectKey) : Cluster :=
  { c with
    appDeployments := Function.update c.appDeployments k none
    keyed := fun k' x h ↦ by
      by_cases hk : k' = k
      · subst hk; simp at h
      · rw [Function.update_noteq hk] at h
        exact c.keyed k' x h
    storable := fun k' x h ↦ by
      by_cases hk : k' = k
      · subst hk; simp at h
      · rw [Function.update_noteq hk] at h
        exact c.storable k' x h }

def write (c : Cluster) (ad : AppDeployment) (hs : ad.Storable) : AppDeployment × Cluster :=
  (ad.withRV (c.revision + 1),
    { c.put (ad.withRV (c.revision + 1)) hs with revision := c.revision + 1 })

def get (c : Cluster) (k : ObjectKey) : Except ApiError AppDeployment :=
  match c.appDeployments k with
  | some ad => .ok ad
  | none => .error .notFound

/-- `Create`: admission rejects a missing namespace, then validation, then the
store refuses an existing name. The status stanza is dropped. -/
def create (c : Cluster) (ad : AppDeployment) : Except ApiError (AppDeployment × Cluster) :=
  if ad.metadata.ns ∉ c.namespaces then .error .notFound
  else match validate ad with
    | some d => .error (.invalid d)
    | none =>
      if (c.appDeployments ad.key).isSome then .error .alreadyExists
      else
        let meta := { ad.metadata with generation := 1, uid := c.revision + 1, deletionTimestamp := none }
        .ok (c.write { ad with metadata := meta, status := AppDeploymentStatus.empty } nofun)

/-- The object an `Update` of `cur` to `ad` stores: spec and mutable metadata
from `ad`, status and identity from `cur`, generation bumped on a spec change. -/
def updated (cur ad : AppDeployment) : AppDeployment :=
  { cur with
    metadata := { cur.metadata with
      labels := ad.metadata.labels
      annotations := ad.metadata.annotations
      finalizers := ad.metadata.finalizers
      generation := if ad.spec = cur.spec then cur.metadata.generation
        else cur.metadata.generation + 1 }
    spec := ad.spec }

/-- `Update` of the main resource, with the optimistic-concurrency check on the
resource version. An unchanged object is not written; a terminating object left
without finalizers is removed. -/
def update (c : Cluster) (ad : AppDeployment) : Except ApiError (AppDeployment × Cluster) :=
  match c.appDeployments ad.key with
  | none => .error .notFound
  | some cur =>
    if ad.metadata.resourceVersion ≠ cur.metadata.resourceVersion then .error .conflict
    else if cur.metadata.deletionTimestamp.isSome ∧
        ¬ ad.metadata.finalizers ⊆ cur.metadata.finalizers then
      .error (.forbidden "no new finalizers can be added if the object is being deleted")
    else match validate ad with
      | some d => .error (.invalid d)
      | none =>
        let new := updated cur ad
        if new = cur then .ok (cur, c)
        else if hrm : cur.metadata.deletionTimestamp.isSome ∧ new.metadata.finalizers = [] then
          .ok (new, { c.remove ad.key with revision := c.revision + 1 })
        else .ok (c.write new fun hd hf ↦ hrm ⟨hd, hf⟩)

def updateStatus (c : Cluster) (ad : AppDeployment) : Except ApiError (AppDeployment × Cluster) :=
  match hcur : c.appDeployments ad.key with
  | none => .error .notFound
  | some cur =>
    if ad.metadata.resourceVersion ≠ cur.metadata.resourceVersion then .error .conflict
    else if ad.status = cur.status then .ok (cur, c)
    else .ok (c.write { cur with status := ad.status } (c.storable ad.key cur hcur))

/-- `Delete` without preconditions: an object with finalizers is only marked. -/
def delete (c : Cluster) (k : ObjectKey) : Except ApiError Cluster :=
  match c.appDeployments k with
  | none => .error .notFound
  | some cur =>
    if hf : cur.metadata.finalizers = [] then .ok { c.remove k with revision := c.revision + 1 }
    else if cur.metadata.deletionTimestamp.isSome then .ok c
    else
      let meta := { cur.metadata with
        deletionTimestamp := some (c.revision + 1)
        generation := cur.metadata.generation + 1 }
      .ok (c.write { cur with metadata := meta } fun _ ↦ hf).2

@[simp] theorem put_apply (c : Cluster) (ad : AppDeployment) (hs : ad.Storable) (k : ObjectKey) :
    (c.put ad hs).appDeployments k = if k = ad.key then some ad else c.appDeployments k := by
  simp [put, Function.update_apply]

@[simp] theorem remove_apply (c : Cluster) (k k' : ObjectKey) :
    (c.remove k).appDeployments k' = if k' = k then none else c.appDeployments k' := by
  simp [remove, Function.update_apply]

theorem write_apply (c : Cluster) (ad : AppDeployment) (hs : ad.Storable) (k : ObjectKey) :
    (c.write ad hs).2.appDeployments k = if k = ad.key then some (c.write ad hs).1 else c.appDeployments k :=
  put_apply c (ad.withRV (c.revision + 1)) hs k

@[simp] theorem put_configMaps (c : Cluster) (ad : AppDeployment) (hs : ad.Storable) :
    (c.put ad hs).configMaps = c.configMaps :=
  rfl

@[simp] theorem put_secrets (c : Cluster) (ad : AppDeployment) (hs : ad.Storable) :
    (c.put ad hs).secrets = c.secrets := rfl

@[simp] theorem put_namespaces (c : Cluster) (ad : AppDeployment) (hs : ad.Storable) :
    (c.put ad hs).namespaces = c.namespaces := rfl

theorem create_ok {c c' : Cluster} {ad ad' : AppDeployment} (h : c.create ad = .ok (ad', c')) :
    c.appDeployments ad.key = none ∧ c'.appDeployments ad.key = some ad' ∧ ad'.spec = ad.spec ∧
      c'.namespaces = c.namespaces := by
  unfold create at h
  split_ifs at h with hns hex <;> rcases hv : validate ad with _ | d <;> simp only [hv] at h <;>
    cases h
  exact ⟨Option.not_isSome_iff_eq_none.1 hex, (write_apply c _ _ ad.key).trans (if_pos rfl), rfl, rfl⟩

theorem create_ok_stored {c c' : Cluster} {ad ad' : AppDeployment} (h : c.create ad = .ok (ad', c')) :
    ad'.key = ad.key ∧ ad'.spec = ad.spec ∧ ad'.metadata.labels = ad.metadata.labels ∧
      ad'.metadata.finalizers = ad.metadata.finalizers ∧ ad'.metadata.deletionTimestamp = none := by
  unfold create at h
  split_ifs at h with hns hex <;> rcases hv : validate ad with _ | d <;> simp only [hv] at h <;>
    cases h
  exact ⟨rfl, rfl, rfl, rfl, rfl⟩

theorem create_alreadyExists {c : Cluster} {ad : AppDeployment} (h : c.create ad = .error .alreadyExists) :
    (c.appDeployments ad.key).isSome := by
  unfold create at h
  split_ifs at h with hns hex
  · exact hex
  · rcases hv : validate ad with _ | d <;> simp only [hv] at h <;> cases h
  · cases h

theorem get_ok {c : Cluster} {k : ObjectKey} {x : AppDeployment} (h : c.get k = .ok x) :
    c.appDeployments k = some x := by
  unfold get at h
  split at h <;> cases h
  assumption

theorem update_current {c c' : Cluster} {ad ad' : AppDeployment} (h : c.update ad = .ok (ad', c')) :
    ∃ cur, c.appDeployments ad.key = some cur ∧
      cur.metadata.resourceVersion = ad.metadata.resourceVersion := by
  unfold update at h
  split at h
  · cases h
  rename_i cur hcur
  split_ifs at h with hv
  exact ⟨cur, hcur, (not_not.1 hv).symm⟩

theorem validate_congr {x y : AppDeployment} (hn : y.metadata.name = x.metadata.name)
    (hl : y.metadata.labels = x.metadata.labels) (hs : y.spec = x.spec) : validate y = validate x := by
  simp only [validate, hn, hl, hs]

theorem create_taken {c : Cluster} {ad : AppDeployment} (hns : ad.metadata.ns ∈ c.namespaces)
    (hv : validate ad = none) (hs : (c.appDeployments ad.key).isSome) :
    c.create ad = .error .alreadyExists := by
  simp [create, hns, hv, hs]

theorem create_checks {c : Cluster} {ad : AppDeployment}
    (h : (∃ r, c.create ad = .ok r) ∨ c.create ad = .error .alreadyExists) :
    ad.metadata.ns ∈ c.namespaces ∧ validate ad = none := by
  by_cases hns : ad.metadata.ns ∈ c.namespaces
  · refine ⟨hns, ?_⟩
    rcases hv : validate ad with _ | d
    · rfl
    · simp [create, hns, hv] at h
  · simp [create, hns] at h

theorem updated_self (ad : AppDeployment) : updated ad ad = ad := by
  simp [updated]

theorem update_self {c : Cluster} {ad : AppDeployment} (hc : c.appDeployments ad.key = some ad)
    (hv : validate ad = none) : c.update ad = .ok (ad, c) := by
  simp [update, hc, hv, updated_self]

theorem updated_removeFinalizer (ad : AppDeployment) : updated ad (removeFinalizer ad) = removeFinalizer ad := by
  simp [updated, removeFinalizer]

theorem update_removeFinalizer (c : Cluster) (ad : AppDeployment) (hc : c.appDeployments ad.key = some ad)
    (hdel : ad.metadata.deletionTimestamp.isSome) (hfin : ad.hasFinalizer) (hv : validate ad = none) :
    ∃ ad' c', c.update (removeFinalizer ad) = .ok (ad', c') ∧
      c'.appDeployments = Function.update c.appDeployments ad.key
        (if (removeFinalizer ad).metadata.finalizers = [] then none
          else some ((removeFinalizer ad).withRV (c.revision + 1))) ∧
      c'.configMaps = c.configMaps ∧ c'.secrets = c.secrets := by
  have hne : removeFinalizer ad ≠ ad := fun h ↦ by
    have h' := congrArg AppDeployment.hasFinalizer h
    rw [hasFinalizer_removeFinalizer, hfin] at h'
    cases h'
  have hsub : (removeFinalizer ad).metadata.finalizers ⊆ ad.metadata.finalizers :=
    fun _ hx ↦ List.mem_of_mem_filter hx
  have hrv : (removeFinalizer ad).metadata.resourceVersion = ad.metadata.resourceVersion := rfl
  have hv' : validate (removeFinalizer ad) = none := (validate_congr rfl rfl rfl).trans hv
  unfold update
  simp only [removeFinalizer_key, hc, hrv, ne_eq, not_true_eq_false, if_false, hsub, and_false,
    hv', updated_removeFinalizer, hne, hdel, true_and]
  split_ifs with hrm
  · exact ⟨_, _, rfl, by simp [remove, hrm], rfl, rfl⟩
  · exact ⟨_, _, rfl, by simp [write, put, hrm], rfl, rfl⟩

theorem updated_addFinalizer (ad : AppDeployment) : updated ad (addFinalizer ad) = addFinalizer ad := by
  unfold addFinalizer
  split_ifs <;> simp [updated]

theorem update_addFinalizer (c : Cluster) (ad : AppDeployment) (hc : c.appDeployments ad.key = some ad)
    (hdel : ad.metadata.deletionTimestamp = none) (hfin : ad.hasFinalizer = false) (hv : validate ad = none) :
    ∃ ad' c', c.update (addFinalizer ad) = .ok (ad', c') ∧
      c'.appDeployments = Function.update c.appDeployments ad.key
        (some ((addFinalizer ad).withRV (c.revision + 1))) ∧
      c'.configMaps = c.configMaps ∧ c'.secrets = c.secrets := by
  have hne : addFinalizer ad ≠ ad := fun h ↦ by
    have h' := congrArg AppDeployment.hasFinalizer h
    rw [hasFinalizer_addFinalizer, hfin] at h'
    cases h'
  have hsame : (addFinalizer ad).metadata.resourceVersion = ad.metadata.resourceVersion ∧
      validate (addFinalizer ad) = none := by
    unfold addFinalizer
    split_ifs
    exacts [⟨rfl, hv⟩, ⟨rfl, (validate_congr rfl rfl rfl).trans hv⟩]
  unfold update
  simp only [addFinalizer_key, hc, hsame.1, ne_eq, not_true_eq_false, if_false, hdel, Option.isSome_none,
    Bool.false_eq_true, false_and, hsame.2, updated_addFinalizer, hne]
  exact ⟨_, _, rfl, by simp [write, put], rfl, rfl⟩

theorem update_ok_stored {c c' : Cluster} {ad ad' : AppDeployment} (h : c.update ad = .ok (ad', c')) :
    validate ad = none ∧ ∀ y, c'.appDeployments ad.key = some y →
      y.spec = ad.spec ∧ y.metadata.labels = ad.metadata.labels := by
  unfold update at h
  split at h
  · cases h
  rename_i cur hcur
  split_ifs at h
  rcases hv : validate ad with _ | d <;> simp only [hv] at h
  · refine ⟨rfl, fun y hy ↦ ?_⟩
    split_ifs at h with hnew hrm <;> cases h
    · rw [hcur] at hy
      cases hy
      rw [← hnew]
      exact ⟨rfl, rfl⟩
    · change (c.remove ad.key).appDeployments ad.key = some y at hy
      simp at hy
    · change (c.put ((updated cur ad).withRV (c.revision + 1)) fun hd hf ↦ hrm ⟨hd, hf⟩).appDeployments
        ad.key = some y at hy
      rw [put_apply] at hy
      split_ifs at hy with hk
      · cases hy
        exact ⟨rfl, rfl⟩
      · exact absurd (c.keyed _ cur hcur).symm hk
  · cases h

theorem update_ok_finalizers {c c' : Cluster} {ad ad' : AppDeployment} (h : c.update ad = .ok (ad', c'))
    (y : AppDeployment) (hy : c'.appDeployments ad.key = some y) : y.metadata.finalizers = ad.metadata.finalizers := by
  unfold update at h
  split at h
  · cases h
  rename_i cur hcur
  split_ifs at h
  split at h
  · cases h
  dsimp only at h
  split_ifs at h with hnew hrm <;> cases h
  · rw [hcur] at hy
    cases hy
    rw [← hnew]
    rfl
  · change (c.remove ad.key).appDeployments ad.key = some y at hy
    simp at hy
  · change (c.put ((updated cur ad).withRV (c.revision + 1)) fun hd hf ↦ hrm ⟨hd, hf⟩).appDeployments
      ad.key = some y at hy
    rw [put_apply, if_pos (show ad.key = ((updated cur ad).withRV (c.revision + 1)).key from
      (c.keyed _ cur hcur).symm)] at hy
    cases hy
    rfl

theorem updateStatus_ok_key {c c' : Cluster} {ad ad' : AppDeployment} (h : c.updateStatus ad = .ok (ad', c')) :
    ad'.key = ad.key := by
  unfold updateStatus at h
  split at h
  · cases h
  rename_i cur hcur
  have hk := c.keyed _ cur hcur
  split_ifs at h <;> cases h <;> exact hk

theorem delete_terminating {c : Cluster} {k : ObjectKey} {x : AppDeployment}
    (hx : c.appDeployments k = some x) (hdt : x.metadata.deletionTimestamp.isSome) : c.delete k = .ok c := by
  simp [delete, hx, c.storable k x hx hdt, hdt]

theorem delete_finalized {c : Cluster} {k : ObjectKey} {x : AppDeployment} (hx : c.appDeployments k = some x)
    (hf : x.metadata.finalizers ≠ []) :
    ∃ c' y, c.delete k = .ok c' ∧ c'.appDeployments k = some y ∧ y.metadata.deletionTimestamp.isSome ∧
      y.key = x.key ∧ y.spec = x.spec ∧ y.metadata.labels = x.metadata.labels ∧
      y.metadata.finalizers = x.metadata.finalizers := by
  by_cases hdt : x.metadata.deletionTimestamp.isSome
  · exact ⟨c, x, delete_terminating hx hdt, hx, hdt, rfl, rfl, rfl, rfl⟩
  · have hdel : c.delete k = .ok (c.write { x with metadata := { x.metadata with
        deletionTimestamp := some (c.revision + 1), generation := x.metadata.generation + 1 } }
        fun _ ↦ hf).2 := by
      simp [delete, hx, hf, hdt]
    exact ⟨_, _, hdel, (write_apply c _ _ k).trans (if_pos (c.keyed k x hx).symm), rfl, rfl, rfl, rfl, rfl⟩

theorem delete_ok_terminating {c c' : Cluster} {k : ObjectKey} (h : c.delete k = .ok c') (y : AppDeployment)
    (hy : c'.appDeployments k = some y) :
    y.metadata.deletionTimestamp.isSome ∧ ∀ x, c.appDeployments k = some x → y.spec = x.spec := by
  unfold delete at h
  split at h
  · cases h
  rename_i cur hcur
  split_ifs at h with hf hdt <;> cases h
  · change (c.remove k).appDeployments k = some y at hy
    simp at hy
  · rw [hcur] at hy
    cases hy
    exact ⟨hdt, fun x hx ↦ by rw [hcur] at hx; cases hx; rfl⟩
  · rw [write_apply] at hy
    split_ifs at hy with hk
    · cases hy
      exact ⟨rfl, fun x hx ↦ by rw [hcur] at hx; cases hx; rfl⟩
    · exact absurd (c.keyed k cur hcur).symm hk

theorem updateStatus_current (c : Cluster) (ad : AppDeployment) (s : AppDeploymentStatus)
    (h : c.appDeployments ad.key = some { ad with status := s }) :
    ∃ rv c', c.updateStatus ad = .ok (ad.withRV rv, c') ∧
      c'.appDeployments = Function.update c.appDeployments ad.key (some (ad.withRV rv)) ∧
      c'.configMaps = c.configMaps ∧ c'.secrets = c.secrets := by
  unfold updateStatus
  split
  · rename_i hn; rw [h] at hn; cases hn
  rename_i cur hcur
  rw [h] at hcur
  cases hcur
  simp only [ne_eq, not_true_eq_false, if_false]
  split_ifs with hs
  · refine ⟨ad.metadata.resourceVersion, c, ?_, ?_, rfl, rfl⟩
    · rw [← hs]; rfl
    · rw [withRV_self, eq_comm, Function.update_eq_self_iff, h, ← hs]
  · exact ⟨c.revision + 1, _, rfl, by rfl, rfl, rfl⟩

/-- What the controller's writes leave of an object: its spec, labels and deletion
timestamp. Status, finalizers and resource version may change. -/
structure RecordKept (x x' : AppDeployment) : Prop where
  spec : x'.spec = x.spec
  labels : x'.metadata.labels = x.metadata.labels
  deletionTimestamp : x'.metadata.deletionTimestamp = x.metadata.deletionTimestamp

theorem RecordKept.refl (x : AppDeployment) : RecordKept x x := ⟨rfl, rfl, rfl⟩

theorem RecordKept.trans {x₁ x₂ x₃ : AppDeployment} (h₁ : RecordKept x₁ x₂) (h₂ : RecordKept x₂ x₃) :
    RecordKept x₁ x₃ :=
  ⟨h₂.spec.trans h₁.spec, h₂.labels.trans h₁.labels, h₂.deletionTimestamp.trans h₁.deletionTimestamp⟩

/-- Every object of `c'` was in `c` under the same key and is kept, and the
namespaces are the same: what status and finalizer writes and removals leave of
the store. -/
structure Kept (c c' : Cluster) : Prop where
  namespaces : c'.namespaces = c.namespaces
  records : ∀ k x', c'.appDeployments k = some x' → ∃ x, c.appDeployments k = some x ∧ RecordKept x x'

theorem Kept.refl (c : Cluster) : Kept c c := ⟨rfl, fun _ x h ↦ ⟨x, h, .refl x⟩⟩

theorem Kept.trans {c₁ c₂ c₃ : Cluster} (h₁ : Kept c₁ c₂) (h₂ : Kept c₂ c₃) : Kept c₁ c₃ where
  namespaces := h₂.namespaces.trans h₁.namespaces
  records k x₃ h := by
    obtain ⟨x₂, h₂, e₂⟩ := h₂.records k x₃ h
    obtain ⟨x₁, h₁, e₁⟩ := h₁.records k x₂ h₂
    exact ⟨x₁, h₁, e₁.trans e₂⟩

theorem Kept.put {c : Cluster} {x cur : AppDeployment} (hx : x.Storable)
    (hcur : c.appDeployments x.key = some cur) (hk : RecordKept cur x) : Kept c (c.put x hx) where
  namespaces := rfl
  records k x' h := by
    rw [put_apply] at h
    split_ifs at h with hkey
    · cases h; exact ⟨cur, hkey ▸ hcur, hk⟩
    · exact ⟨x', h, .refl x'⟩

theorem Kept.write {c : Cluster} {x cur : AppDeployment} (hx : x.Storable)
    (hcur : c.appDeployments x.key = some cur) (hk : RecordKept cur x) : Kept c (c.write x hx).2 :=
  let h := @Kept.put c (x.withRV (c.revision + 1)) cur hx hcur ⟨hk.spec, hk.labels, hk.deletionTimestamp⟩
  ⟨h.namespaces, h.records⟩

theorem Kept.remove (c : Cluster) (k : ObjectKey) (r : Nat) : Kept c { c.remove k with revision := r } where
  namespaces := rfl
  records k' x' h := by
    change (c.remove k).appDeployments k' = some x' at h
    rw [remove_apply] at h
    split_ifs at h
    exact ⟨x', h, .refl x'⟩

theorem Kept.releaseKey {c c' : Cluster} (h : Kept c c') {k : ObjectKey} {x' : AppDeployment}
    (hx : c'.appDeployments k = some x') :
    ∃ x, c.appDeployments k = some x ∧ x'.releaseKey = x.releaseKey := by
  obtain ⟨x, hx₀, hs⟩ := h.records k x' hx
  have hk := (c'.keyed k x' hx).trans (c.keyed k x hx₀).symm
  simp only [AppDeployment.key, ObjectKey.mk.injEq] at hk
  exact ⟨x, hx₀, by simp only [AppDeployment.releaseKey, AppDeployment.releaseName, hs.spec, hk]⟩

theorem Kept.spec_eq {c c' : Cluster} (h : Kept c c') {k : ObjectKey} {x x' : AppDeployment}
    (hx : c.appDeployments k = some x) (hx' : c'.appDeployments k = some x') : x'.spec = x.spec := by
  obtain ⟨x₀, hx₀, hs⟩ := h.records k x' hx'
  rw [hs.spec, Option.some.inj (hx₀.symm.trans hx)]

theorem lookup_own_key {c : Cluster} {k : ObjectKey} {cur : AppDeployment}
    (h : c.appDeployments k = some cur) : c.appDeployments cur.key = some cur := by
  rw [c.keyed k cur h]; exact h

theorem updateStatus_kept {c c' : Cluster} {ad ad' : AppDeployment}
    (h : c.updateStatus ad = .ok (ad', c')) : Kept c c' := by
  unfold updateStatus at h
  split at h
  · cases h
  rename_i cur hcur
  split_ifs at h <;> cases h
  · exact .refl c
  · exact @Kept.write c _ cur _ (lookup_own_key hcur) ⟨rfl, rfl, rfl⟩

theorem update_kept {c c' : Cluster} {ad ad' : AppDeployment}
    (hspec : ∀ cur, c.appDeployments ad.key = some cur →
      cur.spec = ad.spec ∧ cur.metadata.labels = ad.metadata.labels)
    (h : c.update ad = .ok (ad', c')) : Kept c c' := by
  unfold update at h
  split at h
  · cases h
  rename_i cur hcur
  have hs := hspec cur hcur
  split_ifs at h
  split at h
  · cases h
  dsimp only at h
  split_ifs at h <;> cases h
  · exact .refl c
  · exact Kept.remove c ad.key _
  · exact @Kept.write c _ cur _ (lookup_own_key hcur) ⟨hs.1.symm, hs.2.symm, rfl⟩

end Cluster

end Appstore.Kube
