import Mathlib.Data.String.Basic

namespace Appstore.Api

inductive AppDeploymentPhase
  | pending | installing | upgrading | deployed | failed | uninstalling
  deriving DecidableEq, Repr

def AppDeploymentPhase.toString : AppDeploymentPhase → String
  | .pending => "Pending"
  | .installing => "Installing"
  | .upgrading => "Upgrading"
  | .deployed => "Deployed"
  | .failed => "Failed"
  | .uninstalling => "Uninstalling"

/-- A ConfigMap or Secret key holding Helm values. -/
structure ValuesReference where
  kind : String
  name : String
  valuesKey : String
  optional : Bool
  deriving DecidableEq, Repr

/-- `spec.values` is kept as the raw JSON text of `apiextensionsv1.JSON`. -/
structure AppDeploymentSpec where
  appName : String
  chartVersion : String
  teamId : String
  requestedBy : String
  releaseName : String
  values : Option (List Char)
  valuesFrom : List ValuesReference
  suspend : Bool
  deriving DecidableEq, Repr

/-- A `metav1.Condition`; the code never sets its `ObservedGeneration`. -/
structure Condition where
  type : String
  status : Bool
  lastTransitionTime : Nat
  reason : String
  message : String
  deriving DecidableEq, Repr

structure AppDeploymentStatus where
  phase : Option AppDeploymentPhase
  helmReleaseName : String
  helmReleaseRevision : Nat
  deployedChartVersion : String
  lastAppliedValuesHash : String
  conditions : List Condition
  lastReconcileTime : Option Nat
  observedGeneration : Nat
  failureCount : Nat
  message : String
  deriving DecidableEq, Repr

def AppDeploymentStatus.empty : AppDeploymentStatus :=
  ⟨none, "", 0, "", "", [], none, 0, 0, ""⟩

/-- The `metav1.ObjectMeta` fields the operator and the API server use. -/
structure ObjectMeta where
  name : String
  ns : String
  labels : List (String × String)
  annotations : List (String × String)
  finalizers : List String
  deletionTimestamp : Option Nat
  generation : Nat
  resourceVersion : Nat
  uid : Nat
  deriving DecidableEq, Repr

structure AppDeployment where
  metadata : ObjectMeta
  spec : AppDeploymentSpec
  status : AppDeploymentStatus
  deriving DecidableEq, Repr

/-- Identity of a namespaced object, also of a Helm release. -/
structure ObjectKey where
  ns : String
  name : String
  deriving DecidableEq, Repr

def AppDeployment.key (ad : AppDeployment) : ObjectKey := ⟨ad.metadata.ns, ad.metadata.name⟩

def finalizerName : String := "appstore.bitpipe.no/finalizer"

def AppDeployment.hasFinalizer (ad : AppDeployment) : Bool := ad.metadata.finalizers.contains finalizerName

def addFinalizer (ad : AppDeployment) : AppDeployment :=
  if ad.hasFinalizer then ad
  else { ad with metadata := { ad.metadata with finalizers := ad.metadata.finalizers ++ [finalizerName] } }

def removeFinalizer (ad : AppDeployment) : AppDeployment :=
  { ad with metadata := { ad.metadata with
      finalizers := ad.metadata.finalizers.filter (· != finalizerName) } }

/-- The release name both `reconcileHelm` and `reconcileDelete` compute:
`spec.releaseName`, else the record's own name. -/
def AppDeployment.releaseName (ad : AppDeployment) : String :=
  if ad.spec.releaseName = "" then ad.metadata.name else ad.spec.releaseName

def AppDeployment.releaseKey (ad : AppDeployment) : ObjectKey :=
  ⟨ad.metadata.ns, ad.releaseName⟩

theorem AppDeployment.finalizers_ne_nil {ad : AppDeployment} (h : ad.hasFinalizer) :
    ad.metadata.finalizers ≠ [] := by
  intro he
  simp [AppDeployment.hasFinalizer, he] at h

theorem AppDeployment.releaseKey_eq_of {x y : AppDeployment} (hk : y.key = x.key) (hs : y.spec = x.spec) :
    y.releaseKey = x.releaseKey := by
  simp only [AppDeployment.key, ObjectKey.mk.injEq] at hk
  simp only [AppDeployment.releaseKey, AppDeployment.releaseName, hk, hs]

/-- What the store can hold: a terminating object keeps a finalizer, since the
removal of the last one deletes it. -/
def AppDeployment.Storable (ad : AppDeployment) : Prop :=
  ad.metadata.deletionTimestamp.isSome = true → ad.metadata.finalizers ≠ []

instance (ad : AppDeployment) : Decidable ad.Storable := inferInstanceAs (Decidable (_ → _))

def AppDeployment.withRV (ad : AppDeployment) (rv : Nat) : AppDeployment :=
  { ad with metadata := { ad.metadata with resourceVersion := rv } }

@[simp] theorem withRV_spec (ad : AppDeployment) (rv : Nat) : (ad.withRV rv).spec = ad.spec := rfl

@[simp] theorem withRV_status (ad : AppDeployment) (rv : Nat) : (ad.withRV rv).status = ad.status := rfl

@[simp] theorem withRV_key (ad : AppDeployment) (rv : Nat) : (ad.withRV rv).key = ad.key := rfl

@[simp] theorem withRV_releaseKey (ad : AppDeployment) (rv : Nat) :
    (ad.withRV rv).releaseKey = ad.releaseKey := rfl

@[simp] theorem withRV_hasFinalizer (ad : AppDeployment) (rv : Nat) :
    (ad.withRV rv).hasFinalizer = ad.hasFinalizer := rfl

@[simp] theorem withRV_deletionTimestamp (ad : AppDeployment) (rv : Nat) :
    (ad.withRV rv).metadata.deletionTimestamp = ad.metadata.deletionTimestamp := rfl

@[simp] theorem withRV_self (ad : AppDeployment) : ad.withRV ad.metadata.resourceVersion = ad := rfl

@[simp] theorem hasFinalizer_addFinalizer (ad : AppDeployment) : (addFinalizer ad).hasFinalizer := by
  unfold addFinalizer
  split
  · assumption
  · simp [AppDeployment.hasFinalizer]

@[simp] theorem hasFinalizer_removeFinalizer (ad : AppDeployment) :
    (removeFinalizer ad).hasFinalizer = false := by
  simp [removeFinalizer, AppDeployment.hasFinalizer]

@[simp] theorem addFinalizer_spec (ad : AppDeployment) : (addFinalizer ad).spec = ad.spec := by
  unfold addFinalizer; split <;> rfl

@[simp] theorem addFinalizer_status (ad : AppDeployment) : (addFinalizer ad).status = ad.status := by
  unfold addFinalizer; split <;> rfl

@[simp] theorem addFinalizer_key (ad : AppDeployment) : (addFinalizer ad).key = ad.key := by
  unfold addFinalizer; split <;> rfl

@[simp] theorem addFinalizer_labels (ad : AppDeployment) :
    (addFinalizer ad).metadata.labels = ad.metadata.labels := by
  unfold addFinalizer; split <;> rfl

@[simp] theorem addFinalizer_releaseKey (ad : AppDeployment) : (addFinalizer ad).releaseKey = ad.releaseKey := by
  unfold addFinalizer; split <;> rfl

@[simp] theorem addFinalizer_deletionTimestamp (ad : AppDeployment) :
    (addFinalizer ad).metadata.deletionTimestamp = ad.metadata.deletionTimestamp := by
  unfold addFinalizer; split <;> rfl

@[simp] theorem removeFinalizer_key (ad : AppDeployment) : (removeFinalizer ad).key = ad.key := rfl

@[simp] theorem removeFinalizer_spec (ad : AppDeployment) : (removeFinalizer ad).spec = ad.spec := rfl

@[simp] theorem removeFinalizer_status (ad : AppDeployment) :
    (removeFinalizer ad).status = ad.status := rfl

end Appstore.Api
