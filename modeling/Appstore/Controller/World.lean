import Appstore.Controller.Values
import Appstore.Helm.Client

namespace Appstore.Controller

open Appstore.Api Appstore.Json Appstore.Kube Appstore.Helm

inductive HelmOp
  | install | upgrade | uninstall
  deriving DecidableEq, Repr

/-- One mutating Helm call issued by a pass: on behalf of which record, on which
release, and which record's `Install` had created the release found there. -/
structure HelmCall where
  actor : ObjectKey
  op : HelmOp
  release : ObjectKey
  owner : Option ObjectKey
  ok : Bool
  deriving DecidableEq, Repr

/-- Everything a reconcile pass reads and writes: the API server, Helm's releases
and charts directory. `installedBy` and `log` are ghost state: which record's
`Install` created each release, and every mutating Helm call issued so far. -/
structure World (N : Type) where
  cluster : Cluster
  helm : HelmState N
  installedBy : ObjectKey → Option ObjectKey
  log : List HelmCall

/-- The chart catalog `reconcileHelm` validates against (the chart syncer). -/
structure ChartValidator where
  chartExists : String → Bool
  listCharts : Except String (List String)

/-- The reconciler's collaborators. `digest` stands for the SHA-256 prefix of
`hashValues`; `nf` for `strconv`'s float formatting. -/
structure Reconciler (N : Type) where
  nf : NumberFormat N
  digest : List Char → String
  helm : Client
  chartValidator : Option ChartValidator

/-- Which calls of a pass fail transiently. -/
structure Faults where
  get : Bool
  update : Bool
  statusPhase : Bool
  statusResult : Bool
  valuesFrom : Nat → Bool
  getRelease : Bool
  helm : HelmFaults

def Faults.none : Faults := ⟨false, false, false, false, fun _ ↦ false, false, HelmFaults.none⟩

/-- A pass's clock and its faults. -/
structure Ctx where
  now : Nat
  faults : Faults

/-- `ctrl.Result`; `requeueAfter` in seconds, `0` for none. -/
structure Result where
  requeue : Bool
  requeueAfter : Nat
  deriving DecidableEq, Repr

def requeueAfterSuccess : Nat := 300

def requeueAfterFailure : Nat := 30

abbrev Outcome := Result × Option String

def done : Outcome := (⟨false, 0⟩, none)

def failedWith (e : String) : Outcome := (⟨false, 0⟩, some e)

/-- controller-runtime's RecoverPanic: a panic in Reconcile ends the pass as this error. -/
def recoveredPanic (p : String) : String := "panic: " ++ p ++ " [recovered]"

variable {N : Type}

namespace World

def setCluster (w : World N) (c : Cluster) : World N := { w with cluster := c }

/-- `r.Update`: the object takes what the server stored on success. -/
def update (w : World N) (fault : Bool) (ad : AppDeployment) :
    Option ApiError × AppDeployment × World N :=
  if fault then (some .unavailable, ad, w)
  else match w.cluster.update ad with
    | .error e => (some e, ad, w)
    | .ok (ad', c) => (none, ad', w.setCluster c)

def updateStatus (w : World N) (fault : Bool) (ad : AppDeployment) :
    Option ApiError × AppDeployment × World N :=
  if fault then (some .unavailable, ad, w)
  else match w.cluster.updateStatus ad with
    | .error e => (some e, ad, w)
    | .ok (ad', c) => (none, ad', w.setCluster c)

def record (w : World N) (actor : ObjectKey) (op : HelmOp) (rk : ObjectKey) (ok : Bool) : World N :=
  { w with log := w.log ++ [⟨actor, op, rk, w.installedBy rk, ok⟩] }

/-- Takes the Helm state after a call, crediting `actor` with a release the call
created at `rk`. -/
def afterHelm (w : World N) (actor rk : ObjectKey) (hs : HelmState N) : World N :=
  { w with
    helm := hs
    installedBy :=
      if (w.helm.releases rk).isNone ∧ (hs.releases rk).isSome then
        Function.update w.installedBy rk (some actor)
      else w.installedBy }

end World

def Except.isOk {ε α : Type} : Except ε α → Bool
  | .ok _ => true
  | .error _ => false

variable (r : Reconciler N)

def helmInstall (f : HelmFaults) (w : World N) (actor : ObjectKey) (rn chartName ns : String)
    (values : Fields N) : CallResult ReleaseInfo × World N :=
  let rk : ObjectKey := ⟨ns, rn⟩
  let (res, hs) := r.helm.install w.helm rn chartName ns values f
  (res, ((w.record actor .install rk res.isOk).afterHelm actor rk hs))

def helmUpgrade (f : HelmFaults) (w : World N) (actor : ObjectKey) (rn chartName ns : String)
    (values : Fields N) : CallResult ReleaseInfo × World N :=
  let rk : ObjectKey := ⟨ns, rn⟩
  let (res, hs) := r.helm.upgrade w.helm rn chartName ns values f
  (res, ((w.record actor .upgrade rk res.isOk).afterHelm actor rk hs))

def helmUninstall (fault : Bool) (w : World N) (actor : ObjectKey) (rn ns : String) :
    Except String Unit × World N :=
  let rk : ObjectKey := ⟨ns, rn⟩
  let (res, hs) := Client.uninstall w.helm rn ns fault
  (res, ((w.record actor .uninstall rk res.isOk).afterHelm actor rk hs))

end Appstore.Controller
