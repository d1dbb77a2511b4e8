import Appstore.Controller.World

namespace Appstore.Controller

open Appstore.Api Appstore.Json Appstore.Kube Appstore.Helm

def conditionTypeReady : String := "Ready"

def conditionTypeReconciling : String := "Reconciling"

/-- `meta.SetStatusCondition`: the first condition of the same type is updated,
its transition time moving only when its status changes; otherwise appended. -/
def setStatusCondition (c : Condition) : List Condition → List Condition
  | [] => [c]
  | x :: xs =>
    if x.type = c.type then
      { x with
        status := c.status
        lastTransitionTime := if x.status = c.status then x.lastTransitionTime else c.lastTransitionTime
        reason := c.reason
        message := c.message } :: xs
    else x :: setStatusCondition c xs

theorem setStatusCondition_again (c c' : Condition) (cs : List Condition) (ht : c'.type = c.type)
    (hs : c'.status = c.status) (hr : c'.reason = c.reason) (hm : c'.message = c.message) :
    setStatusCondition c' (setStatusCondition c cs) = setStatusCondition c cs := by
  induction cs with
  | nil => simp [setStatusCondition, ht, hs, hr, hm]
  | cons x xs ih =>
    by_cases hx : x.type = c.type
    · simp [setStatusCondition, hx, ht, hs, hr, hm]
    · simp [setStatusCondition, hx, ht, ih]

theorem setStatusCondition_other (c d : Condition) (cs : List Condition)
    (hc : setStatusCondition c cs = cs) (hcd : c.type ≠ d.type) :
    setStatusCondition c (setStatusCondition d cs) = setStatusCondition d cs := by
  induction cs with
  | nil => simp [setStatusCondition] at hc
  | cons x xs ih =>
    by_cases hxd : x.type = d.type
    · have hxc : x.type ≠ c.type := hxd ▸ Ne.symm hcd
      simp only [setStatusCondition, hxc, if_false, List.cons.injEq, true_and] at hc
      simp [setStatusCondition, hxd, hxc, hc, Ne.symm hcd]
    · have hd : setStatusCondition d (x :: xs) = x :: setStatusCondition d xs := by
        simp [setStatusCondition, hxd]
      rw [hd]
      by_cases hxc : x.type = c.type
      · rw [setStatusCondition, if_pos hxc] at hc ⊢
        rw [(List.cons.inj hc).1]
      · simp only [setStatusCondition, hxc, if_false, List.cons.injEq, true_and] at hc ⊢
        exact ih hc

variable {N : Type} (r : Reconciler N)

def phaseStatus (now : Nat) (ad : AppDeployment) (phase : AppDeploymentPhase) (message : String) :
    AppDeploymentStatus :=
  { ad.status with
    phase := some phase
    message := message
    lastReconcileTime := some now
    observedGeneration := ad.metadata.generation
    conditions := setStatusCondition ⟨conditionTypeReconciling, true, now, phase.toString, message⟩
      ad.status.conditions }

def updateStatusPhase (ctx : Ctx) (w : World N) (ad : AppDeployment) (phase : AppDeploymentPhase)
    (message : String) : Option ApiError × AppDeployment × World N :=
  w.updateStatus ctx.faults.statusPhase { ad with status := phaseStatus ctx.now ad phase message }

def writeStatus (fault : Bool) (w : World N) (ad : AppDeployment) (after : Nat) : Outcome × World N :=
  match w.updateStatus fault ad with
  | (some e, _, w) => (failedWith e.toString, w)
  | (none, _, w) => ((⟨false, after⟩, none), w)

def deployedStatus (now : Nat) (ad : AppDeployment) (info : ReleaseInfo) (valuesHash : String) :
    AppDeploymentStatus :=
  { ad.status with
    phase := some .deployed
    message := "Helm release deployed successfully"
    helmReleaseName := info.name
    helmReleaseRevision := info.revision
    deployedChartVersion := info.chartVersion
    lastAppliedValuesHash := valuesHash
    lastReconcileTime := some now
    observedGeneration := ad.metadata.generation
    failureCount := 0
    conditions :=
      setStatusCondition ⟨conditionTypeReconciling, false, now, "Deployed", "Reconciliation complete"⟩
        (setStatusCondition
          ⟨conditionTypeReady, true, now, "Deployed", "Helm release is deployed and ready"⟩
          ad.status.conditions) }

theorem deployedStatus_again (now now' : Nat) (x ad : AppDeployment) (info : ReleaseInfo) (h : String)
    (hx : x.status = deployedStatus now ad info h) (hg : x.metadata.generation = ad.metadata.generation) :
    deployedStatus now' x info h = { x.status with lastReconcileTime := some now' } := by
  have hready := setStatusCondition_again
    ⟨conditionTypeReady, true, now, "Deployed", "Helm release is deployed and ready"⟩
    ⟨conditionTypeReady, true, now', "Deployed", "Helm release is deployed and ready"⟩
    ad.status.conditions rfl rfl rfl rfl
  have hready' := setStatusCondition_other _
    ⟨conditionTypeReconciling, false, now, "Deployed", "Reconciliation complete"⟩ _ hready
    (show conditionTypeReady ≠ conditionTypeReconciling by decide)
  have hrec := setStatusCondition_again
    ⟨conditionTypeReconciling, false, now, "Deployed", "Reconciliation complete"⟩
    ⟨conditionTypeReconciling, false, now', "Deployed", "Reconciliation complete"⟩
    (setStatusCondition ⟨conditionTypeReady, true, now, "Deployed", "Helm release is deployed and ready"⟩
      ad.status.conditions) rfl rfl rfl rfl
  unfold deployedStatus at hx ⊢
  rw [hx, hg, hready', hrec]

def updateStatusDeployed (ctx : Ctx) (w : World N) (ad : AppDeployment) (info : ReleaseInfo)
    (valuesHash : String) : Outcome × World N :=
  writeStatus ctx.faults.statusResult w { ad with status := deployedStatus ctx.now ad info valuesHash }
    requeueAfterSuccess

def failedStatus (now : Nat) (ad : AppDeployment) (message : String) : AppDeploymentStatus :=
  { ad.status with
    phase := some .failed
    message := message
    lastReconcileTime := some now
    observedGeneration := ad.metadata.generation
    failureCount := ad.status.failureCount + 1
    conditions := setStatusCondition ⟨conditionTypeReady, false, now, "Failed", message⟩
      ad.status.conditions }

def updateStatusFailed (ctx : Ctx) (w : World N) (ad : AppDeployment) (message : String) :
    Outcome × World N :=
  writeStatus ctx.faults.statusResult w { ad with status := failedStatus ctx.now ad message }
    requeueAfterFailure

/-- `needsUpgrade`: the values hash changed, or a pinned version differs from the
release's chart version. -/
def needsUpgrade (ad : AppDeployment) (release : ReleaseInfo) (valuesHash : String) : Bool :=
  ad.status.lastAppliedValuesHash ≠ valuesHash ||
    (ad.spec.chartVersion ≠ "" && ad.spec.chartVersion ≠ release.chartVersion)

theorem needsUpgrade_iff (digest : List Char → String) {a b : Fields N} (ha : (Value.object a).IsAny)
    (hb : (Value.object b).IsAny)
    (hcoll : digest (marshal r.nf (.object a)) = digest (marshal r.nf (.object b)) →
      marshal r.nf (.object a) = marshal r.nf (.object b))
    (ad : AppDeployment) (release : ReleaseInfo) (hlast : ad.status.lastAppliedValuesHash = hashValues r.nf digest a) :
    needsUpgrade ad release (hashValues r.nf digest b) = true ↔
      a ≠ b ∨ (ad.spec.chartVersion ≠ "" ∧ ad.spec.chartVersion ≠ release.chartVersion) := by
  simp only [needsUpgrade, hlast, hashValues_eq_iff r.nf digest ha hb hcoll, Bool.or_eq_true, decide_eq_true_eq,
    Bool.and_eq_true, ne_eq]

/-- The text `hashValues` hashes is canonical: what `getValues` returns is a Go
map of Go values, sorted at every depth; a sorted map is determined by what it
holds, whatever the order its keys were set in; and two such maps are written the
same exactly when they are equal. So, short of a collision of the digest,
`needsUpgrade` sees a change of hash exactly when the merged values changed. -/
theorem values_hash_canonical (digest : List Char → String) :
    (∀ (c c' : Cluster) (faults faults' : Nat → Bool) (ad ad' : AppDeployment) (a b : Fields N),
      getValues r.nf c faults ad = .ok a → getValues r.nf c' faults' ad' = .ok b →
      (marshal r.nf (.object a) = marshal r.nf (.object b) ↔ a = b)) ∧
    (∀ (c : Cluster) (faults : Nat → Bool) (ad : AppDeployment) (a : Fields N),
      getValues r.nf c faults ad = .ok a → (Value.object a).IsAny) ∧
    (∀ a b : Fields N, Sorted a → Sorted b → (∀ k, a.find? k = b.find? k) → a = b) ∧
    (∀ (c c' : Cluster) (faults faults' : Nat → Bool) (ad ad' : AppDeployment) (a b : Fields N)
      (release : ReleaseInfo), getValues r.nf c faults ad = .ok a → getValues r.nf c' faults' ad' = .ok b →
      ad'.status.lastAppliedValuesHash = hashValues r.nf digest a →
      (digest (marshal r.nf (.object a)) = digest (marshal r.nf (.object b)) →
        marshal r.nf (.object a) = marshal r.nf (.object b)) →
      (needsUpgrade ad' release (hashValues r.nf digest b) = true ↔
        a ≠ b ∨ (ad'.spec.chartVersion ≠ "" ∧ ad'.spec.chartVersion ≠ release.chartVersion))) :=
  ⟨fun _ _ _ _ _ _ _ _ ha hb ↦ (marshal_inj r.nf (getValues_isAny r.nf ha) (getValues_isAny r.nf hb)).trans
      ⟨Value.object.inj, congrArg _⟩, fun _ _ _ _ ↦ getValues_isAny r.nf, fun _ _ ↦ Sorted.ext,
    fun _ _ _ _ _ ad' _ _ release ha hb hlast hcoll ↦
      needsUpgrade_iff r digest (getValues_isAny r.nf ha) (getValues_isAny r.nf hb) hcoll ad' release hlast⟩

def formatList (xs : List String) : String := "[" ++ " ".intercalate xs ++ "]"

def chartNotFoundMessage (appName : String) (available : List String) : String :=
  "Chart '" ++ appName ++ "' not found in catalog. Available charts: " ++ formatList available

def chartRejected (ad : AppDeployment) : Option String :=
  match r.chartValidator with
  | some v =>
    if v.chartExists ad.spec.appName then none
    else some (chartNotFoundMessage ad.spec.appName
      (match v.listCharts with
        | .ok cs => cs
        | .error _ => []))
  | none => none

/-- After `updateStatusPhase`: run `Install` or `Upgrade` and record the result. -/
def applyRelease (ctx : Ctx) (w : World N) (ad : AppDeployment) (upgrade : Bool)
    (values : Fields N) (valuesHash : String) : Outcome × World N :=
  let call := if upgrade then helmUpgrade r else helmInstall r
  match call ctx.faults.helm w ad.key ad.releaseName ad.spec.appName ad.metadata.ns values with
  | (.error e, w) =>
    updateStatusFailed ctx w ad ((if upgrade then "Failed to upgrade: " else "Failed to install: ") ++ e)
  | (.panic p, w) => (failedWith (recoveredPanic p), w)
  | (.ok info, w) => updateStatusDeployed ctx w ad info valuesHash

def installOrUpgrade (ctx : Ctx) (w : World N) (ad : AppDeployment) (upgrade : Bool)
    (values : Fields N) (valuesHash : String) : Outcome × World N :=
  let phase := if upgrade then AppDeploymentPhase.upgrading else .installing
  let message := if upgrade then "Upgrading Helm chart" else "Installing Helm chart"
  match updateStatusPhase ctx w ad phase message with
  | (some e, _, w) => (failedWith e.toString, w)
  | (none, ad, w) => applyRelease r ctx w ad upgrade values valuesHash

def reconcileHelm (ctx : Ctx) (w : World N) (ad : AppDeployment) : Outcome × World N :=
  match chartRejected r ad with
  | some msg => updateStatusFailed ctx w ad msg
  | none =>
    match getValues r.nf w.cluster ctx.faults.valuesFrom ad with
    | .error e => updateStatusFailed ctx w ad ("Failed to get values: " ++ e)
    | .ok values =>
      let valuesHash := hashValues r.nf r.digest values
      match Client.getRelease w.helm ad.releaseName ad.metadata.ns ctx.faults.getRelease with
      | .error e => updateStatusFailed ctx w ad ("Failed to check existing release: " ++ e)
      | .ok none => installOrUpgrade r ctx w ad false values valuesHash
      | .ok (some existing) =>
        if needsUpgrade ad existing valuesHash then installOrUpgrade r ctx w ad true values valuesHash
        else updateStatusDeployed ctx w ad existing valuesHash

def reconcileDelete (ctx : Ctx) (w : World N) (ad : AppDeployment) : Outcome × World N :=
  if !ad.hasFinalizer then (done, w)
  else
    let rn := ad.releaseName
    match updateStatusPhase ctx w ad .uninstalling "Uninstalling Helm release" with
    | (some e, _, w) => (failedWith e.toString, w)
    | (none, ad, w) =>
      match Client.releaseExists w.helm rn ad.metadata.ns ctx.faults.getRelease with
      | .error e => ((⟨false, requeueAfterFailure⟩, some e), w)
      | .ok found =>
        let removed : Except String Unit × World N :=
          if found then helmUninstall ctx.faults.helm.run w ad.key rn ad.metadata.ns else (.ok (), w)
        match removed with
        | (.error e, w) => ((⟨false, requeueAfterFailure⟩, some e), w)
        | (.ok (), w) =>
          match w.update ctx.faults.update (removeFinalizer ad) with
          | (some e, _, w) => (failedWith e.toString, w)
          | (none, _, w) => (done, w)

def reconcile (ctx : Ctx) (w : World N) (key : ObjectKey) : Outcome × World N :=
  if ctx.faults.get then (failedWith ApiError.unavailable.toString, w)
  else match w.cluster.appDeployments key with
    | none => (done, w)
    | some ad =>
      if ad.metadata.deletionTimestamp.isSome then reconcileDelete ctx w ad
      else if !ad.hasFinalizer then
        match w.update ctx.faults.update (addFinalizer ad) with
        | (some e, _, w) => (failedWith e.toString, w)
        | (none, _, w) => ((⟨true, 0⟩, none), w)
      else if ad.spec.suspend then (done, w)
      else reconcileHelm r ctx w ad

theorem reconcile_terminating (ctx : Ctx) {w : World N} {key : ObjectKey} {ad : AppDeployment}
    (hget : w.cluster.appDeployments key = some ad) (hdel : ad.metadata.deletionTimestamp.isSome) :
    reconcile r ctx w key = if ctx.faults.get then (failedWith ApiError.unavailable.toString, w)
      else reconcileDelete ctx w ad := by
  simp [reconcile, hget, hdel]

theorem reconcile_live (ctx : Ctx) {w : World N} {key : ObjectKey} {ad : AppDeployment}
    (hg : ctx.faults.get = false) (hget : w.cluster.appDeployments key = some ad)
    (hdel : ad.metadata.deletionTimestamp = none) (hfin : ad.hasFinalizer) (hsus : ad.spec.suspend = false) :
    reconcile r ctx w key = reconcileHelm r ctx w ad := by
  simp [reconcile, hg, hget, hdel, hfin, hsus]

end Appstore.Controller
