import Appstore.Controller.Deletion

namespace Appstore.Controller

open Appstore.Api Appstore.Json Appstore.Kube Appstore.Helm

variable {N : Type} (r : Reconciler N)

def deployedOutcome : Outcome := (⟨false, requeueAfterSuccess⟩, none)

theorem writeStatus_ok {f : Bool} {w : World N} {ad : AppDeployment} {after a : Nat}
    (h : (writeStatus f w ad after).1 = (⟨false, a⟩, none)) :
    a = after ∧ ∃ ad', w.updateStatus f ad = (none, ad', (writeStatus f w ad after).2) := by
  unfold writeStatus at h ⊢
  split at h <;> rename_i heq
  · simp [failedWith] at h
  · simp only [Prod.mk.injEq, Result.mk.injEq] at h
    rw [heq]
    exact ⟨h.1.2.symm, _, rfl⟩

theorem updateStatusFailed_not_deployed (ctx : Ctx) (w : World N) (ad : AppDeployment) (m : String) :
    (updateStatusFailed ctx w ad m).1 ≠ deployedOutcome := fun h ↦ by
  have := (writeStatus_ok h).1
  simp [requeueAfterSuccess, requeueAfterFailure] at this

theorem updateStatusDeployed_ok (ctx : Ctx) (w : World N) (ad : AppDeployment) (info : ReleaseInfo)
    (hash : String) (hst : w.cluster.appDeployments ad.key = some ad)
    (h : (updateStatusDeployed ctx w ad info hash).1 = deployedOutcome) :
    ∃ rv, (updateStatusDeployed ctx w ad info hash).2.cluster.appDeployments ad.key =
        some ({ ad with status := deployedStatus ctx.now ad info hash }.withRV rv) ∧
      (updateStatusDeployed ctx w ad info hash).2.helm = w.helm ∧
      (updateStatusDeployed ctx w ad info hash).2.log = w.log ∧
      (updateStatusDeployed ctx w ad info hash).2.cluster.configMaps = w.cluster.configMaps ∧
      (updateStatusDeployed ctx w ad info hash).2.cluster.secrets = w.cluster.secrets := by
  obtain ⟨-, ad', he⟩ := writeStatus_ok h
  unfold updateStatusDeployed
  rw [writeStatus_world] at he ⊢
  rcases World.updateStatus_current w ctx.faults.statusResult
    { ad with status := deployedStatus ctx.now ad info hash } ad.status hst with
    ⟨_, he'⟩ | ⟨_, rv, c', he', hc, hcm, hsec⟩ <;> rw [he'] at he ⊢
  · cases he
  · exact ⟨rv, by rw [World.setCluster, hc]; exact Function.update_same _ _ _, rfl, rfl, hcm, hsec⟩

theorem applyRelease_deployed (ctx : Ctx) (w : World N) (ad : AppDeployment) (up : Bool)
    (values : Fields N) (hash : String) (hst : w.cluster.appDeployments ad.key = some ad)
    (h : (applyRelease r ctx w ad up values hash).1 = deployedOutcome) :
    ∃ rel rv, (applyRelease r ctx w ad up values hash).2.cluster.appDeployments ad.key =
        some ({ ad with status := deployedStatus ctx.now ad (releaseToInfo rel) hash }.withRV rv) ∧
      (applyRelease r ctx w ad up values hash).2.helm.releases ad.releaseKey = some rel ∧
      (applyRelease r ctx w ad up values hash).2.cluster.configMaps = w.cluster.configMaps ∧
      (applyRelease r ctx w ad up values hash).2.cluster.secrets = w.cluster.secrets := by
  have hok := @helmRelease_ok _ r up ctx.faults.helm w ad.key ad.releaseName ad.spec.appName ad.metadata.ns
    values
  have hc := helmRelease_cluster r up ctx.faults.helm w ad.key ad.releaseName ad.spec.appName
    ad.metadata.ns values
  unfold applyRelease at h ⊢
  dsimp only at h ⊢
  generalize (if up then helmUpgrade r else helmInstall r) ctx.faults.helm w ad.key ad.releaseName
    ad.spec.appName ad.metadata.ns values = p at hok hc h ⊢
  rcases p with ⟨info | e | p, w₂⟩
  rotate_left
  · exact absurd h (updateStatusFailed_not_deployed _ _ _ _)
  · simp [failedWith, deployedOutcome] at h
  obtain ⟨rel, hrel, rfl⟩ := hok rfl
  obtain ⟨rv, hstore, hhelm, -, hcm, hsec⟩ := updateStatusDeployed_ok ctx w₂ ad _ hash (hc ▸ hst) h
  exact ⟨rel, rv, hstore, hhelm ▸ hrel, hcm.trans (congrArg _ hc), hsec.trans (congrArg _ hc)⟩

theorem installOrUpgrade_deployed (ctx : Ctx) (w : World N) (ad : AppDeployment) (up : Bool)
    (values : Fields N) (hash : String) (hst : w.cluster.appDeployments ad.key = some ad)
    (h : (installOrUpgrade r ctx w ad up values hash).1 = deployedOutcome) :
    ∃ (rel : Release N) (ad' : AppDeployment) (rv : Nat), ad'.metadata.generation = ad.metadata.generation ∧
      (installOrUpgrade r ctx w ad up values hash).2.cluster.appDeployments ad.key =
        some ({ ad with status := deployedStatus ctx.now ad' (releaseToInfo rel) hash }.withRV rv) ∧
      (installOrUpgrade r ctx w ad up values hash).2.helm.releases ad.releaseKey = some rel ∧
      (installOrUpgrade r ctx w ad up values hash).2.cluster.configMaps = w.cluster.configMaps ∧
      (installOrUpgrade r ctx w ad up values hash).2.cluster.secrets = w.cluster.secrets := by
  unfold installOrUpgrade at h ⊢
  dsimp only at h ⊢
  split at h
  · simp [failedWith, deployedOutcome] at h
  rename_i ad₁ w₁ heq
  obtain ⟨had, hst₁, hcm₁, hsec₁⟩ := updateStatusPhase_current ctx w ad _ _ hst heq
  have hk : ad₁.key = ad.key := by rw [had]; rfl
  obtain ⟨rel, rv, hstore, hrel, hcm, hsec⟩ := applyRelease_deployed r ctx w₁ ad₁ up values hash (hk ▸ hst₁) h
  refine ⟨rel, ad₁, rv, by rw [had]; rfl, ?_, ?_, hcm.trans hcm₁, hsec.trans hsec₁⟩
  · rw [← hk, hstore, had]; rfl
  · rw [show ad.releaseKey = ad₁.releaseKey by rw [had]; rfl]; exact hrel

theorem reconcileHelm_deployed (ctx : Ctx) (w : World N) (ad : AppDeployment)
    (hst : w.cluster.appDeployments ad.key = some ad)
    (h : (reconcileHelm r ctx w ad).1 = deployedOutcome) :
    ∃ (v : Fields N) (rel : Release N) (ad' : AppDeployment) (rv : Nat), chartRejected r ad = none ∧
      getValues r.nf w.cluster ctx.faults.valuesFrom ad = .ok v ∧ validateReleaseName ad.releaseName = none ∧
      ad'.metadata.generation = ad.metadata.generation ∧
      (reconcileHelm r ctx w ad).2.cluster.appDeployments ad.key = some ({ ad with
        status := deployedStatus ctx.now ad' (releaseToInfo rel) (hashValues r.nf r.digest v) }.withRV rv) ∧
      (reconcileHelm r ctx w ad).2.helm.releases ad.releaseKey = some rel ∧
      (reconcileHelm r ctx w ad).2.cluster.configMaps = w.cluster.configMaps ∧
      (reconcileHelm r ctx w ad).2.cluster.secrets = w.cluster.secrets := by
  unfold reconcileHelm at h ⊢
  rcases hrej : chartRejected r ad with _ | msg <;> simp only [hrej] at h ⊢
  swap
  · exact absurd h (updateStatusFailed_not_deployed _ _ _ _)
  rcases hv : getValues r.nf w.cluster ctx.faults.valuesFrom ad with e | v <;> simp only [hv] at h ⊢
  · exact absurd h (updateStatusFailed_not_deployed _ _ _ _)
  rcases hg : Client.getRelease w.helm ad.releaseName ad.metadata.ns ctx.faults.getRelease with
    e | _ | existing <;> simp only [hg] at h ⊢
  · exact absurd h (updateStatusFailed_not_deployed _ _ _ _)
  · obtain ⟨rel, ad', rv, hgen, hrest⟩ := installOrUpgrade_deployed r ctx w ad false v _ hst h
    exact ⟨v, rel, ad', rv, trivial, rfl, (getRelease_ok hg).2.1, hgen, hrest⟩
  obtain ⟨-, hvn, hex⟩ := getRelease_ok hg
  obtain ⟨rel, hrel, rfl⟩ : ∃ rel, w.helm.releases ad.releaseKey = some rel ∧ releaseToInfo rel = existing :=
    Option.map_eq_some'.1 hex.symm
  by_cases hn : needsUpgrade ad (releaseToInfo rel) (hashValues r.nf r.digest v)
  · simp only [hn, if_true] at h ⊢
    obtain ⟨rel, ad', rv, hgen, hrest⟩ := installOrUpgrade_deployed r ctx w ad true v _ hst h
    exact ⟨v, rel, ad', rv, trivial, rfl, hvn, hgen, hrest⟩
  · simp only [hn, Bool.false_eq_true, if_false] at h ⊢
    obtain ⟨rv, hstore, hhelm, -, hcm, hsec⟩ := updateStatusDeployed_ok ctx w ad _ _ hst h
    exact ⟨v, rel, ad, rv, trivial, rfl, hvn, rfl, hstore, hhelm ▸ hrel, hcm, hsec⟩

theorem reconcileDelete_not_deployed (ctx : Ctx) (w : World N) (ad : AppDeployment) :
    (reconcileDelete ctx w ad).1 ≠ deployedOutcome := by
  unfold reconcileDelete
  dsimp only
  repeat' split
  all_goals simp [done, failedWith, deployedOutcome, requeueAfterFailure, requeueAfterSuccess]

theorem reconcile_deployed (ctx : Ctx) (w : World N) (key : ObjectKey)
    (h : (reconcile r ctx w key).1 = deployedOutcome) :
    ∃ ad, w.cluster.appDeployments key = some ad ∧ ad.metadata.deletionTimestamp = none ∧
      ad.hasFinalizer ∧ ad.spec.suspend = false ∧ reconcile r ctx w key = reconcileHelm r ctx w ad := by
  unfold reconcile at h ⊢
  by_cases hf : ctx.faults.get
  · simp [hf, failedWith, deployedOutcome] at h
  rcases hget : w.cluster.appDeployments key with _ | ad
  · simp [hf, hget, done, deployedOutcome, requeueAfterSuccess] at h
  simp only [hf, hget, Bool.false_eq_true, if_false] at h ⊢
  by_cases hdel : ad.metadata.deletionTimestamp.isSome
  · simp only [hdel, if_true] at h
    exact absurd h (reconcileDelete_not_deployed _ _ _)
  by_cases hfin : ad.hasFinalizer
  · by_cases hsus : ad.spec.suspend
    · simp [hdel, hfin, hsus, done, deployedOutcome, requeueAfterSuccess] at h
    · exact ⟨ad, rfl, by simpa using hdel, hfin, by simpa using hsus, by simp [hdel, hfin, hsus]⟩
  · simp only [hdel, hfin, Bool.false_eq_true, Bool.not_false, if_true, if_false] at h
    split at h <;> simp [failedWith, deployedOutcome, requeueAfterSuccess] at h

theorem installOrUpgrade_calls (ctx : Ctx) (w : World N) (ad : AppDeployment) (up : Bool)
    (values : Fields N) (hash : String) (hst : w.cluster.appDeployments ad.key = some ad)
    (hf : ctx.faults.statusPhase = false) :
    ∃ c, (installOrUpgrade r ctx w ad up values hash).2.log = w.log ++ [c] := by
  unfold installOrUpgrade updateStatusPhase
  dsimp only
  rcases World.updateStatus_current w ctx.faults.statusPhase
    { ad with status := (phaseStatus ctx.now ad (if up then .upgrading else .installing)
      (if up then "Upgrading Helm chart" else "Installing Helm chart")) } ad.status hst with
    ⟨hf', -⟩ | ⟨-, rv, c', he, -⟩
  · rw [hf] at hf'; cases hf'
  rw [he]
  obtain ⟨w₂, hs, h₂⟩ := applyRelease_shape r ctx (w.setCluster c') _ up values hash
  obtain ⟨ok, hlog⟩ := hs.log
  exact ⟨_, by rw [h₂.log, hlog]; rfl⟩

/-- The next pass at `now`: no transient failure, and the optional value
references read as in `ctx`. -/
def Ctx.again (ctx : Ctx) (now : Nat) : Ctx :=
  ⟨now, { Faults.none with valuesFrom := ctx.faults.valuesFrom }⟩

theorem reconcile_settled (ctx : Ctx) (now : Nat) (w : World N) (key : ObjectKey)
    (x ad' : AppDeployment) (v : Fields N) (rel : Release N) (t : Nat)
    (hx : w.cluster.appDeployments key = some x) (hdel : x.metadata.deletionTimestamp = none)
    (hfin : x.hasFinalizer) (hsus : x.spec.suspend = false) (hrej : chartRejected r x = none)
    (hv : getValues r.nf w.cluster ctx.faults.valuesFrom x = .ok v)
    (hrel : w.helm.releases x.releaseKey = some rel) (hvn : validateReleaseName x.releaseName = none)
    (hstatus : x.status = deployedStatus t ad' (releaseToInfo rel) (hashValues r.nf r.digest v))
    (hgen : x.metadata.generation = ad'.metadata.generation) :
    ((reconcile r (ctx.again now) w key).2.log = w.log ↔
      x.spec.chartVersion = "" ∨ x.spec.chartVersion = rel.chart.version) ∧
    (x.spec.chartVersion = "" ∨ x.spec.chartVersion = rel.chart.version →
      (reconcile r (ctx.again now) w key).2.helm = w.helm ∧
      ∃ x', (reconcile r (ctx.again now) w key).2.cluster.appDeployments key = some x' ∧
        x'.spec = x.spec ∧ x'.status = { x.status with lastReconcileTime := some now }) := by
  have hst := Cluster.lookup_own_key hx
  have hkey := w.cluster.keyed key x hx
  have hg : Client.getRelease w.helm x.releaseName x.metadata.ns false = .ok (some (releaseToInfo rel)) := by
    simp only [AppDeployment.releaseKey] at hrel
    simp [Client.getRelease, hrel, hvn]
  have hn : needsUpgrade x (releaseToInfo rel) (hashValues r.nf r.digest v) =
      (decide (x.spec.chartVersion ≠ "") && decide (x.spec.chartVersion ≠ rel.chart.version)) := by
    simp [needsUpgrade, hstatus, deployedStatus, releaseToInfo]
  have hred : reconcile r (ctx.again now) w key =
      if needsUpgrade x (releaseToInfo rel) (hashValues r.nf r.digest v) then
        installOrUpgrade r (ctx.again now) w x true v (hashValues r.nf r.digest v)
      else updateStatusDeployed (ctx.again now) w x (releaseToInfo rel) (hashValues r.nf r.digest v) := by
    rw [reconcile_live r _ rfl hx hdel hfin hsus]
    simp only [reconcileHelm, hrej, Ctx.again, Faults.none] at hv hg ⊢
    simp only [hv, hg]
  rw [hred, hn]
  by_cases hc : x.spec.chartVersion = "" ∨ x.spec.chartVersion = rel.chart.version
  · have hno : (decide (x.spec.chartVersion ≠ "") && decide (x.spec.chartVersion ≠ rel.chart.version)) = false := by
      rcases hc with hc | hc <;> simp [hc]
    rw [hno, if_neg Bool.false_ne_true]
    rcases World.updateStatus_current w false
      { x with status := deployedStatus now x (releaseToInfo rel) (hashValues r.nf r.digest v) } x.status hst with
      ⟨h, -⟩ | ⟨-, rv, c', he, hc', -, -⟩
    · cases h
    have hw : (updateStatusDeployed (ctx.again now) w x (releaseToInfo rel) (hashValues r.nf r.digest v)).2 =
        w.setCluster c' := by
      rw [updateStatusDeployed, writeStatus_world]
      exact congrArg (·.2.2) he
    rw [hw]
    refine ⟨iff_of_true rfl hc, fun _ ↦ ⟨rfl,
      { x with status := deployedStatus now x (releaseToInfo rel) (hashValues r.nf r.digest v) }.withRV rv,
      ?_, rfl, deployedStatus_again t now x ad' _ _ hstatus hgen⟩⟩
    rw [World.setCluster, hc', ← hkey]
    exact Function.update_same _ _ _
  · have hyes : (decide (x.spec.chartVersion ≠ "") && decide (x.spec.chartVersion ≠ rel.chart.version)) = true := by
      simpa [not_or] using hc
    rw [hyes, if_pos rfl]
    obtain ⟨c, hlog⟩ := installOrUpgrade_calls r (ctx.again now) w x true v (hashValues r.nf r.digest v) hst rfl
    exact ⟨iff_of_false (by simp [hlog]) hc, fun h ↦ absurd h hc⟩

/-- A pass that persists `Deployed` records the hash of the values it read and the
chart version of the release now in Helm; the next pass without transient
failures, with nothing else changed, calls neither `Install` nor `Upgrade` exactly
when the pinned version is empty or equals that chart version, and then moves only
the reconcile time. -/
theorem deployed_status_settles (ctx : Ctx) (w : World N) (key : ObjectKey) (now : Nat)
    (hdep : (reconcile r ctx w key).1 = deployedOutcome) :
    ∃ ad x v rel, w.cluster.appDeployments key = some ad ∧
      (reconcile r ctx w key).2.cluster.appDeployments key = some x ∧
      x.spec = ad.spec ∧ x.status.phase = some .deployed ∧
      x.status.observedGeneration = ad.metadata.generation ∧
      getValues r.nf w.cluster ctx.faults.valuesFrom ad = .ok v ∧
      x.status.lastAppliedValuesHash = hashValues r.nf r.digest v ∧
      (reconcile r ctx w key).2.helm.releases ad.releaseKey = some rel ∧
      x.status.deployedChartVersion = rel.chart.version ∧
      ((reconcile r (ctx.again now) (reconcile r ctx w key).2 key).2.log = (reconcile r ctx w key).2.log ↔
        ad.spec.chartVersion = "" ∨ ad.spec.chartVersion = x.status.deployedChartVersion) ∧
      (ad.spec.chartVersion = "" ∨ ad.spec.chartVersion = x.status.deployedChartVersion →
        (reconcile r (ctx.again now) (reconcile r ctx w key).2 key).2.helm = (reconcile r ctx w key).2.helm ∧
        ∃ x', (reconcile r (ctx.again now) (reconcile r ctx w key).2 key).2.cluster.appDeployments key =
          some x' ∧ x'.spec = x.spec ∧ x'.status = { x.status with lastReconcileTime := some now }) := by
  obtain ⟨ad, hget, hdel, hfin, hsus, hred⟩ := reconcile_deployed r ctx w key hdep
  rw [hred] at hdep ⊢
  have hst := Cluster.lookup_own_key hget
  obtain ⟨v, rel, ad', rv, hrej, hv, hvn, hgen, hstore, hrel, hcm, hsec⟩ :=
    reconcileHelm_deployed r ctx w ad hst hdep
  rw [w.cluster.keyed key ad hget] at hstore
  have hv' : getValues r.nf (reconcileHelm r ctx w ad).2.cluster ctx.faults.valuesFrom ad = .ok v :=
    (getValues_congr r.nf hcm hsec _ _).trans hv
  exact ⟨ad, _, v, rel, hget, hstore, rfl, rfl, hgen, hv, rfl, hrel, rfl,
    reconcile_settled r ctx now _ key _ ad' v rel ctx.now hstore hdel hfin hsus hrej hv' hrel hvn rfl hgen.symm⟩

def afterFinalizer (ad : AppDeployment) : World Nat :=
  (reconcile mirrorOnly ⟨0, .none⟩ (worldOf [ad]) ⟨"team-a", ad.metadata.name⟩).2

def pinnedDb : AppDeployment :=
  { postgresRecord "db" "" with spec := { (postgresRecord "db" "").spec with chartVersion := "2.0.0" } }

def pinnedDeployed : World Nat :=
  (reconcile mirrorOnly ⟨0, .none⟩ (afterFinalizer pinnedDb) ⟨"team-a", "db"⟩).2

theorem pinned_version_upgrades_again :
    pinnedDb.spec.chartVersion = "2.0.0" ∧
      (reconcile mirrorOnly ⟨0, .none⟩ (afterFinalizer pinnedDb) ⟨"team-a", "db"⟩).1 = deployedOutcome ∧
      (pinnedDeployed.cluster.appDeployments ⟨"team-a", "db"⟩).map (·.status.deployedChartVersion) = some "1.0.0" ∧
      (reconcile mirrorOnly ⟨1, .none⟩ pinnedDeployed ⟨"team-a", "db"⟩).2.log.map HelmCall.op =
        pinnedDeployed.log.map HelmCall.op ++ [.upgrade] := by
  decide

end Appstore.Controller
