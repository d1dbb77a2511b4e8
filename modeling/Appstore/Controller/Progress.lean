import Appstore.Controller.Idempotence

namespace Appstore.Controller

open Appstore.Api Appstore.Json Appstore.Kube Appstore.Helm

variable {N : Type} (r : Reconciler N)

theorem updateStatusDeployed_none (ctx : Ctx) (w : World N) (ad : AppDeployment) (info : ReleaseInfo)
    (hash : String) (hf : ctx.faults.statusResult = false) (hst : w.cluster.appDeployments ad.key = some ad) :
    (updateStatusDeployed ctx w ad info hash).1 = deployedOutcome := by
  unfold updateStatusDeployed writeStatus
  rcases World.updateStatus_current w ctx.faults.statusResult
    { ad with status := deployedStatus ctx.now ad info hash } ad.status hst with
    ⟨hf', -⟩ | ⟨-, rv, c', he, -⟩
  · rw [hf] at hf'; cases hf'
  · rw [he]; rfl

/-- What Helm needs for a record's `Install` or `Upgrade` to go through: the chart
found under `chartsPath` (a pull panics), a valid release name, and no operation
pending on the release. -/
structure HelmReady (r : Reconciler N) (w : World N) (ad : AppDeployment) (ch : Chart) : Prop where
  chart : r.helm.loadChart w.helm.charts ad.spec.appName = .ok ch
  name : validateReleaseName ad.releaseName = none
  settled : ∀ cur, w.helm.releases ad.releaseKey = some cur → isPending cur.status = false

theorem applyRelease_none (ctx : Ctx) (w : World N) (ad : AppDeployment) (up : Bool) (values : Fields N)
    (hash : String) (hh : ctx.faults.helm = .none) (hf : ctx.faults.statusResult = false)
    (hst : w.cluster.appDeployments ad.key = some ad) {ch : Chart} (hl : HelmReady r w ad ch)
    (hup : (w.helm.releases ad.releaseKey).isSome = up) :
    (applyRelease r ctx w ad up values hash).1 = deployedOutcome ∧
    ∃ n, (applyRelease r ctx w ad up values hash).2.helm.releases ad.releaseKey =
      some ⟨ad.releaseName, ad.metadata.ns, n, "deployed", ch, values⟩ := by
  obtain ⟨n, hres, hrel⟩ := helmRelease_none r up w ad.key ad.releaseName ad.spec.appName ad.metadata.ns
    values hl.chart hl.name hup hl.settled
  have hc := helmRelease_cluster r up .none w ad.key ad.releaseName ad.spec.appName ad.metadata.ns values
  unfold applyRelease
  dsimp only
  rw [hh]
  generalize (if up then helmUpgrade r else helmInstall r) .none w ad.key ad.releaseName ad.spec.appName
    ad.metadata.ns values = p at hres hrel hc ⊢
  obtain ⟨_, w₂⟩ := p
  cases hres
  refine ⟨updateStatusDeployed_none ctx w₂ ad _ hash hf (hc ▸ hst), n, ?_⟩
  rw [(updateStatusDeployed_clusterOnly ctx w₂ ad _ hash).helm]
  exact hrel

theorem installOrUpgrade_none (ctx : Ctx) (w : World N) (ad : AppDeployment) (up : Bool) (values : Fields N)
    (hash : String) (hh : ctx.faults.helm = .none) (hp : ctx.faults.statusPhase = false)
    (hf : ctx.faults.statusResult = false) (hst : w.cluster.appDeployments ad.key = some ad)
    {ch : Chart} (hl : HelmReady r w ad ch) (hup : (w.helm.releases ad.releaseKey).isSome = up) :
    (installOrUpgrade r ctx w ad up values hash).1 = deployedOutcome ∧
    ∃ n, (installOrUpgrade r ctx w ad up values hash).2.helm.releases ad.releaseKey =
      some ⟨ad.releaseName, ad.metadata.ns, n, "deployed", ch, values⟩ := by
  unfold installOrUpgrade updateStatusPhase
  dsimp only
  rcases World.updateStatus_current w ctx.faults.statusPhase
    { ad with status := (phaseStatus ctx.now ad (if up then .upgrading else .installing)
      (if up then "Upgrading Helm chart" else "Installing Helm chart")) } ad.status hst with
    ⟨hp', -⟩ | ⟨-, rv, c', he, hc, -⟩
  · rw [hp] at hp'; cases hp'
  rw [he]
  exact applyRelease_none r ctx (w.setCluster c') _ up values hash hh hf
    (by simp only [World.setCluster, hc]; exact Function.update_same _ _ _) ⟨hl.chart, hl.name, hl.settled⟩ hup

theorem reconcileHelm_none (ctx : Ctx) (w : World N) (ad : AppDeployment) (v : Fields N)
    (hh : ctx.faults.helm = .none) (hp : ctx.faults.statusPhase = false)
    (hf : ctx.faults.statusResult = false) (hg : ctx.faults.getRelease = false)
    (hst : w.cluster.appDeployments ad.key = some ad) (hrej : chartRejected r ad = none)
    (hv : getValues r.nf w.cluster ctx.faults.valuesFrom ad = .ok v) {ch : Chart} (hl : HelmReady r w ad ch) :
    (reconcileHelm r ctx w ad).1 = deployedOutcome ∧
    ∃ rel, (reconcileHelm r ctx w ad).2.helm.releases ad.releaseKey = some rel ∧
      ((rel.status = "deployed" ∧ rel.config = v ∧ rel.chart = ch) ∨
        ((reconcileHelm r ctx w ad).2.helm = w.helm ∧
          needsUpgrade ad (releaseToInfo rel) (hashValues r.nf r.digest v) = false)) := by
  unfold reconcileHelm
  simp only [hrej, hv, Client.getRelease, hg, hl.name, Option.isSome_none, Bool.false_eq_true, if_false]
  rcases hk : w.helm.releases ad.releaseKey with _ | cur
  · have hk' : w.helm.releases ⟨ad.metadata.ns, ad.releaseName⟩ = none := hk
    simp only [hk', Option.map_none']
    obtain ⟨hout, n, hrel⟩ := installOrUpgrade_none r ctx w ad false v _ hh hp hf hst hl (by rw [hk]; rfl)
    exact ⟨hout, _, hrel, .inl ⟨rfl, rfl, rfl⟩⟩
  have hk' : w.helm.releases ⟨ad.metadata.ns, ad.releaseName⟩ = some cur := hk
  simp only [hk', Option.map_some']
  split
  · obtain ⟨hout, n, hrel⟩ := installOrUpgrade_none r ctx w ad true v _ hh hp hf hst hl (by rw [hk]; rfl)
    exact ⟨hout, _, hrel, .inl ⟨rfl, rfl, rfl⟩⟩
  · rename_i hn
    have hhelm := (updateStatusDeployed_clusterOnly ctx w ad (releaseToInfo cur) (hashValues r.nf r.digest v)).helm
    exact ⟨updateStatusDeployed_none ctx w ad _ _ hf hst, cur, by rw [hhelm, hk],
      .inr ⟨hhelm, by simpa using hn⟩⟩

theorem reconcileHelm_deploys (ctx : Ctx) (w : World N) (x : AppDeployment) (v : Fields N) (ch : Chart)
    (hh : ctx.faults.helm = .none) (hp : ctx.faults.statusPhase = false)
    (hf : ctx.faults.statusResult = false) (hg : ctx.faults.getRelease = false)
    (hst : w.cluster.appDeployments x.key = some x) (hrej : chartRejected r x = none)
    (hv : getValues r.nf w.cluster ctx.faults.valuesFrom x = .ok v) (hl : HelmReady r w x ch) :
    (reconcileHelm r ctx w x).1 = deployedOutcome ∧
    ∃ x' rel, (reconcileHelm r ctx w x).2.cluster.appDeployments x.key = some x' ∧
      x'.spec = x.spec ∧ x'.status.phase = some .deployed ∧
      x'.status.lastAppliedValuesHash = hashValues r.nf r.digest v ∧
      (reconcileHelm r ctx w x).2.helm.releases x.releaseKey = some rel ∧
      x'.status.deployedChartVersion = rel.chart.version ∧
      ((rel.status = "deployed" ∧ rel.config = v ∧ rel.chart = ch) ∨
        ((reconcileHelm r ctx w x).2.helm = w.helm ∧
          needsUpgrade x (releaseToInfo rel) (hashValues r.nf r.digest v) = false)) := by
  obtain ⟨hout, rel, hrel, hcases⟩ := reconcileHelm_none r ctx w x v hh hp hf hg hst hrej hv hl
  obtain ⟨v', rel', ad', rv, -, hv', -, -, hstore, hrel', -⟩ := reconcileHelm_deployed r _ w x hst hout
  cases Except.ok.inj (hv'.symm.trans hv)
  cases hrel.symm.trans hrel'
  exact ⟨hout, _, rel, hstore, rfl, rfl, rfl, hrel, rfl, hcases⟩

theorem reconcile_addsFinalizer (ctx : Ctx) (w : World N) (key : ObjectKey) (x : AppDeployment)
    (hg : ctx.faults.get = false) (hu : ctx.faults.update = false)
    (hx : w.cluster.appDeployments key = some x) (hdel : x.metadata.deletionTimestamp = none)
    (hfin : x.hasFinalizer = false) (hv : validate x = none) :
    ∃ c', reconcile r ctx w key = ((⟨true, 0⟩, none), w.setCluster c') ∧
      c'.appDeployments = Function.update w.cluster.appDeployments key
        (some ((addFinalizer x).withRV (w.cluster.revision + 1))) ∧
      c'.configMaps = w.cluster.configMaps ∧ c'.secrets = w.cluster.secrets := by
  have hk := w.cluster.keyed key x hx
  obtain ⟨ad', c', he, hc, hcm, hs⟩ :=
    Cluster.update_addFinalizer w.cluster x (Cluster.lookup_own_key hx) hdel hfin hv
  refine ⟨c', ?_, hk ▸ hc, hcm, hs⟩
  simp [reconcile, hg, hx, hdel, hfin, World.update, hu, he]

def finalizedDb : AppDeployment :=
  ⟨⟨"db", "team-a", [], [], [finalizerName], none, 1, 0, 0⟩, (postgresRecord "db" "").spec, .empty⟩

theorem World.update_removeFinalizer (w : World N) (ad : AppDeployment)
    (hst : w.cluster.appDeployments ad.key = some ad) (hdel : ad.metadata.deletionTimestamp.isSome)
    (hfin : ad.hasFinalizer) (hv : validate ad = none) :
    ∃ ad' c', w.update false (removeFinalizer ad) = (none, ad', w.setCluster c') ∧
      c'.appDeployments ad.key = if (removeFinalizer ad).metadata.finalizers = [] then none
        else some ((removeFinalizer ad).withRV (w.cluster.revision + 1)) := by
  obtain ⟨ad', c', he, hc, -⟩ := Cluster.update_removeFinalizer w.cluster ad hst hdel hfin hv
  exact ⟨ad', c', by simp [World.update, he], by rw [hc]; exact Function.update_same _ _ _⟩

theorem updateStatusPhase_none (ctx : Ctx) (w : World N) (ad : AppDeployment) (p : AppDeploymentPhase)
    (m : String) (hp : ctx.faults.statusPhase = false) (hst : w.cluster.appDeployments ad.key = some ad) :
    ∃ ad' w', updateStatusPhase ctx w ad p m = (none, ad', w') := by
  rcases World.updateStatus_current w ctx.faults.statusPhase { ad with status := phaseStatus ctx.now ad p m }
    ad.status hst with ⟨hp', -⟩ | ⟨-, rv, c', he, -⟩
  · rw [hp] at hp'; cases hp'
  · exact ⟨_, _, he⟩

theorem reconcileDelete_none (ctx : Ctx) (w : World N) (ad : AppDeployment)
    (hp : ctx.faults.statusPhase = false) (hg : ctx.faults.getRelease = false)
    (hrun : ctx.faults.helm.run = false) (hu : ctx.faults.update = false)
    (hst : w.cluster.appDeployments ad.key = some ad) (hdel : ad.metadata.deletionTimestamp.isSome)
    (hfin : ad.hasFinalizer) (hv : validate ad = none) (hn : validateReleaseName ad.releaseName = none) :
    (reconcileDelete ctx w ad).1 = done ∧
    ∃ y, (reconcileDelete ctx w ad).2.cluster.appDeployments ad.key =
        (if y.metadata.finalizers = [] then none else some y) ∧
      y.spec = ad.spec ∧ y.metadata.finalizers = ad.metadata.finalizers.filter (· != finalizerName) := by
  unfold reconcileDelete
  simp only [hfin, Bool.not_true, Bool.false_eq_true, if_false]
  obtain ⟨ad₁, w₁, heq⟩ := updateStatusPhase_none ctx w ad .uninstalling "Uninstalling Helm release" hp hst
  obtain ⟨had, hst₁, -⟩ := updateStatusPhase_current ctx w ad _ _ hst heq
  have hhelm : w₁.helm = w.helm := by
    have h := updateStatusPhase_clusterOnly ctx w ad .uninstalling "Uninstalling Helm release"
    rw [heq] at h
    exact h.helm
  have hk : ad₁.key = ad.key := by rw [had]; rfl
  have hns : ad₁.metadata.ns = ad.metadata.ns := by rw [had]; rfl
  have hdel₁ : ad₁.metadata.deletionTimestamp.isSome := by rw [had]; exact hdel
  have hfin₁ : ad₁.hasFinalizer := by rw [had]; exact hfin
  have hv₁ : validate ad₁ = none := by rw [had]; exact (Cluster.validate_congr rfl rfl rfl).trans hv
  have hspec₁ : ad₁.spec = ad.spec := by rw [had]; rfl
  have hfins₁ : ad₁.metadata.finalizers = ad.metadata.finalizers := by rw [had]; rfl
  -- the finalizer `Update`, from a world on the cluster the status write left
  have hfinish (w₂ : World N) (hc : w₂.cluster = w₁.cluster) :
      (match w₂.update ctx.faults.update (removeFinalizer ad₁) with
        | (some e, _, w) => (failedWith e.toString, w)
        | (none, _, w) => (done, w)).1 = done ∧
      ∃ y, (match w₂.update ctx.faults.update (removeFinalizer ad₁) with
        | (some e, _, w) => (failedWith e.toString, w)
        | (none, _, w) => (done, w)).2.cluster.appDeployments ad.key =
          (if y.metadata.finalizers = [] then none else some y) ∧
        y.spec = ad.spec ∧ y.metadata.finalizers = ad.metadata.finalizers.filter (· != finalizerName) := by
    obtain ⟨ad', c', he, hc'⟩ :=
      World.update_removeFinalizer w₂ ad₁ (by rw [hc, hk]; exact hst₁) hdel₁ hfin₁ hv₁
    rw [hu, he]
    exact ⟨rfl, (removeFinalizer ad₁).withRV (w₂.cluster.revision + 1), hk ▸ hc', hspec₁,
      by simp only [removeFinalizer, AppDeployment.withRV, hfins₁]⟩
  rw [heq]
  simp only [Client.releaseExists, Client.getRelease, hg, hn, Option.isSome_none, Bool.false_eq_true, if_false,
    Except.map, hhelm, hns]
  rcases hrel : w.helm.releases ⟨ad.metadata.ns, ad.releaseName⟩ with _ | cur
  · simpa only [Option.map_none', Option.isSome_none, Bool.false_eq_true, if_false] using hfinish w₁ rfl
  · have hres : (helmUninstall false w₁ ad₁.key ad.releaseName ad.metadata.ns).1 = .ok () :=
      uninstall_present w₁.helm ad.releaseName ad.metadata.ns hn (by rw [hhelm, hrel]; rfl)
    have hs := helmUninstall_step false w₁ ad₁.key ad.releaseName ad.metadata.ns
    simp only [Option.map_some', Option.isSome_some, if_true, hrun]
    rcases e : helmUninstall false w₁ ad₁.key ad.releaseName ad.metadata.ns with ⟨_ | _, w₂⟩ <;>
      rw [e] at hres hs
    · cases hres
    · exact hfinish w₂ hs.cluster

theorem reconcileDelete_deletes (ctx : Ctx) (w : World N) (x : AppDeployment)
    (hp : ctx.faults.statusPhase = false) (hg : ctx.faults.getRelease = false)
    (hrun : ctx.faults.helm.run = false) (hu : ctx.faults.update = false)
    (hst : w.cluster.appDeployments x.key = some x) (hdel : x.metadata.deletionTimestamp.isSome)
    (hfin : x.hasFinalizer) (hv : validate x = none) (hn : validateReleaseName x.releaseName = none) :
    (reconcileDelete ctx w x).1 = done ∧
    (reconcileDelete ctx w x).2.helm.releases x.releaseKey = none ∧
    ((reconcileDelete ctx w x).2.cluster.appDeployments x.key = none ↔
      x.metadata.finalizers.filter (· != finalizerName) = []) ∧
    ∀ y, (reconcileDelete ctx w x).2.cluster.appDeployments x.key = some y →
      y.spec = x.spec ∧ y.metadata.finalizers = x.metadata.finalizers.filter (· != finalizerName) := by
  obtain ⟨hout, y, hy, hspec, hfins⟩ := reconcileDelete_none ctx w x hp hg hrun hu hst hdel hfin hv hn
  have hgone := (reconcileDelete_outcome ctx w x hst hfin).2.2.2 (by rw [hout]; rfl)
  rw [hy, ← hfins]
  refine ⟨hout, hgone, ?_, fun y' h ↦ ?_⟩
  · split_ifs with h <;> simp [h]
  · split_ifs at h
    cases h
    exact ⟨hspec, rfl⟩

/-- Progress of a deletion: a pass that hits no transient failure, on a
terminating record with the finalizer that passed validation and whose release
name Helm accepts, succeeds and leaves no release under the name the record
resolves to. The record is gone from the store when the finalizer was the last one
on it, and otherwise stays with its spec and its other finalizers. -/
theorem reconcile_deletes (ctx : Ctx) (now : Nat) (w : World N) (key : ObjectKey) (x : AppDeployment)
    (hx : w.cluster.appDeployments key = some x) (hdel : x.metadata.deletionTimestamp.isSome)
    (hfin : x.hasFinalizer) (hv : validate x = none) (hn : validateReleaseName x.releaseName = none) :
    (reconcile r (ctx.again now) w key).1 = done ∧
    (reconcile r (ctx.again now) w key).2.helm.releases x.releaseKey = none ∧
    ((reconcile r (ctx.again now) w key).2.cluster.appDeployments key = none ↔
      x.metadata.finalizers.filter (· != finalizerName) = []) ∧
    ∀ y, (reconcile r (ctx.again now) w key).2.cluster.appDeployments key = some y →
      y.spec = x.spec ∧ y.metadata.finalizers = x.metadata.finalizers.filter (· != finalizerName) := by
  rw [reconcile_terminating r _ hx hdel, ← w.cluster.keyed key x hx]
  exact reconcileDelete_deletes (ctx.again now) w x rfl rfl rfl rfl (Cluster.lookup_own_key hx) hdel hfin hv hn

theorem terminatingDb_deleted :
    terminatingWorld.cluster.appDeployments ⟨"team-a", "db"⟩ = some (terminatingDb.withRV 1) ∧
    (terminatingDb.withRV 1).metadata.deletionTimestamp.isSome ∧ (terminatingDb.withRV 1).hasFinalizer ∧
    validate (terminatingDb.withRV 1) = none ∧ validateReleaseName (terminatingDb.withRV 1).releaseName = none ∧
    (terminatingWorld.helm.releases (terminatingDb.withRV 1).releaseKey).isSome ∧
    (reconcile mirrorOnly ((⟨0, .none⟩ : Ctx).again 1) terminatingWorld ⟨"team-a", "db"⟩).1 = done ∧
    (reconcile mirrorOnly ((⟨0, .none⟩ : Ctx).again 1) terminatingWorld
      ⟨"team-a", "db"⟩).2.helm.releases (terminatingDb.withRV 1).releaseKey = none ∧
    ((reconcile mirrorOnly ((⟨0, .none⟩ : Ctx).again 1) terminatingWorld
        ⟨"team-a", "db"⟩).2.cluster.appDeployments ⟨"team-a", "db"⟩ = none ↔
      (terminatingDb.withRV 1).metadata.finalizers.filter (· != finalizerName) = []) ∧
    ∀ y, (reconcile mirrorOnly ((⟨0, .none⟩ : Ctx).again 1) terminatingWorld
        ⟨"team-a", "db"⟩).2.cluster.appDeployments ⟨"team-a", "db"⟩ = some y →
      y.spec = (terminatingDb.withRV 1).spec ∧
      y.metadata.finalizers = (terminatingDb.withRV 1).metadata.finalizers.filter (· != finalizerName) :=
  have hx : terminatingWorld.cluster.appDeployments ⟨"team-a", "db"⟩ = some (terminatingDb.withRV 1) := by
    decide
  have hn : validateReleaseName (terminatingDb.withRV 1).releaseName = none := by decide
  ⟨hx, rfl, rfl, by decide, hn, by decide,
    reconcile_deletes mirrorOnly ⟨0, .none⟩ 1 _ _ _ hx rfl rfl (by decide) hn⟩

end Appstore.Controller
