import Appstore.Controller.Reconcile

namespace Appstore.Controller

open Appstore.Api Appstore.Json Appstore.Kube Appstore.Helm

variable {N : Type}

/-- A change of the world by the controller's own API writes: Helm and the ghost
state stay, and every record left kept its spec. -/
structure ClusterOnly (w w' : World N) : Prop where
  helm : w'.helm = w.helm
  installedBy : w'.installedBy = w.installedBy
  log : w'.log = w.log
  kept : Cluster.Kept w.cluster w'.cluster

theorem ClusterOnly.refl (w : World N) : ClusterOnly w w := ⟨rfl, rfl, rfl, .refl _⟩

theorem ClusterOnly.trans {w₁ w₂ w₃ : World N} (h₁ : ClusterOnly w₁ w₂) (h₂ : ClusterOnly w₂ w₃) :
    ClusterOnly w₁ w₃ :=
  ⟨h₂.helm.trans h₁.helm, h₂.installedBy.trans h₁.installedBy, h₂.log.trans h₁.log,
    h₁.kept.trans h₂.kept⟩

theorem World.update_clusterOnly (w : World N) (f : Bool) (ad : AppDeployment)
    (hspec : ∀ cur, w.cluster.appDeployments ad.key = some cur →
      cur.spec = ad.spec ∧ cur.metadata.labels = ad.metadata.labels) :
    ClusterOnly w (w.update f ad).2.2 := by
  unfold World.update
  split
  · exact .refl w
  · split
    · exact .refl w
    · exact ⟨rfl, rfl, rfl, Cluster.update_kept hspec ‹_›⟩

theorem World.updateStatus_clusterOnly (w : World N) (f : Bool) (ad : AppDeployment) :
    ClusterOnly w (w.updateStatus f ad).2.2 := by
  unfold World.updateStatus
  split
  · exact .refl w
  · split
    · exact .refl w
    · exact ⟨rfl, rfl, rfl, Cluster.updateStatus_kept ‹_›⟩

theorem World.update_error {w w' : World N} {f : Bool} {ad ad' : AppDeployment} {e : ApiError}
    (h : w.update f ad = (some e, ad', w')) : w' = w := by
  unfold World.update at h
  split at h
  · cases h; rfl
  · split at h <;> cases h; rfl

theorem World.updateStatus_error {w w' : World N} {f : Bool} {ad ad' : AppDeployment} {e : ApiError}
    (h : w.updateStatus f ad = (some e, ad', w')) : w' = w := by
  unfold World.updateStatus at h
  split at h
  · cases h; rfl
  · split at h <;> cases h; rfl

@[simp] theorem World.update_helm (w : World N) (f : Bool) (ad : AppDeployment) :
    (w.update f ad).2.2.helm = w.helm := by
  unfold World.update
  split
  · rfl
  · split <;> rfl

@[simp] theorem World.update_log (w : World N) (f : Bool) (ad : AppDeployment) :
    (w.update f ad).2.2.log = w.log := by
  unfold World.update
  split
  · rfl
  · split <;> rfl

theorem updateStatusPhase_clusterOnly (ctx : Ctx) (w : World N) (ad : AppDeployment)
    (p : AppDeploymentPhase) (m : String) : ClusterOnly w (updateStatusPhase ctx w ad p m).2.2 :=
  World.updateStatus_clusterOnly _ _ _

theorem writeStatus_world (f : Bool) (w : World N) (ad : AppDeployment) (after : Nat) :
    (writeStatus f w ad after).2 = (w.updateStatus f ad).2.2 := by
  unfold writeStatus
  split <;> rename_i h <;> simp [h]

theorem updateStatusDeployed_clusterOnly (ctx : Ctx) (w : World N) (ad : AppDeployment)
    (info : ReleaseInfo) (h : String) : ClusterOnly w (updateStatusDeployed ctx w ad info h).2 := by
  unfold updateStatusDeployed
  rw [writeStatus_world]
  exact World.updateStatus_clusterOnly _ _ _

theorem updateStatusFailed_clusterOnly (ctx : Ctx) (w : World N) (ad : AppDeployment) (m : String) :
    ClusterOnly w (updateStatusFailed ctx w ad m).2 := by
  unfold updateStatusFailed
  rw [writeStatus_world]
  exact World.updateStatus_clusterOnly _ _ _

theorem World.updateStatus_current (w : World N) (f : Bool) (ad : AppDeployment)
    (s : AppDeploymentStatus) (h : w.cluster.appDeployments ad.key = some { ad with status := s }) :
    (f = true ∧ w.updateStatus f ad = (some .unavailable, ad, w)) ∨
    (f = false ∧ ∃ rv c', w.updateStatus f ad = (none, ad.withRV rv, w.setCluster c') ∧
      c'.appDeployments = Function.update w.cluster.appDeployments ad.key (some (ad.withRV rv)) ∧
      c'.configMaps = w.cluster.configMaps ∧ c'.secrets = w.cluster.secrets) := by
  cases f
  · obtain ⟨rv, c', he, hc⟩ := Cluster.updateStatus_current w.cluster ad s h
    exact .inr ⟨rfl, rv, c', by simp [World.updateStatus, he], hc⟩
  · exact .inl ⟨rfl, rfl⟩

theorem updateStatusPhase_current (ctx : Ctx) (w : World N) (ad : AppDeployment)
    (p : AppDeploymentPhase) (m : String) (hst : w.cluster.appDeployments ad.key = some ad)
    {ad' : AppDeployment} {w' : World N} (h : updateStatusPhase ctx w ad p m = (none, ad', w')) :
    ad' = ({ ad with status := phaseStatus ctx.now ad p m } : AppDeployment).withRV
      ad'.metadata.resourceVersion ∧ w'.cluster.appDeployments ad.key = some ad' ∧
      w'.cluster.configMaps = w.cluster.configMaps ∧ w'.cluster.secrets = w.cluster.secrets := by
  unfold updateStatusPhase at h
  rcases World.updateStatus_current w ctx.faults.statusPhase
    { ad with status := phaseStatus ctx.now ad p m } ad.status hst with
    ⟨_, he⟩ | ⟨_, rv, c', he, hc, hcm, hsec⟩ <;> rw [he] at h
  · cases h
  · cases h
    exact ⟨rfl, by simp only [World.setCluster, hc]; exact Function.update_same _ _ _, hcm, hsec⟩

/-- One mutating Helm call on release `rk` on behalf of record `actor`: only that
release and its ghost credit change, and the call is logged with the record the
release found there was credited to. -/
structure HelmCallStep (op : HelmOp) (actor rk : ObjectKey) (w w' : World N) : Prop where
  cluster : w'.cluster = w.cluster
  releases : ∀ k, k ≠ rk → w'.helm.releases k = w.helm.releases k
  credit : ∀ k, w'.installedBy k = w.installedBy k ∨ (k = rk ∧ w'.installedBy k = some actor)
  created : w.helm.releases rk = none → (w'.helm.releases rk).isSome → w'.installedBy rk = some actor
  log : ∃ ok, w'.log = w.log ++ [⟨actor, op, rk, w.installedBy rk, ok⟩]

theorem helmCallStep_of (w : World N) (op : HelmOp) (actor rk : ObjectKey) (ok : Bool)
    (hs : HelmState N) (hrel : ∀ k, k ≠ rk → hs.releases k = w.helm.releases k) :
    HelmCallStep op actor rk w ((w.record actor op rk ok).afterHelm actor rk hs) where
  cluster := rfl
  releases := hrel
  credit k := by
    simp only [World.afterHelm, World.record]
    split_ifs
    · by_cases hk : k = rk
      · subst hk; exact .inr ⟨rfl, by simp⟩
      · exact .inl (by simp [hk])
    · exact .inl rfl
  created h₀ h₁ := by simp_all [World.afterHelm, World.record]
  log := ⟨ok, rfl⟩

variable (r : Reconciler N)

theorem helmInstall_step (f : HelmFaults) (w : World N) (actor : ObjectKey) (rn cn ns : String)
    (v : Fields N) : HelmCallStep .install actor ⟨ns, rn⟩ w (helmInstall r f w actor rn cn ns v).2 := by
  unfold helmInstall
  have h := install_releases r.helm w.helm rn cn ns v f
  rcases e : r.helm.install w.helm rn cn ns v f with ⟨res, hs⟩
  rw [e] at h
  exact helmCallStep_of w _ _ _ _ hs h

theorem helmUpgrade_step (f : HelmFaults) (w : World N) (actor : ObjectKey) (rn cn ns : String)
    (v : Fields N) : HelmCallStep .upgrade actor ⟨ns, rn⟩ w (helmUpgrade r f w actor rn cn ns v).2 := by
  unfold helmUpgrade
  have h := upgrade_releases r.helm w.helm rn cn ns v f
  rcases e : r.helm.upgrade w.helm rn cn ns v f with ⟨res, hs⟩
  rw [e] at h
  exact helmCallStep_of w _ _ _ _ hs h

theorem helmUninstall_step (fault : Bool) (w : World N) (actor : ObjectKey) (rn ns : String) :
    HelmCallStep .uninstall actor ⟨ns, rn⟩ w (helmUninstall fault w actor rn ns).2 := by
  unfold helmUninstall
  have h := uninstall_releases w.helm rn ns fault
  rcases e : Client.uninstall w.helm rn ns fault with ⟨res, hs⟩
  rw [e] at h
  exact helmCallStep_of w _ _ _ _ hs h

theorem helmUninstall_ok {fault : Bool} {w : World N} {actor : ObjectKey} {rn ns : String}
    (h : (helmUninstall fault w actor rn ns).1 = .ok ()) :
    (helmUninstall fault w actor rn ns).2.helm.releases ⟨ns, rn⟩ = none :=
  uninstall_ok w.helm rn ns fault h

theorem helmUninstall_log (fault : Bool) (w : World N) (actor : ObjectKey) (rn ns : String) :
    (helmUninstall fault w actor rn ns).2.log =
      w.log ++ [⟨actor, .uninstall, ⟨ns, rn⟩, w.installedBy ⟨ns, rn⟩, (helmUninstall fault w actor rn ns).1.isOk⟩] :=
  rfl

theorem helmRelease_ok (up : Bool) (f : HelmFaults) (w : World N) (actor : ObjectKey) (rn cn ns : String)
    (v : Fields N) {info : ReleaseInfo}
    (h : ((if up then helmUpgrade r else helmInstall r) f w actor rn cn ns v).1 = .ok info) :
    ∃ rel, ((if up then helmUpgrade r else helmInstall r) f w actor rn cn ns v).2.helm.releases
      ⟨ns, rn⟩ = some rel ∧ info = releaseToInfo rel := by
  cases up
  · exact install_ok r.helm w.helm rn cn ns v f h
  · exact upgrade_ok r.helm w.helm rn cn ns v f h

theorem helmRelease_none (up : Bool) (w : World N) (actor : ObjectKey) (rn cn ns : String) (v : Fields N)
    {ch : Chart} (hl : r.helm.loadChart w.helm.charts cn = .ok ch) (hv : validateReleaseName rn = none)
    (hup : (w.helm.releases ⟨ns, rn⟩).isSome = up)
    (hp : ∀ cur, w.helm.releases ⟨ns, rn⟩ = some cur → isPending cur.status = false) :
    ∃ n, ((if up then helmUpgrade r else helmInstall r) .none w actor rn cn ns v).1 =
        .ok (releaseToInfo ⟨rn, ns, n, "deployed", ch, v⟩) ∧
      ((if up then helmUpgrade r else helmInstall r) .none w actor rn cn ns v).2.helm.releases ⟨ns, rn⟩ =
        some ⟨rn, ns, n, "deployed", ch, v⟩ := by
  rcases hk : w.helm.releases ⟨ns, rn⟩ with _ | cur <;> rw [hk] at hup <;> subst hup
  · exact ⟨1, by simp [helmInstall, install_none r.helm w.helm rn cn ns v hl hv hk, World.afterHelm]⟩
  · exact ⟨cur.version + 1, by
      simp [helmUpgrade, upgrade_none r.helm w.helm rn cn ns v hl hv hk (hp cur hk), World.afterHelm]⟩

theorem helmRelease_cluster (up : Bool) (f : HelmFaults) (w : World N) (actor : ObjectKey)
    (rn cn ns : String) (v : Fields N) :
    ((if up then helmUpgrade r else helmInstall r) f w actor rn cn ns v).2.cluster = w.cluster := by
  cases up
  · exact (helmInstall_step r f w actor rn cn ns v).cluster
  · exact (helmUpgrade_step r f w actor rn cn ns v).cluster

theorem applyRelease_shape (ctx : Ctx) (w : World N) (ad : AppDeployment) (up : Bool)
    (values : Fields N) (valuesHash : String) :
    ∃ w₂, HelmCallStep (if up then .upgrade else .install) ad.key ad.releaseKey w w₂ ∧
      ClusterOnly w₂ (applyRelease r ctx w ad up values valuesHash).2 := by
  unfold applyRelease
  dsimp only
  have hs : HelmCallStep (if up then .upgrade else .install) ad.key ad.releaseKey w
      ((if up then helmUpgrade r else helmInstall r) ctx.faults.helm w ad.key ad.releaseName
        ad.spec.appName ad.metadata.ns values).2 := by
    cases up
    · exact helmInstall_step ..
    · exact helmUpgrade_step ..
  generalize (if up then helmUpgrade r else helmInstall r) ctx.faults.helm w ad.key ad.releaseName
    ad.spec.appName ad.metadata.ns values = res at hs ⊢
  obtain ⟨info | e | p, w₂⟩ := res
  · exact ⟨w₂, hs, updateStatusDeployed_clusterOnly ..⟩
  · exact ⟨w₂, hs, updateStatusFailed_clusterOnly ..⟩
  · exact ⟨w₂, hs, .refl w₂⟩

theorem installOrUpgrade_shape (ctx : Ctx) (w : World N) (ad : AppDeployment) (up : Bool)
    (values : Fields N) (valuesHash : String) (hst : w.cluster.appDeployments ad.key = some ad) :
    ClusterOnly w (installOrUpgrade r ctx w ad up values valuesHash).2 ∨
    ∃ w₁ w₂, ClusterOnly w w₁ ∧ HelmCallStep (if up then .upgrade else .install) ad.key ad.releaseKey w₁ w₂ ∧
      ClusterOnly w₂ (installOrUpgrade r ctx w ad up values valuesHash).2 := by
  unfold installOrUpgrade
  dsimp only
  have h₁ := updateStatusPhase_clusterOnly ctx w ad (if up then .upgrading else .installing)
    (if up then "Upgrading Helm chart" else "Installing Helm chart")
  split
  · rename_i heq
    rw [heq] at h₁
    exact .inl h₁
  · rename_i ad' w₁ heq
    rw [heq] at h₁
    obtain ⟨had', -⟩ := updateStatusPhase_current ctx w ad _ _ hst heq
    obtain ⟨w₂, hs, h₂⟩ := applyRelease_shape r ctx w₁ ad' up _ _
    rw [show ad'.key = ad.key by rw [had']; rfl,
      show ad'.releaseKey = ad.releaseKey by rw [had']; rfl] at hs
    exact .inr ⟨w₁, w₂, h₁, hs, h₂⟩

theorem reconcileHelm_shape (ctx : Ctx) (w : World N) (ad : AppDeployment)
    (hst : w.cluster.appDeployments ad.key = some ad) :
    ClusterOnly w (reconcileHelm r ctx w ad).2 ∨
    ∃ op w₁ w₂, (op = .install ∨ (op = .upgrade ∧ (w.helm.releases ad.releaseKey).isSome)) ∧
      ClusterOnly w w₁ ∧ HelmCallStep op ad.key ad.releaseKey w₁ w₂ ∧
      ClusterOnly w₂ (reconcileHelm r ctx w ad).2 := by
  unfold reconcileHelm
  dsimp only
  split
  · exact .inl (updateStatusFailed_clusterOnly ..)
  split
  · exact .inl (updateStatusFailed_clusterOnly ..)
  split
  · exact .inl (updateStatusFailed_clusterOnly ..)
  · rcases installOrUpgrade_shape r ctx w ad false _ _ hst with h | ⟨w₁, w₂, h₁, hs, h₂⟩
    · exact .inl h
    · exact .inr ⟨.install, w₁, w₂, .inl rfl, h₁, hs, h₂⟩
  · rename_i existing hget
    have hex : (w.helm.releases ad.releaseKey).isSome := by
      simp only [Client.getRelease] at hget
      split_ifs at hget
      cases h : w.helm.releases ad.releaseKey <;> simp_all [AppDeployment.releaseKey]
    split
    · rcases installOrUpgrade_shape r ctx w ad true _ _ hst with h | ⟨w₁, w₂, h₁, hs, h₂⟩
      · exact .inl h
      · exact .inr ⟨.upgrade, w₁, w₂, .inr ⟨rfl, hex⟩, h₁, hs, h₂⟩
    · exact .inl (updateStatusDeployed_clusterOnly ..)

theorem reconcileDelete_shape (ctx : Ctx) (w : World N) (ad : AppDeployment)
    (hst : w.cluster.appDeployments ad.key = some ad) :
    ClusterOnly w (reconcileDelete ctx w ad).2 ∨
    ∃ w₁ w₂, ad.hasFinalizer ∧ (w.helm.releases ad.releaseKey).isSome ∧ ClusterOnly w w₁ ∧
      HelmCallStep .uninstall ad.key ad.releaseKey w₁ w₂ ∧ ClusterOnly w₂ (reconcileDelete ctx w ad).2 := by
  unfold reconcileDelete
  dsimp only
  split
  · exact .inl (.refl w)
  rename_i hfin
  have h₁ := updateStatusPhase_clusterOnly ctx w ad .uninstalling "Uninstalling Helm release"
  split
  · rename_i heq
    rw [heq] at h₁
    exact .inl h₁
  rename_i ad' w₁ heq
  rw [heq] at h₁
  obtain ⟨had', hst₁, -⟩ := updateStatusPhase_current ctx w ad _ _ hst heq
  have hk : ad'.key = ad.key := by rw [had']; rfl
  have hns : ad'.metadata.ns = ad.metadata.ns := by rw [had']; rfl
  split
  · exact .inl h₁
  rename_i found hex
  have hfinish (w' : World N) (hw' : w'.cluster = w₁.cluster) : ClusterOnly w'
      (match w'.update ctx.faults.update (removeFinalizer ad') with
        | (some e, _, w) => (failedWith e.toString, w)
        | (none, _, w) => (done, w)).2 := by
    have h := World.update_clusterOnly w' ctx.faults.update (removeFinalizer ad') fun cur hc ↦ by
      rw [hw', removeFinalizer_key, hk, hst₁] at hc
      cases hc; exact ⟨rfl, rfl⟩
    split <;> rename_i heq <;> rw [heq] at h <;> exact h
  cases found
  · exact .inl (h₁.trans (hfinish w₁ rfl))
  simp only [if_true]
  have hs := helmUninstall_step ctx.faults.helm.run w₁ ad'.key ad.releaseName ad'.metadata.ns
  have hsome : (w.helm.releases ad.releaseKey).isSome := by
    simp only [Client.releaseExists, Client.getRelease] at hex
    split_ifs at hex
    · simp [Except.map] at hex
    · simp [Except.map] at hex
    · have hh : w₁.helm = w.helm := h₁.helm
      simpa [Except.map, hh, AppDeployment.releaseKey, hns] using hex
  rcases e : helmUninstall ctx.faults.helm.run w₁ ad'.key ad.releaseName ad'.metadata.ns with
    ⟨_ | _, w₂⟩ <;> rw [e] at hs <;> rw [hk, hns] at hs <;>
    refine .inr ⟨w₁, w₂, by simpa using hfin, hsome, h₁, hs, ?_⟩
  · exact .refl w₂
  · exact hfinish w₂ hs.cluster

/-- The guard a pass checked before a Helm call of kind `op` for the record `ad` it
fetched from `w`. -/
def OpGuard (op : HelmOp) (ad : AppDeployment) (w : World N) : Prop :=
  match op with
  | .install => ad.metadata.deletionTimestamp = none ∧ ad.hasFinalizer ∧ ad.spec.suspend = false
  | .upgrade => ad.metadata.deletionTimestamp = none ∧ ad.hasFinalizer ∧ ad.spec.suspend = false ∧
      (w.helm.releases ad.releaseKey).isSome
  | .uninstall => ad.metadata.deletionTimestamp.isSome ∧ ad.hasFinalizer ∧
      (w.helm.releases ad.releaseKey).isSome

theorem OpGuard.release_isSome {op : HelmOp} {ad : AppDeployment} {w : World N} (h : OpGuard op ad w)
    (hop : op ≠ .install) : (w.helm.releases ad.releaseKey).isSome := by
  cases op
  · exact absurd rfl hop
  · exact h.2.2.2
  · exact h.2.2

/-- What one pass on `key` can do to Helm: nothing, or a single call on the release
of the record it fetched, on that record's behalf, after that call's guard. -/
theorem reconcile_shape (ctx : Ctx) (w : World N) (key : ObjectKey) :
    ClusterOnly w (reconcile r ctx w key).2 ∨
    ∃ ad op w₁ w₂, w.cluster.appDeployments key = some ad ∧ OpGuard op ad w ∧ ClusterOnly w w₁ ∧
      HelmCallStep op ad.key ad.releaseKey w₁ w₂ ∧ ClusterOnly w₂ (reconcile r ctx w key).2 := by
  unfold reconcile
  split
  · exact .inl (.refl w)
  split
  · exact .inl (.refl w)
  rename_i ad hget
  have hst : w.cluster.appDeployments ad.key = some ad := Cluster.lookup_own_key hget
  split
  · rename_i hdel
    rcases reconcileDelete_shape ctx w ad hst with h | ⟨w₁, w₂, hfin, hex, h₁, hs, h₂⟩
    · exact .inl h
    · exact .inr ⟨ad, .uninstall, w₁, w₂, hget, ⟨hdel, hfin, hex⟩, h₁, hs, h₂⟩
  rename_i hdel
  split
  · have h := World.update_clusterOnly w ctx.faults.update (addFinalizer ad) fun cur hc ↦ by
      rw [addFinalizer_key, hst] at hc
      cases hc; simp
    split <;> rename_i heq <;> rw [heq] at h <;> exact .inl h
  rename_i hfin
  split
  · exact .inl (.refl w)
  rename_i hsus
  have hdel' : ad.metadata.deletionTimestamp = none := by simpa using hdel
  have hfin' : ad.hasFinalizer := by simpa using hfin
  have hsus' : ad.spec.suspend = false := by simpa using hsus
  rcases reconcileHelm_shape r ctx w ad hst with h | ⟨op, w₁, w₂, hop, h₁, hs, h₂⟩
  · exact .inl h
  · refine .inr ⟨ad, op, w₁, w₂, hget, ?_, h₁, hs, h₂⟩
    rcases hop with rfl | ⟨rfl, hex⟩
    · exact ⟨hdel', hfin', hsus'⟩
    · exact ⟨hdel', hfin', hsus', hex⟩

end Appstore.Controller
