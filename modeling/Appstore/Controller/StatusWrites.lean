import Appstore.Controller.Ownership

namespace Appstore.Controller

open Appstore.Api Appstore.Kube Appstore.Helm

def conditionStatus (type : String) (cs : List Condition) : Option Bool :=
  (cs.find? (·.type = type)).map (·.status)

theorem conditionStatus_setStatusCondition (t : String) (c : Condition) (cs : List Condition) :
    conditionStatus t (setStatusCondition c cs) = if c.type = t then some c.status else conditionStatus t cs := by
  induction cs with
  | nil => by_cases h : c.type = t <;> simp [setStatusCondition, conditionStatus, h]
  | cons x xs ih =>
    by_cases hx : x.type = c.type
    · by_cases h : c.type = t <;> simp [setStatusCondition, conditionStatus, hx, h]
    · by_cases h : x.type = t
      · have hc : t ≠ c.type := fun e ↦ hx (h.trans e)
        simp [setStatusCondition, conditionStatus, hx, h, hc, Ne.symm hc]
      · simpa [setStatusCondition, conditionStatus, hx, h] using ih

/-- The conditions agree with a settled phase: `Deployed` has `Ready=True` and
`Reconciling=False`, `Failed` has `Ready=False`. -/
def ReadyAgrees (s : AppDeploymentStatus) : Prop :=
  (s.phase = some .deployed → conditionStatus conditionTypeReady s.conditions = some true ∧
    conditionStatus conditionTypeReconciling s.conditions = some false) ∧
  (s.phase = some .failed → conditionStatus conditionTypeReady s.conditions = some false)

theorem deployedStatus_readyAgrees (now : Nat) (ad : AppDeployment) (info : ReleaseInfo) (h : String) :
    ReadyAgrees (deployedStatus now ad info h) := by
  simp [ReadyAgrees, deployedStatus, conditionStatus_setStatusCondition, conditionTypeReady,
    conditionTypeReconciling]

theorem failedStatus_readyAgrees (now : Nat) (ad : AppDeployment) (m : String) :
    ReadyAgrees (failedStatus now ad m) := by
  simp [ReadyAgrees, failedStatus, conditionStatus_setStatusCondition]

theorem phaseStatus_readyAgrees (now : Nat) (ad : AppDeployment) {p : AppDeploymentPhase} (m : String)
    (hd : p ≠ .deployed) (hf : p ≠ .failed) : ReadyAgrees (phaseStatus now ad p m) := by
  simp [ReadyAgrees, phaseStatus, hd, hf]

/-- What a pass on the record at `key` may do to the store: it changes no other
record, and every record it leaves has a status that agrees or the status it had. -/
structure PassWrites (key : ObjectKey) (c c' : Cluster) : Prop where
  frame : ∀ k, k ≠ key → c'.appDeployments k = c.appDeployments k
  status : ∀ k x', c'.appDeployments k = some x' →
    ReadyAgrees x'.status ∨ ∃ x, c.appDeployments k = some x ∧ x.status = x'.status

namespace PassWrites

theorem refl (key : ObjectKey) (c : Cluster) : PassWrites key c c :=
  ⟨fun _ _ ↦ rfl, fun _ x h ↦ .inr ⟨x, h, rfl⟩⟩

theorem trans {key : ObjectKey} {c₁ c₂ c₃ : Cluster} (h₁ : PassWrites key c₁ c₂) (h₂ : PassWrites key c₂ c₃) :
    PassWrites key c₁ c₃ where
  frame k hk := (h₂.frame k hk).trans (h₁.frame k hk)
  status k x₃ h := by
    rcases h₂.status k x₃ h with h | ⟨x₂, hx₂, e₂⟩
    · exact .inl h
    rcases h₁.status k x₂ hx₂ with h | ⟨x₁, hx₁, e₁⟩
    · exact .inl (e₂ ▸ h)
    · exact .inr ⟨x₁, hx₁, e₁.trans e₂⟩

theorem put {c : Cluster} {x : AppDeployment} (hx : x.Storable)
    (hs : ReadyAgrees x.status ∨ ∃ cur, c.appDeployments x.key = some cur ∧ cur.status = x.status) :
    PassWrites x.key c (c.put x hx) where
  frame k hk := by rw [Cluster.put_apply, if_neg hk]
  status k x' h := by
    rw [Cluster.put_apply] at h
    split_ifs at h with hk
    · cases h; exact hk ▸ hs
    · exact .inr ⟨x', h, rfl⟩

theorem remove (c : Cluster) (key : ObjectKey) (r : Nat) : PassWrites key c { c.remove key with revision := r } where
  frame k hk := by
    show (c.remove key).appDeployments k = _
    rw [Cluster.remove_apply, if_neg hk]
  status k x' h := by
    change (c.remove key).appDeployments k = some x' at h
    rw [Cluster.remove_apply] at h
    split_ifs at h
    exact .inr ⟨x', h, rfl⟩

end PassWrites

theorem Cluster.updateStatus_passWrites {c c' : Cluster} {ad ad' : AppDeployment}
    (h : c.updateStatus ad = .ok (ad', c')) (hs : ReadyAgrees ad.status) : PassWrites ad.key c c' := by
  unfold Cluster.updateStatus at h
  split at h
  · cases h
  rename_i cur hcur
  have hk : cur.key = ad.key := c.keyed _ cur hcur
  split_ifs at h <;> cases h
  · exact .refl _ c
  · have hw := PassWrites.put (c := c) (x := ({ cur with status := ad.status } : AppDeployment).withRV
      (c.revision + 1)) (c.storable ad.key cur hcur) (.inl hs)
    rw [show (({ cur with status := ad.status } : AppDeployment).withRV (c.revision + 1)).key = ad.key from hk] at hw
    exact ⟨hw.frame, hw.status⟩

theorem Cluster.update_passWrites {c c' : Cluster} {ad ad' : AppDeployment} (h : c.update ad = .ok (ad', c')) :
    PassWrites ad.key c c' := by
  unfold Cluster.update at h
  split at h
  · cases h
  rename_i cur hcur
  have hk : cur.key = ad.key := c.keyed _ cur hcur
  split_ifs at h
  split at h
  · cases h
  dsimp only at h
  split_ifs at h with hnew hrm <;> cases h
  · exact .refl _ c
  · exact PassWrites.remove c ad.key _
  · have hw := PassWrites.put (c := c) (x := (Cluster.updated cur ad).withRV (c.revision + 1))
      (fun hd hf ↦ hrm ⟨hd, hf⟩) (.inr ⟨cur, hk ▸ hcur, rfl⟩)
    rw [show ((Cluster.updated cur ad).withRV (c.revision + 1)).key = ad.key from hk] at hw
    exact ⟨hw.frame, hw.status⟩

theorem PassWrites.write {c : Cluster} {x : AppDeployment} {key : ObjectKey} (hx : x.Storable) (hk : x.key = key)
    (hs : ReadyAgrees x.status ∨ ∃ cur, c.appDeployments key = some cur ∧ cur.status = x.status) :
    PassWrites key c (c.write x hx).2 := by
  subst hk
  have hw := PassWrites.put (c := c) (x := x.withRV (c.revision + 1)) hx hs
  exact ⟨hw.frame, hw.status⟩

theorem Cluster.create_passWrites {c c' : Cluster} {ad ad' : AppDeployment} (h : c.create ad = .ok (ad', c')) :
    PassWrites ad.key c c' := by
  unfold Cluster.create at h
  split_ifs at h <;> rcases hv : validate ad with _ | d <;> simp only [hv] at h <;> cases h
  exact PassWrites.write _ rfl (.inl (by simp [ReadyAgrees, AppDeploymentStatus.empty]))

theorem Cluster.delete_passWrites {c c' : Cluster} {k : ObjectKey} (h : c.delete k = .ok c') : PassWrites k c c' := by
  unfold Cluster.delete at h
  split at h
  · cases h
  rename_i cur hcur
  have hk : cur.key = k := c.keyed _ cur hcur
  split_ifs at h <;> cases h
  · exact PassWrites.remove c k _
  · exact .refl _ c
  · exact PassWrites.write _ hk (.inr ⟨cur, hcur, rfl⟩)

variable {N : Type}

theorem World.updateStatus_passWrites (w : World N) (f : Bool) (ad : AppDeployment) (hs : ReadyAgrees ad.status) :
    PassWrites ad.key w.cluster (w.updateStatus f ad).2.2.cluster := by
  unfold World.updateStatus
  split
  · exact .refl _ _
  split
  · exact .refl _ _
  · exact Cluster.updateStatus_passWrites ‹_› hs

theorem World.update_passWrites (w : World N) (f : Bool) (ad : AppDeployment) :
    PassWrites ad.key w.cluster (w.update f ad).2.2.cluster := by
  unfold World.update
  split
  · exact .refl _ _
  split
  · exact .refl _ _
  · exact Cluster.update_passWrites ‹_›

theorem World.updateStatus_key (w : World N) (f : Bool) (ad : AppDeployment) :
    (w.updateStatus f ad).2.1.key = ad.key := by
  unfold World.updateStatus
  split
  · rfl
  split
  · rfl
  · exact Cluster.updateStatus_ok_key ‹_›

theorem updateStatusPhase_passWrites (ctx : Ctx) (w : World N) (ad : AppDeployment) {p : AppDeploymentPhase}
    (m : String) (hd : p ≠ .deployed) (hf : p ≠ .failed) :
    PassWrites ad.key w.cluster (updateStatusPhase ctx w ad p m).2.2.cluster :=
  World.updateStatus_passWrites w _ { ad with status := phaseStatus ctx.now ad p m }
    (phaseStatus_readyAgrees ctx.now ad m hd hf)

theorem updateStatusPhase_key (ctx : Ctx) (w : World N) (ad : AppDeployment) (p : AppDeploymentPhase) (m : String) :
    (updateStatusPhase ctx w ad p m).2.1.key = ad.key :=
  World.updateStatus_key w _ _

theorem updateStatusDeployed_passWrites (ctx : Ctx) (w : World N) (ad : AppDeployment) (info : ReleaseInfo)
    (h : String) : PassWrites ad.key w.cluster (updateStatusDeployed ctx w ad info h).2.cluster := by
  rw [updateStatusDeployed, writeStatus_world]
  exact World.updateStatus_passWrites w _ { ad with status := deployedStatus ctx.now ad info h }
    (deployedStatus_readyAgrees ..)

theorem updateStatusFailed_passWrites (ctx : Ctx) (w : World N) (ad : AppDeployment) (m : String) :
    PassWrites ad.key w.cluster (updateStatusFailed ctx w ad m).2.cluster := by
  rw [updateStatusFailed, writeStatus_world]
  exact World.updateStatus_passWrites w _ { ad with status := failedStatus ctx.now ad m }
    (failedStatus_readyAgrees ..)

variable (r : Reconciler N)

theorem applyRelease_passWrites (ctx : Ctx) (w : World N) (ad : AppDeployment) (up : Bool) (values : Json.Fields N)
    (valuesHash : String) : PassWrites ad.key w.cluster (applyRelease r ctx w ad up values valuesHash).2.cluster := by
  have hc := helmRelease_cluster r up ctx.faults.helm w ad.key ad.releaseName ad.spec.appName ad.metadata.ns
    values
  unfold applyRelease
  dsimp only
  generalize (if up then helmUpgrade r else helmInstall r) ctx.faults.helm w ad.key ad.releaseName ad.spec.appName
    ad.metadata.ns values = res at hc ⊢
  obtain ⟨info | e | p, w₂⟩ := res <;> dsimp only at hc ⊢ <;> rw [← hc]
  · exact updateStatusDeployed_passWrites ..
  · exact updateStatusFailed_passWrites ..
  · exact .refl _ _

theorem installOrUpgrade_passWrites (ctx : Ctx) (w : World N) (ad : AppDeployment) (up : Bool)
    (values : Json.Fields N) (valuesHash : String) :
    PassWrites ad.key w.cluster (installOrUpgrade r ctx w ad up values valuesHash).2.cluster := by
  have h₁ := updateStatusPhase_passWrites ctx w ad (p := if up then .upgrading else .installing)
    (if up then "Upgrading Helm chart" else "Installing Helm chart") (by cases up <;> decide)
    (by cases up <;> decide)
  have hk := updateStatusPhase_key ctx w ad (if up then .upgrading else .installing)
    (if up then "Upgrading Helm chart" else "Installing Helm chart")
  unfold installOrUpgrade
  dsimp only
  generalize updateStatusPhase ctx w ad (if up then .upgrading else .installing)
    (if up then "Upgrading Helm chart" else "Installing Helm chart") = res at h₁ hk ⊢
  obtain ⟨_ | e, ad', w₁⟩ := res
  · exact h₁.trans (hk ▸ applyRelease_passWrites r ..)
  · exact h₁

theorem reconcileHelm_passWrites (ctx : Ctx) (w : World N) (ad : AppDeployment) :
    PassWrites ad.key w.cluster (reconcileHelm r ctx w ad).2.cluster := by
  unfold reconcileHelm
  dsimp only
  split
  · exact updateStatusFailed_passWrites ..
  split
  · exact updateStatusFailed_passWrites ..
  split
  · exact updateStatusFailed_passWrites ..
  · exact installOrUpgrade_passWrites r ..
  · split
    · exact installOrUpgrade_passWrites r ..
    · exact updateStatusDeployed_passWrites ..

theorem reconcileDelete_passWrites (ctx : Ctx) (w : World N) (ad : AppDeployment) :
    PassWrites ad.key w.cluster (reconcileDelete ctx w ad).2.cluster := by
  have h₁ := updateStatusPhase_passWrites ctx w ad (p := .uninstalling) "Uninstalling Helm release" nofun nofun
  have hk := World.updateStatus_key w ctx.faults.statusPhase
    { ad with status := phaseStatus ctx.now ad .uninstalling "Uninstalling Helm release" }
  unfold reconcileDelete
  dsimp only
  split
  · exact .refl _ _
  unfold updateStatusPhase at h₁ ⊢
  split <;> rename_i heq <;> rw [heq] at h₁ hk
  · exact h₁
  rename_i ad' w₁
  have hfinish (w₂ : World N) (hw : w₂.cluster = w₁.cluster) : PassWrites ad.key w.cluster
      (match w₂.update ctx.faults.update (removeFinalizer ad') with
        | (some e, _, w) => (failedWith e.toString, w)
        | (none, _, w) => (done, w)).2.cluster := by
    have h₂ := World.update_passWrites w₂ ctx.faults.update (removeFinalizer ad')
    rw [removeFinalizer_key, hk, hw] at h₂
    split <;> rename_i heq' <;> rw [heq'] at h₂ <;> exact h₁.trans h₂
  split
  · exact h₁
  rename_i found _
  cases found
  · exact hfinish w₁ rfl
  · simp only [if_true]
    have hs := helmUninstall_step ctx.faults.helm.run w₁ ad'.key ad.releaseName ad'.metadata.ns
    rcases e : helmUninstall ctx.faults.helm.run w₁ ad'.key ad.releaseName ad'.metadata.ns with ⟨_ | _, w₂⟩ <;>
      rw [e] at hs
    · exact hs.cluster ▸ h₁
    · exact hfinish w₂ hs.cluster

theorem reconcile_passWrites (ctx : Ctx) (w : World N) (key : ObjectKey) :
    PassWrites key w.cluster (reconcile r ctx w key).2.cluster := by
  unfold reconcile
  split
  · exact .refl _ _
  split
  · exact .refl _ _
  rename_i ad hget
  have hk : ad.key = key := w.cluster.keyed key ad hget
  subst hk
  split
  · exact reconcileDelete_passWrites ..
  split
  · have h := World.update_passWrites w ctx.faults.update (addFinalizer ad)
    rw [addFinalizer_key] at h
    split <;> rename_i heq <;> rw [heq] at h <;> exact h
  split
  · exact .refl _ _
  · exact reconcileHelm_passWrites r ..

/-- Every record of `c` that carries the finalizer is still stored in `c'`, with it:
what status writes leave of the store. -/
def FinalizerHeld (c c' : Cluster) : Prop :=
  ∀ k x, c.appDeployments k = some x → x.hasFinalizer → ∃ y, c'.appDeployments k = some y ∧ y.hasFinalizer

namespace FinalizerHeld

theorem refl (c : Cluster) : FinalizerHeld c c := fun _ x hx hf ↦ ⟨x, hx, hf⟩

theorem trans {c₁ c₂ c₃ : Cluster} (h₁ : FinalizerHeld c₁ c₂) (h₂ : FinalizerHeld c₂ c₃) :
    FinalizerHeld c₁ c₃ :=
  fun k x hx hf ↦
    let ⟨y, hy, hfy⟩ := h₁ k x hx hf
    h₂ k y hy hfy

theorem write {c : Cluster} {x : AppDeployment} (hx : x.Storable)
    (hf : ∀ cur, c.appDeployments x.key = some cur → cur.hasFinalizer → x.hasFinalizer) :
    FinalizerHeld c (c.write x hx).2 := fun k y hy hfy ↦ by
  rw [Cluster.write_apply]
  split_ifs with hk
  · exact ⟨_, rfl, hf y (hk ▸ hy) hfy⟩
  · exact ⟨y, hy, hfy⟩

theorem remove {c : Cluster} {k : ObjectKey} (r : Nat)
    (hk : ∀ cur, c.appDeployments k = some cur → cur.hasFinalizer = false) :
    FinalizerHeld c { c.remove k with revision := r } := fun k' x hx hf ↦ by
  refine ⟨x, ?_, hf⟩
  change (c.remove k).appDeployments k' = some x
  rw [Cluster.remove_apply, if_neg (by rintro rfl; simp [hk x hx] at hf)]
  exact hx

end FinalizerHeld

theorem Cluster.updateStatus_finalizerHeld {c c' : Cluster} {ad ad' : AppDeployment}
    (h : c.updateStatus ad = .ok (ad', c')) : FinalizerHeld c c' := by
  unfold Cluster.updateStatus at h
  split at h
  · cases h
  rename_i cur hcur
  split_ifs at h <;> cases h
  · exact .refl c
  · exact FinalizerHeld.write _ fun y hy hf ↦ by cases (Cluster.lookup_own_key hcur).symm.trans hy; exact hf

theorem World.updateStatus_finalizerHeld (w : World N) (f : Bool) (ad : AppDeployment) :
    FinalizerHeld w.cluster (w.updateStatus f ad).2.2.cluster := by
  unfold World.updateStatus
  split
  · exact .refl _
  split
  · exact .refl _
  · exact Cluster.updateStatus_finalizerHeld ‹_›

theorem writeStatus_finalizerHeld (f : Bool) (w : World N) (ad : AppDeployment) (after : Nat) :
    FinalizerHeld w.cluster (writeStatus f w ad after).2.cluster := by
  rw [writeStatus_world]
  exact World.updateStatus_finalizerHeld w f ad

theorem applyRelease_finalizerHeld (ctx : Ctx) (w : World N) (ad : AppDeployment) (up : Bool)
    (values : Json.Fields N) (valuesHash : String) :
    FinalizerHeld w.cluster (applyRelease r ctx w ad up values valuesHash).2.cluster := by
  have hc := helmRelease_cluster r up ctx.faults.helm w ad.key ad.releaseName ad.spec.appName ad.metadata.ns
    values
  unfold applyRelease
  dsimp only
  generalize (if up then helmUpgrade r else helmInstall r) ctx.faults.helm w ad.key ad.releaseName ad.spec.appName
    ad.metadata.ns values = res at hc ⊢
  obtain ⟨info | e | p, w₂⟩ := res <;> dsimp only at hc ⊢ <;> rw [← hc]
  · exact writeStatus_finalizerHeld _ _ _ _
  · exact writeStatus_finalizerHeld _ _ _ _
  · exact .refl _

theorem installOrUpgrade_finalizerHeld (ctx : Ctx) (w : World N) (ad : AppDeployment) (up : Bool)
    (values : Json.Fields N) (valuesHash : String) :
    FinalizerHeld w.cluster (installOrUpgrade r ctx w ad up values valuesHash).2.cluster := by
  have h₁ : FinalizerHeld w.cluster (updateStatusPhase ctx w ad (if up then .upgrading else .installing)
      (if up then "Upgrading Helm chart" else "Installing Helm chart")).2.2.cluster :=
    World.updateStatus_finalizerHeld _ _ _
  unfold installOrUpgrade
  dsimp only
  generalize updateStatusPhase ctx w ad (if up then .upgrading else .installing)
    (if up then "Upgrading Helm chart" else "Installing Helm chart") = res at h₁ ⊢
  obtain ⟨_ | e, ad', w₁⟩ := res
  · exact h₁.trans (applyRelease_finalizerHeld r _ _ _ _ _ _)
  · exact h₁

theorem reconcileHelm_finalizerHeld (ctx : Ctx) (w : World N) (ad : AppDeployment) :
    FinalizerHeld w.cluster (reconcileHelm r ctx w ad).2.cluster := by
  unfold reconcileHelm
  dsimp only
  split
  · exact writeStatus_finalizerHeld _ _ _ _
  split
  · exact writeStatus_finalizerHeld _ _ _ _
  split
  · exact writeStatus_finalizerHeld _ _ _ _
  · exact installOrUpgrade_finalizerHeld r _ _ _ _ _ _
  · split
    · exact installOrUpgrade_finalizerHeld r _ _ _ _ _ _
    · exact writeStatus_finalizerHeld _ _ _ _

def StatusAgree (c : Cluster) : Prop := ∀ k x, c.appDeployments k = some x → ReadyAgrees x.status

theorem PassWrites.statusAgree {key : ObjectKey} {c c' : Cluster} (h : PassWrites key c c') (hc : StatusAgree c) :
    StatusAgree c' := fun k x' hx ↦ by
  rcases h.status k x' hx with h | ⟨x, hx₀, e⟩
  · exact h
  · exact e ▸ hc k x hx₀

/-- In every run of passes from a store whose records agree, every stored record
has `Ready=True` and `Reconciling=False` when its phase is `Deployed`, and
`Ready=False` when it is `Failed`. -/
theorem runPasses_statusAgree (w : World N) (ps : List (Ctx × ObjectKey)) (h : StatusAgree w.cluster) :
    StatusAgree (runPasses r w ps).cluster := by
  induction ps generalizing w with
  | nil => exact h
  | cons p ps ih => exact ih _ ((reconcile_passWrites r p.1 w p.2).statusAgree h)

def installFails : Ctx := ⟨1, ⟨false, false, false, false, fun _ ↦ false, false, ⟨false, true, false⟩⟩⟩

def installThenFail : List (Ctx × ObjectKey) :=
  [(⟨0, .none⟩, ⟨"team-a", "db"⟩), (installFails, ⟨"team-a", "db"⟩)]

/-- After a failed `Install` the record is stored `Failed` with `Ready=False`, and
with the `Reconciling=True` that `updateStatusPhase` set before the call. -/
theorem failed_install_keeps_reconciling :
    ((runPasses mirrorOnly (worldOf [postgresRecord "db" ""]) installThenFail).cluster.appDeployments
      ⟨"team-a", "db"⟩).map (fun x ↦ (x.status.phase, conditionStatus conditionTypeReady x.status.conditions,
        conditionStatus conditionTypeReconciling x.status.conditions)) = some (some .failed, some false, some true) := by
  decide

end Appstore.Controller
