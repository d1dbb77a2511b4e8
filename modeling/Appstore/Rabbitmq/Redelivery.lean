import Appstore.Rabbitmq.Handler
import Appstore.Controller.Deletion

namespace Appstore.Rabbitmq

open Appstore.Api Appstore.Json Appstore.Kube Appstore.Controller

variable {N : Type} (nf : NumberFormat N)

/-- A decoded message of one of the three request kinds. -/
inductive Request (N : Type)
  | deploy (p : DeploymentRequestPayload N)
  | update (p : DeploymentUpdatePayload N)
  | delete (p : DeploymentDeletePayload)

def Request.handle : Request N → Cluster → HandleResult × Cluster
  | .deploy p, c => handleDeploymentRequest nf c p
  | .update p, c => handleDeploymentUpdate nf c p
  | .delete p, c => handleDeploymentDelete c p

/-- The record the message is about is still stored; for a deletion, always. -/
def Request.stillStored : Request N → Cluster → Bool
  | .deploy p, c => match requestName p with
    | some name => (c.appDeployments ⟨p.ns, name⟩).isSome
    | none => false
  | .update p, c => (c.appDeployments ⟨p.ns, p.name⟩).isSome
  | .delete _, _ => true

theorem Request.handle_unchanged (m : Request N) (c : Cluster) (h : (m.handle nf c).1 ≠ .ok) :
    (m.handle nf c).2 = c := by
  revert h
  cases m with
  | deploy p =>
    simp only [handle, handleDeploymentRequest]
    split
    · exact fun _ ↦ rfl
    · split <;> simp
  | update p =>
    simp only [handle, handleDeploymentUpdate, updateChecked]
    split
    · exact fun _ ↦ rfl
    · split <;> simp
  | delete p =>
    simp only [handle, handleDeploymentDelete, deleteChecked]
    split
    · exact fun _ ↦ rfl
    · split <;> simp

theorem reconcile_kept (r : Reconciler N) (ctx : Ctx) (w : World N) (key : ObjectKey) :
    Cluster.Kept w.cluster (reconcile r ctx w key).2.cluster := by
  rcases reconcile_shape r ctx w key with h | ⟨_ad, _op, w₁, w₂, -, -, h₁, hs, h₂⟩
  · exact h.kept
  · exact h₁.kept.trans (hs.cluster ▸ h₂.kept)

theorem runPasses_kept (r : Reconciler N) (w : World N) (ps : List (Ctx × ObjectKey)) :
    Cluster.Kept w.cluster (runPasses r w ps).cluster := by
  induction ps generalizing w with
  | nil => exact .refl _
  | cons p ps ih => exact (reconcile_kept r p.1 w p.2).trans (ih _)

theorem handleDeploymentRequest_ok {c : Cluster} {p : DeploymentRequestPayload N}
    (h : (handleDeploymentRequest nf c p).1 = .ok) :
    ∃ name, requestName p = some name ∧ p.ns ∈ c.namespaces ∧
      validate (requestAppDeployment nf p name) = none ∧
      (handleDeploymentRequest nf c p).2.namespaces = c.namespaces := by
  unfold handleDeploymentRequest at h ⊢
  rcases hn : requestName p with _ | name
  · simp [hn] at h
  simp only [hn] at h ⊢
  rcases hc : c.create (requestAppDeployment nf p name) with e | ⟨ad', c'⟩
  · have he : e = .alreadyExists := by cases e <;> simp_all
    subst he
    obtain ⟨hns, hv⟩ := Cluster.create_checks (.inr hc)
    exact ⟨name, rfl, hns, hv, rfl⟩
  · obtain ⟨hns, hv⟩ := Cluster.create_checks (.inl ⟨_, hc⟩)
    exact ⟨name, rfl, hns, hv, (Cluster.create_ok hc).2.2.2⟩

theorem deploy_again (c₀ c₂ : Cluster) (p : DeploymentRequestPayload N)
    (hok : (handleDeploymentRequest nf c₀ p).1 = .ok) (hk : Cluster.Kept (handleDeploymentRequest nf c₀ p).2 c₂)
    (hst : (Request.deploy p).stillStored c₂) : handleDeploymentRequest nf c₂ p = (.ok, c₂) := by
  obtain ⟨name, hn, hns, hv, hns₁⟩ := handleDeploymentRequest_ok nf hok
  have hns₂ : p.ns ∈ c₂.namespaces := by rw [hk.namespaces, hns₁]; exact hns
  simp only [Request.stillStored, hn] at hst
  simp only [handleDeploymentRequest, hn, Cluster.create_taken hns₂ hv hst]

theorem applyUpdate_teamId (p : DeploymentUpdatePayload N) (x : AppDeployment) :
    (applyUpdate nf p x).spec.teamId = x.spec.teamId := by
  unfold applyUpdate
  split_ifs <;> cases p.values <;> rfl

theorem applyUpdate_fixed (p : DeploymentUpdatePayload N) {x y : AppDeployment}
    (h : y.spec = (applyUpdate nf p x).spec) : applyUpdate nf p y = y := by
  obtain ⟨ym, ys, yst⟩ := y
  simp only at h
  subst h
  unfold applyUpdate
  rcases p.values with _ | v <;> by_cases hv : p.version = "" <;> simp [hv]

theorem handleDeploymentUpdate_ok {c : Cluster} {p : DeploymentUpdatePayload N}
    (h : (handleDeploymentUpdate nf c p).1 = .ok) :
    ∃ x, c.appDeployments ⟨p.ns, p.name⟩ = some x ∧ x.spec.teamId = p.teamId ∧
      validate (applyUpdate nf p x) = none ∧
      ∀ y, (handleDeploymentUpdate nf c p).2.appDeployments ⟨p.ns, p.name⟩ = some y →
        y.spec = (applyUpdate nf p x).spec ∧ y.metadata.labels = x.metadata.labels := by
  unfold handleDeploymentUpdate at h ⊢
  rcases hchk : checkUpdate nf c p with r | ad <;> simp only [hchk] at h ⊢
  · obtain ⟨e, rfl⟩ := checkUpdate_error nf hchk
    cases h
  obtain ⟨x, hx, hteam, rfl⟩ := checkUpdate_ok nf hchk
  have hkey : (applyUpdate nf p x).key = ⟨p.ns, p.name⟩ := c.keyed _ x hx
  unfold updateChecked at h ⊢
  split at h
  · rename_i hu
    obtain ⟨hv, hst⟩ := Cluster.update_ok_stored hu
    exact ⟨x, hx, hteam, hv, fun y hy ↦ hst y (hkey ▸ hy)⟩
  · cases h

theorem update_again (c₀ c₂ : Cluster) (p : DeploymentUpdatePayload N)
    (hok : (handleDeploymentUpdate nf c₀ p).1 = .ok) (hk : Cluster.Kept (handleDeploymentUpdate nf c₀ p).2 c₂)
    (hst : (Request.update p).stillStored c₂) : handleDeploymentUpdate nf c₂ p = (.ok, c₂) := by
  obtain ⟨x, hx, hteam, hv, hstored⟩ := handleDeploymentUpdate_ok nf hok
  obtain ⟨y, hy⟩ := Option.isSome_iff_exists.1 hst
  obtain ⟨y₁, hy₁, hkept⟩ := hk.records _ y hy
  obtain ⟨hs₁, hl₁⟩ := hstored y₁ hy₁
  have hspec : y.spec = (applyUpdate nf p x).spec := hkept.spec.trans hs₁
  have hname : y.metadata.name = x.metadata.name := by
    have := (c₂.keyed _ y hy).trans (c₀.keyed _ x hx).symm
    simp only [AppDeployment.key, ObjectKey.mk.injEq] at this
    exact this.2
  have hvy : validate y = none :=
    (@Cluster.validate_congr (applyUpdate nf p x) y hname (hkept.labels.trans hl₁) hspec).trans hv
  have hteam' : y.spec.teamId = p.teamId := by rw [hspec, applyUpdate_teamId]; exact hteam
  have hchk : checkUpdate nf c₂ p = .ok y := by
    simp [checkUpdate, Cluster.get, hy, hteam', applyUpdate_fixed nf p hspec]
  simp only [handleDeploymentUpdate, hchk, updateChecked,
    Cluster.update_self (Cluster.lookup_own_key hy) hvy]

theorem handleDeploymentDelete_ok {c : Cluster} {p : DeploymentDeletePayload}
    (h : (handleDeploymentDelete c p).1 = .ok) (y : AppDeployment)
    (hy : (handleDeploymentDelete c p).2.appDeployments ⟨p.ns, p.name⟩ = some y) :
    y.metadata.deletionTimestamp.isSome ∧ y.spec.teamId = p.teamId := by
  unfold handleDeploymentDelete at h hy
  rcases hchk : checkDelete c p with r | ad <;> simp only [hchk] at h hy
  · rcases checkDelete_error hchk with ⟨-, habs⟩ | ⟨e, rfl⟩
    · rw [habs] at hy; cases hy
    · cases h
  obtain ⟨had, hteam⟩ := checkDelete_ok hchk
  have hkey : ad.key = ⟨p.ns, p.name⟩ := c.keyed _ ad had
  unfold deleteChecked at h hy
  split at h
  · rename_i hd
    rw [hd] at hy
    obtain ⟨hdt, hs⟩ := Cluster.delete_ok_terminating hd y (hkey ▸ hy)
    exact ⟨hdt, (hs ad (hkey ▸ had)).symm ▸ hteam⟩
  · rename_i hd
    simp only [Cluster.delete, Cluster.lookup_own_key had] at hd
    split_ifs at hd
  · cases h

theorem delete_again (c₀ c₂ : Cluster) (p : DeploymentDeletePayload)
    (hok : (handleDeploymentDelete c₀ p).1 = .ok) (hk : Cluster.Kept (handleDeploymentDelete c₀ p).2 c₂) :
    handleDeploymentDelete c₂ p = (.ok, c₂) := by
  rcases hy : c₂.appDeployments ⟨p.ns, p.name⟩ with _ | y
  · simp [handleDeploymentDelete, checkDelete, Cluster.get, hy]
  obtain ⟨y₁, hy₁, hkept⟩ := hk.records _ y hy
  obtain ⟨hdt, hteam⟩ := handleDeploymentDelete_ok hok y₁ hy₁
  have hchk : checkDelete c₂ p = .ok y := by
    simp [checkDelete, Cluster.get, hy, hkept.spec, hteam]
  have hkey : y.key = ⟨p.ns, p.name⟩ := c₂.keyed _ y hy
  simp only [handleDeploymentDelete, hchk, deleteChecked, hkey,
    Cluster.delete_terminating hy (hkept.deletionTimestamp ▸ hdt)]

/-- Handling a message again, after a first handling that returned `nil` and any
Reconcile passes since, returns `nil` and leaves the store as it found it, as long
as the record the message is about is still stored. A handling that does not
return `nil` leaves the store unchanged. -/
theorem redelivery_settles (r : Reconciler N) (m : Request N) (c₀ : Cluster) (w : World N)
    (ps : List (Ctx × ObjectKey)) (hok : (m.handle nf c₀).1 = .ok) (hw : w.cluster = (m.handle nf c₀).2)
    (hst : m.stillStored (runPasses r w ps).cluster) :
    m.handle nf (runPasses r w ps).cluster = (.ok, (runPasses r w ps).cluster) ∧
      ∀ c, (m.handle nf c).1 ≠ .ok → (m.handle nf c).2 = c := by
  have hk : Cluster.Kept (m.handle nf c₀).2 (runPasses r w ps).cluster := hw ▸ runPasses_kept r w ps
  refine ⟨?_, m.handle_unchanged nf⟩
  cases m with
  | deploy p => exact deploy_again nf c₀ _ p hok hk hst
  | update p => exact update_again nf c₀ _ p hok hk hst
  | delete p => exact delete_again c₀ _ p hok hk

def dbWorld : World Nat :=
  { worldOf [] with cluster := (handleDeploymentRequest decimalFormat (worldOf []).cluster (dbRequest "team-a")).2 }

def dbPass : Ctx × ObjectKey := (⟨0, .none⟩, ⟨"team-a", "db"⟩)

theorem db_redelivered_settles :
    ((Request.deploy (dbRequest "team-a")).handle decimalFormat (worldOf []).cluster).1 = .ok ∧
      (Request.deploy (dbRequest "team-a")).stillStored (runPasses mirrorOnly dbWorld [dbPass, dbPass]).cluster ∧
      ((Request.deploy (dbRequest "team-a")).handle decimalFormat (runPasses mirrorOnly dbWorld [dbPass, dbPass]).cluster =
        (.ok, (runPasses mirrorOnly dbWorld [dbPass, dbPass]).cluster) ∧
      ∀ c, ((Request.deploy (dbRequest "team-a")).handle decimalFormat c).1 ≠ .ok →
        ((Request.deploy (dbRequest "team-a")).handle decimalFormat c).2 = c) :=
  have hok : ((Request.deploy (dbRequest "team-a")).handle decimalFormat (worldOf []).cluster).1 = .ok := by
    decide
  have hst : (Request.deploy (dbRequest "team-a")).stillStored
      (runPasses mirrorOnly dbWorld [dbPass, dbPass]).cluster := by
    decide
  ⟨hok, hst, redelivery_settles decimalFormat mirrorOnly _ _ dbWorld _ hok rfl hst⟩

def dbUpgrade : DeploymentUpdatePayload Nat :=
  ⟨"8e4f1a6c-2b3d-4c5e-9f70-1a2b3c4d5e6f", "team-a", "user-1", "db", "team-a", "2.0.0", none⟩

def terminatingDb : World Nat := (runPasses mirrorOnly dbWorld [dbPass, dbPass]).delete ⟨"team-a", "db"⟩

theorem update_redelivered_after_finalization :
    let w := { terminatingDb with cluster := (handleDeploymentUpdate decimalFormat terminatingDb.cluster dbUpgrade).2 }
    (handleDeploymentUpdate decimalFormat terminatingDb.cluster dbUpgrade).1 = .ok ∧
      (handleDeploymentUpdate decimalFormat (runPasses mirrorOnly w [dbPass]).cluster dbUpgrade).1 =
        .error "AppDeployment not found: team-a/db" := by
  decide

end Appstore.Rabbitmq
