import Appstore.Kube.ApiServer

namespace Appstore.Kube

open Appstore.Api

/-- One write on the store by another client or by the controller. -/
inductive ClusterOp
  | create (ad : AppDeployment)
  | update (ad : AppDeployment)
  | updateStatus (ad : AppDeployment)
  | delete (k : ObjectKey)

namespace Cluster

def apply (c : Cluster) : ClusterOp → Cluster
  | .create ad => match c.create ad with
    | .ok (_, c') => c'
    | .error _ => c
  | .update ad => match c.update ad with
    | .ok (_, c') => c'
    | .error _ => c
  | .updateStatus ad => match c.updateStatus ad with
    | .ok (_, c') => c'
    | .error _ => c
  | .delete k => match c.delete k with
    | .ok c' => c'
    | .error _ => c

def applyAll (c : Cluster) (ops : List ClusterOp) : Cluster := ops.foldl apply c

@[simp] theorem applyAll_nil (c : Cluster) : c.applyAll [] = c := rfl

@[simp] theorem applyAll_cons (c : Cluster) (op : ClusterOp) (ops : List ClusterOp) :
    c.applyAll (op :: ops) = (c.apply op).applyAll ops := rfl

theorem applyAll_append (c : Cluster) (ops ops' : List ClusterOp) :
    c.applyAll (ops ++ ops') = (c.applyAll ops).applyAll ops' := List.foldl_append _ _ _ _

/-- At most one write: every object `c'` holds was in `c`, or was just written
under the next revision; no namespace is created or removed. -/
structure WriteStep (c c' : Cluster) : Prop where
  revision : c.revision ≤ c'.revision
  objects : ∀ k y, c'.appDeployments k = some y → c.appDeployments k = some y ∨
    (y.metadata.resourceVersion = c.revision + 1 ∧ c'.revision = c.revision + 1)
  namespaces : c'.namespaces = c.namespaces

theorem WriteStep.refl (c : Cluster) : WriteStep c c := ⟨le_rfl, fun _ _ h ↦ .inl h, rfl⟩

theorem WriteStep.write (c : Cluster) (ad : AppDeployment) (hs : ad.Storable) :
    WriteStep c (c.write ad hs).2 where
  revision := Nat.le_succ _
  namespaces := rfl
  objects k y h := by
    rw [write_apply] at h
    split_ifs at h
    · cases h; exact .inr ⟨rfl, rfl⟩
    · exact .inl h

theorem WriteStep.remove (c : Cluster) (k : ObjectKey) :
    WriteStep c { c.remove k with revision := c.revision + 1 } where
  revision := Nat.le_succ _
  namespaces := rfl
  objects k' y h := by
    change (c.remove k).appDeployments k' = some y at h
    rw [remove_apply] at h
    split_ifs at h
    exact .inl h

theorem create_writeStep {c c' : Cluster} {ad ad' : AppDeployment} (h : c.create ad = .ok (ad', c')) :
    WriteStep c c' := by
  unfold create at h
  split_ifs at h <;> rcases hv : validate ad with _ | d <;> simp only [hv] at h <;> cases h
  exact .write _ _ _

theorem update_writeStep {c c' : Cluster} {ad ad' : AppDeployment} (h : c.update ad = .ok (ad', c')) :
    WriteStep c c' := by
  unfold update at h
  split at h
  · cases h
  split_ifs at h
  split at h
  · cases h
  dsimp only at h
  split_ifs at h <;> cases h
  · exact .refl c
  · exact .remove c ad.key
  · exact .write _ _ _

theorem updateStatus_writeStep {c c' : Cluster} {ad ad' : AppDeployment}
    (h : c.updateStatus ad = .ok (ad', c')) : WriteStep c c' := by
  unfold updateStatus at h
  split at h
  · cases h
  split_ifs at h <;> cases h
  · exact .refl c
  · exact .write _ _ _

theorem delete_writeStep {c c' : Cluster} {k : ObjectKey} (h : c.delete k = .ok c') : WriteStep c c' := by
  unfold delete at h
  split at h
  · cases h
  split_ifs at h <;> cases h
  · exact .remove c k
  · exact .refl c
  · exact .write _ _ _

theorem apply_writeStep (c : Cluster) (op : ClusterOp) : WriteStep c (c.apply op) := by
  cases op with
  | create ad =>
    simp only [apply]
    rcases h : c.create ad with _ | ⟨_, c'⟩
    exacts [.refl c, create_writeStep h]
  | update ad =>
    simp only [apply]
    rcases h : c.update ad with _ | ⟨_, c'⟩
    exacts [.refl c, update_writeStep h]
  | updateStatus ad =>
    simp only [apply]
    rcases h : c.updateStatus ad with _ | ⟨_, c'⟩
    exacts [.refl c, updateStatus_writeStep h]
  | delete k =>
    simp only [apply]
    rcases h : c.delete k with _ | c'
    exacts [.refl c, delete_writeStep h]

/-- Every object's resource version is at most the store's revision: what writes
under the next revision keep. -/
def Fresh (c : Cluster) : Prop :=
  ∀ k x, c.appDeployments k = some x → x.metadata.resourceVersion ≤ c.revision

theorem fresh_empty (namespaces : List String) : (empty namespaces).Fresh := fun _ _ h ↦ nomatch h

theorem WriteStep.fresh {c c' : Cluster} (h : WriteStep c c') (hf : c.Fresh) : c'.Fresh := by
  intro k y hy
  rcases h.objects k y hy with hy | ⟨hv, hr⟩
  · exact (hf k y hy).trans h.revision
  · omega

theorem applyAll_fresh (c : Cluster) (ops : List ClusterOp) (hf : c.Fresh) : (c.applyAll ops).Fresh := by
  induction ops generalizing c with
  | nil => exact hf
  | cons op ops ih => exact ih _ ((apply_writeStep c op).fresh hf)

theorem applyAll_revision (c : Cluster) (ops : List ClusterOp) : c.revision ≤ (c.applyAll ops).revision := by
  induction ops generalizing c with
  | nil => exact le_rfl
  | cons op ops ih => exact (apply_writeStep c op).revision.trans (ih _)

section Version

variable {k : ObjectKey} {x : AppDeployment}

theorem applyAll_same_version (c : Cluster) (ops : List ClusterOp) (hf : c.Fresh)
    (hx : x.metadata.resourceVersion ≤ c.revision)
    (hsame : ∀ y, c.appDeployments k = some y → y.metadata.resourceVersion = x.metadata.resourceVersion → y = x)
    (y : AppDeployment) (hy : (c.applyAll ops).appDeployments k = some y)
    (hv : y.metadata.resourceVersion = x.metadata.resourceVersion) : y = x := by
  induction ops generalizing c with
  | nil => exact hsame y hy hv
  | cons op ops ih =>
    have hs := apply_writeStep c op
    refine ih _ (hs.fresh hf) (hx.trans hs.revision) (fun y' hy' hv' ↦ ?_) hy
    rcases hs.objects k y' hy' with hy' | ⟨hv'', -⟩
    · exact hsame y' hy' hv'
    · omega

theorem applyAll_ne (c : Cluster) (ops : List ClusterOp) (hf : c.Fresh)
    (hx : x.metadata.resourceVersion ≤ c.revision) (hne : c.appDeployments k ≠ some x) :
    (c.applyAll ops).appDeployments k ≠ some x := by
  induction ops generalizing c with
  | nil => exact hne
  | cons op ops ih =>
    have hs := apply_writeStep c op
    refine ih _ (hs.fresh hf) (hx.trans hs.revision) fun h ↦ ?_
    rcases hs.objects k x h with h | ⟨hv, -⟩
    · exact hne h
    · omega

theorem applyAll_untouched (c : Cluster) (ops : List ClusterOp) (hf : c.Fresh)
    (hx : c.appDeployments k = some x) (y : AppDeployment)
    (hy : (c.applyAll ops).appDeployments k = some y)
    (hv : y.metadata.resourceVersion = x.metadata.resourceVersion) :
    ∀ pre, pre <+: ops → (c.applyAll pre).appDeployments k = some x := by
  have hxr := hf k x hx
  have hyx : y = x := applyAll_same_version c ops hf hxr
    (fun y' hy' _ ↦ Option.some.inj (hy'.symm.trans hx)) y hy hv
  rintro pre ⟨suf, rfl⟩
  by_contra hne
  rw [applyAll_append] at hy
  exact applyAll_ne _ suf (applyAll_fresh c pre hf) (hxr.trans (applyAll_revision c pre)) hne (hyx ▸ hy)

end Version

end Cluster

end Appstore.Kube
