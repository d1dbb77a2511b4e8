import Appstore.Controller.Deletion
import Appstore.Rabbitmq.Publisher

namespace Appstore

open Appstore.Api Appstore.Json Appstore.Kube Appstore.Controller Appstore.Rabbitmq

variable {N T : Type}

theorem Rabbitmq.StoreWrite.statusAgree {nf : NumberFormat N} {c c' : Cluster} (hw : StoreWrite nf c c')
    (h : StatusAgree c) : StatusAgree c' := by
  cases hw with
  | unchanged => exact h
  | create _ hw => exact (Cluster.create_passWrites hw).statusAgree h
  | update _ hw => exact (Cluster.update_passWrites hw).statusAgree h
  | delete _ hw => exact (Cluster.delete_passWrites hw).statusAgree h

theorem handleMessage_statusAgree (nf : NumberFormat N) (tf : TimeFormat T) {c : Cluster} (h : StatusAgree c)
    (body : List Char) : StatusAgree (handleMessage nf tf c body).2 :=
  (handleMessage_storeWrite nf tf c body).statusAgree h

/-- What the operator process does next: a Reconcile pass on a key, or the
consumer's handling of a message. -/
inductive OperatorStep
  | pass (ctx : Ctx) (key : ObjectKey)
  | handle (body : List Char)

def OperatorStep.apply (r : Reconciler N) (tf : TimeFormat T) (w : World N) : OperatorStep → World N
  | .pass ctx key => (reconcile r ctx w key).2
  | .handle body => w.setCluster (handleMessage r.nf tf w.cluster body).2

def runOperator (r : Reconciler N) (tf : TimeFormat T) : World N → List OperatorStep → World N
  | w, [] => w
  | w, s :: ss => runOperator r tf (s.apply r tf w) ss

/-- In every interleaving of Reconcile passes and message handlings from a store
whose records agree, every stored record has `Ready=True` and `Reconciling=False`
when its phase is `Deployed`, and `Ready=False` when it is `Failed`. -/
theorem runOperator_statusAgree (r : Reconciler N) (tf : TimeFormat T) (w : World N) (steps : List OperatorStep)
    (h : StatusAgree w.cluster) : StatusAgree (runOperator r tf w steps).cluster := by
  induction steps generalizing w with
  | nil => exact h
  | cons s ss ih =>
    refine ih _ ?_
    cases s with
    | pass ctx key => exact (reconcile_passWrites r ctx w key).statusAgree h
    | handle body => exact handleMessage_statusAgree r.nf tf h body

def dbSteps : List OperatorStep :=
  [.handle (publishDeploymentRequest decimalFormat zeroTime (dbRequest "team-a") ()), .pass ⟨0, .none⟩ ⟨"team-a", "db"⟩,
    .pass installFails ⟨"team-a", "db"⟩]

theorem dbSteps_statusAgree :
    StatusAgree (worldOf []).cluster ∧ StatusAgree (runOperator mirrorOnly zeroTime (worldOf []) dbSteps).cluster :=
  have h : StatusAgree (worldOf []).cluster := fun _ _ h ↦ Option.noConfusion h
  ⟨h, runOperator_statusAgree mirrorOnly zeroTime (worldOf []) dbSteps h⟩

theorem releaseKey_congr {x y : AppDeployment} (hk : y.key = x.key) (hs : y.spec.releaseName = x.spec.releaseName) :
    y.releaseKey = x.releaseKey := by
  simp only [AppDeployment.key, ObjectKey.mk.injEq] at hk
  simp only [AppDeployment.releaseKey, AppDeployment.releaseName, hs, hk]

/-- What a handler's write keeps of the guard: every record's release key stays its
own, and every record with the finalizer stays, with it. -/
structure GuardKept (c c' : Cluster) : Prop where
  own : OwnReleases c → OwnReleases c'
  held : FinalizerHeld c c'

namespace GuardKept

theorem refl (c : Cluster) : GuardKept c c := ⟨id, .refl c⟩

theorem write {c : Cluster} {x : AppDeployment} (hx : x.Storable) (hk : OwnReleases c → x.releaseKey = x.key)
    (hf : ∀ cur, c.appDeployments x.key = some cur → cur.hasFinalizer → x.hasFinalizer) :
    GuardKept c (c.write x hx).2 where
  own h k y hy := by
    rw [Cluster.write_apply] at hy
    split_ifs at hy with hkx
    · cases hy
      exact (hk h).trans hkx.symm
    · exact h k y hy
  held := FinalizerHeld.write hx hf

theorem remove {c : Cluster} {k : ObjectKey} (r : Nat)
    (hk : ∀ cur, c.appDeployments k = some cur → cur.hasFinalizer = false) :
    GuardKept c { c.remove k with revision := r } where
  own h k' y hy := by
    change (c.remove k).appDeployments k' = some y at hy
    rw [Cluster.remove_apply] at hy
    split_ifs at hy
    exact h k' y hy
  held := FinalizerHeld.remove r hk

end GuardKept

theorem Cluster.create_guardKept {c c' : Cluster} {ad ad' : AppDeployment} (h : c.create ad = .ok (ad', c'))
    (hk : ad.releaseKey = ad.key) : GuardKept c c' := by
  unfold Cluster.create at h
  split_ifs at h with hns hex <;> rcases hv : validate ad with _ | d <;> simp only [hv] at h <;> cases h
  exact GuardKept.write _ (fun _ ↦ hk) fun _ hcur _ ↦ absurd (Option.isSome_iff_exists.2 ⟨_, hcur⟩) hex

theorem Cluster.update_guardKept {c c' : Cluster} {ad ad' : AppDeployment} (h : c.update ad = .ok (ad', c'))
    (hk : OwnReleases c → ad.releaseKey = ad.key)
    (hf : ∀ cur, c.appDeployments ad.key = some cur → cur.hasFinalizer → ad.hasFinalizer) : GuardKept c c' := by
  unfold Cluster.update at h
  split at h
  · cases h
  rename_i cur hcur
  have hck : (Cluster.updated cur ad).key = ad.key := c.keyed _ cur hcur
  split_ifs at h
  split at h
  · cases h
  dsimp only at h
  split_ifs at h with hnew hrm <;> cases h
  · exact .refl c
  · refine GuardKept.remove _ fun y hy ↦ ?_
    rw [hcur] at hy
    cases hy
    exact Bool.eq_false_iff.2 fun hfy ↦ AppDeployment.finalizers_ne_nil (hf _ hcur hfy) hrm.2
  · exact GuardKept.write _ (fun hc ↦ (releaseKey_congr hck rfl).trans ((hk hc).trans hck.symm))
      fun y hy hfy ↦ hf y (hck ▸ hy) hfy

theorem Cluster.delete_guardKept {c c' : Cluster} {k : ObjectKey} (h : c.delete k = .ok c') : GuardKept c c' := by
  unfold Cluster.delete at h
  split at h
  · cases h
  rename_i cur hcur
  split_ifs at h with hf <;> cases h
  · refine GuardKept.remove _ fun y hy ↦ ?_
    rw [hcur] at hy
    cases hy
    simp [AppDeployment.hasFinalizer, hf]
  · exact .refl c
  · exact GuardKept.write _ (fun hc ↦ (hc k cur hcur).trans (c.keyed k cur hcur).symm)
      fun y hy hfy ↦ by cases (Cluster.lookup_own_key hcur).symm.trans hy; exact hfy

theorem requestAppDeployment_releaseKey (nf : NumberFormat N) (p : DeploymentRequestPayload N) (name : String) :
    (requestAppDeployment nf p name).releaseKey = (requestAppDeployment nf p name).key := by
  simp only [AppDeployment.releaseKey, AppDeployment.releaseName, requestAppDeployment, ite_self]
  rfl

theorem applyUpdate_releaseName (nf : NumberFormat N) (p : DeploymentUpdatePayload N) (ad : AppDeployment) :
    (applyUpdate nf p ad).spec.releaseName = ad.spec.releaseName := by
  unfold applyUpdate
  split <;> cases p.values <;> rfl

theorem Cluster.update_guardKept' (nf : NumberFormat N) {c c' : Cluster} {p : DeploymentUpdatePayload N}
    {ad ad' : AppDeployment} (h : checkUpdate nf c p = .ok ad) (hu : c.update ad = .ok (ad', c')) : GuardKept c c' := by
  obtain ⟨x, hx, -, rfl⟩ := checkUpdate_ok nf h
  have hxk : (applyUpdate nf p x).key = ⟨p.ns, p.name⟩ := c.keyed _ x hx
  have hk : (applyUpdate nf p x).releaseKey = x.releaseKey := releaseKey_congr rfl (applyUpdate_releaseName nf p x)
  exact Cluster.update_guardKept hu (fun hc ↦ hk.trans ((hc _ x hx).trans hxk.symm))
    fun cur hcur hf ↦ by rw [hxk, hx] at hcur; cases hcur; exact hf

theorem Rabbitmq.StoreWrite.guardKept {nf : NumberFormat N} {c c' : Cluster} (hw : StoreWrite nf c c') :
    GuardKept c c' := by
  cases hw with
  | unchanged => exact .refl c
  | create _ hw => exact Cluster.create_guardKept hw (requestAppDeployment_releaseKey ..)
  | update hc hw => exact Cluster.update_guardKept' nf hc hw
  | delete _ hw => exact Cluster.delete_guardKept hw

theorem handleMessage_guardKept (nf : NumberFormat N) (tf : TimeFormat T) (c : Cluster) (body : List Char) :
    GuardKept c (handleMessage nf tf c body).2 :=
  (handleMessage_storeWrite nf tf c body).guardKept

theorem handleMessage_releasesGuarded (nf : NumberFormat N) (tf : TimeFormat T) {w : World N}
    (h : ReleasesGuarded w) (body : List Char) :
    ReleasesGuarded (w.setCluster (handleMessage nf tf w.cluster body).2) :=
  have hg := handleMessage_guardKept nf tf w.cluster body
  ⟨hg.own h.own, fun k hk ↦ let ⟨x, hx, hf⟩ := h.guarded k hk; hg.held k x hx hf⟩

/-- In every interleaving of Reconcile passes and message handlings from a world
where each record resolves to the release under its own key and each release has
a record with the finalizer, that stays so at every point: every Helm release has
a stored record under its key that carries the finalizer. -/
theorem runOperator_releasesGuarded (r : Reconciler N) (tf : TimeFormat T) (w : World N)
    (steps : List OperatorStep) (h : ReleasesGuarded w) : ReleasesGuarded (runOperator r tf w steps) := by
  induction steps generalizing w with
  | nil => exact h
  | cons s ss ih =>
    refine ih _ ?_
    cases s with
    | pass ctx key => exact reconcile_releasesGuarded r ctx w key h
    | handle body => exact handleMessage_releasesGuarded r.nf tf h body

theorem dbSteps_releasesGuarded :
    ReleasesGuarded (worldOf []) ∧ ReleasesGuarded (runOperator mirrorOnly zeroTime (worldOf []) dbSteps) :=
  have h : ReleasesGuarded (worldOf []) := ⟨fun _ _ h ↦ Option.noConfusion h, fun _ ↦ nofun⟩
  ⟨h, runOperator_releasesGuarded mirrorOnly zeroTime (worldOf []) dbSteps h⟩

/-- Every release is credited to the record under its own key. -/
def Credited (w : World N) : Prop := ∀ k, (w.helm.releases k).isSome → w.installedBy k = some k

theorem ownership_of_guarded {w : World N} (h : ReleasesGuarded w) (hc : Credited w) : Ownership w where
  distinct k₁ k₂ x₁ x₂ h₁ h₂ he := (h.own k₁ x₁ h₁).symm.trans (he.trans (h.own k₂ x₂ h₂))
  owned k x hx hrel := by
    rw [h.own k x hx] at hrel ⊢
    exact hc k hrel

theorem credited_of_ownership {w : World N} (hi : Ownership w) (h : ReleasesGuarded w) : Credited w := fun k hk ↦ by
  obtain ⟨x, hx, -⟩ := h.guarded k hk
  have ho := hi.owned k x hx (by rwa [h.own k x hx])
  rwa [h.own k x hx] at ho

/-- In every interleaving of Reconcile passes and message handlings from a guarded
world whose releases are credited to their records, every `Upgrade` and
`Uninstall` acts on a release its own record's `Install` created: the handlers
never make two records share a release. -/
theorem runOperator_calls_owned (r : Reconciler N) (tf : TimeFormat T) (w : World N) (steps : List OperatorStep)
    (h : ReleasesGuarded w) (hc : Credited w) :
    ∃ calls, (runOperator r tf w steps).log = w.log ++ calls ∧ OwnedCalls calls := by
  induction steps generalizing w with
  | nil => exact ⟨[], (List.append_nil _).symm, nofun⟩
  | cons s ss ih =>
    cases s with
    | pass ctx key =>
      obtain ⟨hi, c₁, hl₁, ho₁⟩ := reconcile_ownership r ctx w key (ownership_of_guarded h hc)
      have h₁ := reconcile_releasesGuarded r ctx w key h
      obtain ⟨c₂, hl₂, ho₂⟩ := ih _ h₁ (credited_of_ownership hi h₁)
      exact ⟨c₁ ++ c₂, by rw [runOperator, OperatorStep.apply, hl₂, hl₁, List.append_assoc],
        ho₁.append ho₂⟩
    | handle body => exact ih _ (handleMessage_releasesGuarded r.nf tf h body) hc

theorem dbSteps_calls_owned : ReleasesGuarded (worldOf []) ∧ Credited (worldOf []) ∧
    ∃ calls, (runOperator mirrorOnly zeroTime (worldOf []) dbSteps).log = (worldOf []).log ++ calls ∧
      OwnedCalls calls :=
  have h : ReleasesGuarded (worldOf []) := ⟨fun _ _ h ↦ Option.noConfusion h, fun _ ↦ nofun⟩
  ⟨h, nofun, runOperator_calls_owned mirrorOnly zeroTime (worldOf []) dbSteps h nofun⟩

end Appstore
