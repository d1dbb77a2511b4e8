import Appstore.Backend.Deployment
import Appstore.Controller.Progress
import Appstore.Rabbitmq.Broker

namespace Appstore.Backend

open Appstore.Api Appstore.Json Appstore.Kube Appstore.Helm Appstore.Controller Appstore.Rabbitmq

variable {N T : Type}

theorem handleDeploymentRequest_created (nf : NumberFormat N) (c : Cluster) (p : DeploymentRequestPayload N)
    {name : String} (hn : requestName p = some name) (hfree : c.appDeployments ⟨p.ns, name⟩ = none)
    (hok : (handleDeploymentRequest nf c p).1 = .ok) :
    ∃ x, (handleDeploymentRequest nf c p).2.appDeployments ⟨p.ns, name⟩ = some x ∧
      x.key = ⟨p.ns, name⟩ ∧ x.spec = (requestAppDeployment nf p name).spec ∧ x.metadata.finalizers = [] ∧
      x.metadata.deletionTimestamp = none ∧ validate x = none := by
  unfold handleDeploymentRequest at hok ⊢
  simp only [hn] at hok ⊢
  rcases hc : c.create (requestAppDeployment nf p name) with e | ⟨x, c'⟩
  · have he : e = .alreadyExists := by cases e <;> simp_all
    subst he
    have hex := Cluster.create_alreadyExists hc
    simp [requestAppDeployment, AppDeployment.key, hfree] at hex
  · obtain ⟨hk, hspec, hlab, hfin, hdel⟩ := Cluster.create_ok_stored hc
    have hv := (Cluster.create_checks (.inl ⟨_, hc⟩)).2
    exact ⟨x, (Cluster.create_ok hc).2.1, hk, hspec, hfin, hdel,
      (Cluster.validate_congr (congrArg ObjectKey.name hk) hlab hspec).trans hv⟩

/-- A deployment request through the system: a message the backend's `Create`
published, handled by the operator with `nil` where the record's name was free,
then two controller passes on that record with no transient failure, the chart
under the charts directory and a name Helm accepts. The first puts the finalizer
on; after the second the record is `Deployed` with the request's spec, and the
release under the record's name is installed with the request's values and the
chart Helm loaded. -/
theorem create_deployed (r : Reconciler N) (tf : TimeFormat T) (h : Handler) (publishFails : Bool)
    (body : List Char) (u : Uuid) (now : T) (w : World N) (req : CreateRequest N) (name : String)
    (t₁ t₂ : Nat) {msg : List Char} {ch : Chart}
    (hm : (create r.nf tf h publishFails body u now).2 = some msg)
    (hd : decodeCreateRequest r.nf body = .ok req) (hn : requestName (createPayload req u).sent = some name)
    (hfree : w.cluster.appDeployments ⟨req.ns, name⟩ = none)
    (hok : (handleMessage r.nf tf w.cluster msg).1 = .ok) (hrel : w.helm.releases ⟨req.ns, name⟩ = none)
    (hcat : ∀ v, r.chartValidator = some v → v.chartExists req.appName = true)
    (hl : r.helm.loadChart w.helm.charts req.appName = .ok ch) (hvn : validateReleaseName name = none) :
    ∃ x rel, (runPasses r (w.setCluster (handleMessage r.nf tf w.cluster msg).2)
        [(⟨t₁, .none⟩, ⟨req.ns, name⟩), (⟨t₂, .none⟩, ⟨req.ns, name⟩)]).cluster.appDeployments
          ⟨req.ns, name⟩ = some x ∧
      x.spec = (requestAppDeployment r.nf (createPayload req u).sent name).spec ∧
      x.status.phase = some .deployed ∧
      (runPasses r (w.setCluster (handleMessage r.nf tf w.cluster msg).2)
        [(⟨t₁, .none⟩, ⟨req.ns, name⟩), (⟨t₂, .none⟩, ⟨req.ns, name⟩)]).helm.releases
          ⟨req.ns, name⟩ = some rel ∧
      rel.status = "deployed" ∧ rel.config = req.values.getD [] ∧ rel.chart = ch := by
  obtain ⟨req', hd', -, -, hmsg⟩ := create_published r.nf tf hm w.cluster
  cases hd.symm.trans hd'
  rw [hmsg] at hok ⊢
  -- the operator creates the record
  obtain ⟨x, hx, hkey, hspec, hfin, hdel, hv⟩ := handleDeploymentRequest_created r.nf w.cluster _ hn hfree hok
  replace hx : (w.setCluster (handleDeploymentRequest r.nf w.cluster (createPayload req u).sent).2
      ).cluster.appDeployments ⟨req.ns, name⟩ = some x := hx
  generalize hw : w.setCluster (handleDeploymentRequest r.nf w.cluster (createPayload req u).sent).2 = w₁ at hx ⊢
  have hhelm : w₁.helm = w.helm := hw ▸ rfl
  have hrn : x.releaseName = name := by
    have hname : x.metadata.name = name := congrArg ObjectKey.name hkey
    have hrn : x.spec.releaseName = name := by rw [hspec]; rfl
    simp only [AppDeployment.releaseName, hrn, hname, ite_self]
  -- the first pass puts the finalizer on
  obtain ⟨c₂, hpass, hc₂, -, -⟩ := reconcile_addsFinalizer r ⟨t₁, .none⟩ w₁ ⟨req.ns, name⟩ x rfl rfl
    hx hdel (by simp [AppDeployment.hasFinalizer, hfin]) hv
  simp only [runPasses, hpass]
  -- the second installs the chart
  set x₁ := (addFinalizer x).withRV (w₁.cluster.revision + 1)
  have hkey₁ : x₁.key = ⟨req.ns, name⟩ := by simpa [x₁] using hkey
  have hst : (w₁.setCluster c₂).cluster.appDeployments ⟨req.ns, name⟩ = some x₁ := by
    simp [World.setCluster, hc₂]
  have hspec₁ : x₁.spec = (requestAppDeployment r.nf (createPayload req u).sent name).spec := by simp [x₁, hspec]
  have happ : x₁.spec.appName = req.appName := by rw [hspec₁]; rfl
  have hred : reconcile r ⟨t₂, .none⟩ (w₁.setCluster c₂) ⟨req.ns, name⟩ =
      reconcileHelm r ⟨t₂, .none⟩ (w₁.setCluster c₂) x₁ :=
    reconcile_live r _ rfl hst (by simpa [x₁] using hdel) (by simp [x₁]) (by rw [hspec₁]; rfl)
  have hrej : chartRejected r x₁ = none := by
    unfold chartRejected
    rcases hval : r.chartValidator with _ | v
    · rfl
    · simp [happ, hcat v hval]
  have hvals :
      getValues r.nf (w₁.setCluster c₂).cluster Faults.none.valuesFrom x₁ = .ok (req.values.getD []) := by
    have hns : x₁.metadata.ns = (requestAppDeployment r.nf (createPayload req u).sent name).metadata.ns :=
      congrArg ObjectKey.ns hkey₁
    have hsame : getValues r.nf (w₁.setCluster c₂).cluster Faults.none.valuesFrom x₁ =
        getValues r.nf (w₁.setCluster c₂).cluster Faults.none.valuesFrom
          (requestAppDeployment r.nf (createPayload req u).sent name) := by
      simp only [getValues, hspec₁, hns]
    exact hsame.trans (getValues_requestAppDeployment r.nf _ _ (createPayload req u)
      (decodeCreateRequest_valuesAny r.nf hd) name)
  have hrk : x₁.releaseKey = ⟨req.ns, name⟩ := by
    have hns : x.metadata.ns = req.ns := congrArg ObjectKey.ns hkey
    show ((addFinalizer x).withRV _).releaseKey = _
    rw [withRV_releaseKey, addFinalizer_releaseKey, AppDeployment.releaseKey, hrn, hns]
  have hready : HelmReady r (w₁.setCluster c₂) x₁ ch :=
    ⟨by rw [happ]; exact hhelm ▸ hl, by rw [show x₁.releaseName = name from congrArg ObjectKey.name hrk]; exact hvn,
      fun _ h ↦ by simp [World.setCluster, hhelm, hrk, hrel] at h⟩
  obtain ⟨-, x', rel, hstore, hspec', hphase, -, hrelx, -, hcases⟩ :=
    reconcileHelm_deploys r ⟨t₂, .none⟩ (w₁.setCluster c₂) x₁ _ ch rfl rfl rfl rfl (hkey₁ ▸ hst)
      hrej hvals hready
  rw [hred]
  rw [hkey₁] at hstore
  rw [hrk] at hrelx
  refine ⟨x', rel, hstore, hspec'.trans hspec₁, hphase, hrelx, ?_⟩
  rcases hcases with hdep | ⟨hh, -⟩
  · exact hdep
  · rw [hh] at hrelx
    simp [World.setCluster, hhelm, hrel] at hrelx

/-- A deletion through the system: a message the backend's `Delete` published for
a record with the finalizer that passed validation and whose release name Helm
accepts, handled by the operator on the store the backend read, then one
controller pass on the record with no transient failure. The operator answers `nil`; afterwards no release is left under the
record's release name, and the record is gone exactly when the finalizer was its
only one. -/
theorem delete_uninstalled (r : Reconciler N) (tf : TimeFormat T) (h : Handler) (getFault publishFails : Bool)
    (name nsParam : String) (u : Uuid) (now : T) (w : World N) (x : AppDeployment) (t : Nat) {msg : List Char}
    (hm : (delete r.nf tf h w.cluster getFault publishFails name nsParam u now).2 = some msg)
    (hx : w.cluster.appDeployments ⟨queryNamespace nsParam, name⟩ = some x) (hfin : x.hasFinalizer)
    (hv : validate x = none) (hn : validateReleaseName x.releaseName = none) :
    (handleMessage r.nf tf w.cluster msg).1 = .ok ∧
    (runPasses r (w.setCluster (handleMessage r.nf tf w.cluster msg).2)
      [(⟨t, .none⟩, ⟨queryNamespace nsParam, name⟩)]).helm.releases x.releaseKey = none ∧
    ((runPasses r (w.setCluster (handleMessage r.nf tf w.cluster msg).2)
      [(⟨t, .none⟩, ⟨queryNamespace nsParam, name⟩)]).cluster.appDeployments ⟨queryNamespace nsParam, name⟩ = none ↔
      x.metadata.finalizers.filter (· != finalizerName) = []) := by
  obtain ⟨x', hx', hmsg⟩ := delete_published r.nf tf hm w.cluster
  cases hx.symm.trans hx'
  have hkey := w.cluster.keyed _ x hx
  -- the operator marks the record terminating
  obtain ⟨c', y, hdelete, hy, hdel, hykey, hspec, hlab, hfins⟩ :=
    Cluster.delete_finalized (Cluster.lookup_own_key hx) (AppDeployment.finalizers_ne_nil hfin)
  have hhandle : handleMessage r.nf tf w.cluster msg = (.ok, c') := by
    rw [hmsg, handleDeploymentDelete, checkDelete_team hx rfl]
    simp [deleteChecked, hdelete]
  rw [hhandle]
  refine ⟨rfl, ?_⟩
  -- the pass uninstalls the release and removes the finalizer
  have hfiny : y.hasFinalizer := by rw [AppDeployment.hasFinalizer, hfins]; exact hfin
  have hvy : validate y = none := (Cluster.validate_congr (congrArg ObjectKey.name hykey) hlab hspec).trans hv
  have hsty : (w.setCluster c').cluster.appDeployments y.key = some y := by rw [hykey]; exact hy
  have hred : reconcile r ⟨t, .none⟩ (w.setCluster c') ⟨queryNamespace nsParam, name⟩ =
      reconcileDelete ⟨t, .none⟩ (w.setCluster c') y :=
    reconcile_terminating r _ (hykey.trans hkey ▸ hsty) hdel
  have hrk := AppDeployment.releaseKey_eq_of hykey hspec
  obtain ⟨-, hgone, hiff, -⟩ := reconcileDelete_deletes ⟨t, .none⟩ (w.setCluster c') y rfl rfl rfl rfl hsty hdel
    hfiny hvy (by rw [show y.releaseName = x.releaseName from congrArg ObjectKey.name hrk]; exact hn)
  rw [hrk] at hgone
  rw [hykey, hkey, hfins] at hiff
  simp only [runPasses, hred]
  exact ⟨hgone, hiff⟩

def deployedDb : World Nat := withRelease (worldOf [finalizedDb]) finalizedDb

theorem finalizedDb_uninstalled :
    ∃ msg, (delete mirrorOnly.nf zeroTime ⟨true, true⟩ deployedDb.cluster false false "db" "team-a"
        zeroUuid ()).2 = some msg ∧
      deployedDb.cluster.appDeployments ⟨queryNamespace "team-a", "db"⟩ =
        some (finalizedDb.withRV 1) ∧
      (finalizedDb.withRV 1).hasFinalizer ∧ validate (finalizedDb.withRV 1) = none ∧
      validateReleaseName (finalizedDb.withRV 1).releaseName = none ∧
      (deployedDb.helm.releases (finalizedDb.withRV 1).releaseKey).isSome ∧
      (handleMessage mirrorOnly.nf zeroTime deployedDb.cluster msg).1 = .ok ∧
      (runPasses mirrorOnly
        (deployedDb.setCluster
          (handleMessage mirrorOnly.nf zeroTime deployedDb.cluster msg).2)
        [(⟨1, .none⟩, ⟨queryNamespace "team-a", "db"⟩)]).helm.releases (finalizedDb.withRV 1).releaseKey = none ∧
      ((runPasses mirrorOnly
        (deployedDb.setCluster
          (handleMessage mirrorOnly.nf zeroTime deployedDb.cluster msg).2)
        [(⟨1, .none⟩, ⟨queryNamespace "team-a", "db"⟩)]).cluster.appDeployments ⟨queryNamespace "team-a", "db"⟩ =
          none ↔
        (finalizedDb.withRV 1).metadata.finalizers.filter (· != finalizerName) = []) :=
  have hm : (delete mirrorOnly.nf zeroTime ⟨true, true⟩ deployedDb.cluster false false "db" "team-a"
      zeroUuid ()).2 = some (@publishDeploymentDelete Nat Unit mirrorOnly.nf zeroTime
        ⟨zeroUuid.toString, "team-a", "anonymous", "db", "team-a"⟩ ()) := by
    rfl
  have hx : deployedDb.cluster.appDeployments ⟨queryNamespace "team-a", "db"⟩ =
      some (finalizedDb.withRV 1) := by
    decide
  have hv : validate (finalizedDb.withRV 1) = none := by decide
  have hn : validateReleaseName (finalizedDb.withRV 1).releaseName = none := by decide
  ⟨_, hm, hx, rfl, hv, hn, by decide, delete_uninstalled mirrorOnly zeroTime ⟨true, true⟩ false false "db" "team-a"
    zeroUuid () deployedDb _ 1 hm hx rfl hv hn⟩

def dbCreateRequest : CreateRequest Nat := ⟨"postgresql", "team-a", "", "", none⟩

def dbCreateName : String := "postgresql-00000000"

theorem dbCreate_deployed :
    ∃ msg, (create mirrorOnly.nf zeroTime ⟨true, true⟩ false dbCreateBody zeroUuid ()).2 = some msg ∧
      decodeCreateRequest mirrorOnly.nf dbCreateBody = .ok dbCreateRequest ∧
      requestName (createPayload dbCreateRequest zeroUuid).sent = some dbCreateName ∧
      (worldOf []).cluster.appDeployments ⟨dbCreateRequest.ns, dbCreateName⟩ = none ∧
      (handleMessage mirrorOnly.nf zeroTime (worldOf []).cluster msg).1 = .ok ∧
      (worldOf []).helm.releases ⟨dbCreateRequest.ns, dbCreateName⟩ = none ∧
      (∀ v, mirrorOnly.chartValidator = some v → v.chartExists dbCreateRequest.appName = true) ∧
      mirrorOnly.helm.loadChart (worldOf []).helm.charts dbCreateRequest.appName = .ok postgresql ∧
      validateReleaseName dbCreateName = none ∧
      ∃ x rel, (runPasses mirrorOnly
          ((worldOf []).setCluster (handleMessage mirrorOnly.nf zeroTime (worldOf []).cluster msg).2)
          [(⟨1, .none⟩, ⟨dbCreateRequest.ns, dbCreateName⟩),
            (⟨2, .none⟩, ⟨dbCreateRequest.ns, dbCreateName⟩)]).cluster.appDeployments
            ⟨dbCreateRequest.ns, dbCreateName⟩ = some x ∧
        x.spec =
          (requestAppDeployment mirrorOnly.nf (createPayload dbCreateRequest zeroUuid).sent dbCreateName).spec ∧
        x.status.phase = some .deployed ∧
        (runPasses mirrorOnly
          ((worldOf []).setCluster (handleMessage mirrorOnly.nf zeroTime (worldOf []).cluster msg).2)
          [(⟨1, .none⟩, ⟨dbCreateRequest.ns, dbCreateName⟩),
            (⟨2, .none⟩, ⟨dbCreateRequest.ns, dbCreateName⟩)]).helm.releases
            ⟨dbCreateRequest.ns, dbCreateName⟩ = some rel ∧
        rel.status = "deployed" ∧ rel.config = dbCreateRequest.values.getD [] ∧ rel.chart = postgresql :=
  have hm : (create mirrorOnly.nf zeroTime ⟨true, true⟩ false dbCreateBody zeroUuid ()).2 =
      some (publishDeploymentRequest mirrorOnly.nf zeroTime (createPayload dbCreateRequest zeroUuid) ()) := by
    rfl
  have hn : requestName (createPayload dbCreateRequest zeroUuid).sent = some dbCreateName :=
    (requestName_createPayload dbCreateRequest zeroUuid).trans (by decide)
  have hok : (handleMessage mirrorOnly.nf zeroTime (worldOf []).cluster
      (publishDeploymentRequest mirrorOnly.nf zeroTime (createPayload dbCreateRequest zeroUuid) ())).1 = .ok := by
    rw [handleMessage_publishDeploymentRequest mirrorOnly.nf zeroTime _ (createPayload dbCreateRequest zeroUuid) ()
      trivial, handleDeploymentRequest, hn]
    decide
  have hcat : ∀ v, mirrorOnly.chartValidator = some v → v.chartExists dbCreateRequest.appName = true := by
    rintro v ⟨⟩
    rfl
  have hd : decodeCreateRequest mirrorOnly.nf dbCreateBody = .ok dbCreateRequest := rfl
  have hfree : (worldOf []).cluster.appDeployments ⟨dbCreateRequest.ns, dbCreateName⟩ = none := rfl
  have hrel : (worldOf []).helm.releases ⟨dbCreateRequest.ns, dbCreateName⟩ = none := rfl
  have hl : mirrorOnly.helm.loadChart (worldOf []).helm.charts dbCreateRequest.appName = .ok postgresql := rfl
  have hvn : validateReleaseName dbCreateName = none := by decide
  ⟨_, hm, hd, hn, hfree, hok, hrel, hcat, hl, hvn,
    create_deployed mirrorOnly zeroTime ⟨true, true⟩ false dbCreateBody zeroUuid () (worldOf []) dbCreateRequest
      dbCreateName 1 2 hm hd hn hfree hok hrel hcat hl hvn⟩

end Appstore.Backend
