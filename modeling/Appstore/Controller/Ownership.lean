import Appstore.Controller.Effects

namespace Appstore.Controller

open Appstore.Api Appstore.Kube Appstore.Helm

variable {N : Type} (r : Reconciler N)

/-- A run of passes, each with its clock, its faults and the key it was queued for. -/
def runPasses : World N → List (Ctx × ObjectKey) → World N
  | w, [] => w
  | w, (ctx, key) :: ps => runPasses (reconcile r ctx w key).2 ps

/-- Every `Upgrade` and `Uninstall` acts on a release that its actor's own call created. -/
def OwnedCalls (calls : List HelmCall) : Prop :=
  ∀ c ∈ calls, c.op ≠ .install → c.owner = some c.actor

instance (calls : List HelmCall) : Decidable (OwnedCalls calls) :=
  inferInstanceAs (Decidable (∀ c ∈ calls, c.op ≠ .install → c.owner = some c.actor))

theorem OwnedCalls.append {c₁ c₂ : List HelmCall} (h₁ : OwnedCalls c₁) (h₂ : OwnedCalls c₂) :
    OwnedCalls (c₁ ++ c₂) := by
  intro c hc
  rcases List.mem_append.1 hc with hc | hc
  exacts [h₁ c hc, h₂ c hc]

def DistinctReleases (c : Cluster) : Prop :=
  ∀ k₁ k₂ x₁ x₂, c.appDeployments k₁ = some x₁ → c.appDeployments k₂ = some x₂ →
    x₁.releaseKey = x₂.releaseKey → k₁ = k₂

theorem DistinctReleases.mono {c c' : Cluster} (hd : DistinctReleases c) (h : Cluster.Kept c c') :
    DistinctReleases c' := by
  intro k₁ k₂ x₁ x₂ h₁ h₂ he
  obtain ⟨y₁, hy₁, e₁⟩ := h.releaseKey h₁
  obtain ⟨y₂, hy₂, e₂⟩ := h.releaseKey h₂
  exact hd k₁ k₂ y₁ y₂ hy₁ hy₂ (e₁.symm.trans (he.trans e₂))

/-- The run invariant: records resolve to distinct releases, and the release a
record resolves to, where it exists, is credited to that record. -/
structure Ownership (w : World N) : Prop where
  distinct : DistinctReleases w.cluster
  owned : ∀ k x, w.cluster.appDeployments k = some x → (w.helm.releases x.releaseKey).isSome →
    w.installedBy x.releaseKey = some k

variable {r}

theorem Ownership.of_clusterOnly {w w' : World N} (hi : Ownership w) (h : ClusterOnly w w') :
    Ownership w' where
  distinct := hi.distinct.mono h.kept
  owned k x' hx hrel := by
    obtain ⟨x, hx₀, he⟩ := h.kept.releaseKey hx
    rw [he, h.helm] at hrel
    rw [he, h.installedBy]
    exact hi.owned k x hx₀ hrel

theorem Ownership.of_helmCallStep {op : HelmOp} {a rk : ObjectKey} {w w' : World N}
    (hi : Ownership w) (hs : HelmCallStep op a rk w w')
    (hown : ∀ k x, w.cluster.appDeployments k = some x → x.releaseKey = rk → k = a) :
    Ownership w' where
  distinct := hs.cluster ▸ hi.distinct
  owned k x hx hrel := by
    rw [hs.cluster] at hx
    by_cases hr : x.releaseKey = rk
    · obtain rfl := hown k x hx hr
      rw [hr] at hrel ⊢
      cases h₀ : w.helm.releases rk
      · exact hs.created h₀ hrel
      · have ho := hi.owned k x hx (by rw [hr, h₀]; rfl)
        rw [hr] at ho
        rcases hs.credit rk with hc | ⟨-, hc⟩ <;> rw [hc]
        exact ho
    · rw [hs.releases _ hr] at hrel
      rcases hs.credit x.releaseKey with hc | ⟨hc, -⟩
      · rw [hc]; exact hi.owned k x hx hrel
      · exact absurd hc hr

variable (r)

/-- One pass keeps the invariant, and the call it logs, if any, is owned. -/
theorem reconcile_ownership (ctx : Ctx) (w : World N) (key : ObjectKey) (hi : Ownership w) :
    Ownership (reconcile r ctx w key).2 ∧
      ∃ calls, (reconcile r ctx w key).2.log = w.log ++ calls ∧ OwnedCalls calls := by
  rcases reconcile_shape r ctx w key with h | ⟨ad, op, w₁, w₂, hget, hg, h₁, hs, h₂⟩
  · exact ⟨hi.of_clusterOnly h, [], by simp [h.log], by simp [OwnedCalls]⟩
  have hst := Cluster.lookup_own_key hget
  have hown : ∀ k x, w₁.cluster.appDeployments k = some x → x.releaseKey = ad.releaseKey →
      k = ad.key := by
    intro k x hx hr
    obtain ⟨x₀, hx₀, he⟩ := h₁.kept.releaseKey hx
    exact hi.distinct k ad.key x₀ ad hx₀ hst (he.symm.trans hr)
  obtain ⟨ok, hlog⟩ := hs.log
  refine ⟨((hi.of_clusterOnly h₁).of_helmCallStep hs hown).of_clusterOnly h₂,
    [⟨ad.key, op, ad.releaseKey, w₁.installedBy ad.releaseKey, ok⟩],
    by rw [h₂.log, hlog, h₁.log], ?_⟩
  intro c hc hop
  rw [List.mem_singleton] at hc
  subst hc
  show w₁.installedBy ad.releaseKey = some ad.key
  rw [h₁.installedBy]
  exact hi.owned ad.key ad hst (hg.release_isSome hop)

theorem runPasses_ownership (w : World N) (ps : List (Ctx × ObjectKey)) (hi : Ownership w) :
    Ownership (runPasses r w ps) ∧
      ∃ calls, (runPasses r w ps).log = w.log ++ calls ∧ OwnedCalls calls := by
  induction ps generalizing w with
  | nil => exact ⟨hi, [], by simp [runPasses], by simp [OwnedCalls]⟩
  | cons p ps ih =>
    obtain ⟨ctx, key⟩ := p
    obtain ⟨hi₁, c₁, hl₁, ho₁⟩ := reconcile_ownership r ctx w key hi
    obtain ⟨hi₂, c₂, hl₂, ho₂⟩ := ih _ hi₁
    exact ⟨hi₂, c₁ ++ c₂, by rw [runPasses, hl₂, hl₁, List.append_assoc], ho₁.append ho₂⟩

/-- With distinct release names, every `Upgrade` and `Uninstall` of any run of
passes acts on a release its own record's `Install` created. -/
theorem helm_calls_owned (w : World N) (ps : List (Ctx × ObjectKey))
    (hdistinct : DistinctReleases w.cluster)
    (hcredit : ∀ k x, w.cluster.appDeployments k = some x → (w.helm.releases x.releaseKey).isSome →
      w.installedBy x.releaseKey = some k) :
    ∃ calls, (runPasses r w ps).log = w.log ++ calls ∧ OwnedCalls calls :=
  (runPasses_ownership r w ps ⟨hdistinct, hcredit⟩).2

def postgresql : Chart := ⟨"postgresql", "1.0.0", "16"⟩

def mirrorOnly : Reconciler Nat where
  nf := Json.decimalFormat
  digest := String.mk
  helm := ⟨""⟩
  chartValidator := some ⟨(· = "postgresql"), .ok ["postgresql"]⟩

def mirror : ChartsDir :=
  ⟨(· = "postgresql"), fun n ↦ if n = "postgresql" then .ok postgresql else .error "no chart"⟩

def postgresRecord (name releaseName : String) : AppDeployment :=
  ⟨⟨name, "team-a", [], [], [], none, 1, 0, 0⟩,
    ⟨"postgresql", "", "team-a", "", releaseName, none, [], false⟩, .empty⟩

theorem postgresRecord_storable (name releaseName : String) : (postgresRecord name releaseName).Storable :=
  nofun

def worldOf (records : List AppDeployment) : World Nat where
  cluster := records.foldl (fun c ad ↦ if h : ad.Storable then (c.write ad h).2 else c)
    (Cluster.empty ["team-a"])
  helm := ⟨fun _ ↦ none, mirror⟩
  installedBy _ := none
  log := []

def twoRecords (rn : String) : World Nat :=
  worldOf [postgresRecord "db" "", postgresRecord "other" rn]

def dbThenOther : List (Ctx × ObjectKey) :=
  [(⟨0, .none⟩, ⟨"team-a", "db"⟩), (⟨0, .none⟩, ⟨"team-a", "db"⟩),
    (⟨0, .none⟩, ⟨"team-a", "other"⟩), (⟨0, .none⟩, ⟨"team-a", "other"⟩)]

theorem DistinctReleases.of_own {c : Cluster} (h : ∀ k x, c.appDeployments k = some x → x.releaseKey = k) :
    DistinctReleases c :=
  fun k₁ k₂ x₁ x₂ h₁ h₂ he ↦ (h k₁ x₁ h₁).symm.trans (he.trans (h k₂ x₂ h₂))

theorem worldOf_stored {rs : List AppDeployment} {k : ObjectKey} {x : AppDeployment}
    (h : (worldOf rs).cluster.appDeployments k = some x) : ∃ ad ∈ rs, x.spec = ad.spec := by
  suffices ∀ (c : Cluster), (rs.foldl (fun c ad ↦ if h : ad.Storable then (c.write ad h).2 else c) c).appDeployments
      k = some x → c.appDeployments k = some x ∨ ∃ ad ∈ rs, x.spec = ad.spec from
    (this _ h).resolve_left nofun
  clear h
  induction rs with
  | nil => exact fun _ ↦ .inl
  | cons ad rs ih =>
    intro c hc
    rw [List.foldl_cons] at hc
    rcases ih _ hc with hc | ⟨ad', hm, hs⟩
    · by_cases hst : ad.Storable
      · rw [dif_pos hst, Cluster.write_apply] at hc
        split_ifs at hc
        · cases hc; exact .inr ⟨ad, .head _, rfl⟩
        · exact .inl hc
      · rw [dif_neg hst] at hc
        exact .inl hc
    · exact .inr ⟨ad', .tail _ hm, hs⟩

theorem worldOf_own {rs : List AppDeployment} (hrs : ∀ ad ∈ rs, ad.spec.releaseName = "") (k : ObjectKey)
    (x : AppDeployment) (hx : (worldOf rs).cluster.appDeployments k = some x) : x.releaseKey = k := by
  obtain ⟨ad, hm, hs⟩ := worldOf_stored hx
  rw [← (worldOf rs).cluster.keyed k x hx]
  simp [AppDeployment.releaseKey, AppDeployment.releaseName, AppDeployment.key, hs, hrs ad hm]

/-- `w` with the release record `ad`'s `Install` left at revision 1, credited to `ad`. -/
def withRelease (w : World Nat) (ad : AppDeployment) : World Nat :=
  { w with
    helm := w.helm.setRelease ad.releaseKey (some ⟨ad.releaseName, ad.metadata.ns, 1, "deployed", postgresql, []⟩)
    installedBy := Function.update w.installedBy ad.releaseKey (some ad.key) }

theorem withRelease_credited {w : World Nat} {ad : AppDeployment} (hown : ad.releaseKey = ad.key)
    (h : ∀ k, (w.helm.releases k).isSome → w.installedBy k = some k) (k : ObjectKey)
    (hk : ((withRelease w ad).helm.releases k).isSome) : (withRelease w ad).installedBy k = some k := by
  simp only [withRelease, setRelease_releases, Function.update_apply] at hk ⊢
  split_ifs at hk ⊢ with he
  · rw [he, hown]
  · exact h k hk

def changedDb : AppDeployment :=
  ⟨⟨"db", "team-a", [], [], [finalizerName], none, 2, 0, 0⟩,
    { (postgresRecord "db" "").spec with values := some "\x7b\"replicas\":2\x7d".toList },
    { AppDeploymentStatus.empty with
      phase := some .deployed, lastAppliedValuesHash := "\x7b\x7d", observedGeneration := 1 }⟩

def deletedOld : AppDeployment :=
  ⟨⟨"old", "team-a", [], [], [finalizerName], some 1, 1, 0, 0⟩, (postgresRecord "old" "").spec, .empty⟩

def changedAndDeleted : World Nat :=
  withRelease (withRelease (worldOf [changedDb, deletedOld, postgresRecord "other" ""]) changedDb) deletedOld

def eachRecord : List (Ctx × ObjectKey) :=
  [(⟨0, .none⟩, ⟨"team-a", "db"⟩), (⟨0, .none⟩, ⟨"team-a", "old"⟩),
    (⟨0, .none⟩, ⟨"team-a", "other"⟩), (⟨0, .none⟩, ⟨"team-a", "other"⟩)]

theorem changedAndDeleted_owned :
    DistinctReleases changedAndDeleted.cluster ∧
    (∀ k x, changedAndDeleted.cluster.appDeployments k = some x →
      (changedAndDeleted.helm.releases x.releaseKey).isSome → changedAndDeleted.installedBy x.releaseKey = some k) ∧
    (runPasses mirrorOnly changedAndDeleted eachRecord).log.map HelmCall.op = [.upgrade, .uninstall, .install] ∧
    ∃ calls, (runPasses mirrorOnly changedAndDeleted eachRecord).log = changedAndDeleted.log ++ calls ∧
      OwnedCalls calls := by
  have hown := @worldOf_own [changedDb, deletedOld, postgresRecord "other" ""] (by decide)
  have hcred := @withRelease_credited _ deletedOld rfl (@withRelease_credited _ changedDb rfl
    (fun _ h ↦ absurd h (by simp [worldOf] : ¬ ((worldOf [changedDb, deletedOld, postgresRecord "other" ""]).helm.releases _).isSome)))
  have hd : DistinctReleases changedAndDeleted.cluster := DistinctReleases.of_own hown
  have hc : ∀ k x, changedAndDeleted.cluster.appDeployments k = some x →
      (changedAndDeleted.helm.releases x.releaseKey).isSome → changedAndDeleted.installedBy x.releaseKey = some k :=
    fun k x hx hrel ↦ by
      rw [hown k x hx] at hrel ⊢
      exact hcred k hrel
  exact ⟨hd, hc, by decide, helm_calls_owned mirrorOnly _ eachRecord hd hc⟩

theorem shared_release_upgraded : ¬ OwnedCalls (runPasses mirrorOnly (twoRecords "db") dbThenOther).log := by
  decide

end Appstore.Controller
