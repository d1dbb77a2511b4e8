import Appstore.Controller.StatusWrites

namespace Appstore.Controller

open Appstore.Api Appstore.Kube Appstore.Helm

variable {N : Type} (r : Reconciler N)

/-- The pass from `w` to `w'` took the finalizer off the terminating record at `key`. -/
def RemovesFinalizer (w w' : World N) (key : ObjectKey) : Prop :=
  (w.cluster.appDeployments key).any (fun ad ↦ ad.metadata.deletionTimestamp.isSome && ad.hasFinalizer) ∧
    (w'.cluster.appDeployments key).all (fun x ↦ !x.hasFinalizer)

instance (w w' : World N) (key : ObjectKey) : Decidable (RemovesFinalizer w w' key) :=
  inferInstanceAs (Decidable (_ ∧ _))

theorem reconcileDelete_outcome (ctx : Ctx) (w : World N) (ad : AppDeployment)
    (hst : w.cluster.appDeployments ad.key = some ad) (hfin : ad.hasFinalizer) :
    (∀ o, (reconcileDelete ctx w ad).2.log = w.log ++ [⟨ad.key, .uninstall, ad.releaseKey, o, true⟩] →
      (reconcileDelete ctx w ad).2.helm.releases ad.releaseKey = none) ∧
    ((reconcileDelete ctx w ad).1.2.isSome →
      ∃ y, (reconcileDelete ctx w ad).2.cluster.appDeployments ad.key = some y ∧ y.hasFinalizer) ∧
    ((reconcileDelete ctx w ad).1.2 = none →
      (∀ y, (reconcileDelete ctx w ad).2.cluster.appDeployments ad.key = some y → y.hasFinalizer = false) ∧
      (Client.releaseExists w.helm ad.releaseName ad.metadata.ns ctx.faults.getRelease = .ok false ∨
        ∃ o, (reconcileDelete ctx w ad).2.log = w.log ++ [⟨ad.key, .uninstall, ad.releaseKey, o, true⟩])) ∧
    ((reconcileDelete ctx w ad).1.2 = none → (reconcileDelete ctx w ad).2.helm.releases ad.releaseKey = none) := by
  have hne : ∀ (l : List HelmCall) (c : HelmCall), l ≠ l ++ [c] := fun l c h ↦ by simp at h
  unfold reconcileDelete
  simp only [hfin, Bool.not_true, Bool.false_eq_true, if_false]
  have h₁ := updateStatusPhase_clusterOnly ctx w ad .uninstalling "Uninstalling Helm release"
  split
  · rename_i heq
    rw [World.updateStatus_error heq]
    exact ⟨fun _ h ↦ absurd h (hne _ _), fun _ ↦ ⟨ad, hst, hfin⟩, nofun, nofun⟩
  rename_i ad' w₁ heq
  rw [heq] at h₁
  obtain ⟨had', hst₁, -⟩ := updateStatusPhase_current ctx w ad _ _ hst heq
  have hfin' : ad'.hasFinalizer := by rw [had']; exact hfin
  have hk : ad'.key = ad.key := by rw [had']; rfl
  have hns : ad'.metadata.ns = ad.metadata.ns := by rw [had']; rfl
  have hrk : (⟨ad'.metadata.ns, ad.releaseName⟩ : ObjectKey) = ad.releaseKey := by rw [hns]; rfl
  have hlog : w₁.log = w.log := h₁.log
  -- the finalizer `Update` after the release is gone, from a world with the cluster of `w₁`
  have hfinish (w₂ : World N) (hc : w₂.cluster = w₁.cluster) :
      let p := match w₂.update ctx.faults.update (removeFinalizer ad') with
        | (some e, _, w) => (failedWith e.toString, w)
        | (none, _, w) => (done, w)
      p.2.helm = w₂.helm ∧ p.2.log = w₂.log ∧
      (p.1.2.isSome → ∃ y, p.2.cluster.appDeployments ad.key = some y ∧ y.hasFinalizer) ∧
      (p.1.2 = none → ∀ y, p.2.cluster.appDeployments ad.key = some y → y.hasFinalizer = false) := by
    have hh := World.update_helm w₂ ctx.faults.update (removeFinalizer ad')
    have hl := World.update_log w₂ ctx.faults.update (removeFinalizer ad')
    split <;> rename_i heq' <;> rw [heq'] at hh hl
    · rw [World.update_error heq'] at hh hl ⊢
      exact ⟨rfl, rfl, fun _ ↦ ⟨ad', hc ▸ hk ▸ hst₁, hfin'⟩, nofun⟩
    · refine ⟨hh, hl, nofun, fun _ y hy ↦ ?_⟩
      unfold World.update at heq'
      split at heq'
      · cases heq'
      split at heq' <;> cases heq'
      rename_i c' _
      have hf := Cluster.update_ok_finalizers ‹_› y (by rw [removeFinalizer_key, hk]; exact hy)
      simp [AppDeployment.hasFinalizer, hf, removeFinalizer]
  split
  · exact ⟨fun _ h ↦ absurd (h.symm.trans (by rw [hlog])) (hne _ _).symm, fun _ ↦ ⟨ad', hk ▸ hst₁, hfin'⟩, nofun,
      nofun⟩
  rename_i found hex
  rw [h₁.helm, hns] at hex
  cases found
  · simp only [Bool.false_eq_true, if_false]
    obtain ⟨hh, hl, herr, hok⟩ := hfinish w₁ rfl
    exact ⟨fun _ h ↦ (hne _ _ ((hlog.symm.trans hl.symm).trans h)).elim, herr, fun h ↦ ⟨hok h, .inl hex⟩,
      fun _ ↦ (congrArg (·.releases ad.releaseKey) (hh.trans h₁.helm)).trans (releaseExists_false _ _ _ _ hex)⟩
  simp only [if_true]
  have hs := helmUninstall_step ctx.faults.helm.run w₁ ad'.key ad.releaseName ad'.metadata.ns
  have hok := @helmUninstall_ok _ ctx.faults.helm.run w₁ ad'.key ad.releaseName ad'.metadata.ns
  have hl₂ := helmUninstall_log ctx.faults.helm.run w₁ ad'.key ad.releaseName ad'.metadata.ns
  rcases e : helmUninstall ctx.faults.helm.run w₁ ad'.key ad.releaseName ad'.metadata.ns with ⟨_ | _, w₂⟩ <;>
    rw [e] at hs hok hl₂ <;> rw [hk, hrk, hlog] at hl₂
  · refine ⟨fun _ h ↦ ?_, fun _ ↦ ⟨ad', hs.cluster ▸ hk ▸ hst₁, hfin'⟩, nofun, nofun⟩
    have h' : w₂.log = _ := h
    rw [hl₂, List.append_cancel_left_eq, List.singleton_inj, HelmCall.mk.injEq] at h'
    cases h'.2.2.2.2
  · obtain ⟨hh, hl, herr, hok'⟩ := hfinish w₂ hs.cluster
    have hgone : w₂.helm.releases ad.releaseKey = none := hrk ▸ hok rfl
    have hgone' := (congrArg (·.releases ad.releaseKey) hh).trans hgone
    exact ⟨fun _ _ ↦ hgone', herr, fun h ↦ ⟨hok' h, .inr ⟨_, hl.trans hl₂⟩⟩, fun _ ↦ hgone'⟩

theorem reconcileDelete_cleanup (ctx : Ctx) (w : World N) (ad : AppDeployment)
    (hst : w.cluster.appDeployments ad.key = some ad) (hfin : ad.hasFinalizer) :
    (∃ x, (reconcileDelete ctx w ad).2.cluster.appDeployments ad.key = some x ∧ x.hasFinalizer) ∨
    (reconcileDelete ctx w ad).2.helm.releases ad.releaseKey = none := by
  obtain ⟨-, herr, -, hgone⟩ := reconcileDelete_outcome ctx w ad hst hfin
  cases h : (reconcileDelete ctx w ad).1.2 with
  | some e => exact .inl (herr (by rw [h]; rfl))
  | none => exact .inr (hgone h)

/-- A pass calls `Install` only for a record it fetched with the finalizer and no
deletion timestamp, and a pass that takes the finalizer off a terminating record
leaves no release under the name the record resolves to then. -/
theorem install_guarded_release_removed (ctx : Ctx) (w : World N) (key : ObjectKey) :
    (∃ calls, (reconcile r ctx w key).2.log = w.log ++ calls ∧
      ∀ c ∈ calls, c.op = .install → ∃ ad, w.cluster.appDeployments key = some ad ∧
        ad.hasFinalizer ∧ ad.metadata.deletionTimestamp = none) ∧
    (RemovesFinalizer w (reconcile r ctx w key).2 key → ∀ ad, w.cluster.appDeployments key = some ad →
      (reconcile r ctx w key).2.helm.releases ad.releaseKey = none) := by
  constructor
  · rcases reconcile_shape r ctx w key with h | ⟨ad, op, w₁, w₂, hget, hg, h₁, hs, h₂⟩
    · exact ⟨[], by simp [h.log], by simp⟩
    obtain ⟨ok, hlog⟩ := hs.log
    refine ⟨[⟨ad.key, op, ad.releaseKey, w₁.installedBy ad.releaseKey, ok⟩],
      by rw [h₂.log, hlog, h₁.log], ?_⟩
    intro c hc hop
    rw [List.mem_singleton] at hc
    subst hc
    obtain rfl : op = .install := hop
    exact ⟨ad, hget, hg.2.1, hg.1⟩
  · rintro ⟨hpre, hpost⟩ ad hget
    rw [hget] at hpre
    simp only [Option.any_some, Bool.and_eq_true] at hpre
    have hgone : ∀ x, (reconcile r ctx w key).2.cluster.appDeployments key = some x →
        x.hasFinalizer = false := fun x hx ↦ by simpa [hx] using hpost
    by_cases hf : ctx.faults.get
    · have hw : (reconcile r ctx w key).2 = w := by simp [reconcile, hf]
      rw [hw] at hgone
      simp [hgone ad hget] at hpre
    rw [reconcile_terminating r ctx hget hpre.1, if_neg hf] at hgone ⊢
    rcases reconcileDelete_cleanup ctx w ad (Cluster.lookup_own_key hget) hpre.2 with ⟨x, hx, hfx⟩ | h
    · rw [w.cluster.keyed key ad hget] at hx
      simp [hgone x hx] at hfx
    · exact h

/-- What can happen to the record at `key` in a run: a pass, a caller's update of
its spec, or a deletion request. -/
inductive Action
  | reconcile (ctx : Ctx)
  | setSpec (spec : AppDeploymentSpec)
  | delete

/-- A caller's `Update` of the record's spec, made on the object it just read. -/
def World.setSpec (w : World N) (key : ObjectKey) (spec : AppDeploymentSpec) : World N :=
  match w.cluster.appDeployments key with
  | none => w
  | some cur =>
    match w.cluster.update { cur with spec := spec } with
    | .ok (_, c) => w.setCluster c
    | .error _ => w

def World.delete (w : World N) (key : ObjectKey) : World N :=
  match w.cluster.delete key with
  | .ok c => w.setCluster c
  | .error _ => w

def runActions (key : ObjectKey) : World N → List Action → World N
  | w, [] => w
  | w, .reconcile ctx :: as => runActions key (reconcile r ctx w key).2 as
  | w, .setSpec s :: as => runActions key (w.setSpec key s) as
  | w, .delete :: as => runActions key (w.delete key) as

def renameThenDelete : List Action :=
  [.reconcile ⟨0, .none⟩, .reconcile ⟨0, .none⟩,
    .setSpec { (postgresRecord "db" "").spec with releaseName := "db2" }, .delete]

theorem renamed_release_orphaned :
    let w := runActions mirrorOnly ⟨"team-a", "db"⟩ (twoRecords "") renameThenDelete
    let w' := (reconcile mirrorOnly ⟨0, .none⟩ w ⟨"team-a", "db"⟩).2
    RemovesFinalizer w w' ⟨"team-a", "db"⟩ ∧ w'.installedBy ⟨"team-a", "db"⟩ = some ⟨"team-a", "db"⟩ ∧
      (w'.helm.releases ⟨"team-a", "db"⟩).isSome := by
  decide

def passCalls (w w' : World N) : List HelmCall := w'.log.drop w.log.length

def uninstalledBy (key : ObjectKey) (c : HelmCall) : Bool := c.actor = key ∧ c.op = .uninstall ∧ c.ok

theorem passCalls_append (w w' : World N) (calls : List HelmCall) (h : w'.log = w.log ++ calls) :
    passCalls w w' = calls := by
  rw [passCalls, h, List.drop_left]

theorem reconcile_log (ctx : Ctx) (w : World N) (k : ObjectKey) :
    ((reconcile r ctx w k).2.log = w.log ∧ (reconcile r ctx w k).2.helm = w.helm) ∨
    ∃ ad op ok, w.cluster.appDeployments k = some ad ∧ OpGuard op ad w ∧
      (reconcile r ctx w k).2.log = w.log ++ [⟨ad.key, op, ad.releaseKey, w.installedBy ad.releaseKey, ok⟩] ∧
      ∀ k', k' ≠ ad.releaseKey → (reconcile r ctx w k).2.helm.releases k' = w.helm.releases k' := by
  rcases reconcile_shape r ctx w k with h | ⟨ad, op, w₁, w₂, hget, hg, h₁, hs, h₂⟩
  · exact .inl ⟨h.log, h.helm⟩
  obtain ⟨ok, hlog⟩ := hs.log
  refine .inr ⟨ad, op, ok, hget, hg, by rw [h₂.log, hlog, h₁.log, h₁.installedBy], fun k' hk' ↦ ?_⟩
  rw [h₂.helm, hs.releases k' hk', h₁.helm]

theorem reconcile_kept (ctx : Ctx) (w : World N) (k : ObjectKey) :
    Cluster.Kept w.cluster (reconcile r ctx w k).2.cluster := by
  rcases reconcile_shape r ctx w k with h | ⟨ad, op, w₁, w₂, -, -, h₁, hs, h₂⟩
  · exact h.kept
  · exact h₁.kept.trans (hs.cluster ▸ h₂.kept)

/-- The invariant of a run from `w₀` in which the record at `key`, resolving to
release `rk`, is terminating: no other record resolves to `rk`; the record, while it
exists, is terminating and resolves to `rk`; and `Uninstall` has succeeded on its
behalf at most once, after which the release is gone. -/
structure DeletionInv (key rk : ObjectKey) (w₀ w : World N) : Prop where
  others : ∀ k y, w.cluster.appDeployments k = some y → y.releaseKey = rk → k = key
  own : ∀ y, w.cluster.appDeployments key = some y → y.metadata.deletionTimestamp.isSome ∧ y.releaseKey = rk
  log : ∃ calls, w.log = w₀.log ++ calls
  once : (passCalls w₀ w).countP (uninstalledBy key) ≤ 1
  gone : 0 < (passCalls w₀ w).countP (uninstalledBy key) → w.helm.releases rk = none

section DeletionRun

variable {key rk : ObjectKey} {w₀ w : World N}

theorem DeletionInv.call {k : ObjectKey} (hi : DeletionInv key rk w₀ w) {ad : AppDeployment}
    {op : HelmOp} (hget : w.cluster.appDeployments k = some ad) (hg : OpGuard op ad w) (hk : ad.key = key ∨
      ad.releaseKey = rk) : k = key ∧ op = .uninstall ∧ ad.releaseKey = rk ∧ (w.helm.releases rk).isSome := by
  have hkey : k = key := by
    rcases hk with hk | hk
    · exact (w.cluster.keyed k ad hget).symm.trans hk
    · exact hi.others k ad hget hk
  subst hkey
  obtain ⟨hdel, hrk⟩ := hi.own ad hget
  cases op with
  | install => simp [OpGuard, Option.isSome_iff_ne_none.1 hdel] at hg
  | upgrade => simp [OpGuard, Option.isSome_iff_ne_none.1 hdel] at hg
  | uninstall => exact ⟨rfl, rfl, hrk, hrk ▸ hg.2.2⟩

theorem DeletionInv.step (hi : DeletionInv key rk w₀ w) (ctx : Ctx) (k : ObjectKey) :
    DeletionInv key rk w₀ (reconcile r ctx w k).2 := by
  have hkept := reconcile_kept r ctx w k
  obtain ⟨calls, hlog⟩ := hi.log
  have hpc : passCalls w₀ w = calls := passCalls_append w₀ w calls hlog
  have hothers : ∀ k' y, (reconcile r ctx w k).2.cluster.appDeployments k' = some y → y.releaseKey = rk →
      k' = key := fun k' y hy hr ↦ by
    obtain ⟨y₀, hy₀, he⟩ := hkept.releaseKey hy
    exact hi.others k' y₀ hy₀ (he ▸ hr)
  have hown : ∀ y, (reconcile r ctx w k).2.cluster.appDeployments key = some y →
      y.metadata.deletionTimestamp.isSome ∧ y.releaseKey = rk := fun y hy ↦ by
    obtain ⟨y₀, hy₀, hkr⟩ := hkept.records key y hy
    obtain ⟨y₀', hy₀', he⟩ := hkept.releaseKey hy
    obtain rfl : y₀ = y₀' := Option.some.inj (hy₀.symm.trans hy₀')
    obtain ⟨hd, hr⟩ := hi.own y₀ hy₀
    exact ⟨hkr.deletionTimestamp ▸ hd, he.trans hr⟩
  rcases reconcile_log r ctx w k with ⟨hl, hh⟩ | ⟨ad, op, ok, hget, hg, hl, hh⟩
  · have hpc' := passCalls_append w₀ _ calls (hl.trans hlog)
    exact ⟨hothers, hown, ⟨calls, hl.trans hlog⟩, hpc' ▸ hpc ▸ hi.once,
      fun hpos ↦ hh ▸ hi.gone (hpc ▸ hpc' ▸ hpos)⟩
  have hpc' := passCalls_append w₀ (reconcile r ctx w k).2 _ (by rw [hl, hlog, List.append_assoc])
  have hlog' : ∃ calls, (reconcile r ctx w k).2.log = w₀.log ++ calls := ⟨_, by rw [hl, hlog, List.append_assoc]⟩
  by_cases hrel : ad.releaseKey = rk
  · obtain ⟨rfl, rfl, -, hex⟩ := hi.call hget hg (.inr hrel)
    have h₀ : calls.countP (uninstalledBy k) = 0 := by
      by_contra hne
      rw [hi.gone (by rw [hpc]; omega)] at hex
      cases hex
    refine ⟨hothers, hown, hlog', ?_, fun hpos ↦ ?_⟩
    · rw [hpc', List.countP_append, h₀, Nat.zero_add]
      exact List.countP_le_length _
    rw [hpc', List.countP_append, h₀] at hpos
    obtain rfl : ok = true := by cases ok <;> simp_all [uninstalledBy]
    have hdel := (hi.own ad hget).1
    rw [reconcile_terminating r ctx hget hdel] at hl ⊢
    split_ifs at hl ⊢
    · simp at hl
    · rw [← hrel]
      exact (reconcileDelete_outcome ctx w ad (Cluster.lookup_own_key hget) hg.2.1).1 _ hl
  · have hnot : uninstalledBy key ⟨ad.key, op, ad.releaseKey, w.installedBy ad.releaseKey, ok⟩ = false := by
      by_contra hc
      have hk : ad.key = key := by simp only [uninstalledBy, Bool.not_eq_false, decide_eq_true_eq] at hc; exact hc.1
      exact hrel (hi.call hget hg (.inl hk)).2.2.1
    have hc : (passCalls w₀ (reconcile r ctx w k).2).countP (uninstalledBy key) =
        (passCalls w₀ w).countP (uninstalledBy key) := by
      rw [hpc', List.countP_append, List.countP_singleton, hnot, if_neg Bool.false_ne_true, Nat.add_zero, hpc]
    exact ⟨hothers, hown, hlog', hc ▸ hi.once, fun hpos ↦ (hh rk (Ne.symm hrel)).trans (hi.gone (hc ▸ hpos))⟩

theorem DeletionInv.run (hi : DeletionInv key rk w₀ w) (ps : List (Ctx × ObjectKey)) :
    DeletionInv key rk w₀ (runPasses r w ps) := by
  induction ps generalizing w with
  | nil => exact hi
  | cons p ps ih => exact ih (hi.step r p.1 p.2)

theorem DeletionInv.uninstall_present (hi : DeletionInv key rk w₀ w) (ctx : Ctx) (k : ObjectKey) :
    ∀ c ∈ passCalls w (reconcile r ctx w k).2, c.actor = key → c.op = .uninstall → (w.helm.releases rk).isSome := by
  rcases reconcile_log r ctx w k with ⟨hl, -⟩ | ⟨ad, op, ok, hget, hg, hl, -⟩
  · rw [passCalls_append w _ [] (by rw [hl, List.append_nil])]
    nofun
  · rw [passCalls_append w _ _ hl]
    intro c hc hk _
    rw [List.mem_singleton] at hc
    subst hc
    exact (hi.call hget hg (.inl hk)).2.2.2

theorem removesFinalizer_of_eq {w w' : World N} {key : ObjectKey}
    (h : w'.cluster.appDeployments key = w.cluster.appDeployments key) : ¬ RemovesFinalizer w w' key := by
  rintro ⟨h₁, h₂⟩
  rw [h] at h₂
  cases hx : w.cluster.appDeployments key <;> simp_all

theorem DeletionInv.removesFinalizer (hi : DeletionInv key rk w₀ w) (ctx : Ctx) (k : ObjectKey)
    (hrem : RemovesFinalizer w (reconcile r ctx w k).2 key) :
    (reconcile r ctx w k).1.2 = none ∧
      (Client.releaseExists w.helm rk.name rk.ns ctx.faults.getRelease = .ok false ∨
        ∃ c ∈ passCalls w (reconcile r ctx w k).2, uninstalledBy key c) := by
  by_cases hk : k = key
  swap
  · exact absurd hrem (removesFinalizer_of_eq ((reconcile_passWrites r ctx w k).frame key (Ne.symm hk)))
  subst hk
  obtain ⟨h₁, h₂⟩ := hrem
  rcases hy : w.cluster.appDeployments k with _ | y
  · simp [hy] at h₁
  have hpre : y.metadata.deletionTimestamp.isSome ∧ y.hasFinalizer := by simpa [hy] using h₁
  obtain ⟨-, hrk⟩ := hi.own y hy
  rw [reconcile_terminating r ctx hy hpre.1] at h₂ ⊢
  split_ifs at h₂ ⊢
  · exact absurd ⟨h₁, h₂⟩ (removesFinalizer_of_eq rfl)
  have hst := Cluster.lookup_own_key hy
  have hyk : y.key = k := w.cluster.keyed k y hy
  obtain ⟨-, herr, hok, -⟩ := reconcileDelete_outcome ctx w y hst hpre.2
  rcases he : (reconcileDelete ctx w y).1.2 with _ | e
  · obtain ⟨-, hex | ⟨o, hl⟩⟩ := hok he
    · exact ⟨rfl, .inl (hrk ▸ hex)⟩
    · refine ⟨rfl, .inr ⟨_, by rw [passCalls_append w _ _ hl]; exact List.mem_singleton_self _, ?_⟩⟩
      simp [uninstalledBy, hyk]
  · obtain ⟨y', hy', hfin⟩ := herr (by rw [he]; rfl)
    rw [hyk] at hy'
    rw [hy'] at h₂
    simp [hfin] at h₂

end DeletionRun

/-- Deleting a record whose release no other record resolves to: in every run of
passes, whatever call fails, `Uninstall` succeeds on the record's behalf at most
once and is called only while the release is there; the finalizer comes off only
in a pass that succeeds after `ReleaseExists` returned false or `Uninstall`
succeeded, and a pass that fails leaves it on. -/
theorem uninstall_once_before_finalizer (w : World N) (key : ObjectKey) (x : AppDeployment)
    (hx : w.cluster.appDeployments key = some x) (hdel : x.metadata.deletionTimestamp.isSome)
    (hdistinct : ∀ k y, w.cluster.appDeployments k = some y → y.releaseKey = x.releaseKey → k = key) :
    (∀ ps, (passCalls w (runPasses r w ps)).countP (uninstalledBy key) ≤ 1) ∧
    (∀ ps ctx k, ∀ c ∈ passCalls (runPasses r w ps) (reconcile r ctx (runPasses r w ps) k).2,
      c.actor = key → c.op = .uninstall → ((runPasses r w ps).helm.releases x.releaseKey).isSome) ∧
    (∀ ps ctx k, RemovesFinalizer (runPasses r w ps) (reconcile r ctx (runPasses r w ps) k).2 key →
      Client.releaseExists (runPasses r w ps).helm x.releaseName x.metadata.ns ctx.faults.getRelease = .ok false ∨
      ∃ c ∈ passCalls (runPasses r w ps) (reconcile r ctx (runPasses r w ps) k).2, uninstalledBy key c) ∧
    (∀ ps ctx k e, (reconcile r ctx (runPasses r w ps) k).1.2 = some e →
      ¬ RemovesFinalizer (runPasses r w ps) (reconcile r ctx (runPasses r w ps) k).2 key) := by
  have h₀ : DeletionInv key x.releaseKey w w :=
    ⟨hdistinct, fun y hy ↦ by rw [hx] at hy; cases hy; exact ⟨hdel, rfl⟩, ⟨[], (List.append_nil _).symm⟩,
      by simp [passCalls], by simp [passCalls]⟩
  refine ⟨fun ps ↦ (h₀.run r ps).once, fun ps ctx k ↦ (h₀.run r ps).uninstall_present r ctx k,
    fun ps ctx k h ↦ ((h₀.run r ps).removesFinalizer r ctx k h).2, fun ps ctx k e he h ↦ ?_⟩
  rw [((h₀.run r ps).removesFinalizer r ctx k h).1] at he
  cases he

def terminatingDb : AppDeployment :=
  ⟨⟨"db", "team-a", [], [], [finalizerName], some 1, 1, 0, 0⟩, (postgresRecord "db" "").spec, .empty⟩

def terminatingWorld : World Nat := withRelease (worldOf [terminatingDb]) terminatingDb

theorem terminatingDb_uninstalls_once :
    (terminatingWorld.helm.releases (terminatingDb.withRV 1).releaseKey).isSome ∧
    terminatingWorld.cluster.appDeployments ⟨"team-a", "db"⟩ = some (terminatingDb.withRV 1) ∧
    (terminatingDb.withRV 1).metadata.deletionTimestamp.isSome ∧
    (∀ k y, terminatingWorld.cluster.appDeployments k = some y →
      y.releaseKey = (terminatingDb.withRV 1).releaseKey → k = ⟨"team-a", "db"⟩) ∧
    (∀ ps, (passCalls terminatingWorld (runPasses mirrorOnly terminatingWorld ps)).countP
      (uninstalledBy ⟨"team-a", "db"⟩) ≤ 1) ∧
    (∀ ps ctx k, ∀ c ∈ passCalls (runPasses mirrorOnly terminatingWorld ps)
        (reconcile mirrorOnly ctx (runPasses mirrorOnly terminatingWorld ps) k).2,
      c.actor = ⟨"team-a", "db"⟩ → c.op = .uninstall →
        ((runPasses mirrorOnly terminatingWorld ps).helm.releases (terminatingDb.withRV 1).releaseKey).isSome) ∧
    (∀ ps ctx k, RemovesFinalizer (runPasses mirrorOnly terminatingWorld ps)
        (reconcile mirrorOnly ctx (runPasses mirrorOnly terminatingWorld ps) k).2 ⟨"team-a", "db"⟩ →
      Client.releaseExists (runPasses mirrorOnly terminatingWorld ps).helm
          (terminatingDb.withRV 1).releaseName (terminatingDb.withRV 1).metadata.ns ctx.faults.getRelease = .ok false ∨
      ∃ c ∈ passCalls (runPasses mirrorOnly terminatingWorld ps)
        (reconcile mirrorOnly ctx (runPasses mirrorOnly terminatingWorld ps) k).2,
        uninstalledBy ⟨"team-a", "db"⟩ c) ∧
    (∀ ps ctx k e, (reconcile mirrorOnly ctx (runPasses mirrorOnly terminatingWorld ps) k).1.2 = some e →
      ¬ RemovesFinalizer (runPasses mirrorOnly terminatingWorld ps)
        (reconcile mirrorOnly ctx (runPasses mirrorOnly terminatingWorld ps) k).2 ⟨"team-a", "db"⟩) := by
  have hx : terminatingWorld.cluster.appDeployments ⟨"team-a", "db"⟩ = some (terminatingDb.withRV 1) := by
    decide
  have hd : ∀ k y, terminatingWorld.cluster.appDeployments k = some y →
      y.releaseKey = (terminatingDb.withRV 1).releaseKey → k = ⟨"team-a", "db"⟩ := fun k y hy _ ↦ by
    have hs : terminatingDb.Storable := by decide
    simp only [terminatingWorld, withRelease, worldOf, List.foldl, dif_pos hs, Cluster.write_apply] at hy
    split_ifs at hy with hk
    · exact hk
    · cases hy
  exact ⟨by decide, hx, rfl, hd, uninstall_once_before_finalizer mirrorOnly _ _ _ hx rfl hd⟩

def OwnReleases (c : Cluster) : Prop := ∀ k x, c.appDeployments k = some x → x.releaseKey = k

/-- The finalizer's guard over Helm: every record resolves to the release under its
own key, and every release has a record under its key that carries the finalizer,
so that deleting the record runs `reconcileDelete` before the record goes. -/
structure ReleasesGuarded (w : World N) : Prop where
  own : OwnReleases w.cluster
  guarded : ∀ k, (w.helm.releases k).isSome → ∃ x, w.cluster.appDeployments k = some x ∧ x.hasFinalizer

theorem reconcile_releases_frame (ctx : Ctx) (w : World N) {key k : ObjectKey}
    (hk : ∀ ad, w.cluster.appDeployments key = some ad → k ≠ ad.releaseKey) :
    (reconcile r ctx w key).2.helm.releases k = w.helm.releases k := by
  rcases reconcile_shape r ctx w key with h | ⟨ad, _, w₁, w₂, had, -, h₁, hs, h₂⟩
  · rw [h.helm]
  · rw [h₂.helm, hs.releases k (hk ad had), h₁.helm]

theorem reconcile_guarded_key (ctx : Ctx) (w : World N) (key : ObjectKey) (h : ReleasesGuarded w) :
    ((reconcile r ctx w key).2.helm.releases key).isSome →
      ∃ x, (reconcile r ctx w key).2.cluster.appDeployments key = some x ∧ x.hasFinalizer := by
  unfold reconcile
  split
  · exact h.guarded key
  split
  · exact h.guarded key
  rename_i ad hget
  obtain rfl : ad.key = key := w.cluster.keyed key ad hget
  split
  · cases hf : ad.hasFinalizer
    · rw [show reconcileDelete ctx w ad = (done, w) by simp [reconcileDelete, hf]]
      exact h.guarded _
    · rcases reconcileDelete_cleanup ctx w ad hget hf with hx | hnone
      · exact fun _ ↦ hx
      · rw [← h.own _ ad hget, hnone]
        nofun
  split
  · rename_i hnf
    have hno : w.helm.releases ad.key = none := by
      by_contra hs
      obtain ⟨x, hx, hf⟩ := h.guarded ad.key (Option.ne_none_iff_isSome.1 hs)
      rw [hget] at hx
      cases hx
      simp [hf] at hnf
    have hh := World.update_helm w ctx.faults.update (addFinalizer ad)
    split <;> rename_i heq <;> simp only [heq] at hh <;> simp [hh, hno]
  split
  · exact h.guarded ad.key
  · rename_i hnf _
    exact fun _ ↦ reconcileHelm_finalizerHeld r ctx w ad ad.key ad hget (by simpa using hnf)

theorem reconcile_releasesGuarded (ctx : Ctx) (w : World N) (key : ObjectKey) (h : ReleasesGuarded w) :
    ReleasesGuarded (reconcile r ctx w key).2 where
  own k x' hx := by
    obtain ⟨x, hx₀, e⟩ := (reconcile_kept r ctx w key).releaseKey hx
    exact e.trans (h.own k x hx₀)
  guarded k hk := by
    by_cases hkey : k = key
    · subst hkey
      exact reconcile_guarded_key r ctx w k h hk
    · rw [reconcile_releases_frame r ctx w fun ad had e ↦ hkey (e.trans (h.own key ad had))] at hk
      obtain ⟨x, hx, hf⟩ := h.guarded k hk
      exact ⟨x, ((reconcile_passWrites r ctx w key).frame k hkey).trans hx, hf⟩

end Appstore.Controller
