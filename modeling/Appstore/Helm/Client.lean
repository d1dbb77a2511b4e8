import Appstore.Json.Value
import Appstore.Kube.ApiServer

namespace Appstore.Helm

open Appstore.Api Appstore.Json Appstore.Kube

structure Chart where
  name : String
  version : String
  appVersion : String
  deriving DecidableEq, Repr

/-- The latest revision of a release as Helm's storage driver keeps it. -/
structure Release (N : Type) where
  name : String
  ns : String
  version : Nat
  status : String
  chart : Chart
  config : Fields N

structure ReleaseInfo where
  name : String
  ns : String
  revision : Nat
  status : String
  chartName : String
  chartVersion : String
  appVersion : String
  deriving DecidableEq, Repr

variable {N : Type}

def releaseToInfo (rel : Release N) : ReleaseInfo :=
  ⟨rel.name, rel.ns, rel.version, rel.status, rel.chart.name, rel.chart.version, rel.chart.appVersion⟩

/-- What `os.Stat` and `loader.Load` find under the client's `chartsPath`, by chart name. -/
structure ChartsDir where
  stat : String → Bool
  load : String → Except String Chart

structure Client where
  repoURL : String

structure HelmState (N : Type) where
  releases : ObjectKey → Option (Release N)
  charts : ChartsDir

def HelmState.setRelease (hs : HelmState N) (k : ObjectKey) (r : Option (Release N)) :
    HelmState N :=
  { hs with releases := Function.update hs.releases k r }

/-- What a call gives back: a value, an error, or the panic that unwinds it. -/
inductive CallResult (α : Type) where
  | ok (a : α)
  | error (e : String)
  | panic (p : String)
  deriving DecidableEq, Repr

def CallResult.isOk {α : Type} : CallResult α → Bool
  | .ok _ => true
  | _ => false

/-- Transient failures: of `getActionConfig`, and of the action's run. A failed
install or upgrade that had already recorded its revision leaves it behind as
`failed`. -/
structure HelmFaults where
  config : Bool
  run : Bool
  leavesRevision : Bool

def HelmFaults.none : HelmFaults := ⟨false, false, false⟩

def transientError : String := "Kubernetes cluster unreachable"

def configError : String := "failed to initialize helm action config: " ++ transientError

def invalidReleaseName : String :=
  "invalid release name, must match regex ^[a-z0-9]([-a-z0-9]*[a-z0-9])?(\\.[a-z0-9]([-a-z0-9]*[a-z0-9])?)*$ " ++
    "and the length must not be longer than 53"

/-- `chartutil.ValidateReleaseName`, which Helm's `Get`, `Install`, `Upgrade` and
`Uninstall` run first: a non-empty name of at most 53 bytes made of dot-separated
lower-case DNS labels. -/
def validateReleaseName (name : String) : Option String :=
  if name = "" then some "no name provided"
  else if name.utf8ByteSize ≤ 53 && (dnsLabels name.toList).all dnsLabel then none
  else some invalidReleaseName

def isPending (status : String) : Bool :=
  status = "pending-install" || status = "pending-upgrade" || status = "pending-rollback"

def nilDereference : String := "runtime error: invalid memory address or nil pointer dereference"

/-- `pullChart` builds its `action.Pull` with no `Settings`, and `Pull.Run` reads
them first (`getter.All(p.Settings)`): every pull panics before it fetches. -/
def Client.pullChart : CallResult String := .panic nilDereference

/-- A chart under `chartsPath` is used whatever version is asked for; a missing
one goes to `pullChart`. -/
def Client.locateChart (cl : Client) (d : ChartsDir) (chartName : String) : CallResult String :=
  if d.stat chartName then .ok chartName
  else if cl.repoURL ≠ "" then Client.pullChart
  else .error ("chart " ++ chartName ++ " not found locally and no repository configured")

def Client.loadChart (cl : Client) (d : ChartsDir) (chartName : String) : CallResult Chart :=
  match cl.locateChart d chartName with
  | .error e => .error ("failed to locate chart: " ++ e)
  | .panic p => .panic p
  | .ok path =>
    match d.load path with
    | .error e => .error ("failed to load chart: " ++ e)
    | .ok ch => .ok ch

def Client.install (cl : Client) (hs : HelmState N) (releaseName chartName ns : String)
    (values : Fields N) (f : HelmFaults) : CallResult ReleaseInfo × HelmState N :=
  if f.config then (.error configError, hs)
  else match cl.loadChart hs.charts chartName with
  | .error e => (.error e, hs)
  | .panic p => (.panic p, hs)
  | .ok ch =>
    let k : ObjectKey := ⟨ns, releaseName⟩
    match validateReleaseName releaseName with
    | some e => (.error ("failed to install chart: release name \"" ++ releaseName ++ "\": " ++ e), hs)
    | none =>
      if (hs.releases k).isSome then
        (.error "failed to install chart: cannot re-use a name that is still in use", hs)
      else if f.run then
        (.error ("failed to install chart: " ++ transientError),
          if f.leavesRevision then hs.setRelease k (some ⟨releaseName, ns, 1, "failed", ch, values⟩)
          else hs)
      else
        let rel : Release N := ⟨releaseName, ns, 1, "deployed", ch, values⟩
        (.ok (releaseToInfo rel), hs.setRelease k (some rel))

def Client.upgrade (cl : Client) (hs : HelmState N) (releaseName chartName ns : String)
    (values : Fields N) (f : HelmFaults) : CallResult ReleaseInfo × HelmState N :=
  if f.config then (.error configError, hs)
  else match cl.loadChart hs.charts chartName with
  | .error e => (.error e, hs)
  | .panic p => (.panic p, hs)
  | .ok ch =>
    let k : ObjectKey := ⟨ns, releaseName⟩
    if (validateReleaseName releaseName).isSome then
      (.error ("failed to upgrade chart: release name is invalid: " ++ releaseName), hs)
    else match hs.releases k with
    | none => (.error ("failed to upgrade chart: \"" ++ releaseName ++ "\" has no deployed releases"), hs)
    | some cur =>
      if isPending cur.status then
        (.error "failed to upgrade chart: another operation (install/upgrade/rollback) is in progress", hs)
      else if f.run then
        (.error ("failed to upgrade chart: " ++ transientError),
          if f.leavesRevision then
            hs.setRelease k (some ⟨releaseName, ns, cur.version + 1, "failed", ch, values⟩)
          else hs)
      else
        let rel : Release N := ⟨releaseName, ns, cur.version + 1, "deployed", ch, values⟩
        (.ok (releaseToInfo rel), hs.setRelease k (some rel))

def Client.uninstall (hs : HelmState N) (releaseName ns : String) (fault : Bool) :
    Except String Unit × HelmState N :=
  let k : ObjectKey := ⟨ns, releaseName⟩
  if fault then (.error ("failed to uninstall release: " ++ transientError), hs)
  else if (validateReleaseName releaseName).isSome then
    (.error ("failed to uninstall release: uninstall: Release name is invalid: " ++ releaseName), hs)
  else match hs.releases k with
    | none =>
      (.error ("failed to uninstall release: uninstall: Release not loaded: " ++ releaseName ++
        ": release: not found"), hs)
    | some _ => (.ok (), hs.setRelease k none)

/-- `GetRelease`: a missing release is `nil`, not an error. -/
def Client.getRelease (hs : HelmState N) (releaseName ns : String) (fault : Bool) :
    Except String (Option ReleaseInfo) :=
  if fault then .error ("failed to get release: " ++ transientError)
  else if (validateReleaseName releaseName).isSome then
    .error ("failed to get release: releaseContent: Release name is invalid: " ++ releaseName)
  else .ok ((hs.releases ⟨ns, releaseName⟩).map releaseToInfo)

def Client.releaseExists (hs : HelmState N) (releaseName ns : String) (fault : Bool) :
    Except String Bool :=
  (Client.getRelease hs releaseName ns fault).map Option.isSome

@[simp] theorem setRelease_releases (hs : HelmState N) (k k' : ObjectKey) (r : Option (Release N)) :
    (hs.setRelease k r).releases k' = if k' = k then r else hs.releases k' := by
  simp [HelmState.setRelease, Function.update_apply]

theorem install_releases (cl : Client) (hs : HelmState N) (rn cn ns : String) (v : Fields N)
    (f : HelmFaults) (k : ObjectKey) (hk : k ≠ ⟨ns, rn⟩) :
    (cl.install hs rn cn ns v f).2.releases k = hs.releases k := by
  unfold Client.install
  by_cases hc : f.config
  · rw [if_pos hc]
  rw [if_neg hc]
  rcases cl.loadChart hs.charts cn with ch | e | p <;> dsimp only
  split
  · rfl
  · split_ifs <;> simp [hk]

theorem upgrade_releases (cl : Client) (hs : HelmState N) (rn cn ns : String) (v : Fields N)
    (f : HelmFaults) (k : ObjectKey) (hk : k ≠ ⟨ns, rn⟩) :
    (cl.upgrade hs rn cn ns v f).2.releases k = hs.releases k := by
  unfold Client.upgrade
  by_cases hc : f.config
  · rw [if_pos hc]
  rw [if_neg hc]
  rcases cl.loadChart hs.charts cn with ch | e | p <;> dsimp only
  by_cases hv : (validateReleaseName rn).isSome
  · rw [if_pos hv]
  rw [if_neg hv]
  split
  · rfl
  · split_ifs <;> simp [hk]

theorem uninstall_releases (hs : HelmState N) (rn ns : String) (fault : Bool) (k : ObjectKey)
    (hk : k ≠ ⟨ns, rn⟩) : (Client.uninstall hs rn ns fault).2.releases k = hs.releases k := by
  unfold Client.uninstall
  dsimp only
  split_ifs
  · rfl
  · rfl
  · split
    · rfl
    · simp [hk]

theorem install_ok (cl : Client) (hs : HelmState N) (rn cn ns : String) (v : Fields N)
    (f : HelmFaults) {info : ReleaseInfo} (h : (cl.install hs rn cn ns v f).1 = .ok info) :
    ∃ rel, (cl.install hs rn cn ns v f).2.releases ⟨ns, rn⟩ = some rel ∧ info = releaseToInfo rel := by
  unfold Client.install at h ⊢
  by_cases hc : f.config
  · rw [if_pos hc] at h
    cases h
  rw [if_neg hc] at h ⊢
  generalize cl.loadChart hs.charts cn = l at h ⊢
  rcases l with ch | e | p
  · rcases hv : validateReleaseName rn with _ | e <;> simp only [hv] at h ⊢
    · split_ifs at h ⊢
      cases h
      exact ⟨_, by simp, rfl⟩
    · cases h
  · cases h
  · cases h

theorem upgrade_ok (cl : Client) (hs : HelmState N) (rn cn ns : String) (v : Fields N)
    (f : HelmFaults) {info : ReleaseInfo} (h : (cl.upgrade hs rn cn ns v f).1 = .ok info) :
    ∃ rel, (cl.upgrade hs rn cn ns v f).2.releases ⟨ns, rn⟩ = some rel ∧ info = releaseToInfo rel := by
  unfold Client.upgrade at h ⊢
  by_cases hc : f.config
  · rw [if_pos hc] at h
    cases h
  rw [if_neg hc] at h ⊢
  generalize cl.loadChart hs.charts cn = l at h ⊢
  rcases l with ch | e | p
  · dsimp only at h ⊢
    by_cases hv : (validateReleaseName rn).isSome
    · rw [if_pos hv] at h
      cases h
    rw [if_neg hv] at h ⊢
    rcases hk : hs.releases ⟨ns, rn⟩ with _ | cur <;> simp only [hk] at h ⊢
    · cases h
    · split_ifs at h ⊢
      cases h
      exact ⟨_, by simp, rfl⟩
  · cases h
  · cases h

theorem install_none (cl : Client) (hs : HelmState N) (rn cn ns : String) (v : Fields N) {ch : Chart}
    (hl : cl.loadChart hs.charts cn = .ok ch) (hv : validateReleaseName rn = none)
    (hk : hs.releases ⟨ns, rn⟩ = none) :
    cl.install hs rn cn ns v .none = (.ok (releaseToInfo ⟨rn, ns, 1, "deployed", ch, v⟩),
      hs.setRelease ⟨ns, rn⟩ (some ⟨rn, ns, 1, "deployed", ch, v⟩)) := by
  simp [Client.install, hl, hv, hk, HelmFaults.none]

theorem upgrade_none (cl : Client) (hs : HelmState N) (rn cn ns : String) (v : Fields N) {ch : Chart}
    (hl : cl.loadChart hs.charts cn = .ok ch) (hv : validateReleaseName rn = none) {cur : Release N}
    (hk : hs.releases ⟨ns, rn⟩ = some cur) (hp : isPending cur.status = false) :
    cl.upgrade hs rn cn ns v .none = (.ok (releaseToInfo ⟨rn, ns, cur.version + 1, "deployed", ch, v⟩),
      hs.setRelease ⟨ns, rn⟩ (some ⟨rn, ns, cur.version + 1, "deployed", ch, v⟩)) := by
  simp [Client.upgrade, hl, hv, hk, hp, HelmFaults.none]

theorem uninstall_ok (hs : HelmState N) (rn ns : String) (fault : Bool)
    (h : (Client.uninstall hs rn ns fault).1 = .ok ()) :
    (Client.uninstall hs rn ns fault).2.releases ⟨ns, rn⟩ = none := by
  unfold Client.uninstall at h ⊢
  dsimp only at h ⊢
  split_ifs at h ⊢
  rcases hk : hs.releases ⟨ns, rn⟩ with _ | cur <;> simp only [hk] at h ⊢
  simp

theorem uninstall_present (hs : HelmState N) (rn ns : String) (hv : validateReleaseName rn = none)
    (hk : (hs.releases ⟨ns, rn⟩).isSome) : (Client.uninstall hs rn ns false).1 = .ok () := by
  obtain ⟨cur, hcur⟩ := Option.isSome_iff_exists.1 hk
  simp [Client.uninstall, hcur, hv]

/-- `GetRelease` answers only without failure and for a valid name, and then
reports the release stored there. -/
theorem getRelease_ok {hs : HelmState N} {rn ns : String} {fault : Bool} {o : Option ReleaseInfo}
    (h : Client.getRelease hs rn ns fault = .ok o) :
    fault = false ∧ validateReleaseName rn = none ∧ o = (hs.releases ⟨ns, rn⟩).map releaseToInfo := by
  unfold Client.getRelease at h
  split_ifs at h with hf hv
  cases h
  exact ⟨by simpa using hf, by simpa using hv, rfl⟩

theorem releaseExists_false (hs : HelmState N) (rn ns : String) (fault : Bool)
    (h : Client.releaseExists hs rn ns fault = .ok false) : hs.releases ⟨ns, rn⟩ = none := by
  unfold Client.releaseExists Client.getRelease at h
  split_ifs at h
  · cases h
  · cases h
  · cases e : hs.releases ⟨ns, rn⟩ <;> simp_all [Except.map]

end Appstore.Helm
