import Appstore.Rabbitmq.Handler
import Appstore.Kube.Writes

namespace Appstore.Rabbitmq

open Appstore.Api Appstore.Json Appstore.Kube

variable {N : Type} (nf : NumberFormat N)

/-- `HandleDeploymentUpdate` with the writes `ops` of other clients and of the
controller landing between its `Get` and its `Update`. -/
def handleDeploymentUpdateInterleaved (c : Cluster) (p : DeploymentUpdatePayload N)
    (ops : List ClusterOp) : HandleResult × Cluster :=
  match checkUpdate nf c p with
  | .error r => (r, c.applyAll ops)
  | .ok ad => updateChecked (c.applyAll ops) ad

def handleDeploymentDeleteInterleaved (c : Cluster) (p : DeploymentDeletePayload)
    (ops : List ClusterOp) : HandleResult × Cluster :=
  match checkDelete c p with
  | .error r => (r, c.applyAll ops)
  | .ok ad => deleteChecked (c.applyAll ops) ad

theorem handleDeploymentUpdateInterleaved_nil (c : Cluster) (p : DeploymentUpdatePayload N) :
    handleDeploymentUpdateInterleaved nf c p [] = handleDeploymentUpdate nf c p := rfl

theorem handleDeploymentDeleteInterleaved_nil (c : Cluster) (p : DeploymentDeletePayload) :
    handleDeploymentDeleteInterleaved c p [] = handleDeploymentDelete c p := rfl

/-- An `Update` of `HandleDeploymentUpdate` that succeeds, whatever writes landed
since its `Get`, replaces the very object the `Get` read, which is the team's:
the resource version it carries makes any write in between fail it. -/
theorem update_interleaved_overwrites_read (c : Cluster) (hf : c.Fresh) (p : DeploymentUpdatePayload N)
    (ops : List ClusterOp) (hok : (handleDeploymentUpdateInterleaved nf c p ops).1 = .ok) :
    ∃ x, c.appDeployments ⟨p.ns, p.name⟩ = some x ∧ x.spec.teamId = p.teamId ∧
      ∀ pre, pre <+: ops → (c.applyAll pre).appDeployments ⟨p.ns, p.name⟩ = some x := by
  unfold handleDeploymentUpdateInterleaved at hok
  rcases hchk : checkUpdate nf c p with r | ad <;> simp only [hchk] at hok
  · obtain ⟨e, rfl⟩ := checkUpdate_error nf hchk
    cases hok
  obtain ⟨x, hx, hteam, rfl⟩ := checkUpdate_ok nf hchk
  unfold updateChecked at hok
  split at hok
  · rename_i hu
    obtain ⟨cur, hcur, hv⟩ := Cluster.update_current hu
    have hkey : (applyUpdate nf p x).key = ⟨p.ns, p.name⟩ := c.keyed _ x hx
    rw [hkey] at hcur
    exact ⟨x, hx, hteam, Cluster.applyAll_untouched c ops hf hx cur hcur hv⟩
  · cases hok

def dbDelete : DeploymentDeletePayload :=
  ⟨"5c0e2b7a-9d14-4f3e-8a26-7b1c9e0d3f58", "team-a", "user-1", "db", "team-a"⟩

def dbStored : Cluster :=
  (handleDeploymentRequest decimalFormat (Cluster.empty ["team-a"]) (dbRequest "team-a")).2

def dbRecreated : List ClusterOp :=
  [.delete ⟨"team-a", "db"⟩, .create (requestAppDeployment decimalFormat (dbRequest "team-b") "db")]

/-- Between the `Get` and the `Delete` of team `team-a`'s request, `db` is deleted
and team `team-b` creates `db` again; the handler's `Delete` then removes team
`team-b`'s record. -/
theorem delete_interleaved_removes_other_team :
    ((dbStored.applyAll dbRecreated).appDeployments ⟨"team-a", "db"⟩).map (·.spec.teamId) = some "team-b" ∧
      (handleDeploymentDeleteInterleaved dbStored dbDelete dbRecreated).1 = .ok ∧
      (handleDeploymentDeleteInterleaved dbStored dbDelete dbRecreated).2.appDeployments ⟨"team-a", "db"⟩ =
        none := by
  decide

end Appstore.Rabbitmq
