import Appstore.Controller.Idempotence

namespace Appstore.Helm

open Appstore.Api Appstore.Json

variable {N : Type}

/-- A release with its status forgotten, but for whether an operation is pending on
it, which `Upgrade` checks. -/
def Release.eraseStatus (rel : Release N) : Release N :=
  { rel with status := if isPending rel.status then rel.status else "" }

@[simp] theorem Release.eraseStatus_eraseStatus (rel : Release N) : rel.eraseStatus.eraseStatus = rel.eraseStatus := by
  unfold Release.eraseStatus
  split_ifs <;> simp_all [isPending]

def HelmState.eraseStatus (hs : HelmState N) : HelmState N :=
  { hs with releases := fun k ↦ (hs.releases k).map Release.eraseStatus }

@[simp] theorem HelmState.eraseStatus_eraseStatus (hs : HelmState N) :
    hs.eraseStatus.eraseStatus = hs.eraseStatus := by
  simp only [HelmState.eraseStatus, Option.map_map]
  congr
  funext k
  cases hs.releases k <;> simp

end Appstore.Helm

namespace Appstore.Controller

open Appstore.Api Appstore.Json Appstore.Kube Appstore.Helm

variable {N : Type}

def World.eraseStatus (w : World N) : World N := { w with helm := w.helm.eraseStatus }

@[simp] theorem World.eraseStatus_eraseStatus (w : World N) : w.eraseStatus.eraseStatus = w.eraseStatus := by
  simp [World.eraseStatus]

/-- Two results of a call alike but for the statuses of Helm releases: the same
value, and worlds that differ at most there. -/
def Alike {α : Type} (p q : α × World N) : Prop := p.1 = q.1 ∧ p.2.eraseStatus = q.2.eraseStatus

theorem Alike.symm {α : Type} {p q : α × World N} (h : Alike p q) : Alike q p := ⟨h.1.symm, h.2.symm⟩

theorem Alike.trans {α : Type} {p q s : α × World N} (h₁ : Alike p q) (h₂ : Alike q s) : Alike p s :=
  ⟨h₁.1.trans h₂.1, h₁.2.trans h₂.2⟩

theorem Alike.eraseStatus {α : Type} (a : α) (w : World N) : Alike (a, w.eraseStatus) (a, w) :=
  ⟨rfl, w.eraseStatus_eraseStatus⟩

variable (r : Reconciler N)

end Appstore.Controller
