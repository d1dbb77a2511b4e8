import Appstore.Rabbitmq.Consumer
import Appstore.Rabbitmq.Publisher

namespace Appstore.Rabbitmq

open Appstore.Json Appstore.Kube

variable {N T : Type} (nf : NumberFormat N) (tf : TimeFormat T) (prefetch : Nat)

namespace ConsumerState

@[simp] theorem settleAt_cluster (s : ConsumerState) (d : Delivery) (x : Settlement) :
    (s.settleAt d x).cluster = s.cluster := by
  unfold settleAt; split_ifs <;> cases x <;> rfl

/-- The message is at the broker: ready, or delivered and not settled. -/
def Queued (s : ConsumerState) (msg : List Char) : Prop :=
  msg ∈ s.ready ∨ ∃ d ∈ s.unacked, d.body = msg

section Queued

variable {s s' : ConsumerState} {msg : List Char}

theorem Queued.mono (hq : s.Queued msg) (hr : s.ready ⊆ s'.ready) (hu : s.unacked ⊆ s'.unacked) :
    s'.Queued msg :=
  hq.imp (fun h ↦ hr h) fun ⟨d, hd, hb⟩ ↦ ⟨d, hu hd, hb⟩

theorem Queued.closeChannel (hq : s.Queued msg) (hr : s'.ready = s.unacked.map (·.body) ++ s.ready) :
    s'.Queued msg := by
  left
  rw [hr, List.mem_append, List.mem_map]
  exact hq.symm

theorem Queued.settleAt (hq : s.Queued msg) (d : Delivery) (x : Settlement) :
    (s.settleAt d x).Queued msg ∨ d.body = msg ∧ x = .ack := by
  unfold ConsumerState.settleAt
  split_ifs
  · rcases hq with hq | ⟨d', hd', rfl⟩
    · cases x
      · exact .inl (.inl hq)
      · exact .inl (.inl (List.mem_cons_of_mem _ hq))
    by_cases he : d' = d
    · subst he
      cases x
      · exact .inr ⟨rfl, rfl⟩
      · exact .inl (.inl (List.mem_cons_self _ _))
    · cases x <;> exact .inl (.inr ⟨d', (List.mem_erase_of_ne he).2 hd', rfl⟩)
  · exact .inl hq

end Queued

section Refused

variable {msg : List Char} {P : Cluster → Prop}

variable (hP : ∀ c c', Cluster.WriteStep c c' → P c → P c')
  (hfail : ∀ c, P c → (handleMessage nf tf c msg).1 ≠ .ok)
include hP hfail

end Refused

end ConsumerState

end Appstore.Rabbitmq
