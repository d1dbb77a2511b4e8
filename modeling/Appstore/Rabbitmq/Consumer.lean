import Appstore.Rabbitmq.Handler
import Appstore.Kube.Writes
import Mathlib.Data.List.Nodup

namespace Appstore.Rabbitmq

open Appstore.Json Appstore.Kube

/-- A delivery on the consumer's channel: a ghost identity, fresh for each
delivery, and the message body. -/
structure Delivery where
  id : Nat
  body : List Char
  deriving DecidableEq, Repr

/-- `msg.Ack(false)`, or `msg.Nack(false, true)`, which requeues. -/
inductive Settlement
  | ack
  | nack
  deriving DecidableEq, Repr

def settlementOf : HandleResult → Settlement
  | .ok => .ack
  | _ => .nack

@[simp] theorem settlementOf_eq_ack (r : HandleResult) : settlementOf r = .ack ↔ r = .ok := by
  cases r <;> simp [settlementOf]

def HandleResult.isPanic : HandleResult → Bool
  | .panic _ => true
  | _ => false

/-- Where the goroutine running `Start` stands. A crash keeps the phase the
process died in. -/
inductive Phase
  | connecting
  | consuming
  | handling (d : Delivery)
  | settling (d : Delivery) (r : HandleResult)
  | exited
  | crashed (last : Phase)
  deriving DecidableEq, Repr

namespace Phase

def inHand : Phase → List Delivery
  | handling d => [d]
  | settling d _ => [d]
  | crashed p => p.inHand
  | _ => []

def pending : Phase → List (Nat × HandleResult)
  | settling d r => [(d.id, r)]
  | crashed p => p.pending
  | _ => []

def isCrashed : Phase → Bool
  | crashed _ => true
  | connecting | consuming | handling _ | settling _ _ | exited => false

end Phase

/-- The consumer, its channel at the broker and the store its handler writes.
`taken`, `results`, `settled` and `removed` are ghost: what the loop took, what
`handleMessage` returned for each delivery, how the loop settled each, and what
the broker removed from the queue. -/
structure ConsumerState where
  phase : Phase
  ctxDone : Bool
  doneClosed : Bool
  connOpen : Bool
  ready : List (List Char)
  buffer : List Delivery
  unacked : List Delivery
  nextId : Nat
  cluster : Cluster
  taken : List Delivery
  results : List (Nat × HandleResult)
  settled : List (Nat × Settlement)
  removed : List Delivery

/-- One choice of the scheduler. -/
inductive Event
  /-- A message is routed to the queue. -/
  | publish (body : List Char)
  /-- The broker delivers the queue's head on the consumer's channel. -/
  | push
  /-- The broker or the network closes the connection. -/
  | drop
  /-- Another client, or the controller, writes the store. -/
  | write (op : ClusterOp)
  /-- `connect` and `Consume` succeed, or one of them fails. -/
  | connect (ok : Bool)
  /-- `consume`'s `select` takes a delivery from `msgs`. -/
  | take
  /-- `c.handleMessage` returns, or panics. -/
  | finish
  /-- The loop acks or nacks the delivery it handled. -/
  | settle
  /-- `consume`'s `select` sees `connClose` or the closed `msgs`. -/
  | closed
  | cancel
  /-- A `select` on `ctx.Done()` returns `ctx.Err()`. -/
  | cancelled
  | stop
  /-- `consume`'s `select` sees `c.done`: `Start` returns nil. -/
  | stopped

namespace ConsumerState

def start (c : Cluster) : ConsumerState :=
  ⟨.connecting, false, false, false, [], [], [], 0, c, [], [], [], []⟩

/-- The channel closes: the broker requeues every unsettled delivery, and the
library drops the ones not yet taken. -/
def closeChannel (s : ConsumerState) : ConsumerState :=
  { s with connOpen := false, ready := s.unacked.map (·.body) ++ s.ready, buffer := [], unacked := [] }

/-- What `Ack` or `Nack` does at the broker: nothing to a delivery it no longer
counts as unsettled, its channel having closed. -/
def settleAt (s : ConsumerState) (d : Delivery) (x : Settlement) : ConsumerState :=
  if d ∈ s.unacked then
    match x with
    | .ack => { s with unacked := s.unacked.erase d, removed := s.removed ++ [d] }
    | .nack => { s with unacked := s.unacked.erase d, ready := d.body :: s.ready }
  else s

section SettleAt

variable (s : ConsumerState) (d : Delivery) (x : Settlement)

@[simp] theorem settleAt_taken : (s.settleAt d x).taken = s.taken := by
  unfold settleAt; split_ifs <;> cases x <;> rfl

@[simp] theorem settleAt_results : (s.settleAt d x).results = s.results := by
  unfold settleAt; split_ifs <;> cases x <;> rfl

@[simp] theorem settleAt_buffer : (s.settleAt d x).buffer = s.buffer := by
  unfold settleAt; split_ifs <;> cases x <;> rfl

@[simp] theorem settleAt_nextId : (s.settleAt d x).nextId = s.nextId := by
  unfold settleAt; split_ifs <;> cases x <;> rfl

theorem mem_settleAt_removed {d' : Delivery} (h : d' ∈ (s.settleAt d x).removed) :
    d' ∈ s.removed ∨ d' = d ∧ x = .ack := by
  unfold settleAt at h
  split_ifs at h
  · cases x
    · simpa using h
    · exact .inl h
  · exact .inl h

end SettleAt

variable {N T : Type} (nf : NumberFormat N) (tf : TimeFormat T) (prefetch : Nat)

/-- `none` when the event cannot happen. A panic, and the second `close(c.done)`
of a repeated `Stop`, end the process. -/
def step (s : ConsumerState) : Event → Option ConsumerState
  | .publish b => some { s with ready := s.ready ++ [b] }
  | .push => match s.ready with
    | b :: rest =>
      if s.connOpen ∧ (prefetch = 0 ∨ s.unacked.length < prefetch) then
        let d : Delivery := ⟨s.nextId, b⟩
        some { s with
          ready := rest, buffer := s.buffer ++ [d], unacked := s.unacked ++ [d], nextId := s.nextId + 1 }
      else none
    | [] => none
  | .drop => if s.connOpen then some s.closeChannel else none
  | .write op => some { s with cluster := s.cluster.apply op }
  | .connect ok => match s.phase with
    | .connecting =>
      if s.ctxDone then none else if ok then some { s with phase := .consuming, connOpen := true } else some s
    | _ => none
  | .take => match s.phase, s.buffer with
    | .consuming, d :: rest => some { s with phase := .handling d, buffer := rest, taken := s.taken ++ [d] }
    | _, _ => none
  | .finish => match s.phase with
    | .handling d =>
      let (r, c') := handleMessage nf tf s.cluster d.body
      if r.isPanic then some { s.closeChannel with phase := .crashed s.phase }
      else some { s with phase := .settling d r, cluster := c', results := s.results ++ [(d.id, r)] }
    | _ => none
  | .settle => match s.phase with
    | .settling d r =>
      some { s.settleAt d (settlementOf r) with phase := .consuming, settled := s.settled ++ [(d.id, settlementOf r)] }
    | _ => none
  | .closed => match s.phase with
    | .consuming => if s.connOpen then none else some { s with phase := .connecting }
    | _ => none
  | .cancel => if s.phase.isCrashed then none else some { s with ctxDone := true }
  | .cancelled => match s.phase with
    | .connecting => if s.ctxDone then some { s with phase := .exited } else none
    | .consuming => if s.ctxDone then some { s.closeChannel with phase := .exited } else none
    | _ => none
  | .stop =>
    if s.phase.isCrashed then none
    else if s.doneClosed then some { s.closeChannel with phase := .crashed s.phase }
    else some { s.closeChannel with doneClosed := true }
  | .stopped => match s.phase with
    | .consuming => if s.doneClosed then some { s with phase := .exited } else none
    | _ => none

/-- The transitions of `step`, one for each way an event can happen. -/
inductive Step (s : ConsumerState) : Event → ConsumerState → Prop
  | publish (b : List Char) : Step s (.publish b) { s with ready := s.ready ++ [b] }
  | push {b : List Char} {rest : List (List Char)} (hr : s.ready = b :: rest) (hc : s.connOpen = true)
      (hq : prefetch = 0 ∨ s.unacked.length < prefetch) :
      Step s .push { s with ready := rest, buffer := s.buffer ++ [⟨s.nextId, b⟩],
                            unacked := s.unacked ++ [⟨s.nextId, b⟩], nextId := s.nextId + 1 }
  | drop (hc : s.connOpen = true) : Step s .drop s.closeChannel
  | write (op : ClusterOp) : Step s (.write op) { s with cluster := s.cluster.apply op }
  | connect (hp : s.phase = .connecting) (hc : s.ctxDone = false) :
      Step s (.connect true) { s with phase := .consuming, connOpen := true }
  | connectFails (hp : s.phase = .connecting) (hc : s.ctxDone = false) : Step s (.connect false) s
  | take {d : Delivery} {rest : List Delivery} (hp : s.phase = .consuming) (hb : s.buffer = d :: rest) :
      Step s .take { s with phase := .handling d, buffer := rest, taken := s.taken ++ [d] }
  | finish {d : Delivery} {r : HandleResult} {c' : Cluster} (hp : s.phase = .handling d)
      (hm : handleMessage nf tf s.cluster d.body = (r, c')) (hr : r.isPanic = false) :
      Step s .finish { s with phase := .settling d r, cluster := c', results := s.results ++ [(d.id, r)] }
  | finishPanics {d : Delivery} {r : HandleResult} {c' : Cluster} (hp : s.phase = .handling d)
      (hm : handleMessage nf tf s.cluster d.body = (r, c')) (hr : r.isPanic = true) :
      Step s .finish { s.closeChannel with phase := .crashed s.phase }
  | settle {d : Delivery} {r : HandleResult} (hp : s.phase = .settling d r) :
      Step s .settle
        { s.settleAt d (settlementOf r) with phase := .consuming, settled := s.settled ++ [(d.id, settlementOf r)] }
  | closed (hp : s.phase = .consuming) (hc : s.connOpen = false) : Step s .closed { s with phase := .connecting }
  | cancel (hc : s.phase.isCrashed = false) : Step s .cancel { s with ctxDone := true }
  | cancelledConnecting (hp : s.phase = .connecting) (hc : s.ctxDone = true) :
      Step s .cancelled { s with phase := .exited }
  | cancelledConsuming (hp : s.phase = .consuming) (hc : s.ctxDone = true) :
      Step s .cancelled { s.closeChannel with phase := .exited }
  | stop (hc : s.phase.isCrashed = false) (hd : s.doneClosed = false) :
      Step s .stop { s.closeChannel with doneClosed := true }
  | stopTwice (hc : s.phase.isCrashed = false) (hd : s.doneClosed = true) :
      Step s .stop { s.closeChannel with phase := .crashed s.phase }
  | stopped (hp : s.phase = .consuming) (hd : s.doneClosed = true) : Step s .stopped { s with phase := .exited }

/-- `step` is exactly its transitions. -/
theorem step_iff {s s' : ConsumerState} {e : Event} : step nf tf prefetch s e = some s' ↔ Step nf tf prefetch s e s' := by
  constructor
  · intro hs
    cases e with
    | publish b => cases hs; exact .publish b
    | push =>
      simp only [step] at hs
      split at hs
      · split_ifs at hs with hc
        cases hs
        exact .push ‹_› hc.1 hc.2
      · cases hs
    | drop =>
      simp only [step] at hs
      split_ifs at hs with hc
      cases hs
      exact .drop hc
    | write op => cases hs; exact .write op
    | connect ok =>
      simp only [step] at hs
      split at hs
      · cases ok <;> simp only [Bool.false_eq_true, if_false, if_true] at hs <;> split_ifs at hs with hc <;>
          cases hs
        · exact .connectFails ‹_› (by simpa using hc)
        · exact .connect ‹_› (by simpa using hc)
      · cases hs
    | take =>
      simp only [step] at hs
      split at hs <;> cases hs
      exact .take ‹_› ‹_›
    | finish =>
      simp only [step] at hs
      split at hs
      · rename_i d hp
        rcases hm : handleMessage nf tf s.cluster d.body with ⟨r, c'⟩
        simp only [hm] at hs
        split_ifs at hs with hr <;> cases hs
        · exact .finishPanics hp hm hr
        · exact .finish hp hm (by simpa using hr)
      · cases hs
    | settle =>
      simp only [step] at hs
      split at hs <;> cases hs
      exact .settle ‹_›
    | closed =>
      simp only [step] at hs
      split at hs
      · split_ifs at hs with hc
        cases hs
        exact .closed ‹_› (by simpa using hc)
      · cases hs
    | cancel =>
      simp only [step] at hs
      split_ifs at hs with hc
      cases hs
      exact .cancel (by simpa using hc)
    | cancelled =>
      simp only [step] at hs
      split at hs
      · split_ifs at hs with hc
        cases hs
        exact .cancelledConnecting ‹_› hc
      · split_ifs at hs with hc
        cases hs
        exact .cancelledConsuming ‹_› hc
      · cases hs
    | stop =>
      simp only [step] at hs
      split_ifs at hs with hc hd <;> cases hs
      · exact .stopTwice (by simpa using hc) hd
      · exact .stop (by simpa using hc) (by simpa using hd)
    | stopped =>
      simp only [step] at hs
      split at hs
      · split_ifs at hs with hd
        cases hs
        exact .stopped ‹_› hd
      · cases hs
  · intro h
    cases h <;> simp_all [step]

def run (s : ConsumerState) : List Event → Option ConsumerState
  | [] => some s
  | e :: es => (step nf tf prefetch s e).bind (run · es)

@[simp] theorem run_nil (s : ConsumerState) : run nf tf prefetch s [] = some s := rfl

theorem run_cons {s s' : ConsumerState} {e : Event} {es : List Event} :
    run nf tf prefetch s (e :: es) = some s' ↔ ∃ t, step nf tf prefetch s e = some t ∧ run nf tf prefetch t es = some s' :=
  Option.bind_eq_some

theorem run_append (s : ConsumerState) (es es' : List Event) :
    run nf tf prefetch s (es ++ es') = (run nf tf prefetch s es).bind (run nf tf prefetch · es') := by
  induction es generalizing s with
  | nil => rfl
  | cons e es ih =>
    show (step nf tf prefetch s e).bind (run nf tf prefetch · (es ++ es')) = _
    simp only [ih, run, Option.bind_assoc]

def settlementEntry (p : Nat × HandleResult) : Nat × Settlement := (p.1, settlementOf p.2)

/-- The accounting of deliveries every run keeps: the loop settled, in order,
each delivery it took but the one in hand, each as its handling returned; ids
are never reused; the broker removed only what was handled successfully. -/
structure Accounted (s : ConsumerState) : Prop where
  settled_taken : s.settled.map (·.1) ++ s.phase.inHand.map (·.id) = s.taken.map (·.id)
  settled_results : s.results.map settlementEntry = s.settled ++ s.phase.pending.map settlementEntry
  pending_results : ∀ p ∈ s.phase.pending, p ∈ s.results
  removed_ok : ∀ d ∈ s.removed, (d.id, HandleResult.ok) ∈ s.results
  ids_nodup : ((s.taken ++ s.buffer).map (·.id)).Nodup
  ids_fresh : ∀ d ∈ s.taken ++ s.buffer, d.id < s.nextId

theorem start_accounted (c : Cluster) : (start c).Accounted :=
  ⟨rfl, rfl, nofun, nofun, .nil, nofun⟩

/-- `s'` differs from `s` only where no delivery is taken, handled or settled. -/
structure Quiet (s s' : ConsumerState) : Prop where
  inHand : s'.phase.inHand = s.phase.inHand
  pending : s'.phase.pending = s.phase.pending
  taken : s'.taken = s.taken
  results : s'.results = s.results
  settled : s'.settled = s.settled
  removed : s'.removed = s.removed
  buffer : s'.buffer.Sublist s.buffer
  nextId : s.nextId ≤ s'.nextId

theorem Quiet.refl (s : ConsumerState) : Quiet s s :=
  ⟨rfl, rfl, rfl, rfl, rfl, rfl, .refl _, le_rfl⟩

theorem Quiet.closeChannel (s : ConsumerState) (p : Phase) (hi : p.inHand = s.phase.inHand)
    (hp : p.pending = s.phase.pending) : Quiet s { s.closeChannel with phase := p } :=
  ⟨hi, hp, rfl, rfl, rfl, rfl, List.nil_sublist _, le_rfl⟩

theorem Accounted.quiet {s s' : ConsumerState} (h : s.Accounted) (q : Quiet s s') : s'.Accounted where
  settled_taken := by rw [q.settled, q.inHand, q.taken]; exact h.settled_taken
  settled_results := by rw [q.results, q.settled, q.pending]; exact h.settled_results
  pending_results := q.results ▸ q.pending ▸ h.pending_results
  removed_ok := q.removed ▸ q.results ▸ h.removed_ok
  ids_nodup := q.taken ▸ h.ids_nodup.sublist ((q.buffer.append_left _).map _)
  ids_fresh d hd := (h.ids_fresh d ((q.buffer.append_left _).subset (q.taken ▸ hd))).trans_le q.nextId

theorem Accounted.push {s : ConsumerState} (h : s.Accounted) (rest : List (List Char)) (b : List Char) :
    Accounted { s with ready := rest, buffer := s.buffer ++ [⟨s.nextId, b⟩],
                       unacked := s.unacked ++ [⟨s.nextId, b⟩], nextId := s.nextId + 1 } where
  settled_taken := h.settled_taken
  settled_results := h.settled_results
  pending_results := h.pending_results
  removed_ok := h.removed_ok
  ids_nodup := by
    rw [← List.append_assoc, List.map_append, List.nodup_append_comm]
    refine .cons (fun hm ↦ ?_) h.ids_nodup
    obtain ⟨d, hd, he⟩ := List.mem_map.1 hm
    exact absurd (h.ids_fresh d hd) (he ▸ lt_irrefl _)
  ids_fresh d hd := by
    rw [← List.append_assoc, List.mem_append, List.mem_singleton] at hd
    rcases hd with hd | rfl
    · exact (h.ids_fresh d hd).trans (Nat.lt_succ_self _)
    · exact Nat.lt_succ_self _

theorem Accounted.take {s : ConsumerState} (h : s.Accounted) (hp : s.phase = .consuming)
    (d : Delivery) (rest : List Delivery) (hb : s.buffer = d :: rest) :
    Accounted { s with phase := .handling d, buffer := rest, taken := s.taken ++ [d] } where
  settled_taken := by
    have := h.settled_taken
    simp only [hp, Phase.inHand, List.map_nil, List.append_nil] at this
    simp [Phase.inHand, this]
  settled_results := by simpa [hp, Phase.pending] using h.settled_results
  pending_results := nofun
  removed_ok := h.removed_ok
  ids_nodup := by simpa [hb] using h.ids_nodup
  ids_fresh := by simpa [hb] using h.ids_fresh

theorem Accounted.finish {s : ConsumerState} (h : s.Accounted) {d : Delivery} (hp : s.phase = .handling d)
    (r : HandleResult) (c' : Cluster) :
    Accounted { s with phase := .settling d r, cluster := c', results := s.results ++ [(d.id, r)] } where
  settled_taken := by simpa [hp, Phase.inHand] using h.settled_taken
  settled_results := by simpa [hp, Phase.pending, settlementEntry] using h.settled_results
  pending_results := by simp [Phase.pending]
  removed_ok d' hd := List.mem_append_left _ (h.removed_ok d' hd)
  ids_nodup := h.ids_nodup
  ids_fresh := h.ids_fresh

theorem Accounted.settle {s : ConsumerState} (h : s.Accounted) {d : Delivery} {r : HandleResult}
    (hp : s.phase = .settling d r) :
    Accounted { s.settleAt d (settlementOf r) with
      phase := .consuming, settled := s.settled ++ [(d.id, settlementOf r)] } where
  settled_taken := by simpa [hp, Phase.inHand] using h.settled_taken
  settled_results := by simpa [hp, Phase.pending, settlementEntry] using h.settled_results
  pending_results := nofun
  removed_ok d' hd := by
    rcases mem_settleAt_removed s d _ hd with hd | ⟨rfl, hack⟩
    · simpa using h.removed_ok d' hd
    · obtain rfl := (settlementOf_eq_ack r).1 hack
      simpa using h.pending_results (d'.id, .ok) (by simp [hp, Phase.pending])
  ids_nodup := by simpa using h.ids_nodup
  ids_fresh := by simpa using h.ids_fresh

theorem step_accounted {s s' : ConsumerState} {e : Event} (h : s.Accounted)
    (hs : step nf tf prefetch s e = some s') : s'.Accounted := by
  cases (step_iff nf tf prefetch).1 hs with
  | connectFails _ _ => exact h
  | publish _ | write _ | cancel _ => exact h.quiet ⟨rfl, rfl, rfl, rfl, rfl, rfl, .refl _, le_rfl⟩
  | connect hp _ | closed hp _ | cancelledConnecting hp _ | stopped hp _ =>
    exact h.quiet ⟨by rw [hp]; rfl, by rw [hp]; rfl, rfl, rfl, rfl, rfl, .refl _, le_rfl⟩
  | drop _ | stop _ _ => exact h.quiet ⟨rfl, rfl, rfl, rfl, rfl, rfl, List.nil_sublist _, le_rfl⟩
  | cancelledConsuming hp _ => exact h.quiet (.closeChannel s .exited (by rw [hp]; rfl) (by rw [hp]; rfl))
  | finishPanics _ _ _ | stopTwice _ _ => exact h.quiet (.closeChannel s (.crashed s.phase) rfl rfl)
  | push _ _ _ => exact h.push _ _
  | take hp hb => exact h.take hp _ _ hb
  | finish hp _ _ => exact h.finish hp _ _
  | settle hp => exact h.settle hp

theorem run_accounted {s s' : ConsumerState} {evs : List Event} (h : s.Accounted)
    (hr : run nf tf prefetch s evs = some s') : s'.Accounted := by
  induction evs generalizing s with
  | nil => cases hr; exact h
  | cons e evs ih =>
    obtain ⟨t, hs, hr⟩ := (run_cons nf tf prefetch).1 hr
    exact ih (step_accounted nf tf prefetch h hs) hr

section Runs

variable {c : Cluster} {evs : List Event} {s : ConsumerState}
  (hr : run nf tf prefetch (start c) evs = some s)
include hr

/-- Once no delivery is in hand, every delivery the loop took has been settled,
each exactly once and in the order taken. -/
theorem settled_exactly_once (hidle : s.phase.inHand = []) :
    s.settled.map (·.1) = s.taken.map (·.id) ∧ (s.settled.map (·.1)).Nodup := by
  have h := run_accounted nf tf prefetch (start_accounted c) hr
  have hst := h.settled_taken
  rw [hidle, List.map_nil, List.append_nil] at hst
  exact ⟨hst, hst ▸ h.ids_nodup.sublist ((List.sublist_append_left _ _).map _)⟩

/-- Each settlement comes after its delivery's handling returned: an `Ack` when
it returned `nil`, a requeueing `Nack` otherwise. -/
theorem settled_as_handled : ∀ x ∈ s.settled, ∃ r, (x.1, r) ∈ s.results ∧ x.2 = settlementOf r := by
  intro x hx
  have hm : x ∈ s.results.map settlementEntry :=
    (run_accounted nf tf prefetch (start_accounted c) hr).settled_results ▸ List.mem_append_left _ hx
  obtain ⟨⟨i, r⟩, hr, rfl⟩ := List.mem_map.1 hm
  exact ⟨r, hr, rfl⟩

end Runs

theorem step_crashed {s s' : ConsumerState} {e : Event} {p : Phase} (hc : s.phase = .crashed p)
    (hs : step nf tf prefetch s e = some s') :
    s'.phase = s.phase ∧ s'.taken = s.taken ∧ s'.settled = s.settled ∧ s'.results = s.results := by
  cases (step_iff nf tf prefetch).1 hs with
  | publish _ | push _ _ _ | drop _ | write _ => exact ⟨rfl, rfl, rfl, rfl⟩
  | connect hp _ | connectFails hp _ | take hp _ | finish hp _ _ | finishPanics hp _ _ | settle hp | closed hp _
    | cancelledConnecting hp _ | cancelledConsuming hp _ | stopped hp _ => rw [hc] at hp; cases hp
  | cancel hn | stop hn _ | stopTwice hn _ => rw [hc] at hn; cases hn

theorem run_crashed {s s' : ConsumerState} {evs : List Event} {p : Phase} (hc : s.phase = .crashed p)
    (hr : run nf tf prefetch s evs = some s') :
    s'.phase = s.phase ∧ s'.taken = s.taken ∧ s'.settled = s.settled ∧ s'.results = s.results := by
  induction evs generalizing s with
  | nil => cases hr; exact ⟨rfl, rfl, rfl, rfl⟩
  | cons e evs ih =>
    obtain ⟨t, hs, hr⟩ := (run_cons nf tf prefetch).1 hr
    obtain ⟨h₁, h₂, h₃, h₄⟩ := step_crashed nf tf prefetch hc hs
    obtain ⟨g₁, g₂, g₃, g₄⟩ := ih (h₁.trans hc) hr
    exact ⟨g₁.trans h₁, g₂.trans h₂, g₃.trans h₃, g₄.trans h₄⟩

/-- The process dies only of a panic in `handleMessage` or of a second `Stop`. -/
theorem step_crashes {s s' : ConsumerState} {e : Event} (hs : step nf tf prefetch s e = some s')
    (hc : s.phase.isCrashed = false) (hc' : s'.phase.isCrashed = true) :
    (∃ d, s.phase = .handling d ∧ e = .finish ∧ (handleMessage nf tf s.cluster d.body).1.isPanic) ∨
      (e = .stop ∧ s.doneClosed) := by
  cases (step_iff nf tf prefetch).1 hs with
  | finishPanics hp hm hr => exact .inl ⟨_, hp, rfl, by rw [hm]; exact hr⟩
  | stopTwice _ hd => exact .inr ⟨rfl, hd⟩
  | publish _ | push _ _ _ | drop _ | write _ | connectFails _ _ | cancel _ | stop _ _ =>
    exact absurd (hc.symm.trans hc') Bool.false_ne_true
  | connect _ _ | take _ _ | finish _ _ _ | settle _ | closed _ _ | cancelledConnecting _ _
    | cancelledConsuming _ _ | stopped _ _ => exact absurd hc' Bool.false_ne_true

end ConsumerState

open ConsumerState

variable {N T : Type} (nf : NumberFormat N) (tf : TimeFormat T) (prefetch : Nat)

def shortIdDelivery : Delivery := ⟨0, shortIdRequest⟩

def shortIdRun : List Event := [.publish shortIdRequest, .connect true, .push, .take, .finish]

/-- The handler's panic ends the process with the delivery taken, and whatever
happens next it is never settled. -/
theorem short_request_id_never_settled (c : Cluster) :
    (run nf tf prefetch (start c) shortIdRun).map (·.phase) = some (.crashed (.handling shortIdDelivery)) ∧
      ∀ evs s, run nf tf prefetch (start c) (shortIdRun ++ evs) = some s →
        s.taken = [shortIdDelivery] ∧ s.settled = [] := by
  obtain ⟨s₁, h₁, hp, ht, hs⟩ : ∃ s₁, run nf tf prefetch (start c) shortIdRun = some s₁ ∧
      s₁.phase = .crashed (.handling shortIdDelivery) ∧ s₁.taken = [shortIdDelivery] ∧ s₁.settled = [] := by
    cases prefetch
    · exact ⟨_, rfl, rfl, rfl, rfl⟩
    · simp only [shortIdRun, run, step, start, Option.some_bind, List.length_nil, Nat.zero_lt_succ, or_true,
        and_true, if_true, Bool.false_eq_true, if_false]
      exact ⟨_, rfl, rfl, rfl, rfl⟩
  refine ⟨by simp [h₁, hp], fun evs s hr ↦ ?_⟩
  rw [run_append, h₁, Option.some_bind] at hr
  obtain ⟨-, h₂, h₃, -⟩ := run_crashed nf tf prefetch hp hr
  exact ⟨h₂.trans ht, h₃.trans hs⟩

end Appstore.Rabbitmq
