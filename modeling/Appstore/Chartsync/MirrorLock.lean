import Mathlib.Data.List.Nodup

namespace Appstore.Chartsync

/-- One step of an activity, as far as the mirror is concerned: an operation on
`Syncer.mu`, on the Helm client's `c.mu`, a file access under the mirror
(`write` for a write), or anything else. -/
inductive Op
  | lock
  | unlock
  | rlock
  | runlock
  | clientLock
  | clientUnlock
  | mirror (write : Bool)
  | other
  deriving DecidableEq, Repr

/-- What `locateChart` finds, after `getActionConfig`. -/
inductive Locate
  /-- `getActionConfig` fails first. -/
  | configFails
  /-- `os.Stat` finds the chart in the charts directory. -/
  | found
  /-- `os.Stat` finds nothing: no repository is configured, or `pullChart` panics
  before it writes. -/
  | notFound
  deriving DecidableEq, Repr

def Locate.ops : Locate → List Op
  | .configFails => []
  | .found => [.mirror false, .mirror false, .other]
  | .notFound => [.mirror false]

def exclusive (git : List Bool) : List Op := .lock :: git.map .mirror ++ [.unlock]

def shared (reads : Nat) : List Op := .rlock :: List.replicate reads (.mirror false) ++ [.runlock]

/-- `Client.Install` or `Client.Upgrade`: `c.mu.Lock()`, `getActionConfig`, what
`locateChart` finds, `c.mu.Unlock()`. -/
def helmAction (l : Locate) : List Op := .clientLock :: .other :: l.ops ++ [.clientUnlock]

/-- The operator's calls that touch the mirror. `git` lists a pull's file
accesses: the `os.Stat` of `.git`, go-git's reads and writes, and for
`initialSync` an `os.RemoveAll` and the clone. -/
inductive Call
  | initialSync (git : List Bool)
  | periodicSync (git : List Bool)
  | forceSync (git : List Bool)
  | chartExists
  /-- `os.ReadDir`, then `stats` calls of `os.Stat`, one per directory entry
  that is not hidden. -/
  | listCharts (stats : Nat)
  | install (l : Locate)
  | upgrade (l : Locate)
  deriving DecidableEq, Repr

def Call.ops : Call → List Op
  | .initialSync git | .periodicSync git | .forceSync git => exclusive git
  | .chartExists => shared 1
  | .listCharts stats => shared (stats + 1)
  | .install l | .upgrade l => helmAction l

def Call.isSyncer : Call → Bool
  | .install _ | .upgrade _ => false
  | _ => true

def program (calls : List Call) : List Op := calls.flatMap Call.ops

/-- How an activity holds `Syncer.mu`. -/
inductive Held
  | none
  | shared
  | exclusive
  deriving DecidableEq, Repr

namespace Held

def next (h : Held) : Op → Held
  | .lock => .exclusive
  | .rlock => .shared
  | .unlock | .runlock => .none
  | _ => h

def allows (h : Held) : Op → Bool
  | .lock | .rlock => h = .none
  | .unlock => h = .exclusive
  | .runlock => h = .shared
  | .mirror _ => h ≠ .none
  | _ => true

end Held

def disciplined : Held → List Op → Bool
  | _, [] => true
  | h, op :: ops => h.allows op && disciplined (h.next op) ops

theorem disciplined_append (h : Held) (p q : List Op) :
    disciplined h (p ++ q) = (disciplined h p && disciplined (p.foldl Held.next h) q) := by
  induction p generalizing h with
  | nil => rfl
  | cons op p ih =>
    rw [List.cons_append]
    simp only [disciplined, ih, Bool.and_assoc, List.foldl_cons]

theorem disciplined_mirror_append {h : Held} (hh : h ≠ .none) (ws : List Bool) (q : List Op) :
    disciplined h (ws.map .mirror ++ q) = disciplined h q ∧
      (ws.map .mirror).foldl Held.next h = h := by
  induction ws with
  | nil => exact ⟨rfl, rfl⟩
  | cons w ws ih => simpa [disciplined, Held.allows, Held.next, hh] using ih

theorem Call.disciplined_ops {c : Call} (hc : c.isSyncer) :
    disciplined .none c.ops ∧ c.ops.foldl Held.next .none = .none := by
  have hx (git : List Bool) : disciplined .none (exclusive git) ∧
      (exclusive git).foldl Held.next .none = .none := by
    obtain ⟨hd, hf⟩ := disciplined_mirror_append (h := .exclusive) nofun git [.unlock]
    simp [exclusive, disciplined, Held.allows, Held.next, hd, List.foldl_append, hf]
  have hs (n : Nat) : disciplined .none (shared n) ∧ (shared n).foldl Held.next .none = .none := by
    obtain ⟨hd, hf⟩ := disciplined_mirror_append (h := .shared) nofun (List.replicate n false) [.runlock]
    simp only [List.map_replicate] at hd hf
    simp [shared, disciplined, Held.allows, Held.next, hd, List.foldl_append, hf]
  cases c <;> first | exact hx _ | exact hs _ | cases hc

theorem program_disciplined {cs : List Call} (hcs : ∀ c ∈ cs, c.isSyncer) :
    disciplined .none (program cs) := by
  induction cs with
  | nil => rfl
  | cons c cs ih =>
    obtain ⟨hd, hf⟩ := Call.disciplined_ops (hcs c (List.mem_cons_self c cs))
    simp only [program, List.flatMap_cons, disciplined_append, hd, hf, Bool.true_and]
    exact ih fun c' h ↦ hcs c' (List.mem_cons_of_mem c h)

/-- `Install` and `Upgrade` read the mirror without `Syncer.mu` once
`getActionConfig` succeeds. -/
theorem helmAction_undisciplined {l : Locate} (hl : l ≠ .configFails) :
    disciplined .none (helmAction l) = false := by
  cases l <;> first | exact absurd rfl hl | rfl

/-- `Syncer.mu`, with the activities that hold it, and the Helm client's `c.mu`. -/
structure Locks where
  writer : Option Nat
  readers : List Nat
  client : Option Nat
  deriving DecidableEq, Repr

def Locks.apply (l : Locks) (i : Nat) : Op → Option Locks
  | .lock => if l.writer = none ∧ l.readers = [] then some { l with writer := some i } else none
  | .unlock => some { l with writer := none }
  | .rlock => if l.writer = none then some { l with readers := i :: l.readers } else none
  | .runlock => some { l with readers := l.readers.erase i }
  | .clientLock => if l.client = none then some { l with client := some i } else none
  | .clientUnlock => some { l with client := none }
  | .mirror _ | .other => some l

namespace Locks

variable {l l' : Locks} {i : Nat} {op : Op}

def mode (l : Locks) (i : Nat) : Held :=
  if l.writer = some i then .exclusive else if i ∈ l.readers then .shared else .none

/-- A writer holds `Syncer.mu` alone, and no activity holds it shared twice. -/
structure Inv (l : Locks) : Prop where
  alone : l.writer.isSome → l.readers = []
  nodup : l.readers.Nodup

theorem mode_eq_exclusive : l.mode i = .exclusive ↔ l.writer = some i := by
  unfold mode; split_ifs <;> simp_all

theorem mode_eq_shared : l.mode i = .shared ↔ l.writer ≠ some i ∧ i ∈ l.readers := by
  unfold mode; split_ifs <;> simp_all

theorem mode_eq_none : l.mode i = .none ↔ l.writer ≠ some i ∧ i ∉ l.readers := by
  unfold mode; split_ifs <;> simp_all

theorem Inv.apply (hl : l.Inv) (ha : (l.mode i).allows op) (h : l.apply i op = some l') :
    l'.Inv ∧ l'.mode i = (l.mode i).next op ∧ ∀ k ≠ i, l'.mode k = l.mode k := by
  cases op with
  | lock =>
    simp only [Locks.apply] at h
    split_ifs at h with hc
    cases h
    refine ⟨⟨fun _ ↦ hc.2, hc.2 ▸ List.nodup_nil⟩, by simp [mode, Held.next], fun k hk ↦ ?_⟩
    simp [mode, hc, Ne.symm hk]
  | unlock =>
    cases h
    have hw := mode_eq_exclusive.1 (by simpa [Held.allows] using ha)
    have hr := hl.alone (by simp [hw])
    refine ⟨⟨nofun, hr ▸ List.nodup_nil⟩, by simp [mode, Held.next, hr], fun k hk ↦ ?_⟩
    simp [mode, hr, hw, Ne.symm hk]
  | rlock =>
    simp only [Locks.apply] at h
    split_ifs at h with hc
    cases h
    have hi := (mode_eq_none.1 (by simpa [Held.allows] using ha)).2
    exact ⟨⟨by simp [hc], .cons hi hl.nodup⟩, by simp [mode, Held.next, hc],
      fun k hk ↦ by simp [mode, hc, hk]⟩
  | runlock =>
    cases h
    have hw := mode_eq_shared.1 (by simpa [Held.allows] using ha)
    refine ⟨⟨fun hs ↦ by simp [hl.alone hs], hl.nodup.erase i⟩, ?_, fun k hk ↦ ?_⟩
    · simp [mode, Held.next, hw.1, hl.nodup.not_mem_erase]
    · simp [mode, List.mem_erase_of_ne hk]
  | clientLock =>
    simp only [Locks.apply] at h
    split_ifs at h
    cases h
    exact ⟨⟨hl.alone, hl.nodup⟩, rfl, fun _ _ ↦ rfl⟩
  | clientUnlock =>
    cases h
    exact ⟨⟨hl.alone, hl.nodup⟩, rfl, fun _ _ ↦ rfl⟩
  | mirror =>
    cases h
    exact ⟨hl, rfl, fun _ _ ↦ rfl⟩
  | other =>
    cases h
    exact ⟨hl, rfl, fun _ _ ↦ rfl⟩

end Locks

/-- The activities' remaining steps and the locks. -/
structure State where
  rest : Nat → List Op
  locks : Locks

namespace State

def init (activities : List (List Call)) : State :=
  ⟨fun i ↦ program (activities.getD i []), ⟨none, [], none⟩⟩

/-- Activity `i` takes its next step; `none` when it has none or is blocked. -/
def step (s : State) (i : Nat) : Option State :=
  match s.rest i with
  | [] => none
  | op :: ops => (s.locks.apply i op).map fun l ↦ ⟨Function.update s.rest i ops, l⟩

def exec : State → List Nat → Option State
  | s, [] => some s
  | s, i :: is => (s.step i).bind (exec · is)

variable {s s' : State} {i : Nat}

/-- Every activity keeps to the discipline from how it holds `Syncer.mu` now. -/
structure Inv (s : State) : Prop where
  locks : s.locks.Inv
  follows : ∀ i, disciplined (s.locks.mode i) (s.rest i)

theorem Inv.step (hs : s.Inv) (h : s.step i = some s') : s'.Inv := by
  unfold State.step at h
  split at h
  · cases h
  · rename_i op ops hr
    obtain ⟨l', hl', rfl⟩ := Option.map_eq_some'.1 h
    have hd := hs.follows i
    rw [hr, disciplined, Bool.and_eq_true] at hd
    obtain ⟨hinv, hmi, hmk⟩ := hs.locks.apply hd.1 hl'
    refine ⟨hinv, fun k ↦ ?_⟩
    by_cases hk : k = i
    · subst hk
      simpa only [Function.update_same, hmi] using hd.2
    · simpa only [Function.update_noteq hk, hmk k hk] using hs.follows k

theorem Inv.exec (hs : s.Inv) {is : List Nat} (h : s.exec is = some s') : s'.Inv := by
  induction is generalizing s with
  | nil => exact Option.some.inj h ▸ hs
  | cons i is ih =>
    obtain ⟨t, ht, h⟩ := Option.bind_eq_some.1 h
    exact ih (hs.step ht) h

theorem init_inv {acts : List (List Call)} (h : ∀ i, disciplined .none (program (acts.getD i []))) :
    (init acts).Inv :=
  ⟨⟨nofun, List.nodup_nil⟩, fun i ↦ by simpa [init, Locks.mode] using h i⟩

/-- Under the syncer's calls alone, whatever the schedule, an activity whose
next step reads or writes the mirror is the only one that may hold `Syncer.mu`
exclusively: no such step is taken inside another activity's pull. -/
theorem syncer_mirror_steps_exclusive {acts : List (List Call)} (hacts : ∀ a ∈ acts, ∀ c ∈ a, c.isSyncer)
    {sched : List Nat} (h : (init acts).exec sched = some s) {j : Nat} {w : Bool} {ops : List Op}
    (hj : s.rest j = .mirror w :: ops) {i : Nat} (hw : s.locks.writer = some i) : i = j := by
  have hs := (init_inv fun k ↦ program_disciplined fun c hc ↦ ?_).exec h
  · have hd := hs.follows j
    rw [hj, disciplined, Bool.and_eq_true] at hd
    by_contra hij
    have hm : s.locks.mode j = .none := Locks.mode_eq_none.2
      ⟨fun e ↦ hij (Option.some.inj (hw.symm.trans e)), by simp [hs.locks.alone (by simp [hw])]⟩
    simp [hm, Held.allows] at hd
  · rw [List.getD_eq_getElem?_getD] at hc
    rcases ha : acts[k]? with _ | a <;> rw [ha] at hc
    · cases hc
    · exact hacts a (List.getElem?_mem ha) c hc

/-- While a pull holds `Syncer.mu` exclusively, a reconcile worker's `Install` or
`Upgrade` that gets past `getActionConfig` takes `locateChart`'s `os.Stat` under
the charts directory. -/
theorem helm_reads_mirror_during_pull (git : List Bool) (l : Locate) (hl : l ≠ .configFails) :
    ∀ p ∈ [Call.initialSync git, .periodicSync git, .forceSync git], ∀ c ∈ [Call.install l, .upgrade l],
      ∃ s ops, (init [[p], [c]]).exec [0, 1, 1] = some s ∧ s.locks.writer = some 0 ∧
        s.rest 1 = .mirror false :: ops ∧ (s.step 1).isSome := by
  intro p hp c hc
  simp only [List.mem_cons, List.mem_singleton, List.not_mem_nil, or_false] at hp hc
  rcases hp with rfl | rfl | rfl <;> rcases hc with rfl | rfl <;> cases l <;>
    first | exact absurd rfl hl | exact ⟨_, _, rfl, rfl, rfl, rfl⟩

theorem found_chart_read_during_pull :
    Locate.found ≠ .configFails ∧ Call.periodicSync [true] ∈ [Call.initialSync [true], .periodicSync [true],
      .forceSync [true]] ∧ Call.install .found ∈ [Call.install .found, .upgrade .found] ∧
      ∃ s ops, (init [[.periodicSync [true]], [.install .found]]).exec [0, 1, 1] = some s ∧
        s.locks.writer = some 0 ∧ s.rest 1 = .mirror false :: ops ∧ (s.step 1).isSome :=
  ⟨by decide, by simp, by simp,
    helm_reads_mirror_during_pull [true] .found (by decide) _ (by simp) _ (by simp)⟩

end State

end Appstore.Chartsync
