import Mathlib.Data.List.Perm.Subperm

namespace Appstore.Rabbitmq

open scoped List

/-- What a failing call leaves at the broker. -/
inductive Effect
  | none
  | channel
  | connection
  deriving DecidableEq, Repr

/-- The calls `connect` makes after `amqp.Dial`, in order. -/
inductive ConnectStep
  | channel
  | qos
  | exchangeDeclare
  | queueDeclare
  | queueBind
  deriving DecidableEq, Repr

/-- How one `connect` goes: `Dial` fails, a later call fails with error `e`, or
every call succeeds. -/
inductive ConnectResult
  | dialFails (e : String)
  | fails (step : ConnectStep) (eff : Effect) (e : String)
  | ok
  deriving DecidableEq, Repr

/-- How `consume` ends: its `Consume` call fails, `msgs` closes (the broker
cancelled the consumer or closed `eff`), the connection closes (`NotifyClose`),
`ctx` is cancelled, or `Stop` closes `c.done`. -/
inductive ConsumeEnd
  | registerFails (eff : Effect) (e : String)
  | channelClosed (eff : Effect)
  | connectionClosed (e : String)
  | cancelled
  | stopped
  deriving DecidableEq, Repr

/-- One cycle of `Start`'s loop. -/
structure Attempt where
  connect : ConnectResult
  consume : ConsumeEnd
  deriving DecidableEq, Repr

/-- The consumer's `conn` and `channel` fields, and at the broker the connections
it dialled and the channels it opened that are still open (a channel is named by
its connection); `nextConn` names the next connection `Dial` opens. -/
structure Consumer where
  conn : Option Nat
  channel : Option Nat
  openConns : List Nat
  openChans : List Nat
  nextConn : Nat
  deriving DecidableEq, Repr

def ConnectResult.failsAfterDial : ConnectResult → Bool
  | .fails .. => true
  | _ => false

def ConnectStep.message : ConnectStep → String
  | .channel => "failed to open channel: "
  | .qos => "failed to set QoS: "
  | .exchangeDeclare => "failed to declare exchange: "
  | .queueDeclare => "failed to declare queue: "
  | .queueBind => "failed to bind queue: "

def errClosed : String := "Exception (504) Reason: \"channel/connection is not open\""

namespace Consumer

def init : Consumer := ⟨none, none, [], [], 0⟩

def closeChannel (s : Consumer) (ch : Nat) : Consumer := { s with openChans := s.openChans.erase ch }

def closeConnection (s : Consumer) (id : Nat) : Consumer :=
  { s with openConns := s.openConns.erase id, openChans := s.openChans.erase id }

def apply (s : Consumer) : Effect → Consumer
  | .none => s
  | .channel => match s.channel with
    | some ch => s.closeChannel ch
    | none => s
  | .connection => match s.conn with
    | some id => s.closeConnection id
    | none => s

def dial (s : Consumer) : Consumer :=
  { s with conn := some s.nextConn, openConns := s.openConns ++ [s.nextConn], nextConn := s.nextConn + 1 }

def openChannel (s : Consumer) : Consumer :=
  match s.conn with
  | some id => { s with channel := some id, openChans := s.openChans ++ [id] }
  | none => s

/-- `connect`: on an error, `c.conn` or `c.channel` keeps what the failing call
returned, nil, and nothing is closed. -/
def connect (s : Consumer) : ConnectResult → Option String × Consumer
  | .dialFails e => (some ("failed to connect to RabbitMQ: " ++ e), { s with conn := none })
  | .fails .channel eff e => (some (ConnectStep.channel.message ++ e), { s.dial with channel := none }.apply eff)
  | .fails step eff e => (some (step.message ++ e), s.dial.openChannel.apply eff)
  | .ok => (none, s.dial.openChannel)

def consume (s : Consumer) : ConsumeEnd → Option String × Consumer
  | .registerFails eff e => (some ("failed to register consumer: " ++ e), s.apply eff)
  | .channelClosed eff => (some "message channel closed", s.apply eff)
  | .connectionClosed e => (some ("connection closed: " ++ e), s.apply .connection)
  | .cancelled => (some "context canceled", s)
  | .stopped => (none, s)

def closeConn (s : Consumer) : Option String × Consumer :=
  match s.conn with
  | some id => if id ∈ s.openConns then (none, s.closeConnection id) else (some errClosed, s)
  | none => (none, s)

section Loop

variable (closedChannelErr : Bool)

/-- `cleanup`: close the channel, then the connection, returning the first error. -/
def cleanup (s : Consumer) : Option String × Consumer :=
  match s.channel with
  | some ch =>
    if closedChannelErr ∧ ch ∉ s.openChans then (some errClosed, s) else (s.closeChannel ch).closeConn
  | none => s.closeConn

/-- One cycle of `Start`: `connect`, retried after a delay on an error; then
`consume`, with `cleanup` and a retry on an error. `false` when `Start` returns. -/
def attempt (s : Consumer) (a : Attempt) : Bool × Consumer :=
  match s.connect a.connect with
  | (some _, s) => (true, s)
  | (none, s) =>
    match s.consume a.consume with
    | (some _, s) => (true, (s.cleanup closedChannelErr).2)
    | (none, s) => (false, s)

def start (s : Consumer) : List Attempt → Consumer
  | [] => s
  | a :: as =>
    match s.attempt closedChannelErr a with
    | (true, s) => s.start as
    | (false, s) => s

end Loop

section Calls

variable (s : Consumer)

@[simp] theorem apply_conn (eff : Effect) : (s.apply eff).conn = s.conn := by
  cases eff <;> simp only [apply] <;> split <;> rfl

theorem apply_channel_openConns : (s.apply .channel).openConns = s.openConns := by
  simp only [apply]; split <;> rfl

theorem apply_openConns_sublist (eff : Effect) : (s.apply eff).openConns <+ s.openConns := by
  cases eff with
  | none => exact .refl _
  | channel => exact (apply_channel_openConns s).symm ▸ .refl _
  | connection =>
    simp only [apply]
    split
    · exact List.erase_sublist _ _
    · exact .refl _

theorem connect_fails_channel (step : ConnectStep) (e : String) :
    (s.connect (.fails step .channel e)).2.openConns = s.openConns ++ [s.nextConn] ∧
      (s.connect (.fails step .channel e)).2.nextConn = s.nextConn + 1 := by
  cases step <;> exact ⟨apply_channel_openConns _, rfl⟩

@[simp] theorem consume_conn (c : ConsumeEnd) : (s.consume c).2.conn = s.conn := by
  cases c <;> simp [consume]

theorem consume_openConns_sublist (c : ConsumeEnd) : (s.consume c).2.openConns <+ s.openConns := by
  cases c <;> first | exact apply_openConns_sublist .. | exact .refl _

theorem closeConn_openConns {id : Nat} (h : s.conn = some id) :
    s.closeConn.2.openConns = s.openConns.erase id := by
  simp only [closeConn, h]
  split_ifs with hm
  · rfl
  · exact (List.erase_of_not_mem hm).symm

theorem cleanup_openConns {id : Nat} (h : s.conn = some id) :
    (s.cleanup false).2.openConns = s.openConns.erase id := by
  simp only [cleanup, Bool.false_eq_true, false_and, if_false]
  split <;> exact closeConn_openConns _ h

end Calls

/-- One cycle from a state with no connection open leaves at most `c.conn` open,
and none when `Start` goes round again. -/
theorem attempt_clean {s : Consumer} {a : Attempt} (hc : a.connect.failsAfterDial = false)
    (hs : s.openConns = []) :
    (s.attempt false a).2.openConns <+ (s.attempt false a).2.conn.toList ∧
      ((s.attempt false a).1 = true → (s.attempt false a).2.openConns = []) := by
  obtain ⟨r, c⟩ := a
  cases r with
  | dialFails e => simp [attempt, connect, hs]
  | fails => cases hc
  | ok =>
    have hn : s.dial.openChannel.openConns = [s.nextConn] := by simp [dial, openChannel, hs]
    have hsub : (s.dial.openChannel.consume c).2.openConns <+ [s.nextConn] :=
      hn ▸ consume_openConns_sublist _ c
    have hconn : (s.dial.openChannel.consume c).2.conn = some s.nextConn := consume_conn _ c
    simp only [attempt, connect]
    rcases hr : s.dial.openChannel.consume c with ⟨_ | _, t⟩ <;> rw [hr] at hsub hconn <;>
      dsimp only at hsub hconn ⊢
    · exact ⟨hconn ▸ hsub, nofun⟩
    · have h0 : (t.cleanup false).2.openConns = [] := by
        rw [cleanup_openConns t hconn]
        rcases List.sublist_singleton.1 hsub with h | h <;> simp [h]
      exact ⟨h0 ▸ List.nil_sublist _, fun _ ↦ h0⟩

/-- Over any number of cycles with the recent library, where no `connect` fails
after `Dial`, at most `c.conn` is open at the end. -/
theorem start_clean {s : Consumer} {as : List Attempt}
    (has : ∀ a ∈ as, a.connect.failsAfterDial = false) (hs : s.openConns = []) :
    (s.start false as).openConns <+ (s.start false as).conn.toList := by
  induction as generalizing s with
  | nil => exact hs ▸ List.nil_sublist _
  | cons a as ih =>
    obtain ⟨hsub, hcont⟩ := attempt_clean (has a (List.mem_cons_self a as)) hs
    simp only [start]
    rcases ha : s.attempt false a with ⟨_ | _, t⟩ <;> rw [ha] at hsub hcont <;> dsimp only at hsub hcont ⊢
    · exact hsub
    · exact ih (fun b hb ↦ has b (List.mem_cons_of_mem a hb)) (hcont rfl)

theorem attempt_fails_channel (b : Bool) (s : Consumer) (step : ConnectStep) (e : String)
    (c : ConsumeEnd) : s.attempt b ⟨.fails step .channel e, c⟩ = (true, (s.connect (.fails step .channel e)).2) := by
  cases step <;> rfl

theorem start_fails_channel (b : Bool) (s : Consumer) (fs : List (ConnectStep × String × ConsumeEnd)) :
    (s.start b (fs.map fun f ↦ ⟨.fails f.1 .channel f.2.1, f.2.2⟩)).openConns =
      s.openConns ++ List.range' s.nextConn fs.length := by
  induction fs generalizing s with
  | nil => simp [start]
  | cons f fs ih =>
    obtain ⟨h1, h2⟩ := connect_fails_channel s f.1 f.2.1
    simp only [List.map_cons, start, attempt_fails_channel, ih, h1, h2, List.length_cons,
      List.range'_succ, List.append_assoc, List.singleton_append]

theorem attempt_channel_drop (s : Consumer) (hs : s.openChans = []) :
    s.attempt true ⟨.ok, .channelClosed .channel⟩ = (true, { s.dial with channel := some s.nextConn }) := by
  simp [attempt, connect, consume, cleanup, apply, openChannel, dial, closeChannel, hs]

theorem start_channel_drops (s : Consumer) (hs : s.openChans = []) (n : Nat) :
    (s.start true (List.replicate n ⟨.ok, .channelClosed .channel⟩)).openConns =
      s.openConns ++ List.range' s.nextConn n := by
  induction n generalizing s with
  | zero => simp [start]
  | succ n ih =>
    simp only [List.replicate_succ, start, attempt_channel_drop s hs,
      ih { s.dial with channel := some s.nextConn } hs, List.range'_succ]
    simp [dial]

theorem reconnects_leak_connections (closedChannelErr : Bool) (fs : List (ConnectStep × String × ConsumeEnd))
    (n : Nat) :
    (init.start closedChannelErr (fs.map fun f ↦ ⟨.fails f.1 .channel f.2.1, f.2.2⟩)).openConns =
        List.range fs.length ∧
      (init.start true (List.replicate n ⟨.ok, .channelClosed .channel⟩)).openConns = List.range n := by
  simp [start_fails_channel, start_channel_drops, init, List.range_eq_range']

end Consumer

end Appstore.Rabbitmq
