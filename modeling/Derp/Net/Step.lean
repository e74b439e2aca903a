import Derp.Library.Transition
import Derp.Net.Ops

/-!
# Steps of the network

A step is one critical section of a socket call, a death, or a move of the
clock.  The calls act through descriptors, which is what the callers check
before they call: a descriptor is duplicated or closed by a process that holds
it, a connection is shut down through one, and a datagram is received on a
datagram socket.
-/

namespace Derp
namespace Net

/-- The calls on the network, by the processes that make them. -/
inductive Op
  | opened (pid host : Nat) (family : Family) (kind : Kind) (ident : Nat)
  | bind (sock : SockId) (addr : Addr)
  | listen (sock : SockId) (backlog : Int)
  | connect (sock : SockId) (destHost : Nat) (dest : Addr)
  | connectDgram (sock : SockId) (dest : Addr)
  | accept (pid : Nat) (listener : SockId) (ident : Nat)
  | send (sock : SockId) (data : List UInt8)
  | recv (sock : SockId) (room : Nat) (peek : Bool)
  | sendDgram (sock : SockId) (dest : Option (Nat × Addr)) (data : List UInt8)
  | recvDgram (sock : SockId) (room : Nat) (peek : Bool)
  | shutdown (sock : SockId) (read write : Bool)
  /-- `dup`, `dup2` and `F_DUPFD`. -/
  | duplicated (pid : Nat) (sock : SockId)
  | closed (pid : Nat) (sock : SockId)
  /-- A new process, or a new image, counts the descriptors it has. -/
  | adopted (pid : Nat) (idents : List Nat)
  | died (pid : Nat)
  | advance (now : Nat)

/-- What a call answers. -/
inductive Answer
  | done
  | sock (sock : SockId)
  | taken (count : Nat)
  | bytes (data : List UInt8)
  | datagram (data : List UInt8) (source : Addr)
  | arrived (any : Bool)

/-- Turn what an operation answers into a call's answer. -/
def answering
    (result : Net × Except NetError α)
    (answer : α → Answer) : Net × Except NetError Answer :=
  (result.1, result.2.map answer)

/-- A new socket gets its identity and its first descriptor. -/
def handOut
    (pid ident : Nat)
    (result : Net × Except NetError SockId) :
    Option (Net × Except NetError Answer) :=
  match result with
  | (net, .error e) => some (net, .error e)
  | (net, .ok sock) =>
      ((net.setIdent sock ident).addRef pid sock).map
        fun net => (net, .ok (.sock sock))

/-- Carry a call out.  There is no outcome where the source panics because its
table of references is full. -/
def exec (net : Net) : Op → Option (Net × Except NetError Answer)
  | .opened pid host family kind ident =>
      handOut pid ident (net.socket host family kind)
  | .bind sock addr => some (answering (net.bind sock addr) fun _ => .done)
  | .listen sock backlog =>
      some (answering (net.listen sock backlog) fun _ => .done)
  | .connect sock destHost dest =>
      some (answering (net.connect sock destHost dest) .sock)
  | .connectDgram sock dest =>
      some (answering (net.connectDgram sock dest) fun _ => .done)
  | .accept pid listener ident => handOut pid ident (net.accept listener)
  | .send sock data => some (answering (net.send sock data) .taken)
  | .recv sock room peek => some (answering (net.recv sock room peek) .bytes)
  | .sendDgram sock dest data =>
      some (answering (net.sendDgram sock dest data) .taken)
  | .recvDgram sock room peek =>
      some (answering (net.recvDgram sock room peek)
        fun answer => .datagram answer.1 answer.2)
  | .shutdown sock read write =>
      some (answering (net.shutdown sock read write) fun _ => .done)
  | .duplicated pid sock =>
      (net.addRef pid sock).map fun net => (net, .ok .done)
  | .closed pid sock => some (net.dropRef pid sock, .ok .done)
  | .adopted pid idents =>
      (net.adoptInherited pid idents).map fun net => (net, .ok .done)
  | .died pid => some (net.processDied pid, .ok .done)
  | .advance now =>
      let (net, any) := net.advance now
      some (net, .ok (.arrived any))

/-- A descriptor is duplicated or closed by a process that holds it. -/
def Matched (net : Net) : Op → Prop
  | .duplicated pid sock => 0 < net.held pid sock
  | .closed pid sock => 0 < net.held pid sock
  | _ => True

/-- What the callers of the network check before they call it. -/
def Admissible (net : Net) : Op → Prop
  | .recvDgram sock _ _ => (net.socks sock).kind = .dgram
  | .shutdown sock _ _ => 0 < (net.socks sock).refs
  | .duplicated pid sock => 0 < net.held pid sock
  | .closed pid sock => 0 < net.held pid sock
  | _ => True

instance (net : Net) (op : Op) : Decidable (net.Matched op) := by
  cases op <;> unfold Matched <;> infer_instance

instance (net : Net) (op : Op) : Decidable (net.Admissible op) := by
  cases op <;> unfold Admissible <;> infer_instance

/-- A call with its answer. -/
abbrev Event := Op × Except NetError Answer

/-- The zeroed network of a run, with its hosts and its latency. -/
def zeroed (names : List (List UInt8)) (latencyNs : Nat) : Net :=
  names.foldl addHost { latencyNs := latencyNs }

/-- The network's runs from its zeroed state, by the calls that meet a
condition. -/
def calls (may : Net → Op → Prop) : Transition Net Event where
  init := fun net => ∃ names latencyNs, net = zeroed names latencyNs
  step := fun net event later =>
    may net event.1 ∧ net.exec event.1 = some (later, event.2)

def system : Transition Net Event :=
  calls Admissible

/-- Carry out calls one after the other, as long as they meet a condition. -/
def play
    (may : Net → Op → Prop)
    [∀ net op, Decidable (may net op)] : List Op → Net → Option Net
  | [], net => some net
  | op :: ops, net =>
      if may net op then
        (net.exec op).bind fun result => play may ops result.1
      else none

/-- Calls that were carried out are a run. -/
theorem run_play
    {may : Net → Op → Prop}
    [∀ net op, Decidable (may net op)]
    {ops : List Op}
    {net later : Net}
    (played : play may ops net = some later) :
    ∃ labels, labels.map Prod.fst = ops ∧
      (calls may).Run net labels later := by
  induction ops generalizing net with
  | nil =>
      obtain rfl := Option.some.inj played
      exact ⟨[], rfl, .refl net⟩
  | cons op ops inductionHypothesis =>
      unfold play at played
      split at played
      · next checked =>
          rw [Option.bind_eq_some_iff] at played
          obtain ⟨⟨middle, answer⟩, done, rest⟩ := played
          obtain ⟨labels, same, run⟩ := inductionHypothesis rest
          have step : (calls may).step net (op, answer) middle :=
            ⟨checked, done⟩
          exact ⟨(op, answer) :: labels, by simp [same], run.cons step⟩
      · cases played

theorem reachable_play
    {may : Net → Op → Prop}
    [∀ net op, Decidable (may net op)]
    {ops : List Op}
    {net later : Net}
    (reachable : (calls may).Reachable net)
    (played : play may ops net = some later) :
    (calls may).Reachable later := by
  obtain ⟨labels, -, run⟩ := run_play played
  exact run.reachable reachable

end Net
end Derp
