import Derp.Net.Step

/-!
# Control and traffic

A socket record has two halves.  Its control half says what the socket is and
who refers to it; its traffic half holds the payloads that arrived or are on
their way.  Most functions of the network change one half only, and invariants
of the other half survive them.
-/

namespace Derp

/-- A record without what traffic changes. -/
def Sock.control (d : Sock) : Sock :=
  { d with
    fin := false
    rx := .empty ringSize 0
    rdEvents := 0
    wrEvents := 0
    flight := .empty ringSize 0
    flStream := 0
    fins := 0 }

/-- The traffic half of a record, with the socket's kind. -/
structure Traffic where
  kind : Kind
  fin : Bool
  rx : RingBuffer UInt8 ringSize
  flight : RingBuffer UInt8 ringSize
  flStream : Nat
  fins : Nat

def Sock.traffic (d : Sock) : Traffic where
  kind := d.kind
  fin := d.fin
  rx := d.rx
  flight := d.flight
  flStream := d.flStream
  fins := d.fins

namespace Net

/-- The network without what traffic changes. -/
def control (net : Net) : Net :=
  { net with
    socks := fun i => (net.socks i).control
    now := 0
    inFlight := 0
    nextDueAt := 0
    connections := 0
    datagrams := 0
    dropped := 0
    bytes := 0
    underflow := false
    overflow := false }

/-- The accounts of all traffic. -/
structure Accounts where
  socks : SockId → Traffic
  now : Nat
  latencyNs : Nat
  inFlight : Nat
  nextDueAt : Nat
  underflow : Bool
  overflow : Bool

def accounts (net : Net) : Accounts where
  socks := fun i => (net.socks i).traffic
  now := net.now
  latencyNs := net.latencyNs
  inFlight := net.inFlight
  nextDueAt := net.nextDueAt
  underflow := net.underflow
  overflow := net.overflow

/-! ## What changes of one record leave alone -/

/-- A change of the traffic half only. -/
theorem control_modifySock
    {change : Sock → Sock}
    (kept : ∀ d, (change d).control = d.control)
    (net : Net)
    (sock : SockId) : (net.modifySock sock change).control = net.control := by
  unfold control modifySock
  congr 1
  funext i
  by_cases same : i = sock
  · subst same
    simp only [Function.update_self, kept]
  · simp only [Function.update_of_ne same]

/-- A change of the control half only. -/
theorem accounts_modifySock
    {change : Sock → Sock}
    (kept : ∀ d, (change d).traffic = d.traffic)
    (net : Net)
    (sock : SockId) : (net.modifySock sock change).accounts = net.accounts := by
  unfold accounts modifySock
  congr 1
  funext i
  by_cases same : i = sock
  · subst same
    simp only [Function.update_self, kept]
  · simp only [Function.update_of_ne same]

@[simp] theorem control_noteSub (net : Net) (a b : Nat) :
    (net.noteSub a b).control = net.control := rfl

@[simp] theorem control_noteAdd (net : Net) (a b : Nat) :
    (net.noteAdd a b).control = net.control := rfl

@[simp] theorem control_countBytes (net : Net) (n : Nat) :
    (net.countBytes n).control = net.control := rfl

@[simp] theorem control_countDropped (net : Net) :
    net.countDropped.control = net.control := rfl

@[simp] theorem control_countDatagram (net : Net) :
    net.countDatagram.control = net.control := rfl

@[simp] theorem control_countConnection (net : Net) :
    net.countConnection.control = net.control := rfl

@[simp] theorem control_setInFlight (net : Net) (inFlight : Nat) :
    (net.setInFlight inFlight).control = net.control := rfl

@[simp] theorem control_setNextDue (net : Net) (due : Nat) :
    (net.setNextDue due).control = net.control := rfl

@[simp] theorem control_setNow (net : Net) (now : Nat) :
    (net.setNow now).control = net.control := rfl

@[simp] theorem control_readEvent (net : Net) (sock : SockId) :
    (net.modifySock sock .readEvent).control = net.control :=
  control_modifySock (by intro; rfl) net sock

@[simp] theorem control_writeEvent (net : Net) (sock : SockId) :
    (net.modifySock sock .writeEvent).control = net.control :=
  control_modifySock (by intro; rfl) net sock

@[simp] theorem control_setFin (net : Net) (sock : SockId) :
    (net.modifySock sock .setFin).control = net.control :=
  control_modifySock (by intro; rfl) net sock

@[simp] theorem control_countFin (net : Net) (sock : SockId) :
    (net.modifySock sock .countFin).control = net.control :=
  control_modifySock (by intro; rfl) net sock

@[simp] theorem control_addStream (net : Net) (sock : SockId) (len : Nat) :
    (net.modifySock sock (.addStream len)).control = net.control :=
  control_modifySock (by intro; rfl) net sock

@[simp] theorem control_subStream (net : Net) (sock : SockId) (len : Nat) :
    (net.modifySock sock (.subStream len)).control = net.control :=
  control_modifySock (by intro; rfl) net sock

@[simp] theorem control_clearFlight (net : Net) (sock : SockId) :
    (net.modifySock sock .clearFlight).control = net.control :=
  control_modifySock (by intro; rfl) net sock

/-! ## Traffic keeps control -/

@[simp] theorem control_ringPush
    (net : Net)
    (sock : SockId)
    (bytes : List UInt8) :
    (net.ringPush sock bytes).control = net.control :=
  control_modifySock (by intro; rfl) net sock

@[simp] theorem control_ringSkip (net : Net) (sock : SockId) (count : Nat) :
    (net.ringSkip sock count).control = net.control :=
  control_modifySock (by intro; rfl) (net.noteSub _ count) sock

@[simp] theorem control_flightPush
    (net : Net)
    (sock : SockId)
    (bytes : List UInt8) :
    (net.flightPush sock bytes).control = net.control :=
  control_modifySock (by intro; rfl) net sock

@[simp] theorem control_flightSkip (net : Net) (sock : SockId) (count : Nat) :
    (net.flightSkip sock count).control = net.control :=
  control_modifySock (by intro; rfl) (net.noteSub _ count) sock

@[simp] theorem control_arrive
    (net : Net)
    (dst : SockId)
    (payload : Payload) : (net.arrive dst payload).1.control = net.control := by
  cases payload with
  | fin => simp [arrive]
  | bytes data => simp [arrive]
  | datagram source data =>
      simp only [arrive]
      split <;> simp

theorem control_foldl_flightPush
    (dst : SockId)
    (parts : List (List UInt8))
    (net : Net) :
    (parts.foldl (fun net part => net.flightPush dst part) net).control =
      net.control := by
  induction parts generalizing net with
  | nil => rfl
  | cons part parts inductionHypothesis =>
      rw [List.foldl_cons, inductionHypothesis, control_flightPush]

@[simp] theorem control_launchRecord
    (net : Net)
    (dst : SockId)
    (deliverAt : Nat)
    (kind : FlightKind)
    (parts : List (List UInt8)) :
    (net.launchRecord dst deliverAt kind parts).control = net.control := by
  simp only [launchRecord, control_setNextDue, control_setInFlight]
  cases kind <;> simp [control_foldl_flightPush]

@[simp] theorem control_launch
    (net : Net)
    (dst : SockId)
    (deliverAt : Nat)
    (payload : Payload) :
    (net.launch dst deliverAt payload).1.control = net.control := by
  cases payload with
  | fin => simp [launch]
  | bytes data =>
      simp only [launch]
      split <;> simp
  | datagram source data =>
      simp only [launch]
      split <;> simp

@[simp] theorem control_deliver
    (net : Net)
    (srcHost : Nat)
    (dst : SockId)
    (payload : Payload) :
    (net.deliver srcHost dst payload).1.control = net.control := by
  simp only [deliver]
  split <;> simp

@[simp] theorem control_discardRecords
    (fuel : Nat)
    (net : Net)
    (sock : SockId) :
    (discardRecords fuel net sock).control = net.control := by
  induction fuel generalizing net with
  | zero => rfl
  | succ fuel inductionHypothesis =>
      simp only [discardRecords]
      split
      · rw [inductionHypothesis, control_setInFlight, control_flightSkip]
      · rfl

@[simp] theorem control_discardFlight (net : Net) (sock : SockId) :
    (net.discardFlight sock).control = net.control := by
  simp [discardFlight]

@[simp] theorem control_landChunks
    (fuel : Nat)
    (net : Net)
    (sock : SockId)
    (n : Nat) : (landChunks fuel net sock n).control = net.control := by
  induction fuel generalizing net n with
  | zero => rfl
  | succ fuel inductionHypothesis =>
      simp only [landChunks]
      split
      · rw [inductionHypothesis, control_ringPush, control_flightSkip]
      · rfl

@[simp] theorem control_land (net : Net) (sock : SockId) (n : Nat) :
    (net.land sock n).control = net.control :=
  control_landChunks n net sock n

@[simp] theorem control_noteLanded (net : Net) (sock : SockId) :
    (net.noteLanded sock).control = net.control := by
  simp only [noteLanded]
  cases (net.socks sock).farEnd with
  | none => rfl
  | some sender =>
      dsimp only
      split <;> simp

@[simp] theorem control_landHead
    (net : Net)
    (sock : SockId)
    (header : List UInt8) :
    (net.landHead sock header).control = net.control := by
  simp only [landHead]
  split
  · simp
  · split
    · simp
    · split <;> simp

@[simp] theorem control_landDue
    (now fuel : Nat)
    (net : Net)
    (sock : SockId)
    (next : Nat) :
    (landDue now fuel net sock next).1.control = net.control := by
  induction fuel generalizing net with
  | zero => rfl
  | succ fuel inductionHypothesis =>
      simp only [landDue]
      split
      · split
        · rfl
        · rw [inductionHypothesis, control_landHead]
      · rfl

theorem control_foldl_advanceSock
    (now : Nat)
    (slots : List SockId)
    (state : Net × Nat) :
    (slots.foldl (advanceSock now) state).1.control = state.1.control := by
  induction slots generalizing state with
  | nil => rfl
  | cons slot slots inductionHypothesis =>
      rw [List.foldl_cons, inductionHypothesis]
      exact control_landDue now _ state.1 slot state.2

@[simp] theorem control_advance (net : Net) (now : Nat) :
    (net.advance now).1.control = net.control := by
  simp only [advance]
  generalize List.finRange maxSockets = slots
  split
  · rfl
  · rw [control_setNextDue, control_foldl_advanceSock, control_setNow]

@[simp] theorem control_recv
    (net : Net)
    (sock : SockId)
    (room : Nat)
    (peek : Bool) : (net.recv sock room peek).1.control = net.control := by
  simp only [recv]
  split
  · rfl
  split
  · split <;> rfl
  split
  · rfl
  cases (net.socks sock).farEnd with
  | none => simp
  | some sender => simp

@[simp] theorem control_recvDgram
    (net : Net)
    (sock : SockId)
    (room : Nat)
    (peek : Bool) :
    (net.recvDgram sock room peek).1.control = net.control := by
  simp only [recvDgram]
  split
  · rfl
  · split
    · rfl
    · cases peek with
      | true => rfl
      | false => exact control_ringSkip net sock _

/-- A send either leaves the network alone or delivers, and it answers what was
taken. -/
theorem send_net
    (net : Net)
    (sock : SockId)
    (data : List UInt8) :
    (net.send sock data).1 = net ∧
        (∀ n, (net.send sock data).2 = .ok n → n = 0) ∨
      ∃ far, (net.socks sock).state = .connected ∧
        (net.socks sock).shutWr = false ∧
        (net.socks sock).farEnd = some far ∧
        (net.socks far).state = .connected ∧
        (net.send sock data).1 =
          (net.deliver (net.socks sock).host far (.bytes data)).1 ∧
        (net.send sock data).2 =
          if (net.deliver (net.socks sock).host far (.bytes data)).2 = 0 then
            .error .wouldBlock
          else .ok (net.deliver (net.socks sock).host far (.bytes data)).2 := by
  by_cases connected : (net.socks sock).state = .connected
  case neg => left; simp [send, connected]
  cases closed : (net.socks sock).shutWr
  case true => left; simp [send, connected, closed]
  cases linked : (net.socks sock).farEnd with
  | none => left; simp [send, connected, closed, linked]
  | some far =>
      by_cases open' : (net.socks far).state = .connected
      case neg => left; simp [send, connected, closed, linked, open']
      cases reads : (net.socks far).shutRd
      case true => left; simp [send, connected, closed, linked, open', reads]
      by_cases empty : data = []
      case pos =>
        left
        simp [send, connected, closed, linked, open', reads, empty, eq_comm]
      right
      refine ⟨far, connected, rfl, rfl, open', ?_⟩
      simp only [send, connected, closed, linked, open', reads, empty]
      cases net.deliver (net.socks sock).host far (.bytes data) with
      | mk later count => cases count <;> simp

@[simp] theorem control_send
    (net : Net)
    (sock : SockId)
    (data : List UInt8) : (net.send sock data).1.control = net.control := by
  rcases net.send_net sock data with ⟨same, -⟩ | ⟨far, -, -, -, -, same, -⟩
  · rw [same]
  · rw [same, control_deliver]

@[simp] theorem control_sendTo
    (net : Net)
    (sock : SockId)
    (destHost : Nat)
    (dest : Addr)
    (data : List UInt8) :
    (net.sendTo sock destHost dest data).1.control = net.control := by
  simp only [sendTo]
  cases net.findReceiver (net.socks sock).family destHost dest
      (net.sourceName (net.socks sock) dest) with
  | none =>
      dsimp only
      split
      · rfl
      · rfl
  | some target =>
      dsimp only
      split
      · split <;> simp
      · simp

/-! ## Control keeps traffic -/

@[simp] theorem accounts_setState
    (net : Net)
    (sock : SockId)
    (state : SockState) :
    (net.setState sock state).accounts = net.accounts :=
  accounts_modifySock (by intro; rfl) net sock

@[simp] theorem accounts_setIdent (net : Net) (sock : SockId) (ident : Nat) :
    (net.setIdent sock ident).accounts = net.accounts := rfl

@[simp] theorem accounts_setFdref
    (net : Net)
    (at' pid : Nat)
    (sock : SockId)
    (count : Nat) :
    (net.setFdref at' pid sock count).accounts = net.accounts := rfl

@[simp] theorem accounts_writeEvent (net : Net) (sock : SockId) :
    (net.modifySock sock .writeEvent).accounts = net.accounts :=
  accounts_modifySock (by intro; rfl) net sock

@[simp] theorem accounts_setHosts (net : Net) (hosts : List Host) :
    (net.setHosts hosts).accounts = net.accounts := rfl

/-- Looking for a port changes the hosts only. -/
theorem tryPorts_net
    (rounds : Nat)
    (net : Net)
    (host : Nat)
    (kind : Kind) :
    ∃ hosts, (tryPorts rounds net host kind).1 = net.setHosts hosts := by
  induction rounds generalizing net with
  | zero => exact ⟨net.hosts, rfl⟩
  | succ rounds inductionHypothesis =>
      simp only [tryPorts]
      obtain ⟨hosts, moved⟩ : ∃ hosts, net.setNextPort host
          (if (net.hostAt host).nextPort = 65535 then firstEphemeral
            else (net.hostAt host).nextPort + 1) = net.setHosts hosts :=
        ⟨_, rfl⟩
      rw [moved]
      by_cases taken : (net.setHosts hosts).nameTaken host kind
          (Addr.inet 0 (net.hostAt host).nextPort) = true
      · obtain ⟨later, same⟩ := inductionHypothesis (net.setHosts hosts)
        exact ⟨later, by rw [if_pos taken, same]; rfl⟩
      · exact ⟨hosts, by rw [if_neg taken]⟩

end Net
end Derp
