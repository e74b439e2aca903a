import Derp.Library.Bytes
import Derp.Library.RingBuffer
import Mathlib.Data.List.FinRange

/-!
# The virtual network's records

Sockets between guests never touch the kernel's network stack: a connection is
two socket records pointing at each other, each with a receive ring and a ring
of the payloads on their way to it.  This module has the records, their zeroed
initial state, and the two formats that are kept inside rings.
-/

namespace Derp

def maxHosts : Nat := 32
def maxSockets : Nat := 256
def maxFdrefs : Nat := 1024
/-- Bytes of a receive ring and of a flight ring. -/
def ringSize : Nat := 64 * 1024
/-- Longest queue of connections of a listener. -/
def maxBacklog : Nat := 32
def unixPathMax : Nat := 104
/-- Virtual subnet: host `i` is `10.0.0.(i + 1)`. -/
def subnet : UInt32 := 0x0A000000
def subnetMask : UInt32 := 0xFFFFFF00
def loopback : UInt32 := 0x7F000001
def firstEphemeral : UInt16 := 49152
/-- Largest datagram payload; with its header it must fit an empty ring. -/
def maxDgram : Nat := 60 * 1024
/-- In a ring a datagram is its payload's length, the source's address, port,
family and path length, the source's path, then the payload. -/
def dgramHeaderLen : Nat := 12
/-- A record in a flight ring: due time, kind, payload length. -/
def flightHeaderLen : Nat := 13

/-- Slot of a socket in the table. -/
abbrev SockId := Fin maxSockets

instance : NeZero maxSockets := ⟨by decide⟩

inductive Family
  | none
  | inet
  | unix
  deriving DecidableEq, Repr, Inhabited

inductive Kind
  | none
  | stream
  | dgram
  deriving DecidableEq, Repr, Inhabited

inductive SockState
  | free
  | new
  | bound
  | listening
  | connected
  /-- Every descriptor is gone but the peer still refers to the record. -/
  | closed
  deriving DecidableEq, Repr, Inhabited

/-- The families' byte values. -/
def Family.code : Family → UInt8
  | .none => 0
  | .inet => 1
  | .unix => 2

/-- The family a byte names. -/
def Family.ofCode (code : UInt8) : Family :=
  if code = 1 then .inet else if code = 2 then .unix else .none

/-- An endpoint's name.  A path is never longer than the field that holds
it. -/
structure Addr where
  family : Family := .none
  port : UInt16 := 0
  ip : UInt32 := 0
  path : List UInt8 := []
  path_le : path.length ≤ unixPathMax := by decide
  deriving DecidableEq

namespace Addr

/-- The name of an unnamed socket. -/
def unnamed : Addr := {}

instance : Inhabited Addr := ⟨unnamed⟩

def inet (ip : UInt32) (port : UInt16) : Addr :=
  { family := .inet, ip := ip, port := port }

def unix (path : List UInt8) : Addr where
  family := .unix
  path := path.take unixPathMax
  path_le := by simp

/-- Same endpoint name within one host's tables. -/
def sameName (a other : Addr) : Bool :=
  a.family = other.family &&
    match a.family with
    | .inet => a.port = other.port
    | .unix => a.path = other.path
    | .none => false

/-- Whether an address is on the loopback network. -/
def isLoopback (ip : UInt32) : Bool :=
  ip >>> 24 = 127

end Addr

structure Host where
  name : List UInt8 := []
  addr : UInt32 := 0
  nextPort : UInt16 := 0
  deriving Inhabited

structure Sock where
  state : SockState := .free
  kind : Kind := .none
  family : Family := .none
  /-- The peer closed or shut down its sending side. -/
  fin : Bool := false
  /-- We shut down our sending side. -/
  shutWr : Bool := false
  shutRd : Bool := false
  nosigpipe : Bool := false
  /-- A datagram socket with a default destination, which also filters what it
  receives. -/
  hasPeer : Bool := false
  rcvTimeoutNs : Nat := 0
  sndTimeoutNs : Nat := 0
  host : Nat := 0
  /-- Open descriptors, over all processes. -/
  refs : Nat := 0
  farEnd : Option SockId := none
  localName : Addr := Addr.unnamed
  peer : Addr := Addr.unnamed
  /-- Connections not accepted yet, oldest first. -/
  backlog : List SockId := []
  backlogMax : Nat := 0
  rx : RingBuffer UInt8 ringSize := .empty ringSize 0
  /-- Bumped whenever something arrives. -/
  rdEvents : Nat := 0
  /-- Bumped whenever the send window opens. -/
  wrEvents : Nat := 0
  /-- Payloads on their way here, oldest first. -/
  flight : RingBuffer UInt8 ringSize := .empty ringSize 0
  /-- Stream bytes in flight to this socket. -/
  flStream : Nat := 0
  /-- Not in the source: the FINs sent to this socket since its slot was
  taken. -/
  fins : Nat := 0
  deriving Inhabited

/-- How many descriptors for a socket one process holds. -/
structure FdRef where
  pid : Nat := 0
  sock : SockId := 0
  count : Nat := 0

/-- The virtual network.  The last two fields are not in the source: they
record that a subtraction went below zero or that a time did not fit its 64
bits, where a debug build panics and a release build wraps. -/
structure Net where
  hosts : List Host := []
  /-- Inode of each socket's placeholder descriptor (0: none yet). -/
  idents : SockId → Nat := fun _ => 0
  socks : SockId → Sock := fun _ => {}
  fdrefs : Nat → FdRef := fun _ => {}
  now : Nat := 0
  /-- Delay between different hosts; traffic within a host is immediate. -/
  latencyNs : Nat := 0
  outsideAllowed : Bool := false
  inFlight : Nat := 0
  nextDueAt : Nat := 0
  connections : Nat := 0
  datagrams : Nat := 0
  dropped : Nat := 0
  bytes : Nat := 0
  passthrough : Nat := 0
  underflow : Bool := false
  overflow : Bool := false

/-- What travels between two sockets. -/
inductive Payload
  | bytes (data : List UInt8)
  | datagram (source : Addr) (data : List UInt8)
  | fin

/-- Errors the network answers by number. -/
inductive Errno
  | enfile
  | einval
  | eafnosupport
  | eaddrnotavail
  | eaddrinuse
  | eopnotsupp
  | edestaddrreq
  | eisconn
  | econnrefused
  | enotconn
  | epipe
  | emsgsize
  deriving DecidableEq, Repr

/-- Why an operation cannot complete now. -/
inductive NetError
  /-- Not ready; park and retry. -/
  | wouldBlock
  | errno (number : Errno)
  /-- A slice past the end of its array: the call does not return. -/
  | panic
  deriving DecidableEq, Repr

/-- The sum of two 64-bit words, as a release build computes it. -/
def wrappingAdd (a b : Nat) : Nat :=
  (a + b) % 2 ^ 64

/-- Whether the sum of two words does not fit in 64 bits. -/
def addOverflows (a b : Nat) : Bool :=
  2 ^ 64 ≤ a + b

theorem wrappingAdd_lt (a b : Nat) : wrappingAdd a b < 2 ^ 64 :=
  Nat.mod_lt _ (by decide)

/-- A sum that fits is the sum. -/
theorem wrappingAdd_eq
    {a b : Nat}
    (fits : addOverflows a b = false) :
    wrappingAdd a b = a + b := by
  simp only [addOverflows, decide_eq_false_iff_not, not_le] at fits
  exact Nat.mod_eq_of_lt fits

namespace Sock

/-- Something arrived: readers should look again. -/
def readEvent (d : Sock) : Sock :=
  { d with rdEvents := d.rdEvents + 1 }

/-- The send window may have opened: writers should look again. -/
def writeEvent (d : Sock) : Sock :=
  { d with wrEvents := d.wrEvents + 1 }

def setFin (d : Sock) : Sock :=
  { d with fin := true }

def countFin (d : Sock) : Sock :=
  { d with fins := d.fins + 1 }

def pushRx (bytes : List UInt8) (d : Sock) : Sock :=
  { d with rx := d.rx.push bytes }

def skipRx (count : Nat) (d : Sock) : Sock :=
  { d with rx := d.rx.skip count }

def pushFlight (bytes : List UInt8) (d : Sock) : Sock :=
  { d with flight := d.flight.push bytes }

def skipFlight (count : Nat) (d : Sock) : Sock :=
  { d with flight := d.flight.skip count }

def addStream (len : Nat) (d : Sock) : Sock :=
  { d with flStream := d.flStream + len }

def subStream (len : Nat) (d : Sock) : Sock :=
  { d with flStream := d.flStream - len }

def clearFlight (d : Sock) : Sock :=
  { d with flight := { d.flight with head := 0, len := 0 }, flStream := 0 }

end Sock

namespace Net

/-- Change one socket record. -/
def modifySock
    (net : Net)
    (sock : SockId)
    (change : Sock → Sock) : Net :=
  { net with
    socks := Function.update net.socks sock (change (net.socks sock)) }

/-- Note a subtraction of `b` from `a`. -/
def noteSub (net : Net) (a b : Nat) : Net :=
  { net with underflow := net.underflow || decide (a < b) }

/-- Note a sum of two times. -/
def noteAdd (net : Net) (a b : Nat) : Net :=
  { net with overflow := net.overflow || addOverflows a b }

def countBytes (net : Net) (n : Nat) : Net :=
  { net with bytes := net.bytes + n }

def countDropped (net : Net) : Net :=
  { net with dropped := net.dropped + 1 }

def countDatagram (net : Net) : Net :=
  { net with datagrams := net.datagrams + 1 }

def countConnection (net : Net) : Net :=
  { net with connections := net.connections + 1 }

def setInFlight (net : Net) (inFlight : Nat) : Net :=
  { net with inFlight := inFlight }

def setNextDue (net : Net) (due : Nat) : Net :=
  { net with nextDueAt := due }

def setNow (net : Net) (now : Nat) : Net :=
  { net with now := now }

@[simp] theorem modifySock_socks_self
    (net : Net)
    (sock : SockId)
    (change : Sock → Sock) :
    (net.modifySock sock change).socks sock = change (net.socks sock) := by
  simp [modifySock]

theorem modifySock_socks_of_ne
    (net : Net)
    {sock other : SockId}
    (change : Sock → Sock)
    (different : other ≠ sock) :
    (net.modifySock sock change).socks other = net.socks other := by
  simp [modifySock, different]

theorem modifySock_socks
    (net : Net)
    (sock other : SockId)
    (change : Sock → Sock) :
    (net.modifySock sock change).socks other =
      if other = sock then change (net.socks sock) else net.socks other := by
  by_cases same : other = sock
  · subst same; simp
  · simp [modifySock_socks_of_ne, same]

@[simp] theorem noteSub_socks (net : Net) (a b : Nat) :
    (net.noteSub a b).socks = net.socks := rfl

@[simp] theorem noteAdd_socks (net : Net) (a b : Nat) :
    (net.noteAdd a b).socks = net.socks := rfl

@[simp] theorem countBytes_socks (net : Net) (n : Nat) :
    (net.countBytes n).socks = net.socks := rfl

@[simp] theorem countDropped_socks (net : Net) :
    net.countDropped.socks = net.socks := rfl

@[simp] theorem countDatagram_socks (net : Net) :
    net.countDatagram.socks = net.socks := rfl

@[simp] theorem countConnection_socks (net : Net) :
    net.countConnection.socks = net.socks := rfl

@[simp] theorem setInFlight_socks (net : Net) (inFlight : Nat) :
    (net.setInFlight inFlight).socks = net.socks := rfl

@[simp] theorem setNextDue_socks (net : Net) (due : Nat) :
    (net.setNextDue due).socks = net.socks := rfl

@[simp] theorem setNow_socks (net : Net) (now : Nat) :
    (net.setNow now).socks = net.socks := rfl

theorem noteSub_of_le
    (net : Net)
    {a b : Nat}
    (enough : b ≤ a) : net.noteSub a b = net := by
  have : decide (a < b) = false := by simpa using enough
  simp [noteSub, this]

end Net

end Derp
