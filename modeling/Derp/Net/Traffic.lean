import Derp.Net.Formats

/-!
# How payloads travel

The functions of the network that move payloads: the window of a receiver, the
two rings of a socket, delivery at once or with a delay, and the arrival of
what has become due.
-/

namespace Derp
namespace Net

/-- Stream bytes `dst` can take now: what its receive ring has left after the
bytes already in flight to it, and what the flight ring can hold while keeping
room for a FIN's header. -/
def window (net : Net) (dst : SockId) : Nat :=
  let d := net.socks dst
  let window := ringSize - d.rx.len - d.flStream
  if d.flight.len = 0 then window
  else min window (ringSize - d.flight.len - 2 * flightHeaderLen)

def ringPush (net : Net) (sock : SockId) (bytes : List UInt8) : Net :=
  net.modifySock sock (.pushRx bytes)

/-- Copy from `offset` bytes into the ring's contents without consuming. -/
def ringPeek (net : Net) (sock : SockId) (offset count : Nat) : List UInt8 :=
  (net.socks sock).rx.peek offset count

def ringSkip (net : Net) (sock : SockId) (count : Nat) : Net :=
  (net.noteSub (net.socks sock).rx.len count).modifySock sock (.skipRx count)

def flightPush (net : Net) (sock : SockId) (bytes : List UInt8) : Net :=
  net.modifySock sock (.pushFlight bytes)

def flightPeek (net : Net) (sock : SockId) (offset count : Nat) : List UInt8 :=
  (net.socks sock).flight.peek offset count

def flightSkip (net : Net) (sock : SockId) (count : Nat) : Net :=
  (net.noteSub (net.socks sock).flight.len count).modifySock sock
    (.skipFlight count)

/-- The payload reaches `dst` now.  The answer is how many payload bytes were
taken. -/
def arrive (net : Net) (dst : SockId) (payload : Payload) : Net × Nat :=
  let net := net.modifySock dst .readEvent
  let net := net.noteSub ringSize (net.socks dst).rx.len
  let free := ringSize - (net.socks dst).rx.len
  match payload with
  | .fin => ((net.modifySock dst .setFin).modifySock dst .countFin, 0)
  | .bytes data =>
      let n := min data.length free
      let net := net.ringPush dst (data.take n)
      (net.countBytes n, n)
  | .datagram source data =>
      if dgramHeaderLen + source.path.length + data.length > free then
        (net, 0)
      else
        let net := net.ringPush dst (dgramHeader source data.length)
        let net := net.ringPush dst source.path
        let net := net.ringPush dst data
        (net.countBytes data.length, data.length)

/-- Append one record to the flight ring of `dst` and account for it. -/
def launchRecord
    (net : Net)
    (dst : SockId)
    (deliverAt : Nat)
    (kind : FlightKind)
    (parts : List (List UInt8)) : Net :=
  let len := (parts.map List.length).sum
  let net := net.flightPush dst (flightHeader deliverAt kind len)
  let net := parts.foldl (fun net part => net.flightPush dst part) net
  let net :=
    if kind = .bytes then net.modifySock dst (.addStream len) else net
  let net := if kind = .fin then net.modifySock dst .countFin else net
  let net := net.setInFlight (net.inFlight + 1)
  net.setNextDue
    (if net.inFlight = 1 then deliverAt else min net.nextDueAt deliverAt)

/-- Put the payload in flight to `dst`, to arrive at `deliverAt`.  Stream bytes
in flight count against the receiver's window, so what is launched always fits
on arrival; room for one more header is kept so a FIN can always follow. -/
def launch
    (net : Net)
    (dst : SockId)
    (deliverAt : Nat)
    (payload : Payload) : Net × Nat :=
  let net := net.noteSub ringSize (net.socks dst).flight.len
  let room := ringSize - (net.socks dst).flight.len - 2 * flightHeaderLen
  match payload with
  | .fin => (net.launchRecord dst deliverAt .fin [], 0)
  | .bytes data =>
      let net := net.noteSub ringSize
        ((net.socks dst).rx.len + (net.socks dst).flStream)
      let n := min (min data.length (net.window dst)) room
      if n = 0 then (net, 0)
      else (net.launchRecord dst deliverAt .bytes [data.take n], n)
  | .datagram source data =>
      if dgramHeaderLen + source.path.length + data.length > room then
        (net, 0)
      else
        (net.launchRecord dst deliverAt .dgram
          [dgramHeader source data.length, source.path, data], data.length)

/-- The delay of traffic from a host to a socket. -/
def delay (net : Net) (srcHost : Nat) (dst : SockId) : Nat :=
  if (net.socks dst).host = srcHost then 0 else net.latencyNs

/-- The single entry point for traffic between guests.  A stream takes what
fits in the receiver's window, a datagram is all or nothing. -/
def deliver
    (net : Net)
    (srcHost : Nat)
    (dst : SockId)
    (payload : Payload) : Net × Nat :=
  let delay := net.delay srcHost dst
  -- Nothing may overtake what is already in flight to this socket.
  if delay = 0 ∧ (net.socks dst).flight.len = 0 then net.arrive dst payload
  else
    (net.noteAdd net.now delay).launch dst (wrappingAdd net.now delay) payload

/-- The loop of `discardFlight`.  Each round consumes a header's length at
least, so the ring's length bounds the rounds. -/
def discardRecords : Nat → Net → SockId → Net
  | 0, net, _ => net
  | fuel + 1, net, sock =>
      if flightHeaderLen ≤ (net.socks sock).flight.len then
        let len := headerLen (net.flightPeek sock 0 flightHeaderLen)
        let record := min (flightHeaderLen + len) (net.socks sock).flight.len
        let net := net.flightSkip sock record
        discardRecords fuel (net.setInFlight (net.inFlight - 1)) sock
      else net

/-- Drop every record in flight to `sock`. -/
def discardFlight (net : Net) (sock : SockId) : Net :=
  let net := discardRecords (net.socks sock).flight.len net sock
  net.modifySock sock .clearFlight

/-- When the next payload in flight is due, if any is. -/
def nextDue (net : Net) : Option Nat :=
  if 0 < net.inFlight then some net.nextDueAt else none

/-- Move `n` bytes from the head of `sock`'s flight ring to its receive ring,
in chunks of 256. -/
def landChunks : Nat → Net → SockId → Nat → Net
  | 0, net, _, _ => net
  | fuel + 1, net, sock, n =>
      if 0 < n then
        let step := min n 256
        let chunk := net.flightPeek sock 0 step
        landChunks fuel ((net.flightSkip sock step).ringPush sock chunk) sock
          (n - step)
      else net

def land (net : Net) (sock : SockId) (n : Nat) : Net :=
  landChunks n net sock n

/-- Landing frees flight-ring room: the sender's window may have opened. -/
def noteLanded (net : Net) (sock : SockId) : Net :=
  let d := net.socks sock
  match d.farEnd with
  | some sender =>
      if d.state = .connected then
        net.modifySock sender .writeEvent
      else net
  | none => net

/-- The head record of `sock`'s flight ring, whose header is given, is due. -/
def landHead (net : Net) (sock : SockId) (header : List UInt8) : Net :=
  let len := headerLen header
  let net := net.flightSkip sock flightHeaderLen
  let net := net.noteSub net.inFlight 1
  let net := net.setInFlight (net.inFlight - 1)
  let net := net.modifySock sock .readEvent
  if headerKind header = kFin then
    net.modifySock sock .setFin
  else if headerKind header = kBytes then
    let net := net.land sock len
    let net := net.noteSub (net.socks sock).flStream len
    let net := net.modifySock sock (.subStream len)
    let net := net.countBytes len
    net.noteLanded sock
  else
    let dataLen := ofLittleEndian (net.flightPeek sock 0 4)
    let net := net.noteSub ringSize (net.socks sock).rx.len
    if len ≤ ringSize - (net.socks sock).rx.len then
      (net.land sock len).countBytes dataLen
    else
      (net.flightSkip sock len).countDropped

/-- Everything due at one socket arrives; with it the least due time of what
stays at the head of a ring. -/
def landDue (now : Nat) : Nat → Net → SockId → Nat → Net × Nat
  | 0, net, _, next => (net, next)
  | fuel + 1, net, sock, next =>
      if 0 < (net.socks sock).flight.len then
        let header := net.flightPeek sock 0 flightHeaderLen
        let due := headerDue header
        if now < due then (net, min next due)
        else landDue now fuel (net.landHead sock header) sock next
      else (net, next)

/-- What `advance` does at one socket. -/
def advanceSock (now : Nat) (state : Net × Nat) (sock : SockId) : Net × Nat :=
  landDue now (state.1.socks sock).flight.len state.1 sock state.2

/-- The clock is now `now`: everything due arrives.  The answer tells whether
anything did, in which case I/O waiters should look again. -/
def advance (net : Net) (now : Nat) : Net × Bool :=
  let net := net.setNow now
  if net.inFlight = 0 ∨ now < net.nextDueAt then (net, false)
  else
    let (net, next) := (List.finRange maxSockets).foldl (advanceSock now)
      (net, 2 ^ 64 - 1)
    (net.setNextDue next, true)

end Net
end Derp
