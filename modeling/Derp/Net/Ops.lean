import Derp.Net.Traffic

/-!
# The operations of the network

Sockets are made, bound, connected, accepted, read, written, shut down and
released; processes gain and lose descriptors for them.  A step of the network
is one critical section of a guest's socket call, so a new socket gets its
first descriptor in the step that makes it.
-/

namespace Derp

/-- The record a fresh socket starts with; the rings' cells stay. -/
def Sock.fresh (host : Nat) (family : Family) (kind : Kind) (d : Sock) : Sock :=
  { state := .new
    kind := kind
    family := family
    host := host
    rx := { d.rx with head := 0, len := 0 }
    flight := { d.flight with head := 0, len := 0 } }

namespace Sock

def setState (state : SockState) (d : Sock) : Sock :=
  { d with state := state }

def setLocal (addr : Addr) (d : Sock) : Sock :=
  { d with localName := addr }

/-- The socket is bound to a name. -/
def bindTo (addr : Addr) (d : Sock) : Sock :=
  { d with localName := addr, state := .bound }

def listenWith (backlogMax : Nat) (d : Sock) : Sock :=
  { d with state := .listening, backlogMax := backlogMax }

/-- The far end of a new connection. -/
def linkFar (localName peer : Addr) (near : SockId) (d : Sock) : Sock :=
  { d with
    state := .connected
    localName := localName
    peer := peer
    farEnd := some near }

/-- The near end of a new connection. -/
def linkNear (peer : Addr) (far : SockId) (d : Sock) : Sock :=
  { d with state := .connected, peer := peer, farEnd := some far }

def setBacklog (backlog : List SockId) (d : Sock) : Sock :=
  { d with backlog := backlog }

/-- A connection is queued on a listener. -/
def enqueue (far : SockId) (d : Sock) : Sock :=
  { d with backlog := d.backlog ++ [far], rdEvents := d.rdEvents + 1 }

def setPeer (peer : Addr) (d : Sock) : Sock :=
  { d with peer := peer, hasPeer := true }

def shutRead (d : Sock) : Sock :=
  { d with shutRd := true, rx := { d.rx with len := 0 } }

def shutWrite (d : Sock) : Sock :=
  { d with shutWr := true }

def gainRef (d : Sock) : Sock :=
  { d with refs := d.refs + 1 }

def loseRef (d : Sock) : Sock :=
  { d with refs := d.refs - 1 }

end Sock

/-- Whether a bound or listening socket answers to the name `dest`. -/
def Sock.answersTo
    (s : Sock)
    (family : Family)
    (dest : Addr) : Bool :=
  s.localName.sameName dest &&
    (family ≠ .inet || s.localName.ip = 0 ||
      (Addr.isLoopback s.localName.ip && Addr.isLoopback dest.ip) ||
      s.localName.ip = dest.ip)

/-- Whether an entry counts descriptors of a process for a socket. -/
def FdRef.isFor (r : FdRef) (pid : Nat) (sock : SockId) : Bool :=
  0 < r.count && r.pid = pid && r.sock = sock

namespace Net

def addHost (net : Net) (name : List UInt8) : Net :=
  { net with
    hosts := net.hosts ++
      [{ name := name.take 64
         addr := subnet + UInt32.ofNat net.hosts.length + 1
         nextPort := firstEphemeral }] }

/-- A host's record; slots past the last host are zeroed. -/
def hostAt (net : Net) (host : Nat) : Host :=
  net.hosts.getD host {}

/-- Which host an address names, seen from `here`: loopback never leaves the
caller's host.  The error tells an address in the virtual subnet nobody owns
from one outside it. -/
def hostForIp (net : Net) (here : Nat) (ip : UInt32) : Except Bool Nat :=
  if Addr.isLoopback ip then .ok here
  else
    match (List.range net.hosts.length).find?
        fun i => (net.hostAt i).addr = ip with
    | some i => .ok i
    | none => .error (ip &&& subnetMask = subnet)

/-- The first free slot. -/
def freeSlot (net : Net) : Option SockId :=
  (List.finRange maxSockets).find? fun i => (net.socks i).state = .free

def setIdent (net : Net) (sock : SockId) (ident : Nat) : Net :=
  { net with idents := Function.update net.idents sock ident }

def socket
    (net : Net)
    (host : Nat)
    (family : Family)
    (kind : Kind) : Net × Except NetError SockId :=
  match net.freeSlot with
  | none => (net, .error (.errno .enfile))
  | some i =>
      let net := net.setIdent i 0
      -- Payloads still in flight to the slot's previous life die with it.
      let net := net.discardFlight i
      (net.modifySock i (.fresh host family kind), .ok i)

def byIdent (net : Net) (ident : Nat) : Option SockId :=
  if ident = 0 then none
  else (List.finRange maxSockets).find? fun i => net.idents i = ident

/-- A name is taken by bound and listening sockets, not by the connections a
listener accepted on the same port. -/
def nameTaken (net : Net) (host : Nat) (kind : Kind) (addr : Addr) : Bool :=
  (List.finRange maxSockets).any fun i =>
    let s := net.socks i
    (s.state = .bound || s.state = .listening) && s.host = host &&
      s.kind = kind && s.localName.sameName addr

def setHosts (net : Net) (hosts : List Host) : Net :=
  { net with hosts := hosts }

def setNextPort (net : Net) (host : Nat) (port : UInt16) : Net :=
  net.setHosts (net.hosts.modify host fun h => { h with nextPort := port })

/-- The loop of `ephemeralPort`, one port a round. -/
def tryPorts : Nat → Net → Nat → Kind → Net × Except NetError UInt16
  | 0, net, _, _ => (net, .error (.errno .eaddrinuse))
  | rounds + 1, net, host, kind =>
      let port := (net.hostAt host).nextPort
      let net := net.setNextPort host
        (if port = 65535 then firstEphemeral else port + 1)
      if net.nameTaken host kind (Addr.inet 0 port) then
        tryPorts rounds net host kind
      else (net, .ok port)

def ephemeralPort
    (net : Net)
    (host : Nat)
    (kind : Kind) : Net × Except NetError UInt16 :=
  tryPorts (65535 - firstEphemeral.toNat + 1) net host kind

/-- The end of `bind`: the name is taken or the socket has it. -/
def bindName
    (net : Net)
    (sock : SockId)
    (addr : Addr) : Net × Except NetError Unit :=
  let s := net.socks sock
  if net.nameTaken s.host s.kind addr then (net, .error (.errno .eaddrinuse))
  else
    (net.modifySock sock (.bindTo addr), .ok ())

def bind
    (net : Net)
    (sock : SockId)
    (addr : Addr) : Net × Except NetError Unit :=
  let s := net.socks sock
  if s.state ≠ .new then (net, .error (.errno .einval))
  else if addr.family ≠ s.family then (net, .error (.errno .eafnosupport))
  else if s.family = .inet then
    if addr.ip ≠ 0 ∧ ¬Addr.isLoopback addr.ip ∧
        addr.ip ≠ (net.hostAt s.host).addr then
      (net, .error (.errno .eaddrnotavail))
    else if addr.port = 0 then
      match net.ephemeralPort s.host s.kind with
      | (net, .error e) => (net, .error e)
      | (net, .ok port) => net.bindName sock { addr with port := port }
    else net.bindName sock addr
  else net.bindName sock addr

/-- The end of `listen`, once an unbound inet socket has got a port. -/
def startListening
    (net : Net)
    (sock : SockId)
    (backlog : Int) : Net × Except NetError Unit :=
  let s := net.socks sock
  if s.state ≠ .bound ∧ s.state ≠ .listening then
    (net, .error (.errno .einval))
  else
    (net.modifySock sock
      (.listenWith (max 1 (min backlog maxBacklog)).toNat), .ok ())

def listen
    (net : Net)
    (sock : SockId)
    (backlog : Int) : Net × Except NetError Unit :=
  let s := net.socks sock
  if s.kind ≠ .stream then (net, .error (.errno .eopnotsupp))
  else if s.state = .new then
    if s.family ≠ .inet then (net, .error (.errno .edestaddrreq))
    else
      match net.bind sock (Addr.inet 0 0) with
      | (net, .error e) => (net, .error e)
      | (net, .ok _) => net.startListening sock backlog
  else net.startListening sock backlog

/-- The listener a connection to `dest` reaches. -/
def findListener
    (net : Net)
    (kind : Kind)
    (family : Family)
    (destHost : Nat)
    (dest : Addr) : Option SockId :=
  (List.finRange maxSockets).find? fun i =>
    let l := net.socks i
    l.state = .listening && l.host = destHost && l.kind = kind &&
      l.answersTo family dest

/-- The end of `connect`: the far end is made, linked and queued. -/
def link
    (net : Net)
    (sock listener : SockId)
    (destHost : Nat)
    (dest : Addr) : Net × Except NetError SockId :=
  let family := (net.socks sock).family
  let kind := (net.socks sock).kind
  match net.socket destHost family kind with
  | (net, .error e) => (net, .error e)
  | (net, .ok far) =>
      let nearLocal := (net.socks sock).localName
      let farLocal := (net.socks listener).localName
      let farLocal :=
        if family = .inet then { farLocal with ip := dest.ip } else farLocal
      let net := net.modifySock far (.linkFar farLocal nearLocal sock)
      let net := net.modifySock sock (.linkNear farLocal far)
      let net := net.modifySock listener (.enqueue far)
      (net.countConnection, .ok far)

/-- Connect `sock` to the listener `dest` names on `destHost`.  The answer names
the far end. -/
def connect
    (net : Net)
    (sock : SockId)
    (destHost : Nat)
    (dest : Addr) : Net × Except NetError SockId :=
  let s := net.socks sock
  if s.state = .connected then (net, .error (.errno .eisconn))
  else if s.state ≠ .new ∧ s.state ≠ .bound then
    (net, .error (.errno .einval))
  else
    match net.findListener s.kind s.family destHost dest with
    | none => (net, .error (.errno .econnrefused))
    | some listener =>
        let l := net.socks listener
        if l.backlogMax ≤ l.backlog.length then
          (net, .error (.errno .econnrefused))
        else if s.state = .new ∧ s.family = .inet then
          match net.ephemeralPort s.host s.kind with
          | (net, .error e) => (net, .error e)
          | (net, .ok port) =>
              let ip :=
                if Addr.isLoopback dest.ip then loopback
                else (net.hostAt s.host).addr
              let net := net.modifySock sock (.setLocal (Addr.inet ip port))
              net.link sock listener destHost dest
        else net.link sock listener destHost dest

/-- Oldest queued connection of a listener. -/
def accept (net : Net) (listener : SockId) : Net × Except NetError SockId :=
  let l := net.socks listener
  if l.state ≠ .listening then (net, .error (.errno .einval))
  else
    match l.backlog with
    | [] => (net, .error .wouldBlock)
    | far :: later =>
        (net.modifySock listener (.setBacklog later), .ok far)

def readable (net : Net) (sock : SockId) : Bool :=
  let s := net.socks sock
  if s.kind = .dgram then 0 < s.rx.len
  else if s.state = .listening then 0 < s.backlog.length
  else if s.state = .connected then 0 < s.rx.len || s.fin || s.shutRd
  else true

def writable (net : Net) (sock : SockId) : Bool :=
  let s := net.socks sock
  if s.state ≠ .connected ∨ s.shutWr then true
  else
    match s.farEnd with
    | none => true
    | some far =>
        let p := net.socks far
        p.state ≠ .connected || p.shutRd || 0 < net.window far

/-- Send on a stream.  The answer is how many bytes were taken. -/
def send
    (net : Net)
    (sock : SockId)
    (data : List UInt8) : Net × Except NetError Nat :=
  let s := net.socks sock
  if s.state ≠ .connected then (net, .error (.errno .enotconn))
  else if s.shutWr then (net, .error (.errno .epipe))
  else
    match s.farEnd with
    | none => (net, .error (.errno .epipe))
    | some far =>
        let p := net.socks far
        if p.state ≠ .connected ∨ p.shutRd then (net, .error (.errno .epipe))
        else if data = [] then (net, .ok 0)
        else
          match net.deliver s.host far (.bytes data) with
          | (net, 0) => (net, .error .wouldBlock)
          | (net, n) => (net, .ok n)

/-- Receive from a stream into a buffer of `room` bytes; no bytes is the end of
the stream. -/
def recv
    (net : Net)
    (sock : SockId)
    (room : Nat)
    (peek : Bool) : Net × Except NetError (List UInt8) :=
  let s := net.socks sock
  if s.state ≠ .connected then (net, .error (.errno .enotconn))
  else if s.rx.len = 0 then
    if s.fin ∨ s.shutRd ∨ room = 0 then (net, .ok [])
    else (net, .error .wouldBlock)
  else
    let n := min room s.rx.len
    let out := net.ringPeek sock 0 n
    if peek then (net, .ok out)
    else
      let net := net.ringSkip sock n
      match s.farEnd with
      | none => (net, .ok out)
      | some sender =>
          (net.modifySock sender .writeEvent, .ok out)

/-- An unbound inet datagram socket gets a port when it first sends. -/
def bindIfNew (net : Net) (sock : SockId) : Net × Except NetError Unit :=
  let s := net.socks sock
  if s.state = .new ∧ s.family = .inet then net.bind sock (Addr.inet 0 0)
  else (net, .ok ())

/-- Give a datagram socket a default destination. -/
def connectDgram
    (net : Net)
    (sock : SockId)
    (dest : Addr) : Net × Except NetError Unit :=
  match net.bindIfNew sock with
  | (net, .error e) => (net, .error e)
  | (net, .ok _) =>
      (net.modifySock sock (.setPeer dest), .ok ())

/-- The receiver of a datagram from `source` to `dest`. -/
def findReceiver
    (net : Net)
    (family : Family)
    (destHost : Nat)
    (dest source : Addr) : Option SockId :=
  (List.finRange maxSockets).find? fun i =>
    let t := net.socks i
    t.kind = .dgram && t.state = .bound && t.host = destHost &&
      t.answersTo family dest &&
      (!t.hasPeer || (t.peer.sameName source && t.peer.ip = source.ip))

/-- Where a datagram of `sock` goes when no destination is named. -/
def defaultDest (net : Net) (s : Sock) : Option (Nat × Addr) :=
  if s.hasPeer then
    some (match net.hostForIp s.host s.peer.ip with
      | .ok host => if s.family = .inet then host else s.host
      | .error _ => s.host, s.peer)
  else none

/-- What the receiver of a datagram to `dest` sees as the source. -/
def sourceName (net : Net) (s : Sock) (dest : Addr) : Addr :=
  if s.family = .inet then
    { s.localName with
      family := .inet
      ip := if Addr.isLoopback dest.ip then loopback
        else (net.hostAt s.host).addr }
  else s.localName

/-- The end of `sendDgram`, once the destination is known. -/
def sendTo
    (net : Net)
    (sock : SockId)
    (destHost : Nat)
    (dest : Addr)
    (data : List UInt8) : Net × Except NetError Nat :=
  let s := net.socks sock
  let source := net.sourceName s dest
  let lost (net : Net) : Net × Except NetError Nat :=
    if s.family = .unix then (net, .error .wouldBlock)
    else
      (net.countDropped.countDatagram, .ok data.length)
  match net.findReceiver s.family destHost dest source with
  | some target =>
      match net.deliver s.host target (.datagram source data) with
      | (net, taken) =>
          if taken = 0 ∧ data ≠ [] then lost net
          else
            (net.countDatagram, .ok data.length)
  | none =>
      if s.family = .unix then (net, .error (.errno .econnrefused))
      else lost net

/-- Send one datagram to `dest`, or to the default destination. -/
def sendDgram
    (net : Net)
    (sock : SockId)
    (dest : Option (Nat × Addr))
    (data : List UInt8) : Net × Except NetError Nat :=
  if maxDgram < data.length then (net, .error (.errno .emsgsize))
  else
    match net.bindIfNew sock with
    | (net, .error e) => (net, .error e)
    | (net, .ok _) =>
        match dest.or (net.defaultDest (net.socks sock)) with
        | none => (net, .error (.errno .edestaddrreq))
        | some (host, addr) => net.sendTo sock host addr data

theorem length_take_unixPathMax (path : List UInt8) :
    (path.take unixPathMax).length ≤ unixPathMax :=
  List.length_take_le _ _

/-- The source a datagram's header and path tell. -/
def readSource (header path : List UInt8) : Addr where
  family := Family.ofCode (header.getD 10 0)
  port := UInt16.ofNat (ofLittleEndian ((header.drop 8).take 2))
  ip := UInt32.ofNat (ofLittleEndian ((header.drop 4).take 4))
  path := path.take unixPathMax
  path_le := length_take_unixPathMax path

/-- Receive one datagram into a buffer of `room` bytes, and its source.  What
does not fit is discarded with the datagram.  A length of the source's path that
the address has no room for is sliced past its end. -/
def recvDgram
    (net : Net)
    (sock : SockId)
    (room : Nat)
    (peek : Bool) : Net × Except NetError (List UInt8 × Addr) :=
  if (net.socks sock).rx.len = 0 then (net, .error .wouldBlock)
  else
    let header := net.ringPeek sock 0 dgramHeaderLen
    let len := ofLittleEndian (header.take 4)
    let pathLen := (header.getD 11 0).toNat
    if unixPathMax < pathLen then (net, .error .panic)
    else
      let path := net.ringPeek sock dgramHeaderLen pathLen
      let n := min room len
      let out := net.ringPeek sock (dgramHeaderLen + pathLen) n
      let net :=
        if peek then net
        else net.ringSkip sock (dgramHeaderLen + pathLen + len)
      (net, .ok (out, readSource header path))

/-- The reading half of `shutdown`. -/
def shutdownRead (net : Net) (sock : SockId) : Net :=
  match (net.socks sock).farEnd with
  | none => net.modifySock sock .shutRead
  | some peer =>
      -- The peer's writes now fail instead of blocking.
      (net.modifySock sock .shutRead).modifySock peer .writeEvent

/-- The writing half of `shutdown`. -/
def shutdownWrite (net : Net) (sock : SockId) : Net :=
  match (net.socks sock).farEnd with
  | none => net.modifySock sock .shutWrite
  | some peer =>
      ((net.modifySock sock .shutWrite).deliver (net.socks sock).host peer
        .fin).1

def shutdown
    (net : Net)
    (sock : SockId)
    (read write : Bool) : Net × Except NetError Unit :=
  if (net.socks sock).state ≠ .connected then (net, .error (.errno .enotconn))
  else
    let net := if read then net.shutdownRead sock else net
    if write ∧ (net.socks sock).shutWr = false then
      (net.shutdownWrite sock, .ok ())
    else (net, .ok ())

def setState (net : Net) (sock : SockId) (state : SockState) : Net :=
  net.modifySock sock (.setState state)

/-- A connection queued on a listener that goes away is reset. -/
def resetQueued (net : Net) (far : SockId) : Net :=
  match (net.socks far).farEnd with
  | none => net
  | some near =>
      if (net.socks near).state = .closed then
        (net.setState near .free).setState far .free
      else
        let net := (net.deliver (net.socks far).host near .fin).1
        let net := net.modifySock near .writeEvent
        net.setState far .closed

/-- One end of a connection has lost its last descriptor. -/
def releaseConnected (net : Net) (sock : SockId) : Net :=
  match (net.socks sock).farEnd with
  | none => net
  | some peer =>
      if (net.socks peer).state = .closed then
        (net.setState peer .free).setState sock .free
      else
        -- A shutdown already sent the FIN, and the flight ring keeps room for
        -- exactly one.
        let net :=
          if (net.socks sock).shutWr then net
          else (net.deliver (net.socks sock).host peer .fin).1
        let net := net.modifySock peer .writeEvent
        net.setState sock .closed

/-- The last descriptor of `sock` is gone. -/
def release (net : Net) (sock : SockId) : Net :=
  let net :=
    match (net.socks sock).state with
    | .listening =>
        ((net.socks sock).backlog.foldl resetQueued net).setState sock .free
    | .connected => net.releaseConnected sock
    | _ => net.setState sock .free
  net.setIdent sock 0

/-- The entry that counts a process's descriptors for a socket, or a free one;
the source panics when there is neither. -/
def fdrefAt (net : Net) (pid : Nat) (sock : SockId) : Option Nat :=
  ((List.range maxFdrefs).find? fun at' =>
      (net.fdrefs at').isFor pid sock).or
    ((List.range maxFdrefs).find? fun at' => (net.fdrefs at').count = 0)

/-- Let an entry count descriptors of a process for a socket. -/
def setFdref
    (net : Net)
    (at' : Nat)
    (pid : Nat)
    (sock : SockId)
    (count : Nat) : Net :=
  { net with
    fdrefs := Function.update net.fdrefs at'
      { pid := pid, sock := sock, count := count } }

/-- Process `pid` gained a descriptor for `sock`; nothing when the table of
references is full, where the source panics. -/
def addRef (net : Net) (pid : Nat) (sock : SockId) : Option Net :=
  (net.fdrefAt pid sock).map fun at' =>
    let count := (net.fdrefs at').count
    (net.setFdref at' pid sock (count + 1)).modifySock sock .gainRef

/-- Process `pid` closed a descriptor for `sock`. -/
def dropRef (net : Net) (pid : Nat) (sock : SockId) : Net :=
  match net.fdrefAt pid sock with
  | none => net
  | some at' =>
      let count := (net.fdrefs at').count
      let net := net.setFdref at' pid sock (count - 1)
      let net := net.modifySock sock .loseRef
      if (net.socks sock).refs = 0 then net.release sock else net

/-- How many descriptors for a socket a process holds. -/
def held (net : Net) (pid : Nat) (sock : SockId) : Nat :=
  match (List.range maxFdrefs).find? fun at' =>
      (net.fdrefs at').isFor pid sock with
  | none => 0
  | some at' => (net.fdrefs at').count

/-- Drop a number of a process's descriptors for a socket. -/
def dropRefs (pid : Nat) (sock : SockId) : Nat → Net → Net
  | 0, net => net
  | count + 1, net => dropRefs pid sock count (net.dropRef pid sock)

/-- Drop what a process held in an earlier state, socket by socket. -/
def dropHeld (net : Net) (pid : Nat) (old : SockId → Nat) : Net :=
  (List.finRange maxSockets).foldl
    (fun net sock => dropRefs pid sock (old sock) net) net

/-- Add a process's descriptors for sockets, one by one. -/
def addRefs (pid : Nat) : List SockId → Net → Option Net
  | [], net => some net
  | sock :: socks, net => (net.addRef pid sock).bind (addRefs pid socks)

/-- Replace what is recorded for `pid` by `sockets`, one entry per open
descriptor.  Additions come first so a socket that stays open never looks
released in between. -/
def setRefs (net : Net) (pid : Nat) (sockets : List SockId) : Option Net :=
  (addRefs pid sockets net).map fun later => later.dropHeld pid (net.held pid)

/-- Process `pid` is gone and the kernel closed its descriptors. -/
def processDied (net : Net) (pid : Nat) : Net :=
  net.dropHeld pid (net.held pid)

/-- A dead process keeps nothing. -/
theorem setRefs_nil (net : Net) (pid : Nat) :
    net.setRefs pid [] = some (net.processDied pid) := rfl

/-- Count the virtual sockets among the descriptors a process was born with, or
kept across `execve`, by their inodes. -/
def adoptInherited (net : Net) (pid : Nat) (idents : List Nat) : Option Net :=
  net.setRefs pid (idents.filterMap net.byIdent)

end Net
end Derp
