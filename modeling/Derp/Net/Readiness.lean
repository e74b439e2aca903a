import Derp.Net.Rings

/-!
# Readiness is what the operations find

A loop over `poll` or `kevent` acts on readiness, so readiness must be exactly
that an operation would not block.  For streams it is.  A datagram socket is
always writable, while a UNIX-domain send waits for room at its receiver.
-/

namespace Derp
namespace Net

variable {net : Net} {sock dst : SockId}

/-! ## Streams -/

/-- With an empty flight ring no stream bytes are in flight. -/
theorem flStream_of_empty
    (ok : (net.socks dst).traffic.Ok)
    (isEmpty : (net.socks dst).flight.len = 0) :
    (net.socks dst).flStream = 0 := by
  have none := Traffic.records_of_empty
    (t := (net.socks dst).traffic) isEmpty
  have stream := ok.stream_eq
  rw [none] at stream
  exact stream

/-- What a launch takes of stream bytes. -/
theorem launch_bytes_taken
    (net : Net)
    (dst : SockId)
    (deliverAt : Nat)
    (data : List UInt8) :
    (net.launch dst deliverAt (.bytes data)).2 =
      min (min data.length (net.window dst))
        (ringSize - (net.socks dst).flight.len - 2 * flightHeaderLen) := by
  simp only [launch]
  split
  · next nothing => exact nothing.symm
  · rfl

/-- Bytes are refused exactly while the receiver's window is closed. -/
theorem deliver_bytes_refused
    (ok : (net.socks dst).traffic.Ok)
    {data : List UInt8}
    (some : data ≠ [])
    (srcHost : Nat) :
    (net.deliver srcHost dst (.bytes data)).2 = 0 ↔ net.window dst = 0 := by
  have long : 0 < data.length := List.length_pos_iff.mpr some
  unfold deliver
  simp only
  split
  · next immediate =>
      have stream := flStream_of_empty ok immediate.2
      have taken : (net.arrive dst (.bytes data)).2 =
          min data.length (ringSize - (net.socks dst).rx.len) := by
        simp [arrive, Sock.readEvent]
      have window : net.window dst = ringSize - (net.socks dst).rx.len := by
        simp [window, immediate.2, stream]
      rw [taken, window]
      omega
  · rw [launch_bytes_taken]
    -- An open window means room for a record's header and one more.
    have room : 0 < net.window dst → 0 <
        ringSize - (net.socks dst).flight.len - 2 * flightHeaderLen := by
      unfold window
      simp only
      split
      · next isEmpty =>
          intro _
          rw [isEmpty]
          decide
      · omega
    have same : (net.noteAdd net.now (net.delay srcHost dst)).window dst =
        net.window dst := rfl
    rw [same]
    simp only [noteAdd_socks]
    omega

/-- A connected stream is writable exactly when a send would not block. -/
theorem writable_iff
    (accounted : net.Accounted)
    (connected : (net.socks sock).state = .connected)
    {data : List UInt8}
    (some : data ≠ []) :
    net.writable sock = true ↔
      (net.send sock data).2 ≠ .error .wouldBlock := by
  unfold writable send
  simp only [connected]
  by_cases shut : (net.socks sock).shutWr = true
  · simp [shut]
  · cases (net.socks sock).farEnd with
    | none => simp [shut]
    | some far =>
        by_cases gone : (net.socks far).state ≠ .connected ∨
            (net.socks far).shutRd = true
        · rcases gone with gone | gone <;> simp [shut, gone]
        · have refused := deliver_bytes_refused
            (accounted.counted.rings far) some (net.socks sock).host
          have isConnected : (net.socks far).state = .connected := by
            by_contra other
            exact gone (.inl other)
          have reads : (net.socks far).shutRd = false := by
            by_contra other
            exact gone (.inr (by simpa using other))
          simp only [shut, isConnected, reads, some]
          rcases taken : net.deliver (net.socks sock).host far (.bytes data)
            with ⟨later, _ | count⟩
          · rw [taken] at refused
            simp [refused.mp rfl]
          · rw [taken] at refused
            have opened : 0 < net.window far := by
              by_contra closed
              have := refused.mpr (by omega)
              cases this
            simp [opened]

/-- A connected stream is readable exactly when a receive would not block. -/
theorem readable_iff_recv
    (stream : (net.socks sock).kind = .stream)
    (connected : (net.socks sock).state = .connected)
    {room : Nat}
    (some : 0 < room)
    (peek : Bool) :
    net.readable sock = true ↔
      (net.recv sock room peek).2 ≠ .error .wouldBlock := by
  unfold readable recv
  simp only [stream, connected]
  by_cases isEmpty : (net.socks sock).rx.len = 0
  · have noRoom : room ≠ 0 := by omega
    by_cases isOver : (net.socks sock).fin = true ∨ (net.socks sock).shutRd = true
    · rcases isOver with isOver | isOver <;> simp [isEmpty, isOver]
    · simp only [not_or, Bool.not_eq_true] at isOver
      simp [isEmpty, isOver, noRoom]
  · have held : 0 < (net.socks sock).rx.len := by omega
    cases peek with
    | true => simp [isEmpty, held]
    | false =>
        cases (net.socks sock).farEnd with
        | none => simp [isEmpty, held]
        | some sender => simp [isEmpty, held]

/-- A listener is readable exactly when an accept would not block. -/
theorem readable_iff_accept
    (stream : (net.socks sock).kind = .stream)
    (listening : (net.socks sock).state = .listening) :
    net.readable sock = true ↔ (net.accept sock).2 ≠ .error .wouldBlock := by
  unfold readable accept
  simp only [stream, listening]
  cases (net.socks sock).backlog with
  | nil => simp
  | cons far later => simp

/-- What readiness says of a stream socket is what its operations find. -/
structure StreamReadiness (net : Net) (sock : SockId) : Prop where
  writable : (net.socks sock).state = .connected → ∀ data, data ≠ [] →
    (net.writable sock = true ↔ (net.send sock data).2 ≠ .error .wouldBlock)
  readable : (net.socks sock).state = .connected → ∀ room > 0, ∀ peek,
    (net.readable sock = true ↔
      (net.recv sock room peek).2 ≠ .error .wouldBlock)
  acceptable : (net.socks sock).state = .listening →
    (net.readable sock = true ↔ (net.accept sock).2 ≠ .error .wouldBlock)

/-- Readiness is exact for the streams of every reachable network. -/
theorem streamReadiness_of_reachable
    (reachable : system.Reachable net)
    (stream : (net.socks sock).kind = .stream) :
    net.StreamReadiness sock where
  writable connected _ some :=
    writable_iff (reachable_accounted reachable) connected some
  readable connected _ some peek :=
    readable_iff_recv stream connected some peek
  acceptable := readable_iff_accept stream

/-- Both ends of a connection with four bytes on their way. -/
theorem streamReadiness_payloadInFlight :
    ∃ net : Net, net.StreamReadiness 1 ∧
      (net.socks 1).state = .connected := by
  obtain ⟨net, played, facts⟩ := Option.map_eq_some_iff.mp
    (by decide +kernel : (play Admissible payloadInFlight
      (zeroed [[97], [98]] 50)).map (fun net =>
        ((net.socks 1).state, (net.socks 1).kind)) =
          some (.connected, .stream))
  obtain ⟨connected, stream⟩ := Prod.mk.inj facts
  exact ⟨net, streamReadiness_of_reachable
    (reachable_play (.start ⟨_, _, rfl⟩) played) stream, connected⟩

/-! ## Datagram sockets -/

/-- The bytes a datagram may have at its receiver, header and path included. -/
def dgramRoom (net : Net) (srcHost : Nat) (dst : SockId) : Nat :=
  if net.delay srcHost dst = 0 ∧ (net.socks dst).flight.len = 0 then
    ringSize - (net.socks dst).rx.len
  else ringSize - (net.socks dst).flight.len - 2 * flightHeaderLen

/-- A datagram is refused exactly if its receiver has no room for it. -/
theorem deliver_datagram_refused
    (net : Net)
    (srcHost : Nat)
    (dst : SockId)
    (source : Addr)
    {data : List UInt8}
    (some : data ≠ []) :
    (net.deliver srcHost dst (.datagram source data)).2 = 0 ↔
      net.dgramRoom srcHost dst <
        dgramHeaderLen + source.path.length + data.length := by
  have long : 0 < data.length := List.length_pos_iff.mpr some
  unfold deliver dgramRoom
  simp only
  split
  · simp only [arrive, noteSub_socks, modifySock_socks_self, Sock.readEvent]
    split
    · next noRoom => exact ⟨fun _ => noRoom, fun _ => rfl⟩
    · next room =>
        constructor
        · intro none
          simp only at none
          omega
        · intro noRoom
          exact absurd noRoom room
  · simp only [launch, noteSub_socks, noteAdd_socks]
    by_cases noRoom : ringSize - (net.socks dst).flight.len -
        2 * flightHeaderLen < dgramHeaderLen + source.path.length + data.length
    · simp [noRoom]
    · simp [noRoom, some]

/-- A datagram socket is readable exactly when a receive would not block. -/
theorem readable_iff_recvDgram
    (dgram : (net.socks sock).kind = .dgram)
    (room : Nat)
    (peek : Bool) :
    net.readable sock = true ↔
      (net.recvDgram sock room peek).2 ≠ .error .wouldBlock := by
  unfold readable recvDgram
  simp only [dgram]
  by_cases isEmpty : (net.socks sock).rx.len = 0
  · simp [isEmpty]
  · have held : 0 < (net.socks sock).rx.len := by omega
    simp [isEmpty, held]
    split <;> simp

/-- A datagram socket is always writable. -/
theorem writable_of_dgram
    (wired : net.Wired)
    (dgram : (net.socks sock).kind = .dgram) : net.writable sock = true := by
  have apart : (net.socks sock).state ≠ .connected := by
    intro connected
    have := wired.streams sock (.inr (.inl connected))
    rw [dgram] at this
    cases this
  unfold writable
  simp [apart]

/-- What is sent waits for a UNIX-domain receiver without room, and for nothing
else. -/
theorem sendTo_blocks_iff
    (net : Net)
    (sock : SockId)
    (destHost : Nat)
    (dest : Addr)
    (data : List UInt8) :
    (net.sendTo sock destHost dest data).2 = .error .wouldBlock ↔
      data ≠ [] ∧ (net.socks sock).family = .unix ∧
        ∃ target, net.findReceiver .unix destHost dest
            (net.socks sock).localName = some target ∧
          net.dgramRoom (net.socks sock).host target <
            dgramHeaderLen + (net.socks sock).localName.path.length +
              data.length := by
  unfold sendTo
  by_cases isUnix : (net.socks sock).family = .unix
  · simp only [isUnix, sourceName]
    cases found : net.findReceiver .unix destHost dest
        (net.socks sock).localName with
    | none => simp [found]
    | some target =>
        by_cases isEmpty : data = []
        · simp [isEmpty, found]
        · have refused := deliver_datagram_refused net (net.socks sock).host
            target (net.socks sock).localName isEmpty
          rcases taken : net.deliver (net.socks sock).host target
            (.datagram (net.socks sock).localName data) with ⟨later, count⟩
          rw [taken] at refused
          simp only at refused
          by_cases none : count = 0
          · simp [found, taken, none, isEmpty, refused.mp none]
          · have := mt refused.mpr none
            simp [found, taken, none, isEmpty, this]
  · simp only [isUnix]
    cases net.findReceiver (net.socks sock).family destHost dest
        (net.sourceName (net.socks sock) dest) with
    | none => simp
    | some target =>
        simp only
        by_cases lost : (net.deliver (net.socks sock).host target
            (.datagram (net.sourceName (net.socks sock) dest) data)).2 = 0 ∧
              data ≠ []
        · simp [lost]
        · simp [lost]

theorem tryPorts_doesNotBlock
    (rounds : Nat)
    (net : Net)
    (host : Nat)
    (kind : Kind) :
    (tryPorts rounds net host kind).2 ≠ .error .wouldBlock := by
  induction rounds generalizing net with
  | zero => simp [tryPorts]
  | succ rounds inductionHypothesis =>
      unfold tryPorts
      simp only
      by_cases taken : (net.setNextPort host
          (if (net.hostAt host).nextPort = 65535 then firstEphemeral
            else (net.hostAt host).nextPort + 1)).nameTaken host kind
              (Addr.inet 0 (net.hostAt host).nextPort) = true
      · rw [if_pos taken]
        exact inductionHypothesis _
      · rw [if_neg taken]
        simp

theorem bindName_doesNotBlock (net : Net) (sock : SockId) (addr : Addr) :
    (net.bindName sock addr).2 ≠ .error .wouldBlock := by
  unfold bindName
  simp only
  split <;> simp

/-- Binding never waits. -/
theorem bind_doesNotBlock (net : Net) (sock : SockId) (addr : Addr) :
    (net.bind sock addr).2 ≠ .error .wouldBlock := by
  have ports := tryPorts_doesNotBlock (65535 - firstEphemeral.toNat + 1) net
    (net.socks sock).host (net.socks sock).kind
  unfold bind
  simp only
  split
  · simp
  · split
    · simp
    · split
      · split
        · simp
        · split
          · unfold ephemeralPort
            rcases found : tryPorts (65535 - firstEphemeral.toNat + 1) net
              (net.socks sock).host (net.socks sock).kind with
              ⟨later, e | port⟩
            · rw [found] at ports
              simpa using ports
            · exact bindName_doesNotBlock _ _ _
          · exact bindName_doesNotBlock _ _ _
      · exact bindName_doesNotBlock _ _ _

theorem bindIfNew_doesNotBlock (net : Net) (sock : SockId) :
    (net.bindIfNew sock).2 ≠ .error .wouldBlock := by
  unfold bindIfNew
  simp only
  split
  · exact net.bind_doesNotBlock sock _
  · simp

/-- A send to the default destination waits for a UNIX-domain receiver without
room, and for nothing else. -/
theorem sendDgram_blocks_iff
    (hasPeer : (net.socks sock).hasPeer = true)
    {data : List UInt8}
    (small : data.length ≤ maxDgram) :
    (net.sendDgram sock none data).2 = .error .wouldBlock ↔
      data ≠ [] ∧ (net.socks sock).family = .unix ∧
        ∃ target, net.findReceiver .unix (net.socks sock).host
            (net.socks sock).peer (net.socks sock).localName = some target ∧
          net.dgramRoom (net.socks sock).host target <
            dgramHeaderLen + (net.socks sock).localName.path.length +
              data.length := by
  have inRange : ¬maxDgram < data.length := by omega
  unfold sendDgram
  rw [if_neg inRange]
  by_cases isUnix : (net.socks sock).family = .unix
  · have same : net.bindIfNew sock = (net, .ok ()) := by
      simp [bindIfNew, isUnix]
    have dest : net.defaultDest (net.socks sock) =
        some ((net.socks sock).host, (net.socks sock).peer) := by
      unfold defaultDest
      rw [if_pos hasPeer]
      cases net.hostForIp (net.socks sock).host (net.socks sock).peer.ip <;>
        simp [isUnix]
    rw [same]
    simp only [Option.none_or, dest]
    exact net.sendTo_blocks_iff sock _ _ data
  · have family := (net.relabels_bindIfNew sock).family sock
    have bindable := net.bindIfNew_doesNotBlock sock
    constructor
    · intro blocks
      exfalso
      revert family bindable blocks
      cases net.bindIfNew sock with
      | mk middle answer =>
          intro family bindable
          cases answer with
          | error e =>
              intro blocks
              exact bindable (by simpa using blocks)
          | ok done =>
              simp only [Option.none_or]
              cases middle.defaultDest (middle.socks sock) with
              | none => simp
              | some dest =>
                  intro blocks
                  have := (middle.sendTo_blocks_iff sock dest.1 dest.2
                    data).mp blocks
                  exact isUnix (family ▸ this.2.1)
    · rintro ⟨-, unix, -⟩
      exact absurd unix isUnix

/-- What readiness says of a datagram socket is what its operations find. -/
structure DgramReadiness (net : Net) (sock : SockId) : Prop where
  readable : ∀ room peek, net.readable sock = true ↔
    (net.recvDgram sock room peek).2 ≠ .error .wouldBlock
  writable : net.writable sock = true → (net.socks sock).hasPeer = true →
    ∀ data, data.length ≤ maxDgram →
      (net.sendDgram sock none data).2 ≠ .error .wouldBlock

/-- The receiver at the default destination of a UNIX-domain socket has room
for a datagram of any length. -/
def ReceiverHasRoom (net : Net) (sock : SockId) : Prop :=
  ∀ target, net.findReceiver .unix (net.socks sock).host
      (net.socks sock).peer (net.socks sock).localName = some target →
    dgramHeaderLen + (net.socks sock).localName.path.length + maxDgram ≤
      net.dgramRoom (net.socks sock).host target

/-- Readiness is exact for inet datagram sockets, and for UNIX-domain ones while
their receiver has room. -/
theorem dgramReadiness_iff
    (reachable : system.Reachable net)
    (dgram : (net.socks sock).kind = .dgram) :
    net.DgramReadiness sock ↔
      ((net.socks sock).hasPeer = true → (net.socks sock).family = .unix →
        net.ReceiverHasRoom sock) := by
  constructor
  · intro exact' hasPeer isUnix target found
    by_contra full
    have most : (List.replicate maxDgram (0 : UInt8)).length = maxDgram :=
      List.length_replicate
    apply exact'.writable
      (writable_of_dgram (reachable_wired reachable) dgram) hasPeer
      (List.replicate maxDgram 0) (by rw [most])
    rw [sendDgram_blocks_iff hasPeer (by rw [most]), most]
    refine ⟨?_, isUnix, target, found, by omega⟩
    rw [← List.length_pos_iff, most]
    decide
  · intro roomy
    constructor
    case readable => exact readable_iff_recvDgram dgram
    case writable =>
      intro _ hasPeer data small blocks
      rw [sendDgram_blocks_iff hasPeer small] at blocks
      obtain ⟨-, isUnix, target, found, full⟩ := blocks
      have := roomy hasPeer isUnix target found
      omega

/-- A UNIX-domain receiver, and a sender whose default destination it is, which
has sent it a datagram that leaves no room for the longest one. -/
def fullReceiver : List Op :=
  [.opened 1 0 .unix .dgram 7, .bind 0 (Addr.unix [65]),
    .opened 1 0 .unix .dgram 8, .connectDgram 1 (Addr.unix [65]),
    .sendDgram 1 none (List.replicate 4096 0)]

theorem dgramReadiness_of_emptyReceiver :
    ∃ net : Net, net.DgramReadiness 1 ∧ (net.socks 1).hasPeer = true := by
  obtain ⟨net, played, facts⟩ := Option.map_eq_some_iff.mp
    (by decide +kernel : (play Admissible (fullReceiver.take 4)
      (zeroed [[]] 0)).map (fun net =>
        ((net.socks 1).kind, (net.socks 1).hasPeer,
          (net.findReceiver .unix (net.socks 1).host (net.socks 1).peer
            (net.socks 1).localName),
          net.dgramRoom (net.socks 1).host 0,
          (net.socks 1).localName.path.length)) =
            some (.dgram, true, some 0, 65536, 0))
  simp only [Prod.mk.injEq] at facts
  obtain ⟨dgram, hasPeer, receiver, room, noPath⟩ := facts
  refine ⟨net, (dgramReadiness_iff
    (reachable_play (.start ⟨_, _, rfl⟩) played) dgram).mpr ?_, hasPeer⟩
  intro _ _ target found
  rw [receiver] at found
  obtain rfl := Option.some.inj found
  rw [room, noPath]
  decide

/-- The sender is writable, and the longest datagram waits. -/
theorem dgramReadiness_fullReceiver :
    ∃ net : Net, system.Reachable net ∧ (net.socks 1).kind = .dgram ∧
      ¬net.DgramReadiness 1 := by
  obtain ⟨net, played, facts⟩ := Option.map_eq_some_iff.mp
    (by decide +kernel : (play Admissible fullReceiver (zeroed [[]] 0)).map
      (fun net =>
        (((net.socks 1).kind, (net.socks 1).hasPeer, (net.socks 1).family),
          (net.findReceiver .unix (net.socks 1).host (net.socks 1).peer
            (net.socks 1).localName),
          net.dgramRoom (net.socks 1).host 0,
          (net.socks 1).localName.path.length)) =
            some ((.dgram, true, .unix), some 0, 61428, 0))
  simp only [Prod.mk.injEq] at facts
  obtain ⟨⟨dgram, hasPeer, isUnix⟩, receiver, room, noPath⟩ := facts
  have reachable : system.Reachable net :=
    reachable_play (.start ⟨_, _, rfl⟩) played
  refine ⟨net, reachable, dgram, fun exact' => ?_⟩
  have ready := writable_of_dgram (reachable_wired reachable) dgram
  have most : (List.replicate maxDgram (0 : UInt8)).length = maxDgram :=
    List.length_replicate
  apply exact'.writable ready hasPeer (List.replicate maxDgram 0) most.le
  rw [sendDgram_blocks_iff hasPeer most.le, most]
  refine ⟨?_, isUnix, 0, receiver, ?_⟩
  · rw [← List.length_pos_iff, most]
    decide
  · rw [room, noPath]
    decide

end Net
end Derp
