import Derp.Net.Dialling

/-!
# Datagrams in the rings

The queue of a datagram socket: the datagrams in its receive ring, then those
in flight to it.  A datagram that is sent joins the end of one queue if there
is room, one that is received leaves the front, and the clock moves datagrams
from one ring to the other or drops them.
-/

namespace Derp

@[simp] theorem Family.ofCode_code (family : Family) :
    Family.ofCode family.code = family := by
  cases family <;> rfl

/-- A source is read back as it was written. -/
theorem readSource_dgramHeader (source : Addr) (len : Nat) :
    Net.readSource (dgramHeader source len) source.path = source := by
  have family : (dgramHeader source len).getD 10 0 = source.family.code := by
    have split : dgramHeader source len =
        (toLittleEndian 4 len ++ (toLittleEndian 4 source.ip.toNat ++
          toLittleEndian 2 source.port.toNat)) ++
        [source.family.code, UInt8.ofNat source.path.length] := by
      simp [dgramHeader]
    rw [split, List.getD_append_right _ _ _ _ (by simp)]
    simp
  have port : ofLittleEndian (((dgramHeader source len).drop 8).take 2) =
      source.port.toNat := by
    have split : dgramHeader source len =
        (toLittleEndian 4 len ++ toLittleEndian 4 source.ip.toNat) ++
        (toLittleEndian 2 source.port.toNat ++
          [source.family.code, UInt8.ofNat source.path.length]) := by
      simp [dgramHeader]
    rw [split, List.drop_left' (by simp), List.take_left' (by simp)]
    exact ofLittleEndian_toLittleEndian source.port.toNat_lt
  have ip : ofLittleEndian (((dgramHeader source len).drop 4).take 4) =
      source.ip.toNat := by
    rw [dgramHeader, List.drop_left' (by simp), List.take_left' (by simp)]
    exact ofLittleEndian_toLittleEndian source.ip.toNat_lt
  have path : source.path.take unixPathMax = source.path :=
    List.take_of_length_le source.path_le
  unfold Net.readSource
  simp only [family, port, ip, path, Family.ofCode_code, UInt16.ofNat_toNat,
    UInt32.ofNat_toNat]

namespace Datagram

/-- The datagram that symbols begin with, if they begin with one. -/
def candidate (symbols : List UInt8) : Datagram where
  source := Net.readSource (symbols.take dgramHeaderLen)
    ((symbols.drop dgramHeaderLen).take (symbols.getD 11 0).toNat)
  data := (symbols.drop (dgramHeaderLen + (symbols.getD 11 0).toNat)).take
    (ofLittleEndian (symbols.take 4))
  data_lt := by
    have bound := ofLittleEndian_lt (symbols.take 4)
    have width : 256 ^ (symbols.take 4).length ≤ 256 ^ 4 :=
      Nat.pow_le_pow_right (by decide) (by simp)
    exact (List.length_take_le _ _).trans_lt
      (bound.trans_le (width.trans (by decide)))

/-- The first datagram of a receive ring's contents, and what follows it. -/
def decode (symbols : List UInt8) : Option (Datagram × List UInt8) :=
  if (candidate symbols).encode <+: symbols then
    some (candidate symbols,
      symbols.drop (candidate symbols).encode.length)
  else none

theorem candidate_encode (g : Datagram) (rest : List UInt8) :
    candidate (g.encode ++ rest) = g := by
  obtain ⟨dataLen, pathLen⟩ := g.lengths_of_encode rest
  have front : (g.encode ++ rest).take dgramHeaderLen =
      dgramHeader g.source g.data.length := by
    rw [encode, List.append_assoc]
    exact List.take_left' (by simp)
  have back : (g.encode ++ rest).drop dgramHeaderLen =
      g.source.path ++ (g.data ++ rest) := by
    rw [encode, List.append_assoc, List.append_assoc]
    exact List.drop_left' (by simp)
  have body : (g.encode ++ rest).drop (dgramHeaderLen + g.source.path.length) =
      g.data ++ rest := by
    rw [← List.drop_drop, back]
    exact List.drop_left
  have source : (candidate (g.encode ++ rest)).source = g.source := by
    unfold candidate
    dsimp only
    rw [pathLen, front, back, List.take_left]
    exact readSource_dgramHeader _ _
  have data : (candidate (g.encode ++ rest)).data = g.data := by
    unfold candidate
    dsimp only
    rw [pathLen, body, dataLen, List.take_left]
  cases g
  cases isCandidate : candidate _
  simp_all

theorem decode_encode (g : Datagram) (rest : List UInt8) :
    decode (g.encode ++ rest) = some (g, rest) := by
  unfold decode
  rw [candidate_encode, if_pos (List.prefix_append _ _), List.drop_left]

theorem decode_sound
    {symbols : List UInt8}
    {g : Datagram}
    {rest : List UInt8}
    (decoded : decode symbols = some (g, rest)) :
    symbols = g.encode ++ rest := by
  unfold decode at decoded
  split at decoded
  · next isPrefix =>
      obtain ⟨rfl, rfl⟩ := Prod.mk.inj (Option.some.inj decoded)
      obtain ⟨tail, spelled⟩ := isPrefix
      conv_lhs => rw [← spelled]
      rw [← spelled, candidate_encode, List.drop_left]
  · cases decoded

end Datagram

/-- The format of a datagram socket's receive ring. -/
def dgramFormat : RecordFormat UInt8 Datagram where
  encode := Datagram.encode
  decode := Datagram.decode
  encode_ne_nil := by
    intro g empty
    have := congrArg List.length empty
    simp [dgramHeaderLen] at this
  decode_encode := Datagram.decode_encode
  decode_sound := Datagram.decode_sound

namespace Traffic

/-- The datagrams in the receive ring, oldest first. -/
def arrived (t : Traffic) : List Datagram :=
  (dgramFormat.parse t.rx.contents).getD []

/-- The datagrams in flight, oldest first. -/
def travelling (t : Traffic) : List Datagram :=
  (t.records.map FlightRecord.payload).filterMap fun payload =>
    (Datagram.decode payload).map Prod.fst

/-- The datagrams that wait for a datagram socket, oldest first. -/
def queue (t : Traffic) : List Datagram :=
  if t.kind = .dgram then t.arrived ++ t.travelling else []

theorem queue_of_dgram
    {t : Traffic}
    (isDgram : t.kind = .dgram) : t.queue = t.arrived ++ t.travelling :=
  if_pos isDgram

theorem queue_of_not_dgram
    {t : Traffic}
    (notDgram : t.kind ≠ .dgram) : t.queue = [] :=
  if_neg notDgram

theorem arrived_eq
    {t : Traffic}
    {gs : List Datagram}
    (spelled : t.rx.contents = encodeDatagrams gs) : t.arrived = gs := by
  unfold arrived
  rw [spelled]
  exact congrArg (·.getD []) (dgramFormat.parse_encodeAll gs)

theorem travelling_eq
    {t : Traffic}
    {gs : List Datagram}
    (spelled : t.records.map FlightRecord.payload = gs.map Datagram.encode) :
    t.travelling = gs := by
  unfold travelling
  rw [spelled, List.filterMap_map]
  have read : ((fun payload => (Datagram.decode payload).map Prod.fst) ∘
      Datagram.encode) = some := by
    funext g
    have decoded := g.decode_encode []
    rw [List.append_nil] at decoded
    simp [decoded]
  rw [read, List.filterMap_some]

/-- Both rings of a datagram socket hold whole datagrams. -/
theorem Ok.spelled
    {t : Traffic}
    (ok : t.Ok)
    (isDgram : t.kind = .dgram) :
    t.rx.contents = encodeDatagrams t.arrived ∧
      t.records.map FlightRecord.payload = t.travelling.map Datagram.encode := by
  obtain ⟨records, gs, contents⟩ := ok.datagrams isDgram
  refine ⟨by rw [arrived_eq contents]; exact contents, ?_⟩
  have all : ∃ hs : List Datagram,
      t.records.map FlightRecord.payload = hs.map Datagram.encode := by
    generalize t.records = rs at records
    induction rs with
    | nil => exact ⟨[], rfl⟩
    | cons r rs inductionHypothesis =>
        obtain ⟨-, g, payload⟩ := records r (by simp)
        obtain ⟨hs, rest⟩ := inductionHypothesis fun other present =>
          records other (by simp [present])
        exact ⟨g :: hs, by simp [payload, rest]⟩
  obtain ⟨hs, spelled⟩ := all
  rw [travelling_eq spelled]
  exact spelled

/-- Traffic with nothing in it has no queue. -/
theorem Empty.queue {t : Traffic} (empty : t.Empty) : t.queue = [] := by
  have nothing : t.rx.contents = encodeDatagrams [] :=
    RingBuffer.contents_of_len_eq_zero empty.rx
  have still : t.records.map FlightRecord.payload =
      ([] : List Datagram).map Datagram.encode := by
    rw [empty.records]
    rfl
  unfold Traffic.queue
  rw [arrived_eq nothing, travelling_eq still]
  simp

end Traffic

/-- A datagram that is delivered joins the queue, unless it is refused. -/
theorem Delivered.queue
    {t t' : Traffic}
    {due taken : Nat}
    {g : Datagram}
    (ok : t.Ok)
    (isDgram : t.kind = .dgram)
    (delivered : Delivered due (.datagram g.source g.data) t t' taken) :
    t' = t ∨ t'.queue = t.queue ++ [g] := by
  obtain ⟨rxSpelled, flightSpelled⟩ := ok.spelled isDgram
  cases delivered with
  | refused => exact .inl rfl
  | arrived empty kind flight flStream fin fins contents rx_le =>
      right
      have none : t.records = [] := ok.records_eq_nil_iff.mpr empty
      have same : t'.records = t.records := by
        unfold Traffic.records
        rw [flight]
      have still : t'.travelling = t.travelling := by
        unfold Traffic.travelling
        rw [same]
      have nothing : t.travelling = [] := by
        unfold Traffic.travelling
        rw [none]
        rfl
      have joined : t'.rx.contents = encodeDatagrams (t.arrived ++ [g]) := by
        rw [contents, rxSpelled, encodeDatagrams_append]
        simp [Payload.symbols, Datagram.encode]
      rw [Traffic.queue_of_dgram isDgram,
        Traffic.queue_of_dgram (kind.trans isDgram), still, nothing,
        Traffic.arrived_eq joined, List.append_nil, List.append_nil]
  | launched r due rKind rPayload kind fin rx contents flStream fins flight_le
      room window_le =>
      right
      have still : t'.arrived = t.arrived := by
        unfold Traffic.arrived
        rw [rx]
      have joined : t'.records.map FlightRecord.payload =
          (t.travelling ++ [g]).map Datagram.encode := by
        rw [Delivered.records_launched ok contents, List.map_append,
          List.map_append, flightSpelled, List.map_singleton,
          List.map_singleton, rPayload]
        rfl
      rw [Traffic.queue_of_dgram isDgram,
        Traffic.queue_of_dgram (kind.trans isDgram), still,
        Traffic.travelling_eq joined, List.append_assoc]

namespace Net

variable
  {net later : Net}
  {sock dst i : SockId}

/-! ## Delivery -/

/-- Whether a datagram of `len` bytes in a ring finds room at `dst`. -/
def Roomy (net : Net) (srcHost : Nat) (dst : SockId) (len : Nat) : Prop :=
  if net.delay srcHost dst = 0 ∧ (net.socks dst).flight.len = 0 then
    len ≤ ringSize - (net.socks dst).rx.len
  else len ≤ ringSize - (net.socks dst).flight.len - 2 * flightHeaderLen

instance (net : Net) (srcHost : Nat) (dst : SockId) (len : Nat) :
    Decidable (net.Roomy srcHost dst len) := by
  unfold Roomy
  infer_instance

/-- A datagram was taken whole, and its destination tells. -/
def Taken
    (net : Net)
    (dst : SockId)
    (g : Datagram)
    (result : Net × Nat) : Prop :=
  result.2 = g.data.length ∧
    (result.1.socks dst).traffic ≠ (net.socks dst).traffic

/-- A datagram was refused, and nothing tells. -/
def Refused (net : Net) (result : Net × Nat) : Prop :=
  result.2 = 0 ∧ ∀ i, (result.1.socks i).traffic = (net.socks i).traffic

theorem arrive_roomy_cases (net : Net) (dst : SockId) (g : Datagram) :
    (g.encode.length ≤ ringSize - (net.socks dst).rx.len →
      net.Taken dst g (net.arrive dst (.datagram g.source g.data))) ∧
    (¬g.encode.length ≤ ringSize - (net.socks dst).rx.len →
      net.Refused (net.arrive dst (.datagram g.source g.data))) := by
  have positive : 0 < dgramHeaderLen := by decide
  have seen : ((net.modifySock dst .readEvent).noteSub ringSize
      ((net.modifySock dst .readEvent).socks dst).rx.len).socks dst =
        (net.socks dst).readEvent := by
    rw [noteSub_socks, modifySock_socks_self]
  rw [g.length_encode]
  unfold arrive
  dsimp only
  rw [seen]
  change (_ ≤ ringSize - (net.socks dst).readEvent.rx.len → _) ∧
    (¬_ ≤ ringSize - (net.socks dst).readEvent.rx.len → _)
  constructor
  · intro room
    rw [if_neg (not_lt.mpr room)]
    refine ⟨rfl, ?_⟩
    intro same
    have lengths := congrArg (fun t : Traffic => t.rx.len) same
    rw [countBytes_socks, ringPush_ringPush, ringPush_ringPush, ringPush,
      modifySock_socks_self, seen] at lengths
    change (net.socks dst).rx.len + _ = (net.socks dst).rx.len at lengths
    simp only [List.length_append, length_dgramHeader] at lengths
    omega
  · intro full
    rw [if_pos (not_le.mp full)]
    exact ⟨rfl, fun i => traffic_of_accounts (accounts_readEvent net dst) i⟩

theorem launch_roomy_cases
    (net : Net)
    (dst : SockId)
    (deliverAt : Nat)
    (g : Datagram) :
    (g.encode.length ≤
        ringSize - (net.socks dst).flight.len - 2 * flightHeaderLen →
      net.Taken dst g
        (net.launch dst deliverAt (.datagram g.source g.data))) ∧
    (¬g.encode.length ≤
        ringSize - (net.socks dst).flight.len - 2 * flightHeaderLen →
      net.Refused (net.launch dst deliverAt (.datagram g.source g.data))) := by
  have positive : 0 < flightHeaderLen := by decide
  rw [g.length_encode]
  unfold launch
  dsimp only
  rw [noteSub_socks]
  constructor
  · intro room
    rw [if_neg (not_lt.mpr room)]
    refine ⟨rfl, ?_⟩
    intro same
    have launched := (net.noteSub ringSize
      (net.socks dst).flight.len).launchRecord_accounts dst deliverAt .dgram
      [dgramHeader g.source g.data.length, g.source.path, g.data]
    have after := congrArg (fun a : Accounts => (a.socks dst).flight.len)
      launched
    dsimp only [Accounts.put] at after
    rw [Function.update_self] at after
    have lengths := after.symm.trans
      (congrArg (fun t : Traffic => t.flight.len) same)
    change (net.socks dst).flight.len + _ = (net.socks dst).flight.len
      at lengths
    simp only [List.length_append, length_flightHeader] at lengths
    omega
  · intro full
    rw [if_pos (not_le.mp full)]
    exact ⟨rfl, fun _ => rfl⟩

/-- Whether a datagram is taken is a matter of room alone. -/
theorem deliver_roomy_cases
    (net : Net)
    (srcHost : Nat)
    (dst : SockId)
    (g : Datagram) :
    (net.Roomy srcHost dst g.encode.length →
      net.Taken dst g
        (net.deliver srcHost dst (.datagram g.source g.data))) ∧
    (¬net.Roomy srcHost dst g.encode.length →
      net.Refused (net.deliver srcHost dst (.datagram g.source g.data))) := by
  unfold Roomy deliver
  dsimp only
  split
  · exact net.arrive_roomy_cases dst g
  · exact (net.noteAdd net.now (net.delay srcHost dst)).launch_roomy_cases dst
      _ g

/-- A datagram that finds room joins the end of the queue. -/
theorem deliver_roomy
    (ok : (net.socks dst).traffic.Ok)
    (isDgram : (net.socks dst).kind = .dgram)
    {srcHost : Nat}
    {g : Datagram}
    (roomy : net.Roomy srcHost dst g.encode.length) :
    ((net.deliver srcHost dst
      (.datagram g.source g.data)).1.socks dst).traffic.queue =
        (net.socks dst).traffic.queue ++ [g] := by
  have spec := (@deliver_spec net dst ok (.datagram g.source g.data) isDgram
    srcHost).received
  rcases spec.queue ok isDgram with same | joined
  · exact absurd same ((net.deliver_roomy_cases srcHost dst g).1 roomy).2
  · exact joined

/-! ## Receiving -/

/-- What a ring that begins with a datagram answers. -/
theorem recvDgram_head
    {g : Datagram}
    {gs : List Datagram}
    (contents : (net.socks sock).rx.contents = encodeDatagrams (g :: gs))
    (room : Nat)
    (peek : Bool) :
    (net.recvDgram sock room peek).2 = .ok (g.data.take room, g.source) := by
  rw [encodeDatagrams_cons] at contents
  have length := RingBuffer.length_contents (net.socks sock).rx
  rw [contents, List.length_append, Datagram.length_encode] at length
  have positive : 0 < dgramHeaderLen := by decide
  obtain ⟨dataLen, pathLen⟩ := g.lengths_of_encode (encodeDatagrams gs)
  have front : net.ringPeek sock 0 dgramHeaderLen =
      dgramHeader g.source g.data.length := by
    unfold ringPeek
    rw [RingBuffer.peek_zero _ (by omega), contents, Datagram.encode,
      List.append_assoc]
    exact List.take_left' (by simp)
  have bytes : (dgramHeader g.source g.data.length).take 4 =
      (g.encode ++ encodeDatagrams gs).take 4 := by
    rw [Datagram.encode, List.append_assoc,
      List.take_append_of_le_length (by simp [dgramHeaderLen])]
  have byte : (dgramHeader g.source g.data.length).getD 11 0 =
      (g.encode ++ encodeDatagrams gs).getD 11 0 := by
    rw [Datagram.encode, List.append_assoc,
      List.getD_append _ _ _ _ (by simp [dgramHeaderLen])]
  have path : net.ringPeek sock dgramHeaderLen g.source.path.length =
      g.source.path := by
    unfold ringPeek
    rw [RingBuffer.peek_eq _ (by omega), contents, Datagram.encode,
      List.append_assoc, List.drop_left' (by simp), List.append_assoc,
      List.take_left]
  have body : net.ringPeek sock (dgramHeaderLen + g.source.path.length)
      (min room g.data.length) = g.data.take room := by
    unfold ringPeek
    rw [RingBuffer.peek_eq _ (by omega), contents, ← List.drop_drop,
      Datagram.encode, List.append_assoc, List.drop_left' (by simp),
      List.append_assoc, List.drop_left,
      List.take_append_of_le_length (min_le_right _ _)]
    rcases Nat.le_total room g.data.length with short | long
    · rw [min_eq_left short]
    · rw [min_eq_right long, List.take_of_length_le long, List.take_length]
  unfold recvDgram
  rw [if_neg (by omega)]
  dsimp only
  rw [front, bytes, byte, dataLen, pathLen, path, body, readSource_dgramHeader,
    if_neg (Nat.not_lt_of_le g.source.path_le)]

end Net
end Derp
