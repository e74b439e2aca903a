import Derp.Library.Tables
import Derp.Net.Pipes
import Mathlib.Algebra.Order.BigOperators.Group.Finset
import Mathlib.Logic.Relation

/-!
# How what is in flight arrives

The head record of a flight ring lands when it is due: its payload moves to the
receive ring in chunks, or its FIN is noted.  Advancing the clock is a sequence
of such landings, after which no head record is due.
-/

namespace Derp

/-- What the arrival of the head record does to the traffic of its socket. -/
structure Landed
    (r : FlightRecord)
    (rest : List FlightRecord)
    (t t' : Traffic) : Prop where
  before : t.records = r :: rest
  kind : t'.kind = t.kind
  flight : t'.flight.contents = flightFormat.encodeAll rest
  fin : t'.fin = (t.fin || r.kind = .fin)
  flStream : t'.flStream =
    t.flStream - if r.kind = .bytes then r.payload.length else 0
  rx : t'.rx.contents = t.rx.contents ++ r.payload ∨
    r.kind = .dgram ∧ t'.rx = t.rx
  rx_le : t'.rx.len ≤ ringSize
  fins : t'.fins = t.fins

namespace Landed

variable
  {r : FlightRecord}
  {rest : List FlightRecord}
  {t t' : Traffic}

theorem records (landed : Landed r rest t t') : t'.records = rest :=
  Traffic.records_eq landed.flight

/-- What the flight ring holds besides the head record. -/
theorem flight_len
    (ok : t.Ok)
    (landed : Landed r rest t t') :
    t.flight.len = flightHeaderLen + r.payload.length + t'.flight.len := by
  rw [← RingBuffer.length_contents, ← RingBuffer.length_contents, ok.whole,
    landed.flight, landed.before, RecordFormat.encodeAll_cons,
    List.length_append]
  change r.encode.length + _ = _
  rw [FlightRecord.length_encode]

/-- A landing keeps the rings in order. -/
theorem ok
    (ok : t.Ok)
    (landed : Landed r rest t t') : t'.Ok := by
  have records := landed.records
  have before := landed.before
  have length := landed.flight_len ok
  have flight_le := ok.flight_le
  have stream := ok.stream_eq
  rw [before, streamOf_cons, List.length_append] at stream
  constructor
  case whole => rw [records]; exact landed.flight
  case flight_le => omega
  case stream_eq =>
    rw [records, landed.flStream, stream]
    by_cases isBytes : r.kind = .bytes <;> simp [isBytes]
  case window_le =>
    have window := ok.window_le
    have flStream := landed.flStream
    by_cases isBytes : r.kind = .bytes
    · simp only [isBytes, if_true] at flStream stream
      rcases landed.rx with moved | ⟨isDgram, -⟩
      · have rx := congrArg List.length moved
        simp only [RingBuffer.length_contents, List.length_append] at rx
        omega
      · rw [isBytes] at isDgram
        cases isDgram
    · by_cases isDgram : t.kind = .dgram
      · have none : (streamOf rest).length = 0 := by
          have all := (ok.datagrams isDgram).1
          rw [before] at all
          have empty : streamOf rest = [] := by
            unfold streamOf
            rw [List.filter_eq_nil_iff.mpr]
            · rfl
            · intro other present
              have := (all other (by simp [present])).1
              simp [this]
          rw [empty]
          rfl
        have := landed.rx_le
        simp only [isBytes, if_false] at flStream stream
        simp only [List.length_nil] at stream
        omega
      · -- Only FINs are left, and they carry nothing.
        have isFin : r.kind = .fin := by
          have notDgram := ok.streams isDgram r (by rw [before]; simp)
          cases kind : r.kind with
          | bytes => exact absurd kind isBytes
          | dgram => exact absurd kind notDgram
          | fin => rfl
        have empty := ok.finPayload r (by rw [before]; simp) isFin
        rcases landed.rx with moved | ⟨isDgram', -⟩
        · have rx := congrArg List.length moved
          rw [empty, List.append_nil] at rx
          simp only [RingBuffer.length_contents] at rx
          simp only [isBytes, if_false] at flStream
          omega
        · rw [isFin] at isDgram'
          cases isDgram'
  case finsSent =>
    have sent := ok.finsSent
    rw [before] at sent
    have noFin : t.fin = false := by
      cases seen : t.fin with
      | false => rfl
      | true =>
          have none := ok.finEmpty seen
          rw [before] at none
          cases none
    rw [landed.fins, sent, landed.fin, records, noFin, List.filter_cons]
    by_cases isFin : r.kind = .fin <;> simp [isFin, Nat.add_comm]
  case room =>
    rw [records]
    intro noFin
    by_cases isFin : r.kind = .fin
    · have : rest = [] := by
        by_contra more
        have first := ok.lastFin r
        rw [before, List.dropLast_cons_of_ne_nil more] at first
        exact first (by simp) isFin
      have empty : t'.flight.len = 0 := by
        rw [← RingBuffer.length_contents, landed.flight, this]
        rfl
      rw [empty]
      decide
    · have room := ok.room (by
        rw [before]
        intro other present
        rcases List.mem_cons.mp present with same | later
        · rw [same]
          exact isFin
        · exact noFin other later)
      omega
  case lastFin =>
    rw [records]
    intro other present
    apply ok.lastFin other
    rw [before]
    cases rest with
    | nil => simp at present
    | cons next rest =>
        rw [List.dropLast_cons_of_ne_nil (by simp)]
        exact List.mem_cons_of_mem r present
  case finPayload =>
    rw [records]
    intro other present
    exact ok.finPayload other (by rw [before]; simp [present])
  case finEmpty =>
    intro isFin
    rw [records]
    rw [landed.fin, Bool.or_eq_true, decide_eq_true_eq] at isFin
    rcases isFin with was | isLast
    · have := ok.finEmpty was
      rw [before] at this
      cases this
    · by_contra more
      have first := ok.lastFin r
      rw [before, List.dropLast_cons_of_ne_nil more] at first
      exact first (by simp) isLast
  case datagrams =>
    intro isDgram
    rw [landed.kind] at isDgram
    obtain ⟨all, gs, rx⟩ := ok.datagrams isDgram
    rw [before] at all
    rw [records]
    refine ⟨fun other present => all other (by simp [present]), ?_⟩
    rcases landed.rx with moved | ⟨-, same⟩
    · obtain ⟨-, g, payload⟩ := all r (by simp)
      refine ⟨gs ++ [g], ?_⟩
      rw [moved, rx, payload, encodeDatagrams_append]
      simp [encodeDatagrams]
    · rw [same]
      exact ⟨gs, rx⟩
  case datagramFin =>
    intro isDgram
    rw [landed.kind] at isDgram
    have := ((ok.datagrams isDgram).1 r (by rw [before]; simp)).1
    rw [landed.fin, ok.datagramFin isDgram, this]
    rfl
  case streams =>
    intro isStream
    rw [landed.kind] at isStream
    rw [records]
    intro other present
    exact ok.streams isStream other (by rw [before]; simp [present])

/-- A landing moves stream bytes along the pipe. -/
theorem pipe
    (ok : t.Ok)
    (landed : Landed r rest t t')
    (isStream : t.kind ≠ .dgram) : t'.pipe = t.pipe := by
  have notDgram := ok.streams isStream r (by rw [landed.before]; simp)
  unfold Traffic.pipe
  rw [landed.records, landed.before, streamOf_cons]
  rcases landed.rx with moved | ⟨isDgram, -⟩
  · rw [moved, List.append_assoc]
    cases kind : r.kind with
    | bytes => rw [if_pos rfl]
    | dgram => exact absurd kind notDgram
    | fin =>
        have empty := ok.finPayload r (by rw [landed.before]; simp) kind
        rw [empty, if_neg (by decide)]
  · exact absurd isDgram notDgram

end Landed

/-- A socket with other rings. -/
def Sock.withRings
    (rx flight : RingBuffer UInt8 ringSize)
    (d : Sock) : Sock :=
  { d with rx := rx, flight := flight }

namespace Net

variable {net : Net} {sock : SockId}

theorem modifySock_self
    {change : Sock → Sock}
    (same : change (net.socks sock) = net.socks sock) :
    net.modifySock sock change = net := by
  unfold modifySock
  rw [same, Function.update_eq_self]

/-- Two changes of a record that agree on the record there. -/
theorem modifySock_congr
    {first second : Sock → Sock}
    (same : first (net.socks sock) = second (net.socks sock)) :
    net.modifySock sock first = net.modifySock sock second := by
  unfold modifySock
  rw [same]

/-- Bytes move from the flight ring to the receive ring, in order. -/
theorem landChunks_spec
    {fuel n : Nat}
    (enough : n ≤ fuel)
    (within : n ≤ (net.socks sock).flight.len)
    (fits : (net.socks sock).rx.len + n ≤ ringSize) :
    ∃ rx flight, landChunks fuel net sock n =
        net.modifySock sock (.withRings rx flight) ∧
      rx.contents = (net.socks sock).rx.contents ++
        (net.socks sock).flight.contents.take n ∧
      flight.contents = (net.socks sock).flight.contents.drop n := by
  induction fuel generalizing net n with
  | zero =>
      obtain rfl : n = 0 := by omega
      exact ⟨(net.socks sock).rx, (net.socks sock).flight,
        (modifySock_self rfl).symm, by simp, by simp⟩
  | succ fuel inductionHypothesis =>
      unfold landChunks
      split
      · next positive =>
          have stepPositive : 0 < min n 256 := by omega
          have stepWithin : min n 256 ≤ (net.socks sock).flight.len := by omega
          have noted : net.noteSub (net.socks sock).flight.len (min n 256) =
              net := noteSub_of_le net stepWithin
          have chunk : net.flightPeek sock 0 (min n 256) =
              (net.socks sock).flight.contents.take (min n 256) :=
            RingBuffer.peek_zero _ stepWithin
          have moved : ((net.flightSkip sock (min n 256)).ringPush sock
              (net.flightPeek sock 0 (min n 256))) =
              net.modifySock sock (.withRings
                ((net.socks sock).rx.push
                  ((net.socks sock).flight.contents.take (min n 256)))
                ((net.socks sock).flight.skip (min n 256))) := by
            unfold flightSkip ringPush
            rw [noted, chunk, modifySock_modifySock]
            exact modifySock_congr rfl
          have chunkLength : ((net.socks sock).flight.contents.take
              (min n 256)).length = min n 256 := by
            rw [List.length_take, RingBuffer.length_contents]
            omega
          have pushed := RingBuffer.contents_push (net.socks sock).rx
            ((net.socks sock).flight.contents.take (min n 256))
            (by rw [chunkLength]; omega)
          have skipped := RingBuffer.contents_skip (net.socks sock).flight
            stepWithin
          dsimp only
          rw [moved]
          obtain ⟨rx, flight, landed, rxContents, flightContents⟩ :=
            @inductionHypothesis (net.modifySock sock (.withRings
              ((net.socks sock).rx.push
                ((net.socks sock).flight.contents.take (min n 256)))
              ((net.socks sock).flight.skip (min n 256))))
              (n - min n 256) (by omega)
              (by
                rw [modifySock_socks_self]
                change _ ≤ (net.socks sock).flight.len - min n 256
                omega)
              (by
                rw [modifySock_socks_self]
                change (net.socks sock).rx.len + _ + _ ≤ ringSize
                rw [chunkLength]
                omega)
          rw [modifySock_socks_self] at rxContents flightContents
          change rx.contents = ((net.socks sock).rx.push _).contents ++
            ((net.socks sock).flight.skip _).contents.take _ at rxContents
          change flight.contents =
            ((net.socks sock).flight.skip _).contents.drop _ at flightContents
          refine ⟨rx, flight, ?_, ?_, ?_⟩
          · rw [landed, modifySock_modifySock]
            exact modifySock_congr rfl
          · rw [rxContents, pushed, skipped, List.append_assoc]
            congr 1
            have total : n = min n 256 + (n - min n 256) := by omega
            conv_rhs => rw [total, List.take_add]
          · rw [flightContents, skipped, List.drop_drop]
            congr 1
            omega
      · next zero =>
          obtain rfl : n = 0 := by omega
          exact ⟨(net.socks sock).rx, (net.socks sock).flight,
            (modifySock_self rfl).symm, by simp, by simp⟩

theorem land_spec
    {n : Nat}
    (within : n ≤ (net.socks sock).flight.len)
    (fits : (net.socks sock).rx.len + n ≤ ringSize) :
    ∃ rx flight, net.land sock n =
        net.modifySock sock (.withRings rx flight) ∧
      rx.contents = (net.socks sock).rx.contents ++
        (net.socks sock).flight.contents.take n ∧
      flight.contents = (net.socks sock).flight.contents.drop n :=
  landChunks_spec le_rfl within fits

theorem accounts_noteLanded (net : Net) (sock : SockId) :
    (net.noteLanded sock).accounts = net.accounts := by
  simp only [noteLanded]
  cases (net.socks sock).farEnd with
  | none => rfl
  | some sender =>
      dsimp only
      split
      · exact accounts_writeEvent net sender
      · rfl

/-- The header of the head record. -/
theorem flightPeek_head
    (ok : (net.socks sock).traffic.Ok)
    {r : FlightRecord}
    {rest : List FlightRecord}
    (head : (net.socks sock).traffic.records = r :: rest) :
    net.flightPeek sock 0 flightHeaderLen =
        flightHeader r.due r.kind r.payload.length ∧
      (net.socks sock).flight.contents.drop flightHeaderLen =
        r.payload ++ flightFormat.encodeAll rest ∧
      flightHeaderLen + r.payload.length ≤ (net.socks sock).flight.len := by
  have whole := ok.whole
  rw [head, RecordFormat.encodeAll_cons] at whole
  change (net.socks sock).flight.contents = r.encode ++ _ at whole
  obtain ⟨front, back⟩ := r.headers_of_encode (flightFormat.encodeAll rest)
  have length := congrArg List.length whole
  rw [RingBuffer.length_contents, List.length_append,
    FlightRecord.length_encode] at length
  refine ⟨?_, ?_, by omega⟩
  · unfold flightPeek
    rw [RingBuffer.peek_zero _ (by omega), whole, front]
  · rw [whole, back]

/-- The head record lands. -/
theorem landHead_spec
    (ok : (net.socks sock).traffic.Ok)
    {r : FlightRecord}
    {rest : List FlightRecord}
    (head : (net.socks sock).traffic.records = r :: rest)
    (counted : 0 < net.inFlight) :
    ∃ t', Landed r rest (net.socks sock).traffic t' ∧
      (net.landHead sock
        (flightHeader r.due r.kind r.payload.length)).accounts =
        { net.accounts.put sock t' with inFlight := net.inFlight - 1 } := by
  obtain ⟨-, body, long⟩ := flightPeek_head ok head
  have kind := headerKind_flightHeader r.due r.kind r.payload.length
  have len := headerLen_flightHeader r.due r.kind r.payload_lt
  have noted : net.noteSub (net.socks sock).flight.len flightHeaderLen = net :=
    noteSub_of_le net (by omega)
  -- The header is gone, the record is no longer counted.
  obtain ⟨begun, isBegun⟩ : ∃ begun, begun = (((net.flightSkip sock
      flightHeaderLen).setInFlight (net.inFlight - 1)).modifySock sock
        .readEvent) := ⟨_, rfl⟩
  have start : ((((net.flightSkip sock flightHeaderLen).noteSub
      (net.flightSkip sock flightHeaderLen).inFlight 1).setInFlight
        (((net.flightSkip sock flightHeaderLen).noteSub
          (net.flightSkip sock flightHeaderLen).inFlight 1).inFlight -
            1)).modifySock sock .readEvent) = begun := by
    have inFlight : (net.flightSkip sock flightHeaderLen).inFlight =
        net.inFlight := rfl
    rw [noteSub_of_le _ (by rw [inFlight]; exact counted), inFlight, isBegun]
  have begunSock : begun.socks sock =
      ((net.socks sock).skipFlight flightHeaderLen).readEvent := by
    rw [isBegun, modifySock_socks_self, setInFlight_socks]
    unfold flightSkip
    rw [noted, modifySock_socks_self]
  have begunAccounts : ∀ t', begun.accounts.put sock t' =
      { net.accounts.put sock t' with inFlight := net.inFlight - 1 } := by
    intro t'
    have skipped : (net.flightSkip sock flightHeaderLen).accounts =
        net.accounts.put sock
          ((net.socks sock).skipFlight flightHeaderLen).traffic := by
      unfold flightSkip
      rw [noted, accounts_put]
    have same : begun.accounts = { net.accounts.put sock
        ((net.socks sock).skipFlight flightHeaderLen).traffic with
          inFlight := net.inFlight - 1 } := by
      rw [isBegun, accounts_readEvent, ← skipped]
      rfl
    rw [same]
    unfold Accounts.put
    simp only [Function.update_idem]
  have skipped := RingBuffer.contents_skip (net.socks sock).flight
    (show flightHeaderLen ≤ _ by omega)
  rw [body] at skipped
  have window : (net.socks sock).rx.len + (net.socks sock).flStream ≤
      ringSize := ok.window_le
  have rx_le : (net.socks sock).rx.len ≤ ringSize := ok.rx_le
  have stream := ok.stream_eq
  rw [head, streamOf_cons, List.length_append] at stream
  change (net.socks sock).flStream = _ at stream
  have bodyLength : r.payload.length ≤ (begun.socks sock).flight.len := by
    rw [begunSock]
    simp only [Sock.readEvent, Sock.skipFlight, RingBuffer.len_skip]
    omega
  have bodyContents : (begun.socks sock).flight.contents =
      r.payload ++ flightFormat.encodeAll rest := by
    rw [begunSock]
    exact skipped
  have bodyRx : (begun.socks sock).rx = (net.socks sock).rx := by
    rw [begunSock]
    rfl
  unfold landHead
  dsimp only
  rw [start, kind, len]
  cases isKind : r.kind with
  | fin =>
      have empty := ok.finPayload r (by rw [head]; simp) isKind
      rw [if_pos (by rfl), accounts_put, begunAccounts, begunSock]
      refine ⟨((net.socks sock).skipFlight
        flightHeaderLen).readEvent.setFin.traffic, ?_, rfl⟩
      refine ⟨head, rfl, ?_, ?_, ?_, ?_, rx_le, rfl⟩
      · rw [empty] at skipped
        exact skipped
      · rw [isKind]
        simp [Sock.setFin, Sock.traffic]
      · rw [isKind]
        rfl
      · left
        rw [empty, List.append_nil]
        rfl
  | bytes =>
      rw [isKind, if_pos rfl] at stream
      have fits : (begun.socks sock).rx.len + r.payload.length ≤ ringSize := by
        rw [bodyRx]
        omega
      obtain ⟨rx, flight, landed, rxContents, flightContents⟩ :=
        land_spec bodyLength fits
      rw [bodyContents] at rxContents flightContents
      rw [List.take_left] at rxContents
      rw [List.drop_left] at flightContents
      have landedSock : (begun.land sock r.payload.length).socks sock =
          (begun.socks sock).withRings rx flight := by
        rw [landed, modifySock_socks_self]
      have noSub : (begun.land sock r.payload.length).noteSub
          ((begun.land sock r.payload.length).socks sock).flStream
            r.payload.length = begun.land sock r.payload.length := by
        apply noteSub_of_le
        rw [landedSock, begunSock]
        simp only [Sock.withRings, Sock.readEvent, Sock.skipFlight]
        omega
      rw [if_neg (by decide), if_pos (by rfl), accounts_noteLanded,
        accounts_countBytes, noSub, accounts_put, landedSock, landed,
        accounts_put, Accounts.put_put, begunAccounts, begunSock]
      have traffic : (((((net.socks sock).skipFlight
          flightHeaderLen).readEvent).withRings rx flight).subStream
            r.payload.length).traffic =
          ⟨(net.socks sock).kind, (net.socks sock).fin, rx, flight,
            (net.socks sock).flStream - r.payload.length,
            (net.socks sock).fins⟩ := by
        simp only [Sock.traffic, Sock.subStream, Sock.withRings,
          Sock.readEvent, Sock.skipFlight]
      rw [traffic]
      refine ⟨_, ?_, rfl⟩
      constructor
      case before => exact head
      case kind => rfl
      case fins => rfl
      case flight => exact flightContents
      case fin => simp [isKind, Sock.traffic]
      case flStream => simp [isKind, Sock.traffic]
      case rx =>
        rw [bodyRx] at rxContents
        exact .inl rxContents
      case rx_le =>
        rw [bodyRx] at fits rxContents
        rw [← RingBuffer.length_contents, rxContents, List.length_append,
          RingBuffer.length_contents]
        exact fits
  | dgram =>
      rw [if_neg (by decide), if_neg (by decide)]
      have noSub : begun.noteSub ringSize (begun.socks sock).rx.len = begun :=
        noteSub_of_le _ (by rw [bodyRx]; exact rx_le)
      rw [noSub]
      split
      · next room =>
          have fits : (begun.socks sock).rx.len + r.payload.length ≤
              ringSize := by
            rw [bodyRx] at room ⊢
            omega
          obtain ⟨rx, flight, landed, rxContents, flightContents⟩ :=
            land_spec bodyLength fits
          rw [bodyContents] at rxContents flightContents
          rw [List.take_left] at rxContents
          rw [List.drop_left] at flightContents
          rw [accounts_countBytes, landed, accounts_put, begunAccounts,
            begunSock]
          have traffic : (((net.socks sock).skipFlight
              flightHeaderLen).readEvent.withRings rx flight).traffic =
              ⟨(net.socks sock).kind, (net.socks sock).fin, rx, flight,
                (net.socks sock).flStream, (net.socks sock).fins⟩ := by
            simp only [Sock.traffic, Sock.withRings, Sock.readEvent,
              Sock.skipFlight]
          rw [traffic]
          refine ⟨_, ?_, rfl⟩
          constructor
          case before => exact head
          case kind => rfl
          case fins => rfl
          case flight => exact flightContents
          case fin => simp [isKind, Sock.traffic]
          case flStream => simp [isKind, Sock.traffic]
          case rx =>
            rw [bodyRx] at rxContents
            exact .inl rxContents
          case rx_le =>
            rw [bodyRx] at fits rxContents
            rw [← RingBuffer.length_contents, rxContents, List.length_append,
              RingBuffer.length_contents]
            exact fits
      · have dropped := RingBuffer.contents_skip (begun.socks sock).flight
          bodyLength
        rw [bodyContents, List.drop_left] at dropped
        have noSkip : begun.noteSub (begun.socks sock).flight.len
            r.payload.length = begun := noteSub_of_le _ bodyLength
        have traffic : ((begun.socks sock).skipFlight
            r.payload.length).traffic =
            ⟨(net.socks sock).kind, (net.socks sock).fin, (net.socks sock).rx,
              (begun.socks sock).flight.skip r.payload.length,
              (net.socks sock).flStream, (net.socks sock).fins⟩ := by
          rw [begunSock]
          simp only [Sock.traffic, Sock.readEvent, Sock.skipFlight]
        rw [accounts_countDropped]
        unfold flightSkip
        rw [noSkip, accounts_put, begunAccounts, traffic]
        refine ⟨_, ?_, rfl⟩
        constructor
        case before => exact head
        case kind => rfl
        case fins => rfl
        case flight => exact dropped
        case fin => simp [isKind, Sock.traffic]
        case flStream => simp [isKind, Sock.traffic]
        case rx => exact .inr ⟨isKind, rfl⟩
        case rx_le => exact rx_le

/-! ## The accounts over all sockets -/

/-- All rings are in order and every record is counted. -/
structure Accounts.Counted (a : Accounts) : Prop where
  rings : ∀ i, (a.socks i).Ok
  counted : a.inFlight = ∑ i, (a.socks i).records.length
  noUnderflow : a.underflow = false

/-- No record at the head of a ring is due before the next due time. -/
def Accounts.NextLe (a : Accounts) : Prop :=
  ∀ i, ∀ r ∈ (a.socks i).records.head?, a.nextDueAt ≤ r.due

/-- The number of records moves with the socket that changes. -/
theorem Accounts.sum_put
    (a : Accounts)
    (sock : SockId)
    (t : Traffic) :
    ∑ i, ((a.put sock t).socks i).records.length +
        (a.socks sock).records.length =
      ∑ i, (a.socks i).records.length + t.records.length := by
  have moved := @Finset.sum_replace SockId Nat _ _ Finset.univ sock
    (Finset.mem_univ sock)
    (fun i => (a.socks i).records.length)
    (fun i => ((a.put sock t).socks i).records.length)
    (by
      intro other _ different
      simp [Accounts.put, different])
  simpa [Accounts.put] using moved

theorem Accounts.put_socks_self (a : Accounts) (sock : SockId) (t : Traffic) :
    (a.put sock t).socks sock = t := by
  unfold Accounts.put
  exact Function.update_self sock t a.socks

theorem Accounts.put_socks_of_ne
    (a : Accounts)
    {sock other : SockId}
    (t : Traffic)
    (different : other ≠ sock) :
    (a.put sock t).socks other = a.socks other := by
  unfold Accounts.put
  exact Function.update_of_ne different t a.socks

theorem Accounts.Counted.put_rings
    {a : Accounts}
    (counted : a.Counted)
    {sock : SockId}
    {t : Traffic}
    (ok : t.Ok)
    (i : SockId) : ((a.put sock t).socks i).Ok := by
  by_cases same : i = sock
  · subst same
    rw [Accounts.put_socks_self]
    exact ok
  · rw [Accounts.put_socks_of_ne a t same]
    exact counted.rings i

/-- A socket with records is counted. -/
theorem Accounts.Counted.inFlight_pos
    {a : Accounts}
    (counted : a.Counted)
    {sock : SockId}
    {r : FlightRecord}
    {rest : List FlightRecord}
    (head : (a.socks sock).records = r :: rest) : 0 < a.inFlight := by
  rw [counted.counted]
  have part : (a.socks sock).records.length ≤
      ∑ i, (a.socks i).records.length :=
    Finset.single_le_sum (f := fun i => (a.socks i).records.length)
      (fun _ _ => Nat.zero_le _) (Finset.mem_univ sock)
  rw [head, List.length_cons] at part
  omega

/-- One due record lands. -/
inductive Accounts.Land (now : Nat) : Accounts → Accounts → Prop
  | head {a : Accounts} {sock : SockId} {r : FlightRecord}
      {rest : List FlightRecord} {t' : Traffic} :
      Landed r rest (a.socks sock) t' → r.due ≤ now →
      Accounts.Land now a
        { a.put sock t' with inFlight := a.inFlight - 1 }

/-- Any number of due records land. -/
abbrev Accounts.Lands (now : Nat) : Accounts → Accounts → Prop :=
  Relation.ReflTransGen (Accounts.Land now)

theorem Accounts.Counted.land
    {now : Nat}
    {a b : Accounts}
    (counted : a.Counted)
    (land : Accounts.Land now a b) : b.Counted := by
  cases land with
  | @head sock r rest t' landed due =>
      have moved := a.sum_put sock t'
      have positive := counted.inFlight_pos landed.before
      rw [landed.records, landed.before, List.length_cons] at moved
      refine ⟨?_, ?_, counted.noUnderflow⟩
      · exact counted.put_rings (landed.ok (counted.rings sock))
      · have total := counted.counted
        change a.inFlight - 1 =
          ∑ i, ((a.put sock t').socks i).records.length
        omega

theorem Accounts.Counted.lands
    {now : Nat}
    {a b : Accounts}
    (counted : a.Counted)
    (lands : Accounts.Lands now a b) : b.Counted := by
  induction lands with
  | refl => exact counted
  | tail _ land inductionHypothesis => exact inductionHypothesis.land land

/-- Landings move no byte of a stream out of its pipe. -/
theorem Accounts.Lands.samePipe
    {now : Nat}
    {a b : Accounts}
    (counted : a.Counted)
    (lands : Accounts.Lands now a b)
    (i : SockId) : (a.socks i).SamePipe (b.socks i) := by
  suffices b.Counted ∧ (a.socks i).SamePipe (b.socks i) from this.2
  induction lands with
  | refl => exact ⟨counted, .refl _⟩
  | @tail middle _ _ land inductionHypothesis =>
      obtain ⟨between, same⟩ := inductionHypothesis
      refine ⟨between.land land, same.trans ?_⟩
      cases land with
      | @head sock r rest t' landed due =>
          change (middle.socks i).SamePipe ((middle.put sock t').socks i)
          by_cases isSock : i = sock
          · subst isSock
            rw [Accounts.put_socks_self]
            exact ⟨landed.kind, landed.pipe (between.rings i)⟩
          · rw [Accounts.put_socks_of_ne _ t' isSock]
            exact .refl _

/-- Everything due at one socket lands. -/
theorem landDue_spec
    {now fuel next : Nat}
    (counted : net.accounts.Counted)
    (enough : (net.socks sock).flight.len ≤ fuel) :
    Accounts.Lands now net.accounts (landDue now fuel net sock next).1.accounts ∧
      (∀ i ≠ sock, ((landDue now fuel net sock next).1.socks i).traffic =
        (net.socks i).traffic) ∧
      (((landDue now fuel net sock next).1.socks sock).traffic.records = [] ∧
          (landDue now fuel net sock next).2 = next ∨
        ∃ r rest,
          ((landDue now fuel net sock next).1.socks sock).traffic.records =
            r :: rest ∧ now < r.due ∧
          (landDue now fuel net sock next).2 = min next r.due) := by
  induction fuel generalizing net with
  | zero =>
      have empty : (net.socks sock).flight.len = 0 := by omega
      exact ⟨.refl, fun _ _ => rfl,
        .inl ⟨(counted.rings sock).records_eq_nil_iff.mpr empty, rfl⟩⟩
  | succ fuel inductionHypothesis =>
      have ok := counted.rings sock
      unfold landDue
      split
      · next more =>
          cases head : (net.socks sock).traffic.records with
          | nil =>
              have := ok.records_eq_nil_iff.mp head
              change (net.socks sock).flight.len = 0 at this
              omega
          | cons r rest =>
              obtain ⟨header, -, long⟩ := flightPeek_head ok head
              have due := headerDue_flightHeader r.due_lt r.kind
                r.payload.length
              dsimp only
              rw [header, due]
              split
              · next later =>
                  exact ⟨.refl, fun _ _ => rfl,
                    .inr ⟨r, rest, head, later, rfl⟩⟩
              · next isDue =>
                  rw [not_lt] at isDue
                  obtain ⟨t', landed, moved⟩ :=
                    landHead_spec ok head (counted.inFlight_pos head)
                  have land : Accounts.Land now net.accounts
                      (net.landHead sock (flightHeader r.due r.kind
                        r.payload.length)).accounts := by
                    rw [moved]
                    exact .head landed isDue
                  have at' : ((net.landHead sock (flightHeader r.due r.kind
                      r.payload.length)).socks sock).traffic = t' := by
                    have view := congrArg
                      (fun a : Accounts => a.socks sock) moved
                    exact view.trans (Accounts.put_socks_self _ sock t')
                  have shorter := landed.flight_len ok
                  have fewer : ((net.landHead sock (flightHeader r.due r.kind
                      r.payload.length)).socks sock).flight.len ≤ fuel := by
                    have left : ((net.landHead sock (flightHeader r.due r.kind
                        r.payload.length)).socks sock).flight.len =
                        t'.flight.len :=
                      congrArg (fun t : Traffic => t.flight.len) at'
                    change (net.socks sock).flight.len = _ at shorter
                    have positive : 0 < flightHeaderLen := by decide
                    omega
                  obtain ⟨lands, others, last⟩ :=
                    inductionHypothesis (counted.land land) fewer
                  refine ⟨.head land lands, ?_, last⟩
                  intro i different
                  rw [others i different]
                  have view := congrArg (fun a : Accounts => a.socks i) moved
                  exact view.trans (Accounts.put_socks_of_ne _ t' different)
      · next empty =>
          refine ⟨.refl, fun _ _ => rfl, .inl ⟨?_, rfl⟩⟩
          apply ok.records_eq_nil_iff.mpr
          change (net.socks sock).flight.len = 0
          omega

/-- Everything due at a number of sockets lands. -/
theorem foldl_advanceSock_spec
    {now : Nat}
    (slots : List SockId)
    (distinct : slots.Nodup)
    {state result : Net × Nat}
    (counted : state.1.accounts.Counted)
    (done : slots.foldl (advanceSock now) state = result) :
    Accounts.Lands now state.1.accounts result.1.accounts ∧
      (∀ i, i ∉ slots →
        (result.1.socks i).traffic = (state.1.socks i).traffic) ∧
      (∀ i ∈ slots, ∀ r ∈ (result.1.socks i).traffic.records.head?,
        now < r.due ∧ result.2 ≤ r.due) ∧
      (result.2 = state.2 ∨
        ∃ i ∈ slots, ∃ r ∈ (result.1.socks i).traffic.records.head?,
          result.2 = r.due) ∧
      result.2 ≤ state.2 := by
  induction slots generalizing state with
  | nil =>
      rw [List.foldl_nil] at done
      subst done
      exact ⟨.refl, fun _ _ => rfl, by simp, .inl rfl, le_rfl⟩
  | cons slot slots inductionHypothesis =>
      rw [List.nodup_cons] at distinct
      rw [List.foldl_cons] at done
      obtain ⟨lands, others, head⟩ :=
        @landDue_spec state.1 slot now _ state.2 counted le_rfl
      obtain ⟨more, kept, isOver, attained, less⟩ :=
        @inductionHypothesis distinct.2 (advanceSock now state slot)
          (counted.lands lands) done
      have same := kept slot distinct.1
      have less' : (advanceSock now state slot).2 ≤ state.2 := by
        rcases head with ⟨-, next⟩ | ⟨r, rest, -, -, next⟩
        · exact next.le
        · exact next.le.trans (min_le_left _ _)
      refine ⟨lands.trans more, ?_, ?_, ?_, less.trans less'⟩
      · intro i outside
        rw [List.mem_cons, not_or] at outside
        rw [kept i outside.2]
        exact others i outside.1
      · intro i present r isHead
        rcases List.mem_cons.mp present with isSlot | later
        · subst isSlot
          rw [same] at isHead
          rcases head with ⟨empty, -⟩ | ⟨r', rest, first, notDue, next⟩
          · change r ∈ List.head? (Traffic.records
              ((advanceSock now state i).1.socks i).traffic) at isHead
            unfold advanceSock at isHead
            rw [empty] at isHead
            cases isHead
          · unfold advanceSock at isHead
            rw [first] at isHead
            obtain rfl := Option.some.inj isHead
            refine ⟨notDue, less.trans ?_⟩
            exact next.le.trans (min_le_right _ _)
        · exact isOver i later r isHead
      · rcases attained with last | ⟨i, present, r, isHead, next⟩
        · rcases head with ⟨-, next⟩ | ⟨r, rest, first, -, next⟩
          · left
            exact last.trans next
          · rcases min_choice state.2 r.due with isLeft | isRight
            · left
              exact last.trans (next.trans isLeft)
            · right
              refine ⟨slot, by simp, r, ?_, last.trans (next.trans isRight)⟩
              rw [same]
              unfold advanceSock
              rw [first]
              rfl
        · exact .inr ⟨i, by simp [present], r, isHead, next⟩

/-- Advancing the clock: either nothing is due yet, or everything due lands and
the next due time is that of the earliest head record left. -/
theorem advance_spec
    (counted : net.accounts.Counted)
    (now : Nat) :
    (net.inFlight = 0 ∨ now < net.nextDueAt) ∧
        (net.advance now).2 = false ∧
        (net.advance now).1.accounts = { net.accounts with now := now } ∨
      (0 < net.inFlight ∧ net.nextDueAt ≤ now) ∧
        (net.advance now).2 = true ∧
        ∃ b next, Accounts.Lands now { net.accounts with now := now } b ∧
          (net.advance now).1.accounts = { b with nextDueAt := next } ∧
          (∀ i, ∀ r ∈ (b.socks i).records.head?, now < r.due ∧ next ≤ r.due) ∧
          (next = 2 ^ 64 - 1 ∨
            ∃ i, ∃ r ∈ (b.socks i).records.head?, next = r.due) := by
  by_cases early : net.inFlight = 0 ∨ now < net.nextDueAt
  · left
    have stays : net.advance now = (net.setNow now, false) := by
      unfold advance
      exact if_pos early
    rw [stays]
    exact ⟨early, rfl, rfl⟩
  · right
    obtain ⟨slots, isSlots⟩ : ∃ slots, slots = List.finRange maxSockets :=
      ⟨_, rfl⟩
    obtain ⟨result, done⟩ : ∃ result, slots.foldl (advanceSock now)
        (net.setNow now, 2 ^ 64 - 1) = result := ⟨_, rfl⟩
    have moved : net.advance now = (result.1.setNextDue result.2, true) := by
      unfold advance
      rw [← isSlots]
      dsimp only
      rw [if_neg (show ¬((net.setNow now).inFlight = 0 ∨
        now < (net.setNow now).nextDueAt) from early), done]
    have distinct : slots.Nodup := by
      rw [isSlots]
      exact List.nodup_finRange maxSockets
    have every : ∀ i, i ∈ slots := by
      intro i
      rw [isSlots]
      exact List.mem_finRange i
    have start : (net.setNow now).accounts.Counted :=
      ⟨counted.rings, counted.counted, counted.noUnderflow⟩
    obtain ⟨lands, -, isOver, attained, -⟩ :=
      @foldl_advanceSock_spec now slots distinct _ _ start done
    rw [not_or, not_lt] at early
    rw [moved]
    refine ⟨⟨Nat.pos_of_ne_zero early.1, early.2⟩, rfl, result.1.accounts,
      result.2, lands, rfl, fun i => isOver i (every i), ?_⟩
    rcases attained with last | ⟨i, -, r, isHead, next⟩
    · exact .inl last
    · exact .inr ⟨i, r, isHead, next⟩

/-! ## Slots that are taken anew -/

/-- Dropping the records of a ring drops all of them. -/
theorem discardRecords_spec
    {fuel : Nat}
    {records : List FlightRecord}
    (whole : (net.socks sock).flight.contents =
      flightFormat.encodeAll records)
    (enough : (net.socks sock).flight.len ≤ fuel) :
    ∃ flight, discardRecords fuel net sock =
      (net.setInFlight (net.inFlight - records.length)).modifySock sock
        (.withRings (net.socks sock).rx flight) := by
  have length := congrArg List.length whole
  rw [RingBuffer.length_contents] at length
  induction fuel generalizing net records with
  | zero =>
      have none : records = [] := by
        rw [← flightFormat.encodeAll_eq_nil_iff, ← List.length_eq_zero_iff]
        omega
      subst none
      exact ⟨(net.socks sock).flight, (modifySock_self rfl).symm⟩
  | succ fuel inductionHypothesis =>
      unfold discardRecords
      cases records with
      | nil =>
          rw [if_neg]
          · exact ⟨(net.socks sock).flight, (modifySock_self rfl).symm⟩
          · rw [length]
            decide
      | cons r rest =>
          rw [RecordFormat.encodeAll_cons] at whole length
          change (net.socks sock).flight.contents = r.encode ++ _ at whole
          change _ = (r.encode ++ _).length at length
          rw [List.length_append, FlightRecord.length_encode] at length
          obtain ⟨front, -⟩ :=
            r.headers_of_encode (flightFormat.encodeAll rest)
          have header : net.flightPeek sock 0 flightHeaderLen =
              flightHeader r.due r.kind r.payload.length := by
            unfold flightPeek
            rw [RingBuffer.peek_zero _ (by omega), whole, front]
          have all : min (flightHeaderLen + r.payload.length)
              (net.socks sock).flight.len =
              flightHeaderLen + r.payload.length := by omega
          rw [if_pos (by omega), header]
          dsimp only
          rw [headerLen_flightHeader r.due r.kind r.payload_lt, all]
          unfold flightSkip
          rw [noteSub_of_le net (by omega)]
          have skipped := RingBuffer.contents_skip (net.socks sock).flight
            (show flightHeaderLen + r.payload.length ≤ _ by omega)
          rw [whole, List.drop_left' (by simp)] at skipped
          have positive : 0 < flightHeaderLen := by decide
          obtain ⟨flight, done⟩ := @inductionHypothesis
            ((net.modifySock sock (.skipFlight
              (flightHeaderLen + r.payload.length))).setInFlight
                (net.inFlight - 1)) rest
            (by
              rw [setInFlight_socks, modifySock_socks_self]
              exact skipped)
            (by
              rw [setInFlight_socks, modifySock_socks_self]
              simp only [Sock.skipFlight, RingBuffer.len_skip]
              omega)
            (by
              rw [setInFlight_socks, modifySock_socks_self]
              simp only [Sock.skipFlight, RingBuffer.len_skip]
              omega)
          refine ⟨flight, ?_⟩
          have inFlight : (net.modifySock sock (.skipFlight
            (flightHeaderLen + r.payload.length))).inFlight = net.inFlight := rfl
          rw [inFlight, done, setInFlight_socks, modifySock_socks_self]
          have fewer : (net.setInFlight (net.inFlight - 1)).inFlight -
              rest.length = net.inFlight - (rest.length + 1) := by
            change net.inFlight - 1 - rest.length = _
            omega
          have merged : ∀ n, (((net.modifySock sock (.skipFlight
              (flightHeaderLen + r.payload.length))).setInFlight
                (net.inFlight - 1)).setInFlight n).modifySock sock
                  (.withRings (net.socks sock).rx flight) =
              (net.setInFlight n).modifySock sock
                (.withRings (net.socks sock).rx flight) := by
            intro n
            exact (modifySock_modifySock (net.setInFlight n) sock _ _).trans
              (modifySock_congr rfl)
          rw [List.length_cons, ← fewer]
          exact merged _

/-- A slot without anything in flight. -/
theorem discardFlight_spec
    (ok : (net.socks sock).traffic.Ok) :
    ∃ t', t'.kind = (net.socks sock).kind ∧ t'.flight.len = 0 ∧
      t'.flStream = 0 ∧ t'.rx = (net.socks sock).rx ∧
      t'.fin = (net.socks sock).fin ∧
      (net.discardFlight sock).accounts = { net.accounts.put sock t' with
        inFlight := net.inFlight -
          (net.socks sock).traffic.records.length } := by
  obtain ⟨flight, done⟩ := discardRecords_spec ok.whole (le_refl _)
  unfold discardFlight
  dsimp only
  rw [done, modifySock_modifySock, accounts_put]
  exact ⟨_, rfl, rfl, rfl, rfl, rfl, rfl⟩

end Net

end Derp
