import Derp.Net.Views

/-!
# What the rings of a socket hold

The abstract content of a socket's rings: the bytes that arrived, and the
records in flight with the stream bytes they carry.  A delivery refuses its
payload, puts it into the receive ring at once, or appends one record.
-/

namespace Derp

/-- The stream bytes that records carry. -/
def streamOf (records : List FlightRecord) : List UInt8 :=
  (records.filter fun r => r.kind = .bytes).flatMap FlightRecord.payload

@[simp] theorem streamOf_nil : streamOf [] = [] := rfl

@[simp] theorem streamOf_append (first second : List FlightRecord) :
    streamOf (first ++ second) = streamOf first ++ streamOf second := by
  simp [streamOf]

theorem streamOf_cons (record : FlightRecord) (records : List FlightRecord) :
    streamOf (record :: records) =
      (if record.kind = .bytes then record.payload else []) ++
        streamOf records := by
  unfold streamOf
  by_cases isBytes : record.kind = .bytes <;> simp [isBytes]

namespace Traffic

/-- The records in flight, oldest first. -/
def records (t : Traffic) : List FlightRecord :=
  (flightFormat.parse t.flight.contents).getD []

/-- Records are what the flight ring's contents spell. -/
theorem records_eq
    {t : Traffic}
    {records : List FlightRecord}
    (spelled : t.flight.contents = flightFormat.encodeAll records) :
    t.records = records := by
  unfold Traffic.records
  rw [spelled, RecordFormat.parse_encodeAll]
  rfl

/-- No FIN has arrived or is on its way. -/
def Quiet (t : Traffic) : Prop :=
  t.fin = false ∧ ∀ r ∈ t.records, r.kind ≠ .fin

/-- The bytes that arrived and were not read, then those in flight. -/
def pipe (t : Traffic) : List UInt8 :=
  t.rx.contents ++ streamOf t.records

/-- The bytes of a stream are where they were, or further along. -/
structure SamePipe (t t' : Traffic) : Prop where
  kind : t'.kind = t.kind
  pipe : t.kind ≠ .dgram → t'.pipe = t.pipe

theorem SamePipe.refl (t : Traffic) : SamePipe t t :=
  ⟨rfl, fun _ => rfl⟩

theorem SamePipe.trans
    {t middle t' : Traffic}
    (first : SamePipe t middle)
    (second : SamePipe middle t') : SamePipe t t' := by
  refine ⟨second.kind.trans first.kind, ?_⟩
  intro isStream
  rw [second.pipe (by rwa [first.kind]), first.pipe isStream]

/-- The rings of a socket are in order. -/
structure Ok (t : Traffic) : Prop where
  whole : t.flight.contents = flightFormat.encodeAll t.records
  flight_le : t.flight.len ≤ ringSize
  stream_eq : t.flStream = (streamOf t.records).length
  window_le : t.rx.len + t.flStream ≤ ringSize
  room : (∀ r ∈ t.records, r.kind ≠ .fin) →
    t.flight.len + flightHeaderLen ≤ ringSize
  lastFin : ∀ r ∈ t.records.dropLast, r.kind ≠ .fin
  finPayload : ∀ r ∈ t.records, r.kind = .fin → r.payload = []
  finEmpty : t.fin = true → t.records = []
  finsSent : t.fins = t.fin.toNat +
    (t.records.filter fun r => r.kind = .fin).length
  datagrams : t.kind = .dgram →
    (∀ r ∈ t.records, r.kind = .dgram ∧ ∃ g : Datagram, r.payload = g.encode) ∧
      ∃ gs, t.rx.contents = encodeDatagrams gs
  datagramFin : t.kind = .dgram → t.fin = false
  streams : t.kind ≠ .dgram → ∀ r ∈ t.records, r.kind ≠ .dgram

theorem Ok.rx_le {t : Traffic} (ok : t.Ok) : t.rx.len ≤ ringSize := by
  have := ok.window_le
  omega

/-- A FIN was sent exactly if one has arrived or is on its way. -/
theorem Ok.fins_eq_zero_iff
    {t : Traffic}
    (ok : t.Ok) : t.fins = 0 ↔ t.Quiet := by
  unfold Quiet
  rw [ok.finsSent, Nat.add_eq_zero_iff, List.length_eq_zero_iff,
    List.filter_eq_nil_iff]
  simp

/-- At most one FIN is sent. -/
theorem Ok.fins_le {t : Traffic} (ok : t.Ok) : t.fins ≤ 1 := by
  rw [ok.finsSent]
  cases seen : t.fin with
  | true => simp [ok.finEmpty seen]
  | false =>
      have last := ok.lastFin
      rcases List.eq_nil_or_concat t.records with none | ⟨before, r, some⟩
      · simp [none]
      · rw [List.concat_eq_append] at some
        rw [some, List.dropLast_concat] at last
        have noneBefore : before.filter (fun r => r.kind = .fin) = [] := by
          rw [List.filter_eq_nil_iff]
          simpa using last
        rw [some, List.filter_append, noneBefore, List.nil_append,
          List.filter_singleton]
        by_cases isFin : r.kind = .fin <;> simp [isFin]

/-- There are records exactly while the flight ring is not empty. -/
theorem Ok.records_eq_nil_iff
    {t : Traffic}
    (ok : t.Ok) : t.records = [] ↔ t.flight.len = 0 := by
  rw [← RingBuffer.contents_eq_nil_iff, ok.whole,
    RecordFormat.encodeAll_eq_nil_iff]

/-- An empty flight ring is in order. -/
theorem records_of_empty
    {t : Traffic}
    (isEmpty : t.flight.len = 0) : t.records = [] :=
  records_eq (by rw [RingBuffer.contents_of_len_eq_zero isEmpty]; rfl)

end Traffic

namespace Payload

/-- The kind of the record that carries a payload. -/
def kind : Payload → FlightKind
  | .bytes _ => .bytes
  | .datagram _ _ => .dgram
  | .fin => .fin

/-- The bytes of a payload in a ring, `taken` of them for a stream. -/
def symbols : Payload → Nat → List UInt8
  | .bytes data, taken => data.take taken
  | .datagram source data, _ =>
      dgramHeader source data.length ++ (source.path ++ data)
  | .fin, _ => []

/-- Whether a payload may be sent to a socket. -/
def Deliverable (payload : Payload) (t : Traffic) : Prop :=
  match payload with
  | .datagram _ _ => t.kind = .dgram
  | _ => t.kind ≠ .dgram ∧ t.Quiet

end Payload

/-- What a delivery does to the traffic at its destination. -/
inductive Delivered (due : Nat) (payload : Payload) :
    Traffic → Traffic → Nat → Prop
  | refused {t : Traffic} : payload ≠ .fin → Delivered due payload t t 0
  | arrived {t t' : Traffic} {taken : Nat} :
      t.flight.len = 0 →
      t'.kind = t.kind → t'.flight = t.flight → t'.flStream = t.flStream →
      t'.fin = (t.fin || payload.kind = .fin) →
      t'.fins = t.fins + (if payload.kind = .fin then 1 else 0) →
      t'.rx.contents = t.rx.contents ++ payload.symbols taken →
      t'.rx.len ≤ ringSize →
      Delivered due payload t t' taken
  | launched {t t' : Traffic} {taken : Nat} (r : FlightRecord) :
      r.due = due → r.kind = payload.kind →
      r.payload = payload.symbols taken →
      t'.kind = t.kind → t'.fin = t.fin → t'.rx = t.rx →
      t'.flight.contents = t.flight.contents ++ r.encode →
      t'.flStream = t.flStream +
        (if payload.kind = .bytes then r.payload.length else 0) →
      t'.fins = t.fins + (if payload.kind = .fin then 1 else 0) →
      t'.flight.len ≤ ringSize →
      (payload ≠ .fin → t'.flight.len + flightHeaderLen ≤ ringSize) →
      t'.rx.len + t'.flStream ≤ ringSize →
      Delivered due payload t t' taken

namespace Delivered

variable
  {due : Nat}
  {payload : Payload}
  {t t' : Traffic}
  {taken : Nat}

theorem kind (delivered : Delivered due payload t t' taken) :
    t'.kind = t.kind := by
  cases delivered with
  | refused => rfl
  | arrived _ kind => exact kind
  | launched _ _ _ _ kind => exact kind

/-- The records after a launch. -/
theorem records_launched
    (ok : t.Ok)
    {r : FlightRecord}
    (contents : t'.flight.contents = t.flight.contents ++ r.encode) :
    t'.records = t.records ++ [r] := by
  apply Traffic.records_eq
  rw [contents, ok.whole, RecordFormat.encodeAll_append]
  simp [flightFormat]

/-- A delivery appends at most one record, its own. -/
theorem records
    (ok : t.Ok)
    (delivered : Delivered due payload t t' taken) :
    t'.records = t.records ∨
      ∃ r, r.due = due ∧ r.kind = payload.kind ∧
        t'.records = t.records ++ [r] := by
  cases delivered with
  | refused => exact .inl rfl
  | arrived _ _ flight =>
      left
      unfold Traffic.records
      rw [flight]
  | launched r due kind _ _ _ _ contents =>
      exact .inr ⟨r, due, kind, records_launched ok contents⟩

/-- A delivery keeps the rings in order. -/
theorem ok
    (ok : t.Ok)
    (may : payload.Deliverable t)
    (delivered : Delivered due payload t t' taken) : t'.Ok := by
  cases delivered with
  | refused => exact ok
  | arrived empty kind flight flStream fin fins contents rx_le =>
      have none : t.records = [] := ok.records_eq_nil_iff.mpr empty
      have same : t'.records = t.records := by
        unfold Traffic.records
        rw [flight]
      constructor
      case whole => rw [same, flight]; exact ok.whole
      case flight_le => rw [flight]; exact ok.flight_le
      case stream_eq => rw [flStream, same]; exact ok.stream_eq
      case window_le =>
        have zero : t'.flStream = 0 := by
          rw [flStream, ok.stream_eq, none]
          rfl
        omega
      case room => rw [same, flight]; exact ok.room
      case lastFin => rw [same]; exact ok.lastFin
      case finPayload => rw [same]; exact ok.finPayload
      case finEmpty =>
        intro _
        rw [same, none]
      case finsSent =>
        rw [fins, fin, same, none, ok.finsSent, none]
        cases payload with
        | fin => simp [may.2.1, Payload.kind]
        | bytes data => simp [Payload.kind]
        | datagram source data => simp [Payload.kind]
      case datagrams =>
        intro isDgram
        rw [same, contents]
        rw [kind] at isDgram
        obtain ⟨records, gs, rx⟩ := ok.datagrams isDgram
        refine ⟨records, ?_⟩
        cases payload with
        | datagram source data =>
            have short : data.length < 2 ^ 32 := by
              have length := congrArg List.length contents
              simp only [Payload.symbols, RingBuffer.length_contents,
                List.length_append] at length
              have bound : ringSize < 2 ^ 32 := by decide
              omega
            refine ⟨gs ++ [⟨source, data, short⟩], ?_⟩
            rw [rx, encodeDatagrams_append]
            simp [encodeDatagrams, Datagram.encode, Payload.symbols]
        | bytes data => exact absurd isDgram may.1
        | fin => exact absurd isDgram may.1
      case datagramFin =>
        intro isDgram
        rw [kind] at isDgram
        rw [fin, ok.datagramFin isDgram]
        cases payload with
        | datagram source data => simp [Payload.kind]
        | bytes data => exact absurd isDgram may.1
        | fin => exact absurd isDgram may.1
      case streams => rw [same, kind]; exact ok.streams
  | launched r due rKind rPayload kind fin rx contents flStream fins flight_le
      room window_le =>
      have appended := records_launched ok contents
      constructor
      case whole =>
        rw [appended, contents, ok.whole, RecordFormat.encodeAll_append]
        simp [flightFormat]
      case flight_le => exact flight_le
      case stream_eq =>
        rw [flStream, appended, ok.stream_eq, streamOf_append, streamOf_cons,
          rKind]
        by_cases isBytes : payload.kind = .bytes <;> simp [isBytes]
      case window_le => exact window_le
      case room =>
        intro noFin
        apply room
        rintro rfl
        exact noFin r (by rw [appended]; simp) rKind
      case lastFin =>
        rw [appended, List.dropLast_concat]
        cases payload with
        | datagram source data =>
            intro other present
            have := ((ok.datagrams may).1 other present).1
            rw [this]
            decide
        | bytes data => exact may.2.2
        | fin => exact may.2.2
      case finPayload =>
        rw [appended]
        intro other present isFin
        rcases List.mem_append.mp present with old | new
        · exact ok.finPayload other old isFin
        · rw [List.mem_singleton] at new
          subst new
          rw [rPayload]
          rw [rKind] at isFin
          cases payload with
          | datagram source data => cases isFin
          | bytes data => cases isFin
          | fin => rfl
      case finEmpty =>
        intro isFin
        rw [fin] at isFin
        cases payload with
        | datagram source data =>
            rw [ok.datagramFin may] at isFin
            cases isFin
        | bytes data => rw [may.2.1] at isFin; cases isFin
        | fin => rw [may.2.1] at isFin; cases isFin
      case finsSent =>
        rw [fins, fin, appended, ok.finsSent, List.filter_append,
          List.length_append, Nat.add_assoc, List.filter_singleton, rKind]
        by_cases isFin : payload.kind = .fin <;> simp [isFin]
      case datagrams =>
        intro isDgram
        rw [appended, rx]
        rw [kind] at isDgram
        obtain ⟨records, received⟩ := ok.datagrams isDgram
        refine ⟨?_, received⟩
        intro other present
        rcases List.mem_append.mp present with old | new
        · exact records other old
        · rw [List.mem_singleton] at new
          subst new
          cases payload with
          | datagram source data =>
              have short : data.length < 2 ^ 32 := by
                have length := congrArg List.length rPayload
                have bound := other.payload_lt
                simp only [Payload.symbols, List.length_append] at length
                omega
              exact ⟨rKind, ⟨source, data, short⟩, rPayload⟩
          | bytes data => exact absurd isDgram may.1
          | fin => exact absurd isDgram may.1
      case datagramFin =>
        intro isDgram
        rw [kind] at isDgram
        rw [fin]
        exact ok.datagramFin isDgram
      case streams =>
        intro isStream
        rw [kind] at isStream
        rw [appended]
        intro other present
        rcases List.mem_append.mp present with old | new
        · exact ok.streams isStream other old
        · rw [List.mem_singleton] at new
          subst new
          rw [rKind]
          cases payload with
          | datagram source data => exact absurd may isStream
          | bytes data => simp [Payload.kind]
          | fin => simp [Payload.kind]

/-- Stream bytes that are taken join the end of the pipe. -/
theorem pipe
    (ok : t.Ok)
    (delivered : Delivered due payload t t' taken)
    (isStream : payload.kind ≠ .dgram) :
    t'.pipe = t.pipe ++ payload.symbols taken ∨ taken = 0 ∧ t'.pipe = t.pipe := by
  cases delivered with
  | refused => exact .inr ⟨rfl, rfl⟩
  | arrived empty kind flight flStream fin fins contents rx_le =>
      left
      have none : t.records = [] := ok.records_eq_nil_iff.mpr empty
      have same : t'.records = t.records := by
        unfold Traffic.records
        rw [flight]
      unfold Traffic.pipe
      rw [same, none, contents]
      simp
  | launched r due rKind rPayload kind fin rx contents flStream fins flight_le
      room window_le =>
      left
      have appended := records_launched ok contents
      unfold Traffic.pipe
      rw [appended, rx, streamOf_append, streamOf_cons, rKind, rPayload]
      cases payload with
      | datagram source data => exact absurd rfl isStream
      | bytes data => simp [Payload.kind]
      | fin => simp [Payload.kind, Payload.symbols]

/-- A FIN is no byte of the stream it ends. -/
theorem samePipe
    (ok : t.Ok)
    (delivered : Delivered due .fin t t' taken) : t.SamePipe t' := by
  refine ⟨delivered.kind, ?_⟩
  intro _
  rcases delivered.pipe ok (by decide) with appended | ⟨-, same⟩
  · rw [appended, Payload.symbols, List.append_nil]
  · exact same

/-- Only a FIN ends the quiet. -/
theorem quiet
    (ok : t.Ok)
    (delivered : Delivered due payload t t' taken)
    (notFin : payload.kind ≠ .fin)
    (quiet : t.Quiet) : t'.Quiet := by
  cases delivered with
  | refused => exact quiet
  | arrived empty kind flight flStream fin fins contents rx_le =>
      have same : t'.records = t.records := by
        unfold Traffic.records
        rw [flight]
      refine ⟨?_, ?_⟩
      · rw [fin, quiet.1]
        simp [notFin]
      · rw [same]
        exact quiet.2
  | launched r due rKind rPayload kind fin rx contents flStream fins flight_le
      room window_le =>
      refine ⟨fin.trans quiet.1, ?_⟩
      rw [records_launched ok contents]
      intro other present
      rcases List.mem_append.mp present with old | new
      · exact quiet.2 other old
      · rw [List.mem_singleton] at new
        subst new
        rw [rKind]
        exact notFin

end Delivered

/-! ## The delivery functions -/

namespace Net

variable {net : Net} {dst : SockId}

/-- The accounts with the traffic of one socket replaced. -/
def Accounts.put (a : Accounts) (dst : SockId) (t : Traffic) : Accounts :=
  { a with socks := Function.update a.socks dst t }

theorem Accounts.put_put (a : Accounts) (dst : SockId) (t t' : Traffic) :
    (a.put dst t).put dst t' = a.put dst t' := by
  unfold Accounts.put
  rw [Function.update_idem]

/-- Replacing the traffic of a socket by itself. -/
theorem Accounts.put_self (a : Accounts) (dst : SockId) :
    a.put dst (a.socks dst) = a := by
  unfold Accounts.put
  rw [Function.update_eq_self]

theorem accounts_put
    (net : Net)
    (dst : SockId)
    (change : Sock → Sock) :
    (net.modifySock dst change).accounts =
      net.accounts.put dst (change (net.socks dst)).traffic := by
  unfold accounts modifySock Accounts.put
  congr 1
  funext i
  by_cases same : i = dst
  · subst same
    simp only [Function.update_self]
  · simp only [Function.update_of_ne same]

/-- What a delivery does to the accounts. -/
inductive Accounts.Deliver (dst : SockId) (delay : Nat) (payload : Payload) :
    Accounts → Accounts → Nat → Prop
  | kept {a : Accounts} {t' : Traffic} {taken : Nat} {overflow : Bool} :
      Delivered (wrappingAdd a.now delay) payload (a.socks dst) t' taken →
      t'.records = (a.socks dst).records →
      (a.overflow = true → overflow = true) →
      Accounts.Deliver dst delay payload a
        { a.put dst t' with overflow := overflow } taken
  | launched {a : Accounts} {t' : Traffic} {taken : Nat} {r : FlightRecord} :
      Delivered (wrappingAdd a.now delay) payload (a.socks dst) t' taken →
      r.due = wrappingAdd a.now delay →
      t'.records = (a.socks dst).records ++ [r] →
      Accounts.Deliver dst delay payload a
        { a.put dst t' with
          inFlight := a.inFlight + 1
          nextDueAt :=
            if a.inFlight + 1 = 1 then r.due else min a.nextDueAt r.due
          overflow := a.overflow || addOverflows a.now delay } taken

/-- Counting and noting in-bounds subtractions keeps the accounts. -/
@[simp] theorem accounts_countBytes (net : Net) (n : Nat) :
    (net.countBytes n).accounts = net.accounts := rfl

@[simp] theorem accounts_countDropped (net : Net) :
    net.countDropped.accounts = net.accounts := rfl

@[simp] theorem accounts_countDatagram (net : Net) :
    net.countDatagram.accounts = net.accounts := rfl

@[simp] theorem accounts_readEvent (net : Net) (sock : SockId) :
    (net.modifySock sock .readEvent).accounts = net.accounts :=
  accounts_modifySock (by intro; rfl) net sock

theorem modifySock_modifySock
    (net : Net)
    (sock : SockId)
    (first second : Sock → Sock) :
    (net.modifySock sock first).modifySock sock second =
      net.modifySock sock fun d => second (first d) := by
  simp only [modifySock, Function.update_self, Function.update_idem]

theorem ringPush_ringPush
    (net : Net)
    (sock : SockId)
    (first second : List UInt8) :
    (net.ringPush sock first).ringPush sock second =
      net.ringPush sock (first ++ second) := by
  unfold ringPush
  rw [modifySock_modifySock]
  congr 1
  funext d
  simp only [Sock.pushRx, RingBuffer.push_push]

theorem flightPush_flightPush
    (net : Net)
    (sock : SockId)
    (first second : List UInt8) :
    (net.flightPush sock first).flightPush sock second =
      net.flightPush sock (first ++ second) := by
  unfold flightPush
  rw [modifySock_modifySock]
  congr 1
  funext d
  simp only [Sock.pushFlight, RingBuffer.push_push]

theorem foldl_flightPush
    (sock : SockId)
    (parts : List (List UInt8))
    (net : Net)
    (first : List UInt8) :
    parts.foldl (fun net part => net.flightPush sock part)
        (net.flightPush sock first) =
      net.flightPush sock (first ++ parts.flatten) := by
  induction parts generalizing first with
  | nil => simp
  | cons part parts inductionHypothesis =>
      rw [List.foldl_cons, flightPush_flightPush, inductionHypothesis,
        List.flatten_cons, List.append_assoc]

/-- What arrives at once. -/
theorem arrive_spec
    (ok : (net.socks dst).traffic.Ok)
    (empty : (net.socks dst).flight.len = 0)
    (delay : Nat)
    (payload : Payload) :
    Accounts.Deliver dst delay payload net.accounts
      (net.arrive dst payload).1.accounts (net.arrive dst payload).2 := by
  have rx_le : (net.socks dst).rx.len ≤ ringSize := ok.rx_le
  have seen : (net.modifySock dst .readEvent).socks dst =
      (net.socks dst).readEvent := modifySock_socks_self _ _ _
  have noted : (net.modifySock dst .readEvent).noteSub ringSize
      ((net.modifySock dst .readEvent).socks dst).rx.len =
        net.modifySock dst .readEvent := by
    rw [seen]
    exact noteSub_of_le _ rx_le
  have put : ∀ {later : Accounts} {t' : Traffic} {taken : Nat},
      later = net.accounts.put dst t' →
      Delivered (wrappingAdd net.now delay) payload (net.socks dst).traffic t'
        taken →
      t'.records = (net.socks dst).traffic.records →
      Accounts.Deliver dst delay payload net.accounts later taken := by
    intro later t' taken same delivered records
    rw [same]
    exact @Accounts.Deliver.kept dst delay payload net.accounts t' taken
      net.accounts.overflow delivered records id
  unfold arrive
  dsimp only
  rw [noted]
  cases payload with
  | fin =>
      dsimp only
      refine @put _ (net.socks dst).readEvent.setFin.countFin.traffic _ ?_ ?_
        rfl
      · rw [modifySock_modifySock, accounts_put, seen, accounts_readEvent]
      · refine .arrived empty rfl rfl rfl ?_ rfl ?_ rx_le
        · simp [Payload.kind, Sock.setFin, Sock.countFin, Sock.traffic]
        · simp [Payload.symbols, Sock.setFin, Sock.countFin, Sock.readEvent,
            Sock.traffic]
  | bytes data =>
      dsimp only
      have fits : (net.socks dst).rx.len +
          (data.take (min data.length
            (ringSize - (net.socks dst).rx.len))).length ≤ ringSize := by
        simp only [List.length_take]
        omega
      rw [accounts_countBytes]
      unfold ringPush
      rw [accounts_put, seen, accounts_readEvent]
      refine put rfl ?_ rfl
      refine .arrived empty rfl rfl rfl ?_ rfl ?_ ?_
      · simp [Payload.kind, Sock.pushRx, Sock.readEvent, Sock.traffic]
      · exact RingBuffer.contents_push _ _ fits
      · exact fits
  | datagram source data =>
      dsimp only
      split
      · refine @put _ (net.socks dst).traffic _ ?_ (.refused (by simp)) rfl
        rw [accounts_readEvent]
        exact (Accounts.put_self net.accounts dst).symm
      · next fits =>
          rw [not_lt, seen] at fits
          have length : (net.socks dst).rx.len +
              (dgramHeader source data.length ++
                (source.path ++ data)).length ≤ ringSize := by
            change _ ≤ ringSize - (net.socks dst).rx.len at fits
            simp only [List.length_append, length_dgramHeader]
            omega
          rw [accounts_countBytes, ringPush_ringPush, ringPush_ringPush]
          unfold ringPush
          rw [accounts_put, seen, accounts_readEvent]
          refine put rfl ?_ rfl
          refine .arrived empty rfl rfl rfl ?_ rfl ?_ ?_
          · simp [Payload.kind, Sock.pushRx, Sock.readEvent, Sock.traffic]
          · exact RingBuffer.contents_push _ _ length
          · exact length

/-- A record that fits is appended and accounted for. -/
theorem launchRecord_accounts
    (net : Net)
    (dst : SockId)
    (due : Nat)
    (kind : FlightKind)
    (parts : List (List UInt8)) :
    (net.launchRecord dst due kind parts).accounts =
      { net.accounts.put dst
          { (net.socks dst).traffic with
            flight := (net.socks dst).flight.push
              (flightHeader due kind parts.flatten.length ++ parts.flatten)
            flStream := (net.socks dst).flStream +
              (if kind = .bytes then parts.flatten.length else 0)
            fins := (net.socks dst).fins + if kind = .fin then 1 else 0 } with
        inFlight := net.inFlight + 1
        nextDueAt :=
          if net.inFlight + 1 = 1 then due else min net.nextDueAt due } := by
  have length : (parts.map List.length).sum = parts.flatten.length :=
    List.length_flatten.symm
  have counted : ∀ changed : Net, ∀ t : Traffic,
      changed.accounts = net.accounts.put dst t →
      ((changed.setInFlight (changed.inFlight + 1)).setNextDue
        (if (changed.setInFlight (changed.inFlight + 1)).inFlight = 1 then due
          else min (changed.setInFlight (changed.inFlight + 1)).nextDueAt
            due)).accounts =
        { net.accounts.put dst t with
          inFlight := net.inFlight + 1
          nextDueAt :=
            if net.inFlight + 1 = 1 then due else min net.nextDueAt due } := by
    intro changed t same
    have inFlight : changed.inFlight = net.inFlight :=
      congrArg Accounts.inFlight same
    have nextDueAt : changed.nextDueAt = net.nextDueAt :=
      congrArg Accounts.nextDueAt same
    rw [← same, ← inFlight, ← nextDueAt]
    rfl
  unfold launchRecord
  dsimp only
  rw [length, foldl_flightPush]
  apply counted
  unfold flightPush
  cases kind with
  | bytes =>
      simp only [reduceIte, reduceCtorEq]
      rw [modifySock_modifySock, accounts_put]
      rfl
  | dgram =>
      simp only [reduceIte, reduceCtorEq]
      rw [accounts_put]
      rfl
  | fin =>
      simp only [reduceIte, reduceCtorEq]
      rw [modifySock_modifySock, accounts_put]
      rfl

/-- What is put in flight. -/
theorem launch_spec
    (ok : (net.socks dst).traffic.Ok)
    {payload : Payload}
    (may : payload.Deliverable (net.socks dst).traffic)
    (delay : Nat) :
    Accounts.Deliver dst delay payload net.accounts
      ((net.noteAdd net.now delay).launch dst (wrappingAdd net.now delay)
        payload).1.accounts
      ((net.noteAdd net.now delay).launch dst (wrappingAdd net.now delay)
        payload).2 := by
  have flight_le : (net.socks dst).flight.len ≤ ringSize := ok.flight_le
  have window_le : (net.socks dst).rx.len + (net.socks dst).flStream ≤
      ringSize := ok.window_le
  have noted : (net.noteAdd net.now delay).noteSub ringSize
      (net.socks dst).flight.len = net.noteAdd net.now delay :=
    noteSub_of_le _ flight_le
  have windowNoted : (net.noteAdd net.now delay).noteSub ringSize
      ((net.socks dst).rx.len + (net.socks dst).flStream) =
        net.noteAdd net.now delay := noteSub_of_le _ window_le
  have refused : payload ≠ .fin →
      Accounts.Deliver dst delay payload net.accounts
        (net.noteAdd net.now delay).accounts 0 := by
    intro notFin
    have kept := @Accounts.Deliver.kept dst delay payload net.accounts _ _
      (net.overflow || addOverflows net.now delay) (.refused notFin) rfl
      (by intro before; simp [show net.overflow = true from before])
    rw [Accounts.put_self] at kept
    exact kept
  -- A record that fits leaves room for a FIN, unless it is one.
  have launched : ∀ (parts : List (List UInt8)) (taken : Nat),
      parts.flatten = payload.symbols taken →
      (payload.kind = .bytes → (net.socks dst).rx.len +
        ((net.socks dst).flStream + parts.flatten.length) ≤ ringSize) →
      (net.socks dst).flight.len + flightHeaderLen + parts.flatten.length ≤
        ringSize →
      (payload ≠ .fin → (net.socks dst).flight.len + flightHeaderLen +
        parts.flatten.length + flightHeaderLen ≤ ringSize) →
      Accounts.Deliver dst delay payload net.accounts
        ((net.noteAdd net.now delay).launchRecord dst
          (wrappingAdd net.now delay) payload.kind parts).accounts taken := by
    intro parts taken symbols inWindow fits room
    rw [launchRecord_accounts]
    have small : parts.flatten.length < 2 ^ 32 := by
      have bound : ringSize < 2 ^ 32 := by decide
      omega
    have spelled : flightHeader (wrappingAdd net.now delay) payload.kind
        parts.flatten.length ++ parts.flatten =
        FlightRecord.encode ⟨wrappingAdd net.now delay, payload.kind,
          parts.flatten, wrappingAdd_lt net.now delay, small⟩ := rfl
    have long : (net.socks dst).flight.len +
        (FlightRecord.encode ⟨wrappingAdd net.now delay, payload.kind,
          parts.flatten, wrappingAdd_lt net.now delay, small⟩).length ≤
        ringSize := by
      rw [FlightRecord.length_encode]
      change _ + (_ + parts.flatten.length) ≤ _
      omega
    have contents := RingBuffer.contents_push (net.socks dst).flight _ long
    have delivered : Delivered (wrappingAdd net.now delay) payload
        (net.socks dst).traffic
        { (net.socks dst).traffic with
          flight := (net.socks dst).flight.push
            (flightHeader (wrappingAdd net.now delay) payload.kind
              parts.flatten.length ++ parts.flatten)
          flStream := (net.socks dst).flStream +
            (if payload.kind = .bytes then parts.flatten.length else 0)
          fins := (net.socks dst).fins +
            if payload.kind = .fin then 1 else 0 }
        taken := by
      refine .launched ⟨wrappingAdd net.now delay, payload.kind,
        parts.flatten, wrappingAdd_lt net.now delay, small⟩ rfl rfl symbols rfl
        rfl rfl contents rfl rfl ?_ ?_ ?_
      · exact long
      · intro notFin
        have := room notFin
        change (net.socks dst).flight.len + _ + flightHeaderLen ≤ ringSize
        simp only [List.length_append, length_flightHeader]
        omega
      · change (net.socks dst).rx.len + ((net.socks dst).flStream +
          if payload.kind = .bytes then parts.flatten.length else 0) ≤ ringSize
        split
        · next isBytes => exact inWindow isBytes
        · exact window_le
    exact @Accounts.Deliver.launched dst delay payload net.accounts _ taken
      ⟨wrappingAdd net.now delay, payload.kind, parts.flatten,
        wrappingAdd_lt net.now delay, small⟩ delivered rfl
      (Delivered.records_launched ok contents)
  unfold launch
  dsimp only
  rw [noteAdd_socks, noted, noteAdd_socks]
  cases payload with
  | fin =>
      have room : (net.socks dst).flight.len + flightHeaderLen ≤ ringSize :=
        ok.room may.2.2
      exact launched [] 0 rfl (by simp [Payload.kind]) (by simpa using room)
        (by simp)
  | bytes data =>
      dsimp only
      rw [windowNoted]
      have inWindow : (net.noteAdd net.now delay).window dst ≤
          ringSize - (net.socks dst).rx.len - (net.socks dst).flStream := by
        unfold window
        dsimp only
        rw [noteAdd_socks]
        split
        · exact le_rfl
        · exact min_le_left _ _
      generalize (net.noteAdd net.now delay).window dst = window at *
      split
      · exact refused (by simp)
      · next positive =>
          have length : (data.take (min (min data.length window)
              (ringSize - (net.socks dst).flight.len -
                2 * flightHeaderLen))).length =
              min (min data.length window)
                (ringSize - (net.socks dst).flight.len -
                  2 * flightHeaderLen) := by
            rw [List.length_take]
            omega
          apply launched [_]
          · simp [Payload.symbols]
          · intro _
            rw [List.flatten_singleton, length]
            omega
          · rw [List.flatten_singleton, length]
            omega
          · intro _
            rw [List.flatten_singleton, length]
            omega
  | datagram source data =>
      dsimp only
      split
      · exact refused (by simp)
      · next fits =>
          rw [not_lt] at fits
          have length : ([dgramHeader source data.length, source.path,
              data] : List (List UInt8)).flatten.length =
              dgramHeaderLen + source.path.length + data.length := by
            simp
            omega
          apply launched
          · simp [Payload.symbols]
          · simp [Payload.kind]
          · rw [length]
            have header : 0 < dgramHeaderLen := by decide
            omega
          · intro _
            rw [length]
            have header : 0 < dgramHeaderLen := by decide
            omega

/-- The single entry point for traffic. -/
theorem deliver_spec
    (ok : (net.socks dst).traffic.Ok)
    {payload : Payload}
    (may : payload.Deliverable (net.socks dst).traffic)
    (srcHost : Nat) :
    Accounts.Deliver dst (net.delay srcHost dst) payload net.accounts
      (net.deliver srcHost dst payload).1.accounts
      (net.deliver srcHost dst payload).2 := by
  unfold deliver
  dsimp only
  split
  · next immediate => exact arrive_spec ok immediate.2 _ payload
  · exact launch_spec ok may _

end Net

end Derp
