import Derp.Net.Landing
import Derp.Net.Slots

/-!
# Every byte and every record is accounted for

The counters of the rings agree with what the rings hold, over every run.  Who
may still send a FIN sends to a socket that has neither seen nor been sent
one, so that the room kept for one header is always enough.
-/

namespace Derp

/-- Traffic with nothing in it. -/
structure Traffic.Empty (t : Traffic) : Prop where
  rx : t.rx.len = 0
  flight : t.flight.len = 0
  flStream : t.flStream = 0
  fin : t.fin = false
  fins : t.fins = 0

theorem Traffic.Empty.records {t : Traffic} (empty : t.Empty) :
    t.records = [] :=
  Traffic.records_of_empty empty.flight

theorem Traffic.Empty.quiet {t : Traffic} (empty : t.Empty) : t.Quiet := by
  refine ⟨empty.fin, ?_⟩
  rw [empty.records]
  simp

/-- Emptied rings are in order. -/
theorem Traffic.Empty.ok {t : Traffic} (empty : t.Empty) : t.Ok := by
  have records := empty.records
  have stream := empty.flStream
  have flight := empty.flight
  have rx := empty.rx
  constructor
  case whole =>
    rw [records, RingBuffer.contents_of_len_eq_zero flight]
    rfl
  case flight_le => omega
  case stream_eq => rw [records, stream]; rfl
  case window_le => omega
  case room => intro _; rw [flight]; decide
  case lastFin => rw [records]; simp
  case finPayload => rw [records]; simp
  case finEmpty => intro _; exact records
  case finsSent => rw [records, empty.fin, empty.fins]; rfl
  case datagrams =>
    intro _
    rw [records]
    exact ⟨by simp, [], by rw [RingBuffer.contents_of_len_eq_zero rx]; rfl⟩
  case datagramFin => intro _; exact empty.fin
  case streams => intro _; rw [records]; simp

/-- What reading off the receive ring does to the traffic of a socket. -/
structure Traffic.ReadOff (t t' : Traffic) : Prop where
  kind : t'.kind = t.kind
  fin : t'.fin = t.fin
  flight : t'.flight = t.flight
  flStream : t'.flStream = t.flStream
  fins : t'.fins = t.fins
  rx_le : t'.rx.len ≤ t.rx.len
  datagrams : t.kind = .dgram → ∃ gs, t'.rx.contents = encodeDatagrams gs

namespace Traffic.ReadOff

variable {t t' : Traffic}

theorem records (readOff : ReadOff t t') : t'.records = t.records := by
  unfold Traffic.records
  rw [readOff.flight]

theorem ok (ok : t.Ok) (readOff : ReadOff t t') : t'.Ok := by
  have records := readOff.records
  have window := ok.window_le
  have less := readOff.rx_le
  constructor
  case whole => rw [records, readOff.flight]; exact ok.whole
  case flight_le => rw [readOff.flight]; exact ok.flight_le
  case stream_eq => rw [records, readOff.flStream]; exact ok.stream_eq
  case window_le => rw [readOff.flStream]; omega
  case room => rw [records, readOff.flight]; exact ok.room
  case lastFin => rw [records]; exact ok.lastFin
  case finPayload => rw [records]; exact ok.finPayload
  case finEmpty => rw [records, readOff.fin]; exact ok.finEmpty
  case finsSent =>
    rw [records, readOff.fin, readOff.fins]
    exact ok.finsSent
  case datagrams =>
    rw [records, readOff.kind]
    intro isDgram
    exact ⟨(ok.datagrams isDgram).1, readOff.datagrams isDgram⟩
  case datagramFin => rw [readOff.kind, readOff.fin]; exact ok.datagramFin
  case streams => rw [records, readOff.kind]; exact ok.streams

theorem quiet (readOff : ReadOff t t') (quiet : t.Quiet) : t'.Quiet := by
  unfold Traffic.Quiet
  rw [readOff.fin, readOff.records]
  exact quiet

theorem empty (readOff : ReadOff t t') (empty : t.Empty) : t'.Empty where
  rx := by
    have := readOff.rx_le
    have := empty.rx
    omega
  flight := by rw [readOff.flight]; exact empty.flight
  flStream := by rw [readOff.flStream]; exact empty.flStream
  fin := by rw [readOff.fin]; exact empty.fin
  fins := by rw [readOff.fins]; exact empty.fins

end Traffic.ReadOff

namespace Net

variable
  {net later : Net}
  {sock dst src far listener : SockId}
  {pid : Nat}

/-! ## The accounts move with each delivery -/

theorem Accounts.put_records
    (a : Accounts)
    (dst i : SockId)
    (t : Traffic) :
    ((a.put dst t).socks i).records =
      if i = dst then t.records else (a.socks i).records := by
  split
  · next same =>
      subst same
      rw [Accounts.put_socks_self]
  · next different => rw [Accounts.put_socks_of_ne a t different]

/-- A delivery leaves other sockets alone. -/
theorem Accounts.Deliver.others
    {a b : Accounts}
    {delay taken : Nat}
    {payload : Payload}
    (deliver : Accounts.Deliver dst delay payload a b taken)
    {i : SockId}
    (different : i ≠ dst) : b.socks i = a.socks i := by
  cases deliver with
  | kept => exact a.put_socks_of_ne _ different
  | launched => exact a.put_socks_of_ne _ different

theorem Accounts.Deliver.received
    {a b : Accounts}
    {delay taken : Nat}
    {payload : Payload}
    (deliver : Accounts.Deliver dst delay payload a b taken) :
    Delivered (wrappingAdd a.now delay) payload (a.socks dst) (b.socks dst)
      taken := by
  cases deliver with
  | @kept t' _ _ delivered _ _ =>
      have at' : (a.put dst t').socks dst = t' := a.put_socks_self dst t'
      exact at'.symm ▸ delivered
  | @launched t' _ _ delivered _ _ =>
      have at' : (a.put dst t').socks dst = t' := a.put_socks_self dst t'
      exact at'.symm ▸ delivered

theorem Accounts.Counted.deliver
    {a b : Accounts}
    {delay taken : Nat}
    {payload : Payload}
    (counted : a.Counted)
    (may : payload.Deliverable (a.socks dst))
    (deliver : Accounts.Deliver dst delay payload a b taken) : b.Counted := by
  have ok := counted.rings dst
  have total := counted.counted
  cases deliver with
  | @kept t' _ _ delivered records _ =>
      have moved := a.sum_put dst t'
      rw [records] at moved
      refine ⟨counted.put_rings (delivered.ok ok may), ?_,
        counted.noUnderflow⟩
      change a.inFlight = ∑ i, ((a.put dst t').socks i).records.length
      omega
  | @launched t' _ r delivered _ records =>
      have moved := a.sum_put dst t'
      rw [records, List.length_append, List.length_singleton] at moved
      refine ⟨counted.put_rings (delivered.ok ok may), ?_,
        counted.noUnderflow⟩
      change a.inFlight + 1 = ∑ i, ((a.put dst t').socks i).records.length
      omega

/-- Without records in flight no ring has any. -/
theorem Accounts.Counted.no_records
    {a : Accounts}
    (counted : a.Counted)
    (none : a.inFlight = 0)
    (i : SockId) : (a.socks i).records = [] := by
  have total := counted.counted
  rw [none, eq_comm, Finset.sum_eq_zero_iff] at total
  exact List.length_eq_zero_iff.mp (total i (Finset.mem_univ i))

theorem Accounts.NextLe.deliver
    {a b : Accounts}
    {delay taken : Nat}
    {payload : Payload}
    (nextLe : a.NextLe)
    (counted : a.Counted)
    (deliver : Accounts.Deliver dst delay payload a b taken) : b.NextLe := by
  cases deliver with
  | @kept t' _ _ delivered records _ =>
      intro i r isHead
      apply nextLe i
      change r ∈ ((a.put dst t').socks i).records.head? at isHead
      rw [Accounts.put_records, records] at isHead
      split at isHead
      · next same => rwa [same]
      · exact isHead
  | @launched t' _ r delivered _ records =>
      intro i other isHead
      change other ∈ ((a.put dst t').socks i).records.head? at isHead
      change (if a.inFlight + 1 = 1 then r.due else min a.nextDueAt r.due) ≤
        other.due
      rw [Accounts.put_records, records] at isHead
      split
      · next first =>
          have empty := counted.no_records (by omega)
          rw [empty i, empty dst] at isHead
          split at isHead
          · obtain rfl := Option.some.inj isHead
            exact le_rfl
          · cases isHead
      · split at isHead
        · next same =>
            cases before : (a.socks dst).records with
            | nil =>
                rw [before] at isHead
                obtain rfl := Option.some.inj isHead
                exact min_le_right _ _
            | cons head rest =>
                rw [before] at isHead
                obtain rfl := Option.some.inj isHead
                exact (min_le_left _ _).trans
                  (nextLe dst head (by rw [before]; rfl))
        · exact (min_le_left _ _).trans (nextLe i other isHead)

/-- Where nothing is in flight to a socket, landings leave it alone. -/
theorem Accounts.Lands.of_no_records
    {now : Nat}
    {a b : Accounts}
    (lands : Accounts.Lands now a b)
    (none : (a.socks sock).records = []) : b.socks sock = a.socks sock := by
  induction lands with
  | refl => rfl
  | tail _ land inductionHypothesis =>
      cases land with
      | @head other r rest t' landed due =>
          rw [← inductionHypothesis]
          apply Accounts.put_socks_of_ne
          rintro rfl
          have before := landed.before
          rw [inductionHypothesis, none] at before
          cases before

/-- A landing of anything but a FIN leaves the quiet. -/
theorem Accounts.Lands.quiet
    {now : Nat}
    {a b : Accounts}
    (lands : Accounts.Lands now a b)
    (quiet : (a.socks sock).Quiet) : (b.socks sock).Quiet := by
  induction lands with
  | refl => exact quiet
  | tail _ land inductionHypothesis =>
      cases land with
      | @head other r rest t' landed due =>
          change ((Accounts.put _ other t').socks sock).Quiet
          by_cases same : sock = other
          · subst same
            rw [Accounts.put_socks_self]
            obtain ⟨noFin, noFinRecords⟩ := inductionHypothesis
            rw [landed.before] at noFinRecords
            refine ⟨?_, ?_⟩
            · rw [landed.fin, noFin]
              simp [noFinRecords r (by simp)]
            · rw [landed.records]
              intro other present
              exact noFinRecords other (by simp [present])
          · rw [Accounts.put_socks_of_ne _ t' same]
            exact inductionHypothesis

/-! ## The invariant -/

/-- A socket that may still send to its far end. -/
structure Sends (net : Net) (src dst : SockId) : Prop where
  connected : (net.socks src).state = .connected
  open' : (net.socks src).shutWr = false
  farEnd : (net.socks src).farEnd = some dst

/-- The accounts are in order, and who may still send has not ended the
stream; of some receivers this is not asked. -/
structure AccountedBut (net : Net) (ended : Finset SockId) : Prop where
  counted : net.accounts.Counted
  nextLe : net.accounts.NextLe
  quiet : ∀ src dst, net.Sends src dst → dst ∉ ended →
    (net.socks dst).traffic.Quiet
  idle : ∀ i, (net.socks i).Unlinked → (net.socks i).kind ≠ .dgram →
    (net.socks i).traffic.Empty

/-- The accounts are in order. -/
def Accounted (net : Net) : Prop :=
  net.AccountedBut ∅

theorem traffic_of_accounts
    (same : later.accounts = net.accounts)
    (i : SockId) : (later.socks i).traffic = (net.socks i).traffic := by
  have view := congrArg (fun a : Accounts => a.socks i) same
  exact view

/-- A step that changes no traffic and gives no socket leave to send. -/
theorem AccountedBut.mono
    {ended : Finset SockId}
    {ended' : Finset SockId}
    (accounted : net.AccountedBut ended)
    (same : later.accounts = net.accounts)
    (sends : ∀ src dst, later.Sends src dst → dst ∉ ended' →
      net.Sends src dst ∧ dst ∉ ended)
    (unlinked : ∀ i, (later.socks i).Unlinked → (net.socks i).Unlinked) :
    later.AccountedBut ended' where
  counted := by rw [same]; exact accounted.counted
  nextLe := by rw [same]; exact accounted.nextLe
  quiet := by
    intro src dst may notEnded
    rw [traffic_of_accounts same]
    obtain ⟨before, asked⟩ := sends src dst may notEnded
    exact accounted.quiet src dst before asked
  idle := by
    intro i isUnlinked isStream
    have kind : (later.socks i).kind = (net.socks i).kind :=
      congrArg Traffic.kind (traffic_of_accounts same i)
    rw [traffic_of_accounts same]
    apply accounted.idle i (unlinked i isUnlinked)
    rwa [← kind]

/-- A step that changes no socket. -/
theorem AccountedBut.of_socks
    {ended : Finset SockId}
    (accounted : net.AccountedBut ended)
    (socks : later.socks = net.socks)
    (same : later.accounts = net.accounts) : later.AccountedBut ended := by
  apply accounted.mono same
  · rintro src dst ⟨state, open', linkedTo⟩ asked
    rw [socks] at state open' linkedTo
    exact ⟨⟨state, open', linkedTo⟩, asked⟩
  · intro i isUnlinked
    rwa [socks] at isUnlinked

/-- What two networks with the same control half agree on. -/
theorem sends_of_control
    (same : later.control = net.control)
    (src dst : SockId) : later.Sends src dst ↔ net.Sends src dst := by
  have state := congrArg (fun view : Net => (view.socks src).state) same
  have shutWr := congrArg (fun view : Net => (view.socks src).shutWr) same
  have farEnd := congrArg (fun view : Net => (view.socks src).farEnd) same
  change (later.socks src).state = (net.socks src).state at state
  change (later.socks src).shutWr = (net.socks src).shutWr at shutWr
  change (later.socks src).farEnd = (net.socks src).farEnd at farEnd
  constructor
  · rintro ⟨h1, h2, h3⟩
    exact ⟨state ▸ h1, shutWr ▸ h2, farEnd ▸ h3⟩
  · rintro ⟨h1, h2, h3⟩
    exact ⟨state.trans h1, shutWr.trans h2, farEnd.trans h3⟩

theorem unlinked_of_control
    (same : later.control = net.control)
    (i : SockId) :
    (later.socks i).Unlinked ↔ (net.socks i).Unlinked := by
  have state := congrArg (fun view : Net => (view.socks i).state) same
  change (later.socks i).state = (net.socks i).state at state
  unfold Sock.Unlinked
  rw [state]

theorem kind_of_control
    (same : later.control = net.control)
    (i : SockId) : (later.socks i).kind = (net.socks i).kind := by
  have kind := congrArg (fun view : Net => (view.socks i).kind) same
  exact kind

/-- A delivery to a socket that is linked or takes datagrams. -/
theorem AccountedBut.deliver
    {ended : Finset SockId}
    (accounted : net.AccountedBut ended)
    {payload : Payload}
    (may : payload.Deliverable (net.socks dst).traffic)
    (busy : ¬(net.socks dst).Unlinked ∨ (net.socks dst).kind = .dgram)
    (srcHost : Nat)
    {ended' : Finset SockId}
    (more : ∀ i, i ∉ ended' → i ∉ ended ∧ (i = dst → payload.kind ≠ .fin)) :
    (net.deliver srcHost dst payload).1.AccountedBut ended' := by
  have ok := accounted.counted.rings dst
  have spec := deliver_spec ok may srcHost
  have control := control_deliver net srcHost dst payload
  have moved : ∀ i, i ≠ dst →
      ((net.deliver srcHost dst payload).1.socks i).traffic =
        (net.socks i).traffic := fun i different => spec.others different
  refine ⟨accounted.counted.deliver may spec,
    accounted.nextLe.deliver accounted.counted spec, ?_, ?_⟩
  · intro src i sends notEnded
    rw [sends_of_control control] at sends
    obtain ⟨asked, notFin⟩ := more i notEnded
    have quiet := accounted.quiet src i sends asked
    by_cases same : i = dst
    · subst same
      exact spec.received.quiet ok (notFin rfl) quiet
    · rw [moved i same]
      exact quiet
  · intro i isUnlinked isStream
    rw [unlinked_of_control control] at isUnlinked
    rw [kind_of_control control] at isStream
    have different : i ≠ dst := by
      rintro rfl
      rcases busy with linked | isDgram
      · exact linked isUnlinked
      · exact isStream isDgram
    rw [moved i different]
    exact accounted.idle i isUnlinked isStream

/-! ## Ends of streams -/

/-- The sockets to which nobody sends may have been asked for nothing. -/
theorem AccountedBut.silenced
    {ended : Finset SockId}
    (accounted : net.AccountedBut ended)
    (silent : ∀ src, ∀ dst ∈ ended, ¬net.Sends src dst) : net.Accounted where
  counted := accounted.counted
  nextLe := accounted.nextLe
  quiet := by
    intro src dst sends _
    refine accounted.quiet src dst sends ?_
    exact fun isEnded => silent src dst isEnded sends
  idle := accounted.idle

/-- Letting sockets go gives no socket leave to send. -/
theorem StatesOnly.sends
    (same : StatesOnly net later)
    (sends : later.Sends src dst) : net.Sends src dst := by
  have record := same.socks src
  have shutWr := congrArg Sock.shutWr record
  have farEnd := congrArg Sock.farEnd record
  change (later.socks src).shutWr = (net.socks src).shutWr at shutWr
  change (later.socks src).farEnd = (net.socks src).farEnd at farEnd
  refine ⟨?_, shutWr ▸ sends.open', farEnd ▸ sends.farEnd⟩
  have connected := sends.connected
  rcases same.states src with kept | gone | gone
  · exact kept.symm.trans connected
  · rw [connected] at gone
    cases gone
  · rw [connected] at gone
    cases gone

/-- A step that lets sockets go and changes no traffic. -/
theorem AccountedBut.statesOnly
    {ended : Finset SockId}
    (accounted : net.AccountedBut ended)
    (same : StatesOnly net later)
    (accounts : later.accounts = net.accounts) :
    later.AccountedBut ended := by
  apply accounted.mono accounts
  · exact fun _ _ sends asked => ⟨same.sends sends, asked⟩
  · exact fun i isUnlinked => (KeepsLinks.statesOnly same).unlinked i isUnlinked

/-- Only its own far end sends to a socket. -/
theorem Linked.sole
    {pending : Finset SockId}
    {queues : SockId → List SockId}
    (linked : net.Linked pending queues)
    {other : SockId}
    (sends : net.Sends src dst)
    (also : net.Sends other dst) : other = src := by
  obtain ⟨j, there, back, -⟩ := linked.paired src (.inl sends.connected)
  obtain ⟨k, there', back', -⟩ := linked.paired other (.inl also.connected)
  have first := sends.farEnd
  have second := also.farEnd
  grind

/-- A sender's far end is a stream. -/
theorem Linked.receiver
    {pending : Finset SockId}
    {queues : SockId → List SockId}
    (linked : net.Linked pending queues)
    (sends : net.Sends src dst) :
    (net.socks dst).kind = .stream ∧ ¬(net.socks dst).Unlinked := by
  obtain ⟨j, there, -, -, state⟩ := linked.paired src (.inl sends.connected)
  obtain rfl : j = dst := Option.some.inj (there.symm.trans sends.farEnd)
  refine ⟨linked.streams j (by grind), ?_⟩
  unfold Sock.Unlinked
  grind

/-- A FIN may be sent by who may still send. -/
theorem Accounted.mayEnd
    {pending : Finset SockId}
    {queues : SockId → List SockId}
    (accounted : net.Accounted)
    (linked : net.Linked pending queues)
    (sends : net.Sends src dst) :
    Payload.fin.Deliverable (net.socks dst).traffic := by
  refine ⟨?_, accounted.quiet src dst sends (by simp)⟩
  change (net.socks dst).kind ≠ .dgram
  rw [(linked.receiver sends).1]
  decide

/-- A FIN moves no byte of a stream. -/
theorem Accounted.samePipe
    (accounted : net.Accounted)
    (may : Payload.fin.Deliverable (net.socks dst).traffic)
    (srcHost : Nat)
    (i : SockId) :
    (net.socks i).traffic.SamePipe
      ((net.deliver srcHost dst .fin).1.socks i).traffic := by
  have ok := accounted.counted.rings dst
  have spec := deliver_spec ok may srcHost
  by_cases same : i = dst
  · subst same
    exact spec.received.samePipe ok
  · have others : ((net.deliver srcHost dst .fin).1.socks i).traffic =
        (net.socks i).traffic := spec.others same
    rw [others]
    exact .refl _

/-- A FIN ends the stream to its receiver. -/
theorem AccountedBut.endStream
    {pending : Finset SockId}
    {queues : SockId → List SockId}
    (accounted : net.Accounted)
    (linked : net.Linked pending queues)
    (sends : net.Sends src dst)
    (srcHost : Nat) :
    (net.deliver srcHost dst .fin).1.AccountedBut {dst} := by
  apply accounted.deliver (Accounted.mayEnd accounted linked sends)
    (.inl (linked.receiver sends).2)
  intro i notEnded
  refine ⟨by simp, ?_⟩
  rintro rfl
  exact absurd (Finset.mem_singleton_self i) notEnded

/-! ## What is due -/

/-- No record at the head of a ring is due. -/
def Accounts.Ahead (a : Accounts) : Prop :=
  ∀ i, ∀ r ∈ (a.socks i).records.head?, a.now < r.due

/-- At the same time, nothing comes to be due unless a sum of times does not fit. -/
structure Accounts.OnTime (a b : Accounts) : Prop where
  now : b.now = a.now
  overflow : a.overflow = true → b.overflow = true
  ahead : b.overflow = false → a.Ahead → b.Ahead

theorem Accounts.OnTime.refl (a : Accounts) : Accounts.OnTime a a :=
  ⟨rfl, id, fun _ => id⟩

theorem Accounts.OnTime.trans
    {a b c : Accounts}
    (first : Accounts.OnTime a b)
    (second : Accounts.OnTime b c) : Accounts.OnTime a c where
  now := second.now.trans first.now
  overflow := fun isOver => second.overflow (first.overflow isOver)
  ahead := fun fits ahead => by
    have fitted : b.overflow = false :=
      Bool.eq_false_iff.2 fun isOver => nomatch fits.symm.trans (second.overflow isOver)
    exact second.ahead fits (first.ahead fitted ahead)

/-- What is delivered with a delay is not due yet. -/
theorem Accounts.Deliver.onTime
    {a b : Accounts}
    {delay taken : Nat}
    {payload : Payload}
    (deliver : Accounts.Deliver dst delay payload a b taken)
    (later : (a.socks dst).records = [] → 0 < delay) : Accounts.OnTime a b := by
  cases deliver with
  | kept delivered records isOver =>
      refine ⟨rfl, isOver, fun _ ahead i r isHead => ahead i r ?_⟩
      change r ∈ ((a.put dst _).socks i).records.head? at isHead
      rw [Accounts.put_records, records] at isHead
      split at isHead
      · next same => rwa [same]
      · exact isHead
  | @launched t' _ launched delivered due records =>
      refine ⟨rfl, fun isOver => ?_, fun fits ahead i r isHead => ?_⟩
      · change (a.overflow || addOverflows a.now delay) = true
        rw [isOver]
        rfl
      · change (a.overflow || addOverflows a.now delay) = false at fits
        change r ∈ ((a.put dst t').socks i).records.head? at isHead
        change a.now < r.due
        rw [Accounts.put_records, records] at isHead
        split at isHead
        · cases before : (a.socks dst).records with
          | nil =>
              rw [before] at isHead
              obtain rfl := Option.some.inj isHead
              have fit := (Bool.or_eq_false_iff.1 fits).2
              unfold addOverflows at fit
              rw [decide_eq_false_iff_not, not_le] at fit
              have sum : wrappingAdd a.now delay = a.now + delay := Nat.mod_eq_of_lt fit
              rw [due, sum]
              exact Nat.lt_add_of_pos_right (later before)
          | cons head rest =>
              rw [before] at isHead
              obtain rfl := Option.some.inj isHead
              exact ahead dst head (by rw [before]; rfl)
        · exact ahead i r isHead

theorem onTime_deliver
    (ok : (net.socks dst).traffic.Ok)
    {payload : Payload}
    (may : payload.Deliverable (net.socks dst).traffic)
    (srcHost : Nat) :
    Accounts.OnTime net.accounts (net.deliver srcHost dst payload).1.accounts := by
  by_cases immediate : net.delay srcHost dst = 0 ∧ (net.socks dst).flight.len = 0
  · have arrives : net.deliver srcHost dst payload = net.arrive dst payload :=
      if_pos immediate
    rw [arrives]
    exact (arrive_spec ok immediate.2 1 payload).onTime fun _ => Nat.one_pos
  · refine (deliver_spec ok may srcHost).onTime fun empty => ?_
    rw [Nat.pos_iff_ne_zero]
    exact fun atOnce => immediate ⟨atOnce, ok.records_eq_nil_iff.1 empty⟩

/-! ## Releasing sockets -/

/-- A step that keeps the accounts in order, moves no byte of a stream and lets nothing come
to be due. -/
structure Settles (net later : Net) : Prop where
  accounted : later.Accounted
  pipes : ∀ i, (net.socks i).traffic.SamePipe (later.socks i).traffic
  onTime : Accounts.OnTime net.accounts later.accounts

theorem Settles.of_accounts
    (accounted : later.Accounted)
    (same : later.accounts = net.accounts) : Settles net later := by
  refine ⟨accounted, ?_, same ▸ .refl _⟩
  intro i
  rw [traffic_of_accounts same]
  exact .refl _

theorem Settles.trans
    {middle : Net}
    (first : Settles net middle)
    (second : Settles middle later) : Settles net later :=
  ⟨second.accounted, fun i => (first.pipes i).trans (second.pipes i),
    first.onTime.trans second.onTime⟩

theorem Settles.statesOnly
    (accounted : net.Accounted)
    (same : StatesOnly net later)
    (accounts : later.accounts = net.accounts) : Settles net later :=
  .of_accounts (accounted.statesOnly same accounts) accounts

/-- The end of a connection that hangs up: its FIN is sent, then it is
closed. -/
theorem Settles.hangUp
    {pending : Finset SockId}
    {queues : SockId → List SockId}
    (accounted : net.Accounted)
    (linked : net.Linked pending queues)
    (sends : net.Sends src dst)
    (srcHost : Nat) :
    Settles net ((((net.deliver srcHost dst .fin).1).modifySock dst
      .writeEvent).setState src .closed) := by
  have accounts : ((((net.deliver srcHost dst .fin).1).modifySock dst
      .writeEvent).setState src .closed).accounts =
      (net.deliver srcHost dst .fin).1.accounts := by
    rw [accounts_setState, accounts_writeEvent]
  have may := Accounted.mayEnd accounted linked sends
  refine ⟨?_, ?_, ?_⟩
  rotate_left
  · intro i
    rw [traffic_of_accounts accounts]
    exact Accounted.samePipe accounted may srcHost i
  · rw [accounts]
    exact onTime_deliver (accounted.counted.rings dst) may srcHost
  have ended := AccountedBut.endStream accounted linked sends srcHost
  have control : (((net.deliver srcHost dst .fin).1).modifySock dst
      .writeEvent).control = net.control :=
    (control_writeEvent _ _).trans (control_deliver net srcHost dst .fin)
  have states := StatesOnly.setState (((net.deliver srcHost dst
    .fin).1).modifySock dst .writeEvent) src (.inr rfl : _ ∨ SockState.closed = .closed)
  have before := ended.statesOnly (StatesOnly.of_control
    (control_writeEvent _ dst)) (accounts_writeEvent _ dst)
  have closed := before.statesOnly states (accounts_setState _ _ _)
  apply closed.silenced
  intro other dst' isEnded also
  obtain rfl := Finset.mem_singleton.mp isEnded
  have earlier := (sends_of_control control other dst').mp
    (states.sends also)
  obtain rfl := linked.sole sends earlier
  have state := also.connected
  unfold Net.setState at state
  rw [modifySock_socks_self] at state
  cases state

theorem Settles.resetQueued
    {pending : Finset SockId}
    {queues : SockId → List SockId}
    (accounted : net.Accounted)
    (linked : net.Linked pending queues)
    (connected : (net.socks far).state = .connected)
    (open' : (net.socks far).shutWr = false) :
    Settles net (net.resetQueued far) := by
  obtain ⟨near, linkedTo, -⟩ := linked.paired far (.inl connected)
  unfold Net.resetQueued
  rw [linkedTo]
  dsimp only
  split
  · apply Settles.statesOnly accounted
    · exact (StatesOnly.setState net near (.inl rfl)).trans
        (StatesOnly.setState _ far (.inl rfl))
    · rw [accounts_setState, accounts_setState]
  · exact Settles.hangUp accounted linked ⟨connected, open', linkedTo⟩ _

theorem Settles.foldl_resetQueued
    {pending : Finset SockId}
    {queues : SockId → List SockId}
    (queue : List SockId)
    (accounted : net.Accounted)
    (linked : net.Linked pending queues)
    (listening : (net.socks listener).state = .listening)
    (queueIs : queues listener = queue) :
    Settles net (queue.foldl Net.resetQueued net) := by
  induction queue generalizing net queues with
  | nil => exact .of_accounts accounted rfl
  | cons far rest inductionHypothesis =>
      have present : far ∈ queues listener := by rw [queueIs]; simp
      obtain ⟨connected, -, open', -⟩ :=
        linked.queued listener far listening present
      obtain ⟨stillLinked, stillListening⟩ :=
        linked.resetQueued listening queueIs
      have reset := Settles.resetQueued accounted linked connected open'
      rw [List.foldl_cons]
      exact reset.trans (inductionHypothesis reset.accounted stillLinked
        stillListening (Function.update_self _ _ _))

theorem Settles.releaseConnected
    {pending : Finset SockId}
    {queues : SockId → List SockId}
    (accounted : net.Accounted)
    (linked : net.Linked pending queues)
    (connected : (net.socks sock).state = .connected) :
    Settles net (net.releaseConnected sock) := by
  obtain ⟨peer, linkedTo, -⟩ := linked.paired sock (.inl connected)
  unfold Net.releaseConnected
  rw [linkedTo]
  dsimp only
  split
  · apply Settles.statesOnly accounted
    · exact (StatesOnly.setState net peer (.inl rfl)).trans
        (StatesOnly.setState _ sock (.inl rfl))
    · rw [accounts_setState, accounts_setState]
  · split
    · apply Settles.statesOnly accounted
      · exact (StatesOnly.of_control (control_writeEvent net peer)).trans
          (StatesOnly.setState _ sock (.inr rfl))
      · rw [accounts_setState, accounts_writeEvent]
    · next isOpen =>
        exact Settles.hangUp accounted linked
          ⟨connected, by simpa using isOpen, linkedTo⟩ _

/-- Releasing a socket ends at most the streams that nobody ended. -/
theorem Settles.release
    {pending : Finset SockId}
    (accounted : net.Accounted)
    (linked : net.Linked pending net.backlogs)
    (sock : SockId) : Settles net (net.release sock) := by
  have unnamed : ∀ {later : Net}, Settles net later →
      Settles net (later.setIdent sock 0) := by
    intro later settles
    have accounts := accounts_setIdent later sock 0
    refine ⟨?_, settles.pipes, accounts ▸ settles.onTime⟩
    exact settles.accounted.of_socks rfl accounts
  unfold Net.release
  apply unnamed
  split
  · next listening =>
      have reset := Settles.foldl_resetQueued (net.socks sock).backlog
        accounted linked listening rfl
      exact reset.trans (.statesOnly reset.accounted
        (StatesOnly.setState _ sock (.inl rfl)) (accounts_setState _ _ _))
  · next connected => exact Settles.releaseConnected accounted linked connected
  · exact .statesOnly accounted (StatesOnly.setState _ sock (.inl rfl))
      (accounts_setState _ _ _)

/-! ## References -/

/-- A change of a record that gives no leave to send. -/
theorem sends_modifySock
    {change : Sock → Sock}
    (kept : (change (net.socks sock)).state = .connected →
      (net.socks sock).state = .connected ∧
        (change (net.socks sock)).farEnd = (net.socks sock).farEnd ∧
        ((change (net.socks sock)).shutWr = false →
          (net.socks sock).shutWr = false))
    (sends : (net.modifySock sock change).Sends src dst) :
    net.Sends src dst := by
  obtain ⟨state, open', linkedTo⟩ := sends
  rw [modifySock_socks] at state open' linkedTo
  split at state
  · next same =>
      subst same
      rw [if_pos rfl] at open' linkedTo
      obtain ⟨connected, farEnd, shutWr⟩ := kept state
      exact ⟨connected, shutWr open', farEnd.symm.trans linkedTo⟩
  · next different =>
      rw [if_neg different] at open' linkedTo
      exact ⟨state, open', linkedTo⟩

theorem unlinked_modifySock
    {change : Sock → Sock}
    (unlinked : (change (net.socks sock)).Unlinked →
      (net.socks sock).Unlinked)
    (i : SockId)
    (isUnlinked : ((net.modifySock sock change).socks i).Unlinked) :
    (net.socks i).Unlinked := by
  rw [modifySock_socks] at isUnlinked
  split at isUnlinked
  · next same =>
      subst same
      exact unlinked isUnlinked
  · exact isUnlinked

/-- A change of a record that leaves its links and its traffic alone. -/
theorem AccountedBut.relink
    {ended : Finset SockId}
    (accounted : net.AccountedBut ended)
    {change : Sock → Sock}
    (traffic : ∀ d, (change d).traffic = d.traffic)
    (kept : (change (net.socks sock)).state = .connected →
      (net.socks sock).state = .connected ∧
        (change (net.socks sock)).farEnd = (net.socks sock).farEnd ∧
        ((change (net.socks sock)).shutWr = false →
          (net.socks sock).shutWr = false))
    (unlinked : (change (net.socks sock)).Unlinked →
      (net.socks sock).Unlinked) :
    (net.modifySock sock change).AccountedBut ended := by
  apply accounted.mono (accounts_modifySock traffic net sock)
  · exact fun _ _ sends asked =>
      ⟨sends_modifySock kept sends, asked⟩
  · exact unlinked_modifySock unlinked

theorem AccountedBut.setFdref
    {ended : Finset SockId}
    (accounted : net.AccountedBut ended)
    (at' pid : Nat)
    (sock : SockId)
    (count : Nat) : (net.setFdref at' pid sock count).AccountedBut ended :=
  accounted.of_socks rfl (accounts_setFdref net at' pid sock count)

theorem AccountedBut.setIdent
    {ended : Finset SockId}
    (accounted : net.AccountedBut ended)
    (sock : SockId)
    (ident : Nat) : (net.setIdent sock ident).AccountedBut ended :=
  accounted.of_socks rfl (accounts_setIdent net sock ident)

theorem Settles.addRef
    (accounted : net.Accounted)
    (added : net.addRef pid sock = some later) : Settles net later := by
  unfold Net.addRef at added
  rw [Option.map_eq_some_iff] at added
  obtain ⟨at', -, rfl⟩ := added
  refine .of_accounts ?_ (@accounts_modifySock .gainRef (fun _ => rfl) _ sock)
  exact (accounted.setFdref _ _ _ _).relink (fun _ => rfl)
      (fun state => ⟨state, rfl, id⟩) id

theorem Settles.dropRef
    (accounted : net.Accounted)
    (wired : net.Wired)
    (holds : 0 < net.held pid sock) : Settles net (net.dropRef pid sock) := by
  obtain ⟨at', within, isFor, dropped⟩ := dropRef_of_held holds
  have lose := Linked.lose wired within isFor (Linked.refs_of_held wired holds)
  have lost : ((net.setFdref at' pid sock
      ((net.fdrefs at').count - 1)).modifySock sock .loseRef).Accounted :=
    (accounted.setFdref _ _ _ _).relink (fun _ => rfl)
      (fun state => ⟨state, rfl, id⟩) id
  have settles : Settles net ((net.setFdref at' pid sock
      ((net.fdrefs at').count - 1)).modifySock sock .loseRef) :=
    .of_accounts lost (@accounts_modifySock .loseRef (fun _ => rfl) _ sock)
  rw [dropped _ rfl]
  split
  · have kept := @backlogs_modifySock_same (net.setFdref at' pid sock
      ((net.fdrefs at').count - 1)) sock .loseRef rfl
    exact settles.trans (Settles.release lost
      (lose.of_queues fun i _ => congrFun kept i) sock)
  · exact settles

theorem Settles.refStep
    (accounted : net.Accounted)
    (wired : net.Wired)
    (step : RefStep pid net later) : Settles net later := by
  cases step with
  | gain _ added => exact .addRef accounted added
  | drop holds => exact .dropRef accounted wired holds

theorem Settles.refSteps
    (accounted : net.Accounted)
    (wired : net.Wired)
    (steps : RefSteps pid net later) : Settles net later := by
  suffices later.Wired ∧ Settles net later from this.2
  induction steps with
  | refl => exact ⟨wired, .of_accounts accounted rfl⟩
  | tail _ step inductionHypothesis =>
      obtain ⟨between, settles⟩ := inductionHypothesis
      exact ⟨between.refStep step,
        settles.trans (.refStep settles.accounted between step)⟩

end Net
end Derp
