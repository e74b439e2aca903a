import Derp.Net.Readiness

/-!
# Readiness does not come unannounced

An edge-triggered waiter compares the event counters of a socket with what they
were when it last looked.  So a socket that becomes ready must have its counter
bumped, at its own end or from the far end.  Every call does so, but for a
shutdown, which makes the socket it is made on ready itself.
-/

namespace Derp

/-- The socket has or may get a descriptor: its slot is in use and it was not
released. -/
def Sock.Open (d : Sock) : Prop :=
  d.state ≠ .free ∧ d.state ≠ .closed

namespace Net

variable
  {net middle later : Net}
  {sock dst src far : SockId}
  {pid : Nat}
  {deaf mute : SockId → Prop}

/-- Calls that make sockets ready bump their counters, except that the reading
side of some and the writing side of others may become ready quietly. -/
structure Heeds
    (deaf mute : SockId → Prop)
    (net later : Net) : Prop where
  kind : ∀ i, (net.socks i).Open → (later.socks i).Open →
    (later.socks i).kind = (net.socks i).kind
  rdLe : ∀ i, (net.socks i).Open → (later.socks i).Open →
    (net.socks i).rdEvents ≤ (later.socks i).rdEvents
  wrLe : ∀ i, (net.socks i).Open → (later.socks i).Open →
    (net.socks i).wrEvents ≤ (later.socks i).wrEvents
  read : ∀ i, (net.socks i).Open → (later.socks i).Open →
    (net.socks i).kind = .stream → ¬deaf i → later.readable i = true →
    net.readable i = true ∨
      (net.socks i).rdEvents < (later.socks i).rdEvents
  write : ∀ i, (net.socks i).Open → (later.socks i).Open →
    (net.socks i).kind = .stream → ¬mute i → later.writable i = true →
    net.writable i = true ∨
      (net.socks i).wrEvents < (later.socks i).wrEvents

/-- No socket is quiet. -/
abbrev Announces (net later : Net) : Prop :=
  Heeds (fun _ => False) (fun _ => False) net later

theorem Heeds.mono
    (heeds : Heeds deaf mute net later)
    {deaf' mute' : SockId → Prop}
    (moreDeaf : ∀ i, deaf i → deaf' i)
    (moreMute : ∀ i, mute i → mute' i) : Heeds deaf' mute' net later where
  kind := heeds.kind
  rdLe := heeds.rdLe
  wrLe := heeds.wrLe
  read i before after stream notDeaf :=
    heeds.read i before after stream (mt (moreDeaf i) notDeaf)
  write i before after stream notMute :=
    heeds.write i before after stream (mt (moreMute i) notMute)

/-- A socket that became ready over two steps did so in one of them. -/
theorem Heeds.trans
    (first : Heeds deaf mute net middle)
    (second : Heeds deaf mute middle later)
    (between : ∀ i, (net.socks i).Open → (later.socks i).Open →
      (middle.socks i).Open) : Heeds deaf mute net later where
  kind i before after := by
    have mid := between i before after
    rw [second.kind i mid after, first.kind i before mid]
  rdLe i before after := by
    have mid := between i before after
    exact (first.rdLe i before mid).trans (second.rdLe i mid after)
  wrLe i before after := by
    have mid := between i before after
    exact (first.wrLe i before mid).trans (second.wrLe i mid after)
  read i before after stream notDeaf ready := by
    have mid := between i before after
    have lower := first.rdLe i before mid
    have upper := second.rdLe i mid after
    have same := first.kind i before mid
    rcases second.read i mid after (by rw [same, stream]) notDeaf ready with
      already | bumped
    · rcases first.read i before mid stream notDeaf already with old | bumped
      · exact .inl old
      · exact .inr (by omega)
    · exact .inr (by omega)
  write i before after stream notMute ready := by
    have mid := between i before after
    have lower := first.wrLe i before mid
    have upper := second.wrLe i mid after
    have same := first.kind i before mid
    rcases second.write i mid after (by rw [same, stream]) notMute ready with
      already | bumped
    · rcases first.write i before mid stream notMute already with old | bumped
      · exact .inl old
      · exact .inr (by omega)
    · exact .inr (by omega)

/-! ## What readiness looks at -/

/-- The far end takes bytes, or refuses them for good. -/
def Answers (net : Net) (far : SockId) : Prop :=
  (net.socks far).state ≠ .connected ∨ (net.socks far).shutRd = true ∨
    0 < net.window far

/-- When a socket in use is writable. -/
theorem writable_iff_answers :
    net.writable sock = true ↔
      (net.socks sock).state ≠ .connected ∨ (net.socks sock).shutWr = true ∨
        ∀ far, (net.socks sock).farEnd = some far → net.Answers far := by
  unfold writable Answers
  simp only
  by_cases isOver : (net.socks sock).state ≠ .connected ∨
      (net.socks sock).shutWr = true
  · rcases isOver with isOver | isOver <;> simp [isOver]
  · simp only [not_or, not_not, Bool.not_eq_true] at isOver
    cases (net.socks sock).farEnd with
    | none => simp [isOver]
    | some far => simp [isOver, or_assoc]

/-- A stream socket has something to read, or will never have. -/
def Sock.HasInput (d : Sock) : Prop :=
  0 < d.rx.len ∨ d.fin = true ∨ d.shutRd = true

/-- When a stream socket is readable. -/
theorem readable_iff_hasInput
    (stream : (net.socks sock).kind = .stream) :
    net.readable sock = true ↔
      match (net.socks sock).state with
      | .listening => (net.socks sock).backlog ≠ []
      | .connected => Sock.HasInput (net.socks sock)
      | _ => True := by
  unfold readable Sock.HasInput
  simp only [stream]
  cases (net.socks sock).state <;> simp [List.length_pos_iff, or_assoc]

/-- A window does not open while the rings fill. -/
theorem window_le
    (rx : (net.socks dst).rx.len ≤ (later.socks dst).rx.len)
    (flight : (net.socks dst).flight.len ≤ (later.socks dst).flight.len)
    (stream : (net.socks dst).flStream ≤ (later.socks dst).flStream) :
    later.window dst ≤ net.window dst := by
  unfold window
  simp only
  split <;> split <;> omega

theorem window_of_traffic
    (same : (later.socks dst).traffic = (net.socks dst).traffic) :
    later.window dst = net.window dst := by
  have rx := congrArg (fun t : Traffic => t.rx.len) same
  have flight := congrArg (fun t : Traffic => t.flight.len) same
  have flStream := congrArg Traffic.flStream same
  simp only [Sock.traffic] at rx flight flStream
  simp only [window]
  rw [rx, flight, flStream]

theorem window_congr
    (same : later.socks dst = net.socks dst) :
    later.window dst = net.window dst :=
  window_of_traffic (by rw [same])

/-! ## Traffic -/

/-- What traffic leaves alone of a record. -/
theorem fields_of_control
    (same : later.control = net.control)
    (i : SockId) :
    (later.socks i).state = (net.socks i).state ∧
      (later.socks i).kind = (net.socks i).kind ∧
      (later.socks i).farEnd = (net.socks i).farEnd ∧
      (later.socks i).backlog = (net.socks i).backlog ∧
      (later.socks i).shutRd = (net.socks i).shutRd ∧
      (later.socks i).shutWr = (net.socks i).shutWr := by
  have state := congrArg (fun view : Net => (view.socks i).state) same
  have kind := congrArg (fun view : Net => (view.socks i).kind) same
  have farEnd := congrArg (fun view : Net => (view.socks i).farEnd) same
  have backlog := congrArg (fun view : Net => (view.socks i).backlog) same
  have shutRd := congrArg (fun view : Net => (view.socks i).shutRd) same
  have shutWr := congrArg (fun view : Net => (view.socks i).shutWr) same
  exact ⟨state, kind, farEnd, backlog, shutRd, shutWr⟩

/-- Traffic is announced if arrivals are, and windows that open. -/
theorem Announces.of_control
    (same : later.control = net.control)
    (rdLe : ∀ i, (net.socks i).rdEvents ≤ (later.socks i).rdEvents)
    (wrLe : ∀ i, (net.socks i).wrEvents ≤ (later.socks i).wrEvents)
    (arrivals : ∀ i, (net.socks i).kind = .stream →
      0 < (later.socks i).rx.len ∨ (later.socks i).fin = true →
      (0 < (net.socks i).rx.len ∨ (net.socks i).fin = true) ∨
        (net.socks i).rdEvents < (later.socks i).rdEvents)
    (windows : ∀ i j, (net.socks i).state = .connected →
      (net.socks i).farEnd = some j → (net.socks j).state = .connected →
      0 < later.window j → 0 < net.window j ∨
        (net.socks i).wrEvents < (later.socks i).wrEvents) :
    Announces net later where
  kind i _ _ := (fields_of_control same i).2.1
  rdLe i _ _ := rdLe i
  wrLe i _ _ := wrLe i
  read i _ _ stream _ ready := by
    obtain ⟨state, kind, -, backlog, shutRd, -⟩ := fields_of_control same i
    rw [readable_iff_hasInput (by rw [kind, stream]), state, backlog] at ready
    rw [readable_iff_hasInput stream]
    cases phase : (net.socks i).state with
    | connected =>
        rw [phase] at ready
        simp only [Sock.HasInput, shutRd] at ready ⊢
        have := arrivals i stream
        tauto
    | listening => rw [phase] at ready; exact .inl ready
    | free => exact .inl trivial
    | new => exact .inl trivial
    | bound => exact .inl trivial
    | closed => exact .inl trivial
  write i _ _ _ _ ready := by
    obtain ⟨state, -, farEnd, -, -, shutWr⟩ := fields_of_control same i
    rw [writable_iff_answers, state, farEnd, shutWr] at ready
    rw [writable_iff_answers]
    by_cases connected : (net.socks i).state = .connected
    · cases linkedTo : (net.socks i).farEnd with
      | none => exact .inl (.inr (.inr fun far none => by cases none))
      | some j =>
          obtain ⟨farState, -, -, -, farShut, -⟩ := fields_of_control same j
          rw [linkedTo] at ready
          simp only [Option.some.injEq, forall_eq'] at ready ⊢
          unfold Answers at ready ⊢
          rw [farState, farShut] at ready
          have := windows i j connected linkedTo
          tauto
    · exact .inl (.inl connected)

/-- What a payload does to the record of its destination, as readiness sees
it: what arrives bumps the counter, what is put in flight does not show. -/
structure Attends (d d' : Sock) : Prop where
  wrEvents : d'.wrEvents = d.wrEvents
  rx : d.rx.len ≤ d'.rx.len
  flight : d.flight.len ≤ d'.flight.len
  flStream : d.flStream ≤ d'.flStream
  shown : d'.rdEvents = d.rdEvents + 1 ∨
    d'.rdEvents = d.rdEvents ∧ d'.rx.len = d.rx.len ∧ d'.fin = d.fin

/-- Bytes that are put into the receive ring on arrival. -/
theorem Attends.received (d : Sock) (bytes : List UInt8) :
    Attends d (d.readEvent.pushRx bytes) where
  wrEvents := rfl
  rx := Nat.le_add_right _ _
  flight := Nat.le_refl _
  flStream := Nat.le_refl _
  shown := .inl rfl

/-- Nothing is put into the receive ring on arrival. -/
theorem Attends.noticed (d : Sock) (fin : Bool) (fins : Nat) :
    Attends d { d.readEvent with fin := fin, fins := fins } where
  wrEvents := rfl
  rx := Nat.le_refl _
  flight := Nat.le_refl _
  flStream := Nat.le_refl _
  shown := .inl rfl

theorem arrive_socks (net : Net) (dst : SockId) (payload : Payload) :
    ∃ d', (net.arrive dst payload).1.socks = Function.update net.socks dst d' ∧
      Attends (net.socks dst) d' := by
  cases payload with
  | fin =>
      refine ⟨_, ?_, .noticed (net.socks dst) true
        ((net.socks dst).fins + 1)⟩
      simp [arrive, modifySock, noteSub, Sock.readEvent, Sock.setFin,
        Sock.countFin]
  | bytes data =>
      refine ⟨_, ?_, .received (net.socks dst) (data.take
        (min data.length (ringSize - (net.socks dst).rx.len)))⟩
      simp [arrive, modifySock, noteSub, ringPush, countBytes, Sock.readEvent]
  | datagram source data =>
      by_cases noRoom : dgramHeaderLen + source.path.length + data.length >
          ringSize - (net.socks dst).rx.len
      · refine ⟨_, ?_, .noticed (net.socks dst) (net.socks dst).fin
          (net.socks dst).fins⟩
        simp [arrive, modifySock, noteSub, Sock.readEvent, noRoom]
      · refine ⟨_, ?_, .received (net.socks dst)
          (dgramHeader source data.length ++ source.path ++ data)⟩
        simp only [arrive, noteSub_socks, modifySock_socks_self, Sock.readEvent,
          noRoom, if_false, ringPush_ringPush]
        simp [modifySock, ringPush, countBytes, noteSub, Sock.readEvent]

/-- A record that is put in flight shows nothing yet. -/
theorem launchRecord_socks
    (net : Net)
    (dst : SockId)
    (deliverAt : Nat)
    (kind : FlightKind)
    (parts : List (List UInt8)) :
    ∃ d', (net.launchRecord dst deliverAt kind parts).socks =
        Function.update net.socks dst d' ∧ Attends (net.socks dst) d' := by
  unfold launchRecord
  simp only [foldl_flightPush]
  refine ⟨{ net.socks dst with
    flight := (net.socks dst).flight.push
      (flightHeader deliverAt kind (parts.map List.length).sum ++
        parts.flatten)
    flStream := (net.socks dst).flStream +
      if kind = .bytes then (parts.map List.length).sum else 0
    fins := (net.socks dst).fins + if kind = .fin then 1 else 0 }, ?_, ?_⟩
  · cases kind <;>
      simp [modifySock, flightPush, setNextDue, setInFlight, Sock.pushFlight,
        Sock.addStream, Sock.countFin]
  · exact ⟨rfl, Nat.le_refl _, Nat.le_add_right _ _, Nat.le_add_right _ _,
      .inr ⟨rfl, rfl, rfl⟩⟩

theorem Attends.refl (d : Sock) : Attends d d :=
  ⟨rfl, Nat.le_refl _, Nat.le_refl _, Nat.le_refl _, .inr ⟨rfl, rfl, rfl⟩⟩

theorem launch_socks
    (net : Net)
    (dst : SockId)
    (deliverAt : Nat)
    (payload : Payload) :
    ∃ d', (net.launch dst deliverAt payload).1.socks =
        Function.update net.socks dst d' ∧ Attends (net.socks dst) d' := by
  have nothing : ∃ d', net.socks = Function.update net.socks dst d' ∧
      Attends (net.socks dst) d' :=
    ⟨net.socks dst, by simp, .refl _⟩
  unfold launch
  cases payload with
  | fin => exact launchRecord_socks (net.noteSub _ _) _ _ _ _
  | bytes data =>
      simp only
      split
      · exact nothing
      · exact launchRecord_socks ((net.noteSub _ _).noteSub _ _) _ _ _ _
  | datagram source data =>
      simp only
      split
      · exact nothing
      · exact launchRecord_socks (net.noteSub _ _) _ _ _ _

/-- A delivery touches its destination only. -/
theorem deliver_socks
    (net : Net)
    (srcHost : Nat)
    (dst : SockId)
    (payload : Payload) :
    ∃ d', (net.deliver srcHost dst payload).1.socks =
        Function.update net.socks dst d' ∧ Attends (net.socks dst) d' := by
  unfold deliver
  simp only
  split
  · exact arrive_socks net dst payload
  · exact launch_socks (net.noteAdd _ _) dst _ payload

/-- What is delivered is announced. -/
theorem Announces.deliver
    (net : Net)
    (srcHost : Nat)
    (dst : SockId)
    (payload : Payload) :
    Announces net (net.deliver srcHost dst payload).1 := by
  obtain ⟨d', socks, attends⟩ := net.deliver_socks srcHost dst payload
  have at' (i : SockId) :
      (net.deliver srcHost dst payload).1.socks i =
        if i = dst then d' else net.socks i := by
    rw [socks, Function.update_apply]
  have shown := attends.shown
  have wrEvents := attends.wrEvents
  apply Announces.of_control (control_deliver net srcHost dst payload)
  · intro i
    rw [at' i]
    split
    · next same => subst same; omega
    · exact Nat.le_refl _
  · intro i
    rw [at' i]
    split
    · next same => subst same; omega
    · exact Nat.le_refl _
  · intro i _ arrived
    rw [at' i] at arrived ⊢
    split at arrived
    · next same =>
        subst same
        rw [if_pos rfl]
        rcases shown with bumped | ⟨-, rx, fin⟩
        · exact .inr (by omega)
        · rw [rx, fin] at arrived
          exact .inl arrived
    · exact .inl arrived
  · intro i j _ _ _ opened
    left
    by_cases same : j = dst
    · subst same
      have lower : (net.deliver srcHost j payload).1.window j ≤
          net.window j := by
        apply window_le
        · rw [at' j, if_pos rfl]; exact attends.rx
        · rw [at' j, if_pos rfl]; exact attends.flight
        · rw [at' j, if_pos rfl]; exact attends.flStream
      omega
    · rw [@window_congr net _ j (by rw [at' j, if_neg same])] at opened
      exact opened

/-- Nothing that readiness looks at changes. -/
theorem Announces.of_same
    (same : ∀ i, later.socks i = net.socks i) : Announces net later where
  kind i _ _ := by rw [same i]
  rdLe i _ _ := by rw [same i]
  wrLe i _ _ := by rw [same i]
  read i _ _ _ _ ready := by
    left
    unfold readable at ready ⊢
    rwa [same i] at ready
  write i _ _ _ _ ready := by
    left
    rw [writable_iff_answers] at ready ⊢
    unfold Answers at ready ⊢
    rw [same i] at ready
    refine ready.imp_right (Or.imp_right fun answers far linkedTo => ?_)
    have := answers far linkedTo
    rwa [same far, @window_congr net _ far (same far)] at this

theorem Announces.refl (net : Net) : Announces net net :=
  .of_same fun _ => rfl

/-- Who is connected to a connected socket is its own far end. -/
theorem Wired.farEnd_back
    (wired : net.Wired)
    {i j : SockId}
    (connected : (net.socks i).state = .connected)
    (linkedTo : (net.socks i).farEnd = some j) :
    (net.socks j).farEnd = some i ∧ (net.socks j).kind = .stream := by
  obtain ⟨k, there, back, -, state⟩ := wired.paired i (.inl connected)
  obtain rfl : k = j := Option.some.inj (there.symm.trans linkedTo)
  refine ⟨back, wired.streams k ?_⟩
  rcases state with isConnected | ⟨isClosed, -⟩
  · exact .inr (.inl isConnected)
  · exact .inr (.inr isClosed)

/-- Reading makes room, and whoever waits for it is told. -/
theorem Announces.of_reading
    (same : later.control = net.control)
    (others : ∀ i ≠ sock, ∃ events,
      later.socks i = { net.socks i with wrEvents := events } ∧
        (net.socks i).wrEvents ≤ events)
    (reader : ∃ rx events,
      later.socks sock = { net.socks sock with rx := rx, wrEvents := events } ∧
        rx.len ≤ (net.socks sock).rx.len ∧
        (net.socks sock).wrEvents ≤ events)
    (told : ∀ i, (net.socks i).state = .connected →
      (net.socks i).farEnd = some sock →
      (net.socks i).wrEvents < (later.socks i).wrEvents) :
    Announces net later := by
  obtain ⟨rx, events, record, less, more⟩ := reader
  apply Announces.of_control same
  · intro i
    by_cases isSock : i = sock
    · subst isSock
      rw [record]
    · obtain ⟨other, unchanged, -⟩ := others i isSock
      rw [unchanged]
  · intro i
    by_cases isSock : i = sock
    · subst isSock
      rw [record]
      exact more
    · obtain ⟨other, unchanged, up⟩ := others i isSock
      rw [unchanged]
      exact up
  · intro i _ arrived
    left
    by_cases isSock : i = sock
    · subst isSock
      rw [record] at arrived
      exact arrived.imp_left fun some => Nat.lt_of_lt_of_le some less
    · obtain ⟨other, unchanged, -⟩ := others i isSock
      rw [unchanged] at arrived
      exact arrived
  · intro i j connected linkedTo _ opened
    by_cases isSock : j = sock
    · subst isSock
      exact .inr (told i connected linkedTo)
    · left
      obtain ⟨other, unchanged, -⟩ := others j isSock
      unfold window at opened ⊢
      rw [unchanged] at opened
      exact opened

theorem Announces.recv
    (wired : net.Wired)
    (sock : SockId)
    (room : Nat)
    (peek : Bool) : Announces net (net.recv sock room peek).1 := by
  have control := net.control_recv sock room peek
  unfold Net.recv at control ⊢
  simp only at control ⊢
  split
  · exact .refl net
  · split
    · split <;> exact .refl net
    · split
      · exact .refl net
      · next state data looks =>
          rw [if_neg state, if_neg data, if_neg looks] at control
          cases linkedTo : (net.socks sock).farEnd with
          | none =>
              rw [linkedTo] at control
              apply @Announces.of_reading net _ sock control
              · intro i different
                refine ⟨_, modifySock_socks_of_ne _ _ different, Nat.le_refl _⟩
              · refine ⟨_, _, modifySock_socks_self _ _ _, ?_, Nat.le_refl _⟩
                exact Nat.sub_le _ _
              · intro i connected linked
                have back := (wired.farEnd_back connected linked).1
                rw [linkedTo] at back
                cases back
          | some sender =>
              rw [linkedTo] at control
              apply @Announces.of_reading net _ sock control
              · intro i different
                rw [modifySock_socks]
                split
                · next isSender =>
                    subst isSender
                    refine ⟨_, ?_, Nat.le_succ _⟩
                    rw [ringSkip, modifySock_socks_of_ne _ _ different]
                    rfl
                · refine ⟨_, modifySock_socks_of_ne _ _ different,
                    Nat.le_refl _⟩
              · rw [modifySock_socks]
                split
                · next isSender =>
                    subst isSender
                    rw [ringSkip, modifySock_socks_self]
                    refine ⟨_, _, rfl, ?_, Nat.le_succ _⟩
                    exact Nat.sub_le _ _
                · refine ⟨_, _, modifySock_socks_self _ _ _, ?_, Nat.le_refl _⟩
                  exact Nat.sub_le _ _
              · intro i connected linked
                obtain rfl : sender = i := by
                  have back := (wired.farEnd_back connected linked).1
                  rw [linkedTo] at back
                  exact Option.some.inj back
                rw [modifySock_socks_self, ringSkip, modifySock_socks]
                split
                · next isSock => rw [isSock]; exact Nat.lt_succ_self _
                · exact Nat.lt_succ_self _

/-- Nobody waits for the window of a datagram socket. -/
theorem Announces.recvDgram
    (wired : net.Wired)
    (dgram : (net.socks sock).kind = .dgram)
    (room : Nat)
    (peek : Bool) : Announces net (net.recvDgram sock room peek).1 := by
  have control := net.control_recvDgram sock room peek
  unfold Net.recvDgram at control ⊢
  simp only at control ⊢
  split
  · exact .refl net
  · next data =>
      rw [if_neg data] at control
      split
      · exact .refl net
      · next roomy =>
        rw [if_neg roomy] at control
        cases peek with
        | true => exact .refl net
        | false =>
            apply @Announces.of_reading net _ sock control
            · intro i different
              exact ⟨_, modifySock_socks_of_ne _ _ different, Nat.le_refl _⟩
            · refine ⟨_, _, modifySock_socks_self _ _ _, ?_, Nat.le_refl _⟩
              exact Nat.sub_le _ _
            · intro i connected linked
              have := (wired.farEnd_back connected linked).2
              rw [dgram] at this
              cases this

/-! ## Landings -/

/-- The event counters of a socket. -/
def events (net : Net) (i : SockId) : Nat × Nat :=
  ((net.socks i).rdEvents, (net.socks i).wrEvents)

theorem events_modifySock
    {change : Sock → Sock}
    (kept : ∀ d, (change d).rdEvents = d.rdEvents ∧
      (change d).wrEvents = d.wrEvents)
    (net : Net)
    (sock : SockId) : (net.modifySock sock change).events = net.events := by
  funext i
  unfold events
  rw [modifySock_socks]
  split
  · next same => rw [same, (kept _).1, (kept _).2]
  · rfl

@[simp] theorem events_ringPush
    (net : Net)
    (sock : SockId)
    (bytes : List UInt8) : (net.ringPush sock bytes).events = net.events :=
  @events_modifySock (.pushRx bytes) (fun _ => ⟨rfl, rfl⟩) net sock

@[simp] theorem events_flightSkip (net : Net) (sock : SockId) (count : Nat) :
    (net.flightSkip sock count).events = net.events :=
  @events_modifySock (.skipFlight count) (fun _ => ⟨rfl, rfl⟩)
    (net.noteSub (net.socks sock).flight.len count) sock

@[simp] theorem events_setFin (net : Net) (sock : SockId) :
    (net.modifySock sock .setFin).events = net.events :=
  @events_modifySock .setFin (fun _ => ⟨rfl, rfl⟩) net sock

@[simp] theorem events_subStream (net : Net) (sock : SockId) (len : Nat) :
    (net.modifySock sock (.subStream len)).events = net.events :=
  @events_modifySock (.subStream len) (fun _ => ⟨rfl, rfl⟩) net sock

@[simp] theorem events_noteSub (net : Net) (a b : Nat) :
    (net.noteSub a b).events = net.events := rfl

@[simp] theorem events_setInFlight (net : Net) (inFlight : Nat) :
    (net.setInFlight inFlight).events = net.events := rfl

@[simp] theorem events_countBytes (net : Net) (n : Nat) :
    (net.countBytes n).events = net.events := rfl

@[simp] theorem events_countDropped (net : Net) :
    net.countDropped.events = net.events := rfl

@[simp] theorem events_land (net : Net) (sock : SockId) (n : Nat) :
    (net.land sock n).events = net.events := by
  suffices ∀ fuel n, ∀ net : Net,
      (landChunks fuel net sock n).events = net.events from this n n net
  intro fuel
  induction fuel with
  | zero => exact fun _ _ => rfl
  | succ fuel inductionHypothesis =>
      intro n net
      unfold landChunks
      split
      · rw [inductionHypothesis, events_ringPush, events_flightSkip]
      · rfl

theorem events_readEvent (net : Net) (sock i : SockId) :
    (net.modifySock sock .readEvent).events i =
      ((net.events i).1 + (if i = sock then 1 else 0), (net.events i).2) := by
  unfold events
  rw [modifySock_socks]
  split
  · next same => rw [same]; rfl
  · rfl

theorem events_noteLanded (net : Net) (sock i : SockId) :
    (net.noteLanded sock).events i =
      ((net.events i).1, (net.events i).2 +
        if (net.socks sock).state = .connected ∧
            (net.socks sock).farEnd = some i then 1 else 0) := by
  unfold noteLanded
  simp only
  cases linkedTo : (net.socks sock).farEnd with
  | none => simp
  | some sender =>
      simp only [Option.some.injEq]
      by_cases connected : (net.socks sock).state = .connected
      · rw [if_pos connected]
        unfold events
        rw [modifySock_socks]
        by_cases same : i = sender
        · subst same
          simp [connected, Sock.writeEvent]
        · simp [same, Ne.symm same]
      · simp [connected]

/-- What a landing shows: something arrived at its socket, and for stream bytes
the window of the far end may have opened. -/
theorem events_landHead
    (net : Net)
    (sock : SockId)
    (header : List UInt8)
    (i : SockId) :
    (net.landHead sock header).events i =
      ((net.events i).1 + (if i = sock then 1 else 0),
        (net.events i).2 +
          if headerKind header ≠ kFin ∧ headerKind header = kBytes ∧
              (net.socks sock).state = .connected ∧
              (net.socks sock).farEnd = some i then 1 else 0) := by
  unfold landHead
  simp only
  by_cases isFin : headerKind header = kFin
  · rw [if_pos isFin, events_setFin, events_readEvent]
    simp [isFin]
  · rw [if_neg isFin]
    by_cases isBytes : headerKind header = kBytes
    · rw [if_pos isBytes]
      generalize landed : Net.countBytes _ _ = before
      have control : before.control = net.control := by
        rw [← landed]
        simp
      have events : before.events i =
          ((net.events i).1 + (if i = sock then 1 else 0), (net.events i).2) := by
        rw [← landed, events_countBytes, events_subStream, events_noteSub,
          events_land, events_readEvent, events_setInFlight, events_noteSub,
          events_flightSkip]
      obtain ⟨state, -, farEnd, -⟩ := fields_of_control control sock
      rw [events_noteLanded, events, state, farEnd]
      have isNotFin : kBytes ≠ kFin := by decide
      simp only [isNotFin, isBytes, ne_eq, not_false_eq_true, true_and]
    · rw [if_neg isBytes]
      split
      · rw [events_countBytes, events_land, events_noteSub, events_readEvent]
        simp [isBytes]
      · rw [events_countDropped, events_flightSkip, events_noteSub,
          events_readEvent]
        simp [isBytes]

/-- A record lands: what shows bumps a counter, and so does a window that
opens. -/
theorem Announces.landHead
    (wired : net.Wired)
    (ok : (net.socks sock).traffic.Ok)
    {r : FlightRecord}
    {rest : List FlightRecord}
    (head : (net.socks sock).traffic.records = r :: rest)
    (counted : 0 < net.inFlight) :
    Announces net (net.landHead sock
      (flightHeader r.due r.kind r.payload.length)) := by
  obtain ⟨t', landed, accounts⟩ := landHead_spec ok head counted
  obtain ⟨later, isLater⟩ : ∃ later, later = net.landHead sock
    (flightHeader r.due r.kind r.payload.length) := ⟨_, rfl⟩
  have control : later.control = net.control := by
    rw [isLater]
    exact net.control_landHead sock _
  have shown (i : SockId) := net.events_landHead sock
    (flightHeader r.due r.kind r.payload.length) i
  rw [← isLater] at accounts shown ⊢
  have rdEvents (i : SockId) := congrArg Prod.fst (shown i)
  have wrEvents (i : SockId) := congrArg Prod.snd (shown i)
  simp only [events] at rdEvents wrEvents
  have atSock : (later.socks sock).traffic = t' := by
    have view := congrArg (fun a : Accounts => a.socks sock) accounts
    exact view.trans (Accounts.put_socks_self _ sock t')
  have elsewhere : ∀ i ≠ sock,
      (later.socks i).traffic = (net.socks i).traffic := by
    intro i different
    have view := congrArg (fun a : Accounts => a.socks i) accounts
    exact view.trans (Accounts.put_socks_of_ne _ t' different)
  apply Announces.of_control control
  · intro i
    rw [rdEvents i]
    omega
  · intro i
    rw [wrEvents i]
    omega
  · intro i _ arrived
    by_cases isSock : i = sock
    · right
      rw [rdEvents i, if_pos isSock]
      omega
    · have same := elsewhere i isSock
      have rx := congrArg (fun t : Traffic => t.rx.len) same
      have fin := congrArg Traffic.fin same
      left
      change (later.socks i).rx.len = (net.socks i).rx.len at rx
      change (later.socks i).fin = (net.socks i).fin at fin
      rwa [rx, fin] at arrived
  · intro i j connected linkedTo farConnected opened
    by_cases isSock : j = sock
    swap
    · left
      rwa [window_of_traffic (elsewhere j isSock)] at opened
    subst isSock
    obtain ⟨back, stream⟩ := wired.farEnd_back connected linkedTo
    have kind := headerKind_flightHeader r.due r.kind r.payload.length
    have notDgram := ok.streams (by
      change (net.socks j).kind ≠ .dgram
      rw [stream]
      decide) r (by rw [head]; simp)
    cases isKind : r.kind with
    | dgram => exact absurd isKind notDgram
    | bytes =>
        -- The far end is told of the room that the header leaves.
        right
        rw [wrEvents i, kind, isKind, if_pos ⟨by decide, by decide,
          farConnected, back⟩]
        omega
    | fin =>
        -- A FIN is the last record and leaves no more room than there was.
        left
        have last : rest = [] := by
          by_contra more
          have := ok.lastFin r (by
            rw [head, List.dropLast_cons_of_ne_nil more]
            simp)
          exact this isKind
        have nothing := ok.finPayload r (by rw [head]; simp) isKind
        have long := landed.flight_len ok
        have flight : t'.flight.len = 0 := by
          have := landed.flight
          rw [last] at this
          rwa [← RingBuffer.contents_eq_nil_iff]
        have rx : t'.rx.len = (net.socks j).traffic.rx.len := by
          rcases landed.rx with moved | ⟨isDgram, -⟩
          · rw [nothing, List.append_nil] at moved
            rw [← RingBuffer.length_contents, moved,
              RingBuffer.length_contents]
          · rw [isKind] at isDgram
            cases isDgram
        have flStream := landed.flStream
        rw [isKind] at flStream
        rw [nothing, flight] at long
        have laterRx := congrArg (fun t : Traffic => t.rx.len) atSock
        have laterFlight := congrArg (fun t : Traffic => t.flight.len) atSock
        have laterStream := congrArg Traffic.flStream atSock
        simp only [Sock.traffic] at laterRx laterFlight laterStream rx
        simp only [Sock.traffic] at flStream long
        have least : flightHeaderLen = 13 := by decide
        have left : ringSize - 13 - 2 * flightHeaderLen = 65497 := by decide
        simp only [List.length_nil, least] at long
        have room : (net.socks j).flight.len = 13 := by omega
        have closing : later.window j =
            ringSize - (net.socks j).rx.len - (net.socks j).flStream := by
          simp only [window]
          rw [laterRx, laterFlight, laterStream, rx, flStream, if_pos flight]
          simp
        have before : net.window j =
            min (ringSize - (net.socks j).rx.len - (net.socks j).flStream)
              65497 := by
          simp only [window]
          rw [room, left]
          simp
        omega

/-- Traffic opens no socket and closes none. -/
theorem open_of_control
    (same : later.control = net.control)
    (i : SockId) : (later.socks i).Open ↔ (net.socks i).Open := by
  unfold Sock.Open
  rw [(fields_of_control same i).1]

theorem Heeds.trans_control
    (first : Heeds deaf mute net middle)
    (second : Heeds deaf mute middle later)
    (same : middle.control = net.control) : Heeds deaf mute net later :=
  first.trans second fun i before _ => (open_of_control same i).mpr before

/-- Everything due at one socket lands. -/
theorem Announces.landDue
    {now fuel next : Nat}
    (wired : net.Wired)
    (counted : net.accounts.Counted) :
    Announces net (landDue now fuel net sock next).1 := by
  induction fuel generalizing net with
  | zero => exact .refl net
  | succ fuel inductionHypothesis =>
      have ok := counted.rings sock
      unfold Net.landDue
      split
      swap
      · exact .refl net
      · next more =>
          cases head : (net.socks sock).traffic.records with
          | nil =>
              have := ok.records_eq_nil_iff.mp head
              change (net.socks sock).flight.len = 0 at this
              omega
          | cons r rest =>
              obtain ⟨header, -, -⟩ := flightPeek_head ok head
              simp only
              split
              · exact .refl net
              · next isDue =>
                  rw [header, headerDue_flightHeader r.due_lt, not_lt] at isDue
                  rw [header]
                  obtain ⟨t', landed, moved⟩ :=
                    landHead_spec ok head (counted.inFlight_pos head)
                  have land : Accounts.Land now net.accounts
                      (net.landHead sock (flightHeader r.due r.kind
                        r.payload.length)).accounts := by
                    rw [moved]
                    exact .head landed isDue
                  have control := net.control_landHead sock
                    (flightHeader r.due r.kind r.payload.length)
                  have first := Announces.landHead wired ok head
                    (counted.inFlight_pos head)
                  exact first.trans_control (inductionHypothesis
                    (wired.of_control control) (counted.land land)) control

/-- What becomes due is announced. -/
theorem Announces.advance
    (wired : net.Wired)
    (counted : net.accounts.Counted)
    (now : Nat) : Announces net (net.advance now).1 := by
  have slots : ∀ (slots : List SockId) (state : Net × Nat),
      state.1.Wired → state.1.accounts.Counted →
      Announces state.1 (slots.foldl (advanceSock now) state).1 := by
    intro slots
    induction slots with
    | nil => exact fun state _ _ => .refl state.1
    | cons slot slots inductionHypothesis =>
        intro state wired counted
        rw [List.foldl_cons]
        have control : (advanceSock now state slot).1.control =
            state.1.control := control_landDue now _ state.1 slot state.2
        have first : Announces state.1 (advanceSock now state slot).1 :=
          .landDue wired counted
        exact first.trans_control (inductionHypothesis _
          (wired.of_control control)
          (counted.lands (landDue_spec counted (Nat.le_refl _)).1)) control
  unfold Net.advance
  simp only
  split
  · exact .of_same fun _ => rfl
  · have all := slots (List.finRange maxSockets)
      (net.setNow now, 2 ^ 64 - 1) (wired.of_control (control_setNow net now))
      ⟨counted.rings, counted.counted, counted.noUnderflow⟩
    have before : Announces net (net.setNow now) :=
      Announces.of_same fun _ => rfl
    have landed := before.trans_control all (control_setNow net now)
    generalize (List.finRange maxSockets).foldl (advanceSock now)
      (net.setNow now, 2 ^ 64 - 1) = result at landed ⊢
    have noted : Announces result.1 (result.1.setNextDue result.2) :=
      Announces.of_same fun _ => rfl
    exact landed.trans noted fun i _ after => after

/-! ## Releasing sockets -/

/-- Sockets are let go, and the far ends that are left are told. -/
theorem Announces.of_states
    (traffic : ∀ i, (later.socks i).traffic = (net.socks i).traffic)
    (shutRd : ∀ i, (later.socks i).shutRd = (net.socks i).shutRd)
    (record : ∀ i, (later.socks i).Open → ∃ events,
      later.socks i = { net.socks i with wrEvents := events } ∧
        (net.socks i).wrEvents ≤ events)
    (told : ∀ i j, (later.socks i).Open → (net.socks i).state = .connected →
      (net.socks i).farEnd = some j →
      (later.socks j).state = (net.socks j).state ∨
        (net.socks i).wrEvents < (later.socks i).wrEvents) :
    Announces net later where
  kind i _ after := by
    obtain ⟨events, same, -⟩ := record i after
    rw [same]
  rdLe i _ after := by
    obtain ⟨events, same, -⟩ := record i after
    rw [same]
  wrLe i _ after := by
    obtain ⟨events, same, more⟩ := record i after
    rw [same]
    exact more
  read i _ after _ _ ready := by
    obtain ⟨events, same, -⟩ := record i after
    left
    unfold readable at ready ⊢
    rwa [same] at ready
  write i _ after _ _ ready := by
    obtain ⟨events, same, -⟩ := record i after
    have tells := told i
    rw [writable_iff_answers, same] at ready
    rw [writable_iff_answers]
    by_cases connected : (net.socks i).state = .connected
    · cases linkedTo : (net.socks i).farEnd with
      | none => exact .inl (.inr (.inr fun far none => by cases none))
      | some j =>
          simp only [linkedTo, Option.some.injEq, forall_eq'] at ready ⊢
          rcases tells j after connected linkedTo with kept | bumped
          · unfold Answers at ready ⊢
            rw [kept, shutRd j, window_of_traffic (traffic j)] at ready
            exact .inl ready
          · exact .inr bumped
    · exact .inl (.inl connected)

/-- Whoever is connected to a socket in use is its far end. -/
theorem Linked.backOf
    {pending : Finset SockId}
    {queues : SockId → List SockId}
    (linked : net.Linked pending queues)
    {i j : SockId}
    (connected : (net.socks i).state = .connected)
    (linkedTo : (net.socks i).farEnd = some j) :
    (net.socks j).farEnd = some i ∧
      ((net.socks j).state = .connected ∨ (net.socks j).state = .closed) := by
  obtain ⟨k, there, back, -, state⟩ := linked.paired i (.inl connected)
  obtain rfl : k = j := Option.some.inj (there.symm.trans linkedTo)
  exact ⟨back, state.imp_right And.left⟩

/-- A socket that nobody is connected to is let go. -/
theorem Announces.setState
    {pending : Finset SockId}
    {queues : SockId → List SockId}
    (linked : net.Linked pending queues)
    (apart : (net.socks sock).state ≠ .connected)
    (isOver : (net.socks sock).state ≠ .closed) :
    Announces net (net.setState sock .free) := by
  have gone : ¬((net.setState sock .free).socks sock).Open := by
    unfold Net.setState
    rw [modifySock_socks_self]
    exact fun isOpen => isOpen.1 rfl
  have others : ∀ i ≠ sock,
      (net.setState sock .free).socks i = net.socks i :=
    fun i different => modifySock_socks_of_ne _ _ different
  apply Announces.of_states
  · exact traffic_of_accounts (accounts_setState net sock .free)
  · intro i
    by_cases same : i = sock
    · subst same
      unfold Net.setState
      rw [modifySock_socks_self]
      rfl
    · rw [others i same]
  · intro i after
    by_cases same : i = sock
    · exact absurd (same ▸ after) gone
    · exact ⟨_, others i same, Nat.le_refl _⟩
  · intro i j _ connected linkedTo
    left
    by_cases same : j = sock
    · subst same
      rcases (Linked.backOf linked connected linkedTo).2 with state | state
      · exact absurd state apart
      · exact absurd state isOver
    · rw [others j same]

/-- Two ends of a connection are let go together. -/
theorem Announces.freeBoth
    {pending : Finset SockId}
    {queues : SockId → List SockId}
    (linked : net.Linked pending queues)
    (linkedTo : (net.socks src).farEnd = some dst)
    (connected : (net.socks src).state = .connected)
    (closed : (net.socks dst).state = .closed) :
    Announces net ((net.setState dst .free).setState src .free) := by
  obtain ⟨later, isLater⟩ : ∃ later, later =
    (net.setState dst .free).setState src .free := ⟨_, rfl⟩
  have states : ∀ i, later.socks i = net.socks i ∨
      (i = src ∨ i = dst) ∧ later.socks i = (net.socks i).setState .free := by
    intro i
    rw [isLater]
    unfold Net.setState
    rw [modifySock_socks, modifySock_socks, modifySock_socks]
    by_cases isSrc : i = src
    · subst isSrc
      right
      rw [if_pos rfl]
      split
      · next same => rw [← same]; exact ⟨.inl rfl, rfl⟩
      · exact ⟨.inl rfl, rfl⟩
    · rw [if_neg isSrc]
      by_cases isDst : i = dst
      · subst isDst
        rw [if_pos rfl]
        exact .inr ⟨.inr rfl, rfl⟩
      · rw [if_neg isDst]
        exact .inl rfl
  rw [← isLater]
  have kept : ∀ i, (later.socks i).Open → later.socks i = net.socks i := by
    intro i isOpen
    rcases states i with same | ⟨-, freed⟩
    · exact same
    · rw [freed] at isOpen
      exact absurd rfl isOpen.1
  apply Announces.of_states
  · intro i
    rcases states i with same | ⟨-, freed⟩
    · rw [same]
    · rw [freed]
      rfl
  · intro i
    rcases states i with same | ⟨-, freed⟩
    · rw [same]
    · rw [freed]
      rfl
  · exact fun i isOpen => ⟨_, kept i isOpen, Nat.le_refl _⟩
  · intro i j isOpen isConnected linked'
    left
    rcases states j with same | ⟨which, -⟩
    · rw [same]
    · -- The two are connected to each other, and neither is left.
      exfalso
      obtain ⟨back, -⟩ := Linked.backOf linked isConnected linked'
      rcases which with rfl | rfl
      · rw [linkedTo] at back
        obtain rfl := Option.some.inj back
        rw [closed] at isConnected
        cases isConnected
      · obtain ⟨there, -⟩ := Linked.backOf linked connected linkedTo
        rw [there] at back
        obtain rfl := Option.some.inj back
        rcases states src with same | ⟨-, freed⟩
        · have := kept src isOpen
          rw [isLater] at this
          have state := congrArg Sock.state this
          unfold Net.setState at state
          rw [modifySock_socks_self] at state
          rw [connected] at state
          cases state
        · rw [freed] at isOpen
          exact isOpen.1 rfl

/-- One end of a connection is closed, and the other is told. -/
theorem Announces.close
    {pending : Finset SockId}
    {queues : SockId → List SockId}
    (linked : net.Linked pending queues)
    (linkedTo : (net.socks src).farEnd = some dst)
    (apart : src ≠ dst) :
    Announces net ((net.modifySock dst .writeEvent).setState src .closed) := by
  obtain ⟨later, isLater⟩ : ∃ later, later =
    (net.modifySock dst .writeEvent).setState src .closed := ⟨_, rfl⟩
  have atSrc : later.socks src = (net.socks src).setState .closed := by
    rw [isLater, Net.setState, modifySock_socks_self,
      modifySock_socks_of_ne _ _ apart]
  have atDst : later.socks dst = (net.socks dst).writeEvent := by
    rw [isLater, Net.setState, modifySock_socks_of_ne _ _ apart.symm,
      modifySock_socks_self]
  have others : ∀ i, i ≠ src → i ≠ dst → later.socks i = net.socks i := by
    intro i notSrc notDst
    rw [isLater, Net.setState, modifySock_socks_of_ne _ _ notSrc,
      modifySock_socks_of_ne _ _ notDst]
  rw [← isLater]
  have each (i : SockId) : i = src ∨ i = dst ∨ i ≠ src ∧ i ≠ dst := by tauto
  apply Announces.of_states
  · intro i
    rcases each i with rfl | rfl | ⟨notSrc, notDst⟩
    · rw [atSrc]; rfl
    · rw [atDst]; rfl
    · rw [others i notSrc notDst]
  · intro i
    rcases each i with rfl | rfl | ⟨notSrc, notDst⟩
    · rw [atSrc]; rfl
    · rw [atDst]; rfl
    · rw [others i notSrc notDst]
  · intro i isOpen
    rcases each i with rfl | rfl | ⟨notSrc, notDst⟩
    · rw [atSrc] at isOpen
      exact absurd rfl isOpen.2
    · exact ⟨_, atDst, Nat.le_succ _⟩
    · exact ⟨_, others i notSrc notDst, Nat.le_refl _⟩
  · intro i j _ connected linked'
    by_cases isSrc : j = src
    · subst isSrc
      obtain ⟨back, -⟩ := Linked.backOf linked connected linked'
      rw [linkedTo] at back
      obtain rfl := Option.some.inj back
      rw [atDst]
      exact .inr (Nat.lt_succ_self _)
    · left
      rcases each j with rfl | rfl | ⟨notSrc, notDst⟩
      · exact absurd rfl isSrc
      · rw [atDst]; rfl
      · rw [others j notSrc notDst]

theorem StatesOnly.opens
    (same : StatesOnly net later)
    {i : SockId}
    (isOpen : (later.socks i).Open) : (net.socks i).Open := by
  rcases same.states i with kept | gone | gone
  · unfold Sock.Open at isOpen ⊢
    rwa [kept] at isOpen
  · exact absurd gone isOpen.1
  · exact absurd gone isOpen.2

/-- Letting sockets go opens none. -/
theorem Heeds.trans_statesOnly
    (first : Heeds deaf mute net middle)
    (second : Heeds deaf mute middle later)
    (same : StatesOnly middle later) : Heeds deaf mute net later :=
  first.trans second fun _ _ after => same.opens after

/-- An end of a connection hangs up. -/
theorem Announces.hangUp
    {pending : Finset SockId}
    {queues : SockId → List SockId}
    (linked : net.Linked pending queues)
    (linkedTo : (net.socks src).farEnd = some dst)
    (apart : src ≠ dst)
    (srcHost : Nat) :
    Announces net (((net.deliver srcHost dst .fin).1.modifySock dst
      .writeEvent).setState src .closed) := by
  have control := control_deliver net srcHost dst .fin
  have farEnd := (fields_of_control control src).2.2.1
  have delivered := Announces.deliver net srcHost dst .fin
  have closing := Announces.close (linked.of_control control)
    (farEnd.trans linkedTo) apart
  exact delivered.trans_statesOnly closing
    ((StatesOnly.of_control (control_writeEvent _ dst)).trans
      (StatesOnly.setState _ src (.inr rfl)))

theorem Announces.resetQueued
    {pending : Finset SockId}
    {queues : SockId → List SockId}
    (linked : net.Linked pending queues)
    (connected : (net.socks far).state = .connected) :
    Announces net (net.resetQueued far) := by
  obtain ⟨near, linkedTo, -, apart, -⟩ := linked.paired far (.inl connected)
  unfold Net.resetQueued
  rw [linkedTo]
  simp only
  split
  · next closed => exact Announces.freeBoth linked linkedTo connected closed
  · exact Announces.hangUp linked linkedTo apart _

theorem Announces.foldl_resetQueued
    {pending : Finset SockId}
    {queues : SockId → List SockId}
    {listener : SockId}
    (queue : List SockId)
    (linked : net.Linked pending queues)
    (listening : (net.socks listener).state = .listening)
    (queueIs : queues listener = queue) :
    Announces net (queue.foldl Net.resetQueued net) := by
  induction queue generalizing net queues with
  | nil => exact .refl net
  | cons far rest inductionHypothesis =>
      have present : far ∈ queues listener := by rw [queueIs]; simp
      obtain ⟨connected, -⟩ := linked.queued listener far listening present
      obtain ⟨stillLinked, stillListening⟩ :=
        linked.resetQueued listening queueIs
      rw [List.foldl_cons]
      exact (Announces.resetQueued linked connected).trans_statesOnly
        (inductionHypothesis stillLinked stillListening
          (Function.update_self _ _ _))
        (StatesOnly.foldl_resetQueued rest _)

theorem Announces.releaseConnected
    {pending : Finset SockId}
    {queues : SockId → List SockId}
    (linked : net.Linked pending queues)
    (connected : (net.socks sock).state = .connected) :
    Announces net (net.releaseConnected sock) := by
  obtain ⟨peer, linkedTo, -, apart, -⟩ := linked.paired sock (.inl connected)
  unfold Net.releaseConnected
  rw [linkedTo]
  simp only
  split
  · next closed => exact Announces.freeBoth linked linkedTo connected closed
  · split
    · exact Announces.close linked linkedTo apart
    · exact Announces.hangUp linked linkedTo apart _

/-- A socket whose last descriptor is gone is let go. -/
theorem Announces.release
    {pending : Finset SockId}
    (linked : net.Linked pending net.backlogs)
    (isOpen : (net.socks sock).state ≠ .closed) :
    Announces net (net.release sock) := by
  have unnamed {later : Net} (released : Announces net later) :
      Announces net (later.setIdent sock 0) :=
    released.trans (Announces.of_same fun _ => rfl) fun _ _ after => after
  unfold Net.release
  apply unnamed
  split
  · next listening =>
      have reset := Announces.foldl_resetQueued (net.socks sock).backlog linked
        listening rfl
      obtain ⟨stillLinked, stillListening⟩ := Linked.foldl_resetQueued
        (net.socks sock).backlog linked listening rfl
      exact reset.trans_statesOnly
        (Announces.setState stillLinked (by rw [stillListening]; decide)
          (by rw [stillListening]; decide))
        (StatesOnly.setState _ sock (.inl rfl))
  · next connected => exact Announces.releaseConnected linked connected
  · next notListening notConnected =>
      exact Announces.setState linked notConnected isOpen

/-! ## References -/

/-- A change of a record that readiness does not look at. -/
theorem Announces.unseen
    {change : Sock → Sock}
    (kept : ∀ d, ∃ refs localName peer hasPeer, change d =
      { d with
        refs := refs, localName := localName, peer := peer,
        hasPeer := hasPeer })
    (net : Net)
    (sock : SockId) : Announces net (net.modifySock sock change) := by
  have fields (i : SockId) : ∃ refs localName peer hasPeer,
      (net.modifySock sock change).socks i =
        { net.socks i with
          refs := refs, localName := localName, peer := peer,
          hasPeer := hasPeer } := by
    rw [modifySock_socks]
    split
    · next same => subst same; exact kept _
    · exact ⟨_, _, _, _, rfl⟩
  constructor
  case kind => intro i _ _; obtain ⟨_, _, _, _, same⟩ := fields i; rw [same]
  case rdLe => intro i _ _; obtain ⟨_, _, _, _, same⟩ := fields i; rw [same]
  case wrLe => intro i _ _; obtain ⟨_, _, _, _, same⟩ := fields i; rw [same]
  case read =>
    intro i _ _ _ _ ready
    obtain ⟨_, _, _, _, same⟩ := fields i
    left
    unfold readable at ready ⊢
    rwa [same] at ready
  case write =>
    intro i _ _ _ _ ready
    obtain ⟨_, _, _, _, same⟩ := fields i
    left
    rw [writable_iff_answers, same] at ready
    rw [writable_iff_answers]
    refine ready.imp_right (Or.imp_right fun answers far linkedTo => ?_)
    have farAnswers := answers far linkedTo
    obtain ⟨_, _, _, _, farSame⟩ := fields far
    have window : (net.modifySock sock change).window far = net.window far :=
      window_of_traffic (by rw [farSame]; rfl)
    unfold Answers at farAnswers ⊢
    rwa [window, farSame] at farAnswers

end Net
end Derp
