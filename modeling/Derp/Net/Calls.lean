import Derp.Net.Lifecycle

/-!
# What the calls do

One inversion lemma per call says what it can do to the network.  Most calls
relabel a socket; the others take a slot, join two sockets, move a queue, or
pass payloads on.
-/

namespace Derp
namespace Net

variable
  {net later : Net}
  {sock listener far : SockId}

/-- A socket's labels change, and the hosts' next ports. -/
inductive Relabels (sock : SockId) : Net → Net → Prop
  | refl (net : Net) : Relabels sock net net
  | hosts {net later : Net} (hosts : List Host) :
      Relabels sock net later → Relabels sock net (later.setHosts hosts)
  | named {net later : Net} (addr : Addr) :
      Relabels sock net later →
      (later.socks sock).state = .new ∨ (later.socks sock).state = .bound →
      Relabels sock net (later.modifySock sock (.setLocal addr))
  | bound {net later : Net} (addr : Addr) :
      Relabels sock net later → (later.socks sock).state = .new →
      Relabels sock net (later.modifySock sock (.bindTo addr))
  | listening {net later : Net} (backlogMax : Nat) :
      Relabels sock net later →
      (later.socks sock).state = .bound ∨
        (later.socks sock).state = .listening →
      (later.socks sock).kind = .stream →
      Relabels sock net (later.modifySock sock (.listenWith backlogMax))
  | peer {net later : Net} (dest : Addr) :
      Relabels sock net later →
      Relabels sock net (later.modifySock sock (.setPeer dest))

theorem Relabels.trans
    {middle : Net}
    (first : Relabels sock net middle)
    (second : Relabels sock middle later) : Relabels sock net later := by
  induction second with
  | refl => exact first
  | hosts hosts _ inductionHypothesis =>
      exact inductionHypothesis.hosts hosts
  | named addr _ state inductionHypothesis =>
      exact inductionHypothesis.named addr state
  | bound addr _ state inductionHypothesis =>
      exact inductionHypothesis.bound addr state
  | listening backlogMax _ state kind inductionHypothesis =>
      exact inductionHypothesis.listening backlogMax state kind
  | peer dest _ inductionHypothesis => exact inductionHypothesis.peer dest

/-! ## Names -/

theorem ephemeralPort_net (net : Net) (host : Nat) (kind : Kind) :
    ∃ hosts, (net.ephemeralPort host kind).1 = net.setHosts hosts :=
  tryPorts_net _ net host kind

theorem relabels_bindName
    (isNew : (net.socks sock).state = .new)
    (addr : Addr) :
    Relabels sock net (net.bindName sock addr).1 ∧
      ((net.bindName sock addr).2 = .ok () →
        ((net.bindName sock addr).1.socks sock).state = .bound) := by
  unfold bindName
  dsimp only
  split
  · exact ⟨.refl net, by simp⟩
  · refine ⟨(Relabels.refl net).bound addr isNew, ?_⟩
    intro
    rw [modifySock_socks_self]
    rfl

theorem relabels_bind (net : Net) (sock : SockId) (addr : Addr) :
    Relabels sock net (net.bind sock addr).1 ∧
      ((net.bind sock addr).2 = .ok () →
        ((net.bind sock addr).1.socks sock).state = .bound) := by
  unfold bind
  dsimp only
  by_cases isNew : (net.socks sock).state = .new
  case neg => rw [if_pos isNew]; exact ⟨.refl net, by simp⟩
  rw [if_neg (by simpa using isNew)]
  split
  · exact ⟨.refl net, by simp⟩
  split
  · split
    · exact ⟨.refl net, by simp⟩
    split
    · obtain ⟨hosts, moved⟩ := net.ephemeralPort_net (net.socks sock).host
        (net.socks sock).kind
      revert moved
      cases net.ephemeralPort (net.socks sock).host (net.socks sock).kind with
      | mk middle answer =>
          rintro rfl
          have searched : Relabels sock net (net.setHosts hosts) :=
            (Relabels.refl net).hosts hosts
          cases answer with
          | error e => exact ⟨searched, by simp⟩
          | ok port =>
              obtain ⟨steps, state⟩ := @relabels_bindName
                (net.setHosts hosts) sock isNew { addr with port := port }
              exact ⟨searched.trans steps, state⟩
    · exact relabels_bindName isNew addr
  · exact relabels_bindName isNew addr

theorem relabels_startListening
    (isStream : (net.socks sock).kind = .stream)
    (backlog : Int) :
    Relabels sock net (net.startListening sock backlog).1 := by
  unfold startListening
  dsimp only
  split
  · exact .refl net
  · next state =>
      refine (Relabels.refl net).listening _ ?_ isStream
      grind

/-- Relabelling leaves alone what no label is. -/
theorem Relabels.view
    {α : Type*}
    {view : Sock → α}
    (setLocal : ∀ addr d, view (Sock.setLocal addr d) = view d)
    (bindTo : ∀ addr d, view (Sock.bindTo addr d) = view d)
    (listenWith : ∀ most d, view (Sock.listenWith most d) = view d)
    (setPeer : ∀ addr d, view (Sock.setPeer addr d) = view d)
    (relabels : Relabels sock net later)
    (other : SockId) :
    view (later.socks other) = view (net.socks other) := by
  have changed {middle : Net} {change : Sock → Sock}
      (kept : ∀ d, view (change d) = view d) :
      view ((middle.modifySock sock change).socks other) =
        view (middle.socks other) := by
    rw [modifySock_socks]
    split
    · next same => rw [same]; exact kept _
    · rfl
  induction relabels with
  | refl => rfl
  | hosts hosts _ inductionHypothesis => exact inductionHypothesis
  | named addr _ _ inductionHypothesis =>
      rw [changed (setLocal addr), inductionHypothesis]
  | bound addr _ _ inductionHypothesis =>
      rw [changed (bindTo addr), inductionHypothesis]
  | listening backlogMax _ _ _ inductionHypothesis =>
      rw [changed (listenWith backlogMax), inductionHypothesis]
  | peer dest _ inductionHypothesis =>
      rw [changed (setPeer dest), inductionHypothesis]

theorem Relabels.kind
    (relabels : Relabels sock net later)
    (other : SockId) :
    (later.socks other).kind = (net.socks other).kind :=
  Relabels.view (fun _ _ => rfl) (fun _ _ => rfl) (fun _ _ => rfl)
    (fun _ _ => rfl) relabels other

theorem Relabels.family
    (relabels : Relabels sock net later)
    (other : SockId) :
    (later.socks other).family = (net.socks other).family :=
  Relabels.view (fun _ _ => rfl) (fun _ _ => rfl) (fun _ _ => rfl)
    (fun _ _ => rfl) relabels other

/-- A listener stays one. -/
theorem Relabels.staysListening
    (relabels : Relabels sock net later)
    {other : SockId}
    (listening : (net.socks other).state = .listening) :
    (later.socks other).state = .listening := by
  induction relabels with
  | refl => exact listening
  | hosts hosts _ inductionHypothesis => exact inductionHypothesis
  | named addr _ _ inductionHypothesis =>
      rw [modifySock_socks]
      grind [Sock.setLocal]
  | bound addr _ state inductionHypothesis =>
      rw [modifySock_socks]
      grind [Sock.bindTo]
  | listening backlogMax _ _ _ inductionHypothesis =>
      rw [modifySock_socks]
      grind [Sock.listenWith]
  | peer dest _ inductionHypothesis =>
      rw [modifySock_socks]
      grind [Sock.setPeer]

theorem relabels_listen (net : Net) (sock : SockId) (backlog : Int) :
    Relabels sock net (net.listen sock backlog).1 := by
  unfold listen
  dsimp only
  split
  · exact .refl net
  · next isStream =>
      rw [not_not] at isStream
      split
      · split
        · exact .refl net
        · obtain ⟨steps, -⟩ := net.relabels_bind sock (Addr.inet 0 0)
          revert steps
          cases net.bind sock (Addr.inet 0 0) with
          | mk middle answer =>
              intro steps
              cases answer with
              | error e => exact steps
              | ok done =>
                  refine steps.trans (relabels_startListening ?_ backlog)
                  rw [steps.kind sock, isStream]
      · exact relabels_startListening isStream backlog

theorem relabels_bindIfNew (net : Net) (sock : SockId) :
    Relabels sock net (net.bindIfNew sock).1 := by
  unfold bindIfNew
  dsimp only
  split
  · exact (net.relabels_bind sock _).1
  · exact .refl net

theorem relabels_connectDgram
    (net : Net)
    (sock : SockId)
    (dest : Addr) : Relabels sock net (net.connectDgram sock dest).1 := by
  have steps := net.relabels_bindIfNew sock
  unfold connectDgram
  revert steps
  cases net.bindIfNew sock with
  | mk middle answer =>
      intro steps
      cases answer with
      | error e => exact steps
      | ok done => exact steps.peer dest

/-! ## Slots -/

/-- A new socket takes a free slot, or there is none. -/
theorem socket_net (net : Net) (host : Nat) (family : Family) (kind : Kind) :
    net.socket host family kind = (net, .error (.errno .enfile)) ∨
      ∃ i, (net.socks i).state = .free ∧
        net.socket host family kind =
          (((net.setIdent i 0).discardFlight i).modifySock i
            (.fresh host family kind), .ok i) := by
  unfold socket
  cases found : net.freeSlot with
  | none => exact .inl rfl
  | some i =>
      have isFree := List.find?_finRange_some found
      exact .inr ⟨i, by simpa using isFree, rfl⟩

/-- What a taken slot looks like from outside its rings. -/
theorem control_taken
    (net : Net)
    (i : SockId)
    (host : Nat)
    (family : Family)
    (kind : Kind) :
    (((net.setIdent i 0).discardFlight i).modifySock i
        (.fresh host family kind)).control =
      ((net.setIdent i 0).modifySock i (.fresh host family kind)).control :=
  control_modifySock_congr (by intro; rfl)
    (control_discardFlight (net.setIdent i 0) i) i

/-! ## Connections -/

theorem findListener_some
    {kind : Kind}
    {family : Family}
    {destHost : Nat}
    {dest : Addr}
    (found : net.findListener kind family destHost dest = some listener) :
    (net.socks listener).state = .listening ∧
      (net.socks listener).kind = kind := by
  have met := List.find?_finRange_some found
  simp only [Bool.and_eq_true, decide_eq_true_eq] at met
  exact ⟨met.1.1.1, met.1.2⟩

/-- The records after two sockets were joined and the far end was queued. -/
def joined
    (net : Net)
    (sock far listener : SockId)
    (farLocal nearLocal : Addr) : Net :=
  (((net.modifySock far (.linkFar farLocal nearLocal sock)).modifySock sock
    (.linkNear farLocal far)).modifySock listener (.enqueue far)).countConnection

/-- A connection takes a slot and joins it, or there is none. -/
theorem link_net
    (net : Net)
    (sock listener : SockId)
    (destHost : Nat)
    (dest : Addr) :
    net.link sock listener destHost dest = (net, .error (.errno .enfile)) ∨
      ∃ far farLocal nearLocal, (net.socks far).state = .free ∧
        net.link sock listener destHost dest =
          ((((net.setIdent far 0).discardFlight far).modifySock far
            (.fresh destHost (net.socks sock).family
              (net.socks sock).kind)).joined sock far listener farLocal
                nearLocal, .ok far) := by
  unfold link
  dsimp only
  rcases net.socket_net destHost (net.socks sock).family
      (net.socks sock).kind with refused | ⟨far, isFree, made⟩
  · rw [refused]
    exact .inl rfl
  · rw [made]
    exact .inr ⟨far, _, _, isFree, rfl⟩

/-- A connect relabels the socket and may then link it to a listener. -/
theorem connect_net
    (net : Net)
    (sock : SockId)
    (destHost : Nat)
    (dest : Addr) :
    (∃ e, Relabels sock net (net.connect sock destHost dest).1 ∧
        (net.connect sock destHost dest).2 = .error e) ∨
      ∃ listener middle, Relabels sock net middle ∧
        net.findListener (net.socks sock).kind (net.socks sock).family destHost
          dest = some listener ∧
        (net.socks listener).backlog.length < (net.socks listener).backlogMax ∧
        ((middle.socks sock).state = .new ∨
          (middle.socks sock).state = .bound) ∧
        (∀ other ≠ sock, middle.socks other = net.socks other) ∧
        net.connect sock destHost dest =
          middle.link sock listener destHost dest := by
  unfold connect
  dsimp only
  split
  · exact .inl ⟨_, .refl net, rfl⟩
  split
  · exact .inl ⟨_, .refl net, rfl⟩
  next unlinked =>
  have state : (net.socks sock).state = .new ∨
      (net.socks sock).state = .bound := by grind
  cases found : net.findListener (net.socks sock).kind (net.socks sock).family
      destHost dest with
  | none => exact .inl ⟨_, .refl net, rfl⟩
  | some listener =>
      dsimp only
      split
      · exact .inl ⟨_, .refl net, rfl⟩
      next room =>
      rw [not_le] at room
      split
      · obtain ⟨hosts, moved⟩ := net.ephemeralPort_net (net.socks sock).host
          (net.socks sock).kind
        revert moved
        cases net.ephemeralPort (net.socks sock).host
            (net.socks sock).kind with
        | mk middle answer =>
            rintro rfl
            have searched : Relabels sock net (net.setHosts hosts) :=
            (Relabels.refl net).hosts hosts
            cases answer with
            | error e => exact .inl ⟨e, searched, rfl⟩
            | ok port =>
                refine .inr ⟨listener, _, searched.named _ state, rfl, room,
                  ?_, ?_, rfl⟩
                · rw [modifySock_socks_self]
                  exact state
                · intro other different
                  exact modifySock_socks_of_ne _ _ different
      · exact .inr ⟨listener, net, .refl net, rfl, room, state,
          fun _ _ => rfl, rfl⟩

/-- An accept takes the oldest connection, or there is none. -/
theorem accept_net (net : Net) (listener : SockId) :
    (∃ e, net.accept listener = (net, .error e)) ∨
      ∃ far rest, (net.socks listener).state = .listening ∧
        (net.socks listener).backlog = far :: rest ∧
        net.accept listener =
          (net.modifySock listener (.setBacklog rest), .ok far) := by
  unfold accept
  dsimp only
  split
  · exact .inl ⟨_, rfl⟩
  · next listening =>
      rw [not_not] at listening
      cases queue : (net.socks listener).backlog with
      | nil => exact .inl ⟨_, rfl⟩
      | cons far rest => exact .inr ⟨far, rest, listening, rfl, rfl⟩

/-! ## Shutdown -/

/-- What stays of a socket when its reading side is shut down. -/
theorem shutdownRead_socks
    (net : Net)
    (sock other : SockId) :
    ((net.shutdownRead sock).socks other).farEnd = (net.socks other).farEnd ∧
      ((net.shutdownRead sock).socks other).host = (net.socks other).host ∧
      ((net.shutdownRead sock).socks other).shutWr =
        (net.socks other).shutWr ∧
      ((net.shutdownRead sock).socks other).state =
        (net.socks other).state := by
  unfold shutdownRead
  split <;> simp only [modifySock_socks] <;>
    grind [Sock.shutRead, Sock.writeEvent]

/-- A shutdown acts on a connected socket: first the reading half, then the
writing half, each if it is asked for. -/
theorem shutdown_net
    (net : Net)
    (sock : SockId)
    (read write : Bool) :
    net.shutdown sock read write = (net, .error (.errno .enotconn)) ∨
      (net.socks sock).state = .connected ∧
        ∃ middle, (read = false ∧ middle = net ∨
            read = true ∧ middle = net.shutdownRead sock) ∧
          ((middle.socks sock).shutWr = false ∧
              net.shutdown sock read write =
                (middle.shutdownWrite sock, .ok ()) ∨
            net.shutdown sock read write = (middle, .ok ())) := by
  unfold shutdown
  dsimp only
  split
  · exact .inl rfl
  next connected =>
  rw [not_not] at connected
  refine .inr ⟨connected, if read = true then net.shutdownRead sock else net,
    ?_, ?_⟩
  · cases read
    · exact .inl ⟨rfl, rfl⟩
    · exact .inr ⟨rfl, rfl⟩
  · generalize (if read = true then net.shutdownRead sock else net) = middle
    split
    · next first => exact .inl ⟨first.2, rfl⟩
    · exact .inr rfl

/-! ## Payloads -/

/-- A datagram is delivered to a bound datagram socket, or to nobody. -/
theorem findReceiver_some
    {family : Family}
    {destHost : Nat}
    {dest source : Addr}
    {target : SockId}
    (found : net.findReceiver family destHost dest source = some target) :
    (net.socks target).kind = .dgram := by
  have met := List.find?_finRange_some found
  simp only [Bool.and_eq_true, decide_eq_true_eq] at met
  exact met.1.1.1.1

/-- Two networks with the same records and the same accounts. -/
structure SameButCounts (net later : Net) : Prop where
  control : later.control = net.control
  accounts : later.accounts = net.accounts

theorem sendTo_net
    (net : Net)
    (sock : SockId)
    (destHost : Nat)
    (dest : Addr)
    (data : List UInt8) :
    SameButCounts net (net.sendTo sock destHost dest data).1 ∨
      ∃ target source, (net.socks target).kind = .dgram ∧
        SameButCounts
          (net.deliver (net.socks sock).host target (.datagram source data)).1
          (net.sendTo sock destHost dest data).1 := by
  unfold sendTo
  dsimp only
  cases found : net.findReceiver (net.socks sock).family destHost dest
      (net.sourceName (net.socks sock) dest) with
  | none =>
      left
      dsimp only
      split
      · exact ⟨rfl, rfl⟩
      · exact ⟨rfl, rfl⟩
  | some target =>
      right
      refine ⟨target, net.sourceName (net.socks sock) dest,
        findReceiver_some found, ?_⟩
      dsimp only
      split
      · split <;> exact ⟨rfl, rfl⟩
      · exact ⟨rfl, rfl⟩

theorem sendDgram_net
    (net : Net)
    (sock : SockId)
    (dest : Option (Nat × Addr))
    (data : List UInt8) :
    Relabels sock net (net.sendDgram sock dest data).1 ∨
      ∃ middle destHost dest', Relabels sock net middle ∧
        (net.sendDgram sock dest data).1 =
          (middle.sendTo sock destHost dest' data).1 := by
  have steps := net.relabels_bindIfNew sock
  unfold sendDgram
  split
  · exact .inl (.refl net)
  · revert steps
    cases net.bindIfNew sock with
    | mk middle answer =>
        intro steps
        cases answer with
        | error e => exact .inl steps
        | ok done =>
            dsimp only
            cases dest.or (middle.defaultDest (middle.socks sock)) with
            | none => exact .inl steps
            | some destination =>
                exact .inr ⟨middle, destination.1, destination.2, steps, rfl⟩

/-- A receive takes bytes off the ring of a connected socket, or nothing. -/
theorem recv_net
    (net : Net)
    (sock : SockId)
    (room : Nat)
    (peek : Bool) :
    (net.recv sock room peek).1 = net ∧
        (∀ out, (net.recv sock room peek).2 = .ok out →
          peek = true ∨ out = []) ∨
      peek = false ∧ (net.socks sock).state = .connected ∧
        (net.recv sock room peek).2 = .ok
          (net.ringPeek sock 0 (min room (net.socks sock).rx.len)) ∧
        ∀ sender, (net.socks sock).farEnd = some sender →
          (net.recv sock room peek).1 =
            (net.ringSkip sock (min room (net.socks sock).rx.len)).modifySock
              sender .writeEvent := by
  unfold recv
  dsimp only
  split
  · exact .inl ⟨rfl, by simp⟩
  next connected =>
  rw [not_not] at connected
  split
  · split
    · exact .inl ⟨rfl, by intro out same; right; simpa using same.symm⟩
    · exact .inl ⟨rfl, by simp⟩
  split
  · next isPeek => exact .inl ⟨rfl, fun _ _ => .inl isPeek⟩
  · next notPeek =>
      refine .inr ⟨by simpa using notPeek, connected, ?_, ?_⟩
      · cases (net.socks sock).farEnd <;> rfl
      · intro sender linked
        rw [linked]

end Net
end Derp
