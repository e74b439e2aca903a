import Derp.Net.Posting

/-!
# Default destinations

A datagram socket with a default destination takes datagrams from it alone.
The check is made when a datagram is sent, so what was sent before the socket
was connected is received all the same.
-/

namespace Derp
namespace Net

variable
  {net later : Net}
  {sock i : SockId}

/-- Whether a source is the default destination `peer`: the address and the
port, or the path. -/
def FromPeer (peer source : Addr) : Prop :=
  peer.sameName source = true ∧ peer.ip = source.ip

instance (peer source : Addr) : Decidable (FromPeer peer source) := by
  unfold FromPeer
  infer_instance

/-! ## Who changes a default destination -/

/-- What a step keeps of a datagram socket. -/
structure KeepsPeer (net later : Net) (i : SockId) : Prop where
  kind : (later.socks i).kind = (net.socks i).kind
  peer : (later.socks i).peer = (net.socks i).peer
  hasPeer : (later.socks i).hasPeer = (net.socks i).hasPeer

theorem KeepsPeer.refl (net : Net) (i : SockId) : KeepsPeer net net i :=
  ⟨rfl, rfl, rfl⟩

theorem KeepsPeer.trans
    {middle : Net}
    (first : KeepsPeer net middle i)
    (second : KeepsPeer middle later i) : KeepsPeer net later i :=
  ⟨second.kind.trans first.kind, second.peer.trans first.peer,
    second.hasPeer.trans first.hasPeer⟩

theorem KeepsPeer.of_label
    (same : (later.socks i).label = (net.socks i).label) :
    KeepsPeer net later i :=
  ⟨congrArg Label.kind same, congrArg Label.peer same,
    congrArg Label.hasPeer same⟩

theorem NamesInOrder.keepsPeer_bind
    (order : net.NamesInOrder)
    (sock : SockId)
    (addr : Addr)
    (i : SockId) : KeepsPeer net (net.bind sock addr).1 i := by
  rcases order.bind_cases sock addr with ⟨e, refused⟩ |
      ⟨middle, addr', turned, -, bound⟩
  · rw [refused]
    exact .refl net i
  · rw [bound]
    have socks := turned.socks
    have record := middle.modifySock_socks sock i (.bindTo addr')
    constructor <;> rw [record] <;> split
    case kind.isTrue same => rw [same, socks]; rfl
    case peer.isTrue same => rw [same, socks]; rfl
    case hasPeer.isTrue same => rw [same, socks]; rfl
    all_goals rw [socks]

theorem NamesInOrder.keepsPeer_bindIfNew
    (order : net.NamesInOrder)
    (sock i : SockId) : KeepsPeer net (net.bindIfNew sock).1 i := by
  unfold Net.bindIfNew
  dsimp only
  split
  · exact order.keepsPeer_bind sock _ i
  · exact .refl net i

/-- A datagram socket is never connected as a stream is. -/
theorem connect_of_dgram
    (wired : net.Wired)
    (isDgram : (net.socks sock).kind = .dgram)
    (destHost : Nat)
    (dest : Addr) : (net.connect sock destHost dest).1 = net := by
  unfold connect
  dsimp only
  split
  · rfl
  split
  · rfl
  cases found : net.findListener (net.socks sock).kind (net.socks sock).family
      destHost dest with
  | none => rfl
  | some listener =>
      obtain ⟨listening, kind⟩ := findListener_some found
      have isStream := Linked.streams wired listener (.inl listening)
      rw [isStream, isDgram] at kind
      cases kind

theorem listen_of_dgram
    (isDgram : (net.socks sock).kind = .dgram)
    (backlog : Int) : (net.listen sock backlog).1 = net := by
  unfold listen
  dsimp only
  rw [if_pos (by rw [isDgram]; decide)]

theorem NamesInOrder.keepsPeer_sendDgram
    (order : net.NamesInOrder)
    (sock : SockId)
    (dest : Option (Nat × Addr))
    (data : List UInt8)
    (i : SockId) : KeepsPeer net (net.sendDgram sock dest data).1 i := by
  have kept := order.keepsPeer_bindIfNew sock i
  rcases order.sendDgram_cases sock dest data with ⟨e, refused⟩ |
      ⟨middle, -, -, bound, ⟨-, refused⟩ | ⟨host, addr, -, sent⟩⟩
  · rw [refused]
    exact .refl net i
  · rw [bound] at kept
    rw [refused]
    exact kept
  · rw [bound] at kept
    rw [sent]
    exact kept.trans (.of_label ((KeepsNames.of_control
      (control_sendTo middle sock host addr data)).labels i))

/-- Only `connectDgram` gives a datagram socket another default destination. -/
theorem NamesInOrder.keepsPeer_exec
    (order : net.NamesInOrder)
    (wired : net.Wired)
    {op : Op}
    (here : net.Local op)
    {answer : Except NetError Answer}
    (done : net.exec op = some (later, answer))
    (isDgram : (net.socks i).kind = .dgram)
    (kept : handsOut (op, answer) ≠ some i)
    (notPeered : ∀ dest, op ≠ .connectDgram i dest) : KeepsPeer net later i := by
  by_cases about : op.renames = some i
  case neg =>
    exact .of_label ((order.renamings_exec wired here done).frame about kept).1
  case pos =>
    cases op with
    | bind sock addr =>
        cases done
        exact order.keepsPeer_bind sock addr i
    | listen sock backlog =>
        cases done
        obtain rfl := Option.some.inj about
        rw [listen_of_dgram isDgram]
        exact .refl net sock
    | connect sock destHost dest =>
        cases done
        obtain rfl := Option.some.inj about
        rw [connect_of_dgram wired isDgram]
        exact .refl net sock
    | connectDgram sock dest =>
        obtain rfl := Option.some.inj about
        exact absurd rfl (notPeered dest)
    | sendDgram sock dest data =>
        cases done
        exact order.keepsPeer_sendDgram sock dest data i
    | _ => cases about

/-! ## What a connected datagram socket hears -/

/-- A datagram socket with a default destination, and only datagrams from there
in its queue. -/
structure Hears (net : Net) (sock : SockId) (peer : Addr) : Prop where
  isDgram : (net.socks sock).kind = .dgram
  peerIs : (net.socks sock).peer = peer
  hasPeer : (net.socks sock).hasPeer = true
  queue : ∀ g ∈ net.mail.box sock, FromPeer peer g.source

/-- A receiver with a default destination takes datagrams from it alone. -/
theorem fromPeer_of_addressee
    {dest : Option (Nat × Addr)}
    {target : SockId}
    {source : Addr}
    (named : net.addressee sock dest = some (target, source))
    (hasPeer : (net.socks target).hasPeer = true) :
    FromPeer (net.socks target).peer source := by
  unfold addressee at named
  simp only [Option.bind_eq_some_iff, Option.map_eq_some_iff,
    Prod.mk.injEq] at named
  obtain ⟨⟨host, addr⟩, -, _, found, rfl, rfl⟩ := named
  have met := List.find?_finRange_some found
  simp only [hasPeer, Bool.and_eq_true, Bool.or_eq_true, Bool.not_true,
    Bool.false_eq_true, false_or, decide_eq_true_eq] at met
  exact met.2

/-- What is posted has been addressed to its receiver. -/
theorem addressee_of_posted
    {event : Event}
    {moves : List (Mailboxes.Move SockId Datagram)}
    (carries : Carries later event moves)
    {g : Datagram}
    (posted : .posted i g ∈ moves) :
    ∃ sock dest, later.addressee sock dest = some (i, g.source) := by
  cases carries with
  | @posted sock _ dest _ named =>
      cases List.mem_singleton.mp posted
      exact ⟨sock, dest, named⟩
  | landed drops =>
      obtain ⟨_, _, isDrop⟩ := drops _ posted
      cases isDrop
  | _ => simp at posted

theorem recvDgram_peek (net : Net) (sock : SockId) (room : Nat) :
    (net.recvDgram sock room true).1 = net := by
  unfold recvDgram
  split
  · rfl
  · dsimp only
    split <;> rfl

/-- The datagram that a receive answers has waited. -/
theorem answered_of_recvDgram
    {moves : List (Mailboxes.Move SockId Datagram)}
    (steps : Mailboxes.Steps net.mail moves later.mail)
    {room : Nat}
    {peek : Bool}
    {out : List UInt8}
    {source : Addr}
    (carries : Carries later
      (.recvDgram sock room peek, .ok (.datagram out source)) moves)
    (still : peek = true → later.mail = net.mail) :
    ∃ g gs, net.mail.box sock = g :: gs ∧ g.source = source := by
  generalize isEvent : (((.recvDgram sock room peek,
    .ok (.datagram out source)) : Event)) = event at carries
  cases carries with
  | posted => cases isEvent
  | missed => cases isEvent
  | refused => cases isEvent
  | @received _ _ g =>
      cases isEvent
      cases steps with | cons first rest =>
      cases first with
      | @taken _ _ gs front => exact ⟨g, gs, front, rfl⟩
  | @looked _ _ g gs front =>
      cases isEvent
      exact ⟨g, gs, still rfl ▸ front, rfl⟩
  | nothing => cases isEvent
  | landed => cases isEvent
  | taken given =>
      subst isEvent
      cases given
  | others _ notReceive =>
      cases isEvent
      exact absurd rfl (notReceive _ _ _)

theorem read_of_recvDgram
    (accounted : net.Accounted)
    (wired : net.Wired)
    {room : Nat}
    {peek : Bool}
    (admissible : net.Admissible (.recvDgram sock room peek))
    {out : List UInt8}
    {source : Addr}
    (done : net.exec (.recvDgram sock room peek) =
      some (later, .ok (.datagram out source))) :
    ∃ g gs, net.mail.box sock = g :: gs ∧ g.source = source := by
  obtain ⟨moves, steps, carries | ⟨-, full⟩⟩ :=
    exec_mail accounted wired admissible done
  · apply answered_of_recvDgram steps carries
    rintro rfl
    have same := congrArg (fun result => result.map Prod.fst) done
    have last : (net.recvDgram sock room true).1 = later :=
      Option.some.inj same
    rw [← last, recvDgram_peek]
  · exact absurd trivial full

/-- The letters of a box were there before, or come from its peer. -/
theorem Hears.step
    {peer : Addr}
    (hears : net.Hears sock peer)
    (reachable : hosted.Reachable net)
    {event : Event}
    (step : hosted.step net event later)
    (kept : handsOut event ≠ some sock)
    (notPeered : ∀ dest, event.1 ≠ .connectDgram sock dest) :
    later.Hears sock peer ∧
      ∀ room peek out source,
        event = (.recvDgram sock room peek, .ok (.datagram out source)) →
          FromPeer peer source := by
  obtain ⟨op, answer⟩ := event
  obtain ⟨here, done⟩ := step
  have accounted := reachable_accounted (reachable_of_hosted reachable)
  have wired := reachable_wired (reachable_of_hosted reachable)
  have keeps := (reachable_names reachable).keepsPeer_exec wired here done
    hears.isDgram kept notPeered
  obtain ⟨moves, steps, carried⟩ := exec_mail accounted wired here.1 done
  refine ⟨⟨keeps.kind.trans hears.isDgram, keeps.peer.trans hears.peerIs,
    keeps.hasPeer.trans hears.hasPeer, ?_⟩, ?_⟩
  · intro g present
    rcases steps.mem_box present with before | posted
    · exact hears.queue g before
    · rcases carried with carries | ⟨rfl, -⟩
      · obtain ⟨from', dest, named⟩ := addressee_of_posted carries posted
        have fromPeer := fromPeer_of_addressee named
          (keeps.hasPeer.trans hears.hasPeer)
        rwa [keeps.peer.trans hears.peerIs] at fromPeer
      · cases posted
  · intro room peek out source isEvent
    cases isEvent
    obtain ⟨g, gs, front, rfl⟩ :=
      read_of_recvDgram accounted wired here.1 done
    exact hears.queue g (by rw [front]; simp)

/-- A call of the life of a datagram socket that keeps its default
destination. -/
def Lasting (sock : SockId) (event : Event) : Prop :=
  handsOut event ≠ some sock ∧ ∀ dest, event.1 ≠ .connectDgram sock dest

/-- A datagram that a call read from `sock` has the source `peer`. -/
def ReadsFrom (sock : SockId) (peer : Addr) (event : Event) : Prop :=
  ∀ room peek out source,
    event = (.recvDgram sock room peek, .ok (.datagram out source)) →
      FromPeer peer source

theorem Hears.run
    {peer : Addr}
    (hears : net.Hears sock peer)
    (reachable : hosted.Reachable net)
    {labels : List Event}
    (run : hosted.Run net labels later)
    (lasting : ∀ event ∈ labels, Lasting sock event) :
    later.Hears sock peer ∧ ∀ event ∈ labels, ReadsFrom sock peer event := by
  induction run with
  | refl => exact ⟨hears, by simp⟩
  | @tail middle later labels event before step inductionHypothesis =>
      obtain ⟨between, reads⟩ := inductionHypothesis fun other present =>
        lasting other (List.mem_append_left _ present)
      obtain ⟨kept, notPeered⟩ := lasting event (by simp)
      obtain ⟨after, last⟩ :=
        between.step (before.reachable reachable) step kept notPeered
      refine ⟨after, ?_⟩
      intro other present
      rcases List.mem_append.mp present with early | isLast
      · exact reads other early
      · rw [List.mem_singleton] at isLast
        rw [isLast]
        exact last

/-- A datagram socket that is connected while only datagrams of its new peer
wait for it hears its peer alone, for as long as it keeps that peer. -/
theorem hears_of_connectDgram
    (reachable : hosted.Reachable net)
    {peer : Addr}
    {middle : Net}
    (connected : hosted.step net (.connectDgram sock peer, .ok .done) middle)
    (known : ∀ g ∈ net.mail.box sock, FromPeer peer g.source)
    {labels : List Event}
    (run : hosted.Run middle labels later)
    (lasting : ∀ event ∈ labels, Lasting sock event) :
    ∀ event ∈ labels, ReadsFrom sock peer event := by
  have reached := reachable.next connected
  obtain ⟨here, done⟩ := connected
  have isDgram : (net.socks sock).kind = .dgram := here.2
  have relabels := net.relabels_connectDgram sock peer
  have made : (net.connectDgram sock peer).1 = middle ∧
      (net.connectDgram sock peer).2 = .ok () := by
    have result := Prod.mk.inj (Option.some.inj done)
    refine ⟨result.1, ?_⟩
    cases answer : (net.connectDgram sock peer).2 with
    | error e =>
        have refused := result.2
        rw [answer] at refused
        cases refused
    | ok value => rfl
  have record : (middle.socks sock).peer = peer ∧
      (middle.socks sock).hasPeer = true := by
    obtain ⟨rfl, answered⟩ := made
    revert answered
    unfold connectDgram
    cases net.bindIfNew sock with
    | mk bound answer =>
        cases answer with
        | error e => exact fun refused => nomatch refused
        | ok value =>
            intro
            rw [modifySock_socks_self]
            exact ⟨rfl, rfl⟩
  rw [made.1] at relabels
  have hears : middle.Hears sock peer :=
    ⟨(relabels.kind sock).trans isDgram, record.1, record.2, by
      rw [mail_relabels relabels]
      exact known⟩
  exact (hears.run reached run lasting).2

/-- A socket on port 5000 with a datagram from port 5001 in its ring, and its
new peer on port 5002. -/
def strangerFirst : List Op :=
  [.opened 1 0 .inet .dgram 11, .bind 0 (Addr.inet 0 5000),
    .opened 1 0 .inet .dgram 12, .bind 1 (Addr.inet 0 5001),
    .opened 1 0 .inet .dgram 13, .bind 2 (Addr.inet 0 5002),
    .sendDgram 1 (some (0, Addr.inet loopback 5000)) [7]]

/-- A connected call of a datagram socket is a step. -/
theorem step_connectDgram
    {peer : Addr}
    (isDgram : (net.socks sock).kind = .dgram)
    (connected : (net.connectDgram sock peer).2 = .ok ()) :
    hosted.step net (.connectDgram sock peer, .ok .done)
      (net.connectDgram sock peer).1 := by
  refine ⟨⟨trivial, isDgram⟩, ?_⟩
  change some (answering _ _) = _
  unfold answering
  rw [connected]
  rfl

/-- The socket is connected with nothing but its peer's datagram in its ring. -/
theorem hears_of_connectDgram_peerFirst :
    ∃ net middle later labels,
      hosted.step net (.connectDgram 0 (Addr.inet loopback 5001), .ok .done)
        middle ∧
      hosted.Run middle labels later ∧
      labels.map Prod.fst = [.recvDgram 0 1 false] ∧
      ∀ event ∈ labels, ReadsFrom 0 (Addr.inet loopback 5001) event := by
  obtain ⟨net, played, facts⟩ := Option.map_eq_some_iff.mp
    (by decide +kernel : (play Local strangerFirst (zeroed [[97]] 0)).map
      (fun net => decide (
        (∀ g ∈ net.mail.box 0, FromPeer (Addr.inet loopback 5001) g.source) ∧
        (net.socks 0).kind = .dgram ∧
        (net.connectDgram 0 (Addr.inet loopback 5001)).2 = .ok () ∧
        (play Local [.recvDgram 0 1 false]
          (net.connectDgram 0 (Addr.inet loopback 5001)).1).isSome)) =
          some true)
  obtain ⟨known, isDgram, connected, plays⟩ := of_decide_eq_true facts
  have reachable : hosted.Reachable net :=
    reachable_play (.start ⟨_, _, rfl⟩) played
  obtain ⟨later, readOff⟩ := Option.isSome_iff_exists.mp plays
  obtain ⟨labels, same, run⟩ := run_play readOff
  have step := step_connectDgram isDgram connected
  refine ⟨net, _, later, labels, step, run, same, ?_⟩
  refine @hears_of_connectDgram net later 0 reachable _ _ step known labels run
    ?_
  intro event present
  have op := List.mem_map_of_mem (f := Prod.fst) present
  rw [same, List.mem_singleton] at op
  obtain ⟨_, answer⟩ := event
  obtain rfl : _ = Op.recvDgram 0 1 false := op
  exact ⟨by simp [handsOut], by simp⟩

/-- A connected datagram socket hears a stranger whose datagram was there
before it was connected. -/
theorem not_hears_of_strangerFirst :
    ¬∀ (sock : SockId) (peer : Addr) (net middle later : Net)
        (labels : List Event), hosted.Reachable net →
      hosted.step net (.connectDgram sock peer, .ok .done) middle →
      hosted.Run middle labels later →
      (∀ event ∈ labels, Lasting sock event) →
      ∀ event ∈ labels, ReadsFrom sock peer event := by
  intro claim
  obtain ⟨net, played, facts⟩ := Option.map_eq_some_iff.mp
    (by decide +kernel : (play Local strangerFirst (zeroed [[97]] 0)).map
      (fun net => decide (
        (net.socks 0).kind = .dgram ∧
        (net.connectDgram 0 (Addr.inet loopback 5002)).2 = .ok () ∧
        ((net.connectDgram 0 (Addr.inet loopback 5002)).1.recvDgram 0 1
          false).2 = .ok ([7], Addr.inet loopback 5001) ∧
        ((net.connectDgram 0 (Addr.inet loopback 5002)).1.socks 0).kind =
          .dgram)) = some true)
  obtain ⟨isDgram, connected, answered, still⟩ := of_decide_eq_true facts
  have reachable : hosted.Reachable net :=
    reachable_play (.start ⟨_, _, rfl⟩) played
  have step := step_connectDgram isDgram connected
  have received : hosted.step (net.connectDgram 0 (Addr.inet loopback 5002)).1
      (.recvDgram 0 1 false, .ok (.datagram [7] (Addr.inet loopback 5001)))
      ((net.connectDgram 0 (Addr.inet loopback 5002)).1.recvDgram 0 1
        false).1 := by
    refine ⟨⟨still, trivial⟩, ?_⟩
    change some (answering _ _) = _
    unfold answering
    rw [answered]
    rfl
  have reads := claim 0 _ net _ _ _ reachable step (.tail (.refl _) received)
    (by
      intro event present
      obtain rfl := List.mem_singleton.mp present
      exact ⟨by simp [handsOut], by simp⟩) _ (List.mem_singleton_self _)
  exact absurd (reads 1 false [7] _ rfl) (by decide)

end Net
end Derp
