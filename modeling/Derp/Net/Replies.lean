import Derp.Net.Ends
import Derp.Net.Peers

/-!
# Replies to datagrams

The source of a datagram is made from its destination, and not from what its
sender is bound to.  A reply to that source reaches the sender exactly if the
sender is bound to the wildcard address, or both the address it is bound to
and the one it sent to are on the loopback network, or neither is.
-/

namespace Derp
namespace Net

variable
  {net later : Net}
  {sock target replier : SockId}

/-- Whether a datagram that `replier` sends to the name `source` selects
`sock`. -/
def RepliesTo
    (net : Net)
    (replier sock : SockId)
    (source : Addr) : Prop :=
  ∃ home, net.hostForIp (net.socks replier).host source.ip = .ok home ∧
    net.addressee replier (some (home, source)) =
      some (sock, net.sourceName (net.socks replier) source)

/-- Whether a sender can be answered where a datagram to `dest` says it is. -/
def Answerable (net : Net) (sock : SockId) (dest : Addr) : Prop :=
  (net.socks sock).state = .new ∨ (net.socks sock).localName.ip = 0 ∨
    Addr.isLoopback (net.socks sock).localName.ip = Addr.isLoopback dest.ip

instance (net : Net) (sock : SockId) (dest : Addr) :
    Decidable (net.Answerable sock dest) := by
  unfold Answerable
  infer_instance

/-! ## Who is selected -/

/-- A bound datagram socket without a default destination is selected exactly
if it answers to the name. -/
theorem NamesInOrder.findReceiver_iff
    (order : net.NamesInOrder)
    (isDgram : (net.socks sock).kind = .dgram)
    (isBound : (net.socks sock).state = .bound)
    (noPeer : (net.socks sock).hasPeer = false)
    (family : Family)
    (dest source : Addr) :
    net.findReceiver family (net.socks sock).host dest source = some sock ↔
      (net.socks sock).answersTo family dest = true := by
  constructor
  · intro found
    have met := List.find?_finRange_some found
    simp only [Bool.and_eq_true] at met
    exact met.1.2
  · intro answers
    cases found : net.findReceiver family (net.socks sock).host dest source with
    | none =>
        have met := List.find?_finRange_none found sock
        simp [isDgram, isBound, noPeer, answers] at met
    | some other =>
        have met := List.find?_finRange_some found
        simp only [Bool.and_eq_true, decide_eq_true_eq] at met
        obtain ⟨⟨⟨⟨otherDgram, otherBound⟩, sameHost⟩, also⟩, -⟩ := met
        -- Two sockets that answer to one name have the same name.
        unfold Sock.answersTo at answers also
        rw [Bool.and_eq_true] at answers also
        have same : (net.socks other).localName.sameName
            (net.socks sock).localName = true := by
          have first := (Addr.sameName_iff _ _).mp also.1
          have second := (Addr.sameName_iff _ _).mp answers.1
          rw [Addr.sameName_iff]
          grind
        rw [order.apart other sock (.inl otherBound) (.inl isBound) sameHost
          (otherDgram.trans isDgram.symm) same]

/-- What a datagram socket calls itself towards `dest`. -/
structure NamedFor
    (net : Net)
    (sock : SockId)
    (dest source : Addr) : Prop where
  family : source.family = .inet
  port : source.port = (net.socks sock).localName.port
  ip : source.ip = if Addr.isLoopback dest.ip then loopback
    else (net.hostAt (net.socks sock).host).addr

/-- A bound socket answers to what it calls itself, if both its own address and
the destination are on the loopback network, or neither is. -/
theorem NamesInOrder.answersTo_iff
    (order : net.NamesInOrder)
    (few : net.hosts.length ≤ maxHosts)
    (isBound : (net.socks sock).state = .bound)
    (isInet : (net.socks sock).family = .inet)
    {dest source : Addr}
    (named : NamedFor net sock dest source) :
    (net.socks sock).answersTo .inet source = true ↔
      (net.socks sock).localName.ip = 0 ∨
        Addr.isLoopback (net.socks sock).localName.ip =
          Addr.isLoopback dest.ip := by
  have housed := order.housed sock (by unfold Sock.Alive; rw [isBound]; decide)
  have notLoopback := order.notLoopback few housed
  have own := order.ip sock (.inl isBound) isInet
  have family := (order.family sock (.inl isBound)).trans isInet
  have sameName : (net.socks sock).localName.sameName source = true := by
    rw [Addr.sameName_iff]
    exact ⟨family.trans named.family.symm, .inl ⟨family, named.port.symm⟩⟩
  have isLoopback : Addr.isLoopback loopback = true := by decide
  unfold Sock.answersTo OwnAddress at *
  rw [sameName, named.ip]
  simp only [ne_eq, not_true_eq_false, decide_false, Bool.false_or,
    Bool.true_and, Bool.or_eq_true, decide_eq_true_eq, Bool.and_eq_true]
  split
  · next there =>
      rw [there, isLoopback]
      grind
  · next away =>
      rw [Bool.not_eq_true] at away
      rw [away, notLoopback]
      grind

/-- A reply to what a socket calls itself is sent to its own host. -/
theorem NamesInOrder.hostForIp_source
    (order : net.NamesInOrder)
    (few : net.hosts.length ≤ maxHosts)
    (isBound : (net.socks sock).state = .bound)
    {dest source : Addr}
    (named : NamedFor net sock dest source)
    {asker : Nat}
    (here : Addr.isLoopback dest.ip = true → asker = (net.socks sock).host) :
    net.hostForIp asker source.ip = .ok (net.socks sock).host := by
  have housed := order.housed sock (by unfold Sock.Alive; rw [isBound]; decide)
  rw [named.ip]
  split
  · next there =>
      rw [← here there]
      exact hostForIp_loopback (by decide) net asker
  · exact order.hostForIp_addr few housed asker

/-- A reply selects the sender exactly if the sender answers to what it calls
itself. -/
theorem NamesInOrder.repliesTo_iff
    (order : net.NamesInOrder)
    (few : net.hosts.length ≤ maxHosts)
    (isDgram : (net.socks sock).kind = .dgram)
    (isBound : (net.socks sock).state = .bound)
    (isInet : (net.socks sock).family = .inet)
    (noPeer : (net.socks sock).hasPeer = false)
    {dest source : Addr}
    (named : NamedFor net sock dest source)
    (here : Addr.isLoopback dest.ip = true →
      (net.socks replier).host = (net.socks sock).host)
    (replierInet : (net.socks replier).family = .inet) :
    net.RepliesTo replier sock source ↔
      (net.socks sock).localName.ip = 0 ∨
        Addr.isLoopback (net.socks sock).localName.ip =
          Addr.isLoopback dest.ip := by
  have home := order.hostForIp_source few isBound named here
  rw [← order.answersTo_iff few isBound isInet named,
    ← order.findReceiver_iff isDgram isBound noPeer .inet source
      (net.sourceName (net.socks replier) source)]
  unfold RepliesTo addressee
  simp only [home, Except.ok.injEq, Option.some_or, Option.bind_some,
    replierInet, Option.map_eq_some_iff, Prod.mk.injEq, and_true,
    exists_eq_left']
  exact exists_eq_right

/-! ## What a sent datagram says -/

theorem bind_ip
    {addr : Addr}
    (bound : (net.bind sock addr).2 = .ok ()) :
    ((net.bind sock addr).1.socks sock).localName.ip = addr.ip := by
  have named : ∀ (net : Net) (addr : Addr), (net.bindName sock addr).2 = .ok () →
      ((net.bindName sock addr).1.socks sock).localName.ip = addr.ip := by
    intro net addr
    unfold bindName
    dsimp only
    split
    · intro refused
      cases refused
    · intro
      rw [modifySock_socks_self]
      rfl
  have refuse {result : Net} {e : NetError} {isIp : Prop}
      (refused : (result, (.error e : Except NetError Unit)).2 = .ok ()) :
      isIp := by
    cases refused
  revert bound
  unfold bind
  dsimp only
  split
  · exact refuse
  split
  · exact refuse
  split
  · split
    · exact refuse
    split
    · cases net.ephemeralPort (net.socks sock).host (net.socks sock).kind with
      | mk middle answer =>
          cases answer with
          | error e => exact refuse
          | ok port => exact named middle { addr with port := port }
    · exact named net addr
  · exact named net addr

/-- A new socket is bound to the wildcard address when it first sends. -/
theorem answerable_bindIfNew
    (isInet : (net.socks sock).family = .inet)
    (bound : (net.bindIfNew sock).2 = .ok ())
    (dest : Addr) :
    net.Answerable sock dest ↔
      ((net.bindIfNew sock).1.socks sock).localName.ip = 0 ∨
        Addr.isLoopback ((net.bindIfNew sock).1.socks sock).localName.ip =
          Addr.isLoopback dest.ip := by
  unfold Answerable
  unfold bindIfNew at bound ⊢
  dsimp only at bound ⊢
  by_cases isNew : (net.socks sock).state = .new
  · rw [if_pos ⟨isNew, isInet⟩] at bound ⊢
    have wildcard : ((net.bind sock (Addr.inet 0 0)).1.socks
        sock).localName.ip = 0 := bind_ip bound
    simp [isNew, wildcard]
  · rw [if_neg (by simp [isNew])]
    simp [isNew]

/-- A datagram that joined a queue was sent to it. -/
theorem addressee_of_joined
    {dest : Option (Nat × Addr)}
    {data : List UInt8}
    {count : Nat}
    {moves : List (Mailboxes.Move SockId Datagram)}
    (steps : Mailboxes.Steps net.mail moves later.mail)
    (carried : Carries later
        (.sendDgram sock dest data, .ok (.taken count)) moves ∨ moves = [])
    {g : Datagram}
    (joined : later.mail.box target = net.mail.box target ++ [g]) :
    later.addressee sock dest = some (target, g.source) := by
  have unmoved : later.mail.box target ≠ net.mail.box target := by
    rw [joined]
    simp
  rcases carried with carries | rfl
  · generalize isEvent : (((.sendDgram sock dest data,
      .ok (.taken count)) : Event)) = event at carries
    cases carries with
    | @posted _ other _ letter named =>
        cases isEvent
        cases steps with | cons first rest =>
        cases rest
        generalize later.mail = after at first joined unmoved
        cases first
        by_cases same : target = other
        · subst same
          simp only [Mailboxes.put, Function.update_self,
            List.append_cancel_left_eq, List.cons.injEq, and_true] at joined
          rw [named, joined]
        · simp [Mailboxes.put, same] at unmoved
    | missed =>
        cases steps with | cons first rest =>
        cases rest
        generalize later.mail = after at first joined unmoved
        cases first
        exact absurd rfl unmoved
    | refused => cases isEvent
    | received => cases isEvent
    | looked => cases isEvent
    | nothing => cases isEvent
    | landed => cases isEvent
    | taken given =>
        subst isEvent
        cases given
    | others notSend =>
        cases isEvent
        exact absurd rfl (notSend _ _ _)
  · generalize later.mail = after at steps unmoved
    cases steps
    exact absurd rfl unmoved

/-- What a sender is, after it has sent. -/
theorem NamesInOrder.sent_cases
    (order : net.NamesInOrder)
    {dest : Option (Nat × Addr)}
    {data : List UInt8}
    {count : Nat}
    (sent : net.exec (.sendDgram sock dest data) =
      some (later, .ok (.taken count))) :
    (net.bindIfNew sock).2 = .ok () ∧
      (later.socks sock).label = ((net.bindIfNew sock).1.socks sock).label := by
  obtain ⟨same, answered⟩ := Prod.mk.inj (Option.some.inj sent)
  rcases order.sendDgram_cases sock dest data with ⟨e, refused⟩ |
      ⟨middle, -, -, bound, ⟨-, refused⟩ | ⟨host, addr, -, passed⟩⟩
  · rw [refused] at answered
    cases answered
  · rw [refused] at answered
    cases answered
  · refine ⟨by rw [bound], ?_⟩
    rw [← same, passed, bound]
    exact (KeepsNames.of_control
      (control_sendTo middle sock host addr data)).labels sock

theorem Relabels.host
    (relabels : Relabels sock net later)
    (other : SockId) :
    (later.socks other).host = (net.socks other).host :=
  Relabels.view (fun _ _ => rfl) (fun _ _ => rfl) (fun _ _ => rfl)
    (fun _ _ => rfl) relabels other

/-- The source of a datagram, in any later state in which its sender is bound
as it was. -/
theorem NamesInOrder.namedFor
    (order : net.NamesInOrder)
    (order' : later.NamesInOrder)
    (hosts : later.hosts.length = net.hosts.length)
    (isBound : (later.socks sock).state = .bound)
    (same : (later.socks sock).label = (net.socks sock).label)
    (isInet : (net.socks sock).family = .inet)
    (dest : Addr) :
    NamedFor later sock dest (net.sourceName (net.socks sock) dest) := by
  have host : (later.socks sock).host = (net.socks sock).host :=
    congrArg Label.host same
  have name : (later.socks sock).localName = (net.socks sock).localName :=
    congrArg Label.localName same
  have housed := order'.housed sock
    (by unfold Sock.Alive; rw [isBound]; decide)
  have addr := order'.addr _ housed
  rw [host] at housed addr
  rw [hosts] at housed
  unfold sourceName
  rw [if_pos isInet]
  constructor
  case family => rfl
  case port => rw [name]
  case ip =>
    rw [host, addr, ← order.addr _ housed]

/-- An inet datagram that a receiver has read is answered to the sender exactly
if the sender is bound to the wildcard address, or both its own address and
the one it sent to are on the loopback network, or neither is. -/
theorem repliesTo_of_read
    (reachable : hosted.Reachable net)
    (few : net.hosts.length ≤ maxHosts)
    (isInet : (net.socks sock).family = .inet)
    (isDgram : (net.socks sock).kind = .dgram)
    {dest : Addr}
    {destHost : Nat}
    (resolves : net.hostForIp (net.socks sock).host dest.ip = .ok destHost)
    {data : List UInt8}
    {count : Nat}
    {sent : Net}
    (send : hosted.step net (.sendDgram sock (some (destHost, dest)) data,
      .ok (.taken count)) sent)
    {g : Datagram}
    (joined : sent.mail.box target = net.mail.box target ++ [g])
    {waiting : List Event}
    {ready : Net}
    (waits : hosted.Run sent waiting ready)
    {gs : List Datagram}
    (front : ready.mail.box target = g :: gs)
    {room : Nat}
    {peek : Bool}
    {out : List UInt8}
    {source : Addr}
    {read : Net}
    (reads : hosted.step ready
      (.recvDgram target room peek, .ok (.datagram out source)) read)
    {between : List Event}
    (run : hosted.Run read between later)
    (stillBound : (later.socks sock).state = .bound)
    (same : (later.socks sock).label = (sent.socks sock).label)
    (noPeer : (later.socks sock).hasPeer = false)
    (there : (later.socks replier).host = (sent.socks target).host)
    (replierInet : (later.socks replier).family = .inet) :
    later.RepliesTo replier sock source ↔ net.Answerable sock dest := by
  have sentReachable := reachable.next send
  have readyReachable := waits.reachable sentReachable
  have readReachable := readyReachable.next reads
  have lastReachable := run.reachable readReachable
  have order := reachable_names reachable
  have sentOrder := reachable_names sentReachable
  have hosts : later.hosts.length = sent.hosts.length := by
    rw [hosts_length_of_run readReachable run,
      hosts_length_of_run readyReachable (.tail (.refl _) reads),
      hosts_length_of_run sentReachable waits]
  have sentHosts : sent.hosts.length = net.hosts.length :=
    hosts_length_of_run reachable (.tail (.refl _) send)
  have known : system.Reachable net := reachable_of_hosted reachable
  have readyKnown : system.Reachable ready := reachable_of_hosted readyReachable
  -- What is read is what was sent.
  obtain ⟨g', gs', front', rfl⟩ := read_of_recvDgram
    (reachable_accounted readyKnown) (reachable_wired readyKnown) reads.1.1
    reads.2
  obtain ⟨rfl, -⟩ := List.cons.inj (front.symm.trans front')
  obtain ⟨moves, steps, carried⟩ := exec_mail (reachable_accounted known)
    (reachable_wired known) send.1.1 send.2
  have named := addressee_of_joined steps (carried.imp_right And.left) joined
  unfold addressee at named
  simp only [Option.some_or, Option.bind_some, Option.map_eq_some_iff,
    Prod.mk.injEq] at named
  obtain ⟨_, found, rfl, source⟩ := named
  have met := List.find?_finRange_some found
  simp only [Bool.and_eq_true, decide_eq_true_eq] at met
  have targetHost := met.1.1.2
  -- The sender was bound before the datagram left.
  obtain ⟨bound, label⟩ := order.sent_cases send.2
  have relabels := net.relabels_bindIfNew sock
  have sentInet : (sent.socks sock).family = .inet :=
    (congrArg Label.family label).trans ((relabels.family sock).trans isInet)
  have sentHost : (sent.socks sock).host = (net.socks sock).host :=
    (congrArg Label.host label).trans (Relabels.host relabels sock)
  have ip : (later.socks sock).localName.ip =
      ((net.bindIfNew sock).1.socks sock).localName.ip :=
    congrArg (fun label : Label => label.localName.ip) (same.trans label)
  have calls := sentOrder.namedFor (reachable_names lastReachable) hosts
    stillBound same sentInet dest
  rw [source] at calls
  have here : Addr.isLoopback dest.ip = true →
      (later.socks replier).host = (later.socks sock).host := by
    intro isLoopback
    rw [hostForIp_loopback isLoopback] at resolves
    have host : (later.socks sock).host = (sent.socks sock).host :=
      congrArg Label.host same
    rw [there, targetHost, host, sentHost]
    exact (Except.ok.inj resolves).symm
  rw [answerable_bindIfNew isInet bound, ← ip]
  apply (reachable_names lastReachable).repliesTo_iff
  · rw [hosts, sentHosts]
    exact few
  · have kind := congrArg Label.kind (same.trans label)
    exact kind.trans ((relabels.kind sock).trans isDgram)
  · exact stillBound
  · exact (congrArg Label.family same).trans sentInet
  · exact noPeer
  · exact calls
  · exact here
  · exact replierInet

/-- Two datagram sockets on one host: the one on port 5000 is bound to the
wildcard address, the one on port 5001 to `ip`. -/
def twoSockets (ip : UInt32) : List Op :=
  [.opened 1 0 .inet .dgram 11, .bind 0 (Addr.inet 0 5000),
    .opened 1 0 .inet .dgram 12, .bind 1 (Addr.inet ip 5001)]

/-- The second socket sends a byte to `dest`, and the first one reads it with
the source `source`. -/
def Reads (net : Net) (dest source : Addr) : Prop :=
  let sent := (net.sendDgram 1 (some (0, dest)) [7]).1
  net.hosts.length = 1 ∧ (net.socks 1).family = .inet ∧
    (net.socks 1).kind = .dgram ∧
    net.hostForIp (net.socks 1).host dest.ip = .ok 0 ∧
    (net.sendDgram 1 (some (0, dest)) [7]).2 = .ok 1 ∧
    net.mail.box 0 = [] ∧ (sent.mail.box 0).length = 1 ∧
    (sent.socks 0).kind = .dgram ∧ (sent.socks 0).family = .inet ∧
    (sent.socks 1).state = .bound ∧ (sent.socks 1).hasPeer = false ∧
    (sent.recvDgram 0 1 false).2 = .ok ([7], source)

instance (net : Net) (dest source : Addr) : Decidable (net.Reads dest source) := by
  unfold Reads
  infer_instance

/-- What is read in such an exchange can be answered as the theorem says. -/
theorem Reads.law
    {dest source : Addr}
    (reads : net.Reads dest source)
    {law : Prop}
    (holds : ∀ sent g read,
      hosted.step net (.sendDgram 1 (some (0, dest)) [7], .ok (.taken 1))
        sent →
      sent.mail.box 0 = net.mail.box 0 ++ [g] → sent.mail.box 0 = [g] →
      hosted.step sent
        (.recvDgram 0 1 false, .ok (.datagram [7] source)) read →
      (read.socks 1).state = .bound →
      (read.socks 1).label = (sent.socks 1).label →
      (read.socks 1).hasPeer = false →
      (read.socks 0).host = (sent.socks 0).host →
      (read.socks 0).family = .inet → law) : law := by
  obtain ⟨-, -, -, -, answered, none, one, isDgram, isInet, isBound, noPeer,
    got⟩ := reads
  obtain ⟨g, only⟩ := List.length_eq_one_iff.mp one
  have send : hosted.step net
      (.sendDgram 1 (some (0, dest)) [7], .ok (.taken 1))
      (net.sendDgram 1 (some (0, dest)) [7]).1 := by
    refine ⟨⟨trivial, trivial⟩, ?_⟩
    change some (answering _ _) = _
    unfold answering
    rw [answered]
    rfl
  generalize (net.sendDgram 1 (some (0, dest)) [7]).1 = sent at *
  have control := control_recvDgram sent 0 1 false
  have kept := KeepsNames.of_control control
  have state : ((sent.recvDgram 0 1 false).1.socks 1).state =
      (sent.socks 1).state := (fields_of_control control 1).1
  refine holds sent g (sent.recvDgram 0 1 false).1 send ?_ only ?_
    (state.trans isBound) (kept.labels 1) ?_
    (congrArg Label.host (kept.labels 0))
    ((congrArg Label.family (kept.labels 0)).trans isInet)
  · rw [none, only]
    rfl
  · refine ⟨⟨isDgram, trivial⟩, ?_⟩
    change some (answering _ _) = _
    unfold answering
    rw [got]
    rfl
  · exact (congrArg Label.hasPeer (kept.labels 1)).trans noPeer

/-- A sender that is bound to the wildcard address gets its reply. -/
theorem repliesTo_of_read_wildcard :
    ∃ net later : Net, net.Answerable 1 (Addr.inet (subnet + 1) 5000) ∧
      later.RepliesTo 0 1 (Addr.inet (subnet + 1) 5001) := by
  obtain ⟨net, played, facts⟩ := Option.map_eq_some_iff.mp
    (by decide +kernel : (play Local (twoSockets 0) (zeroed [[97]] 0)).map
      (fun net => decide (
        net.Reads (Addr.inet (subnet + 1) 5000)
          (Addr.inet (subnet + 1) 5001) ∧
        net.Answerable 1 (Addr.inet (subnet + 1) 5000))) = some true)
  obtain ⟨reads, answerable⟩ := of_decide_eq_true facts
  have reachable : hosted.Reachable net :=
    reachable_play (.start ⟨_, _, rfl⟩) played
  have exchange := reads
  obtain ⟨hosts, isInet, isDgram, resolves, -⟩ := exchange
  have few : net.hosts.length ≤ maxHosts := by
    rw [hosts]
    decide
  apply reads.law
  intro sent g read send joined only got isBound same noPeer here toInet
  refine ⟨net, read, answerable, ?_⟩
  exact (repliesTo_of_read reachable few isInet isDgram resolves send joined
    (.refl _) only got (.refl _) isBound same noPeer here toInet).mpr answerable

/-- A sender that is bound to the loopback address and sends to its host's own
address does not get the reply. -/
theorem not_repliesTo_of_loopback :
    ¬∀ (sock target replier : SockId) (dest source : Addr) (destHost : Nat)
        (data out : List UInt8) (count room : Nat) (peek : Bool)
        (net sent ready read later : Net) (waiting between : List Event)
        (g : Datagram) (gs : List Datagram), hosted.Reachable net →
      net.hosts.length ≤ maxHosts → (net.socks sock).family = .inet →
      (net.socks sock).kind = .dgram →
      net.hostForIp (net.socks sock).host dest.ip = .ok destHost →
      hosted.step net (.sendDgram sock (some (destHost, dest)) data,
        .ok (.taken count)) sent →
      sent.mail.box target = net.mail.box target ++ [g] →
      hosted.Run sent waiting ready → ready.mail.box target = g :: gs →
      hosted.step ready (.recvDgram target room peek,
        .ok (.datagram out source)) read →
      hosted.Run read between later → (later.socks sock).state = .bound →
      (later.socks sock).label = (sent.socks sock).label →
      (later.socks sock).hasPeer = false →
      (later.socks replier).host = (sent.socks target).host →
      (later.socks replier).family = .inet →
      later.RepliesTo replier sock source := by
  intro claim
  obtain ⟨net, played, facts⟩ := Option.map_eq_some_iff.mp
    (by decide +kernel : (play Local (twoSockets loopback)
        (zeroed [[97]] 0)).map
      (fun net => decide (
        net.Reads (Addr.inet (subnet + 1) 5000)
          (Addr.inet (subnet + 1) 5001) ∧
        ∀ read ∈ [(((net.sendDgram 1 (some (0, Addr.inet (subnet + 1) 5000))
            [7]).1).recvDgram 0 1 false).1],
          read.hostForIp (read.socks 0).host (subnet + 1) = .ok 0 ∧
          read.addressee 0 (some (0, Addr.inet (subnet + 1) 5001)) =
            none)) = some true)
  obtain ⟨reads, nobody⟩ := of_decide_eq_true facts
  have reachable : hosted.Reachable net :=
    reachable_play (.start ⟨_, _, rfl⟩) played
  have exchange := reads
  obtain ⟨hosts, isInet, isDgram, resolves, -⟩ := exchange
  have few : net.hosts.length ≤ maxHosts := by
    rw [hosts]
    decide
  apply reads.law
  intro sent g read send joined only got isBound same noPeer here toInet
  obtain ⟨home, resolved, selected⟩ := claim 1 0 0 _ _ 0 [7] [7] 1 1 false net
    sent sent read read [] [] g [] reachable few isInet isDgram resolves send
    joined (.refl _) only got (.refl _) isBound same noPeer here toInet
  have isSent := (Prod.mk.inj (Option.some.inj send.2)).1
  have isRead := (Prod.mk.inj (Option.some.inj got.2)).1
  obtain ⟨atHome, nowhere⟩ := nobody read (by
    rw [List.mem_singleton, ← isRead, ← isSent])
  obtain rfl : (0 : Nat) = home := Except.ok.inj (atHome.symm.trans resolved)
  rw [nowhere] at selected
  cases selected

end Net
end Derp
