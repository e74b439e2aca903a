import Derp.Net.Dialling
import Mathlib.Data.List.Find

/-!
# The names at the two ends of a connection

Each end of a connection records the other end's name.  The names tell the
hosts of both ends, unless the connecting socket was bound to the wildcard
address, or to the loopback network while it reached for another host.
-/

namespace Derp
namespace Net

variable
  {net later last : Net}
  {sock far i : SockId}
  {host : Nat}

/-! ## Addresses of hosts -/

/-- The addresses of a run's hosts: there are few enough of them. -/
theorem NamesInOrder.toNat_addr
    (order : net.NamesInOrder)
    (few : net.hosts.length ≤ maxHosts)
    (here : host < net.hosts.length) :
    (net.hostAt host).addr.toNat = 167772161 + host := by
  have most : maxHosts = 32 := rfl
  rw [order.addr host here, UInt32.toNat_add, UInt32.toNat_add,
    UInt32.toNat_ofNat', show subnet.toNat = 167772160 from rfl,
    show (1 : UInt32).toNat = 1 from rfl]
  omega

theorem isLoopback_iff (ip : UInt32) :
    Addr.isLoopback ip = true ↔ ip.toNat / 2 ^ 24 = 127 := by
  unfold Addr.isLoopback
  rw [decide_eq_true_iff, ← UInt32.toNat_inj, UInt32.toNat_shiftRight,
    Nat.shiftRight_eq_div_pow]
  rfl

/-- A host is not on the loopback network. -/
theorem NamesInOrder.notLoopback
    (order : net.NamesInOrder)
    (few : net.hosts.length ≤ maxHosts)
    (here : host < net.hosts.length) :
    Addr.isLoopback (net.hostAt host).addr = false := by
  have most : maxHosts = 32 := rfl
  rw [Bool.eq_false_iff, ne_eq, isLoopback_iff, order.toNat_addr few here]
  omega

/-- Every host answers to its own address. -/
theorem NamesInOrder.hostForIp_addr
    (order : net.NamesInOrder)
    (few : net.hosts.length ≤ maxHosts)
    (here : host < net.hosts.length)
    (asker : Nat) :
    net.hostForIp asker (net.hostAt host).addr = .ok host := by
  unfold hostForIp
  rw [order.notLoopback few here, if_neg (by decide)]
  have found : ((List.range net.hosts.length).find? fun other =>
      (net.hostAt other).addr = (net.hostAt host).addr) = some host := by
    rw [List.find?_range_eq_some]
    refine ⟨by simp, List.mem_range.mpr here, ?_⟩
    intro other before
    have different : (net.hostAt other).addr ≠ (net.hostAt host).addr := by
      intro same
      have values := congrArg UInt32.toNat same
      rw [order.toNat_addr few (before.trans here),
        order.toNat_addr few here] at values
      omega
    simpa using different
  rw [found]

/-- No host has the wildcard address. -/
theorem NamesInOrder.hostForIp_wildcard
    (order : net.NamesInOrder)
    (few : net.hosts.length ≤ maxHosts)
    (asker : Nat) : net.hostForIp asker 0 = .error false := by
  unfold hostForIp
  have none : ((List.range net.hosts.length).find? fun other =>
      (net.hostAt other).addr = 0) = none := by
    rw [List.find?_eq_none]
    intro other present zero
    have values := congrArg UInt32.toNat (of_decide_eq_true zero)
    rw [order.toNat_addr few (List.mem_range.mp present)] at values
    simp at values
  rw [if_neg (by decide), none]
  rfl

theorem hostForIp_loopback
    {ip : UInt32}
    (isLoopback : Addr.isLoopback ip = true)
    (net : Net)
    (asker : Nat) : net.hostForIp asker ip = .ok asker :=
  if_pos isLoopback

/-- Hosts with the same addresses resolve addresses alike. -/
theorem NamesInOrder.hostForIp_eq
    (order : net.NamesInOrder)
    (order' : later.NamesInOrder)
    (same : later.hosts.length = net.hosts.length)
    (asker : Nat)
    (ip : UInt32) : later.hostForIp asker ip = net.hostForIp asker ip := by
  unfold hostForIp
  rw [same]
  congr 1
  rw [List.find?_congr]
  intro other present
  have within := List.mem_range.mp present
  rw [order.addr other within, order'.addr other (by rw [same]; exact within)]

/-! ## Names that stay -/

theorem Renaming.hosts_length
    {about taken : Option SockId}
    (step : Renaming about taken net later) :
    later.hosts.length = net.hosts.length := by
  cases step with
  | kept kept => rw [kept.hosts]
  | turned => simp [setNextPort, setHosts]
  | made _ _ _ change => rw [change.hosts]
  | bound _ _ change => rw [change.hosts]
  | listening _ _ _ change => rw [change.hosts]
  | named _ _ change => rw [change.hosts]
  | connected _ _ _ _ change => rw [change.hosts]
  | peered _ _ change => rw [change.hosts]

theorem Renamings.hosts_length
    {about taken : Option SockId}
    (steps : Renamings about taken net later) :
    later.hosts.length = net.hosts.length := by
  induction steps with
  | refl => rfl
  | tail _ step inductionHypothesis =>
      rw [step.hosts_length, inductionHypothesis]

/-- A stream socket past its connect. -/
structure Settled (net : Net) (i : SockId) (label : Label) : Prop where
  same : (net.socks i).label = label
  stream : label.kind = .stream
  past : (net.socks i).state = .connected ∨ (net.socks i).state = .closed ∨
    (net.socks i).state = .free

/-- Nothing renames a stream socket past its connect but another life of its
slot. -/
theorem Settled.step
    {label : Label}
    {about taken : Option SockId}
    (settled : Settled net i label)
    (step : Renaming about taken net later)
    (notTaken : taken ≠ some i) : Settled later i label := by
  obtain ⟨sameLabel, stream, past⟩ := settled
  have kind : (net.socks i).kind = .stream := by
    rw [← stream, ← sameLabel]
    rfl
  -- A step about one socket that is about this one asks for another state.
  have other {sock : SockId} {state : SockState} {label' : Label}
      (change : Relabelled net later sock state label')
      (different : i ≠ sock) : Settled later i label := by
    obtain ⟨kept, named⟩ := change.others i different
    exact ⟨named.trans sameLabel, stream, by rw [kept]; exact past⟩
  cases step with
  | kept kept =>
      refine ⟨(kept.labels i).trans sameLabel, stream, ?_⟩
      have state := kept.states i
      grind
  | turned => exact ⟨sameLabel, stream, past⟩
  | made isTaken _ _ change =>
      refine other change ?_
      rintro rfl
      exact notTaken isTaken
  | bound _ bindable change =>
      refine other change ?_
      rintro rfl
      have := bindable.isNew
      grind
  | listening _ isNamed _ change =>
      refine other change ?_
      rintro rfl
      unfold Sock.Named at isNamed
      grind
  | named _ isNew change =>
      refine other change ?_
      rintro rfl
      grind
  | connected _ _ idle _ change =>
      refine other change ?_
      rintro rfl
      grind
  | peered _ isDgram change =>
      refine other change ?_
      rintro rfl
      rw [kind] at isDgram
      cases isDgram

theorem Settled.steps
    {label : Label}
    {about taken : Option SockId}
    (settled : Settled net i label)
    (steps : Renamings about taken net later)
    (notTaken : taken ≠ some i) : Settled later i label := by
  induction steps with
  | refl => exact settled
  | tail _ step inductionHypothesis =>
      exact inductionHypothesis.step step notTaken

/-- What a run does to names, and to the number of hosts. -/
theorem Settled.run
    {label : Label}
    {labels : List Event}
    (reachable : hosted.Reachable net)
    (settled : Settled net i label)
    (run : hosted.Run net labels later)
    (notTaken : ∀ event ∈ labels, handsOut event ≠ some i) :
    Settled later i label := by
  induction run with
  | refl => exact settled
  | @tail middle later labels event run step inductionHypothesis =>
      have between := run.reachable reachable
      have steps := (reachable_names between).renamings_exec
        (reachable_wired (reachable_of_hosted between)) step.1 step.2
      exact (inductionHypothesis fun event present =>
        notTaken event (List.mem_append_left _ present)).steps steps
          (notTaken event (by simp))

theorem hosts_length_of_run
    {labels : List Event}
    (reachable : hosted.Reachable net)
    (run : hosted.Run net labels later) :
    later.hosts.length = net.hosts.length := by
  induction run with
  | refl => rfl
  | @tail middle later labels event run step inductionHypothesis =>
      have between := run.reachable reachable
      have steps := (reachable_names between).renamings_exec
        (reachable_wired (reachable_of_hosted between)) step.1 step.2
      exact steps.hosts_length.trans inductionHypothesis

/-! ## What a connection calls its ends -/

/-- What a successful connect does: the two ends and their names. -/
structure Connected
    (net later : Net)
    (sock far listener : SockId)
    (destHost : Nat)
    (dest near : Addr) : Prop where
  dials : net.Dials sock listener destHost dest
  prepared : ∃ middle, Prepared net sock dest middle ∧
    (middle.socks sock).localName = near
  stream : (net.socks sock).kind = .stream
  wasFree : (net.socks far).state = .free
  sockState : (later.socks sock).state = .connected
  sockLabel : (later.socks sock).label =
    { (net.socks sock).label with
      localName := near
      peer := net.farName (net.socks sock).family listener dest }
  farState : (later.socks far).state = .connected
  farLabel : (later.socks far).label =
    { kind := .stream
      family := (net.socks sock).family
      host := destHost
      localName := net.farName (net.socks sock).family listener dest
      peer := near
      hasPeer := false }
  others : ∀ i ≠ sock, i ≠ far →
    (later.socks i).state = (net.socks i).state ∧
      (later.socks i).label = (net.socks i).label

/-- The states and the labels after two sockets were joined. -/
theorem joined_labels
    {listener : SockId}
    (different : far ≠ sock)
    (farLocal nearLocal : Addr)
    {joined : Net}
    (isJoined : joined = net.joined sock far listener farLocal nearLocal) :
    ((joined.socks sock).state = .connected ∧ (joined.socks sock).label =
        { (net.socks sock).label with peer := farLocal }) ∧
      ((joined.socks far).state = .connected ∧ (joined.socks far).label =
        { (net.socks far).label with
          localName := farLocal
          peer := nearLocal }) ∧
      ∀ i ≠ sock, i ≠ far → (joined.socks i).state = (net.socks i).state ∧
        (joined.socks i).label = (net.socks i).label := by
  obtain ⟨first, isFirst⟩ : ∃ first, first = net.modifySock far
    (.linkFar farLocal nearLocal sock) := ⟨_, rfl⟩
  obtain ⟨second, isSecond⟩ : ∃ second, second = first.modifySock sock
    (.linkNear farLocal far) := ⟨_, rfl⟩
  have firstChange := relabelled_modifySock net far
    (.linkFar farLocal nearLocal sock)
  have secondChange := relabelled_modifySock first sock
    (.linkNear farLocal far)
  rw [← isFirst] at firstChange
  rw [← isSecond] at secondChange
  -- Queueing the far end changes neither states nor labels.
  have queued : ∀ i, (joined.socks i).state = (second.socks i).state ∧
      (joined.socks i).label = (second.socks i).label := by
    intro i
    have record : joined.socks i =
        (second.modifySock listener (.enqueue far)).socks i := by
      rw [isJoined, isSecond, isFirst]
      rfl
    rw [record, modifySock_socks]
    split
    · next same => rw [same]; exact ⟨rfl, rfl⟩
    · exact ⟨rfl, rfl⟩
  obtain ⟨-, sockBefore⟩ := firstChange.others sock different.symm
  obtain ⟨farState, farLabel⟩ := secondChange.others far different
  refine ⟨⟨?_, ?_⟩, ⟨?_, ?_⟩, ?_⟩
  · exact (queued sock).1.trans secondChange.state
  · refine (queued sock).2.trans (secondChange.label.trans ?_)
    rw [← sockBefore]
    rfl
  · exact (queued far).1.trans (farState.trans firstChange.state)
  · exact (queued far).2.trans (farLabel.trans firstChange.label)
  · intro i notSock notFar
    obtain ⟨state, label⟩ := queued i
    obtain ⟨state₂, label₂⟩ := secondChange.others i notSock
    obtain ⟨state₁, label₁⟩ := firstChange.others i notFar
    exact ⟨state.trans (state₂.trans state₁), label.trans (label₂.trans label₁)⟩

/-- What is known after a successful connect. -/
theorem NamesInOrder.connected
    (order : net.NamesInOrder)
    (wired : net.Wired)
    {destHost : Nat}
    {dest : Addr}
    (made : net.connect sock destHost dest = (later, .ok far)) :
    ∃ listener near, Connected net later sock far listener destHost dest
      near := by
  rcases order.connect_cases sock destHost dest with ⟨⟨e, refused⟩, -⟩ |
      ⟨listener, middle, dials, prepared, linked⟩
  · rw [refused] at made
    cases congrArg Prod.snd made
  obtain ⟨listening, sameKind, apart⟩ := dials.apart
  obtain ⟨others, name, same⟩ := prepared.socks
  have kind : (net.socks sock).kind = .stream := by
    rw [← sameKind]
    exact Linked.streams wired listener (.inl listening)
  have idle : (middle.socks sock).state = .new ∨
      (middle.socks sock).state = .bound := by
    rw [same]
    exact dials.idle
  have family : (middle.socks sock).family = (net.socks sock).family := by
    rw [same]
    rfl
  have there : middle.farName (middle.socks sock).family listener dest =
      net.farName (net.socks sock).family listener dest := by
    unfold farName
    rw [family, others listener apart]
  rw [linked] at made
  rcases link_cases idle (by rw [others _ apart]; exact listening) destHost
      dest with ⟨-, refused⟩ | ⟨far', isFree, notSock, notListener, joins⟩
  · rw [refused] at made
    cases congrArg Prod.snd made
  rw [joins, there] at made
  obtain ⟨isLater, sameFar⟩ := Prod.mk.inj made
  obtain rfl := Except.ok.inj sameFar
  have change := middle.relabelled_taken far' destHost
    (middle.socks sock).family (middle.socks sock).kind
  obtain ⟨ofSock, ofFar, ofOthers⟩ := joined_labels notSock _ _ isLater.symm
  obtain ⟨-, sockTaken⟩ := change.others sock notSock.symm
  refine ⟨listener, (middle.socks sock).localName, ?_⟩
  constructor
  case dials => exact dials
  case prepared => exact ⟨middle, prepared, rfl⟩
  case stream => exact kind
  case wasFree => rw [← others far' notSock]; exact isFree
  case sockState => exact ofSock.1
  case sockLabel =>
    refine ofSock.2.trans ?_
    have before : ((middle.farTaken sock far' destHost).socks sock).label =
        (middle.socks sock).label := sockTaken
    rw [before, same]
    rfl
  case farState => exact ofFar.1
  case farLabel =>
    refine ofFar.2.trans ?_
    have before : ((middle.farTaken sock far' destHost).socks far').label =
        ⟨(middle.socks sock).kind, (middle.socks sock).family, destHost,
          Addr.unnamed, Addr.unnamed, false⟩ := change.label
    have streams : (middle.socks sock).kind = .stream := by
      rw [same]
      exact kind
    rw [before, family, streams]
  case others =>
    intro i notSock' notFar
    obtain ⟨state, label⟩ := ofOthers i notSock' notFar
    obtain ⟨takenState, takenLabel⟩ := change.others i notFar
    rw [← others i notSock']
    exact ⟨state.trans takenState, label.trans takenLabel⟩

/-- Each end of a connection has the other one's name, and the names resolve to
the hosts of the two ends. -/
structure NamesEnds (net : Net) (sock far : SockId) (port : UInt16) : Prop where
  near : net.hostForIp (net.socks far).host (net.socks far).peer.ip =
    .ok (net.socks sock).host
  nearPort : (net.socks far).peer.port = (net.socks sock).localName.port
  there : net.hostForIp (net.socks sock).host (net.socks sock).peer.ip =
    .ok (net.socks far).host
  therePort : (net.socks sock).peer.port = port
  crossed : (net.socks sock).localName = (net.socks far).peer ∧
    (net.socks far).localName = (net.socks sock).peer

/-- A socket whose name says which host it is on, to a peer on `destHost`: it
has no name yet, or its host's own address, or a loopback address while the
peer is on its own host. -/
def TellsHost (net : Net) (d : Sock) (destHost : Nat) : Prop :=
  d.state = .new ∨ d.localName.ip = (net.hostAt d.host).addr ∨
    Addr.isLoopback d.localName.ip ∧ destHost = d.host

instance (net : Net) (d : Sock) (destHost : Nat) :
    Decidable (net.TellsHost d destHost) := by
  unfold TellsHost
  infer_instance

/-- The name a socket is connected under resolves to its host exactly if it
tells the host. -/
theorem Prepared.resolves_iff
    (order : net.NamesInOrder)
    (few : net.hosts.length ≤ maxHosts)
    {middle : Net}
    {destHost : Nat}
    {dest : Addr}
    (idle : (net.socks sock).state = .new ∨ (net.socks sock).state = .bound)
    (isInet : (net.socks sock).family = .inet)
    (resolves : net.hostForIp (net.socks sock).host dest.ip = .ok destHost)
    (prepared : Prepared net sock dest middle) :
    net.hostForIp destHost (middle.socks sock).localName.ip =
        .ok (net.socks sock).host ↔
      net.TellsHost (net.socks sock) destHost := by
  have alive : (net.socks sock).Alive := by
    unfold Sock.Alive
    grind
  have here := order.housed sock alive
  cases prepared with
  | drawn isNew _ next =>
      refine iff_of_true ?_ (.inl isNew)
      rw [modifySock_socks_self]
      change net.hostForIp destHost
        (net.nearAddress (net.socks sock).host dest) = _
      unfold nearAddress
      split
      · next isLoopback =>
          rw [hostForIp_loopback isLoopback] at resolves
          rw [hostForIp_loopback (by decide)]
          exact resolves.symm
      · exact order.hostForIp_addr few here destHost
  | asIs named =>
      have bound : (net.socks sock).state = .bound := by grind
      have own := order.ip sock (.inl bound) isInet
      unfold TellsHost
      rcases own with zero | isLoopback | isOwn
      · rw [zero, order.hostForIp_wildcard few]
        refine iff_of_false (by simp) ?_
        rintro (isNew | isOwn | ⟨isLoopback, -⟩)
        · rw [bound] at isNew
          cases isNew
        · have value := congrArg UInt32.toNat isOwn
          rw [order.toNat_addr few here, UInt32.toNat_zero] at value
          omega
        · exact absurd isLoopback (by decide)
      · rw [hostForIp_loopback isLoopback]
        constructor
        · intro same
          exact .inr (.inr ⟨isLoopback, Except.ok.inj same⟩)
        · rintro (isNew | isOwn | ⟨-, same⟩)
          · rw [bound] at isNew
            cases isNew
          · rw [isOwn, order.notLoopback few here] at isLoopback
            cases isLoopback
          · rw [same]
      · rw [isOwn]
        exact iff_of_true (order.hostForIp_addr few here destHost)
          (.inr (.inl rfl))

/-- The recorded names tell the ends of a connection, as long as these keep
their slots, exactly if the connecting socket had no name or one that tells its
host to the far end. -/
theorem namesEnds_iff
    (reachable : hosted.Reachable net)
    (few : net.hosts.length ≤ maxHosts)
    (isInet : (net.socks sock).family = .inet)
    {destHost : Nat}
    {dest : Addr}
    (resolves : net.hostForIp (net.socks sock).host dest.ip = .ok destHost)
    (made : net.connect sock destHost dest = (later, .ok far))
    {listener : SockId}
    (found : net.findListener (net.socks sock).kind (net.socks sock).family
      destHost dest = some listener)
    {labels : List Event}
    (run : hosted.Run later labels last)
    (kept : ∀ event ∈ labels,
      handsOut event ≠ some sock ∧ handsOut event ≠ some far) :
    NamesEnds last sock far (net.socks listener).localName.port ↔
      net.TellsHost (net.socks sock) destHost := by
  have order := reachable_names reachable
  have wired := reachable_wired (reachable_of_hosted reachable)
  obtain ⟨listener', near, connected⟩ := order.connected wired made
  obtain rfl : listener = listener' :=
    Option.some.inj (found.symm.trans connected.dials.found)
  have done : net.exec (.connect sock destHost dest) =
      some (later, .ok (.sock far)) := by
    change some ((net.connect sock destHost dest).1,
      (net.connect sock destHost dest).2.map Answer.sock) = _
    rw [made]
    rfl
  have step : hosted.step net (.connect sock destHost dest, .ok (.sock far))
      later := ⟨⟨trivial, trivial⟩, done⟩
  have laterReachable := reachable.next step
  have lastOrder := reachable_names (run.reachable laterReachable)
  have length : last.hosts.length = net.hosts.length :=
    (hosts_length_of_run laterReachable run).trans
      (order.renamings_exec wired step.1 done).hosts_length
  have resolve := order.hostForIp_eq lastOrder length
  have ofSock := Settled.run laterReachable ⟨connected.sockLabel,
    connected.stream, .inl connected.sockState⟩ run
    fun event present => (kept event present).1
  have ofFar := Settled.run laterReachable ⟨connected.farLabel,
    rfl, .inl connected.farState⟩ run fun event present => (kept event present).2
  have sockHost : (last.socks sock).host = (net.socks sock).host :=
    congrArg Label.host ofSock.same
  have sockName : (last.socks sock).localName = near :=
    congrArg Label.localName ofSock.same
  have sockPeer : (last.socks sock).peer = net.farName _ listener dest :=
    congrArg Label.peer ofSock.same
  have farHost : (last.socks far).host = destHost :=
    congrArg Label.host ofFar.same
  have farName : (last.socks far).localName = net.farName _ listener dest :=
    congrArg Label.localName ofFar.same
  have farPeer : (last.socks far).peer = near :=
    congrArg Label.peer ofFar.same
  have there : net.farName (net.socks sock).family listener dest =
      { (net.socks listener).localName with ip := dest.ip } := if_pos isInet
  obtain ⟨middle, prepared, isNear⟩ := connected.prepared
  rw [← prepared.resolves_iff order few connected.dials.idle isInet resolves,
    isNear]
  constructor
  · intro names
    have resolved := names.near
    rwa [farHost, farPeer, sockHost, resolve] at resolved
  · intro resolved
    constructor
    case near =>
      rw [farHost, farPeer, sockHost, resolve]
      exact resolved
    case nearPort => rw [farPeer, sockName]
    case there =>
      rw [sockHost, sockPeer, farHost, there, resolve]
      exact resolves
    case therePort => rw [sockPeer, there]
    case crossed => exact ⟨sockName.trans farPeer.symm, farName.trans sockPeer.symm⟩

/-- A listener on the first of two hosts and a socket on the second one. -/
def acrossHosts : List Op :=
  [.opened 1 0 .inet .stream 7, .bind 0 (Addr.inet 0 80), .listen 0 5,
    .opened 2 1 .inet .stream 8]

/-- The socket reaches for the listener before it has a name. -/
theorem namesEnds_iff_unbound :
    ∃ net later : Net,
      net.connect 1 0 (Addr.inet (subnet + 1) 80) = (later, .ok 2) ∧
      (NamesEnds later 1 2 (net.socks 0).localName.port ↔
        net.TellsHost (net.socks 1) 0) := by
  obtain ⟨net, played, facts⟩ := Option.map_eq_some_iff.mp
    (by decide +kernel : (play Local acrossHosts (zeroed [[], []] 5)).map
      (fun net => decide (net.hosts.length = 2 ∧
        (net.socks 1).family = .inet ∧
        net.hostForIp (net.socks 1).host (subnet + 1) = .ok 0 ∧
        net.findListener (net.socks 1).kind (net.socks 1).family 0
          (Addr.inet (subnet + 1) 80) = some 0 ∧
        (net.connect 1 0 (Addr.inet (subnet + 1) 80)).2 = .ok 2)) = some true)
  obtain ⟨hosts, isInet, resolves, found, answer⟩ := of_decide_eq_true facts
  obtain ⟨later, made⟩ : ∃ later, net.connect 1 0 (Addr.inet (subnet + 1) 80) =
    (later, .ok 2) := ⟨_, Prod.ext rfl answer⟩
  have reachable : hosted.Reachable net :=
    reachable_play (.start ⟨_, _, rfl⟩) played
  have few : net.hosts.length ≤ maxHosts := by
    rw [hosts]
    decide
  have names := @namesEnds_iff net later later 1 2 reachable few isInet 0
    (Addr.inet (subnet + 1) 80) resolves made 0 found [] (.refl later)
    (by intro event present; cases present)
  exact ⟨net, later, made, names⟩

/-- A socket that is bound to the wildcard address is connected under it. -/
theorem not_namesEnds :
    ¬∀ (net later : Net) (sock far listener : SockId) (destHost : Nat)
      (dest : Addr), hosted.Reachable net → net.hosts.length ≤ maxHosts →
      (net.socks sock).family = .inet →
      net.hostForIp (net.socks sock).host dest.ip = .ok destHost →
      net.connect sock destHost dest = (later, .ok far) →
      net.findListener (net.socks sock).kind (net.socks sock).family destHost
        dest = some listener →
      NamesEnds later sock far (net.socks listener).localName.port := by
  intro claimed
  obtain ⟨net, played, facts⟩ := Option.map_eq_some_iff.mp
    (by decide +kernel :
      (play Local (acrossHosts ++ [.bind 1 (Addr.inet 0 90)])
        (zeroed [[], []] 5)).map
      (fun net => decide (net.hosts.length = 2 ∧
        (net.socks 1).family = .inet ∧
        net.hostForIp (net.socks 1).host (subnet + 1) = .ok 0 ∧
        net.findListener (net.socks 1).kind (net.socks 1).family 0
          (Addr.inet (subnet + 1) 80) = some 0 ∧
        (net.connect 1 0 (Addr.inet (subnet + 1) 80)).2 = .ok 2 ∧
        (net.connect 1 0 (Addr.inet (subnet + 1) 80)).1.hostForIp
          ((net.connect 1 0 (Addr.inet (subnet + 1) 80)).1.socks 2).host
          ((net.connect 1 0 (Addr.inet (subnet + 1) 80)).1.socks 2).peer.ip =
            .error false)) = some true)
  obtain ⟨hosts, isInet, resolves, found, answer, unresolved⟩ :=
    of_decide_eq_true facts
  have reachable : hosted.Reachable net :=
    reachable_play (.start ⟨_, _, rfl⟩) played
  have made : net.connect 1 0 (Addr.inet (subnet + 1) 80) =
      ((net.connect 1 0 (Addr.inet (subnet + 1) 80)).1, .ok 2) :=
    Prod.ext rfl answer
  have few : net.hosts.length ≤ maxHosts := by
    rw [hosts]
    decide
  have names := claimed net _ 1 2 0 0 (Addr.inet (subnet + 1) 80) reachable few
    isInet resolves made found
  have resolved := names.near
  rw [unresolved] at resolved
  cases resolved

end Net
end Derp
