import Derp.Net.Names
import Derp.Net.Streams

/-!
# What the calls do to names

One inversion lemma per call that names sockets.  Each call is a chain of small
steps, so names are in order in every state that calls of processes on their
own hosts reach.
-/

namespace Derp
namespace Net

variable
  {net later : Net}
  {sock listener : SockId}
  {taken : Option SockId}

/-- What the callers check about names: a socket is made on a host of the run,
and only a datagram socket is given a default destination. -/
def Housed (net : Net) : Op → Prop
  | .opened _ host _ _ _ => host < net.hosts.length
  | .connectDgram sock _ => (net.socks sock).kind = .dgram
  | _ => True

instance (net : Net) (op : Op) : Decidable (net.Housed op) :=
  match op with
  | .opened _ host _ _ _ =>
      inferInstanceAs (Decidable (host < net.hosts.length))
  | .connectDgram sock _ =>
      inferInstanceAs (Decidable ((net.socks sock).kind = .dgram))
  | .bind .. | .listen .. | .connect .. | .accept .. | .send .. | .recv ..
  | .sendDgram .. | .recvDgram .. | .shutdown .. | .duplicated .. | .closed ..
  | .adopted .. | .died .. | .advance .. => .isTrue trivial

/-- A call that a process makes on its own host. -/
def Local (net : Net) (op : Op) : Prop :=
  net.Admissible op ∧ net.Housed op

instance (net : Net) (op : Op) : Decidable (net.Local op) := by
  unfold Local
  infer_instance

/-- The network's runs by the calls of processes on their own hosts. -/
def hosted : Transition Net Event :=
  calls Local

theorem reachable_of_hosted
    (reachable : hosted.Reachable net) : system.Reachable net := by
  induction reachable with
  | start isInit => exact .start isInit
  | next _ step inductionHypothesis =>
      exact .next inductionHypothesis ⟨step.1.1, step.2⟩

/-! ## Binding -/

/-- A host's turn has moved, or not. -/
def Turned (net middle : Net) : Prop :=
  middle = net ∨ ∃ host port, firstEphemeral ≤ port ∧
    middle = net.setNextPort host port

theorem Turned.renamings
    {middle : Net}
    {about : Option SockId}
    (turned : Turned net middle) : Renamings about taken net middle := by
  rcases turned with rfl | ⟨host, port, ephemeral, rfl⟩
  · exact .refl
  · exact .single (.turned host ephemeral)

theorem Turned.socks
    {middle : Net}
    (turned : Turned net middle) : middle.socks = net.socks := by
  rcases turned with rfl | ⟨host, port, -, rfl⟩ <;> rfl

theorem Turned.ownAddress
    {middle : Net}
    (turned : Turned net middle)
    (host : Nat)
    (ip : UInt32) : middle.OwnAddress host ip ↔ net.OwnAddress host ip := by
  unfold OwnAddress
  rcases turned with rfl | ⟨_, port, -, rfl⟩
  · rfl
  · rw [addr_setNextPort]

/-- A name that no one has taken is given to the socket. -/
theorem bindName_of_free
    {addr : Addr}
    (free : net.nameTaken (net.socks sock).host (net.socks sock).kind addr =
      false) :
    net.bindName sock addr = (net.modifySock sock (.bindTo addr), .ok ()) :=
  if_neg (by rw [free]; decide)

/-- A bind is refused before it does anything, or it binds. -/
theorem NamesInOrder.bind_cases
    (order : net.NamesInOrder)
    (sock : SockId)
    (addr : Addr) :
    (∃ e, net.bind sock addr = (net, .error e)) ∨
      ∃ middle addr', Turned net middle ∧ Bindable middle sock addr' ∧
        net.bind sock addr =
          (middle.modifySock sock (.bindTo addr'), .ok ()) := by
  unfold Net.bind
  dsimp only
  by_cases isNew : (net.socks sock).state = .new
  case neg =>
    rw [if_pos isNew]
    exact .inl ⟨_, rfl⟩
  rw [if_neg (by simpa using isNew)]
  split
  · exact .inl ⟨_, rfl⟩
  next sameFamily =>
  rw [not_not] at sameFamily
  -- With its name settled, the socket is bound unless the name is taken.
  have given (own : addr.family = .inet →
      net.OwnAddress (net.socks sock).host addr.ip) :
      (∃ e, net.bindName sock addr = (net, .error e)) ∨
        ∃ middle addr', Turned net middle ∧ Bindable middle sock addr' ∧
          net.bindName sock addr =
            (middle.modifySock sock (.bindTo addr'), .ok ()) := by
    cases taken : net.nameTaken (net.socks sock).host (net.socks sock).kind
        addr with
    | true => exact .inl ⟨_, if_pos taken⟩
    | false =>
        exact .inr ⟨net, addr, .inl rfl, ⟨isNew, sameFamily, own, taken⟩,
          bindName_of_free taken⟩
  split
  case isFalse notInet =>
    exact given fun isInet => absurd (sameFamily.symm.trans isInet) notInet
  next isInet =>
  split
  · exact .inl ⟨_, rfl⟩
  next own =>
  have own' : net.OwnAddress (net.socks sock).host addr.ip := by
    unfold OwnAddress
    grind
  split
  case isFalse => exact given fun _ => own'
  have here : (net.socks sock).host < net.hosts.length :=
    order.housed sock ⟨by simp [isNew], by simp [isNew]⟩
  have ephemeral := order.turn _ here
  obtain ⟨port, passed, next⟩ := exists_nextFree ephemeral
    (net.socks sock).kind
  rw [next.ephemeralPort here]
  dsimp only
  obtain ⟨middle, isMiddle⟩ : ∃ middle, middle = net.setNextPort
      (net.socks sock).host (portAfter port) := ⟨_, rfl⟩
  have turned : Turned net middle := by
    refine .inr ⟨_, _, ?_, isMiddle⟩
    apply firstEphemeral_le_portAfter
    rw [next.turn]
    exact firstEphemeral_le_iterate ephemeral passed
  have free : middle.nameTaken (net.socks sock).host (net.socks sock).kind
      { addr with port := port } = false := by
    have untaken := next.free
    rw [nameTaken_of_socks turned.socks]
    rw [Bool.eq_false_iff, ne_eq, nameTaken_iff] at untaken ⊢
    rintro ⟨i, isNamed, sameHost, sameKind, same⟩
    apply untaken
    refine ⟨i, isNamed, sameHost, sameKind, ?_⟩
    rw [Addr.sameName_iff] at same ⊢
    simp only [sameFamily, isInet] at same
    grind [Addr.inet]
  rw [← isMiddle]
  refine .inr ⟨middle, { addr with port := port }, turned, ?_, ?_⟩
  · constructor
    case isNew => rw [turned.socks]; exact isNew
    case family => rw [turned.socks]; exact sameFamily
    case ip =>
      intro _
      rw [turned.ownAddress, turned.socks]
      exact own'
    case free => rw [turned.socks]; exact free
  · apply bindName_of_free
    rw [turned.socks]
    exact free

/-- A bound socket has been given a name. -/
theorem Bindable.renamings
    {middle : Net}
    {addr : Addr}
    (turned : Turned net middle)
    (bindable : Bindable middle sock addr) :
    Renamings (some sock) taken net (middle.modifySock sock (.bindTo addr)) :=
  turned.renamings.tail
    (.bound rfl bindable (relabelled_modifySock middle sock (.bindTo addr)))

/-! ## Listening -/

theorem startListening_of_named
    (isNamed : (net.socks sock).Named)
    (backlog : Int) :
    net.startListening sock backlog = (net.modifySock sock
      (.listenWith (max 1 (min backlog maxBacklog)).toNat), .ok ()) := by
  unfold Sock.Named at isNamed
  unfold startListening
  exact if_neg (by grind)

/-- A listen is refused before it does anything, or it listens, under a name it
has or gets. -/
theorem NamesInOrder.listen_cases
    (order : net.NamesInOrder)
    (sock : SockId)
    (backlog : Int) :
    (∃ e, net.listen sock backlog = (net, .error e)) ∨
      ∃ middle, Renamings (some sock) none net middle ∧
        (middle.socks sock).Named ∧
        (middle.socks sock).kind = .stream ∧
        net.listen sock backlog = (middle.modifySock sock
          (.listenWith (max 1 (min backlog maxBacklog)).toNat), .ok ()) := by
  unfold Net.listen
  dsimp only
  split
  · exact .inl ⟨_, rfl⟩
  next isStream =>
  rw [not_not] at isStream
  split
  · split
    · exact .inl ⟨_, rfl⟩
    · rcases order.bind_cases sock (Addr.inet 0 0) with ⟨e, refused⟩ |
          ⟨middle, addr, turned, bindable, bound⟩
      · rw [refused]
        exact .inl ⟨e, rfl⟩
      · rw [bound]
        have record : (middle.modifySock sock (.bindTo addr)).socks sock =
            (middle.socks sock).bindTo addr := modifySock_socks_self _ _ _
        have isNamed : ((middle.modifySock sock (.bindTo addr)).socks
            sock).Named := by
          rw [record]
          exact .inl rfl
        refine .inr ⟨_, bindable.renamings turned, isNamed, ?_,
          startListening_of_named isNamed backlog⟩
        rw [record, turned.socks]
        exact isStream
  · by_cases isNamed : (net.socks sock).Named
    · exact .inr ⟨net, .refl, isNamed, isStream,
        startListening_of_named isNamed backlog⟩
    · unfold startListening
      unfold Sock.Named at isNamed
      exact .inl ⟨_, if_pos (by grind)⟩

/-! ## Connecting -/

/-- The address under which an unbound socket reaches a destination. -/
def nearAddress (net : Net) (host : Nat) (dest : Addr) : UInt32 :=
  if Addr.isLoopback dest.ip then loopback else (net.hostAt host).addr

/-- The name of the far end of a connection to `dest`. -/
def farName (net : Net) (family : Family) (listener : SockId) (dest : Addr) :
    Addr :=
  if family = .inet then
    { (net.socks listener).localName with ip := dest.ip }
  else (net.socks listener).localName

/-- A socket is about to be connected to a listener. -/
structure Dials
    (net : Net)
    (sock listener : SockId)
    (destHost : Nat)
    (dest : Addr) : Prop where
  idle : (net.socks sock).state = .new ∨ (net.socks sock).state = .bound
  found : net.findListener (net.socks sock).kind (net.socks sock).family
    destHost dest = some listener
  room : (net.socks listener).backlog.length < (net.socks listener).backlogMax

/-- A socket without a name draws a port before it is connected. -/
inductive Prepared (net : Net) (sock : SockId) (dest : Addr) : Net → Prop
  | asIs :
      ¬((net.socks sock).state = .new ∧ (net.socks sock).family = .inet) →
      Prepared net sock dest net
  | drawn {port : UInt16} {passed : Nat} :
      (net.socks sock).state = .new → (net.socks sock).family = .inet →
      net.NextFree (net.socks sock).host (net.socks sock).kind port passed →
      Prepared net sock dest
        ((net.setNextPort (net.socks sock).host (portAfter port)).modifySock
          sock (.setLocal
            (Addr.inet (net.nearAddress (net.socks sock).host dest) port)))

/-- A connect is refused before it does anything, or it finds a listener, draws
a port if the socket has none, and links the two. -/
theorem NamesInOrder.connect_cases
    (order : net.NamesInOrder)
    (sock : SockId)
    (destHost : Nat)
    (dest : Addr) :
    (∃ e, net.connect sock destHost dest = (net, .error e)) ∧
        (∀ listener, ¬net.Dials sock listener destHost dest) ∨
      ∃ listener middle, net.Dials sock listener destHost dest ∧
        Prepared net sock dest middle ∧
        net.connect sock destHost dest =
          middle.link sock listener destHost dest := by
  unfold connect
  dsimp only
  split
  · next linked =>
      refine .inl ⟨⟨_, rfl⟩, ?_⟩
      rintro listener ⟨idle, -, -⟩
      simp [linked] at idle
  split
  · next busy =>
      refine .inl ⟨⟨_, rfl⟩, ?_⟩
      rintro listener ⟨idle, -, -⟩
      grind
  next idle =>
  have idle : (net.socks sock).state = .new ∨
      (net.socks sock).state = .bound := by grind
  cases found : net.findListener (net.socks sock).kind (net.socks sock).family
      destHost dest with
  | none =>
      refine .inl ⟨⟨_, rfl⟩, ?_⟩
      rintro listener ⟨-, other, -⟩
      rw [found] at other
      cases other
  | some listener =>
      dsimp only
      split
      · next full =>
          refine .inl ⟨⟨_, rfl⟩, ?_⟩
          rintro other ⟨-, other, room⟩
          rw [found] at other
          cases other
          omega
      next room =>
      rw [not_le] at room
      have dials : net.Dials sock listener destHost dest := ⟨idle, found, room⟩
      split
      · next unnamed =>
          have here : (net.socks sock).host < net.hosts.length :=
            order.housed sock ⟨by simp [unnamed.1], by simp [unnamed.1]⟩
          obtain ⟨port, passed, next⟩ := exists_nextFree
            (order.turn _ here) (net.socks sock).kind
          rw [next.ephemeralPort here]
          have drawn := @Prepared.drawn net sock dest _ _ unnamed.1 unnamed.2 next
          unfold nearAddress at drawn
          refine .inr ⟨listener, _, dials, drawn, ?_⟩
          dsimp only
          rw [addr_setNextPort]
      · next named => exact .inr ⟨listener, net, dials, .asIs named, rfl⟩

theorem findListener_host
    {kind : Kind}
    {family : Family}
    {destHost : Nat}
    {dest : Addr}
    (found : net.findListener kind family destHost dest = some listener) :
    (net.socks listener).host = destHost := by
  have met := List.find?_finRange_some found
  simp only [Bool.and_eq_true, decide_eq_true_eq] at met
  exact met.1.1.2

/-- The sockets that a dial is about. -/
theorem Dials.apart
    {destHost : Nat}
    {dest : Addr}
    (dials : net.Dials sock listener destHost dest) :
    (net.socks listener).state = .listening ∧
      (net.socks listener).kind = (net.socks sock).kind ∧ listener ≠ sock := by
  obtain ⟨listening, kind⟩ := findListener_some dials.found
  refine ⟨listening, kind, ?_⟩
  rintro rfl
  rcases dials.idle with h | h <;> rw [listening] at h <;> cases h

theorem Prepared.socks
    {dest : Addr}
    {middle : Net}
    (prepared : Prepared net sock dest middle) :
    (∀ i ≠ sock, middle.socks i = net.socks i) ∧
      ∃ name, middle.socks sock = (net.socks sock).setLocal name := by
  cases prepared with
  | asIs => exact ⟨fun _ _ => rfl, (net.socks sock).localName, rfl⟩
  | drawn =>
      refine ⟨?_, _, modifySock_socks_self _ _ _⟩
      intro i different
      exact modifySock_socks_of_ne _ _ different

/-- A new socket gets a name. -/
theorem relabelled_setLocal
    (isNew : (net.socks sock).state = .new)
    (addr : Addr) :
    Relabelled net (net.modifySock sock (.setLocal addr)) sock .new
      { (net.socks sock).label with localName := addr } := by
  rw [← isNew]
  exact relabelled_modifySock net sock (.setLocal addr)

theorem Prepared.renamings
    {dest : Addr}
    {middle : Net}
    (prepared : Prepared net sock dest middle)
    (order : net.NamesInOrder) : Renamings (some sock) taken net middle := by
  cases prepared with
  | asIs => exact .refl
  | @drawn port passed isNew isInet next =>
      have here : (net.socks sock).host < net.hosts.length :=
        order.housed sock ⟨by simp [isNew], by simp [isNew]⟩
      have ephemeral : firstEphemeral ≤ portAfter port := by
        apply firstEphemeral_le_portAfter
        rw [next.turn]
        exact firstEphemeral_le_iterate (order.turn _ here) passed
      obtain ⟨turned, isTurned⟩ : ∃ turned, turned = net.setNextPort
          (net.socks sock).host (portAfter port) := ⟨_, rfl⟩
      have stillNew : (turned.socks sock).state = .new := by
        rw [isTurned]
        exact isNew
      have turns : Renaming (some sock) taken net turned := by
        rw [isTurned]
        exact .turned _ ephemeral
      rw [← isTurned]
      exact (Relation.ReflTransGen.single turns).tail
        (.named rfl stillNew (relabelled_setLocal stillNew _))

theorem freeSlot_eq_none_iff (net : Net) :
    net.freeSlot = none ↔ ∀ i, (net.socks i).state ≠ .free := by
  unfold freeSlot
  rw [List.find?_eq_none]
  simp

/-- A link has no slot for the far end, or it makes it and joins the two. -/
theorem link_cases
    (idle : (net.socks sock).state = .new ∨ (net.socks sock).state = .bound)
    (listening : (net.socks listener).state = .listening)
    (destHost : Nat)
    (dest : Addr) :
    net.freeSlot = none ∧ net.link sock listener destHost dest =
        (net, .error (.errno .enfile)) ∨
      ∃ far, (net.socks far).state = .free ∧ far ≠ sock ∧ far ≠ listener ∧
        net.link sock listener destHost dest =
          ((net.farTaken sock far destHost).joined sock far listener
            (net.farName (net.socks sock).family listener dest)
            (net.socks sock).localName, .ok far) := by
  unfold link socket
  dsimp only
  cases found : net.freeSlot with
  | none => exact .inl ⟨rfl, rfl⟩
  | some far =>
      have isFree : (net.socks far).state = .free := by
        simpa using List.find?_finRange_some found
      have notSock : far ≠ sock := by
        rintro rfl
        rcases idle with h | h <;> rw [isFree] at h <;> cases h
      have notListener : far ≠ listener := by
        rintro rfl
        rw [isFree] at listening
        cases listening
      have near := congrArg Sock.localName
        (@farTaken_control net far sock notSock.symm sock destHost)
      have there := congrArg Sock.localName
        (@farTaken_control net far listener notListener.symm sock destHost)
      refine .inr ⟨far, isFree, notSock, notListener, ?_⟩
      refine congrArg (·, Except.ok far) ?_
      change (net.farTaken sock far destHost).joined sock far listener
        ((net.farTaken sock far destHost).farName (net.socks sock).family
          listener dest)
        ((net.farTaken sock far destHost).socks sock).localName = _
      unfold farName
      rw [show ((net.farTaken sock far destHost).socks sock).localName =
          (net.socks sock).localName from near,
        show ((net.farTaken sock far destHost).socks listener).localName =
          (net.socks listener).localName from there]

/-- A taken slot. -/
theorem relabelled_taken
    (net : Net)
    (sock : SockId)
    (host : Nat)
    (family : Family)
    (kind : Kind) :
    Relabelled net (((net.setIdent sock 0).discardFlight sock).modifySock sock
      (.fresh host family kind)) sock .new
      ⟨kind, family, host, Addr.unnamed, Addr.unnamed, false⟩ where
  hosts := by
    have view := congrArg Net.hosts (control_discardFlight
      (net.setIdent sock 0) sock)
    exact view
  state := by rw [modifySock_socks_self]; rfl
  label := by rw [modifySock_socks_self]; rfl
  others := by
    intro i different
    rw [modifySock_socks_of_ne _ _ different]
    have view := congrArg (fun view : Net => view.socks i)
      (control_discardFlight (net.setIdent sock 0) sock)
    have state := congrArg Sock.state view
    have label := congrArg Sock.label view
    exact ⟨state, label⟩

/-- Two sockets are joined. -/
theorem renamings_joined
    {far : SockId}
    (isNew : (net.socks far).state = .new)
    (farKind : (net.socks far).kind = .stream)
    (idle : (net.socks sock).state = .new ∨ (net.socks sock).state = .bound)
    (kind : (net.socks sock).kind = .stream)
    (different : far ≠ sock)
    (listener : SockId)
    (farLocal nearLocal : Addr) :
    Renamings (some sock) (some far) net
      (net.joined sock far listener farLocal nearLocal) := by
  have first := relabelled_modifySock net far (.linkFar farLocal nearLocal sock)
  have same : (net.modifySock far (.linkFar farLocal nearLocal sock)).socks
      sock = net.socks sock := modifySock_socks_of_ne _ _ different.symm
  have second := relabelled_modifySock
    (net.modifySock far (.linkFar farLocal nearLocal sock)) sock
    (.linkNear farLocal far)
  have queued := KeepsNames.modifySock
    ((net.modifySock far (.linkFar farLocal nearLocal sock)).modifySock sock
      (.linkNear farLocal far)) listener (.enqueue far) (fun _ => rfl)
    (fun _ => rfl)
  have counted : KeepsNames _ (net.joined sock far listener farLocal
    nearLocal) := queued.trans ⟨rfl, fun _ => rfl, fun _ => .inl rfl⟩
  have both : some sock ≠ none ∧ some far ≠ none := by simp
  refine (Relation.ReflTransGen.single (.connected both (.inr rfl) (.inl isNew)
    farKind first)).tail ?_ |>.tail (.kept counted)
  exact .connected both (.inl rfl) (by rw [same]; exact idle)
    (by rw [same]; exact kind) second

/-! ## Names over runs -/

/-- What a connect does to names. -/
theorem NamesInOrder.renamings_connect
    (order : net.NamesInOrder)
    (wired : net.Wired)
    (sock : SockId)
    (destHost : Nat)
    (dest : Addr)
    (isTaken : ∀ far, (net.connect sock destHost dest).2 = .ok far →
      taken = some far) :
    Renamings (some sock) taken net (net.connect sock destHost dest).1 := by
  rcases order.connect_cases sock destHost dest with ⟨⟨e, refused⟩, -⟩ |
      ⟨listener, middle, dials, prepared, linked⟩
  · rw [refused]
  obtain ⟨listening, sameKind, apart⟩ := dials.apart
  obtain ⟨others, name, same⟩ := prepared.socks
  have kind : (net.socks sock).kind = .stream := by
    rw [← sameKind]
    exact Linked.streams wired listener (.inl listening)
  have idle : (middle.socks sock).state = .new ∨
      (middle.socks sock).state = .bound := by
    rw [same]
    exact dials.idle
  have middleKind : (middle.socks sock).kind = .stream := by
    rw [same]
    exact kind
  have steps : Renamings (some sock) taken net middle :=
    prepared.renamings order
  have here : destHost < middle.hosts.length := by
    have housed := (order.renamings steps).housed listener (by
      rw [others _ apart]
      exact ⟨by simp [listening], by simp [listening]⟩)
    rwa [others _ apart, findListener_host dials.found] at housed
  rw [linked]
  rcases link_cases idle (by rw [others _ apart]; exact listening) destHost
      dest with ⟨-, refused⟩ | ⟨far, isFree, notSock, notListener, made⟩
  · rw [refused]
    exact steps
  · obtain rfl := isTaken far (by rw [linked, made])
    rw [made]
    have change := middle.relabelled_taken far destHost
      (middle.socks sock).family (middle.socks sock).kind
    obtain ⟨sameState, sameLabel⟩ := change.others sock notSock.symm
    have farKind : _ = (middle.socks sock).kind :=
      congrArg Label.kind change.label
    have nearKind := congrArg Label.kind sameLabel
    refine (steps.tail (.made rfl isFree here change)).trans ?_
    exact renamings_joined change.state (farKind.trans middleKind)
      (by rw [sameState]; exact idle) (nearKind.trans middleKind) notSock _ _ _

/-- A new datagram socket is bound before it is used, or that is refused. -/
theorem NamesInOrder.bindIfNew_cases
    (order : net.NamesInOrder)
    (sock : SockId) :
    (∃ e, net.bindIfNew sock = (net, .error e)) ∨
      ∃ middle, Renamings (some sock) none net middle ∧
        net.bindIfNew sock = (middle, .ok ()) := by
  unfold Net.bindIfNew
  dsimp only
  split
  · rcases order.bind_cases sock (Addr.inet 0 0) with refused |
        ⟨middle, addr', turned, bindable, bound⟩
    · exact .inl refused
    · exact .inr ⟨_, bindable.renamings turned, bound⟩
  · exact .inr ⟨net, .refl, rfl⟩

/-- A datagram is refused before it does anything, or its socket is bound if it
is new and the datagram goes to where it is sent, if that is known. -/
theorem NamesInOrder.sendDgram_cases
    (order : net.NamesInOrder)
    (sock : SockId)
    (dest : Option (Nat × Addr))
    (data : List UInt8) :
    (∃ e, net.sendDgram sock dest data = (net, .error e)) ∨
      ∃ middle, data.length ≤ maxDgram ∧
        Renamings (some sock) none net middle ∧
        net.bindIfNew sock = (middle, .ok ()) ∧
        (dest.or (middle.defaultDest (middle.socks sock)) = none ∧
            net.sendDgram sock dest data =
              (middle, .error (.errno .edestaddrreq)) ∨
          ∃ host addr,
            dest.or (middle.defaultDest (middle.socks sock)) =
              some (host, addr) ∧
            net.sendDgram sock dest data =
              middle.sendTo sock host addr data) := by
  unfold Net.sendDgram
  split
  · exact .inl ⟨_, rfl⟩
  next short =>
  rw [not_lt] at short
  rcases order.bindIfNew_cases sock with ⟨e, refused⟩ | ⟨middle, steps, bound⟩
  · rw [refused]
    exact .inl ⟨e, rfl⟩
  · rw [bound]
    refine .inr ⟨middle, short, steps, rfl, ?_⟩
    dsimp only
    cases dest.or (middle.defaultDest (middle.socks sock)) with
    | none => exact .inl ⟨rfl, rfl⟩
    | some destination => exact .inr ⟨destination.1, destination.2, rfl, rfl⟩

/-- The socket that a call may give a name, or a default destination. -/
def Op.renames : Op → Option SockId
  | .bind sock _ => some sock
  | .listen sock _ => some sock
  | .connect sock _ _ => some sock
  | .connectDgram sock _ => some sock
  | .sendDgram sock _ _ => some sock
  | _ => none

/-- What a call does to names. -/
theorem NamesInOrder.renamings_exec
    (order : net.NamesInOrder)
    (wired : net.Wired)
    {op : Op}
    (here : net.Local op)
    {answer : Except NetError Answer}
    (done : net.exec op = some (later, answer)) :
    Renamings op.renames (handsOut (op, answer)) net later := by
  have quiet (kept : KeepsNames net later) :
      Renamings op.renames (handsOut (op, answer)) net later :=
    .single (.kept kept)
  cases op with
  | opened pid host family kind ident =>
      rcases opened_cases done with ⟨rfl, -⟩ | ⟨sock, isFree, rfl, added⟩
      · exact .refl
      · have taken := net.relabelled_taken sock host family kind
        have ends : KeepsNames (((net.setIdent sock 0).discardFlight
            sock).modifySock sock (.fresh host family kind)) later := by
          refine KeepsNames.trans ?_ (.addRef added)
          exact ⟨rfl, fun _ => rfl, fun _ => .inl rfl⟩
        exact (Relation.ReflTransGen.single
          (.made rfl isFree here.2 taken)).tail (.kept ends)
  | bind sock addr =>
      cases done
      rcases order.bind_cases sock addr with ⟨e, refused⟩ |
          ⟨middle, addr', turned, bindable, bound⟩
      · rw [refused]
      · rw [bound]
        exact bindable.renamings turned
  | listen sock backlog =>
      cases done
      rcases order.listen_cases sock backlog with ⟨e, refused⟩ |
          ⟨middle, steps, isNamed, isStream, listens⟩
      · rw [refused]
      · rw [listens]
        exact steps.tail (.listening rfl isNamed isStream
          (relabelled_modifySock _ _ (.listenWith _)))
  | connect sock destHost dest =>
      cases done
      apply order.renamings_connect wired sock destHost dest
      intro far made
      rw [made]
      rfl
  | connectDgram sock dest =>
      cases done
      have isDgram : (net.socks sock).kind = .dgram := here.2
      unfold Net.connectDgram
      rcases order.bindIfNew_cases sock with ⟨e, refused⟩ |
          ⟨middle, steps, bound⟩
      · rw [refused]
      · have relabels := net.relabels_bindIfNew sock
        rw [bound] at relabels
        have kind := relabels.kind sock
        rw [bound]
        exact steps.tail (.peered rfl (kind.trans isDgram)
          (relabelled_modifySock middle sock (.setPeer dest)))
  | accept pid listener ident =>
      rcases wired.accepted_cases done with ⟨rfl, -⟩ |
          ⟨far, rest, -, -, -, -, added⟩
      · exact .refl
      · apply quiet
        refine KeepsNames.trans (KeepsNames.modifySock net listener
          (.setBacklog rest) (fun _ => rfl) fun _ => rfl) ?_
        refine KeepsNames.trans ?_ (.addRef added)
        exact ⟨rfl, fun _ => rfl, fun _ => .inl rfl⟩
  | send sock data =>
      cases done
      exact quiet (.of_control (control_send net sock data))
  | recv sock room peek =>
      cases done
      exact quiet (.of_control (control_recv net sock room peek))
  | sendDgram sock dest data =>
      cases done
      rcases order.sendDgram_cases sock dest data with ⟨e, refused⟩ |
          ⟨middle, -, steps, -, ⟨-, refused⟩ | ⟨host, addr, -, sent⟩⟩
      · rw [refused]
      · rw [refused]
        exact steps
      · rw [sent]
        exact steps.tail
          (.kept (.of_control (control_sendTo middle sock host addr data)))
  | recvDgram sock room peek =>
      cases done
      exact quiet (.of_control (control_recvDgram net sock room peek))
  | shutdown sock read write =>
      cases done
      exact quiet (.shutdown net sock read write)
  | duplicated pid sock =>
      simp only [Net.exec, Option.map_eq_some_iff] at done
      obtain ⟨net', added, made⟩ := done
      cases made
      exact quiet (.addRef added)
  | closed pid sock =>
      simp only [Net.exec, Option.some.injEq, Prod.mk.injEq] at done
      obtain ⟨rfl, -⟩ := done
      exact quiet (.dropRef net pid sock)
  | adopted pid idents =>
      simp only [Net.exec, Option.map_eq_some_iff] at done
      obtain ⟨net', adopted, made⟩ := done
      cases made
      exact quiet (.refSteps (refSteps_adoptInherited wired adopted))
  | died pid =>
      simp only [Net.exec, Option.some.injEq, Prod.mk.injEq] at done
      obtain ⟨rfl, -⟩ := done
      exact quiet (.refSteps (refSteps_processDied wired pid).1)
  | advance now =>
      simp only [Net.exec, Option.some.injEq, Prod.mk.injEq] at done
      obtain ⟨rfl, -⟩ := done
      exact quiet (.of_control (control_advance net now))

/-- Names are in order when a run starts. -/
theorem names_zeroed (names : List (List UInt8)) (latencyNs : Nat) :
    (zeroed names latencyNs).NamesInOrder := by
  have hosts : ∀ host < (zeroed names latencyNs).hosts.length,
      ((zeroed names latencyNs).hostAt host).addr =
          subnet + UInt32.ofNat host + 1 ∧
        ((zeroed names latencyNs).hostAt host).nextPort = firstEphemeral := by
    unfold zeroed
    apply List.foldl_invariant fun net : Net => ∀ host < net.hosts.length,
      (net.hostAt host).addr = subnet + UInt32.ofNat host + 1 ∧
        (net.hostAt host).nextPort = firstEphemeral
    · intro host within
      cases within
    · intro net name _ known host within
      have length : (net.addHost name).hosts.length = net.hosts.length + 1 := by
        simp [addHost]
      rw [length] at within
      unfold addHost hostAt
      simp only [List.getD_eq_getElem?_getD]
      rcases Nat.lt_succ_iff_lt_or_eq.mp within with before | last
      · rw [List.getElem?_append_left before]
        have record := known host before
        unfold hostAt at record
        rwa [List.getD_eq_getElem?_getD] at record
      · subst last
        simp
  obtain ⟨records, same⟩ := zeroed_net names latencyNs
  have free : ∀ i, ((zeroed names latencyNs).socks i).state = .free := by
    rw [same]
    intro i
    rfl
  constructor
  case addr => exact fun host within => (hosts host within).1
  case turn =>
    intro host within
    rw [(hosts host within).2]
    exact UInt16.le_refl _
  case housed =>
    intro i alive
    exact absurd (free i) alive.1
  case family =>
    intro i isNamed
    rw [Sock.Named, free] at isNamed
    simp at isNamed
  case ip =>
    intro i isNamed
    rw [Sock.Named, free] at isNamed
    simp at isNamed
  case apart =>
    intro i j isNamed
    rw [Sock.Named, free] at isNamed
    simp at isNamed
  case streams =>
    intro i linked
    rw [free] at linked
    cases linked

/-- Names are in order in every state that calls of processes on their own
hosts reach. -/
theorem reachable_names
    (reachable : hosted.Reachable net) : net.NamesInOrder := by
  apply Transition.Reachable.invariantOf
    (fun _ known => reachable_wired (reachable_of_hosted known)) _ _ reachable
  · rintro net ⟨names, latencyNs, rfl⟩
    exact names_zeroed names latencyNs
  · rintro net event later wired order ⟨here, done⟩
    exact order.renamings (order.renamings_exec wired here done)

end Net
end Derp
