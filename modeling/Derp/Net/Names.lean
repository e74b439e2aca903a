import Derp.Net.Ports
import Derp.Net.Slots

/-!
# Names

What a call can do to the names of sockets: a socket is made without one, it is
given one that nobody else has, it is connected under one, or it loses it with
its slot.  So the names of bound and listening sockets stay apart, and they are
names of their host.
-/

namespace Derp

/-- What a socket is, and its names. -/
structure Label where
  kind : Kind
  family : Family
  host : Nat
  localName : Addr
  peer : Addr
  hasPeer : Bool

def Sock.label (d : Sock) : Label where
  kind := d.kind
  family := d.family
  host := d.host
  localName := d.localName
  peer := d.peer
  hasPeer := d.hasPeer

/-- A socket that some process may act on. -/
def Sock.Alive (d : Sock) : Prop :=
  d.state ≠ .free ∧ d.state ≠ .closed

namespace Net

variable
  {net later : Net}
  {sock i : SockId}
  {pid : Nat}

/-! ## Steps that leave names alone -/

/-- A step that gives no socket a name: some lose theirs with their slots. -/
structure KeepsNames (net later : Net) : Prop where
  hosts : later.hosts = net.hosts
  labels : ∀ i, (later.socks i).label = (net.socks i).label
  states : ∀ i, (later.socks i).state = (net.socks i).state ∨
    (later.socks i).state = .free ∨ (later.socks i).state = .closed

theorem KeepsNames.refl (net : Net) : KeepsNames net net :=
  ⟨rfl, fun _ => rfl, fun _ => .inl rfl⟩

theorem KeepsNames.trans
    {middle : Net}
    (first : KeepsNames net middle)
    (second : KeepsNames middle later) : KeepsNames net later where
  hosts := second.hosts.trans first.hosts
  labels := fun i => (second.labels i).trans (first.labels i)
  states := by
    intro i
    grind [first.states i, second.states i]

theorem KeepsNames.of_control
    (same : later.control = net.control) : KeepsNames net later where
  hosts := by
    have view := congrArg Net.hosts same
    exact view
  labels := by
    intro i
    have view := congrArg (fun view : Net => (view.socks i).label) same
    exact view
  states := by
    intro i
    have view := congrArg (fun view : Net => (view.socks i).state) same
    exact .inl view

theorem KeepsNames.statesOnly
    (same : StatesOnly net later)
    (hosts : later.hosts = net.hosts) : KeepsNames net later where
  hosts := hosts
  labels := by
    intro i
    have view := congrArg Sock.label (same.socks i)
    exact view
  states := same.states

/-- A change of one record that no name is part of. -/
theorem KeepsNames.modifySock
    (net : Net)
    (sock : SockId)
    (change : Sock → Sock)
    (label : ∀ d, (change d).label = d.label)
    (state : ∀ d, (change d).state = d.state) :
    KeepsNames net (net.modifySock sock change) := by
  refine ⟨rfl, ?_, ?_⟩ <;> intro i <;> rw [modifySock_socks] <;> split
  · next same => rw [same]; exact label _
  · rfl
  · next same => rw [same]; exact .inl (state _)
  · exact .inl rfl

theorem hosts_deliver
    (net : Net)
    (host : Nat)
    (dst : SockId)
    (payload : Payload) :
    (net.deliver host dst payload).1.hosts = net.hosts := by
  have view := congrArg Net.hosts (control_deliver net host dst payload)
  exact view

theorem hosts_resetQueued (net : Net) (far : SockId) :
    (net.resetQueued far).hosts = net.hosts := by
  unfold resetQueued
  split
  · rfl
  · dsimp only
    split
    · rfl
    · exact hosts_deliver _ _ _ _

theorem hosts_releaseConnected (net : Net) (sock : SockId) :
    (net.releaseConnected sock).hosts = net.hosts := by
  unfold releaseConnected
  split
  · rfl
  · dsimp only
    split
    · rfl
    · split
      · rfl
      · exact hosts_deliver _ _ _ _

theorem hosts_release (net : Net) (sock : SockId) :
    (net.release sock).hosts = net.hosts := by
  unfold release
  dsimp only
  split
  · apply List.foldl_invariant fun other : Net => other.hosts = net.hosts
    · rfl
    · intro other far _ same
      exact (hosts_resetQueued other far).trans same
  · exact hosts_releaseConnected net sock
  · rfl

theorem KeepsNames.release (net : Net) (sock : SockId) :
    KeepsNames net (net.release sock) :=
  .statesOnly (.release net sock) (hosts_release net sock)

theorem KeepsNames.addRef
    (added : net.addRef pid sock = some later) : KeepsNames net later := by
  unfold Net.addRef at added
  rw [Option.map_eq_some_iff] at added
  obtain ⟨at', -, rfl⟩ := added
  have counted : KeepsNames net
      (net.setFdref at' pid sock ((net.fdrefs at').count + 1)) :=
    ⟨rfl, fun _ => rfl, fun _ => .inl rfl⟩
  exact counted.trans
    (.modifySock _ sock .gainRef (fun _ => rfl) (fun _ => rfl))

theorem KeepsNames.dropRef (net : Net) (pid : Nat) (sock : SockId) :
    KeepsNames net (net.dropRef pid sock) := by
  unfold Net.dropRef
  split
  · exact .refl net
  · next at' _ =>
      have counted : KeepsNames net
          (net.setFdref at' pid sock ((net.fdrefs at').count - 1)) :=
        ⟨rfl, fun _ => rfl, fun _ => .inl rfl⟩
      have lost := counted.trans
        (.modifySock _ sock .loseRef (fun _ => rfl) (fun _ => rfl))
      dsimp only
      split
      · exact lost.trans (.release _ sock)
      · exact lost

theorem KeepsNames.refSteps
    (steps : RefSteps pid net later) : KeepsNames net later := by
  induction steps with
  | refl => exact .refl net
  | tail _ step inductionHypothesis =>
      refine inductionHypothesis.trans ?_
      cases step with
      | gain _ added => exact .addRef added
      | drop _ => exact .dropRef _ _ _

theorem KeepsNames.shutdown
    (net : Net)
    (sock : SockId)
    (read write : Bool) :
    KeepsNames net (net.shutdown sock read write).1 := by
  rcases net.shutdown_net sock read write with same |
      ⟨-, middle, half, rest⟩
  · rw [same]
    exact .refl net
  have first : KeepsNames net middle := by
    rcases half with ⟨-, rfl⟩ | ⟨-, rfl⟩
    · exact .refl _
    · unfold shutdownRead
      split
      · exact .modifySock _ _ .shutRead (fun _ => rfl) (fun _ => rfl)
      · refine KeepsNames.trans ?_ (.of_control (control_writeEvent _ _))
        exact .modifySock _ _ .shutRead (fun _ => rfl) (fun _ => rfl)
  refine first.trans ?_
  rcases rest with ⟨-, written⟩ | same
  · rw [written]
    unfold shutdownWrite
    split
    · exact .modifySock _ _ .shutWrite (fun _ => rfl) (fun _ => rfl)
    · refine KeepsNames.trans ?_ (.of_control (control_deliver _ _ _ _))
      exact .modifySock _ _ .shutWrite (fun _ => rfl) (fun _ => rfl)
  · rw [same]
    exact .refl middle

/-! ## Steps that give names -/

/-- An address that a socket of a host may be bound to. -/
def OwnAddress (net : Net) (host : Nat) (ip : UInt32) : Prop :=
  ip = 0 ∨ Addr.isLoopback ip ∨ ip = (net.hostAt host).addr

/-- A name that a new socket may get. -/
structure Bindable (net : Net) (sock : SockId) (addr : Addr) : Prop where
  isNew : (net.socks sock).state = .new
  family : addr.family = (net.socks sock).family
  ip : addr.family = .inet → net.OwnAddress (net.socks sock).host addr.ip
  free : net.nameTaken (net.socks sock).host (net.socks sock).kind addr = false

/-- One record gets another state and another label. -/
structure Relabelled
    (net later : Net)
    (sock : SockId)
    (state : SockState)
    (label : Label) : Prop where
  hosts : later.hosts = net.hosts
  state : (later.socks sock).state = state
  label : (later.socks sock).label = label
  others : ∀ i ≠ sock, (later.socks i).state = (net.socks i).state ∧
    (later.socks i).label = (net.socks i).label

theorem relabelled_modifySock
    (net : Net)
    (sock : SockId)
    (change : Sock → Sock) :
    Relabelled net (net.modifySock sock change) sock
      (change (net.socks sock)).state (change (net.socks sock)).label where
  hosts := rfl
  state := by rw [modifySock_socks_self]
  label := by rw [modifySock_socks_self]
  others := by
    intro i different
    rw [modifySock_socks_of_ne _ _ different]
    exact ⟨rfl, rfl⟩

/-- What a call can do to names, in small steps: it takes a slot, or it is about
one socket. -/
inductive Renaming (about taken : Option SockId) : Net → Net → Prop
  | kept {net later : Net} :
      KeepsNames net later → Renaming about taken net later
  | turned {net : Net} (host : Nat) {port : UInt16} :
      firstEphemeral ≤ port →
      Renaming about taken net (net.setNextPort host port)
  | made {net later : Net} {sock : SockId} {host : Nat} {family : Family}
      {kind : Kind} :
      taken = some sock →
      (net.socks sock).state = .free → host < net.hosts.length →
      Relabelled net later sock .new
        ⟨kind, family, host, Addr.unnamed, Addr.unnamed, false⟩ →
      Renaming about taken net later
  | bound {net later : Net} {sock : SockId} {addr : Addr} :
      about = some sock → Bindable net sock addr →
      Relabelled net later sock .bound
        { (net.socks sock).label with localName := addr } →
      Renaming about taken net later
  | listening {net later : Net} {sock : SockId} :
      about = some sock →
      (net.socks sock).Named → (net.socks sock).kind = .stream →
      Relabelled net later sock .listening (net.socks sock).label →
      Renaming about taken net later
  | named {net later : Net} {sock : SockId} {addr : Addr} :
      about = some sock → (net.socks sock).state = .new →
      Relabelled net later sock .new
        { (net.socks sock).label with localName := addr } →
      Renaming about taken net later
  | connected {net later : Net} {sock : SockId} {localName peer : Addr} :
      about ≠ none ∧ taken ≠ none →
      about = some sock ∨ taken = some sock →
      (net.socks sock).state = .new ∨ (net.socks sock).state = .bound →
      (net.socks sock).kind = .stream →
      Relabelled net later sock .connected
        { (net.socks sock).label with localName := localName, peer := peer } →
      Renaming about taken net later
  | peered {net later : Net} {sock : SockId} {peer : Addr} :
      about = some sock → (net.socks sock).kind = .dgram →
      Relabelled net later sock (net.socks sock).state
        { (net.socks sock).label with peer := peer, hasPeer := true } →
      Renaming about taken net later

abbrev Renamings (about taken : Option SockId) : Net → Net → Prop :=
  Relation.ReflTransGen (Renaming about taken)

theorem Relabelled.frame
    {state : SockState}
    {label : Label}
    (change : Relabelled net later sock state label)
    {about : Option SockId}
    (isAbout : about = some sock)
    (other : about ≠ some i) :
    (later.socks i).label = (net.socks i).label ∧
      (later.socks i).state = (net.socks i).state := by
  have different : i ≠ sock := by
    rintro rfl
    exact other isAbout
  exact (change.others i different).symm

/-- What happens to sockets that a call is not about. -/
theorem Renaming.frame
    {about taken : Option SockId}
    (step : Renaming about taken net later)
    (notAbout : about ≠ some i)
    (notTaken : taken ≠ some i) :
    (later.socks i).label = (net.socks i).label ∧
      ((later.socks i).state = (net.socks i).state ∨
        (later.socks i).state = .free ∨ (later.socks i).state = .closed) := by
  cases step with
  | kept kept => exact ⟨kept.labels i, kept.states i⟩
  | turned => exact ⟨rfl, .inl rfl⟩
  | made isTaken _ _ change =>
      exact (change.frame isTaken notTaken).imp_right .inl
  | bound isAbout _ change =>
      exact (change.frame isAbout notAbout).imp_right .inl
  | listening isAbout _ _ change =>
      exact (change.frame isAbout notAbout).imp_right .inl
  | named isAbout _ change =>
      exact (change.frame isAbout notAbout).imp_right .inl
  | connected _ either _ _ change =>
      rcases either with isAbout | isTaken
      · exact (change.frame isAbout notAbout).imp_right .inl
      · exact (change.frame isTaken notTaken).imp_right .inl
  | peered isAbout _ change =>
      exact (change.frame isAbout notAbout).imp_right .inl

theorem Renamings.frame
    {about taken : Option SockId}
    (steps : Renamings about taken net later)
    (notAbout : about ≠ some i)
    (notTaken : taken ≠ some i) :
    (later.socks i).label = (net.socks i).label ∧
      ((later.socks i).state = (net.socks i).state ∨
        (later.socks i).state = .free ∨ (later.socks i).state = .closed) := by
  induction steps with
  | refl => exact ⟨rfl, .inl rfl⟩
  | tail _ step inductionHypothesis =>
      obtain ⟨label, state⟩ := step.frame notAbout notTaken
      refine ⟨label.trans inductionHypothesis.1, ?_⟩
      grind

/-! ## Names in order -/

/-- Bound and listening sockets have names of their hosts, each its own. -/
structure NamesInOrder (net : Net) : Prop where
  addr : ∀ host < net.hosts.length,
    (net.hostAt host).addr = subnet + UInt32.ofNat host + 1
  turn : ∀ host < net.hosts.length,
    firstEphemeral ≤ (net.hostAt host).nextPort
  housed : ∀ i, (net.socks i).Alive → (net.socks i).host < net.hosts.length
  family : ∀ i, (net.socks i).Named →
    (net.socks i).localName.family = (net.socks i).family
  ip : ∀ i, (net.socks i).Named → (net.socks i).family = .inet →
    net.OwnAddress (net.socks i).host (net.socks i).localName.ip
  apart : ∀ i j, (net.socks i).Named → (net.socks j).Named →
    (net.socks i).host = (net.socks j).host →
    (net.socks i).kind = (net.socks j).kind →
    (net.socks i).localName.sameName (net.socks j).localName = true → i = j
  streams : ∀ i, (net.socks i).state = .connected →
    (net.socks i).kind = .stream

/-- A step that changes no name, and gives none. -/
theorem NamesInOrder.keepsNames
    (order : net.NamesInOrder)
    (kept : KeepsNames net later) : later.NamesInOrder := by
  have host : ∀ i, (later.socks i).host = (net.socks i).host :=
    fun i => congrArg Label.host (kept.labels i)
  have kind : ∀ i, (later.socks i).kind = (net.socks i).kind :=
    fun i => congrArg Label.kind (kept.labels i)
  have family : ∀ i, (later.socks i).family = (net.socks i).family :=
    fun i => congrArg Label.family (kept.labels i)
  have name : ∀ i, (later.socks i).localName = (net.socks i).localName :=
    fun i => congrArg Label.localName (kept.labels i)
  have hostAt : ∀ h, later.hostAt h = net.hostAt h := by
    intro h
    unfold Net.hostAt
    rw [kept.hosts]
  have wasAlive : ∀ i, (later.socks i).Alive → (net.socks i).Alive := by
    intro i alive
    have state := kept.states i
    unfold Sock.Alive at *
    grind
  have wasNamed : ∀ i, (later.socks i).Named → (net.socks i).Named := by
    intro i isNamed
    have state := kept.states i
    unfold Sock.Named at *
    grind
  constructor
  case addr => simpa only [kept.hosts, hostAt] using order.addr
  case turn => simpa only [kept.hosts, hostAt] using order.turn
  case housed =>
    intro i alive
    rw [host, kept.hosts]
    exact order.housed i (wasAlive i alive)
  case family =>
    intro i isNamed
    rw [name, family]
    exact order.family i (wasNamed i isNamed)
  case ip =>
    intro i isNamed isInet
    rw [family] at isInet
    have own := order.ip i (wasNamed i isNamed) isInet
    unfold OwnAddress at *
    rw [name, host, hostAt]
    exact own
  case apart =>
    intro i j first second sameHost sameKind same
    rw [host, host] at sameHost
    rw [kind, kind] at sameKind
    rw [name, name] at same
    exact order.apart i j (wasNamed i first) (wasNamed j second) sameHost
      sameKind same
  case streams =>
    intro i linked
    rw [kind]
    apply order.streams i
    have state := kept.states i
    grind

/-- A host's turn moves. -/
theorem NamesInOrder.turned
    (order : net.NamesInOrder)
    (host : Nat)
    {port : UInt16}
    (ephemeral : firstEphemeral ≤ port) :
    (net.setNextPort host port).NamesInOrder := by
  have length : (net.setNextPort host port).hosts.length =
      net.hosts.length := by
    simp [setNextPort, setHosts]
  have addr := net.addr_setNextPort host port
  constructor
  case addr =>
    intro h within
    rw [length] at within
    rw [addr]
    exact order.addr h within
  case turn =>
    intro h within
    rw [length] at within
    by_cases same : h = host
    · subst same
      rwa [hostAt_setNextPort within]
    · have other : (net.setNextPort host port).hostAt h = net.hostAt h := by
        unfold setNextPort setHosts Net.hostAt
        simp only [List.getD_eq_getElem?_getD, List.getElem?_modify,
          if_neg (Ne.symm same)]
        cases net.hosts[h]? <;> rfl
      rw [other]
      exact order.turn h within
  case housed =>
    intro i alive
    rw [length]
    exact order.housed i alive
  case family => exact order.family
  case ip =>
    intro i isNamed isInet
    have own := order.ip i isNamed isInet
    unfold OwnAddress at *
    rw [addr]
    exact own
  case apart => exact order.apart
  case streams => exact order.streams

/-- A change of one label keeps names in order if it does for its socket. -/
theorem NamesInOrder.relabelled
    (order : net.NamesInOrder)
    {state : SockState}
    {label : Label}
    (change : Relabelled net later sock state label)
    (housed : state ≠ .free ∧ state ≠ .closed →
      label.host < net.hosts.length)
    (named : state = .bound ∨ state = .listening →
      label.localName.family = label.family ∧
      (label.family = .inet →
        net.OwnAddress label.host label.localName.ip) ∧
      ∀ i ≠ sock, (net.socks i).Named → (net.socks i).host = label.host →
        (net.socks i).kind = label.kind →
        (net.socks i).localName.sameName label.localName = false)
    (streams : state = .connected → label.kind = .stream) :
    later.NamesInOrder := by
  have hostAt : ∀ h, later.hostAt h = net.hostAt h := by
    intro h
    unfold Net.hostAt
    rw [change.hosts]
  have own : ∀ h ip, later.OwnAddress h ip ↔ net.OwnAddress h ip := by
    intro h ip
    unfold OwnAddress
    rw [hostAt]
  have host : (later.socks sock).host = label.host :=
    congrArg Label.host change.label
  have kind : (later.socks sock).kind = label.kind :=
    congrArg Label.kind change.label
  have family : (later.socks sock).family = label.family :=
    congrArg Label.family change.label
  have name : (later.socks sock).localName = label.localName :=
    congrArg Label.localName change.label
  have named' : (later.socks sock).Named → _ := fun isNamed =>
    named (by rwa [Sock.Named, change.state] at isNamed)
  have symm : ∀ a b : Addr, a.sameName b = b.sameName a := by
    intro a b
    rw [Bool.eq_iff_iff, Addr.sameName_iff, Addr.sameName_iff]
    grind
  have kept : ∀ i ≠ sock, ((later.socks i).Named ↔ (net.socks i).Named) ∧
      ((later.socks i).Alive ↔ (net.socks i).Alive) ∧
      (later.socks i).host = (net.socks i).host ∧
      (later.socks i).kind = (net.socks i).kind ∧
      (later.socks i).family = (net.socks i).family ∧
      (later.socks i).localName = (net.socks i).localName := by
    intro i different
    obtain ⟨same, sameLabel⟩ := change.others i different
    refine ⟨?_, ?_, congrArg Label.host sameLabel,
      congrArg Label.kind sameLabel, congrArg Label.family sameLabel,
      congrArg Label.localName sameLabel⟩
    · unfold Sock.Named
      rw [same]
    · unfold Sock.Alive
      rw [same]
  constructor
  case addr => simpa only [change.hosts, hostAt] using order.addr
  case turn => simpa only [change.hosts, hostAt] using order.turn
  case housed =>
    intro i alive
    rw [change.hosts]
    by_cases same : i = sock
    · subst same
      rw [host]
      rw [Sock.Alive, change.state] at alive
      exact housed alive
    · obtain ⟨-, sameAlive, sameHost, -⟩ := kept i same
      rw [sameHost]
      exact order.housed i (sameAlive.mp alive)
  case family =>
    intro i isNamed
    by_cases same : i = sock
    · subst same
      rw [name, family]
      exact (named' isNamed).1
    · obtain ⟨sameNamed, -, -, -, sameFamily, sameName⟩ := kept i same
      rw [sameName, sameFamily]
      exact order.family i (sameNamed.mp isNamed)
  case ip =>
    intro i isNamed isInet
    rw [own]
    by_cases same : i = sock
    · subst same
      rw [host, name]
      exact (named' isNamed).2.1 (family ▸ isInet)
    · obtain ⟨sameNamed, -, sameHost, -, sameFamily, sameName⟩ := kept i same
      rw [sameHost, sameName]
      exact order.ip i (sameNamed.mp isNamed) (sameFamily ▸ isInet)
  case apart =>
    have clash : ∀ i ≠ sock, (later.socks sock).Named →
        (later.socks i).Named →
        (later.socks i).host = (later.socks sock).host →
        (later.socks i).kind = (later.socks sock).kind →
        (later.socks i).localName.sameName (later.socks sock).localName =
          false := by
      intro i different isNamed otherNamed sameHost sameKind
      obtain ⟨sameNamed, -, hosts, kinds, -, names⟩ := kept i different
      rw [hosts, host] at sameHost
      rw [kinds, kind] at sameKind
      rw [names, name]
      exact (named' isNamed).2.2 i different (sameNamed.mp otherNamed)
        sameHost sameKind
    intro i j first second sameHost sameKind same
    by_cases isI : i = sock
    · subst isI
      by_contra different
      have apart := clash j (Ne.symm different) first second sameHost.symm
        sameKind.symm
      rw [symm, apart] at same
      cases same
    by_cases isJ : j = sock
    · subst isJ
      have apart := clash i isI second first sameHost sameKind
      rw [apart] at same
      cases same
    obtain ⟨named₁, -, host₁, kind₁, -, name₁⟩ := kept i isI
    obtain ⟨named₂, -, host₂, kind₂, -, name₂⟩ := kept j isJ
    rw [host₁, host₂] at sameHost
    rw [kind₁, kind₂] at sameKind
    rw [name₁, name₂] at same
    exact order.apart i j (named₁.mp first) (named₂.mp second) sameHost
      sameKind same
  case streams =>
    intro i linked
    by_cases same : i = sock
    · subst same
      rw [kind]
      exact streams (change.state.symm.trans linked)
    · obtain ⟨sameState, -⟩ := change.others i same
      obtain ⟨-, -, -, sameKind, -⟩ := kept i same
      rw [sameKind]
      exact order.streams i (sameState.symm.trans linked)

/-- Every small step keeps names in order. -/
theorem NamesInOrder.small
    (order : net.NamesInOrder)
    {about taken : Option SockId}
    (step : Renaming about taken net later) : later.NamesInOrder := by
  cases step with
  | kept kept => exact order.keepsNames kept
  | turned host ephemeral => exact order.turned host ephemeral
  | made _ isFree within change =>
      exact order.relabelled change (fun _ => within) (by simp) (by simp)
  | @bound _ sock addr _ bindable change =>
      have alive : (net.socks sock).Alive :=
        ⟨by simp [bindable.isNew], by simp [bindable.isNew]⟩
      refine order.relabelled change (fun _ => order.housed sock alive)
        (fun _ => ⟨bindable.family, fun isInet => bindable.ip
          (bindable.family.trans isInet), ?_⟩) (by simp)
      intro i different isNamed sameHost sameKind
      by_contra taken
      have free := bindable.free
      rw [Bool.eq_false_iff, ne_eq, nameTaken_iff] at free
      exact free ⟨i, isNamed, sameHost, sameKind, by simpa using taken⟩
  | @listening _ sock _ isNamed isStream change =>
      have alive : (net.socks sock).Alive := by
        unfold Sock.Named at isNamed
        unfold Sock.Alive
        grind
      refine order.relabelled change (fun _ => order.housed sock alive)
        (fun _ => ⟨order.family sock isNamed, order.ip sock isNamed, ?_⟩)
        (by simp)
      intro i different otherNamed sameHost sameKind
      by_contra taken
      exact different (order.apart i sock otherNamed isNamed sameHost sameKind
        (eq_true_of_ne_false taken))
  | @named _ sock addr _ isNew change =>
      have alive : (net.socks sock).Alive := ⟨by simp [isNew], by simp [isNew]⟩
      exact order.relabelled change (fun _ => order.housed sock alive) (by simp)
        (by simp)
  | @connected _ sock localName peer _ _ state isStream change =>
      have alive : (net.socks sock).Alive := by
        unfold Sock.Alive
        grind
      exact order.relabelled change (fun _ => order.housed sock alive) (by simp)
        fun _ => isStream
  | @peered _ sock peer _ isDgram change =>
      refine order.relabelled change (order.housed sock) (fun isNamed =>
        ⟨order.family sock isNamed, order.ip sock isNamed, ?_⟩)
        (order.streams sock)
      intro i different otherNamed sameHost sameKind
      by_contra taken
      exact different (order.apart i sock otherNamed isNamed sameHost sameKind
        (eq_true_of_ne_false taken))

theorem NamesInOrder.renamings
    (order : net.NamesInOrder)
    {about taken : Option SockId}
    (steps : Renamings about taken net later) : later.NamesInOrder := by
  induction steps with
  | refl => exact order
  | tail _ step inductionHypothesis => exact inductionHypothesis.small step

end Net
end Derp
