import Derp.Net.Ends

/-!
# Connections told apart by their names

A connection is found by the names of its ends.  No two connected sockets of a
host share theirs, as long as no connect takes up names that a connected socket
still has: the search for a port looks at bound and listening sockets only, and
the turn of ports comes around.
-/

namespace Derp

/-- The two names of a connected socket. -/
def Sock.ends (d : Sock) : (UInt32 × UInt16) × UInt32 × UInt16 :=
  ((d.localName.ip, d.localName.port), d.peer.ip, d.peer.port)

/-- One end of a connection over the virtual network. -/
def Sock.Linked (d : Sock) : Prop :=
  d.state = .connected ∧ d.family = .inet

instance (d : Sock) : Decidable d.Linked := by
  unfold Sock.Linked
  infer_instance

namespace Net

variable
  {net later : Net}
  {sock far listener i j : SockId}

/-- No two connected sockets of a host have the same names at both ends. -/
def ToldApart (net : Net) : Prop :=
  ∀ i j, i ≠ j → (net.socks i).Linked → (net.socks j).Linked →
    (net.socks i).host = (net.socks j).host →
    (net.socks i).kind = (net.socks j).kind →
    (net.socks i).ends ≠ (net.socks j).ends

/-- The name that a socket will be connected to `dest` under. -/
def nearName (net : Net) (d : Sock) (dest : Addr) : Addr :=
  if d.state = .new ∧ d.family = .inet then
    Addr.inet (net.nearAddress d.host dest) (net.nextFreePort d.host d.kind)
  else d.localName

/-- No connected socket of the host has the two names that `d` is about to
have, or the port that it is about to draw with the same destination. -/
def NearClear (net : Net) (d : Sock) (near there : Addr) : Prop :=
  ∀ i, (net.socks i).Linked → (net.socks i).host = d.host →
    ((net.socks i).peer.ip, (net.socks i).peer.port) =
      (there.ip, there.port) →
    (net.socks i).localName.port = near.port →
    d.state ≠ .new ∧ (net.socks i).localName.ip ≠ near.ip

/-- No connected socket of the destination has the two names the other way. -/
def FarClear (net : Net) (destHost : Nat) (near there : Addr) : Prop :=
  ∀ i, (net.socks i).Linked → (net.socks i).host = destHost →
    (net.socks i).ends ≠ ((there.ip, there.port), near.ip, near.port)

instance (net : Net) (d : Sock) (near there : Addr) :
    Decidable (net.NearClear d near there) := by
  unfold NearClear
  infer_instance

instance (net : Net) (destHost : Nat) (near there : Addr) :
    Decidable (net.FarClear destHost near there) := by
  unfold FarClear
  infer_instance

/-- A connect that will succeed takes up no names of a connected socket. -/
def Unambiguous (net : Net) : Op → Prop
  | .connect sock destHost dest =>
      let d := net.socks sock
      d.family = .inet → d.state = .new ∨ d.state = .bound →
        net.freeSlot ≠ none →
        ∀ listener ∈ net.findListener d.kind d.family destHost dest,
          (net.socks listener).backlog.length <
              (net.socks listener).backlogMax →
            let near := net.nearName d dest
            let there := net.farName d.family listener dest
            net.NearClear d near there ∧ net.FarClear destHost near there ∧
              (dest.family ≠ .inet → destHost = d.host →
                (near.ip, near.port) ≠ (there.ip, there.port))
  | _ => True

instance (net : Net) (op : Op) : Decidable (net.Unambiguous op) :=
  match op with
  | .connect .. => by
      unfold Unambiguous
      infer_instance
  | .opened .. | .bind .. | .listen .. | .connectDgram .. | .accept ..
  | .send .. | .recv .. | .sendDgram .. | .recvDgram .. | .shutdown ..
  | .duplicated .. | .closed .. | .adopted .. | .died .. | .advance .. =>
      .isTrue trivial

/-- A call whose connection can be told apart. -/
def LocalAndClear (net : Net) (op : Op) : Prop :=
  net.Local op ∧ net.Unambiguous op

instance (net : Net) (op : Op) : Decidable (net.LocalAndClear op) := by
  unfold LocalAndClear
  infer_instance

/-- The port that a socket is connected from is that of no other connection of
its host to the same destination. -/
def PortFresh (net : Net) (sock : SockId) : Prop :=
  ∀ i ≠ sock, (net.socks i).Linked →
    (net.socks i).host = (net.socks sock).host →
    ((net.socks i).peer.ip, (net.socks i).peer.port) =
      ((net.socks sock).peer.ip, (net.socks sock).peer.port) →
    (net.socks i).localName.port ≠ (net.socks sock).localName.port

/-! ## Calls that link nothing -/

/-- A step that links nothing leaves the ends of connections alone. -/
theorem Renaming.linked
    {about taken : Option SockId}
    (order : net.NamesInOrder)
    (step : Renaming about taken net later)
    (notBoth : about = none ∨ taken = none)
    (linked : (later.socks i).state = .connected) :
    (net.socks i).state = .connected ∧
      (later.socks i).label = (net.socks i).label := by
  -- A record that was changed into another state is none of a connection.
  have other {sock : SockId} {state : SockState} {label : Label}
      (change : Relabelled net later sock state label)
      (notLinked : state ≠ .connected) :
      (net.socks i).state = .connected ∧
        (later.socks i).label = (net.socks i).label := by
    have different : i ≠ sock := by
      rintro rfl
      exact notLinked (change.state.symm.trans linked)
    obtain ⟨state, label⟩ := change.others i different
    exact ⟨state.symm.trans linked, label⟩
  cases step with
  | kept kept =>
      have state := kept.states i
      exact ⟨by grind, kept.labels i⟩
  | turned => exact ⟨linked, rfl⟩
  | made _ _ _ change => exact other change (by decide)
  | bound _ _ change => exact other change (by decide)
  | listening _ _ _ change => exact other change (by decide)
  | named _ _ change => exact other change (by decide)
  | connected both => grind
  | @peered _ sock _ _ isDgram change =>
      apply other change
      intro linkedBefore
      have stream := order.streams sock linkedBefore
      rw [isDgram] at stream
      cases stream

theorem Renamings.linked
    {about taken : Option SockId}
    (order : net.NamesInOrder)
    (steps : Renamings about taken net later)
    (notBoth : about = none ∨ taken = none)
    (linked : (later.socks i).state = .connected) :
    (net.socks i).state = .connected ∧
      (later.socks i).label = (net.socks i).label := by
  induction steps with
  | refl => exact ⟨linked, rfl⟩
  | tail before step inductionHypothesis =>
      obtain ⟨between, label⟩ :=
        step.linked (order.renamings before) notBoth linked
      obtain ⟨first, label'⟩ := inductionHypothesis between
      exact ⟨first, label.trans label'⟩

/-- Steps that link nothing keep connections told apart. -/
theorem ToldApart.keeps
    (apart : net.ToldApart)
    (kept : ∀ i, (later.socks i).Linked →
      (net.socks i).state = .connected ∧
        (later.socks i).label = (net.socks i).label) :
    later.ToldApart := by
  have linked : ∀ i, (later.socks i).Linked → (net.socks i).Linked ∧
      (later.socks i).host = (net.socks i).host ∧
      (later.socks i).kind = (net.socks i).kind ∧
      (later.socks i).ends = (net.socks i).ends := by
    intro i isLinked
    obtain ⟨stateBefore, label⟩ := kept i isLinked
    have sameFamily : (later.socks i).family = (net.socks i).family :=
      congrArg Label.family label
    refine ⟨⟨stateBefore, sameFamily ▸ isLinked.2⟩, congrArg Label.host label,
      congrArg Label.kind label, ?_⟩
    exact congrArg (fun view : Label => ((view.localName.ip,
      view.localName.port), view.peer.ip, view.peer.port)) label
  intro i j different first second host kind
  obtain ⟨first', host₁, kind₁, ends₁⟩ := linked i first
  obtain ⟨second', host₂, kind₂, ends₂⟩ := linked j second
  rw [ends₁, ends₂]
  rw [host₁, host₂] at host
  rw [kind₁, kind₂] at kind
  exact apart i j different first' second' host kind

/-! ## Calls that link two sockets -/

/-- The name that a socket was connected under is the one it was going to
have. -/
theorem Prepared.eq_nearName
    {dest : Addr}
    {middle : Net}
    (prepared : Prepared net sock dest middle) :
    (middle.socks sock).localName = net.nearName (net.socks sock) dest := by
  cases prepared with
  | asIs named => exact (if_neg named).symm
  | drawn isNew isInet next =>
      rw [modifySock_socks_self, next.eq_nextFreePort]
      exact (if_pos ⟨isNew, isInet⟩).symm

/-- A socket is not connected under the name of the listener it reaches. -/
theorem NamesInOrder.near_ne_there
    (order : net.NamesInOrder)
    {destHost : Nat}
    {dest middle}
    (dials : net.Dials sock listener destHost dest)
    (isInet : (net.socks sock).family = .inet)
    (destInet : dest.family = .inet)
    (sameHost : destHost = (net.socks sock).host)
    (prepared : Prepared net sock dest middle) :
    (middle.socks sock).localName.port ≠
      (net.socks listener).localName.port := by
  obtain ⟨listening, sameKind, apart⟩ := dials.apart
  have host := findListener_host dials.found
  have met := List.find?_finRange_some dials.found
  simp only [Bool.and_eq_true, Sock.answersTo] at met
  have sameName := met.2.1
  rw [Addr.sameName_iff] at sameName
  have listenerFamily : (net.socks listener).localName.family = .inet :=
    sameName.1.trans destInet
  intro samePort
  cases prepared with
  | asIs named =>
      have bound : (net.socks sock).state = .bound := by grind [dials.idle]
      have sockFamily := (order.family sock (.inl bound)).trans isInet
      apply apart
      apply order.apart listener sock (.inr listening) (.inl bound)
        (host.trans sameHost) sameKind
      rw [Addr.sameName_iff]
      exact ⟨listenerFamily.trans sockFamily.symm,
        .inl ⟨listenerFamily, samePort.symm⟩⟩
  | @drawn port passed _ _ next =>
      rw [modifySock_socks_self] at samePort
      have free := next.free
      rw [Bool.eq_false_iff, ne_eq, nameTaken_iff] at free
      apply free
      refine ⟨listener, .inr listening, host.trans sameHost, sameKind, ?_⟩
      rw [Addr.sameName_iff]
      exact ⟨listenerFamily, .inl ⟨listenerFamily, samePort.symm⟩⟩

/-- What is known of the two ends of a new connection, and of the others. -/
structure Separate
    (net later : Net)
    (sock far : SockId)
    (destHost : Nat)
    (near there : Addr) : Prop where
  sockEnds : (later.socks sock).ends = ((near.ip, near.port), there.ip, there.port)
  sockHost : (later.socks sock).host = (net.socks sock).host
  farEnds : (later.socks far).ends = ((there.ip, there.port), near.ip, near.port)
  farHost : (later.socks far).host = destHost
  others : ∀ i ≠ sock, i ≠ far → (later.socks i).Linked →
    (net.socks i).Linked ∧ (later.socks i).host = (net.socks i).host ∧
      (later.socks i).kind = (net.socks i).kind ∧
      (later.socks i).ends = (net.socks i).ends
  nearClear : net.NearClear (net.socks sock) near there
  farClear : net.FarClear destHost near there
  apart : destHost = (net.socks sock).host →
    (near.ip, near.port) ≠ (there.ip, there.port)

theorem NamesInOrder.separate
    (order : net.NamesInOrder)
    {destHost : Nat}
    {dest near : Addr}
    (connected : Connected net later sock far listener destHost dest near)
    (isInet : (net.socks sock).family = .inet)
    (clear : net.Unambiguous (.connect sock destHost dest)) :
    ∃ near there, Separate net later sock far destHost near there := by
  obtain ⟨middle, prepared, isNear⟩ := connected.prepared
  have dials := connected.dials
  have slot : net.freeSlot ≠ none := by
    intro none
    exact (freeSlot_eq_none_iff net).mp none far connected.wasFree
  obtain ⟨nearClear, farClear, selfClear⟩ := clear isInet dials.idle slot
    listener dials.found dials.room
  rw [← prepared.eq_nearName, isNear] at nearClear farClear selfClear
  refine ⟨near, _, ?_, ?_, ?_, ?_, ?_, nearClear, farClear, ?_⟩
  · exact congrArg (fun view : Label => ((view.localName.ip,
      view.localName.port), view.peer.ip, view.peer.port)) connected.sockLabel
  · exact congrArg Label.host connected.sockLabel
  · exact congrArg (fun view : Label => ((view.localName.ip,
      view.localName.port), view.peer.ip, view.peer.port)) connected.farLabel
  · exact congrArg Label.host connected.farLabel
  · rintro i notSock notFar ⟨state, family⟩
    obtain ⟨sameState, label⟩ := connected.others i notSock notFar
    have sameFamily : (later.socks i).family = (net.socks i).family :=
      congrArg Label.family label
    refine ⟨⟨sameState ▸ state, sameFamily ▸ family⟩,
      congrArg Label.host label, congrArg Label.kind label, ?_⟩
    exact congrArg (fun view : Label => ((view.localName.ip,
      view.localName.port), view.peer.ip, view.peer.port)) label
  · intro sameHost
    by_cases destInet : dest.family = .inet
    · have ports := order.near_ne_there dials isInet destInet sameHost prepared
      rw [isNear] at ports
      have there : (net.farName (net.socks sock).family listener dest).port =
          (net.socks listener).localName.port := by
        unfold farName
        split <;> rfl
      intro same
      exact ports ((congrArg Prod.snd same).trans there)
    · exact selfClear destInet sameHost

/-- A new connection is told apart from the others. -/
theorem ToldApart.connected
    (apart : net.ToldApart)
    {destHost : Nat}
    {near there : Addr}
    (separate : Separate net later sock far destHost near there) :
    later.ToldApart := by
  -- What one of the two ends shares with another socket.
  have sockApart : ∀ j ≠ sock, (later.socks j).Linked →
      (later.socks j).host = (later.socks sock).host →
      (later.socks j).ends ≠ (later.socks sock).ends := by
    intro j different linked host same
    rw [separate.sockEnds] at same
    rw [separate.sockHost] at host
    by_cases isFar : j = far
    · subst isFar
      rw [separate.farEnds] at same
      rw [separate.farHost] at host
      exact separate.apart host (congrArg Prod.snd same)
    · obtain ⟨before, sameHost, -, sameEnds⟩ :=
        separate.others j different isFar linked
      rw [sameHost] at host
      rw [sameEnds] at same
      obtain ⟨names, peers⟩ := Prod.mk.inj same
      have clear := separate.nearClear j before host peers
        (congrArg Prod.snd names)
      exact clear.2 (congrArg Prod.fst names)
  have farApart : ∀ j ≠ sock, j ≠ far → (later.socks j).Linked →
      (later.socks j).host = (later.socks far).host →
      (later.socks j).ends ≠ (later.socks far).ends := by
    intro j notSock notFar linked host
    obtain ⟨before, sameHost, -, sameEnds⟩ :=
      separate.others j notSock notFar linked
    rw [separate.farHost, sameHost] at host
    rw [separate.farEnds, sameEnds]
    exact separate.farClear j before host
  intro i j different first second host kind
  by_cases iSock : i = sock
  · subst iSock
    exact (sockApart j different.symm second host.symm).symm
  by_cases jSock : j = sock
  · subst jSock
    exact sockApart i different first host
  by_cases iFar : i = far
  · subst iFar
    exact (farApart j jSock different.symm second host.symm).symm
  by_cases jFar : j = far
  · subst jFar
    exact farApart i iSock different first host
  obtain ⟨first', host₁, kind₁, ends₁⟩ := separate.others i iSock iFar first
  obtain ⟨second', host₂, kind₂, ends₂⟩ := separate.others j jSock jFar second
  rw [ends₁, ends₂]
  rw [host₁, host₂] at host
  rw [kind₁, kind₂] at kind
  exact apart i j different first' second' host kind

/-- A port that was drawn for a connection is that of no other one. -/
theorem Separate.portFresh
    {destHost : Nat}
    {near there : Addr}
    (separate : Separate net later sock far destHost near there)
    (isNew : (net.socks sock).state = .new) : later.PortFresh sock := by
  intro i different linked host peers samePort
  have ofSock := separate.sockEnds
  obtain ⟨sockName, sockPeer⟩ := Prod.mk.inj ofSock
  rw [sockPeer] at peers
  have port : (later.socks sock).localName.port = near.port :=
    congrArg Prod.snd sockName
  rw [port] at samePort
  rw [separate.sockHost] at host
  by_cases isFar : i = far
  · subst isFar
    obtain ⟨-, farPeer⟩ := Prod.mk.inj separate.farEnds
    rw [separate.farHost] at host
    exact separate.apart host (farPeer.symm.trans peers)
  · obtain ⟨before, sameHost, -, sameEnds⟩ :=
      separate.others i different isFar linked
    obtain ⟨names, peerNames⟩ := Prod.mk.inj sameEnds
    rw [sameHost] at host
    have clear := separate.nearClear i before host (peerNames.symm.trans peers)
      ((congrArg Prod.snd names).symm.trans samePort)
    exact clear.1 isNew

/-! ## Runs -/

/-- The network's runs in which no connect takes up names of a connected
socket. -/
def unambiguous : Transition Net Event :=
  calls LocalAndClear

theorem hosted_of_unambiguous
    (reachable : unambiguous.Reachable net) : hosted.Reachable net := by
  induction reachable with
  | start isInit => exact .start isInit
  | next _ step inductionHypothesis =>
      exact .next inductionHypothesis ⟨step.1.1, step.2⟩

/-- One call keeps connections told apart. -/
theorem ToldApart.exec
    (apart : net.ToldApart)
    (order : net.NamesInOrder)
    (wired : net.Wired)
    {op : Op}
    (may : net.LocalAndClear op)
    {answer : Except NetError Answer}
    (done : net.exec op = some (later, answer)) : later.ToldApart := by
  have steps := order.renamings_exec wired may.1 done
  have quiet (notBoth : op.renames = none ∨ handsOut (op, answer) = none) :
      later.ToldApart :=
    apart.keeps fun i linked => steps.linked order notBoth linked.1
  cases op with
  | connect sock destHost dest =>
      simp only [Net.exec, answering, Option.some.injEq, Prod.mk.injEq] at done
      obtain ⟨isLater, isAnswer⟩ := done
      cases result : (net.connect sock destHost dest).2 with
      | error e =>
          rw [result] at isAnswer
          apply quiet (.inr _)
          rw [← isAnswer]
          rfl
      | ok far =>
          have made : net.connect sock destHost dest = (later, .ok far) :=
            Prod.ext isLater result
          obtain ⟨listener, near, connected⟩ := order.connected wired made
          by_cases isInet : (net.socks sock).family = .inet
          · obtain ⟨near, there, separate⟩ :=
              order.separate connected isInet may.2
            exact apart.connected separate
          · -- Connections of other families are not told apart by addresses.
            apply apart.keeps
            intro i linked
            have notSock : i ≠ sock := by
              rintro rfl
              have family := congrArg Label.family connected.sockLabel
              exact isInet (Eq.trans (Eq.symm family) linked.2)
            have notFar : i ≠ far := by
              rintro rfl
              have family := congrArg Label.family connected.farLabel
              exact isInet (Eq.trans (Eq.symm family) linked.2)
            obtain ⟨state, label⟩ := connected.others i notSock notFar
            exact ⟨state.symm.trans linked.1, label⟩
  | opened => exact quiet (.inl rfl)
  | bind => exact quiet (.inr rfl)
  | listen => exact quiet (.inr rfl)
  | connectDgram => exact quiet (.inr rfl)
  | sendDgram => exact quiet (.inr rfl)
  | _ => exact quiet (.inl rfl)

/-- In every run whose connects take up no names of connected sockets,
connections are told apart by their names, and a port that is drawn for a
connection is that of no other one of its host to the same destination. -/
theorem toldApart_of_reachable
    (reachable : unambiguous.Reachable net) :
    net.ToldApart ∧
      ∀ sock destHost dest later far, (net.socks sock).state = .new →
        (net.socks sock).family = .inet →
        net.Unambiguous (.connect sock destHost dest) →
        net.connect sock destHost dest = (later, .ok far) →
        later.PortFresh sock := by
  have known {net : Net} (reachable : unambiguous.Reachable net) :
      net.NamesInOrder ∧ net.Wired := by
    have before := hosted_of_unambiguous reachable
    exact ⟨reachable_names before, reachable_wired (reachable_of_hosted before)⟩
  constructor
  · apply Transition.Reachable.invariantOf (fun _ => known) _ _ reachable
    · rintro net ⟨names, latencyNs, rfl⟩ i j - linked
      obtain ⟨hosts, same⟩ := zeroed_net names latencyNs
      rw [same] at linked
      cases linked.1
    · rintro net event later ⟨order, wired⟩ apart ⟨may, done⟩
      exact apart.exec order wired may done
  · intro sock destHost dest later far isNew isInet clear made
    obtain ⟨order, wired⟩ := known reachable
    obtain ⟨listener, near, connected⟩ := order.connected wired made
    obtain ⟨near, there, separate⟩ := order.separate connected isInet clear
    exact separate.portFresh isNew

/-- Two sockets of a host reach a listener of the same host. -/
def twoConnections : List Op :=
  [.opened 1 0 .inet .stream 7, .bind 0 (Addr.inet 0 80), .listen 0 5,
    .opened 1 0 .inet .stream 8, .connect 1 0 (Addr.inet loopback 80),
    .opened 1 0 .inet .stream 9, .connect 3 0 (Addr.inet loopback 80)]

theorem toldApart_of_reachable_twoConnections :
    ∃ net, play LocalAndClear twoConnections (zeroed [[]] 0) = some net ∧
      net.ToldApart := by
  obtain ⟨net, played⟩ := Option.isSome_iff_exists.mp
    (by decide +kernel :
      (play LocalAndClear twoConnections (zeroed [[]] 0)).isSome = true)
  have reachable : unambiguous.Reachable net :=
    reachable_play (.start ⟨_, _, rfl⟩) played
  exact ⟨net, played, (toldApart_of_reachable reachable).1⟩

/-- A socket stops counting as bound once it is connected, so that another one
gets its name and makes the same connection. -/
def sameNameTwice : List Op :=
  [.opened 1 0 .inet .stream 7, .bind 0 (Addr.inet 0 80), .listen 0 5,
    .opened 1 0 .inet .stream 8, .bind 1 (Addr.inet 0 90),
    .connect 1 0 (Addr.inet loopback 80),
    .opened 1 0 .inet .stream 9, .bind 3 (Addr.inet 0 90),
    .connect 3 0 (Addr.inet loopback 80)]

theorem not_toldApart :
    ¬∀ net : Net, hosted.Reachable net → net.ToldApart := by
  intro claimed
  obtain ⟨net, played, facts⟩ := Option.map_eq_some_iff.mp
    (by decide +kernel :
      (play Local sameNameTwice (zeroed [[]] 0)).map
        (fun net => decide ((net.socks 1).Linked ∧ (net.socks 3).Linked ∧
          (net.socks 1).host = (net.socks 3).host ∧
          (net.socks 1).kind = (net.socks 3).kind ∧
          (net.socks 1).ends = (net.socks 3).ends)) = some true)
  obtain ⟨first, second, host, kind, ends⟩ := of_decide_eq_true facts
  have reachable : hosted.Reachable net :=
    reachable_play (.start ⟨_, _, rfl⟩) played
  exact claimed net reachable 1 3 (by decide) first second host kind ends

end Net
end Derp
