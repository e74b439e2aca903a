import Derp.Net.Dialling

/-!
# Refused calls

A call on a stream that is refused has changed nothing, but for a connect that
finds a listener and then no slot for the far end of its connection: the port
it has drawn is gone, and its socket has got a name.
-/

namespace Derp
namespace Net

variable
  {net later : Net}
  {sock listener : SockId}

/-! ## What a refused call has done -/

/-- The calls that streams are made with. -/
def Op.ofStreams : Op → Bool
  | .bind .. | .listen .. | .connect .. | .accept .. => true
  | _ => false

/-- An unbound socket dials a listener, and there is no slot for the far end of
their connection. -/
structure Starved
    (net : Net)
    (sock : SockId)
    (destHost : Nat)
    (dest : Addr) : Prop where
  isNew : (net.socks sock).state = .new
  family : (net.socks sock).family = .inet
  full : net.freeSlot = none
  dials : ∃ listener, net.Dials sock listener destHost dest

/-- The turn of a host has moved when a port was drawn. -/
theorem NextFree.turn_moved
    {host : Nat}
    {kind : Kind}
    {port : UInt16}
    {passed : Nat}
    (next : net.NextFree host kind port passed)
    (ephemeral : firstEphemeral ≤ (net.hostAt host).nextPort) :
    portAfter port ≠ (net.hostAt host).nextPort := by
  intro same
  have few := next.few
  have all : maxSockets + 1 < portCount := by decide
  rw [next.turn, ← Function.iterate_succ_apply' portAfter] at same
  have none := @portAfter_iterate_injective _ ephemeral (passed + 1) 0
    (by omega) (by omega) same
  omega

/-- A starved connect has drawn a port when it is refused. -/
theorem NamesInOrder.connect_starved
    (order : net.NamesInOrder)
    {destHost : Nat}
    {dest : Addr}
    (starved : net.Starved sock destHost dest) :
    (net.connect sock destHost dest).1 ≠ net ∧
      (net.connect sock destHost dest).2 = .error (.errno .enfile) := by
  have isNew := starved.isNew
  rcases order.connect_cases sock destHost dest with ⟨-, none⟩ |
      ⟨listener, middle, dials, prepared, linked⟩
  · obtain ⟨listener, dials⟩ := starved.dials
    exact absurd dials (none listener)
  obtain ⟨listening, -, apart⟩ := dials.apart
  obtain ⟨others, name, same⟩ := prepared.socks
  have idle : (middle.socks sock).state = .new ∨
      (middle.socks sock).state = .bound := by
    rw [same]
    exact dials.idle
  have noSlot : ∀ i, (middle.socks i).state ≠ .free := by
    have full := (freeSlot_eq_none_iff net).mp starved.full
    intro i
    by_cases isSock : i = sock
    · subst isSock
      rw [same]
      exact full i
    · rw [others i isSock]
      exact full i
  rcases link_cases idle (by rw [others _ apart]; exact listening) destHost
      dest with ⟨-, refused⟩ | ⟨far, isFree, -⟩
  · rw [linked, refused]
    refine ⟨?_, rfl⟩
    have here : (net.socks sock).host < net.hosts.length :=
      order.housed sock ⟨by simp [isNew], by simp [isNew]⟩
    cases prepared with
    | asIs named => exact absurd ⟨isNew, starved.family⟩ named
    | @drawn port passed _ _ next =>
        intro unchanged
        apply next.turn_moved (order.turn _ here)
        have turn := congrArg (fun view : Net =>
          (view.hostAt (net.socks sock).host).nextPort) unchanged
        refine Eq.trans ?_ turn
        exact (hostAt_setNextPort here _).symm
  · exact absurd isFree (noSlot far)

/-- A connect that is refused otherwise has changed nothing. -/
theorem NamesInOrder.connect_refused
    (order : net.NamesInOrder)
    {destHost : Nat}
    {dest : Addr}
    {e : NetError}
    (refused : (net.connect sock destHost dest).2 = .error e)
    (fed : ¬net.Starved sock destHost dest) :
    (net.connect sock destHost dest).1 = net := by
  rcases order.connect_cases sock destHost dest with ⟨⟨e, early⟩, -⟩ |
      ⟨listener, middle, dials, prepared, linked⟩
  · rw [early]
  obtain ⟨listening, -, apart⟩ := dials.apart
  obtain ⟨others, name, same⟩ := prepared.socks
  have idle : (middle.socks sock).state = .new ∨
      (middle.socks sock).state = .bound := by
    rw [same]
    exact dials.idle
  rcases link_cases idle (by rw [others _ apart]; exact listening) destHost
      dest with ⟨full, late⟩ | ⟨far, -, -, -, made⟩
  · rw [linked, late]
    cases prepared with
    | asIs => rfl
    | drawn isNew isInet next =>
        refine absurd ⟨isNew, isInet, ?_, listener, dials⟩ fed
        rw [freeSlot_eq_none_iff] at full ⊢
        intro i
        have noSlot := full i
        by_cases isSock : i = sock
        · subst isSock
          rw [isNew]
          decide
        · rwa [others i isSock] at noSlot
  · rw [linked, made] at refused
    cases refused

/-- A refused bind, listen, connect or accept has changed nothing, unless it is
a connect by an unbound socket that finds a listener with room in its queue
and no slot for the far end. -/
theorem unchanged_of_refused_iff
    (reachable : hosted.Reachable net)
    {op : Op}
    (ofStreams : op.ofStreams = true)
    {e : NetError}
    (refused : net.exec op = some (later, .error e)) :
    later = net ↔ ∀ sock destHost dest, op = .connect sock destHost dest →
      ¬net.Starved sock destHost dest := by
  have order := reachable_names reachable
  cases op with
  | bind sock addr =>
      refine iff_of_true ?_ (by rintro _ _ _ ⟨⟩)
      simp only [Net.exec, answering, Option.some.injEq, Prod.mk.injEq]
        at refused
      obtain ⟨rfl, failed⟩ := refused
      rcases order.bind_cases sock addr with ⟨e, same⟩ | ⟨_, _, -, -, bound⟩
      · rw [same]
      · rw [bound] at failed
        cases failed
  | listen sock backlog =>
      refine iff_of_true ?_ (by rintro _ _ _ ⟨⟩)
      simp only [Net.exec, answering, Option.some.injEq, Prod.mk.injEq]
        at refused
      obtain ⟨rfl, failed⟩ := refused
      rcases order.listen_cases sock backlog with ⟨e, same⟩ |
          ⟨_, -, -, -, listens⟩
      · rw [same]
      · rw [listens] at failed
        cases failed
  | accept pid listener ident =>
      refine iff_of_true ?_ (by rintro _ _ _ ⟨⟩)
      rcases (reachable_wired (reachable_of_hosted
        reachable)).accepted_cases refused with ⟨same, -⟩ |
          ⟨_, _, -, -, failed, -⟩
      · exact same
      · cases failed
  | connect sock destHost dest =>
      simp only [Net.exec, answering, Option.some.injEq, Prod.mk.injEq]
        at refused
      obtain ⟨rfl, failed⟩ := refused
      have isError : ∃ e, (net.connect sock destHost dest).2 = .error e := by
        cases result : (net.connect sock destHost dest).2 with
        | error e => exact ⟨e, rfl⟩
        | ok far =>
            rw [result] at failed
            cases failed
      obtain ⟨e, isError⟩ := isError
      constructor
      · rintro same _ _ _ ⟨rfl, rfl, rfl⟩ starved
        exact (order.connect_starved starved).1 same
      · intro fed
        exact order.connect_refused isError (fed sock destHost dest rfl)
  | _ => cases ofStreams

/-- A bind to a name that another socket has. -/
theorem unchanged_of_refused_iff_bind :
    ∃ net later : Net,
      net.exec (.bind 1 (Addr.inet 0 80)) =
        some (later, .error (.errno .eaddrinuse)) ∧
      (later = net ↔ ∀ sock destHost dest,
        Op.bind 1 (Addr.inet 0 80) = .connect sock destHost dest →
          ¬net.Starved sock destHost dest) := by
  obtain ⟨net, played, answer⟩ := Option.map_eq_some_iff.mp
    (by decide +kernel : (play Local
      [.opened 1 0 .inet .stream 7, .bind 0 (Addr.inet 0 80),
        .opened 1 0 .inet .stream 8] (zeroed [[]] 0)).map (fun net =>
          (net.bind 1 (Addr.inet 0 80)).2) =
        some (.error (.errno .eaddrinuse)))
  have refused : net.exec (.bind 1 (Addr.inet 0 80)) =
      some ((net.bind 1 (Addr.inet 0 80)).1, .error (.errno .eaddrinuse)) := by
    change some ((net.bind 1 (Addr.inet 0 80)).1,
      (net.bind 1 (Addr.inet 0 80)).2.map fun _ => Answer.done) = _
    rw [answer]
    rfl
  exact ⟨net, _, refused, unchanged_of_refused_iff
    (reachable_play (.start ⟨_, _, rfl⟩) played) rfl refused⟩

/-! ## A run that takes every slot -/

/-- A process opens a socket while there is a slot and an entry for it. -/
theorem exists_opened
    (slot : ∃ i, (net.socks i).state = .free)
    (entry : ∃ e < maxFdrefs, (net.fdrefs e).count = 0)
    (pid host ident : Nat)
    (family : Family)
    (kind : Kind) :
    ∃ later far e, (net.socks far).state = .free ∧
      net.exec (.opened pid host family kind ident) =
        some (later, .ok (.sock far)) ∧
      (later.socks far).state = .new ∧ later.hosts = net.hosts ∧
      (∀ i ≠ far, (later.socks i).control = (net.socks i).control) ∧
      ∀ other ≠ e, later.fdrefs other = net.fdrefs other := by
  obtain ⟨i, isFree⟩ := slot
  obtain ⟨e, within, unused⟩ := entry
  rcases net.socket_net host family kind with refused | ⟨far, farFree, made⟩
  · unfold socket at refused
    cases found : net.freeSlot with
    | none => exact absurd isFree ((freeSlot_eq_none_iff net).mp found i)
    | some j =>
        rw [found] at refused
        cases congrArg Prod.snd refused
  obtain ⟨taken, isTaken⟩ : ∃ taken, taken = (((net.setIdent far
      0).discardFlight far).modifySock far (.fresh host family kind)).setIdent
        far ident := ⟨_, rfl⟩
  have fdrefs : taken.fdrefs = net.fdrefs := by
    have view := congrArg Net.fdrefs
      (net.control_taken far host family kind)
    rw [isTaken]
    exact view
  obtain ⟨at', found⟩ : ∃ at', taken.fdrefAt pid far = some at' := by
    rw [← Option.isSome_iff_exists]
    unfold fdrefAt
    rw [Option.isSome_or, Bool.or_eq_true]
    right
    rw [List.find?_isSome, fdrefs]
    exact ⟨e, List.mem_range.mpr within, by simpa using unused⟩
  refine ⟨(taken.setFdref at' pid far ((taken.fdrefs at').count +
    1)).modifySock far .gainRef, far, at', farFree, ?_, ?_, ?_, ?_, ?_⟩
  · simp only [Net.exec, made, handOut, ← isTaken, addRef, found,
      Option.map_some]
  · have change := net.relabelled_taken far host family kind
    rw [modifySock_socks_self, isTaken]
    exact change.state
  · have change := net.relabelled_taken far host family kind
    rw [isTaken]
    exact change.hosts
  · intro i different
    rw [modifySock_socks_of_ne _ _ different]
    have view := congrArg (fun view : Net => view.socks i)
      (net.control_taken far host family kind)
    have same : (((net.setIdent far 0).modifySock far
        (.fresh host family kind)).socks i) = net.socks i :=
      modifySock_socks_of_ne _ _ different
    have record : (taken.socks i).control = (net.socks i).control := by
      rw [isTaken]
      exact view.trans (congrArg Sock.control same)
    exact record
  · intro other different
    refine Eq.trans ?_ (congrFun fdrefs other)
    exact Function.update_of_ne different _ _

/-- The slots that are free, and the entries that count descriptors. -/
def freeSlots (net : Net) : Finset SockId :=
  Finset.univ.filter fun i => (net.socks i).state = .free

def usedEntries (net : Net) : Finset Nat :=
  (Finset.range maxFdrefs).filter fun e => (net.fdrefs e).count ≠ 0

/-- A process opens sockets until every slot is taken. -/
theorem exists_full
    (reachable : hosted.Reachable net)
    (host : 0 < net.hosts.length)
    (entries : net.usedEntries.card + net.freeSlots.card < maxFdrefs) :
    ∃ later, hosted.Reachable later ∧ later.freeSlot = none ∧
      ∀ i, (net.socks i).state ≠ .free →
        (later.socks i).control = (net.socks i).control := by
  obtain ⟨count, isCount⟩ : ∃ count, net.freeSlots.card = count := ⟨_, rfl⟩
  induction count generalizing net with
  | zero =>
      refine ⟨net, reachable, ?_, fun _ _ => rfl⟩
      rw [freeSlot_eq_none_iff]
      intro i isFree
      have member : i ∈ net.freeSlots := by simp [freeSlots, isFree]
      rw [Finset.card_eq_zero] at isCount
      rw [isCount] at member
      cases member
  | succ count inductionHypothesis =>
      obtain ⟨i, member⟩ := Finset.card_pos.mp
        (show 0 < net.freeSlots.card by omega)
      have slot : ∃ i, (net.socks i).state = .free :=
        ⟨i, by simpa [freeSlots] using member⟩
      have entry : ∃ e < maxFdrefs, (net.fdrefs e).count = 0 := by
        by_contra none
        push Not at none
        have all : net.usedEntries = Finset.range maxFdrefs := by
          unfold usedEntries
          rw [Finset.filter_true_of_mem]
          intro e within
          exact none e (Finset.mem_range.mp within)
        rw [all, Finset.card_range] at entries
        omega
      obtain ⟨middle, far, e, farFree, opened, isNew, hosts, others, rest⟩ :=
        exists_opened slot entry 1 0 0 .inet .stream
      have step : hosted.step net (.opened 1 0 .inet .stream 0,
          .ok (.sock far)) middle := ⟨⟨trivial, host⟩, opened⟩
      have fewer : middle.freeSlots = net.freeSlots.erase far := by
        ext j
        simp only [freeSlots, Finset.mem_filter, Finset.mem_univ, true_and,
          Finset.mem_erase]
        by_cases same : j = far
        · subst same
          simp [isNew]
        · have state := congrArg Sock.state (others j same)
          change (middle.socks j).state = (net.socks j).state at state
          simp [state, same]
      have more : middle.usedEntries ⊆ insert e net.usedEntries := by
        intro other present
        rw [Finset.mem_insert]
        by_cases same : other = e
        · exact .inl same
        · right
          simpa [usedEntries, rest other same] using present
      have freeCard : middle.freeSlots.card = count := by
        rw [fewer, Finset.card_erase_of_mem (by simp [freeSlots, farFree])]
        omega
      have usedCard : middle.usedEntries.card ≤ net.usedEntries.card + 1 :=
        (Finset.card_le_card more).trans (Finset.card_insert_le _ _)
      obtain ⟨later, laterReachable, full, kept⟩ := inductionHypothesis
        (.next reachable step) (by rw [hosts]; exact host) (by omega) freeCard
      refine ⟨later, laterReachable, full, ?_⟩
      intro j notFree
      have different : j ≠ far := by
        rintro rfl
        exact notFree farFree
      have state := congrArg Sock.state (others j different)
      change (middle.socks j).state = (net.socks j).state at state
      rw [kept j (by rwa [state]), others j different]

/-- A connect that is refused for want of a slot has moved its host's turn. -/
theorem changed_of_refused :
    ¬∀ (net later : Net) (op : Op) (e : NetError), hosted.Reachable net →
      op.ofStreams = true → net.exec op = some (later, .error e) →
        later = net := by
  intro claimed
  obtain ⟨net, played, facts⟩ := Option.map_eq_some_iff.mp
    (by decide +kernel : (play Local
      [.opened 1 0 .inet .stream 7, .bind 0 (Addr.inet 0 80), .listen 0 5,
        .opened 1 0 .inet .stream 8] (zeroed [[]] 0)).map (fun net =>
          decide (net.hosts.length = 1 ∧ net.usedEntries.card < 700 ∧
            (net.socks 0).state = .listening ∧ (net.socks 0).host = 0 ∧
            (net.socks 0).kind = .stream ∧
            (net.socks 0).answersTo .inet (Addr.inet loopback 80) = true ∧
            (net.socks 0).backlog.length < (net.socks 0).backlogMax ∧
            (net.socks 1).state = .new ∧ (net.socks 1).family = .inet ∧
            (net.socks 1).kind = .stream)) = some true)
  obtain ⟨hosts, entries, listening, host, kind, answers, room, isNew, isInet,
    isStream⟩ := of_decide_eq_true facts
  have slots : net.freeSlots.card ≤ maxSockets :=
    (Finset.card_le_univ _).trans (Fintype.card_fin _).le
  obtain ⟨full, reachable, noSlot, kept⟩ := exists_full
    (reachable_play (.start ⟨_, _, rfl⟩) played) (by rw [hosts]; decide)
    (by have : maxSockets = 256 := rfl
        have : maxFdrefs = 1024 := rfl
        omega)
  have ofListener := kept 0 (by rw [listening]; decide)
  have ofSock := kept 1 (by rw [isNew]; decide)
  have sockNew : (full.socks 1).state = .new :=
    (congrArg Sock.state ofSock).trans isNew
  have sockInet : (full.socks 1).family = .inet :=
    (congrArg Sock.family ofSock).trans isInet
  have sockStream : (full.socks 1).kind = .stream :=
    (congrArg Sock.kind ofSock).trans isStream
  have found : full.findListener .stream .inet 0 (Addr.inet loopback 80) =
      some 0 := by
    have state : (full.socks 0).state = .listening :=
      (congrArg Sock.state ofListener).trans listening
    have sameHost : (full.socks 0).host = 0 :=
      (congrArg Sock.host ofListener).trans host
    have sameKind : (full.socks 0).kind = .stream :=
      (congrArg Sock.kind ofListener).trans kind
    have sameAnswer : (full.socks 0).answersTo .inet (Addr.inet loopback 80) =
        true := by
      have same := congrArg (fun d : Sock =>
        d.answersTo .inet (Addr.inet loopback 80)) ofListener
      exact Eq.trans same answers
    unfold findListener
    rw [show List.finRange maxSockets = 0 :: (List.finRange 255).map Fin.succ
      from List.finRange_succ]
    have met : (decide ((full.socks 0).state = .listening) &&
        decide ((full.socks 0).host = 0) &&
        decide ((full.socks 0).kind = .stream) &&
        (full.socks 0).answersTo .inet (Addr.inet loopback 80)) = true := by
      simp [state, sameHost, sameKind, sameAnswer]
    exact List.find?_cons_of_pos met
  have starved : full.Starved 1 0 (Addr.inet loopback 80) := by
    refine ⟨sockNew, sockInet, noSlot, 0, .inl sockNew, ?_, ?_⟩
    · rw [sockInet, sockStream]
      exact found
    · have sameQueue := congrArg Sock.backlog ofListener
      have sameMost := congrArg Sock.backlogMax ofListener
      change (full.socks 0).backlog = (net.socks 0).backlog at sameQueue
      change (full.socks 0).backlogMax = (net.socks 0).backlogMax at sameMost
      rw [sameQueue, sameMost]
      exact room
  obtain ⟨changed, refused⟩ :=
    (reachable_names reachable).connect_starved starved
  apply changed
  apply claimed full _ (.connect 1 0 (Addr.inet loopback 80)) _ reachable rfl
  change some ((full.connect 1 0 (Addr.inet loopback 80)).1,
    (full.connect 1 0 (Addr.inet loopback 80)).2.map Answer.sock) = _
  rw [refused]
  rfl

end Net
end Derp
