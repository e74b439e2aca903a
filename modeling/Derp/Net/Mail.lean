import Derp.Library.Mailboxes
import Derp.Net.Datagrams
import Derp.Net.Edges

/-!
# Datagram sockets as mailboxes

The queues of the datagram sockets are mailboxes, and the count of dropped
datagrams is their count of lost letters.  Every call moves letters as its
answer tells; most calls leave them alone.
-/

namespace Derp
namespace Net

variable
  {net middle later : Net}
  {sock dst far listener i : SockId}
  {pid : Nat}

/-- The datagrams that wait for their receivers, and how many were dropped. -/
def mail (net : Net) : Mailboxes SockId Datagram where
  box := fun i => (net.socks i).traffic.queue
  lost := net.dropped

theorem mail_of_queues
    (queues : ∀ i, (later.socks i).traffic.queue =
      (net.socks i).traffic.queue)
    (dropped : later.dropped = net.dropped) : later.mail = net.mail := by
  unfold mail
  rw [dropped, funext queues]

theorem mail_of_traffic
    (traffic : ∀ i, (later.socks i).traffic = (net.socks i).traffic)
    (dropped : later.dropped = net.dropped) : later.mail = net.mail :=
  mail_of_queues (fun i => congrArg Traffic.queue (traffic i)) dropped

/-- A change that leaves the traffic alone leaves the mail alone. -/
theorem mail_modifySock
    (net : Net)
    (sock : SockId)
    (change : Sock → Sock)
    (traffic : ∀ d, (change d).traffic = d.traffic) :
    (net.modifySock sock change).mail = net.mail :=
  mail_of_traffic
    (traffic_of_accounts (accounts_modifySock traffic net sock)) rfl

@[simp] theorem mail_setState
    (net : Net)
    (sock : SockId)
    (state : SockState) : (net.setState sock state).mail = net.mail :=
  mail_modifySock net sock (.setState state) fun _ => rfl

@[simp] theorem mail_writeEvent (net : Net) (sock : SockId) :
    (net.modifySock sock .writeEvent).mail = net.mail :=
  mail_modifySock net sock .writeEvent fun _ => rfl

/-- One queue changes. -/
theorem mail_put
    {letters : List Datagram}
    (queue : (later.socks sock).traffic.queue = letters)
    (others : ∀ i ≠ sock, (later.socks i).traffic.queue =
      (net.socks i).traffic.queue)
    (dropped : later.dropped = net.dropped) :
    later.mail = net.mail.put sock letters := by
  unfold mail Mailboxes.put
  rw [dropped]
  congr 1
  funext i
  by_cases same : i = sock
  · subst same
    rw [queue, Function.update_self]
  · rw [others i same, Function.update_of_ne same]

/-! ## Deliveries -/

theorem dropped_launchRecord
    (net : Net)
    (dst : SockId)
    (deliverAt : Nat)
    (kind : FlightKind)
    (parts : List (List UInt8)) :
    (net.launchRecord dst deliverAt kind parts).dropped = net.dropped := by
  unfold launchRecord
  dsimp only
  rw [foldl_flightPush]
  cases kind <;> rfl

/-- A delivery counts nothing as dropped. -/
theorem dropped_deliver
    (net : Net)
    (srcHost : Nat)
    (dst : SockId)
    (payload : Payload) :
    (net.deliver srcHost dst payload).1.dropped = net.dropped := by
  unfold deliver
  dsimp only
  split
  · cases payload with
    | fin => rfl
    | bytes data => rfl
    | datagram source data =>
        unfold arrive
        dsimp only
        split <;> rfl
  · cases payload with
    | fin => exact dropped_launchRecord _ _ _ _ _
    | bytes data =>
        unfold launch
        dsimp only
        split
        · rfl
        · exact dropped_launchRecord _ _ _ _ _
    | datagram source data =>
        unfold launch
        dsimp only
        split
        · rfl
        · exact dropped_launchRecord _ _ _ _ _

theorem kind_deliver
    (net : Net)
    (srcHost : Nat)
    (dst : SockId)
    (payload : Payload)
    (i : SockId) :
    ((net.deliver srcHost dst payload).1.socks i).kind =
      (net.socks i).kind :=
  kind_of_control (control_deliver net srcHost dst payload) i

/-- A delivery touches the queue of its destination only. -/
theorem queue_deliver
    (net : Net)
    (srcHost : Nat)
    (payload : Payload)
    (different : i ≠ dst) :
    ((net.deliver srcHost dst payload).1.socks i).traffic.queue =
      (net.socks i).traffic.queue := by
  obtain ⟨d', socks, -⟩ := net.deliver_socks srcHost dst payload
  rw [socks, Function.update_of_ne different]

/-- A delivery to a stream leaves the mail alone. -/
theorem mail_deliver
    (notDgram : (net.socks dst).kind ≠ .dgram)
    (srcHost : Nat)
    (payload : Payload) :
    (net.deliver srcHost dst payload).1.mail = net.mail := by
  refine mail_of_queues ?_ (net.dropped_deliver srcHost dst payload)
  intro i
  by_cases same : i = dst
  · subst same
    have still : ((net.deliver srcHost i payload).1.socks i).kind ≠ .dgram := by
      rw [net.kind_deliver]
      exact notDgram
    exact (Traffic.queue_of_not_dgram still).trans
      (Traffic.queue_of_not_dgram notDgram).symm
  · exact net.queue_deliver srcHost payload same

/-! ## References -/

/-- A far end is no datagram socket. -/
def FarStream (net : Net) (sock : SockId) : Prop :=
  ∀ far, (net.socks sock).farEnd = some far → (net.socks far).kind ≠ .dgram

theorem FarStream.statesOnly
    (farStream : net.FarStream sock)
    (same : StatesOnly net later) : later.FarStream sock := by
  intro far linkedTo
  have farEnd := congrArg Sock.farEnd (same.socks sock)
  have kind := congrArg Sock.kind (same.socks far)
  change (later.socks sock).farEnd = (net.socks sock).farEnd at farEnd
  change (later.socks far).kind = (net.socks far).kind at kind
  rw [kind]
  exact farStream far (farEnd.symm.trans linkedTo)

/-- What a connected socket is linked to. -/
theorem Linked.farStream
    {pending : Finset SockId}
    {queues : SockId → List SockId}
    (linked : net.Linked pending queues)
    (connected : (net.socks sock).state = .connected) :
    net.FarStream sock := by
  intro far linkedTo isDgram
  obtain ⟨j, there, -, -, state⟩ := linked.paired sock (.inl connected)
  obtain rfl : j = far := Option.some.inj (there.symm.trans linkedTo)
  have isStream := linked.streams j (by grind)
  rw [isStream] at isDgram
  cases isDgram

theorem mail_resetQueued
    (farStream : net.FarStream far) :
    (net.resetQueued far).mail = net.mail := by
  unfold Net.resetQueued
  split
  · rfl
  · next near linkedTo =>
      dsimp only
      split
      · rw [mail_setState, mail_setState]
      · rw [mail_setState, mail_writeEvent,
          mail_deliver (farStream near linkedTo)]

theorem mail_foldl_resetQueued
    {queue : List SockId}
    (farStreams : ∀ far ∈ queue, net.FarStream far) :
    (queue.foldl Net.resetQueued net).mail = net.mail := by
  induction queue generalizing net with
  | nil => rfl
  | cons far rest inductionHypothesis =>
      rw [List.foldl_cons, inductionHypothesis,
        mail_resetQueued (farStreams far (by simp))]
      intro other present
      exact (farStreams other (by simp [present])).statesOnly
        (StatesOnly.resetQueued net far)

theorem mail_releaseConnected
    (farStream : net.FarStream sock) :
    (net.releaseConnected sock).mail = net.mail := by
  unfold Net.releaseConnected
  split
  · rfl
  · next peer linkedTo =>
      dsimp only
      split
      · rw [mail_setState, mail_setState]
      · split
        · rw [mail_setState, mail_writeEvent]
        · rw [mail_setState, mail_writeEvent,
            mail_deliver (farStream peer linkedTo)]

/-- Releasing a socket leaves the mail alone, that of the socket included. -/
theorem mail_release
    {pending : Finset SockId}
    (linked : net.Linked pending net.backlogs)
    (sock : SockId) : (net.release sock).mail = net.mail := by
  unfold Net.release
  split
  · next listening =>
      change (((net.socks sock).backlog.foldl Net.resetQueued net).setState sock
        .free).mail = net.mail
      rw [mail_setState, mail_foldl_resetQueued]
      intro far present
      obtain ⟨connected, -⟩ := linked.queued sock far listening present
      exact linked.farStream connected
  · next connected =>
      exact mail_releaseConnected (linked.farStream connected)
  · exact mail_setState net sock .free

theorem mail_addRef
    (added : net.addRef pid sock = some later) : later.mail = net.mail := by
  unfold Net.addRef at added
  rw [Option.map_eq_some_iff] at added
  obtain ⟨at', -, rfl⟩ := added
  exact mail_modifySock (net.setFdref at' pid sock _) sock .gainRef
    fun _ => rfl

theorem mail_dropRef
    (wired : net.Wired)
    (holds : 0 < net.held pid sock) :
    (net.dropRef pid sock).mail = net.mail := by
  obtain ⟨at', within, isFor, dropped⟩ := dropRef_of_held holds
  have lose := Linked.lose wired within isFor (Linked.refs_of_held wired holds)
  have lost : ((net.setFdref at' pid sock
      ((net.fdrefs at').count - 1)).modifySock sock .loseRef).mail =
        net.mail :=
    mail_modifySock (net.setFdref at' pid sock _) sock .loseRef fun _ => rfl
  have kept := @backlogs_modifySock_same (net.setFdref at' pid sock
    ((net.fdrefs at').count - 1)) sock .loseRef rfl
  rw [dropped _ rfl]
  split
  · rw [mail_release (lose.of_queues fun i _ => congrFun kept i), lost]
  · exact lost

theorem mail_refSteps
    (wired : net.Wired)
    (steps : RefSteps pid net later) : later.mail = net.mail := by
  suffices later.Wired ∧ later.mail = net.mail from this.2
  induction steps with
  | refl => exact ⟨wired, rfl⟩
  | tail _ step inductionHypothesis =>
      obtain ⟨between, same⟩ := inductionHypothesis
      refine ⟨between.refStep step, ?_⟩
      cases step with
      | gain _ added => rw [mail_addRef added, same]
      | drop holds => rw [mail_dropRef between holds, same]

/-! ## Streams -/

theorem mail_relabels
    (relabels : Relabels sock net later) : later.mail = net.mail := by
  induction relabels with
  | refl => rfl
  | hosts hosts _ inductionHypothesis => exact inductionHypothesis
  | named addr _ _ inductionHypothesis =>
      exact (mail_modifySock _ sock (.setLocal addr) fun _ => rfl).trans inductionHypothesis
  | bound addr _ _ inductionHypothesis =>
      exact (mail_modifySock _ sock (.bindTo addr) fun _ => rfl).trans inductionHypothesis
  | listening backlogMax _ _ _ inductionHypothesis =>
      exact (mail_modifySock _ sock (.listenWith backlogMax) fun _ => rfl).trans
        inductionHypothesis
  | peer dest _ inductionHypothesis =>
      exact (mail_modifySock _ sock (.setPeer dest) fun _ => rfl).trans
        inductionHypothesis

theorem mail_send
    (wired : net.Wired)
    (sock : SockId)
    (data : List UInt8) : (net.send sock data).1.mail = net.mail := by
  rcases net.send_net sock data with ⟨same, -⟩ |
      ⟨far, connected, -, linkedTo, -, sent, -⟩
  · rw [same]
  · rw [sent]
    exact mail_deliver (Linked.farStream wired connected far linkedTo) _ _

/-- A change of a stream's record leaves the mail alone. -/
theorem mail_modifySock_stream
    (isStream : (net.socks sock).kind = .stream)
    {change : Sock → Sock}
    (kind : (change (net.socks sock)).kind = (net.socks sock).kind) :
    (net.modifySock sock change).mail = net.mail := by
  have notDgram : (net.socks sock).kind ≠ .dgram := by
    rw [isStream]
    decide
  have still : (change (net.socks sock)).kind ≠ .dgram := by
    rw [kind]
    exact notDgram
  refine mail_of_queues ?_ rfl
  intro i
  by_cases same : i = sock
  · subst same
    rw [modifySock_socks_self]
    exact (Traffic.queue_of_not_dgram still).trans
      (Traffic.queue_of_not_dgram notDgram).symm
  · rw [modifySock_socks_of_ne _ _ same]

theorem mail_recv
    (wired : net.Wired)
    (sock : SockId)
    (room : Nat)
    (peek : Bool) : (net.recv sock room peek).1.mail = net.mail := by
  rcases net.recv_net sock room peek with ⟨same, -⟩ | ⟨-, connected, -, taken⟩
  · rw [same]
  obtain ⟨sender, linkedTo, -⟩ := Linked.paired wired sock (.inl connected)
  have isStream := Linked.streams wired sock (.inr (.inl connected))
  rw [taken sender linkedTo, mail_writeEvent]
  have skipped := @mail_modifySock_stream
    (net.noteSub (net.socks sock).rx.len (min room (net.socks sock).rx.len))
    sock isStream (.skipRx (min room (net.socks sock).rx.len)) rfl
  exact skipped

theorem FarStream.shutdownRead
    (farStream : net.FarStream sock) :
    (net.shutdownRead sock).FarStream sock := by
  intro far linkedTo
  rw [(net.shutdownRead_socks sock sock).1] at linkedTo
  have kind : ((net.shutdownRead sock).socks far).kind =
      (net.socks far).kind := by
    unfold Net.shutdownRead
    split <;> simp only [modifySock_socks] <;>
      grind [Sock.shutRead, Sock.writeEvent]
  rw [kind]
  exact farStream far linkedTo

theorem mail_shutdownRead
    (isStream : (net.socks sock).kind = .stream) :
    (net.shutdownRead sock).mail = net.mail := by
  have shut : (net.modifySock sock .shutRead).mail = net.mail :=
    mail_modifySock_stream isStream rfl
  unfold shutdownRead
  split
  · exact shut
  · rw [mail_writeEvent, shut]

theorem mail_shutdownWrite
    (farStream : net.FarStream sock) :
    (net.shutdownWrite sock).mail = net.mail := by
  have shut : (net.modifySock sock .shutWrite).mail = net.mail :=
    mail_modifySock net sock .shutWrite fun _ => rfl
  unfold shutdownWrite
  split
  · exact shut
  · next peer linkedTo =>
      have notDgram : ((net.modifySock sock .shutWrite).socks peer).kind ≠
          .dgram := by
        rw [modifySock_socks]
        split
        · next isSock =>
            rw [← isSock]
            exact farStream peer linkedTo
        · exact farStream peer linkedTo
      rw [mail_deliver notDgram, shut]

theorem mail_shutdown
    (wired : net.Wired)
    (sock : SockId)
    (read write : Bool) : (net.shutdown sock read write).1.mail = net.mail := by
  rcases net.shutdown_net sock read write with same |
      ⟨connected, middle, half, rest⟩
  · rw [same]
  have isStream := Linked.streams wired sock (.inr (.inl connected))
  have before : net.FarStream sock := Linked.farStream wired connected
  have first : middle.mail = net.mail ∧ middle.FarStream sock := by
    rcases half with ⟨-, rfl⟩ | ⟨-, rfl⟩
    · exact ⟨rfl, before⟩
    · exact ⟨mail_shutdownRead isStream, before.shutdownRead⟩
  rcases rest with ⟨-, written⟩ | done
  · rw [written, mail_shutdownWrite first.2, first.1]
  · rw [done, first.1]

/-! ## Arrivals -/

theorem landChunks_tail
    {fuel n : Nat}
    (enough : n ≤ fuel) :
    ((landChunks fuel net sock n).socks sock).rx.len =
        (net.socks sock).rx.len + n ∧
      (landChunks fuel net sock n).dropped = net.dropped := by
  induction fuel generalizing net n with
  | zero =>
      obtain rfl : n = 0 := by omega
      exact ⟨rfl, rfl⟩
  | succ fuel inductionHypothesis =>
      unfold landChunks
      split
      · next more =>
          dsimp only
          obtain ⟨len, dropped⟩ := @inductionHypothesis ((net.flightSkip sock
            (min n 256)).ringPush sock (net.flightPeek sock 0 (min n 256)))
            (n - min n 256) (by omega)
          refine ⟨len.trans ?_, dropped⟩
          unfold ringPush flightSkip
          rw [modifySock_socks_self, modifySock_socks_self]
          simp only [Sock.pushRx, Sock.skipFlight, RingBuffer.len_push,
            flightPeek, RingBuffer.length_peek]
          change (net.socks sock).rx.len + min n 256 + (n - min n 256) = _
          omega
      · next none =>
          obtain rfl : n = 0 := by omega
          exact ⟨rfl, rfl⟩

theorem dropped_noteLanded (net : Net) (sock : SockId) :
    (net.noteLanded sock).dropped = net.dropped := by
  unfold noteLanded
  dsimp only
  split
  · split <;> rfl
  · rfl

/-- A record that is due either arrives whole, or it is a datagram that does
not fit and is counted. -/
theorem landHead_tail
    (net : Net)
    (sock : SockId)
    (header : List UInt8) :
    (net.landHead sock header).dropped = net.dropped ∧
        (headerKind header ≠ kFin →
          ((net.landHead sock header).socks sock).rx.len =
            (net.socks sock).rx.len + headerLen header) ∨
      (net.landHead sock header).dropped = net.dropped + 1 ∧
        ((net.landHead sock header).socks sock).rx.len =
          (net.socks sock).rx.len ∧
        headerKind header ≠ kFin ∧ headerKind header ≠ kBytes := by
  unfold landHead
  dsimp only
  obtain ⟨begun, isBegun⟩ : ∃ begun, begun =
      (((net.flightSkip sock flightHeaderLen).noteSub
        (net.flightSkip sock flightHeaderLen).inFlight 1).setInFlight
          (((net.flightSkip sock flightHeaderLen).noteSub
            (net.flightSkip sock flightHeaderLen).inFlight 1).inFlight -
            1)).modifySock sock .readEvent := ⟨_, rfl⟩
  have rx : (begun.socks sock).rx = (net.socks sock).rx := by
    rw [isBegun, modifySock_socks_self, setInFlight_socks, noteSub_socks]
    unfold flightSkip
    rw [modifySock_socks_self]
    rfl
  have dropped : begun.dropped = net.dropped := by
    rw [isBegun]
    rfl
  rw [← isBegun, ← rx, ← dropped]
  obtain ⟨len, kept⟩ := @landChunks_tail begun sock (headerLen header) _ le_rfl
  split
  · next isFin => exact .inl ⟨rfl, fun notFin => absurd isFin notFin⟩
  next notFin =>
  split
  · left
    refine ⟨(dropped_noteLanded _ _).trans kept, fun _ => ?_⟩
    have traffic := traffic_of_accounts
      (accounts_noteLanded ((((begun.land sock (headerLen header)).noteSub
        ((begun.land sock (headerLen header)).socks sock).flStream
          (headerLen header)).modifySock sock (.subStream
            (headerLen header))).countBytes (headerLen header)) sock) sock
    have same := congrArg (fun t : Traffic => t.rx.len) traffic
    refine same.trans ?_
    rw [countBytes_socks, modifySock_socks_self]
    exact len
  next notBytes =>
  split
  · obtain ⟨len, kept⟩ := @landChunks_tail
      (begun.noteSub ringSize (begun.socks sock).rx.len) sock
      (headerLen header) _ le_rfl
    exact .inl ⟨kept, fun _ => len⟩
  · right
    refine ⟨rfl, ?_, notFin, notBytes⟩
    rw [countDropped_socks]
    unfold flightSkip
    rw [modifySock_socks_self]
    rfl

theorem dropped_discardFlight (net : Net) (sock : SockId) :
    (net.discardFlight sock).dropped = net.dropped := by
  have loop : ∀ (fuel : Nat) (net : Net),
      (discardRecords fuel net sock).dropped = net.dropped := by
    intro fuel
    induction fuel with
    | zero => exact fun _ => rfl
    | succ fuel inductionHypothesis =>
        intro net
        unfold discardRecords
        split
        · exact inductionHypothesis _
        · rfl
  exact loop _ net

/-- Letters that are lost on their way. -/
def Drops (moves : List (Mailboxes.Move SockId Datagram)) : Prop :=
  ∀ move ∈ moves, ∃ i g, move = .dropped i g

/-- The head record of a ring arrives, or it is lost. -/
theorem mail_landHead
    (ok : (net.socks sock).traffic.Ok)
    {r : FlightRecord}
    {rest : List FlightRecord}
    (head : (net.socks sock).traffic.records = r :: rest)
    (counted : 0 < net.inFlight) :
    ∃ moves, Drops moves ∧ Mailboxes.Steps net.mail moves
      (net.landHead sock (flightHeader r.due r.kind r.payload.length)).mail := by
  obtain ⟨t', landed, accounts⟩ := landHead_spec ok head counted
  have tail := net.landHead_tail sock
    (flightHeader r.due r.kind r.payload.length)
  rw [headerKind_flightHeader, headerLen_flightHeader r.due r.kind
    r.payload_lt] at tail
  generalize net.landHead sock (flightHeader r.due r.kind r.payload.length) =
    after at *
  have traffic : ∀ i, (after.socks i).traffic =
      (net.accounts.put sock t').socks i :=
    fun i => congrArg (fun a : Accounts => a.socks i) accounts
  have atSock : (after.socks sock).traffic = t' :=
    (traffic sock).trans (net.accounts.put_socks_self sock t')
  have others : ∀ i ≠ sock, (after.socks i).traffic.queue =
      (net.socks i).traffic.queue := fun i different => congrArg Traffic.queue
    ((traffic i).trans (net.accounts.put_socks_of_ne t' different))
  have rx : (after.socks sock).rx = t'.rx := congrArg Traffic.rx atSock
  rw [rx] at tail
  by_cases isDgram : (net.socks sock).kind = .dgram
  case neg =>
    -- A stream's records are never counted as dropped.
    have notDgram := ok.streams isDgram r (by rw [head]; simp)
    have still : (after.socks sock).traffic.queue =
        (net.socks sock).traffic.queue := by
      have kind : t'.kind ≠ .dgram := by
        rw [landed.kind]
        exact isDgram
      rw [atSock, Traffic.queue_of_not_dgram kind]
      exact (Traffic.queue_of_not_dgram isDgram).symm
    have dropped : after.dropped = net.dropped := by
      rcases tail with ⟨same, -⟩ | ⟨-, -, notFin, notBytes⟩
      · exact same
      · cases isKind : r.kind with
        | fin => exact absurd (by rw [isKind]; rfl) notFin
        | bytes => exact absurd (by rw [isKind]; rfl) notBytes
        | dgram => exact absurd isKind notDgram
    refine ⟨[], by simp [Drops], ?_⟩
    have same : after.mail = net.mail := by
      refine mail_of_queues ?_ dropped
      intro i
      by_cases same : i = sock
      · rw [same]
        exact still
      · exact others i same
    rw [same]
    exact .refl _
  case pos =>
    obtain ⟨rxSpelled, flightSpelled⟩ := ok.spelled isDgram
    obtain ⟨recordsOk, -⟩ := ok.datagrams isDgram
    obtain ⟨isKind, -⟩ := recordsOk r (by rw [head]; simp)
    rw [head, List.map_cons] at flightSpelled
    obtain ⟨g, hs, travelling, payload, remaining⟩ :=
      List.map_eq_cons_iff.mp flightSpelled.symm
    have long : 0 < r.payload.length := by
      rw [← payload, Datagram.length_encode]
      have : 0 < dgramHeaderLen := by decide
      omega
    have notFin : r.kind.code ≠ kFin := by
      rw [isKind]
      decide
    have flying : t'.travelling = hs := by
      apply Traffic.travelling_eq
      rw [landed.records, ← remaining]
    have before : (net.socks sock).traffic.queue =
        (net.socks sock).traffic.arrived ++ g :: hs := by
      rw [Traffic.queue_of_dgram isDgram, travelling]
    have behind : t'.queue = t'.arrived ++ hs := by
      rw [Traffic.queue_of_dgram (landed.kind.trans isDgram), flying]
    rcases tail with ⟨dropped, arrived⟩ | ⟨dropped, full, -, -⟩
    · have grown := arrived notFin
      refine ⟨[], by simp [Drops], ?_⟩
      have joined : t'.rx.contents = encodeDatagrams
          ((net.socks sock).traffic.arrived ++ [g]) := by
        rcases landed.rx with whole | ⟨-, same⟩
        · rw [whole, rxSpelled, ← payload, encodeDatagrams_append]
          simp
        · rw [same] at grown
          change (net.socks sock).rx.len = (net.socks sock).rx.len + _
            at grown
          omega
      have same : after.mail = net.mail := by
        refine mail_of_queues ?_ dropped
        intro i
        by_cases same : i = sock
        · rw [same, atSock, before, behind, Traffic.arrived_eq joined,
            List.append_assoc]
          rfl
        · exact others i same
      rw [same]
      exact .refl _
    · have same : t'.arrived = (net.socks sock).traffic.arrived := by
        rcases landed.rx with whole | ⟨-, same⟩
        · have grown := congrArg List.length whole
          rw [List.length_append, RingBuffer.length_contents,
            RingBuffer.length_contents, full] at grown
          change (net.socks sock).rx.len = (net.socks sock).rx.len + _
            at grown
          omega
        · unfold Traffic.arrived
          rw [same]
      refine ⟨[.dropped sock g], by simp [Drops], ?_⟩
      have lost : after.mail = (net.mail.put sock
          ((net.socks sock).traffic.arrived ++ hs)).lose := by
        have put := @mail_put net { after with dropped := net.dropped } sock _
          (show (after.socks sock).traffic.queue = _ by
            rw [atSock, behind, same]) others rfl
        unfold Mailboxes.lose
        rw [← put]
        unfold mail
        rw [dropped]
      rw [lost]
      exact (Mailboxes.Step.dropped before).steps

theorem Drops.append
    {moves more : List (Mailboxes.Move SockId Datagram)}
    (first : Drops moves)
    (second : Drops more) : Drops (moves ++ more) := by
  intro move present
  rcases List.mem_append.mp present with early | late
  · exact first move early
  · exact second move late

/-- Letters have arrived, or were lost on their way, since a network. -/
def Lands (net later : Net) : Prop :=
  later.accounts.Counted ∧
    ∃ moves, Drops moves ∧ Mailboxes.Steps net.mail moves later.mail

theorem Lands.refl (counted : net.accounts.Counted) : Lands net net :=
  ⟨counted, [], by simp [Drops], .refl _⟩

theorem Lands.trans
    (first : Lands net middle)
    (second : Lands middle later) : Lands net later := by
  obtain ⟨-, moves, drops, steps⟩ := first
  obtain ⟨counted, more, drops', steps'⟩ := second
  exact ⟨counted, moves ++ more, drops.append drops', steps.append steps'⟩

theorem lands_landDue
    {now fuel next : Nat}
    (counted : net.accounts.Counted) :
    Lands net (landDue now fuel net sock next).1 := by
  induction fuel generalizing net with
  | zero => exact .refl counted
  | succ fuel inductionHypothesis =>
      have ok := counted.rings sock
      unfold landDue
      split
      · next more =>
          cases head : (net.socks sock).traffic.records with
          | nil =>
              have := ok.records_eq_nil_iff.mp head
              change (net.socks sock).flight.len = 0 at this
              omega
          | cons r rest =>
              obtain ⟨header, -, -⟩ := flightPeek_head ok head
              have due := headerDue_flightHeader r.due_lt r.kind
                r.payload.length
              have positive := counted.inFlight_pos head
              dsimp only
              rw [header, due]
              split
              · exact .refl counted
              · next isDue =>
                  rw [not_lt] at isDue
                  obtain ⟨t', landed, moved⟩ := landHead_spec ok head positive
                  have land : Accounts.Land now net.accounts
                      (net.landHead sock (flightHeader r.due r.kind
                        r.payload.length)).accounts := by
                    rw [moved]
                    exact .head landed isDue
                  have first : Lands net (net.landHead sock
                      (flightHeader r.due r.kind r.payload.length)) :=
                    ⟨counted.land land, mail_landHead ok head positive⟩
                  exact first.trans (inductionHypothesis first.1)
      · exact .refl counted

/-- Advancing the clock posts nothing. -/
theorem lands_advance
    (counted : net.accounts.Counted)
    (now : Nat) :
    ∃ moves, Drops moves ∧
      Mailboxes.Steps net.mail moves (net.advance now).1.mail := by
  unfold advance
  dsimp only
  split
  · exact ⟨[], by simp [Drops], .refl _⟩
  · have start : (net.setNow now).accounts.Counted :=
      ⟨counted.rings, counted.counted, counted.noUnderflow⟩
    have all : Lands (net.setNow now) ((List.finRange maxSockets).foldl
        (advanceSock now) (net.setNow now, 2 ^ 64 - 1)).1 := by
      apply List.foldl_invariant
        (fun state : Net × Nat => Lands (net.setNow now) state.1)
      · exact .refl start
      · intro state slot _ lands
        exact lands.trans (lands_landDue lands.1)
    generalize (List.finRange maxSockets).foldl (advanceSock now)
      (net.setNow now, 2 ^ 64 - 1) = result at *
    exact all.2

end Net
end Derp
