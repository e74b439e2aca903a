import Derp.Net.Rings

/-!
# Streams arrive whole and in order

The pipe of a receiver is the content of its receive ring and of its flight
ring.  What a send takes joins its end, what a receive returns leaves its
front, and nothing else moves it, for as long as both ends of the connection
keep their slots and the receiver reads.
-/

namespace Derp
namespace Net

variable
  {net later : Net}
  {sock src dst far listener : SockId}
  {pid : Nat}

/-! ## What a run says about one direction of a connection -/

/-- The bytes of a call that a send from `src` took. -/
def sentBy (src : SockId) : Event → List UInt8
  | (.send sock data, .ok (.taken count)) =>
      if sock = src then data.take count else []
  | _ => []

/-- The bytes that a call took off the stream to `dst`. -/
def receivedBy (dst : SockId) : Event → List UInt8
  | (.recv sock _ false, .ok (.bytes out)) => if sock = dst then out else []
  | _ => []

/-- The slot that a call gives to a new socket. -/
def handsOut : Event → Option SockId
  | (.opened .., .ok (.sock sock)) => some sock
  | (.connect .., .ok (.sock far)) => some far
  | _ => none

/-- Whether a call shuts `dst` down for reading. -/
def shutsReading (dst : SockId) : Event → Bool
  | (.shutdown sock true _, .ok _) => sock = dst
  | _ => false

/-- The calls during the life of one direction of a connection. -/
def During (src dst : SockId) (event : Event) : Prop :=
  handsOut event ≠ some src ∧ handsOut event ≠ some dst ∧
    shutsReading dst event = false

/-! ## Steps that leave an end of a connection alone -/

/-- What a step keeps of an end of a connection. -/
structure KeepsEnd (net later : Net) (i : SockId) : Prop where
  unlinked : (later.socks i).Unlinked → (net.socks i).Unlinked
  farEnd : (later.socks i).farEnd = (net.socks i).farEnd
  kind : (later.socks i).kind = (net.socks i).kind

theorem KeepsLinks.keepsEnd
    (kept : KeepsLinks net later)
    (i : SockId) : KeepsEnd net later i :=
  ⟨kept.unlinked i, kept.farEnd i, kept.kind i⟩

theorem KeepsEnd.trans
    {middle : Net}
    {i : SockId}
    (first : KeepsEnd net middle i)
    (second : KeepsEnd middle later i) : KeepsEnd net later i :=
  ⟨fun isUnlinked => first.unlinked (second.unlinked isUnlinked),
    second.farEnd.trans first.farEnd, second.kind.trans first.kind⟩

theorem keepsEnd_taken
    {i : SockId}
    (different : i ≠ sock)
    (host : Nat)
    (family : Family)
    (kind : Kind) :
    KeepsEnd net (((net.setIdent sock 0).discardFlight sock).modifySock sock
      (.fresh host family kind)) i := by
  have links := KeepsLinks.of_control
    (net.control_taken sock host family kind)
  have kept := links.keepsEnd i
  refine KeepsEnd.trans ?_ kept
  have record : ((net.setIdent sock 0).modifySock sock
      (.fresh host family kind)).socks i = net.socks i :=
    modifySock_socks_of_ne _ _ different
  exact ⟨by rw [record]; exact id, by rw [record], by rw [record]⟩

/-- Joining two sockets leaves the other connections alone. -/
theorem keepsEnd_joined
    {i : SockId}
    (notFar : i ≠ far)
    (notSock : i ≠ sock)
    (listener : SockId)
    (farLocal nearLocal : Addr) :
    KeepsEnd net (net.joined sock far listener farLocal nearLocal) i := by
  have pair : ((net.modifySock far
      (.linkFar farLocal nearLocal sock)).modifySock sock
        (.linkNear farLocal far)).socks i = net.socks i := by
    rw [modifySock_socks_of_ne _ _ notSock, modifySock_socks_of_ne _ _ notFar]
  have record : (net.joined sock far listener farLocal nearLocal).socks i =
      if i = listener then (net.socks i).enqueue far else net.socks i := by
    unfold joined
    rw [countConnection_socks, modifySock_socks]
    split
    · next same => rw [← same, pair]
    · exact pair
  split at record
  · exact ⟨by rw [record]; exact id, by rw [record]; rfl, by rw [record]; rfl⟩
  · exact ⟨by rw [record]; exact id, by rw [record], by rw [record]⟩

/-! ## Steps that leave a pipe alone -/

theorem Relabels.accounts
    (relabels : Relabels sock net later) : later.accounts = net.accounts := by
  induction relabels with
  | refl => rfl
  | hosts hosts _ inductionHypothesis => exact inductionHypothesis
  | named addr _ _ inductionHypothesis =>
      exact (accounts_modifySock (by intro; rfl) _ sock).trans
        inductionHypothesis
  | bound addr _ _ inductionHypothesis =>
      exact (accounts_modifySock (by intro; rfl) _ sock).trans
        inductionHypothesis
  | listening backlogMax _ _ _ inductionHypothesis =>
      exact (accounts_modifySock (by intro; rfl) _ sock).trans
        inductionHypothesis
  | peer dest _ inductionHypothesis =>
      exact (accounts_modifySock (by intro; rfl) _ sock).trans
        inductionHypothesis

theorem accounts_joined
    (net : Net)
    (sock far listener : SockId)
    (farLocal nearLocal : Addr) :
    (net.joined sock far listener farLocal nearLocal).accounts =
      net.accounts := by
  unfold joined
  refine (accounts_modifySock (by intro; rfl) _ listener).trans ?_
  refine (accounts_modifySock (by intro; rfl) _ sock).trans ?_
  exact accounts_modifySock (by intro; rfl) net far

theorem recvDgram_others
    (net : Net)
    {i : SockId}
    (different : i ≠ sock)
    (room : Nat)
    (peek : Bool) :
    (net.recvDgram sock room peek).1.socks i = net.socks i := by
  unfold Net.recvDgram
  split
  · rfl
  · dsimp only
    split
    · rfl
    · cases peek with
      | true => rfl
      | false => exact modifySock_socks_of_ne _ _ different

/-- A datagram is no byte of a stream. -/
theorem Accounted.sendDgram_samePipe
    (accounted : net.Accounted)
    (dest : Option (Nat × Addr))
    (data : List UInt8)
    {i : SockId}
    (isStream : (net.socks i).kind ≠ .dgram) :
    ((net.sendDgram sock dest data).1.socks i).traffic =
      (net.socks i).traffic := by
  rcases net.sendDgram_net sock dest data with relabels |
      ⟨middle, destHost, dest', relabels, sent⟩
  · exact traffic_of_accounts relabels.accounts i
  have between := Accounted.relabels accounted relabels
  rw [sent, ← traffic_of_accounts relabels.accounts i]
  rcases middle.sendTo_net sock destHost dest' data with same |
      ⟨target, source, isDgram, same⟩
  · exact traffic_of_accounts same.accounts i
  rw [traffic_of_accounts same.accounts i]
  have may : (Payload.datagram source data).Deliverable
      (middle.socks target).traffic := isDgram
  have spec := deliver_spec (between.counted.rings target) may
    (middle.socks sock).host
  apply spec.others
  rintro rfl
  rw [relabels.kind] at isDgram
  exact isStream isDgram

theorem Accounted.advance_samePipe
    (accounted : net.Accounted)
    (now : Nat)
    (i : SockId) :
    (net.socks i).traffic.SamePipe
      ((net.advance now).1.socks i).traffic := by
  have counted := accounted.counted
  rcases advance_spec counted now with ⟨-, -, same⟩ |
      ⟨-, -, b, next, lands, same, -⟩
  · have traffic := congrArg (fun a : Accounts => a.socks i) same
    change ((net.advance now).1.socks i).traffic = (net.socks i).traffic
      at traffic
    rw [traffic]
    exact .refl _
  · have traffic := congrArg (fun a : Accounts => a.socks i) same
    change ((net.advance now).1.socks i).traffic = b.socks i at traffic
    have start : Accounts.Counted { net.accounts with now := now } :=
      ⟨counted.rings, counted.counted, counted.noUnderflow⟩
    rw [traffic]
    exact lands.samePipe start i

/-! ## One direction of a connection -/

/-- The far ends of a connection, one of which sends to the other. -/
structure Conveys (net : Net) (src dst : SockId) : Prop where
  wired : net.Wired
  accounted : net.Accounted
  there : (net.socks src).farEnd = some dst
  back : (net.socks dst).farEnd = some src
  srcLinked : ¬(net.socks src).Unlinked
  dstLinked : ¬(net.socks dst).Unlinked
  stream : (net.socks dst).kind = .stream

theorem Conveys.keeps
    (conveys : net.Conveys src dst)
    (wired : later.Wired)
    (accounted : later.Accounted)
    (ofSrc : KeepsEnd net later src)
    (ofDst : KeepsEnd net later dst) : later.Conveys src dst where
  wired := wired
  accounted := accounted
  there := ofSrc.farEnd.trans conveys.there
  back := ofDst.farEnd.trans conveys.back
  srcLinked := fun isUnlinked => conveys.srcLinked (ofSrc.unlinked isUnlinked)
  dstLinked := fun isUnlinked => conveys.dstLinked (ofDst.unlinked isUnlinked)
  stream := ofDst.kind.trans conveys.stream

/-- The content of a receiver's pipe. -/
def pipeOf (dst : SockId) (net : Net) : List UInt8 :=
  (net.socks dst).traffic.pipe

theorem Conveys.notDgram
    (conveys : net.Conveys src dst) : (net.socks dst).kind ≠ .dgram := by
  rw [conveys.stream]
  decide

theorem Conveys.pipe_of_samePipe
    (conveys : net.Conveys src dst)
    (same : (net.socks dst).traffic.SamePipe (later.socks dst).traffic) :
    pipeOf dst later = pipeOf dst net :=
  same.pipe conveys.notDgram

theorem pipe_of_traffic
    (same : (later.socks dst).traffic = (net.socks dst).traffic) :
    pipeOf dst later = pipeOf dst net :=
  congrArg Traffic.pipe same

/-- What a send takes joins the end of its receiver's pipe. -/
theorem Conveys.send
    (conveys : net.Conveys src dst)
    (data : List UInt8) :
    pipeOf dst (net.send sock data).1 = pipeOf dst net ++
      sentBy src (.send sock data, (net.send sock data).2.map .taken) := by
  rcases net.send_net sock data with ⟨same, none⟩ |
      ⟨far, connected, isOpen, linkedTo, -, sent, answer⟩
  · rw [same]
    cases result : (net.send sock data).2 with
    | error e => simp [sentBy, Except.map]
    | ok count =>
        obtain rfl := none count result
        simp [sentBy, Except.map]
  have sends : net.Sends sock far := ⟨connected, isOpen, linkedTo⟩
  have may : (Payload.bytes data).Deliverable (net.socks far).traffic :=
    Accounted.mayEnd conveys.accounted conveys.wired sends
  have ok := conveys.accounted.counted.rings far
  have spec := deliver_spec ok may (net.socks sock).host
  rw [sent, answer]
  by_cases isSrc : sock = src
  · subst isSrc
    obtain rfl : far = dst :=
      Option.some.inj (linkedTo.symm.trans conveys.there)
    rcases spec.received.pipe ok (fun isDgram => by cases isDgram) with appended | ⟨none, same⟩
    · refine Eq.trans appended ?_
      split
      · next none => simp [none, sentBy, Except.map, Payload.symbols, pipeOf,
          accounts]
      · simp [sentBy, Except.map, Payload.symbols, pipeOf, accounts]
    · rw [if_pos none]
      refine Eq.trans same ?_
      simp [sentBy, Except.map, pipeOf, accounts]
  · -- Only its own far end sends to a receiver.
    have notDst : dst ≠ far := by
      rintro rfl
      obtain ⟨j, there, back, -⟩ :=
        Linked.paired conveys.wired sock (.inl connected)
      obtain rfl := Option.some.inj (there.symm.trans linkedTo)
      exact isSrc (Option.some.inj (back.symm.trans conveys.back))
    have others := pipe_of_traffic (spec.others notDst)
    rw [others]
    split <;> simp [sentBy, Except.map, isSrc]

/-- What a receive returns leaves the front of its own pipe. -/
theorem Conveys.recv
    (conveys : net.Conveys src dst)
    (room : Nat)
    (peek : Bool) :
    receivedBy dst
        (.recv sock room peek, (net.recv sock room peek).2.map .bytes) ++
      pipeOf dst (net.recv sock room peek).1 = pipeOf dst net := by
  rcases net.recv_net sock room peek with ⟨same, nothing⟩ |
      ⟨notPeek, connected, answer, taken⟩
  · rw [same]
    have none : receivedBy dst
        (.recv sock room peek, (net.recv sock room peek).2.map .bytes) = [] := by
      cases result : (net.recv sock room peek).2 with
      | error e => cases peek <;> rfl
      | ok out =>
          rcases nothing out result with isPeek | isEmpty
          · rw [isPeek]
            rfl
          · cases peek <;> simp [receivedBy, Except.map, isEmpty]
    rw [none, List.nil_append]
  obtain ⟨sender, linkedTo, -⟩ :=
    Linked.paired conveys.wired sock (.inl connected)
  have within : min room (net.socks sock).rx.len ≤ (net.socks sock).rx.len :=
    min_le_right _ _
  have traffic : ∀ i, ((net.recv sock room peek).1.socks i).traffic =
      ((net.modifySock sock (.skipRx
        (min room (net.socks sock).rx.len))).socks i).traffic := by
    intro i
    rw [taken sender linkedTo, traffic_of_accounts (accounts_writeEvent _ _)]
    unfold ringSkip
    rw [noteSub_of_le net within]
  rw [answer, notPeek] at *
  by_cases isDst : sock = dst
  · subst isDst
    have skipped := RingBuffer.contents_skip (net.socks sock).rx within
    have after : pipeOf sock (net.recv sock room false).1 =
        (net.socks sock).rx.contents.drop (min room (net.socks sock).rx.len) ++
          streamOf (net.socks sock).traffic.records := by
      unfold pipeOf
      rw [traffic sock, modifySock_socks_self, ← skipped]
      rfl
    have out : net.ringPeek sock 0 (min room (net.socks sock).rx.len) =
        (net.socks sock).rx.contents.take
          (min room (net.socks sock).rx.len) := by
      unfold ringPeek
      exact RingBuffer.peek_zero _ within
    rw [after, out]
    simp only [receivedBy, Except.map, if_true]
    rw [← List.append_assoc, List.take_append_drop]
    rfl
  · have others := (traffic dst).trans (congrArg Sock.traffic
      (modifySock_socks_of_ne net _ (Ne.symm isDst)))
    rw [pipe_of_traffic others]
    simp [receivedBy, Except.map, isDst]

/-- A step that spares a connection: its ends stay linked and the receiver's
pipe stays as it is. -/
structure Spares (net later : Net) (src dst : SockId) : Prop where
  ofSrc : KeepsEnd net later src
  ofDst : KeepsEnd net later dst
  pipe : (net.socks dst).traffic.SamePipe (later.socks dst).traffic

theorem Spares.refl (net : Net) (src dst : SockId) : Spares net net src dst :=
  ⟨(KeepsLinks.refl net).keepsEnd src, (KeepsLinks.refl net).keepsEnd dst,
    .refl _⟩

theorem Spares.trans
    {middle : Net}
    (first : Spares net middle src dst)
    (second : Spares middle later src dst) : Spares net later src dst :=
  ⟨first.ofSrc.trans second.ofSrc, first.ofDst.trans second.ofDst,
    first.pipe.trans second.pipe⟩

theorem Spares.of_links
    (links : KeepsLinks net later)
    (pipe : (net.socks dst).traffic.SamePipe (later.socks dst).traffic) :
    Spares net later src dst :=
  ⟨links.keepsEnd src, links.keepsEnd dst, pipe⟩

theorem Spares.relabels
    (relabels : Relabels sock net later) : Spares net later src dst := by
  refine .of_links (.relabels relabels) ?_
  rw [traffic_of_accounts relabels.accounts]
  exact .refl _

/-- A slot taken anew is none of the connection's. -/
theorem Spares.taken
    (accounted : net.Accounted)
    (notSrc : src ≠ sock)
    (notDst : dst ≠ sock)
    (host : Nat)
    (family : Family)
    (kind : Kind) :
    Spares net (((net.setIdent sock 0).discardFlight sock).modifySock sock
      (.fresh host family kind)) src dst := by
  obtain ⟨-, -, others⟩ := Accounted.taken accounted sock host family kind
  refine ⟨keepsEnd_taken notSrc host family kind,
    keepsEnd_taken notDst host family kind, ?_⟩
  rw [others dst notDst]
  exact .refl _

/-- A socket that is handed out gets a name and a descriptor. -/
theorem Spares.handOut
    (accounted : net.Accounted)
    {ident : Nat}
    (added : (net.setIdent sock ident).addRef pid sock = some later) :
    Spares net later src dst := by
  have links : KeepsLinks net later :=
    .trans (.of_socks (by rfl)) (KeepsLinks.addRef added)
  have settles := Settles.addRef (accounted.setIdent sock ident) added
  exact .of_links links (settles.pipes dst)

theorem Spares.opened
    (accounted : net.Accounted)
    {host ident : Nat}
    {family : Family}
    {kind : Kind}
    {answer : Except NetError Answer}
    (done : Net.handOut pid ident (net.socket host family kind) =
      some (later, answer))
    (notSrc : answer ≠ .ok (.sock src))
    (notDst : answer ≠ .ok (.sock dst)) : Spares net later src dst := by
  rcases opened_cases done with ⟨rfl, -⟩ | ⟨sock, -, rfl, added⟩
  · exact .refl _ src dst
  have apartSrc : src ≠ sock := by rintro rfl; exact notSrc rfl
  have apartDst : dst ≠ sock := by rintro rfl; exact notDst rfl
  have taken := Spares.taken accounted apartSrc apartDst host family kind
  exact taken.trans (Spares.handOut
    (Accounted.taken accounted sock host family kind).1 added)

theorem Spares.accepted
    (wired : net.Wired)
    (accounted : net.Accounted)
    {ident : Nat}
    {answer : Except NetError Answer}
    (done : Net.handOut pid ident (net.accept listener) =
      some (later, answer)) : Spares net later src dst := by
  rcases wired.accepted_cases done with ⟨rfl, -⟩ |
      ⟨far, rest, -, -, -, -, added⟩
  · exact .refl _ src dst
  have kept : ∀ i, KeepsEnd net
      (net.modifySock listener (.setBacklog rest)) i := by
    intro i
    have record := net.modifySock_socks listener i (.setBacklog rest)
    constructor <;> rw [record] <;> split
    case unlinked.isTrue same => rw [same]; exact id
    case unlinked.isFalse => exact id
    case farEnd.isTrue same => rw [same]; rfl
    case farEnd.isFalse => rfl
    case kind.isTrue same => rw [same]; rfl
    case kind.isFalse => rfl
  have traffic := traffic_of_accounts
    (@accounts_modifySock (.setBacklog rest) (fun _ => rfl) net listener) dst
  have dequeued : (net.modifySock listener (.setBacklog rest)).Accounted :=
    accounted.relink (fun _ => rfl) (fun state => ⟨state, rfl, id⟩) id
  have spared : Spares net (net.modifySock listener (.setBacklog rest)) src
      dst := ⟨kept src, kept dst, traffic.symm ▸ .refl _⟩
  exact spared.trans (.handOut dequeued added)

/-- A connect joins two sockets that are none of the connection's. -/
theorem Conveys.spares_connect
    (conveys : net.Conveys src dst)
    (destHost : Nat)
    (dest : Addr)
    (notSrc : (net.connect sock destHost dest).2 ≠ .ok src)
    (notDst : (net.connect sock destHost dest).2 ≠ .ok dst) :
    Spares net (net.connect sock destHost dest).1 src dst := by
  rcases conveys.wired.connect_cases sock destHost dest with
      ⟨relabels, -⟩ |
      ⟨middle, far, listener, farLocal, nearLocal, relabels, -, joinable, -,
        made⟩
  · exact .relabels relabels
  rw [made] at notSrc notDst ⊢
  have farSrc : src ≠ far := by rintro rfl; exact notSrc rfl
  have farDst : dst ≠ far := by rintro rfl; exact notDst rfl
  have unlinked : (net.socks sock).Unlinked := by
    apply (KeepsLinks.relabels relabels).unlinked
    have state := congrArg Sock.state (@farTaken_control middle far sock
      joinable.different.symm sock destHost)
    change _ = (middle.socks sock).state at state
    unfold Sock.Unlinked
    rw [← state]
    exact joinable.unlinked.imp_right .inl
  have nearSrc : src ≠ sock := by
    rintro rfl
    exact conveys.srcLinked unlinked
  have nearDst : dst ≠ sock := by
    rintro rfl
    exact conveys.dstLinked unlinked
  have between := Accounted.relabels conveys.accounted relabels
  have taken : Spares middle (middle.farTaken sock far destHost) src dst :=
    .taken between farSrc farDst destHost (middle.socks sock).family
      (middle.socks sock).kind
  refine ((Spares.relabels relabels).trans taken).trans ⟨?_, ?_, ?_⟩
  · exact keepsEnd_joined farSrc nearSrc listener farLocal nearLocal
  · exact keepsEnd_joined farDst nearDst listener farLocal nearLocal
  · rw [traffic_of_accounts (accounts_joined _ _ _ _ _ _)]
    exact .refl _

/-- A call during the life of the connection takes off the front of the pipe
what it returns, and puts at its end what it takes. -/
theorem Conveys.step
    (conveys : net.Conveys src dst)
    {event : Event}
    (during : During src dst event)
    (step : system.step net event later) :
    later.Conveys src dst ∧
      receivedBy dst event ++ pipeOf dst later =
        pipeOf dst net ++ sentBy src event := by
  obtain ⟨op, answer⟩ := event
  obtain ⟨admissible, done⟩ := step
  have wired := conveys.wired.exec admissible done
  have accounted := Accounted.exec conveys.accounted conveys.wired admissible
    done
  obtain ⟨notSrc, notDst, reads⟩ := during
  -- Most calls spare the connection, and neither take nor return its bytes.
  have quietly : Spares net later src dst →
      receivedBy dst (op, answer) = [] → sentBy src (op, answer) = [] →
      later.Conveys src dst ∧
        receivedBy dst (op, answer) ++ pipeOf dst later =
          pipeOf dst net ++ sentBy src (op, answer) := by
    intro spares nothing none
    refine ⟨conveys.keeps wired accounted spares.ofSrc spares.ofDst, ?_⟩
    rw [nothing, none, conveys.pipe_of_samePipe spares.pipe, List.append_nil]
    rfl
  cases op with
  | opened pid host family kind ident =>
      apply quietly _ rfl rfl
      apply Spares.opened conveys.accounted done
      · rintro rfl; exact notSrc rfl
      · rintro rfl; exact notDst rfl
  | bind sock addr =>
      cases done
      exact quietly (.relabels (net.relabels_bind sock addr).1) rfl rfl
  | listen sock backlog =>
      cases done
      exact quietly (.relabels (net.relabels_listen sock backlog)) rfl rfl
  | connect sock destHost dest =>
      cases done
      apply quietly _ rfl rfl
      apply conveys.spares_connect
      · intro same
        rw [same] at notSrc
        exact notSrc rfl
      · intro same
        rw [same] at notDst
        exact notDst rfl
  | connectDgram sock dest =>
      cases done
      exact quietly (.relabels (net.relabels_connectDgram sock dest)) rfl rfl
  | accept pid listener ident =>
      exact quietly (.accepted conveys.wired conveys.accounted done) rfl rfl
  | send sock data =>
      cases done
      have links := KeepsLinks.of_control (control_send net sock data)
      exact ⟨conveys.keeps wired accounted (links.keepsEnd src)
        (links.keepsEnd dst), conveys.send data⟩
  | recv sock room peek =>
      cases done
      have links := KeepsLinks.of_control (control_recv net sock room peek)
      refine ⟨conveys.keeps wired accounted (links.keepsEnd src)
        (links.keepsEnd dst), ?_⟩
      refine (conveys.recv room peek).trans ?_
      simp [sentBy]
  | sendDgram sock dest data =>
      cases done
      have traffic := @Accounted.sendDgram_samePipe net sock
        conveys.accounted dest data dst conveys.notDgram
      exact quietly (.of_links (.sendDgram net sock dest data)
        (traffic.symm ▸ .refl _)) rfl rfl
  | recvDgram sock room peek =>
      cases done
      have apart : dst ≠ sock := by
        rintro rfl
        exact conveys.notDgram admissible
      have links := KeepsLinks.of_control
        (control_recvDgram net sock room peek)
      have others := net.recvDgram_others apart room peek
      exact quietly (.of_links links (others.symm ▸ .refl _)) rfl rfl
  | shutdown sock read write =>
      cases done
      have pipes := (Accounted.shutdown conveys.accounted conveys.wired
        admissible read write).2 dst
      refine quietly (.of_links (.shutdown net sock read write) (pipes ?_))
        rfl rfl
      rintro ⟨rfl, rfl, done⟩
      rw [done] at reads
      simp [shutsReading] at reads
  | duplicated pid sock =>
      simp only [Net.exec, Option.map_eq_some_iff] at done
      obtain ⟨net', added, made⟩ := done
      cases made
      have settles := Settles.addRef conveys.accounted added
      exact quietly (.of_links (.addRef added) (settles.pipes dst)) rfl rfl
  | closed pid sock =>
      simp only [Net.exec, Option.some.injEq, Prod.mk.injEq] at done
      obtain ⟨rfl, -⟩ := done
      have settles := Settles.dropRef conveys.accounted conveys.wired admissible
      exact quietly (.of_links (.dropRef net pid sock) (settles.pipes dst)) rfl
        rfl
  | adopted pid idents =>
      simp only [Net.exec, Option.map_eq_some_iff] at done
      obtain ⟨net', adopted, made⟩ := done
      cases made
      have steps := refSteps_adoptInherited conveys.wired adopted
      have settles := Settles.refSteps conveys.accounted conveys.wired steps
      exact quietly (.of_links (.refSteps steps) (settles.pipes dst)) rfl rfl
  | died pid =>
      simp only [Net.exec, Option.some.injEq, Prod.mk.injEq] at done
      obtain ⟨rfl, -⟩ := done
      have steps := (refSteps_processDied conveys.wired pid).1
      have settles := Settles.refSteps conveys.accounted conveys.wired steps
      exact quietly (.of_links (.refSteps steps) (settles.pipes dst)) rfl rfl
  | advance now =>
      simp only [Net.exec, Option.some.injEq, Prod.mk.injEq] at done
      obtain ⟨rfl, -⟩ := done
      exact quietly (.of_links (.of_control (control_advance net now))
        (Accounted.advance_samePipe conveys.accounted now dst)) rfl rfl

/-! ## Connections from their making -/

/-- The two ends of a joined pair. -/
theorem Joinable.ends
    (joinable : net.Joinable sock far listener)
    (farLocal nearLocal : Addr) :
    (net.joined sock far listener farLocal nearLocal).socks far =
        (net.socks far).linkFar farLocal nearLocal sock ∧
      (net.joined sock far listener farLocal nearLocal).socks sock =
        (net.socks sock).linkNear farLocal far := by
  have farListener : far ≠ listener := by
    rintro rfl
    have isNew := joinable.isNew
    rw [joinable.listening] at isNew
    cases isNew
  have sockListener : sock ≠ listener := by
    rintro rfl
    have unlinked := joinable.unlinked
    rw [joinable.listening] at unlinked
    rcases unlinked with h | h <;> cases h
  have different := joinable.different
  unfold Net.joined
  constructor
  · rw [countConnection_socks, modifySock_socks_of_ne _ _ farListener,
      modifySock_socks_of_ne _ _ different, modifySock_socks_self]
  · rw [countConnection_socks, modifySock_socks_of_ne _ _ sockListener,
      modifySock_socks_self, modifySock_socks_of_ne _ _ different.symm]

theorem pipe_of_empty
    (empty : (net.socks sock).traffic.Empty) : pipeOf sock net = [] := by
  unfold pipeOf Traffic.pipe
  rw [empty.records, RingBuffer.contents_of_len_eq_zero empty.rx]
  rfl

/-- A connection conveys in both directions, and nothing is in its pipes
yet. -/
theorem Wired.connect_conveys
    (wired : net.Wired)
    (accounted : net.Accounted)
    {destHost : Nat}
    {dest : Addr}
    (made : net.connect sock destHost dest = (later, .ok far)) :
    (later.Conveys sock far ∧ pipeOf far later = []) ∧
      later.Conveys far sock ∧ pipeOf sock later = [] := by
  have laterWired := @Wired.connected net sock wired destHost dest
  have laterAccounted := @Accounted.connected net sock accounted wired destHost
    dest
  rw [made] at laterWired laterAccounted
  rcases wired.connect_cases sock destHost dest with ⟨-, e, failed⟩ |
      ⟨middle, far', listener, farLocal, nearLocal, relabels, -, joinable, -,
        joins⟩
  · rw [made] at failed
    cases failed
  rw [made] at joins
  obtain ⟨rfl, same⟩ := Prod.mk.inj joins
  obtain rfl := Except.ok.inj same
  obtain ⟨ofFar, ofSock⟩ := joinable.ends farLocal nearLocal
  obtain ⟨taken, farEmpty, -⟩ := Accounted.taken
    (Accounted.relabels accounted relabels) far destHost
    (middle.socks sock).family (middle.socks sock).kind
  have sockEmpty : ((middle.farTaken sock far destHost).socks
      sock).traffic.Empty := by
    apply taken.idle sock
    · exact joinable.unlinked.imp_right .inl
    · have kind := joinable.kind
      intro isDgram
      have : ((middle.farTaken sock far destHost).socks sock).kind = .dgram :=
        isDgram
      rw [kind] at this
      cases this
  have traffic := traffic_of_accounts (accounts_joined
    (middle.farTaken sock far destHost) sock far listener farLocal nearLocal)
  have farLinked : ¬(((middle.farTaken sock far destHost).joined sock far
      listener farLocal nearLocal).socks far).Unlinked := by
    rw [ofFar]
    rintro (h | h | h) <;> cases h
  have sockLinked : ¬(((middle.farTaken sock far destHost).joined sock far
      listener farLocal nearLocal).socks sock).Unlinked := by
    rw [ofSock]
    rintro (h | h | h) <;> cases h
  refine ⟨⟨⟨laterWired, laterAccounted, ?_, ?_, sockLinked, farLinked, ?_⟩, ?_⟩,
    ⟨laterWired, laterAccounted, ?_, ?_, farLinked, sockLinked, ?_⟩, ?_⟩
  · rw [ofSock]; rfl
  · rw [ofFar]; rfl
  · rw [ofFar]; exact joinable.farKind
  · apply pipe_of_empty
    rw [traffic]
    exact farEmpty
  · rw [ofFar]; rfl
  · rw [ofSock]; rfl
  · rw [ofSock]; exact joinable.kind
  · apply pipe_of_empty
    rw [traffic]
    exact sockEmpty

/-- Stream integrity: over the life of a connection, in each direction, what
was received, what waits in the receive ring and what is in flight is together
what the sends took, and the end of the stream is seen after its last byte. -/
theorem stream_of_run
    {start : Net}
    {destHost : Nat}
    {dest : Addr}
    {labels : List Event}
    (reachable : system.Reachable net)
    (made : net.connect sock destHost dest = (start, .ok far))
    (direction : src = sock ∧ dst = far ∨ src = far ∧ dst = sock)
    (run : system.Run start labels later)
    (during : ∀ event ∈ labels, During src dst event) :
    ∃ records,
      flightFormat.parse (later.socks dst).flight.contents = some records ∧
      labels.flatMap (receivedBy dst) ++ (later.socks dst).rx.contents ++
        streamOf records = labels.flatMap (sentBy src) ∧
      ((later.socks dst).fin = true → streamOf records = []) := by
  obtain ⟨toFar, toSock⟩ := (reachable_wired reachable).connect_conveys
    (reachable_accounted reachable) made
  have begins : start.Conveys src dst ∧ pipeOf dst start = [] := by
    rcases direction with ⟨rfl, rfl⟩ | ⟨rfl, rfl⟩
    · exact toFar
    · exact toSock
  obtain ⟨conveys, conserved⟩ := run.conserves
    (fun _ _ _ conveys during step => Conveys.step conveys during step)
    begins.1 during
  have ok := conveys.accounted.counted.rings dst
  refine ⟨(later.socks dst).traffic.records, ?_, ?_, ?_⟩
  · have whole := ok.whole
    change (later.socks dst).flight.contents = _ at whole
    rw [whole]
    exact RecordFormat.parse_encodeAll _ _
  · rw [begins.2, List.nil_append] at conserved
    rw [List.append_assoc]
    exact conserved
  · intro isFin
    have none : (later.socks dst).traffic.records = [] := ok.finEmpty isFin
    rw [none]
    rfl

/-- Four bytes are sent, arrive and are read in part. -/
def sentAndRead : List Op :=
  [.send 1 [1, 2, 3, 4], .advance 5, .recv 2 3 false]

theorem stream_of_run_sentAndRead :
    ∃ (labels : List Event) (later : Net) (records : List FlightRecord),
      labels.map Prod.fst = sentAndRead ∧
      flightFormat.parse (later.socks 2).flight.contents = some records ∧
      labels.flatMap (receivedBy 2) ++ (later.socks 2).rx.contents ++
        streamOf records = labels.flatMap (sentBy 1) := by
  obtain ⟨net, opened, connected⟩ := Option.map_eq_some_iff.mp
    (by decide +kernel : (play Admissible
      [.opened 1 0 .inet .stream 7, .bind 0 (Addr.inet 0 80), .listen 0 5,
        .opened 2 1 .inet .stream 8] (zeroed [[], []] 5)).map (fun net =>
          ((net.connect 1 0 (Addr.inet (subnet + 1) 80)).2.toOption,
            (play Admissible sentAndRead
              (net.connect 1 0 (Addr.inet (subnet + 1) 80)).1).isSome)) =
        some (some 2, true))
  obtain ⟨answer, isSome⟩ := Prod.mk.inj connected
  obtain ⟨later, played⟩ := Option.isSome_iff_exists.mp isSome
  obtain ⟨labels, same, run⟩ := run_play played
  have made : net.connect 1 0 (Addr.inet (subnet + 1) 80) =
      ((net.connect 1 0 (Addr.inet (subnet + 1) 80)).1, .ok 2) := by
    refine Prod.ext rfl ?_
    cases result : (net.connect 1 0 (Addr.inet (subnet + 1) 80)).2 with
    | error e => rw [result] at answer; cases answer
    | ok far =>
        rw [result] at answer
        exact congrArg _ (Option.some.inj answer)
  have during : ∀ event ∈ labels, During 1 2 event := by
    intro event present
    have isOp : event.1 ∈ sentAndRead := by
      rw [← same]
      exact List.mem_map_of_mem present
    obtain ⟨op, result⟩ := event
    simp only [sentAndRead, List.mem_cons, List.not_mem_nil, or_false] at isOp
    rcases isOp with rfl | rfl | rfl <;>
      exact ⟨Option.some_ne_none _ ∘ Eq.symm, Option.some_ne_none _ ∘ Eq.symm,
        rfl⟩
  obtain ⟨records, parsed, whole, -⟩ := stream_of_run
    (reachable_play (.start ⟨_, _, rfl⟩) opened) made (.inl ⟨rfl, rfl⟩) run
    during
  exact ⟨labels, later, records, same, parsed, whole⟩

end Net
end Derp
