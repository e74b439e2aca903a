import Derp.Net.Accounting

/-!
# Every call keeps the accounts in order
-/

namespace Derp
namespace Net

variable
  {net later : Net}
  {sock dst src far listener : SockId}
  {pid : Nat}

/-! ## Reading -/

/-- A step that reads off the receive ring of one socket. -/
theorem AccountedBut.readOff
    {ended : Finset SockId}
    (accounted : net.AccountedBut ended)
    {t' : Traffic}
    (readOff : Traffic.ReadOff (net.socks sock).traffic t')
    (accounts : later.accounts = net.accounts.put sock t')
    (sends : ∀ src dst, later.Sends src dst → net.Sends src dst)
    (unlinked : ∀ i, (later.socks i).Unlinked → (net.socks i).Unlinked) :
    later.AccountedBut ended := by
  have ok := accounted.counted.rings sock
  have at' : ∀ i, (later.socks i).traffic =
      ((net.accounts.put sock t').socks i) := by
    intro i
    rw [← accounts]
    rfl
  have records : ∀ i, ((net.accounts.put sock t').socks i).records =
      (net.socks i).traffic.records := by
    intro i
    rw [Accounts.put_records]
    split
    · next same => rw [same, readOff.records]
    · rfl
  have kind : ∀ i, (later.socks i).kind = (net.socks i).kind := by
    intro i
    refine (congrArg Traffic.kind (at' i)).trans ?_
    by_cases same : i = sock
    · rw [same, Accounts.put_socks_self]
      exact readOff.kind
    · rw [Accounts.put_socks_of_ne _ _ same]
      rfl
  constructor
  case counted =>
    rw [accounts]
    refine ⟨accounted.counted.put_rings (readOff.ok ok), ?_,
      accounted.counted.noUnderflow⟩
    rw [Finset.sum_congr rfl fun i _ => congrArg List.length (records i)]
    exact accounted.counted.counted
  case nextLe =>
    rw [accounts]
    intro i
    rw [records]
    exact accounted.nextLe i
  case quiet =>
    intro src dst may notEnded
    have quiet := accounted.quiet src dst (sends src dst may) notEnded
    rw [at']
    by_cases same : dst = sock
    · subst same
      rw [Accounts.put_socks_self]
      exact readOff.quiet quiet
    · rw [Accounts.put_socks_of_ne _ _ same]
      exact quiet
  case idle =>
    intro i isUnlinked isStream
    rw [kind] at isStream
    have empty := accounted.idle i (unlinked i isUnlinked) isStream
    rw [at']
    by_cases same : i = sock
    · subst same
      rw [Accounts.put_socks_self]
      exact readOff.empty empty
    · rw [Accounts.put_socks_of_ne _ _ same]
      exact empty

theorem Accounted.recv
    (accounted : net.Accounted)
    (wired : net.Wired)
    (room : Nat)
    (peek : Bool) : (net.recv sock room peek).1.Accounted := by
  have control := net.control_recv sock room peek
  rcases net.recv_net sock room peek with ⟨same, -⟩ |
      ⟨-, connected, -, taken⟩
  · rw [same]
    exact accounted
  obtain ⟨sender, linkedTo, -⟩ := Linked.paired wired sock (.inl connected)
  have isStream := Linked.streams wired sock (.inr (.inl connected))
  have done := taken sender linkedTo
  have accounts : (net.recv sock room peek).1.accounts =
      net.accounts.put sock ((net.socks sock).skipRx
        (min room (net.socks sock).rx.len)).traffic := by
    rw [done, accounts_writeEvent]
    unfold ringSkip
    rw [noteSub_of_le net (min_le_right _ _), accounts_put]
  refine accounted.readOff ?_ accounts
    (fun src dst => (sends_of_control control src dst).mp)
    (fun i => (unlinked_of_control control i).mp)
  refine ⟨rfl, rfl, rfl, rfl, rfl, Nat.sub_le _ _, ?_⟩
  intro isDgram
  have : (net.socks sock).kind = .dgram := isDgram
  rw [isStream] at this
  cases this

/-- A datagram is taken off whole. -/
theorem recvDgram_net
    {g : Datagram}
    {gs : List Datagram}
    (contents : (net.socks sock).rx.contents = encodeDatagrams (g :: gs))
    (room : Nat) :
    dgramHeaderLen + g.source.path.length + g.data.length ≤
        (net.socks sock).rx.len ∧
      (net.recvDgram sock room false).1 = net.ringSkip sock
        (dgramHeaderLen + g.source.path.length + g.data.length) := by
  rw [encodeDatagrams_cons] at contents
  have length := RingBuffer.length_contents (net.socks sock).rx
  rw [contents, List.length_append, Datagram.length_encode] at length
  have positive : 0 < dgramHeaderLen := by decide
  have header : net.ringPeek sock 0 dgramHeaderLen =
      (g.encode ++ encodeDatagrams gs).take dgramHeaderLen := by
    unfold ringPeek
    rw [RingBuffer.peek_zero _ (by omega), contents]
  obtain ⟨dataLen, pathLen⟩ := g.lengths_of_encode (encodeDatagrams gs)
  have bytes : ((net.ringPeek sock 0 dgramHeaderLen).take 4) =
      (g.encode ++ encodeDatagrams gs).take 4 := by
    rw [header, List.take_take]
    rfl
  have byte : (net.ringPeek sock 0 dgramHeaderLen).getD 11 0 =
      (g.encode ++ encodeDatagrams gs).getD 11 0 := by
    rw [header, List.getD_eq_getElem?_getD, List.getD_eq_getElem?_getD,
      List.getElem?_take_of_lt (by decide)]
  refine ⟨by omega, ?_⟩
  unfold Net.recvDgram
  rw [if_neg (by omega)]
  dsimp only
  rw [bytes, byte, dataLen, pathLen, if_neg (Nat.not_lt_of_le g.source.path_le)]
  rfl

theorem Accounted.recvDgram
    (accounted : net.Accounted)
    (isDgram : (net.socks sock).kind = .dgram)
    (room : Nat)
    (peek : Bool) : (net.recvDgram sock room peek).1.Accounted := by
  have control := net.control_recvDgram sock room peek
  have ok := accounted.counted.rings sock
  obtain ⟨gs, contents⟩ := (ok.datagrams isDgram).2
  change (net.socks sock).rx.contents = encodeDatagrams gs at contents
  by_cases isEmpty : (net.socks sock).rx.len = 0
  · unfold Net.recvDgram
    rw [if_pos isEmpty]
    exact accounted
  cases peek with
  | true =>
      unfold Net.recvDgram
      rw [if_neg isEmpty]
      dsimp only
      split
      · exact accounted
      · exact accounted
  | false =>
      cases gs with
      | nil =>
          have := RingBuffer.length_contents (net.socks sock).rx
          rw [contents] at this
          exact absurd this.symm isEmpty
      | cons g gs =>
          obtain ⟨whole, taken⟩ := recvDgram_net contents room
          have accounts : (net.recvDgram sock room false).1.accounts =
              net.accounts.put sock ((net.socks sock).skipRx (dgramHeaderLen +
                g.source.path.length + g.data.length)).traffic := by
            rw [taken]
            unfold ringSkip
            rw [noteSub_of_le net whole, accounts_put]
          refine accounted.readOff ?_ accounts
            (fun src dst => (sends_of_control control src dst).mp)
            (fun i => (unlinked_of_control control i).mp)
          refine ⟨rfl, rfl, rfl, rfl, rfl, Nat.sub_le _ _, ?_⟩
          intro _
          refine ⟨gs, ?_⟩
          have skipped := RingBuffer.contents_skip (net.socks sock).rx whole
          rw [contents, encodeDatagrams_cons,
            List.drop_left' (by simp)] at skipped
          exact skipped

/-- The reading half is shut down: what arrived is thrown away. -/
theorem Accounted.shutdownRead
    (accounted : net.Accounted)
    (sock : SockId) : (net.shutdownRead sock).Accounted := by
  have first : (net.modifySock sock .shutRead).Accounted := by
    refine accounted.readOff ?_ (accounts_put net sock .shutRead)
      (fun _ _ => sends_modifySock fun state => ⟨state, rfl, id⟩) (unlinked_modifySock id)
    refine ⟨rfl, rfl, rfl, rfl, rfl, Nat.zero_le _, ?_⟩
    intro _
    exact ⟨[], RingBuffer.contents_of_len_eq_zero rfl⟩
  unfold Net.shutdownRead
  split
  · exact first
  · exact first.statesOnly (StatesOnly.of_control (control_writeEvent _ _))
      (accounts_writeEvent _ _)

/-- The writing half is shut down: the stream to the far end ends. -/
theorem Settles.shutdownWrite
    (accounted : net.Accounted)
    (wired : net.Wired)
    (connected : (net.socks sock).state = .connected)
    (isOpen : (net.socks sock).shutWr = false) :
    Settles net (net.shutdownWrite sock) := by
  obtain ⟨peer, linkedTo, -⟩ := Linked.paired wired sock (.inl connected)
  have sends : net.Sends sock peer := ⟨connected, isOpen, linkedTo⟩
  have isLinked := (Linked.receiver wired sends).2
  have may := Accounted.mayEnd accounted wired sends
  have noMore : ∀ {src}, (net.modifySock sock .shutWrite).Sends src peer →
      False := by
    intro src also
    have before := sends_modifySock
      (fun state => ⟨state, rfl, fun closed => by cases closed⟩) also
    obtain rfl := Linked.sole wired sends before
    have closed := also.open'
    rw [modifySock_socks_self] at closed
    cases closed
  have shut : (net.modifySock sock .shutWrite).Accounted :=
    accounted.relink (fun _ => rfl)
      (fun state => ⟨state, rfl, fun closed => by cases closed⟩) id
  have traffic := traffic_of_accounts
    (@accounts_modifySock .shutWrite (fun _ => rfl) net sock)
  rw [← traffic peer] at may
  have stillLinked :
      ¬((net.modifySock sock .shutWrite).socks peer).Unlinked :=
    fun isUnlinked => isLinked (unlinked_modifySock id peer isUnlinked)
  unfold Net.shutdownWrite
  rw [linkedTo]
  dsimp only
  have ended : ((net.modifySock sock .shutWrite).deliver (net.socks sock).host
      peer .fin).1.AccountedBut {peer} := by
    apply shut.deliver may (.inl stillLinked)
    intro i notEnded
    refine ⟨by simp, ?_⟩
    rintro rfl
    exact absurd (Finset.mem_singleton_self i) notEnded
  refine ⟨?_, ?_, ?_⟩
  · apply ended.silenced
    intro src dst isEnded also
    obtain rfl := Finset.mem_singleton.mp isEnded
    exact noMore ((sends_of_control (control_deliver _ _ _ _) src dst).mp also)
  · intro i
    rw [← traffic i]
    exact Accounted.samePipe shut may _ i
  · rw [← @accounts_modifySock .shutWrite (fun _ => rfl) net sock]
    exact onTime_deliver (shut.counted.rings peer) may _

/-- Shutting a socket down for reading leaves the others' traffic alone. -/
theorem shutdownRead_traffic
    (net : Net)
    {i : SockId}
    (different : i ≠ sock) :
    ((net.shutdownRead sock).socks i).traffic = (net.socks i).traffic := by
  have shut : (net.modifySock sock .shutRead).socks i = net.socks i :=
    modifySock_socks_of_ne _ _ different
  unfold shutdownRead
  split
  · rw [shut]
  · rw [traffic_of_accounts (accounts_writeEvent _ _), shut]

theorem Accounted.shutdown
    (accounted : net.Accounted)
    (wired : net.Wired)
    (open' : 0 < (net.socks sock).refs)
    (read write : Bool) :
    (net.shutdown sock read write).1.Accounted ∧
      ∀ i, ¬(i = sock ∧ read = true ∧
          (net.shutdown sock read write).2 = .ok ()) →
        (net.socks i).traffic.SamePipe
          ((net.shutdown sock read write).1.socks i).traffic := by
  rcases net.shutdown_net sock read write with same |
      ⟨connected, middle, half, rest⟩
  · rw [same]
    exact ⟨accounted, fun i _ => .refl _⟩
  have readWired := wired.shutdown open' true false
  have onlyRead : (net.shutdown sock true false).1 = net.shutdownRead sock := by
    unfold Net.shutdown
    simp [connected]
  rw [onlyRead] at readWired
  have middleKept : middle.Accounted ∧ middle.Wired ∧
      (middle.socks sock).state = .connected ∧
      ∀ i, ¬(i = sock ∧ read = true) →
        (middle.socks i).traffic = (net.socks i).traffic := by
    rcases half with ⟨-, rfl⟩ | ⟨isRead, rfl⟩
    · exact ⟨accounted, wired, connected, fun i _ => rfl⟩
    · refine ⟨Accounted.shutdownRead accounted sock, readWired,
        (net.shutdownRead_socks sock sock).2.2.2.trans connected, ?_⟩
      intro i other
      exact net.shutdownRead_traffic fun same => other ⟨same, isRead⟩
  obtain ⟨middleAccounted, middleWired, stillConnected, traffic⟩ := middleKept
  have done : (net.shutdown sock read write).2 = .ok () := by
    rcases rest with ⟨-, same⟩ | same <;> rw [same]
  rw [done]
  rcases rest with ⟨isOpen, written⟩ | same
  · rw [written]
    have settles := Settles.shutdownWrite middleAccounted middleWired
      stillConnected isOpen
    refine ⟨settles.accounted, ?_⟩
    intro i other
    rw [← traffic i (by simpa using other)]
    exact settles.pipes i
  · rw [same]
    refine ⟨middleAccounted, ?_⟩
    intro i other
    rw [traffic i (by simpa using other)]
    exact .refl _

/-! ## Names and slots -/

theorem Accounted.relabels
    (accounted : net.Accounted)
    (relabels : Relabels sock net later) : later.Accounted := by
  induction relabels with
  | refl => exact accounted
  | hosts hosts _ inductionHypothesis =>
      exact inductionHypothesis.of_socks rfl (accounts_setHosts _ hosts)
  | named addr _ _ inductionHypothesis =>
      exact inductionHypothesis.relink (fun _ => rfl)
        (fun state => ⟨state, rfl, id⟩) id
  | bound addr _ isNew inductionHypothesis =>
      exact inductionHypothesis.relink (fun _ => rfl)
        (fun state => by cases state) (fun _ => .inl isNew)
  | listening backlogMax _ isBound _ inductionHypothesis =>
      exact inductionHypothesis.relink (fun _ => rfl)
        (fun state => by cases state) (fun _ => .inr isBound)
  | peer dest _ inductionHypothesis =>
      exact inductionHypothesis.relink (fun _ => rfl)
        (fun state => ⟨state, rfl, id⟩) id

/-- A slot that is taken anew is empty, whatever was in flight to it. -/
theorem Accounted.taken
    (accounted : net.Accounted)
    (sock : SockId)
    (host : Nat)
    (family : Family)
    (kind : Kind) :
    (((net.setIdent sock 0).discardFlight sock).modifySock sock
        (.fresh host family kind)).Accounted ∧
      ((((net.setIdent sock 0).discardFlight sock).modifySock sock
        (.fresh host family kind)).socks sock).traffic.Empty ∧
      ∀ i ≠ sock, ((((net.setIdent sock 0).discardFlight sock).modifySock sock
        (.fresh host family kind)).socks i).traffic =
          (net.socks i).traffic := by
  have ok := accounted.counted.rings sock
  obtain ⟨t', -, -, -, -, -, discarded⟩ :=
    @discardFlight_spec (net.setIdent sock 0) sock ok
  obtain ⟨taken, isTaken⟩ : ∃ taken, taken =
      ((net.setIdent sock 0).discardFlight sock).modifySock sock
        (.fresh host family kind) := ⟨_, rfl⟩
  have control := net.control_taken sock host family kind
  rw [← isTaken] at control ⊢
  have empty : (taken.socks sock).traffic.Empty := by
    rw [isTaken, modifySock_socks_self]
    exact ⟨rfl, rfl, rfl, rfl, rfl⟩
  have accounts : taken.accounts =
      { net.accounts.put sock (taken.socks sock).traffic with
        inFlight := net.inFlight -
          (net.socks sock).traffic.records.length } := by
    have at' : (taken.socks sock).traffic = ((((net.setIdent sock
        0).discardFlight sock).socks sock).fresh host family kind).traffic := by
      rw [isTaken, modifySock_socks_self]
    rw [at', isTaken, accounts_put, discarded]
    have merged := net.accounts.put_put sock t' ((((net.setIdent sock
      0).discardFlight sock).socks sock).fresh host family kind).traffic
    exact congrArg (fun a : Accounts => { a with
      inFlight := net.inFlight -
        (net.socks sock).traffic.records.length }) merged
  have others : ∀ i ≠ sock, (taken.socks i).traffic =
      (net.socks i).traffic := by
    intro i different
    have view := congrArg (fun a : Accounts => a.socks i) accounts
    exact view.trans (net.accounts.put_socks_of_ne _ different)
  refine ⟨?_, empty, others⟩
  constructor
  case counted =>
    have moved := net.accounts.sum_put sock (taken.socks sock).traffic
    rw [empty.records, List.length_nil] at moved
    have total := accounted.counted.counted
    rw [accounts]
    refine ⟨accounted.counted.put_rings empty.ok, ?_,
      accounted.counted.noUnderflow⟩
    change net.inFlight - (net.socks sock).traffic.records.length =
      ∑ i, ((net.accounts.put sock
        (taken.socks sock).traffic).socks i).records.length
    change net.inFlight = _ at total
    change _ + (net.socks sock).traffic.records.length = _ at moved
    omega
  case nextLe =>
    rw [accounts]
    intro i r isHead
    change r ∈ ((net.accounts.put sock
      (taken.socks sock).traffic).socks i).records.head? at isHead
    rw [Accounts.put_records] at isHead
    split at isHead
    · rw [empty.records] at isHead
      cases isHead
    · exact accounted.nextLe i r isHead
  case quiet =>
    intro src dst sends notEnded
    by_cases same : dst = sock
    · subst same
      exact empty.quiet
    · rw [others dst same]
      rw [sends_of_control control] at sends
      obtain ⟨connected, open', linkedTo⟩ :=
        sends_modifySock (fun state => by cases state) sends
      exact accounted.quiet src dst ⟨connected, open', linkedTo⟩ notEnded
  case idle =>
    intro i isUnlinked isStream
    by_cases same : i = sock
    · subst same
      exact empty
    · rw [others i same]
      rw [unlinked_of_control control, modifySock_socks_of_ne _ _ same]
        at isUnlinked
      rw [kind_of_control control, modifySock_socks_of_ne _ _ same] at isStream
      exact accounted.idle i isUnlinked isStream

/-- The two ends of a new connection have seen no FIN. -/
theorem Accounted.joined
    (accounted : net.Accounted)
    (joinable : net.Joinable sock far listener)
    (empty : (net.socks far).traffic.Empty)
    (farLocal nearLocal : Addr) :
    (net.joined sock far listener farLocal nearLocal).Accounted := by
  obtain ⟨pair, isPair⟩ : ∃ pair, pair = (net.modifySock far
      (.linkFar farLocal nearLocal sock)).modifySock sock
        (.linkNear farLocal far) := ⟨_, rfl⟩
  have isFar : pair.socks far =
      (net.socks far).linkFar farLocal nearLocal sock := by
    rw [isPair, modifySock_socks_of_ne _ _ joinable.different,
      modifySock_socks_self]
  have isSock : pair.socks sock = (net.socks sock).linkNear farLocal far := by
    rw [isPair, modifySock_socks_self,
      modifySock_socks_of_ne _ _ joinable.different.symm]
  have isOther : ∀ i, i ≠ far → i ≠ sock → pair.socks i = net.socks i := by
    intro i notFar notSock
    rw [isPair, modifySock_socks_of_ne _ _ notSock,
      modifySock_socks_of_ne _ _ notFar]
  have accounts : pair.accounts = net.accounts := by
    rw [isPair]
    refine (@accounts_modifySock (.linkNear farLocal far) (fun _ => rfl) _
      sock).trans ?_
    exact @accounts_modifySock (.linkFar farLocal nearLocal sock)
      (fun _ => rfl) net far
  have sockEmpty : (net.socks sock).traffic.Empty := by
    apply accounted.idle sock
    · exact joinable.unlinked.imp_right .inl
    · rw [joinable.kind]
      decide
  have linked : pair.Accounted := by
    constructor
    case counted => rw [accounts]; exact accounted.counted
    case nextLe => rw [accounts]; exact accounted.nextLe
    case quiet =>
      intro src dst sends notEnded
      rw [traffic_of_accounts accounts]
      obtain ⟨connected, open', linkedTo⟩ := sends
      by_cases fromFar : src = far
      · rw [fromFar, isFar] at linkedTo
        obtain rfl := Option.some.inj linkedTo
        exact sockEmpty.quiet
      · by_cases fromSock : src = sock
        · rw [fromSock, isSock] at linkedTo
          obtain rfl := Option.some.inj linkedTo
          exact empty.quiet
        · rw [isOther src fromFar fromSock] at connected open' linkedTo
          exact accounted.quiet src dst ⟨connected, open', linkedTo⟩ notEnded
    case idle =>
      intro i isUnlinked isStream
      rw [traffic_of_accounts accounts]
      by_cases same : i = far
      · rw [same]
        exact empty
      · by_cases same' : i = sock
        · rw [same']
          exact sockEmpty
        · rw [isOther i same same'] at isUnlinked isStream
          exact accounted.idle i isUnlinked isStream
  have queued : (pair.modifySock listener (.enqueue far)).Accounted :=
    linked.relink (fun _ => rfl) (fun state => ⟨state, rfl, id⟩) id
  rw [isPair] at queued
  exact queued.of_socks rfl rfl

theorem Accounted.connected
    (accounted : net.Accounted)
    (wired : net.Wired)
    (destHost : Nat)
    (dest : Addr) : (net.connect sock destHost dest).1.Accounted := by
  rcases wired.connect_cases sock destHost dest with ⟨relabels, -⟩ |
      ⟨middle, far, listener, farLocal, nearLocal, relabels, -, joinable, -,
        made⟩
  · exact Accounted.relabels accounted relabels
  · rw [made]
    obtain ⟨taken, empty, -⟩ := Accounted.taken
      (Accounted.relabels accounted relabels) far destHost
      (middle.socks sock).family (middle.socks sock).kind
    exact Accounted.joined taken joinable empty farLocal nearLocal

/-- A socket that is handed out stays accounted for. -/
theorem Accounted.handOut
    (accounted : net.Accounted)
    {ident : Nat}
    (added : (net.setIdent sock ident).addRef pid sock = some later) :
    later.Accounted :=
  (Settles.addRef (accounted.setIdent sock ident) added).accounted

theorem Accounted.opened
    (accounted : net.Accounted)
    {host ident : Nat}
    {family : Family}
    {kind : Kind}
    {answer : Except NetError Answer}
    (done : Net.handOut pid ident (net.socket host family kind) =
      some (later, answer)) : later.Accounted := by
  rcases opened_cases done with ⟨rfl, -⟩ | ⟨sock, -, -, added⟩
  · exact accounted
  · exact Accounted.handOut
      (Accounted.taken accounted sock host family kind).1 added

theorem Accounted.accepted
    (accounted : net.Accounted)
    (wired : net.Wired)
    {ident : Nat}
    {answer : Except NetError Answer}
    (done : Net.handOut pid ident (net.accept listener) =
      some (later, answer)) : later.Accounted := by
  rcases wired.accepted_cases done with ⟨rfl, -⟩ |
      ⟨far, rest, -, -, -, -, added⟩
  · exact accounted
  · apply Accounted.handOut _ added
    exact accounted.relink (fun _ => rfl) (fun state => ⟨state, rfl, id⟩) id

/-! ## Payloads -/

theorem Accounted.send
    (accounted : net.Accounted)
    (wired : net.Wired)
    (data : List UInt8) : (net.send sock data).1.Accounted := by
  rcases net.send_net sock data with ⟨same, -⟩ |
      ⟨far, connected, isOpen, linkedTo, -, sent, -⟩
  · rw [same]
    exact accounted
  · rw [sent]
    have sends : net.Sends sock far := ⟨connected, isOpen, linkedTo⟩
    obtain ⟨isStream, isLinked⟩ := Linked.receiver wired sends
    have may : (Payload.bytes data).Deliverable (net.socks far).traffic :=
      Accounted.mayEnd accounted wired sends
    exact accounted.deliver may (.inl isLinked) _
      fun i asked => ⟨asked, fun _ isFin => by cases isFin⟩

theorem Accounted.sameButCounts
    (accounted : net.Accounted)
    (same : SameButCounts net later) : later.Accounted :=
  accounted.statesOnly (.of_control same.control) same.accounts

theorem Accounted.sendDgram
    (accounted : net.Accounted)
    (dest : Option (Nat × Addr))
    (data : List UInt8) : (net.sendDgram sock dest data).1.Accounted := by
  rcases net.sendDgram_net sock dest data with relabels |
      ⟨middle, destHost, dest', relabels, sent⟩
  · exact Accounted.relabels accounted relabels
  · rw [sent]
    have between := Accounted.relabels accounted relabels
    rcases middle.sendTo_net sock destHost dest' data with same |
        ⟨target, source, isDgram, same⟩
    · exact Accounted.sameButCounts between same
    · refine Accounted.sameButCounts ?_ same
      have may : (Payload.datagram source data).Deliverable
          (middle.socks target).traffic := isDgram
      exact between.deliver may (.inr isDgram) _
        fun i asked => ⟨asked, fun _ isFin => by cases isFin⟩

theorem Accounted.advance
    (accounted : net.Accounted)
    (now : Nat) : (net.advance now).1.Accounted := by
  have control := net.control_advance now
  have counted := accounted.counted
  rcases advance_spec counted now with ⟨-, -, same⟩ |
      ⟨-, -, b, next, lands, same, isOver, -⟩
  · have traffic : ∀ i, ((net.advance now).1.socks i).traffic =
        (net.socks i).traffic :=
      fun i => congrArg (fun a : Accounts => a.socks i) same
    constructor
    case counted =>
      rw [same]
      exact ⟨counted.rings, counted.counted, counted.noUnderflow⟩
    case nextLe =>
      rw [same]
      exact accounted.nextLe
    case quiet =>
      intro src dst sends notEnded
      rw [traffic]
      exact accounted.quiet src dst ((sends_of_control control _ _).mp sends)
        notEnded
    case idle =>
      intro i isUnlinked isStream
      rw [traffic]
      rw [kind_of_control control] at isStream
      exact accounted.idle i ((unlinked_of_control control i).mp isUnlinked)
        isStream
  · have traffic : ∀ i, ((net.advance now).1.socks i).traffic = b.socks i :=
      fun i => congrArg (fun a : Accounts => a.socks i) same
    have start : Accounts.Counted { net.accounts with now := now } :=
      ⟨counted.rings, counted.counted, counted.noUnderflow⟩
    have landed := start.lands lands
    constructor
    case counted =>
      rw [same]
      exact ⟨landed.rings, landed.counted, landed.noUnderflow⟩
    case nextLe =>
      rw [same]
      exact fun i r isHead => (isOver i r isHead).2
    case quiet =>
      intro src dst sends notEnded
      rw [traffic]
      exact lands.quiet (accounted.quiet src dst
        ((sends_of_control control _ _).mp sends) notEnded)
    case idle =>
      intro i isUnlinked isStream
      rw [kind_of_control control] at isStream
      have empty := accounted.idle i
        ((unlinked_of_control control i).mp isUnlinked) isStream
      rw [traffic, lands.of_no_records empty.records]
      exact empty

/-- Every call keeps the accounts in order. -/
theorem Accounted.exec
    (accounted : net.Accounted)
    (wired : net.Wired)
    {op : Op}
    (admissible : net.Admissible op)
    {answer : Except NetError Answer}
    (done : net.exec op = some (later, answer)) : later.Accounted := by
  cases op with
  | opened pid host family kind ident => exact Accounted.opened accounted done
  | bind sock addr =>
      cases done
      exact Accounted.relabels accounted (net.relabels_bind sock addr).1
  | listen sock backlog =>
      cases done
      exact Accounted.relabels accounted (net.relabels_listen sock backlog)
  | connect sock destHost dest =>
      cases done
      exact Accounted.connected accounted wired destHost dest
  | connectDgram sock dest =>
      cases done
      exact Accounted.relabels accounted (net.relabels_connectDgram sock dest)
  | accept pid listener ident =>
      exact Accounted.accepted accounted wired done
  | send sock data =>
      cases done
      exact Accounted.send accounted wired data
  | recv sock room peek =>
      cases done
      exact Accounted.recv accounted wired room peek
  | sendDgram sock dest data =>
      cases done
      exact Accounted.sendDgram accounted dest data
  | recvDgram sock room peek =>
      cases done
      exact Accounted.recvDgram accounted admissible room peek
  | shutdown sock read write =>
      cases done
      exact (Accounted.shutdown accounted wired admissible read write).1
  | duplicated pid sock =>
      simp only [Net.exec, Option.map_eq_some_iff] at done
      obtain ⟨net', added, same⟩ := done
      cases same
      exact (Settles.addRef accounted added).accounted
  | closed pid sock =>
      simp only [Net.exec, Option.some.injEq, Prod.mk.injEq] at done
      obtain ⟨rfl, -⟩ := done
      exact (Settles.dropRef accounted wired admissible).accounted
  | adopted pid idents =>
      simp only [Net.exec, Option.map_eq_some_iff] at done
      obtain ⟨net', adopted, same⟩ := done
      cases same
      exact (Settles.refSteps accounted wired
        (refSteps_adoptInherited wired adopted)).accounted
  | died pid =>
      simp only [Net.exec, Option.some.injEq, Prod.mk.injEq] at done
      obtain ⟨rfl, -⟩ := done
      exact (Settles.refSteps accounted wired
        (refSteps_processDied wired pid).1).accounted
  | advance now =>
      simp only [Net.exec, Option.some.injEq, Prod.mk.injEq] at done
      obtain ⟨rfl, -⟩ := done
      exact Accounted.advance accounted now

/-- Nothing is in flight in a zeroed network. -/
theorem accounted_zeroed (names : List (List UInt8)) (latencyNs : Nat) :
    (zeroed names latencyNs).Accounted := by
  obtain ⟨hosts, same⟩ := zeroed_net names latencyNs
  have empty : ∀ i, ((zeroed names latencyNs).socks i).traffic.Empty := by
    intro i
    rw [same]
    exact ⟨rfl, rfl, rfl, rfl, rfl⟩
  constructor
  case counted =>
    refine ⟨fun i => (empty i).ok, ?_, ?_⟩
    · rw [Finset.sum_eq_zero fun i _ => ?_]
      · rw [same]
        rfl
      · exact List.length_eq_zero_iff.mpr (empty i).records
    · rw [same]
      rfl
  case nextLe =>
    intro i r isHead
    change r ∈ ((zeroed names latencyNs).socks i).traffic.records.head?
      at isHead
    rw [(empty i).records] at isHead
    cases isHead
  case quiet => exact fun _ dst _ _ => (empty dst).quiet
  case idle => exact fun i _ _ => empty i

/-- The accounts are in order in every reachable state. -/
theorem reachable_accounted
    (reachable : system.Reachable net) : net.Accounted := by
  refine reachable.invariantOf (fun _ => reachable_wired) ?_ ?_
  · rintro net ⟨names, latencyNs, rfl⟩
    exact accounted_zeroed names latencyNs
  · rintro net event later wired accounted ⟨admissible, done⟩
    exact Accounted.exec accounted wired admissible done

/-! ## What the counters say -/

/-- The counters of the rings, as a reader of the socket table sees them, next
to the records that the flight rings hold. -/
structure RingsInOrder
    (net : Net)
    (records : SockId → List FlightRecord) : Prop where
  parsed : ∀ i,
    flightFormat.parse (net.socks i).flight.contents = some (records i)
  window : ∀ i, (net.socks i).kind ≠ .dgram →
    (net.socks i).rx.len + (net.socks i).flStream ≤ ringSize
  rx_le : ∀ i, (net.socks i).rx.len ≤ ringSize
  flight_le : ∀ i, (net.socks i).flight.len ≤ ringSize
  flStream : ∀ i, (net.socks i).flStream =
    (((records i).filter fun r => r.kind = .bytes).map
      fun r => r.payload.length).sum
  oneFin : ∀ i, (net.socks i).fins ≤ 1
  finRoom : ∀ i, (net.socks i).fins = 0 →
    (net.socks i).flight.len + flightHeaderLen ≤ ringSize
  finDue : ∀ src dst, net.Sends src dst → (net.socks dst).fins = 0
  counted : net.inFlight = ∑ i, (records i).length
  nextDue : 0 < net.inFlight →
    ∀ i, ∀ r ∈ (records i).head?, net.nextDueAt ≤ r.due
  noUnderflow : net.underflow = false

/-- The accounts are in order in every reachable state. -/
theorem rings_of_reachable
    (reachable : system.Reachable net) :
    ∃ records, net.RingsInOrder records := by
  have accounted := reachable_accounted reachable
  have ok : ∀ i, (net.socks i).traffic.Ok := accounted.counted.rings
  refine ⟨fun i => (net.socks i).traffic.records, ?_⟩
  constructor
  case parsed =>
    intro i
    have whole := (ok i).whole
    change (net.socks i).flight.contents = _ at whole
    rw [whole]
    exact RecordFormat.parse_encodeAll _ _
  case window => exact fun i _ => (ok i).window_le
  case rx_le => exact fun i => (ok i).rx_le
  case flight_le => exact fun i => (ok i).flight_le
  case flStream =>
    intro i
    rw [← List.length_flatMap]
    exact (ok i).stream_eq
  case oneFin => exact fun i => (ok i).fins_le
  case finRoom => exact fun i none => (ok i).room ((ok i).fins_eq_zero_iff.mp none).2
  case finDue =>
    intro src dst sends
    exact (ok dst).fins_eq_zero_iff.mpr
      (accounted.quiet src dst sends (by simp))
  case counted => exact accounted.counted.counted
  case nextDue => exact fun _ i => accounted.nextLe i
  case noUnderflow => exact accounted.counted.noUnderflow

/-- A server on one host and a client on another that sent it four bytes. -/
def payloadInFlight : List Op :=
  [.opened 1 0 .inet .stream 7, .bind 0 (Addr.inet 0 80), .listen 0 5,
    .opened 2 1 .inet .stream 8,
    .connect 1 0 (Addr.inet (subnet + 1) 80), .send 1 [1, 2, 3, 4]]

theorem rings_of_reachable_in_flight :
    ∃ net records, RingsInOrder net records ∧ net.inFlight = 1 := by
  obtain ⟨net, played, inFlight⟩ := Option.map_eq_some_iff.mp
    (by decide +kernel : (play Admissible payloadInFlight
      (zeroed [[], []] 5)).map Net.inFlight = some 1)
  obtain ⟨records, inOrder⟩ := rings_of_reachable
    (reachable_play (.start ⟨_, _, rfl⟩) played)
  exact ⟨net, records, inOrder, inFlight⟩

/-- Bytes of a stream that are received as a datagram: the first four spell its
length, the last one that of the path. -/
def datagramOfStream : List Op :=
  [.opened 1 0 .inet .stream 7, .bind 0 (Addr.inet 0 80), .listen 0 5,
    .opened 2 0 .inet .stream 8, .connect 1 0 (Addr.inet loopback 80),
    .send 1 (List.replicate 11 255 ++ [104]), .recvDgram 2 0 false]

/-- A queued connection, which nobody holds yet, is shut down, and then its
listener is closed. -/
def shutdownOfQueued : List Op :=
  [.opened 1 0 .inet .stream 7, .bind 0 (Addr.inet 0 80), .listen 0 5,
    .opened 2 0 .inet .stream 8, .connect 1 0 (Addr.inet loopback 80),
    .shutdown 2 false true, .closed 1 0]

/-- Descriptors that match are not enough: a stream that is received as a
datagram takes off more than there is, and a connection that is shut down
before anybody holds it sends two FINs. -/
theorem rings_of_matched :
    (¬∀ net, (calls Matched).Reachable net →
      ∃ records, RingsInOrder net records) ∧
    ∃ net, (calls Matched).Reachable net ∧ (net.socks 1).fins = 2 := by
  constructor
  · intro always
    obtain ⟨net, played, underflow⟩ := Option.map_eq_some_iff.mp
      (by decide +kernel : (play Matched datagramOfStream
        (zeroed [[]] 0)).map Net.underflow = some true)
    obtain ⟨records, inOrder⟩ :=
      always net (reachable_play (.start ⟨_, _, rfl⟩) played)
    rw [inOrder.noUnderflow] at underflow
    cases underflow
  · obtain ⟨net, played, fins⟩ := Option.map_eq_some_iff.mp
      (by decide +kernel : (play Matched shutdownOfQueued
        (zeroed [[]] 0)).map (fun net => (net.socks 1).fins) = some 2)
    exact ⟨net, reachable_play (.start ⟨_, _, rfl⟩) played, fins⟩

end Net
end Derp
