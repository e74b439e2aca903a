import Derp.Net.Mail

/-!
# What becomes of a datagram

Every datagram that a call accepts is posted to one receiver or counted as
dropped, and the receiver reads what waits in the order of the posting, each
datagram once.  A full ring and an empty datagram are the exception: nothing
tells that such a datagram was refused.
-/

namespace Derp
namespace Net

variable
  {net later : Net}
  {sock target : SockId}

/-! ## Sending -/

/-- The receiver of a datagram, and the name it is sent under. -/
def addressee
    (net : Net)
    (sock : SockId)
    (dest : Option (Nat × Addr)) : Option (SockId × Addr) :=
  let s := net.socks sock
  (dest.or (net.defaultDest s)).bind fun (host, addr) =>
    (net.findReceiver s.family host addr (net.sourceName s addr)).map
      fun target => (target, net.sourceName s addr)

/-- Who receives is a matter of names. -/
theorem addressee_of_control
    (same : later.control = net.control)
    (sock : SockId)
    (dest : Option (Nat × Addr)) :
    later.addressee sock dest = net.addressee sock dest := by
  have views : ∀ net : Net,
      net.control.addressee sock dest = net.addressee sock dest :=
    fun _ => rfl
  rw [← views later, same, views]

/-- What becomes of a datagram whose destination is known. -/
inductive Outcome
    (net : Net)
    (sock : SockId)
    (destHost : Nat)
    (dest : Addr)
    (data : List UInt8) : Net × Except NetError Nat → Prop
  | posted {later : Net} {target : SockId} {g : Datagram} :
      net.findReceiver (net.socks sock).family destHost dest
        (net.sourceName (net.socks sock) dest) = some target →
      g.source = net.sourceName (net.socks sock) dest → g.data = data →
      Mailboxes.Step net.mail (.posted target g) later.mail →
      Outcome net sock destHost dest data (later, .ok data.length)
  | missed {later : Net} :
      (net.socks sock).family ≠ .unix →
      Mailboxes.Step net.mail .missed later.mail →
      Outcome net sock destHost dest data (later, .ok data.length)
  | refused {later : Net} {e : NetError} :
      later.mail = net.mail →
      Outcome net sock destHost dest data (later, .error e)
  /-- An empty datagram that finds no room. -/
  | vanished {later : Net} {target : SockId} :
      data = [] →
      net.findReceiver (net.socks sock).family destHost dest
        (net.sourceName (net.socks sock) dest) = some target →
      ¬net.Roomy (net.socks sock).host target
        (dgramHeaderLen +
          (net.sourceName (net.socks sock) dest).path.length) →
      later.mail = net.mail →
      Outcome net sock destHost dest data (later, .ok data.length)

/-- A delivery that finds room posts the datagram. -/
theorem posted_deliver
    (accounted : net.Accounted)
    (isDgram : (net.socks target).kind = .dgram)
    {srcHost : Nat}
    {g : Datagram}
    (roomy : net.Roomy srcHost target g.encode.length) :
    Mailboxes.Step net.mail (.posted target g)
      (net.deliver srcHost target (.datagram g.source g.data)).1.mail := by
  have joined := deliver_roomy (accounted.counted.rings target) isDgram roomy
  have put := mail_put joined
    (fun i different => net.queue_deliver srcHost _ different)
    (net.dropped_deliver srcHost target _)
  rw [put]
  exact .posted

/-- An empty datagram without room is answered as if it had been taken. -/
theorem sendTo_vanished
    {destHost : Nat}
    {dest : Addr}
    (found : net.findReceiver (net.socks sock).family destHost dest
      (net.sourceName (net.socks sock) dest) = some target)
    (full : ¬net.Roomy (net.socks sock).host target (dgramHeaderLen +
      (net.sourceName (net.socks sock) dest).path.length)) :
    (net.sendTo sock destHost dest []).2 = .ok 0 ∧
      (net.sendTo sock destHost dest []).1.mail = net.mail := by
  have refused := (net.deliver_roomy_cases (net.socks sock).host target
    ⟨net.sourceName (net.socks sock) dest, [], by decide⟩).2
      (by rw [Datagram.length_encode]; exact full)
  unfold sendTo
  dsimp only
  rw [found]
  dsimp only
  rw [if_neg (by simp)]
  exact ⟨rfl, mail_of_traffic refused.2 (net.dropped_deliver _ _ _)⟩

theorem outcome_sendTo
    (accounted : net.Accounted)
    (sock : SockId)
    (destHost : Nat)
    (dest : Addr)
    {data : List UInt8}
    (short : data.length < 2 ^ 32) :
    Outcome net sock destHost dest data
      (net.sendTo sock destHost dest data) := by
  obtain ⟨g, source, isData⟩ : ∃ g : Datagram,
      g.source = net.sourceName (net.socks sock) dest ∧ g.data = data :=
    ⟨⟨_, data, short⟩, rfl, rfl⟩
  -- What is lost is counted, unless the sender can be told.
  have lost : ∀ after : Net, after.mail = net.mail →
      Outcome net sock destHost dest data
        (if (net.socks sock).family = .unix then
          (after, .error .wouldBlock)
        else (after.countDropped.countDatagram, .ok data.length)) := by
    intro after same
    split
    · exact .refused same
    · next notUnix =>
        refine .missed notUnix ?_
        have counted : after.countDropped.countDatagram.mail =
            after.mail.lose := rfl
        rw [counted, same]
        exact .missed
  unfold sendTo
  dsimp only
  cases found : net.findReceiver (net.socks sock).family destHost dest
      (net.sourceName (net.socks sock) dest) with
  | none =>
      dsimp only
      split
      · exact .refused rfl
      · next notUnix =>
          have counted := lost net rfl
          rw [if_neg notUnix] at counted
          exact counted
  | some target =>
      dsimp only
      have isDgram := findReceiver_some found
      have cases := net.deliver_roomy_cases (net.socks sock).host target g
      have length := g.length_encode
      rw [source, isData] at cases length
      by_cases roomy : net.Roomy (net.socks sock).host target g.encode.length
      · have taken := (cases.1 roomy).1
        have posted := posted_deliver accounted isDgram roomy
        rw [source, isData] at posted
        rw [if_neg (by rw [taken, List.length_eq_zero_iff, isData]; tauto)]
        exact .posted found source isData posted
      · obtain ⟨none, same⟩ := cases.2 roomy
        have still : (net.deliver (net.socks sock).host target (.datagram
            (net.sourceName (net.socks sock) dest) data)).1.mail = net.mail :=
          mail_of_traffic same (net.dropped_deliver _ _ _)
        by_cases isEmpty : data = []
        · rw [if_neg (by tauto)]
          refine .vanished isEmpty found ?_ still
          rw [length, isEmpty] at roomy
          exact roomy
        · rw [if_pos ⟨none, isEmpty⟩]
          exact lost _ still

/-- Whether a call sends no empty datagram to a receiver without room. -/
def EmptyFits (net : Net) : Op → Prop
  | .sendDgram sock dest data =>
      let bound := (net.bindIfNew sock).1
      data = [] → (net.bindIfNew sock).2 = .ok () →
        ∀ named ∈ bound.addressee sock dest,
          bound.Roomy (bound.socks sock).host named.1
            (dgramHeaderLen + named.2.path.length)
  | _ => True

instance (net : Net) (op : Op) : Decidable (net.EmptyFits op) :=
  match op with
  | .sendDgram .. => by
      unfold EmptyFits
      infer_instance
  | .opened .. | .bind .. | .listen .. | .connect .. | .connectDgram ..
  | .accept .. | .send .. | .recv .. | .recvDgram .. | .shutdown ..
  | .duplicated .. | .closed .. | .adopted .. | .died .. | .advance .. =>
      .isTrue trivial

/-- A call that sends no empty datagram to a receiver without room. -/
def Fitting (net : Net) (op : Op) : Prop :=
  net.Admissible op ∧ net.EmptyFits op

instance (net : Net) (op : Op) : Decidable (net.Fitting op) := by
  unfold Fitting
  infer_instance

/-- What the letters that a call moves have to do with its answer. -/
inductive Carries (later : Net) :
    Event → List (Mailboxes.Move SockId Datagram) → Prop
  | posted {sock target : SockId} {dest : Option (Nat × Addr)}
      {g : Datagram} :
      later.addressee sock dest = some (target, g.source) →
      Carries later (.sendDgram sock dest g.data, .ok (.taken g.data.length))
        [.posted target g]
  | missed {sock : SockId} {dest : Option (Nat × Addr)} {data : List UInt8} :
      (later.socks sock).family ≠ .unix →
      Carries later (.sendDgram sock dest data, .ok (.taken data.length))
        [.missed]
  | refused {sock : SockId} {dest : Option (Nat × Addr)} {data : List UInt8}
      {e : NetError} :
      Carries later (.sendDgram sock dest data, .error e) []
  | received {sock : SockId} {room : Nat} {g : Datagram} :
      Carries later (.recvDgram sock room false,
        .ok (.datagram (g.data.take room) g.source)) [.taken sock g]
  | looked {sock : SockId} {room : Nat} {g : Datagram} {gs : List Datagram} :
      later.mail.box sock = g :: gs →
      Carries later (.recvDgram sock room true,
        .ok (.datagram (g.data.take room) g.source)) []
  | nothing {sock : SockId} {room : Nat} {peek : Bool} {e : NetError} :
      Carries later (.recvDgram sock room peek, .error e) []
  | landed {now : Nat} {answer : Except NetError Answer}
      {moves : List (Mailboxes.Move SockId Datagram)} :
      Drops moves → Carries later (.advance now, answer) moves
  | taken {event : Event} {sock : SockId} :
      handsOut event = some sock → Carries later event [.cleared sock]
  | others {op : Op} {answer : Except NetError Answer} :
      (∀ sock dest data, op ≠ .sendDgram sock dest data) →
      (∀ sock room peek, op ≠ .recvDgram sock room peek) →
      handsOut (op, answer) = none → Carries later (op, answer) []

/-- A datagram is posted or counted, or it was refused. -/
theorem sendDgram_mail
    (accounted : net.Accounted)
    (sock : SockId)
    (dest : Option (Nat × Addr))
    (data : List UInt8) :
    ∃ moves, Mailboxes.Steps net.mail moves
        (net.sendDgram sock dest data).1.mail ∧
      (Carries (net.sendDgram sock dest data).1 (.sendDgram sock dest data,
          (net.sendDgram sock dest data).2.map .taken) moves ∨
        moves = [] ∧ ¬net.EmptyFits (.sendDgram sock dest data)) := by
  have short : ¬maxDgram < data.length → data.length < 2 ^ 32 := by
    have : maxDgram < 2 ^ 32 := by decide
    omega
  have relabels := net.relabels_bindIfNew sock
  have fits : (net.EmptyFits (.sendDgram sock dest data)) =
      (data = [] → (net.bindIfNew sock).2 = .ok () →
        ∀ named ∈ (net.bindIfNew sock).1.addressee sock dest,
          (net.bindIfNew sock).1.Roomy
            ((net.bindIfNew sock).1.socks sock).host named.1
            (dgramHeaderLen + named.2.path.length)) := rfl
  rw [fits]
  unfold sendDgram
  split
  · exact ⟨[], .refl _, .inl .refused⟩
  next notLong =>
  cases bound : net.bindIfNew sock with
  | mk middle answer =>
      rw [bound] at relabels
      have before : middle.mail = net.mail := mail_relabels relabels
      have between := Accounted.relabels accounted relabels
      cases answer with
      | error e => exact ⟨[], by rw [← before]; exact .refl _, .inl .refused⟩
      | ok done =>
          dsimp only
          cases known : dest.or (middle.defaultDest (middle.socks sock)) with
          | none =>
              exact ⟨[], by rw [← before]; exact .refl _, .inl .refused⟩
          | some place =>
              obtain ⟨host, addr⟩ := place
              dsimp only
              have control := control_sendTo middle sock host addr data
              have outcome := outcome_sendTo between sock host addr
                (short notLong)
              have named : middle.addressee sock dest =
                  (middle.findReceiver (middle.socks sock).family host addr
                    (middle.sourceName (middle.socks sock) addr)).map
                      fun target => (target,
                        middle.sourceName (middle.socks sock) addr) := by
                unfold addressee
                dsimp only
                rw [known]
                rfl
              have after := addressee_of_control control sock dest
              generalize middle.sendTo sock host addr data = result at *
              rw [← before]
              cases outcome with
              | posted found source isData step =>
                  subst isData
                  refine ⟨_, step.steps, .inl (.posted ?_)⟩
                  rw [after, named, found, source]
                  rfl
              | missed notUnix step =>
                  refine ⟨_, step.steps, .inl (.missed ?_)⟩
                  have family := congrArg
                    (fun view : Net => (view.socks sock).family) control
                  change (_ : Family) = (middle.socks sock).family at family
                  exact fun isUnix => notUnix (family.symm.trans isUnix)
              | refused same =>
                  exact ⟨[], by rw [same]; exact .refl _, .inl .refused⟩
              | vanished isEmpty found full same =>
                  refine ⟨[], by rw [same]; exact .refl _, .inr ⟨rfl, ?_⟩⟩
                  intro roomy
                  refine full (roomy isEmpty rfl (_, _) ?_)
                  rw [named, found]
                  rfl

theorem recvDgram_mail
    (accounted : net.Accounted)
    (isDgram : (net.socks sock).kind = .dgram)
    (room : Nat)
    (peek : Bool) :
    ∃ moves, Mailboxes.Steps net.mail moves
        (net.recvDgram sock room peek).1.mail ∧
      Carries (net.recvDgram sock room peek).1 (.recvDgram sock room peek,
        (net.recvDgram sock room peek).2.map
          fun answer => .datagram answer.1 answer.2) moves := by
  have ok : (net.socks sock).traffic.Ok := accounted.counted.rings sock
  obtain ⟨contents, -⟩ := ok.spelled isDgram
  change (net.socks sock).rx.contents = _ at contents
  by_cases isEmpty : (net.socks sock).rx.len = 0
  · have nothing : net.recvDgram sock room peek = (net, .error .wouldBlock) := by
      unfold recvDgram
      rw [if_pos isEmpty]
    rw [nothing]
    exact ⟨[], .refl _, .nothing⟩
  cases arrived : (net.socks sock).traffic.arrived with
  | nil =>
      rw [arrived] at contents
      exact absurd ((RingBuffer.contents_eq_nil_iff _).mp contents) isEmpty
  | cons g gs =>
      rw [arrived] at contents
      rw [recvDgram_head contents room peek]
      have before : net.mail.box sock =
          g :: (gs ++ (net.socks sock).traffic.travelling) := by
        refine (Traffic.queue_of_dgram isDgram).trans ?_
        rw [arrived]
        rfl
      cases peek with
      | true =>
          have same : (net.recvDgram sock room true).1 = net := by
            unfold recvDgram
            rw [if_neg isEmpty]
            dsimp only
            split <;> rfl
          rw [same]
          exact ⟨[], .refl _, .looked before⟩
      | false =>
          obtain ⟨whole, taken⟩ := recvDgram_net contents room
          have skipped := RingBuffer.contents_skip (net.socks sock).rx whole
          rw [contents, encodeDatagrams_cons,
            List.drop_left' (by simp)] at skipped
          have traffic : ((net.recvDgram sock room false).1.socks sock).traffic =
              ((net.socks sock).skipRx (dgramHeaderLen +
                g.source.path.length + g.data.length)).traffic := by
            rw [taken, ringSkip, modifySock_socks_self]
            rfl
          have left : ((net.recvDgram sock room false).1.socks
              sock).traffic.queue = gs ++ (net.socks sock).traffic.travelling := by
            rw [traffic]
            refine (Traffic.queue_of_dgram isDgram).trans ?_
            rw [Traffic.arrived_eq skipped]
            rfl
          have put := mail_put left (fun i different => congrArg
            (fun d : Sock => d.traffic.queue)
            (net.recvDgram_others different room false)) (by rw [taken]; rfl)
          rw [put]
          exact ⟨[.taken sock g], (Mailboxes.Step.taken before).steps,
            .received⟩

/-- A slot that is taken anew is an empty box. -/
theorem mail_taken
    (accounted : net.Accounted)
    (sock : SockId)
    (host : Nat)
    (family : Family)
    (kind : Kind) :
    (((net.setIdent sock 0).discardFlight sock).modifySock sock
        (.fresh host family kind)).mail = net.mail.put sock [] := by
  obtain ⟨-, empty, others⟩ := Accounted.taken accounted sock host family kind
  refine mail_put empty.queue
    (fun i different => congrArg Traffic.queue (others i different)) ?_
  exact dropped_discardFlight (net.setIdent sock 0) sock

theorem opened_mail
    (accounted : net.Accounted)
    {pid host ident : Nat}
    {family : Family}
    {kind : Kind}
    {answer : Except NetError Answer}
    (done : Net.handOut pid ident (net.socket host family kind) =
      some (later, answer)) :
    ∃ moves, Mailboxes.Steps net.mail moves later.mail ∧
      Carries later (.opened pid host family kind ident, answer) moves := by
  rcases opened_cases done with ⟨rfl, e, rfl⟩ | ⟨sock, -, rfl, added⟩
  · exact ⟨[], .refl _, .others (by simp) (by simp) rfl⟩
  · have same := mail_addRef added
    change later.mail = (((net.setIdent sock 0).discardFlight sock).modifySock
      sock (.fresh host family kind)).mail at same
    rw [mail_taken accounted] at same
    rw [same]
    exact ⟨[.cleared sock], Mailboxes.Step.cleared.steps, .taken rfl⟩

theorem connect_mail
    (accounted : net.Accounted)
    (wired : net.Wired)
    (sock : SockId)
    (destHost : Nat)
    (dest : Addr) :
    ∃ moves, Mailboxes.Steps net.mail moves
        (net.connect sock destHost dest).1.mail ∧
      Carries (net.connect sock destHost dest).1
        (.connect sock destHost dest,
          (net.connect sock destHost dest).2.map .sock) moves := by
  rcases wired.connect_cases sock destHost dest with
      ⟨relabels, e, failed⟩ |
      ⟨middle, far, listener, farLocal, nearLocal, relabels, -, -, -, made⟩
  · rw [failed, mail_relabels relabels]
    exact ⟨[], .refl _, .others (by simp) (by simp) rfl⟩
  · have between := Accounted.relabels accounted relabels
    have taken := mail_taken between far destHost (middle.socks sock).family
      (middle.socks sock).kind
    have joined : ((middle.farTaken sock far destHost).joined sock far listener
        farLocal nearLocal).mail = (middle.farTaken sock far destHost).mail :=
      mail_of_traffic (traffic_of_accounts (accounts_joined _ _ _ _ _ _)) rfl
    rw [made]
    dsimp only
    rw [joined]
    change ∃ moves, Mailboxes.Steps net.mail moves
      (((middle.setIdent far 0).discardFlight far).modifySock far (.fresh
        destHost (middle.socks sock).family (middle.socks sock).kind)).mail ∧ _
    rw [taken, mail_relabels relabels]
    exact ⟨[.cleared far], Mailboxes.Step.cleared.steps, .taken rfl⟩

theorem accepted_mail
    (wired : net.Wired)
    {pid ident : Nat}
    {listener : SockId}
    {answer : Except NetError Answer}
    (done : Net.handOut pid ident (net.accept listener) =
      some (later, answer)) : later.mail = net.mail := by
  rcases wired.accepted_cases done with ⟨rfl, -⟩ |
      ⟨far, rest, -, -, -, -, added⟩
  · rfl
  · have same := mail_addRef added
    change later.mail = (net.modifySock listener (.setBacklog rest)).mail
      at same
    rw [same]
    exact mail_modifySock net listener (.setBacklog rest) fun _ => rfl

/-- Every call moves the letters that its answer tells of, but for an empty
datagram that finds no room. -/
theorem exec_mail
    (accounted : net.Accounted)
    (wired : net.Wired)
    {op : Op}
    (admissible : net.Admissible op)
    {answer : Except NetError Answer}
    (done : net.exec op = some (later, answer)) :
    ∃ moves, Mailboxes.Steps net.mail moves later.mail ∧
      (Carries later (op, answer) moves ∨ moves = [] ∧ ¬net.EmptyFits op) := by
  -- Most calls move no letter.
  have quietly : later.mail = net.mail →
      (∀ sock dest data, op ≠ .sendDgram sock dest data) →
      (∀ sock room peek, op ≠ .recvDgram sock room peek) →
      handsOut (op, answer) = none →
      ∃ moves, Mailboxes.Steps net.mail moves later.mail ∧
        (Carries later (op, answer) moves ∨
          moves = [] ∧ ¬net.EmptyFits op) := by
    intro same notSend notReceive kept
    rw [same]
    exact ⟨[], .refl _, .inl (.others notSend notReceive kept)⟩
  cases op with
  | opened pid host family kind ident =>
      obtain ⟨moves, steps, carries⟩ := opened_mail accounted done
      exact ⟨moves, steps, .inl carries⟩
  | bind sock addr =>
      cases done
      exact quietly (mail_relabels (net.relabels_bind sock addr).1)
        (by simp) (by simp) rfl
  | listen sock backlog =>
      cases done
      exact quietly (mail_relabels (net.relabels_listen sock backlog))
        (by simp) (by simp) rfl
  | connect sock destHost dest =>
      cases done
      obtain ⟨moves, steps, carries⟩ :=
        connect_mail accounted wired sock destHost dest
      exact ⟨moves, steps, .inl carries⟩
  | connectDgram sock dest =>
      cases done
      exact quietly (mail_relabels (net.relabels_connectDgram sock dest))
        (by simp) (by simp) rfl
  | accept pid listener ident =>
      exact quietly (accepted_mail wired done) (by simp) (by simp) rfl
  | send sock data =>
      cases done
      exact quietly (mail_send wired sock data) (by simp) (by simp) rfl
  | recv sock room peek =>
      cases done
      exact quietly (mail_recv wired sock room peek) (by simp) (by simp) rfl
  | sendDgram sock dest data =>
      cases done
      exact sendDgram_mail accounted sock dest data
  | recvDgram sock room peek =>
      cases done
      obtain ⟨moves, steps, carries⟩ :=
        recvDgram_mail accounted admissible room peek
      exact ⟨moves, steps, .inl carries⟩
  | shutdown sock read write =>
      cases done
      exact quietly (mail_shutdown wired sock read write) (by simp) (by simp)
        (by cases read <;> rfl)
  | duplicated pid sock =>
      simp only [Net.exec, Option.map_eq_some_iff] at done
      obtain ⟨net', added, made⟩ := done
      cases made
      exact quietly (mail_addRef added) (by simp) (by simp) rfl
  | closed pid sock =>
      simp only [Net.exec, Option.some.injEq, Prod.mk.injEq] at done
      obtain ⟨rfl, rfl⟩ := done
      exact quietly (mail_dropRef wired admissible) (by simp) (by simp) rfl
  | adopted pid idents =>
      simp only [Net.exec, Option.map_eq_some_iff] at done
      obtain ⟨net', adopted, made⟩ := done
      cases made
      have steps := refSteps_adoptInherited wired adopted
      exact quietly (mail_refSteps wired steps) (by simp) (by simp) rfl
  | died pid =>
      simp only [Net.exec, Option.some.injEq, Prod.mk.injEq] at done
      obtain ⟨rfl, rfl⟩ := done
      have steps := (refSteps_processDied wired pid).1
      exact quietly (mail_refSteps wired steps) (by simp) (by simp) rfl
  | advance now =>
      simp only [Net.exec, Option.some.injEq, Prod.mk.injEq] at done
      obtain ⟨rfl, rfl⟩ := done
      obtain ⟨moves, drops, steps⟩ := lands_advance accounted.counted now
      exact ⟨moves, steps, .inl (.landed drops)⟩

/-! ## Runs -/

/-- The network with the record of its letters: the numbered boxes follow the
calls, and without the numbers they are the queues and the count of dropped
datagrams. -/
def recording :
    Transition (Net × Mailboxes.Record SockId Datagram) Event where
  init := fun state => system.init state.1 ∧ state.2 = {}
  step := fun state event later =>
    system.step state.1 event later.1 ∧
      ∃ moves, Carries later.1 event moves ∧ state.2.Steps moves later.2 ∧
        later.2.plain = later.1.mail

theorem mail_zeroed (names : List (List UInt8)) (latencyNs : Nat) :
    (zeroed names latencyNs).mail =
      ({} : Mailboxes.Record SockId Datagram).plain := by
  obtain ⟨hosts, same⟩ := zeroed_net names latencyNs
  have empty : ∀ i, ((zeroed names latencyNs).socks i).traffic.Empty := by
    intro i
    rw [same]
    exact ⟨rfl, rfl, rfl, rfl, rfl⟩
  unfold mail Mailboxes.Record.plain
  rw [funext fun i => (empty i).queue, same]
  rfl

/-- A call is recorded, unless it sends an empty datagram to a receiver
without room. -/
theorem recorded_step
    (accounted : net.Accounted)
    (wired : net.Wired)
    {event : Event}
    (step : system.step net event later)
    (fits : net.EmptyFits event.1)
    {record : Mailboxes.Record SockId Datagram}
    (same : record.plain = net.mail) :
    ∃ after, recording.step (net, record) event (later, after) ∧
      after.plain = later.mail := by
  obtain ⟨moves, steps, carries | ⟨-, full⟩⟩ :=
    exec_mail accounted wired step.1 step.2
  · rw [← same] at steps
    obtain ⟨after, recorded, plain⟩ := Mailboxes.Record.exists_steps steps
    exact ⟨after, ⟨step, moves, carries, recorded, plain⟩, plain⟩
  · exact absurd fits full

theorem reachable_of_fitting
    (reachable : (calls Fitting).Reachable net) : system.Reachable net := by
  induction reachable with
  | start isInit => exact .start isInit
  | next _ step inductionHypothesis =>
      exact .next inductionHypothesis ⟨step.1.1, step.2⟩

/-- In every run in which empty datagrams find room, every datagram that a call
accepts is posted to one receiver or counted as dropped, once, and the
receivers read what was posted in its order. -/
theorem recorded_of_emptyFits
    {start : Net}
    {labels : List Event}
    (isStart : system.init start)
    (run : (calls Fitting).Run start labels net) :
    ∃ record : Mailboxes.Record SockId Datagram,
      recording.Run (start, {}) labels (net, record) ∧
        record.plain = net.mail ∧ record.InOrder := by
  induction run with
  | refl =>
      obtain ⟨names, latencyNs, rfl⟩ := isStart
      exact ⟨{}, .refl _, (mail_zeroed names latencyNs).symm,
        Mailboxes.Record.inOrder_empty⟩
  | @tail net later labels event before step inductionHypothesis =>
      obtain ⟨record, recorded, same, inOrder⟩ := inductionHypothesis
      have reachable := reachable_of_fitting (before.reachable (.start isStart))
      obtain ⟨⟨admissible, fits⟩, done⟩ := step
      obtain ⟨after, last, plain⟩ := recorded_step
        (reachable_accounted reachable) (reachable_wired reachable)
        ⟨admissible, done⟩ fits same
      have moved := last
      obtain ⟨-, moves, -, steps, -⟩ := moved
      exact ⟨after, recorded.tail last, plain, inOrder.steps steps⟩

/-- Two datagrams to a socket on the same host, one of which is read. -/
def oneRead : List Op :=
  [.opened 1 0 .inet .dgram 11, .bind 0 (Addr.inet 0 5000),
    .opened 1 0 .inet .dgram 12,
    .sendDgram 1 (some (0, Addr.inet loopback 5000)) [],
    .sendDgram 1 (some (0, Addr.inet loopback 5000)) [7, 8, 9],
    .recvDgram 0 2 false]

theorem recorded_of_emptyFits_oneRead :
    ∃ start net labels, labels.map Prod.fst = oneRead ∧
      ∃ record : Mailboxes.Record SockId Datagram,
        recording.Run (start, {}) labels (net, record) ∧
          record.plain = net.mail ∧ record.InOrder := by
  obtain ⟨net, played, -⟩ := Option.map_eq_some_iff.mp
    (by decide +kernel : (play Fitting oneRead (zeroed [[97]] 0)).map
      (fun net => decide ((net.socks 0).rx.len = 15)) = some true)
  obtain ⟨labels, same, run⟩ := run_play played
  have isStart : system.init (zeroed [[97]] 0) := ⟨_, _, rfl⟩
  exact ⟨_, net, labels, same, @recorded_of_emptyFits net _ labels isStart run⟩

/-- A record is about the network it goes with. -/
theorem plain_of_recording
    {start : Net}
    {labels : List Event}
    {record : Mailboxes.Record SockId Datagram}
    (isStart : system.init start)
    (run : recording.Run (start, {}) labels (net, record)) :
    system.Run start labels net ∧ record.plain = net.mail := by
  generalize begun : (start, ({} : Mailboxes.Record SockId Datagram)) = first
    at run
  generalize reached : (net, record) = last at run
  induction run generalizing net record with
  | refl =>
      obtain ⟨rfl, rfl⟩ := Prod.mk.inj (begun.trans reached.symm)
      obtain ⟨names, latencyNs, rfl⟩ := isStart
      exact ⟨.refl _, (mail_zeroed names latencyNs).symm⟩
  | @tail state later labels event _ step inductionHypothesis =>
      subst reached
      obtain ⟨before, -⟩ := inductionHypothesis rfl
      obtain ⟨next, -, -, -, plain⟩ := step
      exact ⟨before.tail next, plain⟩

/-- The same calls with the same answers lead to one network. -/
theorem run_unique
    {start other : Net}
    {labels : List Event}
    (run : system.Run start labels net)
    (again : system.Run start labels other) : other = net := by
  have all : List.Forall₂ Eq labels labels := List.forall₂_refl labels
  refine (run.lockstep (· = ·) (fun _ _ => True) ?_ again rfl all).1.symm
  rintro state _ next next' label _ rfl rfl first second
  have same := first.2.symm.trans second.2
  exact ⟨(Prod.mk.inj (Option.some.inj same)).1, trivial⟩

/-- What the condition leaves out is what goes wrong. -/
theorem vanished_of_not_emptyFits
    {dest : Option (Nat × Addr)}
    {data : List UInt8}
    (full : ¬net.EmptyFits (.sendDgram sock dest data)) :
    data = [] ∧ (net.sendDgram sock dest data).2 = .ok 0 ∧
      (net.sendDgram sock dest data).1.mail = net.mail := by
  have relabels := net.relabels_bindIfNew sock
  unfold EmptyFits at full
  simp only [Classical.not_imp, not_forall] at full
  obtain ⟨rfl, isBound, ⟨target, source⟩, named, noRoom⟩ := full
  unfold addressee at named
  simp only [Option.mem_def, Option.bind_eq_some_iff, Option.map_eq_some_iff,
    Prod.mk.injEq] at named
  obtain ⟨⟨host, addr⟩, known, _, found, rfl, rfl⟩ := named
  unfold sendDgram
  rw [if_neg (by simp)]
  cases bound : net.bindIfNew sock with
  | mk middle answer =>
      rw [bound] at relabels isBound known found noRoom
      dsimp only at isBound known found noRoom relabels
      subst isBound
      dsimp only
      rw [known]
      obtain ⟨answered, same⟩ := sendTo_vanished found noRoom
      exact ⟨rfl, answered, same.trans (mail_relabels relabels)⟩

/-- No record goes with an empty datagram that finds no room. -/
theorem not_recorded
    {sock : SockId}
    {dest : Option (Nat × Addr)}
    {record after : Mailboxes.Record SockId Datagram}
    (same : later.mail = net.mail)
    (plain : record.plain = net.mail)
    (step : recording.step (net, record)
      (.sendDgram sock dest [], .ok (.taken 0)) (later, after)) : False := by
  obtain ⟨-, moves, carries, steps, plain'⟩ := step
  have unmoved : after.plain = record.plain := by
    rw [plain', same, plain]
  generalize isEvent : (((.sendDgram sock dest [], .ok (.taken 0)) : Event)) =
    event at carries
  cases carries with
  | @posted _ target _ g _ =>
      cases steps with | cons first rest =>
      cases rest
      cases first
      have lengths := congrArg
        (fun m : Mailboxes SockId Datagram => (m.box target).length) unmoved
      change ((record.put target (record.box target ++
        [(record.posted, g)])).plain.box target).length = _ at lengths
      rw [Mailboxes.Record.plain_put] at lengths
      simp [Mailboxes.put, Mailboxes.Record.plain] at lengths
  | missed =>
      cases steps with | cons first rest =>
      cases rest
      cases first
      have lost := congrArg Mailboxes.lost unmoved
      simp [Mailboxes.Record.plain, Mailboxes.Record.lose] at lost
  | refused => cases isEvent
  | received => cases isEvent
  | looked => cases isEvent
  | nothing => cases isEvent
  | landed => cases isEvent
  | taken given =>
      subst isEvent
      cases given
  | others notSend =>
      cases isEvent
      exact notSend _ _ _ rfl

/-- Two datagram sockets on one host, the first one's ring filled to the last
byte. -/
def ringFilled : List Op :=
  [.opened 1 0 .inet .dgram 11, .bind 0 (Addr.inet 0 5000),
    .opened 1 0 .inet .dgram 12, .bind 1 (Addr.inet 0 5001)] ++
  List.replicate 8 (.sendDgram 1 (some (0, Addr.inet loopback 5000))
    (List.replicate 8000 0)) ++
  [.sendDgram 1 (some (0, Addr.inet loopback 5000)) (List.replicate 1428 0)]

set_option maxRecDepth 20000 in
/-- An empty datagram is answered as sent, and is neither in a ring nor among
the dropped. -/
theorem not_recorded_of_ringFilled :
    ¬∀ (start net : Net) (labels : List Event), system.init start →
      system.Run start labels net →
      ∃ record : Mailboxes.Record SockId Datagram,
        recording.Run (start, {}) labels (net, record) ∧
          record.plain = net.mail ∧ record.InOrder := by
  intro claim
  obtain ⟨full, played, facts⟩ := Option.map_eq_some_iff.mp
    (by decide +kernel : (play Admissible ringFilled (zeroed [[97]] 0)).map
      (fun net => decide (¬net.EmptyFits (.sendDgram 1
        (some (0, Addr.inet loopback 5000)) []))) = some true)
  obtain ⟨labels, -, run⟩ := run_play played
  obtain ⟨-, answered, same⟩ :=
    vanished_of_not_emptyFits (of_decide_eq_true facts)
  have step : system.step full (.sendDgram 1
      (some (0, Addr.inet loopback 5000)) [], .ok (.taken 0))
      (full.sendDgram 1 (some (0, Addr.inet loopback 5000)) []).1 := by
    refine ⟨trivial, ?_⟩
    change some (answering _ _) = _
    unfold answering
    rw [answered]
    rfl
  have isStart : system.init (zeroed [[97]] 0) := ⟨_, _, rfl⟩
  obtain ⟨after, recorded, -⟩ := claim _ _ _ isStart (run.tail step)
  obtain ⟨⟨before, record⟩, early, last⟩ := recorded.unsnoc
  obtain ⟨earlier, plain⟩ := plain_of_recording isStart early
  obtain rfl := run_unique run earlier
  exact not_recorded same plain last

end Net
end Derp
