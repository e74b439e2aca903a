import Derp.Net.Calls

/-!
# Every call keeps the references in order
-/

namespace Derp
namespace Net

variable
  {net later : Net}
  {pending : Finset SockId}
  {queues : SockId → List SockId}
  {sock listener far : SockId}
  {pid : Nat}

theorem Wired.relabels
    (wired : net.Wired)
    (relabels : Relabels sock net later) : later.Wired := by
  induction relabels with
  | refl => exact wired
  | @hosts later hosts _ inductionHypothesis =>
      exact ⟨inductionHypothesis.counts, inductionHypothesis.entries,
        inductionHypothesis.paired, inductionHypothesis.single,
        inductionHypothesis.queued, inductionHypothesis.queueNodup,
        inductionHypothesis.queueUnique, inductionHypothesis.idle,
        inductionHypothesis.unreferenced, inductionHypothesis.gone,
        inductionHypothesis.pendingRefs, inductionHypothesis.named,
        inductionHypothesis.streams⟩
  | named addr _ state inductionHypothesis =>
      unfold Wired
      rw [backlogs_modifySock_same rfl]
      exact Linked.relabel inductionHypothesis rfl rfl rfl (.inl rfl)
        (.inl rfl)
  | bound addr _ state inductionHypothesis =>
      unfold Wired
      rw [backlogs_modifySock_same rfl]
      exact Linked.relabel inductionHypothesis rfl rfl rfl (.inl rfl)
        (.inr ⟨.inl state, .inl rfl⟩)
  | listening backlogMax _ state kind inductionHypothesis =>
      unfold Wired
      rw [backlogs_modifySock_same rfl]
      refine Linked.relabel inductionHypothesis rfl rfl rfl (.inl rfl) ?_
      rcases state with isBound | isListening
      · exact .inr ⟨.inr isBound, .inr ⟨rfl, kind⟩⟩
      · exact .inl isListening.symm
  | peer dest _ inductionHypothesis =>
      unfold Wired
      rw [backlogs_modifySock_same rfl]
      exact Linked.relabel inductionHypothesis rfl rfl rfl (.inl rfl)
        (.inl rfl)

/-- A pending socket may be named. -/
theorem Linked.setIdent
    (linked : net.Linked pending queues)
    (isPending : sock ∈ pending)
    (ident : Nat) : (net.setIdent sock ident).Linked pending queues := by
  refine ⟨linked.counts, linked.entries, linked.paired, linked.single,
    linked.queued, linked.queueNodup, linked.queueUnique, linked.idle,
    linked.unreferenced, linked.gone, linked.pendingRefs, ?_, linked.streams⟩
  intro i named
  by_cases same : i = sock
  · subst same
    exact .inr isPending
  · apply linked.named i
    have unchanged : (net.setIdent sock ident).idents i = net.idents i :=
      Function.update_of_ne same _ _
    rwa [unchanged] at named

/-- A new slot is pending until its descriptor is counted. -/
theorem Wired.taken
    (wired : net.Wired)
    (isFree : (net.socks sock).state = .free)
    (host : Nat)
    (family : Family)
    (kind : Kind)
    {taken : Net}
    (isTaken : taken = ((net.setIdent sock 0).discardFlight sock).modifySock
      sock (.fresh host family kind)) :
    taken.Linked {sock} taken.backlogs := by
  have same := net.control_taken sock host family kind
  rw [← isTaken] at same
  rw [backlogs_of_control same, backlogs_modifySock]
  apply Linked.of_control _ same
  exact Linked.take wired isFree host family kind

/-- What is pending gets a descriptor and is in order again. -/
theorem Linked.handOut
    (linked : net.Linked {sock} net.backlogs)
    {ident : Nat}
    (added : (net.setIdent sock ident).addRef pid sock = some later) :
    later.Wired := by
  have isPending : sock ∈ ({sock} : Finset SockId) :=
    Finset.mem_singleton_self sock
  have named := linked.setIdent isPending ident
  have wired := Linked.addRef named (.inl isPending) added
  rwa [Finset.erase_singleton] at wired

/-- A socket call that makes a descriptor takes a slot first, or fails. -/
theorem opened_cases
    {host ident : Nat}
    {family : Family}
    {kind : Kind}
    {answer : Except NetError Answer}
    (done : Net.handOut pid ident (net.socket host family kind) =
      some (later, answer)) :
    later = net ∧ (∃ e, answer = .error e) ∨
      ∃ sock, (net.socks sock).state = .free ∧ answer = .ok (.sock sock) ∧
        ((((net.setIdent sock 0).discardFlight sock).modifySock sock
          (.fresh host family kind)).setIdent sock ident).addRef pid sock =
            some later := by
  rcases net.socket_net host family kind with refused | ⟨i, isFree, made⟩
  · rw [refused] at done
    cases done
    exact .inl ⟨rfl, _, rfl⟩
  · rw [made] at done
    simp only [Net.handOut, Option.map_eq_some_iff, Prod.mk.injEq] at done
    obtain ⟨last, added, rfl, rfl⟩ := done
    exact .inr ⟨i, isFree, rfl, added⟩

theorem Wired.opened
    (wired : net.Wired)
    {host ident : Nat}
    {family : Family}
    {kind : Kind}
    {answer : Except NetError Answer}
    (done : Net.handOut pid ident (net.socket host family kind) =
      some (later, answer)) : later.Wired := by
  rcases opened_cases done with ⟨rfl, -⟩ | ⟨sock, isFree, -, added⟩
  · exact wired
  · exact (wired.taken isFree host family kind rfl).handOut added

/-- An accepted connection leaves its queue and gets a descriptor. -/
theorem Wired.accepted_cases
    (wired : net.Wired)
    {ident : Nat}
    {answer : Except NetError Answer}
    (done : Net.handOut pid ident (net.accept listener) =
      some (later, answer)) :
    later = net ∧ (∃ e, answer = .error e) ∨
      ∃ far rest, (net.socks listener).state = .listening ∧
        (net.socks listener).backlog = far :: rest ∧
        answer = .ok (.sock far) ∧
        (net.modifySock listener (.setBacklog rest)).Linked {far}
          (net.modifySock listener (.setBacklog rest)).backlogs ∧
        ((net.modifySock listener (.setBacklog rest)).setIdent far
          ident).addRef pid far = some later := by
  rcases net.accept_net listener with ⟨e, refused⟩ |
      ⟨far, rest, listening, queue, made⟩
  · rw [refused] at done
    cases done
    exact .inl ⟨rfl, _, rfl⟩
  · rw [made] at done
    simp only [Net.handOut, Option.map_eq_some_iff, Prod.mk.injEq] at done
    obtain ⟨last, added, rfl, rfl⟩ := done
    have taken := Linked.dequeue wired listening queue
    have moved : (net.modifySock listener (.setBacklog rest)).backlogs =
        Function.update net.backlogs listener rest :=
      net.backlogs_modifySock listener (.setBacklog rest)
    refine .inr ⟨far, rest, listening, queue, rfl, ?_, added⟩
    rw [moved]
    exact taken.relabel rfl rfl rfl (.inl rfl) (.inl rfl)

theorem Wired.accepted
    (wired : net.Wired)
    {ident : Nat}
    {answer : Except NetError Answer}
    (done : Net.handOut pid ident (net.accept listener) =
      some (later, answer)) : later.Wired := by
  rcases wired.accepted_cases done with ⟨rfl, -⟩ |
      ⟨far, rest, -, -, -, linked, added⟩
  · exact wired
  · exact linked.handOut added

/-- A new slot and a socket that are about to become the two ends of a
connection. -/
structure Joinable (net : Net) (sock far listener : SockId) : Prop where
  linked : net.Linked {far} net.backlogs
  isNew : (net.socks far).state = .new
  open' : (net.socks far).shutWr = false
  unnamed : net.idents far = 0
  farKind : (net.socks far).kind = .stream
  unlinked : (net.socks sock).state = .new ∨ (net.socks sock).state = .bound
  different : far ≠ sock
  kind : (net.socks sock).kind = .stream
  listening : (net.socks listener).state = .listening

/-- A joined pair whose far end is queued is in order. -/
theorem Joinable.joined
    (joinable : net.Joinable sock far listener)
    (farLocal nearLocal : Addr) :
    (net.joined sock far listener farLocal nearLocal).Wired := by
  have farNotListener : far ≠ listener := by
    rintro rfl
    have isNew := joinable.isNew
    rw [joinable.listening] at isNew
    cases isNew
  have sockNotListener : sock ≠ listener := by
    rintro rfl
    have unlinked := joinable.unlinked
    rw [joinable.listening] at unlinked
    rcases unlinked with h | h <;> cases h
  have pair := joinable.linked.join joinable.isNew
    joinable.unlinked joinable.different joinable.farKind joinable.kind
    farLocal nearLocal
  have isFar : ((net.modifySock far
      (.linkFar farLocal nearLocal sock)).modifySock sock
        (.linkNear farLocal far)).socks far =
      (net.socks far).linkFar farLocal nearLocal sock := by
    rw [modifySock_socks_of_ne _ _ joinable.different, modifySock_socks_self]
  have isListener : ((net.modifySock far
      (.linkFar farLocal nearLocal sock)).modifySock sock
        (.linkNear farLocal far)).socks listener = net.socks listener := by
    rw [modifySock_socks_of_ne _ _ sockNotListener.symm,
      modifySock_socks_of_ne _ _ farNotListener.symm]
  have kept : ((net.modifySock far
      (.linkFar farLocal nearLocal sock)).modifySock sock
        (.linkNear farLocal far)).backlogs = net.backlogs := by
    rw [backlogs_modifySock_same rfl, backlogs_modifySock_same rfl]
  rw [← kept] at pair
  have queued := pair.enqueue (Finset.mem_singleton_self far)
    joinable.unnamed (by rw [isFar]; rfl)
    (by rw [isFar]; exact joinable.open')
    (by rw [isListener]; exact joinable.listening)
  rw [Finset.erase_singleton] at queued
  have relabelled := @Linked.relabel _ _ _ listener queued (.enqueue far)
    rfl rfl rfl (.inl rfl) (.inl rfl)
  have moved : (net.joined sock far listener farLocal nearLocal).backlogs =
      Function.update ((net.modifySock far
        (.linkFar farLocal nearLocal sock)).modifySock sock
          (.linkNear farLocal far)).backlogs listener
        (((net.modifySock far
          (.linkFar farLocal nearLocal sock)).modifySock sock
            (.linkNear farLocal far)).backlogs listener ++ [far]) :=
    backlogs_modifySock _ listener (.enqueue far)
  unfold Wired
  rw [moved]
  exact Linked.of_control relabelled rfl

/-- A slot taken for the far end of a connection. -/
def farTaken (net : Net) (sock far : SockId) (destHost : Nat) : Net :=
  ((net.setIdent far 0).discardFlight far).modifySock far
    (.fresh destHost (net.socks sock).family (net.socks sock).kind)

theorem farTaken_control
    {i : SockId}
    (different : i ≠ far)
    (sock : SockId)
    (destHost : Nat) :
    ((net.farTaken sock far destHost).socks i).control =
      (net.socks i).control := by
  unfold farTaken
  rw [modifySock_socks_of_ne _ _ different]
  have view := congrArg (fun view : Net => view.socks i)
    (control_discardFlight (net.setIdent far 0) far)
  exact view

/-- A connect only relabels its socket, or it joins it to a new slot. -/
theorem Wired.connect_cases
    (wired : net.Wired)
    (sock : SockId)
    (destHost : Nat)
    (dest : Addr) :
    Relabels sock net (net.connect sock destHost dest).1 ∧
        (∃ e, (net.connect sock destHost dest).2 = .error e) ∨
      ∃ middle far listener farLocal nearLocal, Relabels sock net middle ∧
        (middle.socks far).state = .free ∧
        (middle.farTaken sock far destHost).Joinable sock far listener ∧
        net.findListener (net.socks sock).kind (net.socks sock).family destHost
          dest = some listener ∧
        net.connect sock destHost dest =
          ((middle.farTaken sock far destHost).joined sock far listener
            farLocal nearLocal, .ok far) := by
  rcases net.connect_net sock destHost dest with ⟨e, relabels, failed⟩ |
      ⟨listener, middle, relabels, found, -, unlinked, others, linked⟩
  · exact .inl ⟨relabels, e, failed⟩
  have middleWired := wired.relabels relabels
  obtain ⟨isListening, listenerKind⟩ := findListener_some found
  have apart : listener ≠ sock := by
    rintro rfl
    have := relabels.staysListening isListening
    rcases unlinked with h | h <;> rw [this] at h <;> cases h
  have stillListening : (middle.socks listener).state = .listening := by
    rw [others listener apart]
    exact isListening
  have kind : (middle.socks sock).kind = .stream := by
    rw [relabels.kind sock, ← listenerKind]
    exact Linked.streams wired listener (.inl isListening)
  rw [linked]
  rcases middle.link_net sock listener destHost dest with refused |
      ⟨far, farLocal, nearLocal, isFree, made⟩
  · rw [refused]
    exact .inl ⟨relabels, _, rfl⟩
  have apartFar : far ≠ sock := by
    rintro rfl
    rcases unlinked with h | h <;> rw [isFree] at h <;> cases h
  have apartListener : listener ≠ far := by
    rintro rfl
    rw [isFree] at stillListening
    cases stillListening
  have isFar : (middle.farTaken sock far destHost).socks far =
      Sock.fresh destHost (middle.socks sock).family (middle.socks sock).kind
        (((middle.setIdent far 0).discardFlight far).socks far) :=
    modifySock_socks_self _ far _
  have ofSock := @farTaken_control middle far sock apartFar.symm sock destHost
  have ofListener :=
    @farTaken_control middle far listener apartListener sock destHost
  have sockState := congrArg Sock.state ofSock
  have sockKind := congrArg Sock.kind ofSock
  have listenerState := congrArg Sock.state ofListener
  refine .inr ⟨middle, far, listener, farLocal, nearLocal, relabels, isFree,
    ?_, found, made⟩
  constructor
  case linked => exact middleWired.taken isFree _ _ _ rfl
  case isNew => rw [isFar]; rfl
  case open' => rw [isFar]; rfl
  case unnamed =>
    have view := congrArg (fun view : Net => view.idents far)
      (control_discardFlight (middle.setIdent far 0) far)
    refine Eq.trans view ?_
    exact Function.update_self far 0 middle.idents
  case farKind => rw [isFar]; exact kind
  case unlinked => exact sockState.symm ▸ unlinked
  case different => exact apartFar
  case kind => exact sockKind.trans kind
  case listening => exact listenerState.trans stillListening

theorem Wired.connected
    (wired : net.Wired)
    (destHost : Nat)
    (dest : Addr) : (net.connect sock destHost dest).1.Wired := by
  rcases wired.connect_cases sock destHost dest with ⟨relabels, -⟩ |
      ⟨middle, far, listener, farLocal, nearLocal, -, -, joinable, -, made⟩
  · exact wired.relabels relabels
  · rw [made]
    exact joinable.joined farLocal nearLocal

/-- A socket is shut down through a descriptor. -/
theorem Wired.shutdown
    (wired : net.Wired)
    (open' : 0 < (net.socks sock).refs)
    (read write : Bool) : (net.shutdown sock read write).1.Wired := by
  rcases net.shutdown_net sock read write with same |
      ⟨-, middle, half, rest⟩
  · rw [same]
    exact wired
  have shutRead : (net.modifySock sock .shutRead).Wired := by
    unfold Wired
    rw [backlogs_modifySock_same rfl]
    exact Linked.relabel wired rfl rfl rfl (.inl rfl) (.inl rfl)
  have middleWired : middle.Wired ∧ 0 < (middle.socks sock).refs := by
    rcases half with ⟨-, rfl⟩ | ⟨-, rfl⟩
    · exact ⟨wired, open'⟩
    · unfold shutdownRead
      split
      · refine ⟨shutRead, ?_⟩
        rw [modifySock_socks_self]
        exact open'
      · next peer _ =>
          refine ⟨shutRead.of_control (control_writeEvent _ peer), ?_⟩
          rw [modifySock_socks]
          split
          · next same =>
              subst same
              rw [modifySock_socks_self]
              exact open'
          · rw [modifySock_socks_self]
            exact open'
  have shutWrite : (middle.modifySock sock .shutWrite).Wired := by
    unfold Wired
    rw [backlogs_modifySock_same rfl]
    exact Linked.relabel middleWired.1 rfl rfl rfl (.inr middleWired.2)
      (.inl rfl)
  rcases rest with ⟨-, written⟩ | same
  · rw [written]
    unfold shutdownWrite
    split
    · exact shutWrite
    · exact shutWrite.of_control (control_deliver _ _ _ _)
  · rw [same]
    exact middleWired.1

theorem Wired.sendDgram
    (wired : net.Wired)
    (dest : Option (Nat × Addr))
    (data : List UInt8) : (net.sendDgram sock dest data).1.Wired := by
  rcases net.sendDgram_net sock dest data with relabels |
      ⟨middle, destHost, dest', relabels, sent⟩
  · exact wired.relabels relabels
  · rw [sent]
    exact (wired.relabels relabels).of_control
      (control_sendTo middle sock destHost dest' data)

/-- Every call keeps the references in order. -/
theorem Wired.exec
    (wired : net.Wired)
    {op : Op}
    (admissible : net.Admissible op)
    {answer : Except NetError Answer}
    (done : net.exec op = some (later, answer)) : later.Wired := by
  cases op with
  | opened pid host family kind ident => exact wired.opened done
  | bind sock addr =>
      cases done
      exact wired.relabels (net.relabels_bind sock addr).1
  | listen sock backlog =>
      cases done
      exact wired.relabels (net.relabels_listen sock backlog)
  | connect sock destHost dest =>
      cases done
      exact wired.connected destHost dest
  | connectDgram sock dest =>
      cases done
      exact wired.relabels (net.relabels_connectDgram sock dest)
  | accept pid listener ident => exact wired.accepted done
  | send sock data =>
      cases done
      exact wired.of_control (control_send net sock data)
  | recv sock room peek =>
      cases done
      exact wired.of_control (control_recv net sock room peek)
  | sendDgram sock dest data =>
      cases done
      exact wired.sendDgram dest data
  | recvDgram sock room peek =>
      cases done
      exact wired.of_control (control_recvDgram net sock room peek)
  | shutdown sock read write =>
      cases done
      exact wired.shutdown admissible read write
  | duplicated pid sock =>
      simp only [Net.exec, Option.map_eq_some_iff] at done
      obtain ⟨net', added, same⟩ := done
      cases same
      exact wired.addRef (Linked.refs_of_held wired admissible) added
  | closed pid sock =>
      simp only [Net.exec, Option.some.injEq, Prod.mk.injEq] at done
      obtain ⟨rfl, -⟩ := done
      exact wired.dropRef admissible
  | adopted pid idents =>
      simp only [Net.exec, Option.map_eq_some_iff] at done
      obtain ⟨net', adopted, same⟩ := done
      cases same
      exact wired.refSteps (refSteps_adoptInherited wired adopted)
  | died pid =>
      simp only [Net.exec, Option.some.injEq, Prod.mk.injEq] at done
      obtain ⟨rfl, -⟩ := done
      exact wired.refSteps (refSteps_processDied wired pid).1
  | advance now =>
      simp only [Net.exec, Option.some.injEq, Prod.mk.injEq] at done
      obtain ⟨rfl, -⟩ := done
      exact wired.of_control (control_advance net now)

/-- A zeroed network with some hosts. -/
theorem zeroed_net (names : List (List UInt8)) (latencyNs : Nat) :
    ∃ hosts, zeroed names latencyNs =
      ({ latencyNs := latencyNs } : Net).setHosts hosts := by
  unfold zeroed
  apply List.foldl_invariant fun net : Net => ∃ hosts, net =
    ({ latencyNs := latencyNs } : Net).setHosts hosts
  · exact ⟨[], rfl⟩
  · rintro net name - ⟨hosts, rfl⟩
    exact ⟨_, rfl⟩

theorem wired_zeroed (names : List (List UInt8)) (latencyNs : Nat) :
    (zeroed names latencyNs).Wired := by
  obtain ⟨hosts, same⟩ := zeroed_net names latencyNs
  rw [same]
  constructor
  case counts =>
    intro i
    rw [eq_comm]
    apply Finset.sum_eq_zero
    intro at' _
    unfold FdRef.share
    split <;> rfl
  case entries => intros; simp [setHosts] at *
  case paired => intro i state; simp [setHosts] at state
  case single => intro i _; rfl
  case queued => intro l far state; simp [setHosts] at state
  case queueNodup => intro l state; simp [setHosts] at state
  case queueUnique => intro l l' far state; simp [setHosts] at state
  case idle => intro i _; rfl
  case unreferenced => intro i _; exact .inr (.inl rfl)
  case gone => intro i _; exact ⟨rfl, Finset.notMem_empty i⟩
  case pendingRefs => intro i member; cases member
  case named => intro i named; simp [setHosts] at named
  case streams => intro i state; simp [setHosts] at state

/-- The references are in order in every reachable state. -/
theorem reachable_wired
    (reachable : system.Reachable net) : net.Wired := by
  apply Transition.Reachable.invariant _ _ reachable
  · rintro net ⟨names, latencyNs, rfl⟩
    exact wired_zeroed names latencyNs
  · rintro net event later wired ⟨admissible, done⟩
    exact wired.exec admissible done

end Net
end Derp
