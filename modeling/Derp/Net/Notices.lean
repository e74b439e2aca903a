import Derp.Net.Edges

/-!
# What the calls announce

Every call announces the readiness it brings about, but for a shutdown at its
own end.  A socket whose last descriptor is closed while its far end is in use
becomes ready too, and nobody is left to be told.
-/

namespace Derp
namespace Net

variable
  {net middle later : Net}
  {sock far : SockId}
  {pid : Nat}

/-! ## References -/

theorem Announces.addRef
    (added : net.addRef pid sock = some later) : Announces net later := by
  unfold Net.addRef at added
  rw [Option.map_eq_some_iff] at added
  obtain ⟨at', -, rfl⟩ := added
  have entered : Announces net (net.setFdref at' pid sock
      ((net.fdrefs at').count + 1)) := Announces.of_same fun _ => rfl
  exact entered.trans (Announces.unseen (fun d => ⟨_, _, _, _, rfl⟩) _ sock)
    fun _ before _ => before

/-- The last descriptor of a socket that is closed lets it go. -/
theorem Announces.dropRef
    (wired : net.Wired)
    (holds : 0 < net.held pid sock) :
    Announces net (net.dropRef pid sock) := by
  have refs := Linked.refs_of_held wired holds
  obtain ⟨at', within, isFor, outcome⟩ := dropRef_of_held holds
  rw [outcome _ rfl]
  have linked := Linked.lose wired within isFor refs
  have kept : ((net.setFdref at' pid sock
      ((net.fdrefs at').count - 1)).modifySock sock .loseRef).backlogs =
        net.backlogs := backlogs_modifySock_same rfl
  rw [← kept] at linked
  have entered : Announces net (net.setFdref at' pid sock
      ((net.fdrefs at').count - 1)) := Announces.of_same fun _ => rfl
  have lost : Announces net ((net.setFdref at' pid sock
      ((net.fdrefs at').count - 1)).modifySock sock .loseRef) :=
    entered.trans (Announces.unseen (fun d => ⟨_, _, _, _, rfl⟩) _ sock)
      fun _ before _ => before
  have isOpen : (((net.setFdref at' pid sock
      ((net.fdrefs at').count - 1)).modifySock sock .loseRef).socks sock).state
        ≠ .closed := by
    rw [modifySock_socks_self]
    intro closed
    have := (Linked.gone wired sock (.inr closed)).1
    omega
  split
  · exact lost.trans_statesOnly (Announces.release linked isOpen)
      (StatesOnly.release _ sock)
  · exact lost

/-- Sockets are let go and none is taken into use. -/
def Dwindles (net later : Net) : Prop :=
  ∀ i, (later.socks i).state = (net.socks i).state ∨
    (later.socks i).state = .free ∨ (later.socks i).state = .closed

theorem Dwindles.refl (net : Net) : Dwindles net net :=
  fun _ => .inl rfl

theorem Dwindles.trans
    (first : Dwindles net middle)
    (second : Dwindles middle later) : Dwindles net later := by
  intro i
  rcases second i with same | isOver
  · rw [same]
    exact first i
  · exact .inr isOver

theorem Dwindles.opens
    (dwindles : Dwindles net later)
    {i : SockId}
    (isOpen : (later.socks i).Open) : (net.socks i).Open := by
  rcases dwindles i with same | gone | gone
  · unfold Sock.Open at isOpen ⊢
    rwa [same] at isOpen
  · exact absurd gone isOpen.1
  · exact absurd gone isOpen.2

/-- A socket that stays connected was connected. -/
theorem Dwindles.connected
    (dwindles : Dwindles net later)
    {i : SockId}
    (connected : (later.socks i).state = .connected) :
    (net.socks i).state = .connected := by
  rcases dwindles i with same | isOver | isOver
  · rw [← same, connected]
  · rw [connected] at isOver; cases isOver
  · rw [connected] at isOver; cases isOver

theorem dwindles_addRef
    (added : net.addRef pid sock = some later) : Dwindles net later := by
  unfold Net.addRef at added
  rw [Option.map_eq_some_iff] at added
  obtain ⟨at', -, rfl⟩ := added
  intro i
  left
  rw [modifySock_socks]
  split
  · next same => subst same; rfl
  · rfl

theorem dwindles_dropRef
    (holds : 0 < net.held pid sock) : Dwindles net (net.dropRef pid sock) := by
  obtain ⟨at', -, -, outcome⟩ := dropRef_of_held holds
  rw [outcome _ rfl]
  have lost : Dwindles net ((net.setFdref at' pid sock
      ((net.fdrefs at').count - 1)).modifySock sock .loseRef) := by
    intro i
    left
    rw [modifySock_socks]
    split
    · next same => subst same; rfl
    · rfl
  split
  · exact lost.trans (StatesOnly.release _ sock).states
  · exact lost

theorem dwindles_refStep (step : RefStep pid net later) : Dwindles net later := by
  cases step with
  | gain live added => exact dwindles_addRef added
  | drop holds => exact dwindles_dropRef holds

theorem dwindles_refSteps (steps : RefSteps pid net later) :
    Dwindles net later := by
  induction steps with
  | refl => exact Dwindles.refl net
  | tail _ step inductionHypothesis =>
      exact inductionHypothesis.trans (dwindles_refStep step)

theorem Announces.refSteps
    (wired : net.Wired)
    (steps : RefSteps pid net later) : Announces net later := by
  induction steps with
  | refl => exact Announces.refl net
  | tail steps step inductionHypothesis =>
      have middleWired := wired.refSteps steps
      refine inductionHypothesis.trans ?_ fun _ _ after =>
        (dwindles_refStep step).opens after
      cases step with
      | gain live added => exact Announces.addRef added
      | drop holds => exact Announces.dropRef middleWired holds

/-! ## Labels, slots and links -/

/-- A change of a socket that is not connected, or only becomes so. -/
theorem Announces.unlinked
    (others : ∀ i ≠ sock, later.socks i = net.socks i)
    (apart : (net.socks sock).state ≠ .connected)
    (bumped : (net.socks sock).Open →
      (later.socks sock).kind = (net.socks sock).kind ∧
      (net.socks sock).rdEvents ≤ (later.socks sock).rdEvents ∧
      (later.socks sock).wrEvents = (net.socks sock).wrEvents ∧
      ((net.socks sock).kind = .stream → later.readable sock = true →
        net.readable sock = true ∨
          (net.socks sock).rdEvents < (later.socks sock).rdEvents)) :
    Announces net later where
  kind i isOpen _ := by
    by_cases same : i = sock
    · subst same
      exact (bumped isOpen).1
    · rw [others i same]
  rdLe i isOpen _ := by
    by_cases same : i = sock
    · subst same
      exact (bumped isOpen).2.1
    · rw [others i same]
  wrLe i isOpen _ := by
    by_cases same : i = sock
    · subst same
      exact (bumped isOpen).2.2.1.ge
    · rw [others i same]
  read i isOpen _ stream _ ready := by
    by_cases same : i = sock
    · subst same
      exact (bumped isOpen).2.2.2 stream ready
    · left
      unfold readable at ready ⊢
      rwa [others i same] at ready
  write i isOpen _ _ _ ready := by
    left
    rw [writable_iff_answers] at ready ⊢
    by_cases same : i = sock
    · subst same
      exact .inl apart
    rw [others i same] at ready
    refine ready.imp_right (Or.imp_right fun answers far linkedTo => ?_)
    by_cases ofSock : far = sock
    · subst ofSock
      exact .inl apart
    have farAnswers := answers far linkedTo
    unfold Answers at farAnswers ⊢
    rwa [others far ofSock, @window_congr net later far (others far ofSock)]
      at farAnswers

theorem readable_of_idle
    (stream : (net.socks sock).kind = .stream)
    (idle : (net.socks sock).state = .new ∨ (net.socks sock).state = .bound) :
    net.readable sock = true := by
  rw [readable_iff_hasInput stream]
  rcases idle with idle | idle <;> rw [idle] <;> trivial

theorem modifySock_others
    (net : Net)
    (sock : SockId)
    (change : Sock → Sock) :
    ∀ i ≠ sock, (net.modifySock sock change).socks i = net.socks i :=
  fun _ different => modifySock_socks_of_ne net change different

/-- Sockets that are in use stay in use. -/
def Lasts (net later : Net) : Prop :=
  ∀ i, (net.socks i).Open → (later.socks i).Open

theorem Lasts.trans
    (first : Lasts net middle)
    (second : Lasts middle later) : Lasts net later :=
  fun i isOpen => second i (first i isOpen)

theorem lasts_modifySock
    {change : Sock → Sock}
    (lasts : (net.socks sock).Open → (change (net.socks sock)).Open) :
    Lasts net (net.modifySock sock change) := by
  intro i isOpen
  rw [modifySock_socks]
  split
  · next same => subst same; exact lasts isOpen
  · exact isOpen

theorem Lasts.relabels
    (relabels : Relabels sock net later) : Lasts net later := by
  induction relabels with
  | refl => exact fun _ isOpen => isOpen
  | hosts hosts _ inductionHypothesis => exact inductionHypothesis
  | named addr _ _ inductionHypothesis =>
      exact inductionHypothesis.trans (lasts_modifySock fun isOpen => isOpen)
  | bound addr _ _ inductionHypothesis =>
      exact inductionHypothesis.trans
        (lasts_modifySock fun _ => ⟨nofun, nofun⟩)
  | listening most _ _ _ inductionHypothesis =>
      exact inductionHypothesis.trans
        (lasts_modifySock fun _ => ⟨nofun, nofun⟩)
  | peer dest _ inductionHypothesis =>
      exact inductionHypothesis.trans (lasts_modifySock fun isOpen => isOpen)

/-- Sockets that are relabelled do not become ready by it. -/
theorem Announces.relabels
    (relabels : Relabels sock net later) : Announces net later := by
  induction relabels with
  | refl => exact Announces.refl net
  | hosts hosts relabels inductionHypothesis =>
      exact inductionHypothesis.trans (Announces.of_same fun _ => rfl)
        fun i before _ => Lasts.relabels relabels i before
  | named addr relabels _ inductionHypothesis =>
      exact inductionHypothesis.trans
        (Announces.unseen (fun d => ⟨_, _, _, _, rfl⟩) _ sock)
        fun i before _ => Lasts.relabels relabels i before
  | @bound middle addr relabels isNew inductionHypothesis =>
      refine inductionHypothesis.trans ?_
        fun i before _ => Lasts.relabels relabels i before
      refine Announces.unlinked (modifySock_others middle sock _)
        (by rw [isNew]; decide) fun _ => ?_
      rw [modifySock_socks_self]
      exact ⟨rfl, le_rfl, rfl, fun stream _ =>
        .inl (readable_of_idle stream (.inl isNew))⟩
  | @listening middle most relabels state stream inductionHypothesis =>
      refine inductionHypothesis.trans ?_
        fun i before _ => Lasts.relabels relabels i before
      refine Announces.unlinked (modifySock_others middle sock _)
        (by rcases state with h | h <;> rw [h] <;> decide) fun _ => ?_
      have record := modifySock_socks_self middle sock (.listenWith most)
      refine ⟨by rw [record]; rfl, by rw [record]; exact le_rfl,
        by rw [record]; rfl, fun _ ready => .inl ?_⟩
      rcases state with isBound | isListening
      · exact readable_of_idle stream (.inr isBound)
      · rw [readable_iff_hasInput (by rw [record]; exact stream), record]
          at ready
        rw [readable_iff_hasInput stream, isListening]
        exact ready
  | peer dest relabels inductionHypothesis =>
      exact inductionHypothesis.trans
        (Announces.unseen (fun d => ⟨_, _, _, _, rfl⟩) _ sock)
        fun i before _ => Lasts.relabels relabels i before

theorem discardRecords_socks_of_ne
    {i : SockId}
    (different : i ≠ sock)
    (fuel : Nat)
    (net : Net) : (discardRecords fuel net sock).socks i = net.socks i := by
  induction fuel generalizing net with
  | zero => rfl
  | succ fuel inductionHypothesis =>
      unfold discardRecords
      split
      · dsimp only
        rw [inductionHypothesis]
        exact modifySock_socks_of_ne _ _ different
      · rfl

/-- A slot that is taken was in no use. -/
theorem taken_others
    (net : Net)
    (sock : SockId)
    (host : Nat)
    (family : Family)
    (kind : Kind) :
    ∀ i ≠ sock, (((net.setIdent sock 0).discardFlight sock).modifySock sock
      (.fresh host family kind)).socks i = net.socks i := by
  intro i different
  unfold discardFlight
  rw [modifySock_socks_of_ne _ _ different,
    modifySock_socks_of_ne _ _ different,
    discardRecords_socks_of_ne different]
  rfl

theorem Announces.taken
    (isFree : (net.socks sock).state = .free)
    (host : Nat)
    (family : Family)
    (kind : Kind) :
    Announces net (((net.setIdent sock 0).discardFlight sock).modifySock sock
      (.fresh host family kind)) :=
  Announces.unlinked (net.taken_others sock host family kind)
    (by rw [isFree]; decide) fun isOpen => absurd isFree isOpen.1

theorem lasts_taken
    (isFree : (net.socks sock).state = .free)
    (host : Nat)
    (family : Family)
    (kind : Kind) :
    Lasts net (((net.setIdent sock 0).discardFlight sock).modifySock sock
      (.fresh host family kind)) := by
  intro i isOpen
  have different : i ≠ sock := by
    rintro rfl
    exact isOpen.1 isFree
  rwa [net.taken_others sock host family kind i different]

theorem Announces.handOut
    {ident : Nat}
    (added : (net.setIdent sock ident).addRef pid sock = some later) :
    Announces net later := by
  have named : Announces net (net.setIdent sock ident) :=
    Announces.of_same fun _ => rfl
  exact named.trans (Announces.addRef added) fun _ before _ => before

theorem Announces.opened
    {host ident : Nat}
    {family : Family}
    {kind : Kind}
    {answer : Except NetError Answer}
    (done : Net.handOut pid ident (net.socket host family kind) =
      some (later, answer)) : Announces net later := by
  rcases opened_cases done with ⟨rfl, -⟩ | ⟨sock, isFree, -, added⟩
  · exact Announces.refl later
  · exact (Announces.taken isFree host family kind).trans
      (Announces.handOut added)
      fun i before _ => lasts_taken isFree host family kind i before

/-- A connection leaves the queue of a listener. -/
theorem Announces.accepted
    (wired : net.Wired)
    {ident : Nat}
    {listener : SockId}
    {answer : Except NetError Answer}
    (done : Net.handOut pid ident (net.accept listener) =
      some (later, answer)) : Announces net later := by
  rcases wired.accepted_cases done with ⟨rfl, -⟩ |
      ⟨far, rest, listening, queue, -, -, added⟩
  · exact Announces.refl later
  · have left : Announces net (net.modifySock listener (.setBacklog rest)) := by
      refine Announces.unlinked (net.modifySock_others listener _)
        (by rw [listening]; decide) fun _ => ?_
      rw [modifySock_socks_self]
      refine ⟨rfl, le_rfl, rfl, fun stream _ => .inl ?_⟩
      rw [readable_iff_hasInput stream, listening]
      rw [queue]
      exact List.cons_ne_nil far rest
    exact left.trans (Announces.handOut added) fun i before _ =>
      lasts_modifySock (fun isOpen => isOpen) i before

theorem lasts_joined
    (net : Net)
    (sock far listener : SockId)
    (farLocal nearLocal : Addr) :
    Lasts net (net.joined sock far listener farLocal nearLocal) := by
  have farLasts : Lasts net
      (net.modifySock far (.linkFar farLocal nearLocal sock)) :=
    lasts_modifySock fun _ => ⟨nofun, nofun⟩
  have nearLasts : Lasts
      (net.modifySock far (.linkFar farLocal nearLocal sock))
      ((net.modifySock far (.linkFar farLocal nearLocal sock)).modifySock sock
        (.linkNear farLocal far)) :=
    lasts_modifySock fun _ => ⟨nofun, nofun⟩
  exact (farLasts.trans nearLasts).trans
    (lasts_modifySock fun isOpen => isOpen)

/-- A connection makes its listener ready, and tells it. -/
theorem Announces.joined
    {listener : SockId}
    (joinable : net.Joinable sock far listener)
    (farLocal nearLocal : Addr) :
    Announces net (net.joined sock far listener farLocal nearLocal) := by
  have sockNotListener : sock ≠ listener := by
    rintro rfl
    have unlinked := joinable.unlinked
    rw [joinable.listening] at unlinked
    rcases unlinked with h | h <;> cases h
  have farNotListener : far ≠ listener := by
    rintro rfl
    have isNew := joinable.isNew
    rw [joinable.listening] at isNew
    cases isNew
  have farLinked : Announces net
      (net.modifySock far (.linkFar farLocal nearLocal sock)) := by
    refine Announces.unlinked (net.modifySock_others far _)
      (by rw [joinable.isNew]; decide) fun _ => ?_
    rw [modifySock_socks_self]
    exact ⟨rfl, le_rfl, rfl, fun stream _ =>
      .inl (readable_of_idle stream (.inl joinable.isNew))⟩
  have sockRecord : (net.modifySock far
      (.linkFar farLocal nearLocal sock)).socks sock = net.socks sock :=
    modifySock_socks_of_ne _ _ joinable.different.symm
  have nearLinked : Announces
      (net.modifySock far (.linkFar farLocal nearLocal sock))
      ((net.modifySock far (.linkFar farLocal nearLocal sock)).modifySock sock
        (.linkNear farLocal far)) := by
    refine Announces.unlinked (modifySock_others _ sock _) ?_ fun _ => ?_
    · rw [sockRecord]
      rcases joinable.unlinked with h | h <;> rw [h] <;> decide
    · rw [modifySock_socks_self]
      refine ⟨rfl, le_rfl, rfl, fun stream _ => .inl ?_⟩
      exact readable_of_idle stream (by rw [sockRecord]; exact joinable.unlinked)
  have listenerRecord : ((net.modifySock far
      (.linkFar farLocal nearLocal sock)).modifySock sock
        (.linkNear farLocal far)).socks listener = net.socks listener := by
    rw [modifySock_socks_of_ne _ _ sockNotListener.symm,
      modifySock_socks_of_ne _ _ farNotListener.symm]
  have queued : Announces
      ((net.modifySock far (.linkFar farLocal nearLocal sock)).modifySock sock
        (.linkNear farLocal far))
      (net.joined sock far listener farLocal nearLocal) := by
    refine Announces.unlinked (modifySock_others _ listener _) ?_ fun _ => ?_
    · rw [listenerRecord, joinable.listening]
      decide
    · have record : (net.joined sock far listener farLocal
          nearLocal).socks listener =
            (net.socks listener).enqueue far := by
        unfold Net.joined
        rw [countConnection_socks, modifySock_socks_self, listenerRecord]
      rw [record, listenerRecord]
      exact ⟨rfl, Nat.le_succ _, rfl, fun _ _ => .inr (Nat.lt_succ_self _)⟩
  have lastsFar : Lasts net
      (net.modifySock far (.linkFar farLocal nearLocal sock)) :=
    lasts_modifySock fun _ => ⟨nofun, nofun⟩
  have lastsNear : Lasts
      (net.modifySock far (.linkFar farLocal nearLocal sock))
      ((net.modifySock far (.linkFar farLocal nearLocal sock)).modifySock sock
        (.linkNear farLocal far)) :=
    lasts_modifySock fun _ => ⟨nofun, nofun⟩
  exact (farLinked.trans nearLinked fun i before _ => lastsFar i before).trans
    queued fun i before _ => (lastsFar.trans lastsNear) i before

theorem Announces.connected
    (wired : net.Wired)
    (destHost : Nat)
    (dest : Addr) : Announces net (net.connect sock destHost dest).1 := by
  rcases wired.connect_cases sock destHost dest with ⟨relabels, -⟩ |
      ⟨middle, far, listener, farLocal, nearLocal, relabels, isFree, joinable,
        -, made⟩
  · exact Announces.relabels relabels
  · rw [made]
    have taken := Announces.taken isFree destHost (middle.socks sock).family
      (middle.socks sock).kind
    have lasts := lasts_taken isFree destHost (middle.socks sock).family
      (middle.socks sock).kind
    have relabelled := Announces.relabels relabels
    exact (relabelled.trans taken
        fun i before _ => Lasts.relabels relabels i before).trans
      (Announces.joined joinable farLocal nearLocal)
      fun i before _ => ((Lasts.relabels relabels).trans lasts) i before

/-! ## Payloads and shutdowns -/

theorem Announces.send
    (net : Net)
    (sock : SockId)
    (data : List UInt8) : Announces net (net.send sock data).1 := by
  rcases net.send_net sock data with ⟨same, -⟩ | ⟨far, -, -, -, -, same, -⟩
  · rw [same]
    exact Announces.refl net
  · rw [same]
    exact Announces.deliver net _ far _

theorem sendTo_socks
    (net : Net)
    (sock : SockId)
    (destHost : Nat)
    (dest : Addr)
    (data : List UInt8) :
    (net.sendTo sock destHost dest data).1.socks = net.socks ∨
      ∃ target payload, (net.sendTo sock destHost dest data).1.socks =
        (net.deliver (net.socks sock).host target payload).1.socks := by
  unfold sendTo
  dsimp only
  split
  · next target _ =>
      right
      refine ⟨target, .datagram (net.sourceName (net.socks sock) dest) data, ?_⟩
      split
      · split <;> rfl
      · rfl
  · left
    split
    · rfl
    · rfl

theorem Announces.sendTo
    (net : Net)
    (sock : SockId)
    (destHost : Nat)
    (dest : Addr)
    (data : List UInt8) :
    Announces net (net.sendTo sock destHost dest data).1 := by
  rcases net.sendTo_socks sock destHost dest data with same |
      ⟨target, payload, same⟩
  · exact Announces.of_same fun i => congrFun same i
  · exact (Announces.deliver net (net.socks sock).host target payload).trans
      (Announces.of_same fun i => congrFun same i)
      fun i _ after => by rwa [congrFun same i] at after

theorem Announces.sendDgram
    (dest : Option (Nat × Addr))
    (data : List UInt8) :
    Announces net (net.sendDgram sock dest data).1 := by
  rcases net.sendDgram_net sock dest data with relabels |
      ⟨middle, destHost, dest', relabels, sent⟩
  · exact Announces.relabels relabels
  · rw [sent]
    exact (Announces.relabels relabels).trans
      (Announces.sendTo middle sock destHost dest' data)
      fun i before _ => Lasts.relabels relabels i before

/-- A socket that shuts its reading side down can be read, and nobody tells it;
its far end is told. -/
theorem Heeds.shutdownRead
    (wired : net.Wired)
    (connected : (net.socks sock).state = .connected) :
    Heeds (· = sock) (fun _ => False) net (net.shutdownRead sock) := by
  obtain ⟨peer, linkedTo, back, apart, -⟩ :=
    Linked.paired wired sock (.inl connected)
  have shut : net.shutdownRead sock =
      (net.modifySock sock .shutRead).modifySock peer .writeEvent := by
    unfold Net.shutdownRead
    rw [linkedTo]
  rw [shut]
  have ofSock : ((net.modifySock sock .shutRead).modifySock peer
      .writeEvent).socks sock = (net.socks sock).shutRead := by
    rw [modifySock_socks_of_ne _ _ apart, modifySock_socks_self]
  have others (i : SockId) (different : i ≠ sock) :
      ((net.modifySock sock .shutRead).modifySock peer .writeEvent).socks i =
        if i = peer then (net.socks i).writeEvent else net.socks i := by
    rw [modifySock_socks]
    split
    · next same =>
        rw [← same, modifySock_socks_of_ne _ _ different]
    · rw [modifySock_socks_of_ne _ _ different]
  generalize (net.modifySock sock .shutRead).modifySock peer .writeEvent = later
    at ofSock others ⊢
  constructor
  case kind =>
    intro i _ _
    by_cases same : i = sock
    · subst same; rw [ofSock]; rfl
    · rw [others i same]; split <;> rfl
  case rdLe =>
    intro i _ _
    by_cases same : i = sock
    · subst same; rw [ofSock]; exact le_rfl
    · rw [others i same]; split <;> exact le_rfl
  case wrLe =>
    intro i _ _
    by_cases same : i = sock
    · subst same; rw [ofSock]; exact le_rfl
    · rw [others i same]
      split
      · exact Nat.le_succ _
      · exact le_rfl
  case read =>
    intro i _ _ _ different ready
    left
    unfold readable at ready ⊢
    rw [others i different] at ready
    split at ready <;> exact ready
  case write =>
    intro i _ _ _ _ ready
    by_cases isPeer : i = peer
    · right
      subst isPeer
      rw [others i apart.symm, if_pos rfl]
      exact Nat.lt_succ_self _
    · left
      rw [writable_iff_answers] at ready ⊢
      have record : (later.socks i).state = (net.socks i).state ∧
          (later.socks i).shutWr = (net.socks i).shutWr ∧
          (later.socks i).farEnd = (net.socks i).farEnd := by
        by_cases same : i = sock
        · subst same; rw [ofSock]; exact ⟨rfl, rfl, rfl⟩
        · rw [others i same, if_neg isPeer]; exact ⟨rfl, rfl, rfl⟩
      rw [record.1, record.2.1, record.2.2] at ready
      by_cases isConnected : (net.socks i).state = .connected
      · refine ready.imp_right (Or.imp_right fun answers far toFar => ?_)
        have notSock : far ≠ sock := by
          rintro rfl
          obtain ⟨farBack, -⟩ := Linked.backOf wired isConnected toFar
          exact isPeer (Option.some.inj (farBack.symm.trans linkedTo))
        have farAnswers := answers far toFar
        have traffic : (later.socks far).traffic = (net.socks far).traffic := by
          rw [others far notSock]
          split <;> rfl
        have fields : (later.socks far).state = (net.socks far).state ∧
            (later.socks far).shutRd = (net.socks far).shutRd := by
          rw [others far notSock]
          split <;> exact ⟨rfl, rfl⟩
        unfold Answers at farAnswers ⊢
        rwa [fields.1, fields.2, window_of_traffic traffic] at farAnswers
      · exact .inl isConnected

/-- A socket that shuts its writing side down can be written, and nobody tells
it; its far end hears the end of the stream. -/
theorem Heeds.shutdownWrite (net : Net) (sock : SockId) :
    Heeds (fun _ => False) (· = sock) net (net.shutdownWrite sock) := by
  have fields (i : SockId) :
      ∃ shutWr, (net.modifySock sock .shutWrite).socks i =
        { net.socks i with shutWr := shutWr } ∧
          (i ≠ sock → shutWr = (net.socks i).shutWr) := by
    rw [modifySock_socks]
    split
    · next same => subst same; exact ⟨true, rfl, fun different => absurd rfl different⟩
    · exact ⟨_, rfl, fun _ => rfl⟩
  have marked : Heeds (fun _ => False) (· = sock) net
      (net.modifySock sock .shutWrite) := by
    constructor
    case kind => intro i _ _; obtain ⟨_, same, -⟩ := fields i; rw [same]
    case rdLe => intro i _ _; obtain ⟨_, same, -⟩ := fields i; rw [same]
    case wrLe => intro i _ _; obtain ⟨_, same, -⟩ := fields i; rw [same]
    case read =>
      intro i _ _ _ _ ready
      obtain ⟨_, same, -⟩ := fields i
      left
      unfold readable at ready ⊢
      rwa [same] at ready
    case write =>
      intro i _ _ _ different ready
      obtain ⟨shutWr, same, unchanged⟩ := fields i
      left
      rw [writable_iff_answers, same] at ready
      rw [writable_iff_answers, ← unchanged different]
      refine ready.imp_right (Or.imp_right fun answers far toFar => ?_)
      have farAnswers := answers far toFar
      obtain ⟨_, farSame, -⟩ := fields far
      have window : (net.modifySock sock .shutWrite).window far =
          net.window far := window_of_traffic (by rw [farSame]; rfl)
      unfold Answers at farAnswers ⊢
      rwa [window, farSame] at farAnswers
  unfold Net.shutdownWrite
  split
  · exact marked
  · next peer _ =>
      have delivered := Announces.deliver (net.modifySock sock .shutWrite)
        (net.socks sock).host peer .fin
      refine marked.trans (delivered.mono (fun _ => False.elim)
        fun _ => False.elim) fun i before _ => ?_
      exact lasts_modifySock (fun isOpen => isOpen) i before

/-- A shutdown leaves the halves quiet that it is asked to shut down. -/
theorem Heeds.shutdown
    (wired : net.Wired)
    (sock : SockId)
    (read write : Bool) :
    Heeds (fun i => i = sock ∧ read = true) (fun i => i = sock ∧ write = true)
      net (net.shutdown sock read write).1 := by
  have quiet (net : Net) : Heeds (fun i => i = sock ∧ read = true)
      (fun i => i = sock ∧ write = true) net net :=
    (Announces.refl net).mono (fun _ => False.elim) fun _ => False.elim
  unfold Net.shutdown
  split
  · exact quiet net
  next connected =>
  rw [not_not] at connected
  dsimp only
  have first : Heeds (fun i => i = sock ∧ read = true)
      (fun i => i = sock ∧ write = true) net
      (if read = true then net.shutdownRead sock else net) := by
    split
    · next asked =>
        exact (Heeds.shutdownRead wired connected).mono
          (fun _ same => ⟨same, asked⟩) fun _ => False.elim
    · exact quiet net
  have lasts : Lasts net
      (if read = true then net.shutdownRead sock else net) := by
    split
    · intro i isOpen
      obtain ⟨-, -, -, state⟩ := net.shutdownRead_socks sock i
      unfold Sock.Open
      rwa [state]
    · exact fun _ isOpen => isOpen
  generalize (if read = true then net.shutdownRead sock else net) = middle
    at first lasts ⊢
  split
  · next asked =>
      exact first.trans ((Heeds.shutdownWrite middle sock).mono
        (fun _ => False.elim) fun _ same => ⟨same, asked.1⟩)
        fun i before _ => lasts i before
  · exact first

/-! ## Calls -/

/-- The call shuts the reading side of the socket down. -/
def Op.ShutsRead (i : SockId) : Op → Prop
  | .shutdown sock read _ => i = sock ∧ read = true
  | _ => False

/-- The call shuts the writing side of the socket down. -/
def Op.ShutsWrite (i : SockId) : Op → Prop
  | .shutdown sock _ write => i = sock ∧ write = true
  | _ => False

/-- Every call announces the readiness it brings about, but for the halves it
shuts down. -/
theorem Heeds.exec
    (reachable : system.Reachable net)
    {op : Op}
    (admissible : net.Admissible op)
    {answer : Except NetError Answer}
    (done : net.exec op = some (later, answer)) :
    Heeds (Op.ShutsRead · op) (Op.ShutsWrite · op) net later := by
  have wired := reachable_wired reachable
  have loud (announces : Announces net later) :
      Heeds (Op.ShutsRead · op) (Op.ShutsWrite · op) net later :=
    announces.mono (fun _ => False.elim) fun _ => False.elim
  cases op with
  | opened pid host family kind ident => exact loud (Announces.opened done)
  | bind sock addr =>
      cases done
      exact loud (Announces.relabels (net.relabels_bind sock addr).1)
  | listen sock backlog =>
      cases done
      exact loud (Announces.relabels (net.relabels_listen sock backlog))
  | connect sock destHost dest =>
      cases done
      exact loud (Announces.connected wired destHost dest)
  | connectDgram sock dest =>
      cases done
      exact loud (Announces.relabels (net.relabels_connectDgram sock dest))
  | accept pid listener ident => exact loud (Announces.accepted wired done)
  | send sock data =>
      cases done
      exact loud (Announces.send net sock data)
  | recv sock room peek =>
      cases done
      exact loud (Announces.recv wired sock room peek)
  | sendDgram sock dest data =>
      cases done
      exact loud (Announces.sendDgram dest data)
  | recvDgram sock room peek =>
      cases done
      exact loud (Announces.recvDgram wired admissible room peek)
  | shutdown sock read write =>
      cases done
      exact Heeds.shutdown wired sock read write
  | duplicated pid sock =>
      simp only [Net.exec, Option.map_eq_some_iff] at done
      obtain ⟨net', added, same⟩ := done
      cases same
      exact loud (Announces.addRef added)
  | closed pid sock =>
      simp only [Net.exec, Option.some.injEq, Prod.mk.injEq] at done
      obtain ⟨rfl, -⟩ := done
      exact loud (Announces.dropRef wired admissible)
  | adopted pid idents =>
      simp only [Net.exec, Option.map_eq_some_iff] at done
      obtain ⟨net', adopted, same⟩ := done
      cases same
      exact loud (Announces.refSteps wired
        (refSteps_adoptInherited wired adopted))
  | died pid =>
      simp only [Net.exec, Option.some.injEq, Prod.mk.injEq] at done
      obtain ⟨rfl, -⟩ := done
      exact loud (Announces.refSteps wired (refSteps_processDied wired pid).1)
  | advance now =>
      simp only [Net.exec, Option.some.injEq, Prod.mk.injEq] at done
      obtain ⟨rfl, -⟩ := done
      exact loud (Announces.advance wired (reachable_accounted reachable).counted now)

/-! ## Sockets that are let go -/

/-- Only the far ends of sockets that are let go are told of it. -/
def TellsFarEnds (net later : Net) : Prop :=
  ∀ i j, (net.socks i).farEnd = some j →
    (later.socks j).state = .connected → later.events i = net.events i

theorem TellsFarEnds.of_events
    (same : later.events = net.events) : TellsFarEnds net later :=
  fun i _ _ _ => congrFun same i

theorem TellsFarEnds.trans
    (first : TellsFarEnds net middle)
    (second : TellsFarEnds middle later)
    (farEnds : ∀ i, (middle.socks i).farEnd = (net.socks i).farEnd)
    (dwindles : Dwindles middle later) : TellsFarEnds net later := by
  intro i j linkedTo connected
  rw [second i j ((farEnds i).trans linkedTo) connected,
    first i j linkedTo (dwindles.connected connected)]

theorem StatesOnly.farEnd
    (same : StatesOnly net later)
    (i : SockId) : (later.socks i).farEnd = (net.socks i).farEnd := by
  have view := congrArg Sock.farEnd (same.socks i)
  exact view

theorem events_setState (net : Net) (sock : SockId) (state : SockState) :
    (net.setState sock state).events = net.events :=
  @events_modifySock (.setState state) (fun _ => ⟨rfl, rfl⟩) net sock

theorem events_deliver_of_ne
    (srcHost : Nat)
    (payload : Payload)
    {dst i : SockId}
    (different : i ≠ dst) :
    (net.deliver srcHost dst payload).1.events i = net.events i := by
  obtain ⟨d', socks, -⟩ := net.deliver_socks srcHost dst payload
  unfold events
  rw [socks, Function.update_of_ne different]

theorem events_writeEvent_of_ne {dst i : SockId} (different : i ≠ dst) :
    (net.modifySock dst .writeEvent).events i = net.events i := by
  unfold events
  rw [modifySock_socks_of_ne _ _ different]

/-- An end of a connection that hangs up tells its far end. -/
theorem tellsFarEnds_hangUp
    {pending : Finset SockId}
    {queues : SockId → List SockId}
    (linked : net.Linked pending queues)
    {src dst : SockId}
    (connected : (net.socks src).state = .connected)
    (linkedTo : (net.socks src).farEnd = some dst)
    (told : ∀ i ≠ dst, middle.events i = net.events i) :
    TellsFarEnds net (middle.setState src .closed) := by
  intro i j toFar farConnected
  rw [events_setState]
  apply told
  rintro rfl
  obtain ⟨back, -⟩ := linked.backOf connected linkedTo
  obtain rfl : src = j := Option.some.inj (back.symm.trans toFar)
  unfold setState at farConnected
  rw [modifySock_socks_self] at farConnected
  cases farConnected

theorem tellsFarEnds_resetQueued
    {pending : Finset SockId}
    {queues : SockId → List SockId}
    (linked : net.Linked pending queues)
    (connected : (net.socks far).state = .connected) :
    TellsFarEnds net (net.resetQueued far) := by
  obtain ⟨near, linkedTo, -⟩ := linked.paired far (.inl connected)
  unfold Net.resetQueued
  rw [linkedTo]
  simp only
  split
  · exact .of_events (by rw [events_setState, events_setState])
  · refine tellsFarEnds_hangUp linked connected linkedTo fun i different => ?_
    rw [events_writeEvent_of_ne different, events_deliver_of_ne _ _ different]

theorem tellsFarEnds_foldl
    {pending : Finset SockId}
    {queues : SockId → List SockId}
    {listener : SockId}
    (queue : List SockId)
    (linked : net.Linked pending queues)
    (listening : (net.socks listener).state = .listening)
    (queueIs : queues listener = queue) :
    TellsFarEnds net (queue.foldl Net.resetQueued net) := by
  induction queue generalizing net queues with
  | nil => exact .of_events rfl
  | cons far rest inductionHypothesis =>
      have present : far ∈ queues listener := by rw [queueIs]; simp
      obtain ⟨connected, -⟩ := linked.queued listener far listening present
      obtain ⟨stillLinked, stillListening⟩ :=
        linked.resetQueued listening queueIs
      rw [List.foldl_cons]
      exact (tellsFarEnds_resetQueued linked connected).trans
        (inductionHypothesis stillLinked stillListening
          (Function.update_self _ _ _))
        (StatesOnly.resetQueued net far).farEnd
        (StatesOnly.foldl_resetQueued rest _).states

theorem tellsFarEnds_release
    {pending : Finset SockId}
    (linked : net.Linked pending net.backlogs) :
    TellsFarEnds net (net.release sock) := by
  have unnamed {later : Net} (released : TellsFarEnds net later) :
      TellsFarEnds net (later.setIdent sock 0) := released
  unfold Net.release
  apply unnamed
  split
  · next listening =>
      exact (tellsFarEnds_foldl (net.socks sock).backlog linked listening
          rfl).trans (.of_events (events_setState _ sock .free))
        (StatesOnly.foldl_resetQueued _ net).farEnd
        (StatesOnly.setState _ sock (.inl rfl)).states
  · next connected =>
      obtain ⟨peer, linkedTo, -⟩ := linked.paired sock (.inl connected)
      unfold Net.releaseConnected
      rw [linkedTo]
      simp only
      split
      · exact .of_events (by rw [events_setState, events_setState])
      · refine tellsFarEnds_hangUp linked connected linkedTo
          fun i different => ?_
        rw [events_writeEvent_of_ne different]
        split
        · rfl
        · exact events_deliver_of_ne _ _ different
  · exact .of_events (events_setState net sock .free)

theorem tellsFarEnds_refStep
    (wired : net.Wired)
    (step : RefStep pid net later) :
    TellsFarEnds net later ∧
      ∀ i, (later.socks i).farEnd = (net.socks i).farEnd := by
  cases step with
  | @gain _ sock live added =>
      unfold Net.addRef at added
      rw [Option.map_eq_some_iff] at added
      obtain ⟨at', -, rfl⟩ := added
      constructor
      · exact .of_events (@events_modifySock .gainRef (fun _ => ⟨rfl, rfl⟩)
          (net.setFdref at' pid sock ((net.fdrefs at').count + 1)) sock)
      · intro i
        rw [modifySock_socks]
        split
        · next same => subst same; rfl
        · rfl
  | @drop sock holds =>
      have refs := Linked.refs_of_held wired holds
      obtain ⟨at', within, isFor, outcome⟩ := dropRef_of_held holds
      rw [outcome _ rfl]
      have linked := Linked.lose wired within isFor refs
      have kept : ((net.setFdref at' pid sock
          ((net.fdrefs at').count - 1)).modifySock sock .loseRef).backlogs =
            net.backlogs := backlogs_modifySock_same rfl
      rw [← kept] at linked
      have lost : TellsFarEnds net ((net.setFdref at' pid sock
          ((net.fdrefs at').count - 1)).modifySock sock .loseRef) :=
        .of_events (@events_modifySock .loseRef (fun _ => ⟨rfl, rfl⟩)
          (net.setFdref at' pid sock ((net.fdrefs at').count - 1)) sock)
      have farEnds (i : SockId) : (((net.setFdref at' pid sock
          ((net.fdrefs at').count - 1)).modifySock sock .loseRef).socks
            i).farEnd = (net.socks i).farEnd := by
        rw [modifySock_socks]
        split
        · next same => subst same; rfl
        · rfl
      split
      · have released := StatesOnly.release ((net.setFdref at' pid sock
          ((net.fdrefs at').count - 1)).modifySock sock .loseRef) sock
        exact ⟨lost.trans (tellsFarEnds_release linked) farEnds
          released.states, fun i => (released.farEnd i).trans (farEnds i)⟩
      · exact ⟨lost, farEnds⟩

theorem tellsFarEnds_refSteps
    (wired : net.Wired)
    (steps : RefSteps pid net later) :
    TellsFarEnds net later ∧
      ∀ i, (later.socks i).farEnd = (net.socks i).farEnd := by
  induction steps with
  | refl => exact ⟨.of_events rfl, fun _ => rfl⟩
  | tail steps step inductionHypothesis =>
      obtain ⟨tells, farEnds⟩ := inductionHypothesis
      obtain ⟨stepTells, stepFarEnds⟩ :=
        tellsFarEnds_refStep (wired.refSteps steps) step
      exact ⟨tells.trans stepTells farEnds (dwindles_refStep step),
        fun i => (stepFarEnds i).trans (farEnds i)⟩

/-- Nobody tells a socket that it was let go. -/
theorem events_of_letGo
    (wired : net.Wired)
    (steps : RefSteps pid net later)
    {i : SockId}
    (closed : (later.socks i).state = .closed) :
    later.events i = net.events i := by
  obtain ⟨tells, farEnds⟩ := tellsFarEnds_refSteps wired steps
  obtain ⟨j, linkedTo, -, -, state⟩ :=
    Linked.paired (wired.refSteps steps) i (.inr closed)
  rw [farEnds i] at linkedTo
  apply tells i j linkedTo
  rcases state with connected | ⟨-, connected⟩
  · exact connected
  · rw [closed] at connected
    cases connected

theorem Lasts.of_control
    (same : later.control = net.control) : Lasts net later :=
  fun i isOpen => (open_of_control same i).2 isOpen

theorem lasts_handOut
    {ident : Nat}
    (added : (net.setIdent sock ident).addRef pid sock = some later) :
    Lasts net later := by
  intro i isOpen
  unfold Net.addRef at added
  rw [Option.map_eq_some_iff] at added
  obtain ⟨at', -, rfl⟩ := added
  exact lasts_modifySock (fun isOpen => isOpen) i isOpen

/-- Only a process that gives up descriptors lets sockets go. -/
theorem exec_lasts
    (wired : net.Wired)
    {op : Op}
    (admissible : net.Admissible op)
    {answer : Except NetError Answer}
    (done : net.exec op = some (later, answer)) :
    Lasts net later ∨ ∃ pid, RefSteps pid net later := by
  cases op with
  | opened pid host family kind ident =>
      left
      rcases opened_cases done with ⟨rfl, -⟩ | ⟨sock, isFree, -, added⟩
      · exact fun _ isOpen => isOpen
      · exact (lasts_taken isFree host family kind).trans (lasts_handOut added)
  | bind sock addr =>
      cases done
      exact .inl (Lasts.relabels (net.relabels_bind sock addr).1)
  | listen sock backlog =>
      cases done
      exact .inl (Lasts.relabels (net.relabels_listen sock backlog))
  | connect sock destHost dest =>
      cases done
      left
      rcases wired.connect_cases sock destHost dest with ⟨relabels, -⟩ |
          ⟨middle, far, listener, farLocal, nearLocal, relabels, isFree, -, -,
            made⟩
      · exact Lasts.relabels relabels
      · have joined := (middle.farTaken sock far destHost).lasts_joined sock far
          listener farLocal nearLocal
        have taken := lasts_taken isFree destHost (middle.socks sock).family
          (middle.socks sock).kind
        simp only [made]
        exact ((Lasts.relabels relabels).trans taken).trans joined
  | connectDgram sock dest =>
      cases done
      exact .inl (Lasts.relabels (net.relabels_connectDgram sock dest))
  | accept pid listener ident =>
      left
      rcases wired.accepted_cases done with ⟨rfl, -⟩ |
          ⟨far, rest, -, -, -, -, added⟩
      · exact fun _ isOpen => isOpen
      · exact (lasts_modifySock fun isOpen => isOpen).trans
          (lasts_handOut added)
  | send sock data =>
      cases done
      exact .inl (.of_control (control_send net sock data))
  | recv sock room peek =>
      cases done
      exact .inl (.of_control (control_recv net sock room peek))
  | sendDgram sock dest data =>
      cases done
      left
      rcases net.sendDgram_net sock dest data with relabels |
          ⟨middle, destHost, dest', relabels, sent⟩
      · exact Lasts.relabels relabels
      · simp only [sent]
        exact (Lasts.relabels relabels).trans
          (.of_control (control_sendTo middle sock destHost dest' data))
  | recvDgram sock room peek =>
      cases done
      exact .inl (.of_control (control_recvDgram net sock room peek))
  | shutdown sock read write =>
      cases done
      left
      intro i isOpen
      unfold Sock.Open at isOpen ⊢
      rcases net.shutdown_net sock read write with same |
          ⟨-, middle, half, rest⟩
      · simpa only [answering, same] using isOpen
      have middleState : (middle.socks i).state = (net.socks i).state := by
        rcases half with ⟨-, rfl⟩ | ⟨-, rfl⟩
        · rfl
        · exact (net.shutdownRead_socks sock i).2.2.2
      have laterState : ((net.shutdown sock read write).1.socks i).state =
          (middle.socks i).state := by
        rcases rest with ⟨-, same⟩ | same
        · rw [same]
          unfold Net.shutdownWrite
          have marked : ((middle.modifySock sock .shutWrite).socks i).state =
              (middle.socks i).state := by
            rw [modifySock_socks]
            split
            · next isSock => subst isSock; rfl
            · rfl
          split
          · exact marked
          · exact (fields_of_control (control_deliver _ _ _ _) i).1.trans marked
        · rw [same]
      simp only [laterState, middleState]
      exact isOpen
  | duplicated pid sock =>
      simp only [Net.exec, Option.map_eq_some_iff] at done
      obtain ⟨net', added, same⟩ := done
      cases same
      exact .inr ⟨pid, .single
        (.gain (Linked.refs_of_held wired admissible) added)⟩
  | closed pid sock =>
      simp only [Net.exec, Option.some.injEq, Prod.mk.injEq] at done
      obtain ⟨rfl, -⟩ := done
      exact .inr ⟨pid, .single (.drop admissible)⟩
  | adopted pid idents =>
      simp only [Net.exec, Option.map_eq_some_iff] at done
      obtain ⟨net', adopted, same⟩ := done
      cases same
      exact .inr ⟨pid, refSteps_adoptInherited wired adopted⟩
  | died pid =>
      simp only [Net.exec, Option.some.injEq, Prod.mk.injEq] at done
      obtain ⟨rfl, -⟩ := done
      exact .inr ⟨pid, (refSteps_processDied wired pid).1⟩
  | advance now =>
      simp only [Net.exec, Option.some.injEq, Prod.mk.injEq] at done
      obtain ⟨rfl, -⟩ := done
      exact .inl (.of_control (control_advance net now))

/-! ## Edges -/

/-- A socket that became readable has a new event to show for it. -/
def RdAnnounced (net later : Net) (i : SockId) : Prop :=
  net.readable i = false → later.readable i = true →
    (net.socks i).rdEvents < (later.socks i).rdEvents

/-- A socket that became writable has a new event to show for it. -/
def WrAnnounced (net later : Net) (i : SockId) : Prop :=
  net.writable i = false → later.writable i = true →
    (net.socks i).wrEvents < (later.socks i).wrEvents

/-- A shutdown of a connected socket shuts the halves it is asked to, and tells
the socket nothing. -/
theorem shutdown_self
    (wired : net.Wired)
    (connected : (net.socks sock).state = .connected)
    (read write : Bool) :
    ((net.shutdown sock read write).1.socks sock).state = .connected ∧
      ((net.shutdown sock read write).1.socks sock).shutRd =
        ((net.socks sock).shutRd || read) ∧
      ((net.shutdown sock read write).1.socks sock).shutWr =
        ((net.socks sock).shutWr || write) ∧
      (net.shutdown sock read write).1.events sock = net.events sock := by
  obtain ⟨peer, linkedTo, -, apart, -⟩ :=
    Linked.paired wired sock (.inl connected)
  have first : ∃ d, (if read = true then net.shutdownRead sock
      else net).socks sock = d ∧ d.state = .connected ∧
      d.shutRd = ((net.socks sock).shutRd || read) ∧
      d.shutWr = (net.socks sock).shutWr ∧
      d.rdEvents = (net.socks sock).rdEvents ∧
      d.wrEvents = (net.socks sock).wrEvents ∧ d.farEnd = some peer := by
    refine ⟨_, rfl, ?_⟩
    unfold Net.shutdownRead
    rw [linkedTo]
    cases read with
    | false => simp [linkedTo, connected]
    | true =>
        simp only [if_true]
        rw [modifySock_socks_of_ne _ _ apart, modifySock_socks_self]
        simp [Sock.shutRead, linkedTo, connected]
  obtain ⟨d, isFirst, state, shutRd, shutWr, rdEvents, wrEvents, farEnd⟩ :=
    first
  unfold Net.shutdown
  rw [if_neg (not_not.2 connected)]
  dsimp only
  generalize (if read = true then net.shutdownRead sock else net) = middle
    at isFirst ⊢
  split
  · next asked =>
      obtain ⟨rfl, still⟩ := asked
      have written : middle.shutdownWrite sock =
          ((middle.modifySock sock .shutWrite).deliver (middle.socks sock).host
            peer .fin).1 := by
        unfold Net.shutdownWrite
        rw [isFirst, farEnd]
      obtain ⟨d', socks, -⟩ := (middle.modifySock sock .shutWrite).deliver_socks
        (middle.socks sock).host peer .fin
      have record : (middle.shutdownWrite sock).socks sock = d.shutWrite := by
        rw [written, socks, Function.update_of_ne apart, modifySock_socks_self,
          isFirst]
      unfold events
      rw [record, ← rdEvents, ← wrEvents, Bool.or_true]
      exact ⟨state, shutRd, rfl, rfl⟩
  · next unasked =>
      unfold events
      rw [isFirst, shutRd, rdEvents, wrEvents]
      refine ⟨state, rfl, ?_, rfl⟩
      rw [shutWr]
      rw [isFirst, shutWr] at unasked
      cases write with
      | false => rw [Bool.or_false]
      | true => simpa using unasked

/-- A socket that is not ready has no shutdown to answer for, unless it is
connected. -/
theorem exec_shutdown_unconnected
    {read write : Bool}
    (apart : (net.socks sock).state ≠ .connected)
    {answer : Except NetError Answer}
    (done : net.exec (.shutdown sock read write) = some (later, answer)) :
    later = net := by
  cases done
  unfold Net.shutdown
  rw [if_pos apart]

/-- When a call announces that a stream socket in use became readable. -/
theorem rdAnnounced_iff
    (reachable : system.Reachable net)
    {op : Op}
    (admissible : net.Admissible op)
    {answer : Except NetError Answer}
    (done : net.exec op = some (later, answer))
    {i : SockId}
    (used : (net.socks i).state ≠ .free)
    (stream : (net.socks i).kind = .stream)
    (kept : (later.socks i).Open) :
    RdAnnounced net later i ↔
      net.readable i = true ∨
        ¬((net.socks i).state = .connected ∧ op.ShutsRead i) := by
  have wired := reachable_wired reachable
  have heeds := Heeds.exec reachable admissible done
  by_cases was : net.readable i = true
  · exact iff_of_true (fun notReady => by simp [was] at notReady) (.inl was)
  have isOpen : (net.socks i).Open := by
    refine ⟨used, fun closed => was ?_⟩
    rw [readable_iff_hasInput stream, closed]
    trivial
  rw [or_iff_right was]
  constructor
  · rintro announced ⟨connected, shuts⟩
    cases op with
    | shutdown sock read write =>
        obtain ⟨rfl, rfl⟩ := shuts
        cases done
        obtain ⟨state, shutRd, -, events⟩ :=
          shutdown_self wired connected true write
        have ready : (net.shutdown i true write).1.readable i = true := by
          rw [readable_iff_hasInput ((heeds.kind i isOpen kept).trans stream)]
          rw [state]
          exact .inr (.inr (shutRd.trans (Bool.or_true _)))
        have bumped := announced (by simpa using was) ready
        exact absurd (congrArg Prod.fst events) bumped.ne'
    | _ => exact shuts
  · intro loud _ ready
    by_cases connected : (net.socks i).state = .connected
    · exact (heeds.read i isOpen kept stream (fun shuts => loud
        ⟨connected, shuts⟩) ready).resolve_left was
    · cases op with
      | shutdown sock read write =>
          by_cases self : sock = i
          · subst self
            rw [exec_shutdown_unconnected connected done] at ready
            exact absurd ready was
          · exact (heeds.read i isOpen kept stream
              (fun shuts => self shuts.1.symm) ready).resolve_left was
      | _ =>
          exact (heeds.read i isOpen kept stream id ready).resolve_left was

/-- When a call announces that a stream socket in use became writable. -/
theorem wrAnnounced_iff
    (reachable : system.Reachable net)
    {op : Op}
    (admissible : net.Admissible op)
    {answer : Except NetError Answer}
    (done : net.exec op = some (later, answer))
    {i : SockId}
    (used : (net.socks i).state ≠ .free)
    (stream : (net.socks i).kind = .stream)
    (kept : (later.socks i).Open) :
    WrAnnounced net later i ↔ net.writable i = true ∨ ¬op.ShutsWrite i := by
  have wired := reachable_wired reachable
  have heeds := Heeds.exec reachable admissible done
  by_cases was : net.writable i = true
  · exact iff_of_true (fun notReady => by simp [was] at notReady) (.inl was)
  have connected : (net.socks i).state = .connected := by
    by_contra apart
    exact was (writable_iff_answers.2 (.inl apart))
  have isOpen : (net.socks i).Open := ⟨used, by rw [connected]; decide⟩
  rw [or_iff_right was]
  constructor
  · intro announced shuts
    cases op with
    | shutdown sock read write =>
        obtain ⟨rfl, rfl⟩ := shuts
        cases done
        obtain ⟨-, -, shutWr, events⟩ := shutdown_self wired connected read true
        have ready : (net.shutdown i read true).1.writable i = true :=
          writable_iff_answers.2 (.inr (.inl (shutWr.trans (Bool.or_true _))))
        have bumped := announced (by simpa using was) ready
        exact absurd (congrArg Prod.snd events) bumped.ne'
    | _ => exact shuts
  · intro loud _ ready
    exact (heeds.write i isOpen kept stream loud ready).resolve_left was

/-- What a socket whose last descriptor was closed has to show, while its far
end is in use. -/
theorem events_of_closed
    (wired : net.Wired)
    {op : Op}
    (admissible : net.Admissible op)
    {answer : Except NetError Answer}
    (done : net.exec op = some (later, answer))
    {i : SockId}
    (isOpen : (net.socks i).Open)
    (closed : (later.socks i).state = .closed) :
    later.events i = net.events i := by
  rcases exec_lasts wired admissible done with lasts | ⟨pid, steps⟩
  · exact absurd closed (lasts i isOpen).2
  · exact events_of_letGo wired steps closed

theorem Wired.stream_of_closed
    (wired : net.Wired)
    {i : SockId}
    (closed : (net.socks i).state = .closed) :
    net.readable i = true ∧ net.writable i = true := by
  constructor
  · rw [readable_iff_hasInput (Linked.streams wired i (.inr (.inr closed)))]
    rw [closed]
    trivial
  · exact writable_iff_answers.2 (.inl (by rw [closed]; decide))

/-- Nobody is left to be told about a socket whose last descriptor was closed:
it became ready unannounced, unless it was ready. -/
theorem announced_of_closed
    (reachable : system.Reachable net)
    {op : Op}
    (admissible : net.Admissible op)
    {answer : Except NetError Answer}
    (done : net.exec op = some (later, answer))
    {i : SockId}
    (used : (net.socks i).state ≠ .free)
    (closed : (later.socks i).state = .closed) :
    (RdAnnounced net later i ↔ net.readable i = true) ∧
      (WrAnnounced net later i ↔ net.writable i = true) := by
  have wired := reachable_wired reachable
  obtain ⟨canRead, canWrite⟩ :=
    (wired.exec admissible done).stream_of_closed closed
  constructor
  · constructor
    · intro announced
      by_contra was
      have isOpen : (net.socks i).Open := by
        refine ⟨used, fun wasClosed => was ?_⟩
        exact (wired.stream_of_closed wasClosed).1
      have same := events_of_closed wired admissible done isOpen closed
      have bumped := announced (by simpa using was) canRead
      exact absurd (congrArg Prod.fst same) bumped.ne'
    · intro was notReady
      rw [was] at notReady
      cases notReady
  · constructor
    · intro announced
      by_contra was
      have isOpen : (net.socks i).Open := by
        refine ⟨used, fun wasClosed => was ?_⟩
        exact (wired.stream_of_closed wasClosed).2
      have same := events_of_closed wired admissible done isOpen closed
      have bumped := announced (by simpa using was) canWrite
      exact absurd (congrArg Prod.snd same) bumped.ne'
    · intro was notReady
      rw [was] at notReady
      cases notReady

end Net
end Derp
