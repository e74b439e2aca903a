import Derp.Net.Wiring

/-!
# The slots of a run

A listener's queue is first in, first out over its whole life, and when every
process has died every slot is free again.
-/

namespace Derp

/-- A socket that is in use and not part of a connection. -/
def Sock.Unlinked (d : Sock) : Prop :=
  d.state = .new ∨ d.state = .bound ∨ d.state = .listening

namespace Net

variable
  {net later : Net}
  {sock listener far : SockId}
  {pid : Nat}

/-! ## Queues over a run -/

/-- The connections made on each listener and those it handed out, in order,
since its slot was taken. -/
structure Ledger where
  made : SockId → List SockId
  accepted : SockId → List SockId

namespace Ledger

def empty : Ledger where
  made := fun _ => []
  accepted := fun _ => []

/-- The listener a connect reaches. -/
def reached
    (net : Net)
    (sock : SockId)
    (destHost : Nat)
    (dest : Addr) : Option SockId :=
  net.findListener (net.socks sock).kind (net.socks sock).family destHost dest

/-- Enter a call and its answer. -/
def record (net : Net) (ledger : Ledger) : Event → Ledger
  | (.opened .., .ok (.sock sock)) =>
      { made := Function.update ledger.made sock []
        accepted := Function.update ledger.accepted sock [] }
  | (.connect sock destHost dest, .ok (.sock far)) =>
      match reached net sock destHost dest with
      | none => ledger
      | some listener =>
          { ledger with
            made := Function.update ledger.made listener
              (ledger.made listener ++ [far]) }
  | (.accept _ listener _, .ok (.sock far)) =>
      { ledger with
        accepted := Function.update ledger.accepted listener
          (ledger.accepted listener ++ [far]) }
  | _ => ledger

/-- What was made is what was handed out, then what is queued. -/
def Balanced (net : Net) (ledger : Ledger) : Prop :=
  ∀ l, (net.socks l).Unlinked →
    ledger.made l = ledger.accepted l ++ (net.socks l).backlog

end Ledger

/-- The network with the ledger of its run. -/
def ledgered : Transition (Net × Ledger) Event where
  init := fun state => system.init state.1 ∧ state.2 = .empty
  step := fun state event later =>
    system.step state.1 event later.1 ∧
      later.2 = state.2.record state.1 event

/-- A step that makes no connection and takes no slot leaves far ends alone,
and the queues of unlinked sockets. -/
structure KeepsLinks (net later : Net) : Prop where
  unlinked : ∀ i, (later.socks i).Unlinked → (net.socks i).Unlinked
  backlog : ∀ i, (later.socks i).Unlinked →
    (later.socks i).backlog = (net.socks i).backlog
  farEnd : ∀ i, (later.socks i).farEnd = (net.socks i).farEnd
  kind : ∀ i, (later.socks i).kind = (net.socks i).kind

theorem KeepsLinks.refl (net : Net) : KeepsLinks net net :=
  ⟨fun _ => id, fun _ _ => rfl, fun _ => rfl, fun _ => rfl⟩

/-- A step that changes no socket. -/
theorem KeepsLinks.of_socks
    (same : later.socks = net.socks) : KeepsLinks net later := by
  constructor <;> intro i <;> rw [same]
  case unlinked => exact id
  case backlog => exact fun _ => rfl

theorem KeepsLinks.trans
    {middle : Net}
    (first : KeepsLinks net middle)
    (second : KeepsLinks middle later) : KeepsLinks net later where
  unlinked := fun i isUnlinked => first.unlinked i (second.unlinked i isUnlinked)
  backlog := fun i isUnlinked => (second.backlog i isUnlinked).trans
    (first.backlog i (second.unlinked i isUnlinked))
  farEnd := fun i => (second.farEnd i).trans (first.farEnd i)
  kind := fun i => (second.kind i).trans (first.kind i)

theorem KeepsLinks.modifySock
    {change : Sock → Sock}
    (kept : ((change (net.socks sock)).Unlinked →
        (net.socks sock).Unlinked) ∧
      (change (net.socks sock)).backlog = (net.socks sock).backlog ∧
      (change (net.socks sock)).farEnd = (net.socks sock).farEnd ∧
      (change (net.socks sock)).kind = (net.socks sock).kind) :
    KeepsLinks net (net.modifySock sock change) := by
  obtain ⟨unlinked, backlog, farEnd, kind⟩ := kept
  constructor <;> intro i <;> rw [modifySock_socks] <;> split
  case unlinked.isTrue same => rw [same]; exact unlinked
  case unlinked.isFalse => exact id
  case backlog.isTrue same => rw [same]; exact fun _ => backlog
  case backlog.isFalse => exact fun _ => rfl
  case farEnd.isTrue same => rw [same]; exact farEnd
  case farEnd.isFalse => rfl
  case kind.isTrue same => rw [same]; exact kind
  case kind.isFalse => rfl

theorem KeepsLinks.of_control
    (same : later.control = net.control) : KeepsLinks net later := by
  have record : ∀ i, (later.socks i).control = (net.socks i).control :=
    fun i => congrArg (fun view : Net => view.socks i) same
  constructor <;> intro i
  case unlinked =>
    have state := congrArg Sock.state (record i)
    change (later.socks i).state = (net.socks i).state at state
    unfold Sock.Unlinked
    rw [state]
    exact id
  case backlog =>
    have backlog := congrArg Sock.backlog (record i)
    exact fun _ => backlog
  case farEnd =>
    have farEnd := congrArg Sock.farEnd (record i)
    exact farEnd
  case kind =>
    have kind := congrArg Sock.kind (record i)
    exact kind

theorem KeepsLinks.relabels
    (relabels : Relabels sock net later) : KeepsLinks net later := by
  induction relabels with
  | refl => exact KeepsLinks.refl _
  | hosts hosts _ inductionHypothesis =>
      exact inductionHypothesis.trans (KeepsLinks.of_socks rfl)
  | named addr _ _ inductionHypothesis =>
      refine inductionHypothesis.trans ?_
      exact KeepsLinks.modifySock ⟨id, rfl, rfl, rfl⟩
  | bound addr _ state inductionHypothesis =>
      refine inductionHypothesis.trans ?_
      exact KeepsLinks.modifySock ⟨fun _ => .inl state, rfl, rfl, rfl⟩
  | listening backlogMax _ state _ inductionHypothesis =>
      refine inductionHypothesis.trans ?_
      exact KeepsLinks.modifySock ⟨fun _ => .inr state, rfl, rfl, rfl⟩
  | peer dest _ inductionHypothesis =>
      refine inductionHypothesis.trans ?_
      exact KeepsLinks.modifySock ⟨id, rfl, rfl, rfl⟩

theorem KeepsLinks.statesOnly
    (same : StatesOnly net later) : KeepsLinks net later where
  unlinked := by
    intro i isUnlinked
    have state := same.states i
    unfold Sock.Unlinked at *
    grind
  backlog := fun i _ => congrFun same.backlogs i
  farEnd := by
    intro i
    have record := congrArg Sock.farEnd (same.socks i)
    exact record
  kind := by
    intro i
    have record := congrArg Sock.kind (same.socks i)
    exact record

theorem KeepsLinks.setFdref
    (net : Net)
    (at' pid : Nat)
    (sock : SockId)
    (count : Nat) : KeepsLinks net (net.setFdref at' pid sock count) :=
  .of_socks rfl

theorem KeepsLinks.addRef
    (added : net.addRef pid sock = some later) : KeepsLinks net later := by
  unfold Net.addRef at added
  rw [Option.map_eq_some_iff] at added
  obtain ⟨at', -, rfl⟩ := added
  dsimp only
  refine (KeepsLinks.setFdref net at' pid sock
    ((net.fdrefs at').count + 1)).trans ?_
  exact KeepsLinks.modifySock ⟨id, rfl, rfl, rfl⟩

theorem KeepsLinks.dropRef (net : Net) (pid : Nat) (sock : SockId) :
    KeepsLinks net (net.dropRef pid sock) := by
  unfold Net.dropRef
  split
  · exact KeepsLinks.refl net
  · next at' _ =>
      have lost : KeepsLinks net ((net.setFdref at' pid sock
          ((net.fdrefs at').count - 1)).modifySock sock .loseRef) := by
        refine (KeepsLinks.setFdref net at' pid sock
          ((net.fdrefs at').count - 1)).trans ?_
        exact KeepsLinks.modifySock ⟨id, rfl, rfl, rfl⟩
      dsimp only
      split
      · exact lost.trans (KeepsLinks.statesOnly (StatesOnly.release _ sock))
      · exact lost

theorem KeepsLinks.refSteps
    (steps : RefSteps pid net later) : KeepsLinks net later := by
  induction steps with
  | refl => exact KeepsLinks.refl net
  | tail _ step inductionHypothesis =>
      refine inductionHypothesis.trans ?_
      cases step with
      | gain _ added => exact KeepsLinks.addRef added
      | drop _ => exact KeepsLinks.dropRef _ _ _

theorem KeepsLinks.shutdown
    (net : Net)
    (sock : SockId)
    (read write : Bool) :
    KeepsLinks net (net.shutdown sock read write).1 := by
  rcases net.shutdown_net sock read write with same |
      ⟨-, middle, half, rest⟩
  · rw [same]
    exact KeepsLinks.refl net
  have first : KeepsLinks net middle := by
    rcases half with ⟨-, rfl⟩ | ⟨-, rfl⟩
    · exact KeepsLinks.refl _
    · unfold shutdownRead
      split
      · exact KeepsLinks.modifySock ⟨id, rfl, rfl, rfl⟩
      · refine KeepsLinks.trans ?_
          (KeepsLinks.of_control (control_writeEvent _ _))
        exact KeepsLinks.modifySock ⟨id, rfl, rfl, rfl⟩
  refine first.trans ?_
  rcases rest with ⟨-, written⟩ | same
  · rw [written]
    unfold shutdownWrite
    split
    · exact KeepsLinks.modifySock ⟨id, rfl, rfl, rfl⟩
    · refine KeepsLinks.trans ?_
        (KeepsLinks.of_control (control_deliver _ _ _ _))
      exact KeepsLinks.modifySock ⟨id, rfl, rfl, rfl⟩
  · rw [same]
    exact KeepsLinks.refl middle

theorem KeepsLinks.sendDgram
    (net : Net)
    (sock : SockId)
    (dest : Option (Nat × Addr))
    (data : List UInt8) :
    KeepsLinks net (net.sendDgram sock dest data).1 := by
  rcases net.sendDgram_net sock dest data with relabels |
      ⟨middle, destHost, dest', relabels, sent⟩
  · exact KeepsLinks.relabels relabels
  · rw [sent]
    exact (KeepsLinks.relabels relabels).trans
      (KeepsLinks.of_control
        (control_sendTo middle sock destHost dest' data))

namespace Ledger

variable {ledger : Ledger}

theorem Balanced.keepsLinks
    (balanced : Balanced net ledger)
    (kept : KeepsLinks net later) : Balanced later ledger := by
  intro l unlinked
  rw [kept.backlog l unlinked]
  exact balanced l (kept.unlinked l unlinked)

theorem Balanced.opened
    (balanced : Balanced net ledger)
    {host ident : Nat}
    {family : Family}
    {kind : Kind}
    {answer : Except NetError Answer}
    (done : Net.handOut pid ident (net.socket host family kind) =
      some (later, answer)) :
    Balanced later
      (ledger.record net (.opened pid host family kind ident, answer)) := by
  rcases opened_cases done with ⟨rfl, e, rfl⟩ | ⟨sock, -, rfl, added⟩
  · exact balanced
  · have kept := KeepsLinks.addRef added
    have taken := net.control_taken sock host family kind
    intro l unlinked
    have between := kept.unlinked l unlinked
    have before := (KeepsLinks.of_control taken).unlinked l between
    rw [kept.backlog l unlinked]
    refine Eq.trans ?_ (congrArg _
      ((KeepsLinks.of_control taken).backlog l between).symm)
    by_cases same : l = sock
    · subst same
      simp [record, modifySock_socks_self, Sock.fresh]
    · rw [modifySock_socks_of_ne _ _ same]
      rw [modifySock_socks_of_ne _ _ same] at before
      simp only [record, Function.update_of_ne same]
      exact balanced l before

theorem Balanced.accepted
    (wired : net.Wired)
    (balanced : Balanced net ledger)
    {ident : Nat}
    {answer : Except NetError Answer}
    (done : Net.handOut pid ident (net.accept listener) =
      some (later, answer)) :
    Balanced later
      (ledger.record net (.accept pid listener ident, answer)) := by
  rcases wired.accepted_cases done with ⟨rfl, e, rfl⟩ |
      ⟨far, rest, listening, queued, rfl, -, added⟩
  · exact balanced
  · have kept := KeepsLinks.addRef added
    intro l unlinked
    have between := kept.unlinked l unlinked
    rw [kept.backlog l unlinked]
    change ((net.modifySock listener
      (.setBacklog rest)).socks l).Unlinked at between
    change _ = _ ++ ((net.modifySock listener (.setBacklog rest)).socks
      l).backlog
    by_cases same : l = listener
    · subst same
      have before := balanced l (.inr (.inr listening))
      rw [queued] at before
      simp [record, modifySock_socks_self, Sock.setBacklog, before]
    · rw [modifySock_socks_of_ne _ _ same] at between ⊢
      simp only [record, Function.update_of_ne same]
      exact balanced l between

theorem Balanced.connected
    (wired : net.Wired)
    (balanced : Balanced net ledger)
    (destHost : Nat)
    (dest : Addr) :
    Balanced (net.connect sock destHost dest).1
      (ledger.record net (.connect sock destHost dest,
        (net.connect sock destHost dest).2.map .sock)) := by
  rcases wired.connect_cases sock destHost dest with
      ⟨relabels, e, failed⟩ |
      ⟨middle, far, listener, farLocal, nearLocal, relabels, isFree, joinable,
        found, made⟩
  · rw [failed]
    exact balanced.keepsLinks (KeepsLinks.relabels relabels)
  have between := balanced.keepsLinks (KeepsLinks.relabels relabels)
  have recorded : ledger.record net (.connect sock destHost dest,
      (Except.ok far : Except NetError SockId).map .sock) =
      { ledger with
        made := Function.update ledger.made listener
          (ledger.made listener ++ [far]) } := by
    have isReached : reached net sock destHost dest = some listener := found
    simp [record, isReached, Except.map]
  have apart : listener ≠ sock := by
    rintro rfl
    have unlinked := joinable.unlinked
    rw [joinable.listening] at unlinked
    rcases unlinked with h | h <;> cases h
  have apartFar : listener ≠ far := by
    rintro rfl
    have isNew := joinable.isNew
    rw [joinable.listening] at isNew
    cases isNew
  rw [made, recorded]
  intro l isUnlinked
  unfold joined at isUnlinked ⊢
  rw [countConnection_socks] at isUnlinked ⊢
  have notSock : l ≠ sock := by
    rintro rfl
    rw [modifySock_socks_of_ne _ _ apart.symm,
      modifySock_socks_self] at isUnlinked
    rcases isUnlinked with h | h | h <;> cases h
  have notFar : l ≠ far := by
    rintro rfl
    rw [modifySock_socks_of_ne _ _ apartFar.symm,
      modifySock_socks_of_ne _ _ notSock, modifySock_socks_self] at isUnlinked
    rcases isUnlinked with h | h | h <;> cases h
  have control := @farTaken_control middle far l notFar sock destHost
  have state := congrArg Sock.state control
  have queue := congrArg Sock.backlog control
  rw [modifySock_socks] at isUnlinked ⊢
  by_cases same : l = listener
  · subst same
    have before := between l (.inr (.inr (state.symm.trans joinable.listening)))
    rw [if_pos rfl, modifySock_socks_of_ne _ _ notSock,
      modifySock_socks_of_ne _ _ notFar]
    simp only [Function.update_self, before, Sock.enqueue, List.append_assoc]
    exact congrArg (fun queue => ledger.accepted l ++ (queue ++ [far]))
      queue.symm
  · rw [if_neg same, modifySock_socks_of_ne _ _ notSock,
      modifySock_socks_of_ne _ _ notFar] at isUnlinked ⊢
    simp only [Function.update_of_ne same]
    refine Eq.trans (between l ?_) (congrArg _ queue.symm)
    unfold Sock.Unlinked at *
    exact state ▸ isUnlinked

/-- Every call keeps the ledger balanced. -/
theorem Balanced.exec
    (wired : net.Wired)
    (balanced : Balanced net ledger)
    {op : Op}
    (admissible : net.Admissible op)
    {answer : Except NetError Answer}
    (done : net.exec op = some (later, answer)) :
    Balanced later (ledger.record net (op, answer)) := by
  cases op with
  | opened pid host family kind ident => exact balanced.opened done
  | bind sock addr =>
      cases done
      exact balanced.keepsLinks
        (KeepsLinks.relabels (net.relabels_bind sock addr).1)
  | listen sock backlog =>
      cases done
      exact balanced.keepsLinks
        (KeepsLinks.relabels (net.relabels_listen sock backlog))
  | connect sock destHost dest =>
      cases done
      exact balanced.connected wired destHost dest
  | connectDgram sock dest =>
      cases done
      exact balanced.keepsLinks
        (KeepsLinks.relabels (net.relabels_connectDgram sock dest))
  | accept pid listener ident => exact balanced.accepted wired done
  | send sock data =>
      cases done
      exact balanced.keepsLinks
        (KeepsLinks.of_control (control_send net sock data))
  | recv sock room peek =>
      cases done
      exact balanced.keepsLinks
        (KeepsLinks.of_control (control_recv net sock room peek))
  | sendDgram sock dest data =>
      cases done
      exact balanced.keepsLinks (KeepsLinks.sendDgram net sock dest data)
  | recvDgram sock room peek =>
      cases done
      exact balanced.keepsLinks
        (KeepsLinks.of_control (control_recvDgram net sock room peek))
  | shutdown sock read write =>
      cases done
      exact balanced.keepsLinks (KeepsLinks.shutdown net sock read write)
  | duplicated pid sock =>
      simp only [Net.exec, Option.map_eq_some_iff] at done
      obtain ⟨net', added, same⟩ := done
      cases same
      exact balanced.keepsLinks (KeepsLinks.addRef added)
  | closed pid sock =>
      simp only [Net.exec, Option.some.injEq, Prod.mk.injEq] at done
      obtain ⟨rfl, -⟩ := done
      exact balanced.keepsLinks (KeepsLinks.dropRef net pid sock)
  | adopted pid idents =>
      simp only [Net.exec, Option.map_eq_some_iff] at done
      obtain ⟨net', adopted, same⟩ := done
      cases same
      exact balanced.keepsLinks
        (KeepsLinks.refSteps (refSteps_adoptInherited wired adopted))
  | died pid =>
      simp only [Net.exec, Option.some.injEq, Prod.mk.injEq] at done
      obtain ⟨rfl, -⟩ := done
      exact balanced.keepsLinks
        (KeepsLinks.refSteps (refSteps_processDied wired pid).1)
  | advance now =>
      simp only [Net.exec, Option.some.injEq, Prod.mk.injEq] at done
      obtain ⟨rfl, -⟩ := done
      exact balanced.keepsLinks
        (KeepsLinks.of_control (control_advance net now))

end Ledger

/-! ## Descriptors over a run -/

/-- The process that may gain descriptors by a call. -/
def Op.gainer : Op → Option Nat
  | .opened pid .. => some pid
  | .accept pid .. => some pid
  | .duplicated pid _ => some pid
  | .adopted pid _ => some pid
  | _ => none

/-- The process that ends with a call. -/
def Op.victim : Op → Option Nat
  | .died pid => some pid
  | _ => none

/-- The processes that made descriptors since they last died. -/
def living (labels : List Event) : Nat → Bool :=
  labels.foldl (fun living event pid =>
    (living pid || event.1.gainer = some pid) &&
      event.1.victim ≠ some pid) fun _ => false

theorem held_of_fdrefs
    (same : later.fdrefs = net.fdrefs)
    (holder : Nat)
    (other : SockId) : later.held holder other = net.held holder other := by
  unfold Net.held
  rw [same]

theorem fdrefs_of_control
    (same : later.control = net.control) : later.fdrefs = net.fdrefs :=
  (StatesOnly.of_control same).fdrefs

theorem Relabels.fdrefs
    (relabels : Relabels sock net later) : later.fdrefs = net.fdrefs := by
  induction relabels with
  | refl => rfl
  | hosts hosts _ inductionHypothesis => exact inductionHypothesis
  | named addr _ _ inductionHypothesis => exact inductionHypothesis
  | bound addr _ _ inductionHypothesis => exact inductionHypothesis
  | listening backlogMax _ _ _ inductionHypothesis =>
      exact inductionHypothesis
  | peer dest _ inductionHypothesis => exact inductionHypothesis

/-- Handing out a pending socket gives others nothing. -/
theorem held_handOut
    (linked : net.Linked {sock} net.backlogs)
    {ident : Nat}
    (added : (net.setIdent sock ident).addRef pid sock = some later)
    {holder : Nat}
    (different : holder ≠ pid)
    (other : SockId) : later.held holder other = net.held holder other := by
  have isPending : sock ∈ ({sock} : Finset SockId) :=
    Finset.mem_singleton_self sock
  have gained := held_addRef (linked.setIdent isPending ident)
    (.inl isPending) added holder other
  rw [gained]
  simp only [different, false_and, if_false, Nat.add_zero]
  exact held_of_fdrefs (by rfl) holder other

theorem fdrefs_connect
    (net : Net)
    (sock : SockId)
    (destHost : Nat)
    (dest : Addr) :
    (net.connect sock destHost dest).1.fdrefs = net.fdrefs := by
  rcases net.connect_net sock destHost dest with ⟨e, relabels, -⟩ |
      ⟨listener, middle, relabels, -, -, -, -, linked⟩
  · exact relabels.fdrefs
  · rw [linked, ← relabels.fdrefs]
    rcases middle.link_net sock listener destHost dest with refused |
        ⟨far, farLocal, nearLocal, -, made⟩
    · rw [refused]
    · rw [made]
      have kept := fdrefs_of_control
        (control_discardFlight (middle.setIdent far 0) far)
      exact kept

theorem fdrefs_shutdown
    (net : Net)
    (sock : SockId)
    (read write : Bool) :
    (net.shutdown sock read write).1.fdrefs = net.fdrefs := by
  rcases net.shutdown_net sock read write with same |
      ⟨-, middle, half, rest⟩
  · rw [same]
  have first : middle.fdrefs = net.fdrefs := by
    rcases half with ⟨-, rfl⟩ | ⟨-, rfl⟩
    · rfl
    · unfold shutdownRead
      split <;> rfl
  rw [← first]
  rcases rest with ⟨-, written⟩ | same
  · rw [written]
    unfold shutdownWrite
    split
    · rfl
    · next peer _ =>
        have kept := fdrefs_of_control (control_deliver
          (middle.modifySock sock .shutWrite) (middle.socks sock).host peer
          .fin)
        exact kept
  · rw [same]

/-- Only a process's own calls give it descriptors. -/
theorem held_exec
    (wired : net.Wired)
    {op : Op}
    {answer : Except NetError Answer}
    (admissible : net.Admissible op)
    (done : net.exec op = some (later, answer))
    {holder : Nat}
    (notGainer : op.gainer ≠ some holder)
    (other : SockId) : later.held holder other ≤ net.held holder other := by
  cases op with
  | opened pid host family kind ident =>
      have different : holder ≠ pid := fun same => notGainer (by rw [same]; rfl)
      rcases opened_cases done with ⟨rfl, -⟩ | ⟨sock, isFree, -, added⟩
      · exact le_rfl
      · have linked := wired.taken isFree host family kind rfl
        rw [held_handOut linked added different]
        have kept := fdrefs_of_control
          (control_discardFlight (net.setIdent sock 0) sock)
        exact (held_of_fdrefs (by exact kept) holder other).le
  | accept pid listener ident =>
      have different : holder ≠ pid := fun same => notGainer (by rw [same]; rfl)
      rcases wired.accepted_cases done with ⟨rfl, -⟩ |
          ⟨far, rest, -, -, -, linked, added⟩
      · exact le_rfl
      · rw [held_handOut linked added different]
        exact (held_of_fdrefs (by rfl) holder other).le
  | bind sock addr =>
      cases done
      exact (held_of_fdrefs (net.relabels_bind sock addr).1.fdrefs _ _).le
  | listen sock backlog =>
      cases done
      exact (held_of_fdrefs (net.relabels_listen sock backlog).fdrefs _ _).le
  | connect sock destHost dest =>
      cases done
      exact (held_of_fdrefs (net.fdrefs_connect sock destHost dest) _ _).le
  | connectDgram sock dest =>
      cases done
      exact (held_of_fdrefs
        (net.relabels_connectDgram sock dest).fdrefs _ _).le
  | send sock data =>
      cases done
      exact (held_of_fdrefs
        (fdrefs_of_control (control_send net sock data)) _ _).le
  | recv sock room peek =>
      cases done
      exact (held_of_fdrefs
        (fdrefs_of_control (control_recv net sock room peek)) _ _).le
  | sendDgram sock dest data =>
      cases done
      refine (held_of_fdrefs ?_ _ _).le
      rcases net.sendDgram_net sock dest data with relabels |
          ⟨middle, destHost, dest', relabels, sent⟩
      · exact relabels.fdrefs
      · rw [← relabels.fdrefs, sent]
        exact fdrefs_of_control (control_sendTo middle sock destHost dest' data)
  | recvDgram sock room peek =>
      cases done
      exact (held_of_fdrefs
        (fdrefs_of_control (control_recvDgram net sock room peek)) _ _).le
  | shutdown sock read write =>
      cases done
      exact (held_of_fdrefs (net.fdrefs_shutdown sock read write) _ _).le
  | duplicated pid sock =>
      have different : holder ≠ pid := fun same => notGainer (by rw [same]; rfl)
      simp only [Net.exec, Option.map_eq_some_iff] at done
      obtain ⟨net', added, same⟩ := done
      cases same
      rw [held_addRef wired (.inr (Linked.refs_of_held wired admissible)) added]
      simp [different]
  | closed pid sock =>
      simp only [Net.exec, Option.some.injEq, Prod.mk.injEq] at done
      obtain ⟨rfl, -⟩ := done
      rw [held_dropRef wired admissible]
      exact Nat.sub_le _ _
  | adopted pid idents =>
      have different : holder ≠ pid := fun same => notGainer (by rw [same]; rfl)
      simp only [Net.exec, Option.map_eq_some_iff] at done
      obtain ⟨net', adopted, same⟩ := done
      cases same
      exact (held_refSteps wired (refSteps_adoptInherited wired adopted)
        different other).le
  | died pid =>
      simp only [Net.exec, Option.some.injEq, Prod.mk.injEq] at done
      obtain ⟨rfl, -⟩ := done
      obtain ⟨steps, emptied⟩ := refSteps_processDied wired pid
      by_cases same : holder = pid
      · rw [same, emptied]
        exact Nat.zero_le _
      · exact (held_refSteps wired steps same other).le
  | advance now =>
      simp only [Net.exec, Option.some.injEq, Prod.mk.injEq] at done
      obtain ⟨rfl, -⟩ := done
      exact (held_of_fdrefs
        (fdrefs_of_control (control_advance net now)) _ _).le

/-- Who does not live holds nothing. -/
def Survived (living : Nat → Bool) (net : Net) : Prop :=
  ∀ pid, living pid = false → ∀ sock, net.held pid sock = 0

theorem Survived.exec
    (wired : net.Wired)
    {labels : List Event}
    (survived : Survived (living labels) net)
    {event : Event}
    (step : system.step net event later) :
    Survived (living (labels ++ [event])) later := by
  obtain ⟨admissible, done⟩ := step
  intro pid dead sock
  unfold living at dead
  rw [List.foldl_append, List.foldl_cons, List.foldl_nil] at dead
  change ((living labels pid || event.1.gainer = some pid) &&
    event.1.victim ≠ some pid) = false at dead
  by_cases died : event.1.victim = some pid
  · obtain ⟨op, answer⟩ := event
    cases op with
    | died gone =>
        obtain rfl : gone = pid := Option.some.inj died
        simp only [Net.exec, Option.some.injEq, Prod.mk.injEq] at done
        obtain ⟨rfl, -⟩ := done
        exact (refSteps_processDied wired gone).2 sock
    | _ => cases died
  · simp only [died, ne_eq, not_false_eq_true, decide_true, Bool.and_true,
      Bool.or_eq_false_iff, decide_eq_false_iff_not] at dead
    have less := held_exec wired admissible done dead.2 sock
    rw [survived pid dead.1 sock] at less
    exact Nat.le_zero.mp less

/-- Where nobody holds a descriptor every slot is free. -/
theorem Wired.all_free
    (wired : net.Wired)
    (released : ∀ pid sock, net.held pid sock = 0)
    (i : SockId) : (net.socks i).state = .free := by
  have unreferenced : ∀ i, (net.socks i).refs = 0 := by
    intro i
    rw [Linked.counts wired i]
    apply Finset.sum_eq_zero
    intro at' within
    have holds := released (net.fdrefs at').pid i
    rw [held_eq_sum wired, Finset.sum_eq_zero_iff] at holds
    have := holds at' within
    unfold FdRef.shareOf at this
    unfold FdRef.share
    grind
  have noListener : ∀ l, (net.socks l).state ≠ .listening := by
    intro l listening
    rcases Linked.unreferenced wired l (unreferenced l) with
      h | h | h | ⟨l', listening', present⟩
    · cases h
    · rw [listening] at h
      cases h
    · rw [listening] at h
      cases h
    · have := (Linked.queued wired l' l listening' present).1
      rw [listening] at this
      cases this
  have gone : ∀ i, (net.socks i).state = .free ∨
      (net.socks i).state = .closed := by
    intro i
    rcases Linked.unreferenced wired i (unreferenced i) with
      h | h | h | ⟨l, listening, -⟩
    · cases h
    · exact .inl h
    · exact .inr h
    · exact absurd listening (noListener l)
  rcases gone i with free | closed
  · exact free
  · obtain ⟨j, -, -, -, other⟩ := Linked.paired wired i (.inr closed)
    have := gone j
    grind

/-! ## The slots of a run -/

/-- Who refers to whom, as a reader of the socket table sees it. -/
structure SlotsInOrder (net : Net) : Prop where
  refs : ∀ i, (net.socks i).refs =
    ∑ at' ∈ Finset.range maxFdrefs, (net.fdrefs at').share i
  ends : ∀ i,
    (net.socks i).state = .connected ∨ (net.socks i).state = .closed →
    ∃ j, (net.socks i).farEnd = some j ∧ (net.socks j).farEnd = some i ∧
      ((net.socks i).state = .closed → (net.socks j).state = .connected)
  queued : ∀ l, (net.socks l).state = .listening →
    (net.socks l).backlog.Nodup ∧ ∀ far ∈ (net.socks l).backlog,
      (net.socks far).state = .connected ∧ (net.socks far).refs = 0 ∧
        ∀ l', (net.socks l').state = .listening →
          far ∈ (net.socks l').backlog → l' = l
  free : ∀ i, (net.socks i).state = .free →
    (net.socks i).refs = 0 ∧
      (∀ l, (net.socks l).state = .listening → i ∉ (net.socks l).backlog) ∧
      ∀ j, (net.socks j).state ≠ .free → (net.socks j).farEnd ≠ some i

theorem Wired.slotsInOrder (wired : net.Wired) : SlotsInOrder net where
  refs := Linked.counts wired
  ends := by
    intro i state
    obtain ⟨j, there, back, -, other⟩ := Linked.paired wired i state
    refine ⟨j, there, back, ?_⟩
    grind
  queued := by
    intro l listening
    refine ⟨Linked.queueNodup wired l listening, ?_⟩
    intro far present
    obtain ⟨connected, refs, -, -⟩ :=
      Linked.queued wired l far listening present
    refine ⟨connected, refs, ?_⟩
    intro l' listening' present'
    exact Linked.queueUnique wired l' l far listening' listening present'
      present
  free := by
    intro i isFree
    refine ⟨(Linked.gone wired i (.inl isFree)).1, ?_, ?_⟩
    · intro l listening present
      have := (Linked.queued wired l i listening present).1
      rw [isFree] at this
      cases this
    · intro j used linked
      have paired := Linked.paired wired j
      have single := Linked.single wired j
      cases state : (net.socks j).state <;> grind

/-- In every run the slots are in order, every listener hands its connections
out in the order they were made, and once every process has died every slot is
free. -/
theorem slots_of_run
    {names : List (List UInt8)}
    {latencyNs : Nat}
    {labels : List Event}
    {ledger : Ledger}
    (run : ledgered.Run (zeroed names latencyNs, .empty) labels
      (net, ledger)) :
    SlotsInOrder net ∧
      (∀ l, (net.socks l).state = .listening →
        ledger.made l = ledger.accepted l ++ (net.socks l).backlog) ∧
      ((∀ pid, living labels pid = false) →
        ∀ i, (net.socks i).state = .free) := by
  have kept : ∀ {labels : List Event} {state : Net × Ledger},
      ledgered.Run (zeroed names latencyNs, .empty) labels state →
      state.1.Wired ∧ Ledger.Balanced state.1 state.2 ∧
        Survived (living labels) state.1 := by
    intro labels state run
    induction run with
    | refl =>
        refine ⟨wired_zeroed names latencyNs, ?_, ?_⟩
        · obtain ⟨hosts, same⟩ := zeroed_net names latencyNs
          intro l _
          rw [same]
          rfl
        · obtain ⟨hosts, same⟩ := zeroed_net names latencyNs
          intro pid _ sock
          rw [held_eq_sum (wired_zeroed names latencyNs), same]
          apply Finset.sum_eq_zero
          intro at' _
          unfold FdRef.shareOf
          split <;> rfl
    | @tail middle later labels event _ step inductionHypothesis =>
        obtain ⟨wired, balanced, survived⟩ := inductionHypothesis
        obtain ⟨moved, recorded⟩ := step
        refine ⟨wired.exec moved.1 moved.2, ?_, survived.exec wired moved⟩
        rw [recorded]
        exact balanced.exec wired moved.1 moved.2
  obtain ⟨wired, balanced, survived⟩ := kept run
  refine ⟨wired.slotsInOrder, ?_, ?_⟩
  · intro l listening
    exact balanced l (.inr (.inr listening))
  · intro dead
    exact wired.all_free fun pid => survived pid (dead pid)

/-- A process opens a socket, listens on it and dies. -/
theorem slots_of_run_listener :
    ∃ (net : Net) (ledger : Ledger), SlotsInOrder net ∧
      (∀ l, (net.socks l).state = .listening →
        ledger.made l = ledger.accepted l ++ (net.socks l).backlog) ∧
      ∀ i, (net.socks i).state = .free := by
  have extend : ∀ {labels : List Event} {net later : Net} {ledger : Ledger}
      {op : Op} {answer : Except NetError Answer},
      ledgered.Run (zeroed [] 0, .empty) labels (net, ledger) →
      net.exec op = some (later, answer) → net.Admissible op →
      ledgered.Run (zeroed [] 0, .empty) (labels ++ [(op, answer)])
        (later, ledger.record net (op, answer)) :=
    fun run done admissible => run.tail ⟨⟨admissible, done⟩, rfl⟩
  obtain ⟨⟨first, answer⟩, opened⟩ := Option.isSome_iff_exists.mp
    (by decide +kernel : ((zeroed [] 0).exec
      (.opened 1 0 .inet .stream 7)).isSome = true)
  have afterOpened := extend
    (Transition.Run.refl (zeroed [] 0, Ledger.empty)) opened trivial
  have listened : first.exec (.listen 0 5) = some (_, _) := rfl
  have afterListen := extend afterOpened listened trivial
  have died : (first.listen 0 5).1.exec (.died 1) =
    some ((first.listen 0 5).1.processDied 1, .ok .done) := rfl
  obtain ⟨inOrder, balanced, released⟩ :=
    slots_of_run (extend afterListen died trivial)
  refine ⟨_, _, inOrder, balanced, released ?_⟩
  intro pid
  by_cases same : pid = 1 <;> simp [living, Op.gainer, Op.victim, same]

/-- A descriptor is closed by a process that holds it; references are added by
anybody, to anything. -/
def closesOwn (net : Net) : Op → Bool
  | .closed pid sock => 0 < net.held pid sock
  | _ => true

def Counted (net : Net) (op : Op) : Prop := net.closesOwn op = true

instance (net : Net) (op : Op) : Decidable (net.Counted op) :=
  inferInstanceAs (Decidable (net.closesOwn op = true))

/-- A queued connection, which nobody has accepted, gets a reference, and loses
it again. -/
def referenceToQueued : List Op :=
  [.opened 1 0 .inet .stream 7, .bind 0 (Addr.inet 0 80), .listen 0 5,
    .opened 2 0 .inet .stream 8, .connect 1 0 (Addr.inet loopback 80),
    .duplicated 1 2]

/-- References that are dropped by those who hold them are not enough: a queued
connection can be held, and once both ends are let go its slot is free in the
queue. -/
theorem slots_of_counted :
    (¬∀ net, (calls Counted).Reachable net → SlotsInOrder net) ∧
    ∃ net, (calls Counted).Reachable net ∧ (net.socks 0).state = .listening ∧
      2 ∈ (net.socks 0).backlog ∧ (net.socks 2).state = .free := by
  constructor
  · intro always
    obtain ⟨net, played, facts⟩ := Option.map_eq_some_iff.mp
      (by decide +kernel : (play Counted referenceToQueued (zeroed [[]] 0)).map
        (fun net => ((net.socks 0).state, (net.socks 0).backlog, (net.socks 2).refs)) =
          some (.listening, [2], 1))
    obtain ⟨listening, rest⟩ := Prod.mk.inj facts
    obtain ⟨backlog, refs⟩ := Prod.mk.inj rest
    have inOrder := always net (reachable_play (.start ⟨_, _, rfl⟩) played)
    have unheld := ((inOrder.queued 0 listening).2 2 (by rw [backlog]; simp)).2.1
    rw [refs] at unheld
    cases unheld
  · obtain ⟨net, played, facts⟩ := Option.map_eq_some_iff.mp
      (by decide +kernel : (play Counted (referenceToQueued ++ [.closed 2 1, .closed 1 2])
        (zeroed [[]] 0)).map
          (fun net => ((net.socks 0).state, (net.socks 0).backlog, (net.socks 2).state)) =
          some (.listening, [2], .free))
    obtain ⟨listening, rest⟩ := Prod.mk.inj facts
    obtain ⟨backlog, state⟩ := Prod.mk.inj rest
    exact ⟨net, reachable_play (.start ⟨_, _, rfl⟩) played, listening,
      by rw [backlog]; simp, state⟩

/-- The death of a process is nothing to a network without descriptors. -/
theorem processDied_of_empty
    {net : Net}
    (empty : ∀ at', (net.fdrefs at').count = 0)
    (pid : Nat) : net.processDied pid = net := by
  have unheld (sock : SockId) : net.held pid sock = 0 := by
    unfold held
    split
    · rfl
    · exact empty _
  unfold processDied dropHeld
  induction List.finRange maxSockets with
  | nil => rfl
  | cons sock socks inductionHypothesis =>
      rw [List.foldl_cons, unheld]
      exact inductionHypothesis

end Net
end Derp
