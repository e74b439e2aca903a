import Derp.Library.Tables
import Derp.Net.Views

/-!
# How sockets refer to each other

Three things keep a slot of the socket table in use: descriptors, counted per
process in the table of references; the other end of its connection; and the
queue of a listener.  The invariant ties them together.  Inside a call some
sockets may be pending, in use without being referred to yet or any longer, and
a listener's queue may be ahead of the record that the call is working off.
-/

namespace Derp

/-- What an entry counts towards a socket's references. -/
def FdRef.share (r : FdRef) (sock : SockId) : Nat :=
  if r.sock = sock then r.count else 0

namespace Net

/-- The descriptors for a socket over the whole table of references. -/
def counted (net : Net) (sock : SockId) : Nat :=
  ∑ at' ∈ Finset.range maxFdrefs, (net.fdrefs at').share sock

/-- The listeners' queues as the records have them. -/
def backlogs (net : Net) (sock : SockId) : List SockId :=
  (net.socks sock).backlog

/-- The sockets' references to each other are in order. -/
structure Linked
    (net : Net)
    (pending : Finset SockId)
    (queues : SockId → List SockId) : Prop where
  counts : ∀ i, (net.socks i).refs = net.counted i
  entries : ∀ a < maxFdrefs, ∀ b < maxFdrefs,
    0 < (net.fdrefs a).count → 0 < (net.fdrefs b).count →
    (net.fdrefs a).pid = (net.fdrefs b).pid →
    (net.fdrefs a).sock = (net.fdrefs b).sock → a = b
  paired : ∀ i,
    (net.socks i).state = .connected ∨ (net.socks i).state = .closed →
    ∃ j, (net.socks i).farEnd = some j ∧ (net.socks j).farEnd = some i ∧
      i ≠ j ∧ ((net.socks j).state = .connected ∨
        (net.socks j).state = .closed ∧ (net.socks i).state = .connected)
  single : ∀ i,
    (net.socks i).state = .new ∨ (net.socks i).state = .bound ∨
      (net.socks i).state = .listening → (net.socks i).farEnd = none
  queued : ∀ l far, (net.socks l).state = .listening → far ∈ queues l →
    (net.socks far).state = .connected ∧ (net.socks far).refs = 0 ∧
      (net.socks far).shutWr = false ∧ far ∉ pending
  queueNodup : ∀ l, (net.socks l).state = .listening → (queues l).Nodup
  queueUnique : ∀ l l' far, (net.socks l).state = .listening →
    (net.socks l').state = .listening → far ∈ queues l → far ∈ queues l' →
    l = l'
  idle : ∀ i, (net.socks i).state = .new ∨ (net.socks i).state = .bound →
    queues i = []
  unreferenced : ∀ i, (net.socks i).refs = 0 → i ∈ pending ∨
    (net.socks i).state = .free ∨ (net.socks i).state = .closed ∨
    ∃ l, (net.socks l).state = .listening ∧ i ∈ queues l
  gone : ∀ i, (net.socks i).state = .free ∨ (net.socks i).state = .closed →
    (net.socks i).refs = 0 ∧ i ∉ pending
  pendingRefs : ∀ i ∈ pending, (net.socks i).refs = 0
  named : ∀ i, net.idents i ≠ 0 → 0 < (net.socks i).refs ∨ i ∈ pending
  streams : ∀ i, (net.socks i).state = .listening ∨
    (net.socks i).state = .connected ∨ (net.socks i).state = .closed →
    (net.socks i).kind = .stream

/-- Between calls nothing is pending and the queues are the records'. -/
def Wired (net : Net) : Prop :=
  net.Linked ∅ net.backlogs

variable
  {net later : Net}
  {pending : Finset SockId}
  {queues : SockId → List SockId}
  {sock peer far : SockId}

/-- The invariant looks at the control half only. -/
theorem Linked.control_iff :
    net.control.Linked pending queues ↔ net.Linked pending queues := by
  constructor
  · intro h
    exact ⟨h.counts, h.entries, h.paired, h.single, h.queued, h.queueNodup,
      h.queueUnique, h.idle, h.unreferenced, h.gone, h.pendingRefs, h.named,
      h.streams⟩
  · intro h
    exact ⟨h.counts, h.entries, h.paired, h.single, h.queued, h.queueNodup,
      h.queueUnique, h.idle, h.unreferenced, h.gone, h.pendingRefs, h.named,
      h.streams⟩

/-- Traffic keeps the references. -/
theorem Linked.of_control
    (linked : net.Linked pending queues)
    (same : later.control = net.control) : later.Linked pending queues := by
  rw [← Linked.control_iff, same, Linked.control_iff]
  exact linked

theorem backlogs_of_control
    (same : later.control = net.control) : later.backlogs = net.backlogs := by
  funext i
  have view := congrArg (fun view : Net => (view.socks i).backlog) same
  exact view

theorem Wired.of_control
    (wired : net.Wired)
    (same : later.control = net.control) : later.Wired := by
  unfold Wired
  rw [backlogs_of_control same]
  exact Linked.of_control wired same

/-- Only the queues of listeners and of sockets that may become one matter. -/
theorem Linked.of_queues
    (linked : net.Linked pending queues)
    {others : SockId → List SockId}
    (same : ∀ i, (net.socks i).state = .listening ∨
      (net.socks i).state = .new ∨ (net.socks i).state = .bound →
      others i = queues i) : net.Linked pending others where
  counts := linked.counts
  entries := linked.entries
  paired := linked.paired
  single := linked.single
  queued := by
    intro l far listening present
    rw [same l (.inl listening)] at present
    exact linked.queued l far listening present
  queueNodup := by
    intro l listening
    rw [same l (.inl listening)]
    exact linked.queueNodup l listening
  queueUnique := by
    intro l l' far first second
    rw [same l (.inl first), same l' (.inl second)]
    exact linked.queueUnique l l' far first second
  idle := by
    intro i free
    rw [same i (.inr free)]
    exact linked.idle i free
  unreferenced := by
    intro i none
    rcases linked.unreferenced i none with h | h | h | ⟨l, listening, present⟩
    · exact .inl h
    · exact .inr (.inl h)
    · exact .inr (.inr (.inl h))
    · rw [← same l (.inl listening)] at present
      exact .inr (.inr (.inr ⟨l, listening, present⟩))
  gone := linked.gone
  pendingRefs := linked.pendingRefs
  named := linked.named
  streams := linked.streams

/-- A change of the control half commutes with looking at that half. -/
theorem control_modifySock_swap
    {change : Sock → Sock}
    (commutes : ∀ d, (change d).control = (change d.control).control)
    (net : Net)
    (sock : SockId) :
    (net.modifySock sock change).control =
      (net.control.modifySock sock change).control := by
  unfold control modifySock
  congr 1
  funext i
  by_cases same : i = sock
  · subst same
    simp only [Function.update_self]
    exact commutes _
  · simp only [Function.update_of_ne same]
    rfl

theorem control_modifySock_congr
    {change : Sock → Sock}
    (commutes : ∀ d, (change d).control = (change d.control).control)
    (same : later.control = net.control)
    (sock : SockId) :
    (later.modifySock sock change).control =
      (net.modifySock sock change).control := by
  rw [control_modifySock_swap commutes, same,
    ← control_modifySock_swap commutes]

theorem control_setState_congr
    (same : later.control = net.control)
    (sock : SockId)
    (state : SockState) :
    (later.setState sock state).control = (net.setState sock state).control :=
  control_modifySock_congr (by intro; rfl) same sock

theorem control_setIdent_congr
    (same : later.control = net.control)
    (sock : SockId)
    (ident : Nat) :
    (later.setIdent sock ident).control =
      (net.setIdent sock ident).control := by
  have := congrArg (fun net : Net => net.setIdent sock ident) same
  exact this

/-! ## Changes of records -/

/-- A relabelled socket keeps its links: it may go from unbound to bound to
listening, and it may be shut down through a descriptor. -/
theorem Linked.relabel
    (linked : net.Linked pending queues)
    {change : Sock → Sock}
    (refs : (change (net.socks sock)).refs = (net.socks sock).refs)
    (farEnd : (change (net.socks sock)).farEnd = (net.socks sock).farEnd)
    (kind : (change (net.socks sock)).kind = (net.socks sock).kind)
    (shutWr : (change (net.socks sock)).shutWr = (net.socks sock).shutWr ∨
      0 < (net.socks sock).refs)
    (state : (change (net.socks sock)).state = (net.socks sock).state ∨
      (((net.socks sock).state = .new ∨ (net.socks sock).state = .bound) ∧
        ((change (net.socks sock)).state = .bound ∨
          (change (net.socks sock)).state = .listening ∧
            (net.socks sock).kind = .stream))) :
    (net.modifySock sock change).Linked pending queues := by
  have socks := net.modifySock_socks sock
  constructor
  case counts =>
    intro i
    have old := linked.counts i
    have same : (net.modifySock sock change).counted i = net.counted i := rfl
    grind
  case entries => exact linked.entries
  case paired =>
    intro i
    have old := linked.paired
    grind
  case single =>
    intro i
    have old := linked.single
    grind
  case queued =>
    intro l far
    have old := linked.queued l far
    have idle := linked.idle l
    grind
  case queueNodup =>
    intro l
    have old := linked.queueNodup l
    have idle := linked.idle l
    grind
  case queueUnique =>
    intro l l' far
    have old := linked.queueUnique l l' far
    have idle := linked.idle
    grind
  case idle =>
    intro i
    have old := linked.idle i
    grind
  case unreferenced =>
    intro i
    have old := linked.unreferenced i
    grind
  case gone =>
    intro i
    have old := linked.gone i
    grind
  case pendingRefs =>
    intro i
    have old := linked.pendingRefs i
    grind
  case named =>
    intro i
    have old := linked.named i
    have same : (net.modifySock sock change).idents = net.idents := rfl
    grind
  case streams =>
    intro i
    have old := linked.streams i
    grind

/-- A pending socket leaves the table: it is unbound, bound or a listener whose
queue is empty. -/
theorem Linked.free
    (linked : net.Linked pending queues)
    (isPending : sock ∈ pending)
    (unlinked : (net.socks sock).state ≠ .connected)
    (emptied : (net.socks sock).state = .listening → queues sock = []) :
    ((net.setState sock .free).setIdent sock 0).Linked
      (pending.erase sock) queues := by
  have alive := linked.gone sock
  have socks : ∀ i, ((net.setState sock .free).setIdent sock 0).socks i =
      if i = sock then (net.socks sock).setState .free else net.socks i :=
    fun i => net.modifySock_socks sock i _
  have idents : ∀ i, ((net.setState sock .free).setIdent sock 0).idents i =
      if i = sock then 0 else net.idents i :=
    fun i => Function.update_apply net.idents sock 0 i
  constructor
  case counts =>
    intro i
    have old := linked.counts i
    have same : ((net.setState sock .free).setIdent sock 0).counted i =
      net.counted i := rfl
    grind [Sock.setState]
  case entries => exact linked.entries
  case paired =>
    intro i
    have old := linked.paired i
    grind [Sock.setState]
  case single =>
    intro i
    have old := linked.single i
    grind [Sock.setState]
  case queued =>
    intro l far
    have old := linked.queued l far
    grind [Sock.setState]
  case queueNodup =>
    intro l
    have old := linked.queueNodup l
    grind [Sock.setState]
  case queueUnique =>
    intro l l' far
    have old := linked.queueUnique l l' far
    grind [Sock.setState]
  case idle =>
    intro i
    have old := linked.idle i
    grind [Sock.setState]
  case unreferenced =>
    intro i
    have old := linked.unreferenced i
    grind [Sock.setState]
  case gone =>
    intro i
    have old := linked.gone i
    have refs := linked.pendingRefs sock
    grind [Sock.setState]
  case pendingRefs =>
    intro i
    have old := linked.pendingRefs i
    grind [Sock.setState]
  case named =>
    intro i
    have old := linked.named i
    grind [Sock.setState]
  case streams =>
    intro i
    have old := linked.streams i
    grind [Sock.setState]

/-- One end of a connection is gone and the other stays. -/
theorem Linked.closeEnd
    (linked : net.Linked pending queues)
    (isPending : sock ∈ pending)
    (connected : (net.socks sock).state = .connected)
    (linkedTo : (net.socks sock).farEnd = some peer)
    (stays : (net.socks peer).state ≠ .closed) :
    ((net.setState sock .closed).setIdent sock 0).Linked
      (pending.erase sock) queues := by
  have socks : ∀ i, ((net.setState sock .closed).setIdent sock 0).socks i =
      if i = sock then (net.socks sock).setState .closed else net.socks i :=
    fun i => net.modifySock_socks sock i _
  have idents : ∀ i, ((net.setState sock .closed).setIdent sock 0).idents i =
      if i = sock then 0 else net.idents i :=
    fun i => Function.update_apply net.idents sock 0 i
  constructor
  case counts =>
    intro i
    have old := linked.counts i
    have same : ((net.setState sock .closed).setIdent sock 0).counted i =
      net.counted i := rfl
    grind [Sock.setState]
  case entries => exact linked.entries
  case paired =>
    intro i
    have old := linked.paired
    grind [Sock.setState]
  case single =>
    intro i
    have old := linked.single i
    grind [Sock.setState]
  case queued =>
    intro l far
    have old := linked.queued l far
    grind [Sock.setState]
  case queueNodup =>
    intro l
    have old := linked.queueNodup l
    grind [Sock.setState]
  case queueUnique =>
    intro l l' far
    have old := linked.queueUnique l l' far
    grind [Sock.setState]
  case idle =>
    intro i
    have old := linked.idle i
    grind [Sock.setState]
  case unreferenced =>
    intro i
    have old := linked.unreferenced i
    grind [Sock.setState]
  case gone =>
    intro i
    have old := linked.gone i
    have refs := linked.pendingRefs sock
    grind [Sock.setState]
  case pendingRefs =>
    intro i
    have old := linked.pendingRefs i
    grind [Sock.setState]
  case named =>
    intro i
    have old := linked.named i
    grind [Sock.setState]
  case streams =>
    intro i
    have old := linked.streams i
    grind [Sock.setState]

/-- Both ends of a connection are gone. -/
theorem Linked.freeBoth
    (linked : net.Linked pending queues)
    (isPending : sock ∈ pending)
    (connected : (net.socks sock).state = .connected)
    (linkedTo : (net.socks sock).farEnd = some peer)
    (closed : (net.socks peer).state = .closed) :
    (((net.setState peer .free).setState sock .free).setIdent sock 0).Linked
      (pending.erase sock) queues := by
  obtain ⟨other, linkedOther, back, different, -⟩ :=
    linked.paired sock (.inl connected)
  obtain rfl : other = peer := by
    rw [linkedTo] at linkedOther
    exact (Option.some.inj linkedOther).symm
  have socks : ∀ i,
      (((net.setState other .free).setState sock .free).setIdent sock 0).socks
        i = if i = sock then (net.socks sock).setState .free
          else if i = other then (net.socks other).setState .free
          else net.socks i := by
    intro i
    simp only [setIdent, setState, modifySock_socks]
    grind
  have idents : ∀ i,
      (((net.setState other .free).setState sock .free).setIdent sock 0).idents
        i = if i = sock then 0 else net.idents i :=
    fun i => Function.update_apply net.idents sock 0 i
  constructor
  case counts =>
    intro i
    have old := linked.counts i
    have same : (((net.setState other .free).setState sock .free).setIdent
      sock 0).counted i = net.counted i := rfl
    grind [Sock.setState]
  case entries => exact linked.entries
  case paired =>
    intro i
    have old := linked.paired
    grind [Sock.setState]
  case single =>
    intro i
    have old := linked.single i
    grind [Sock.setState]
  case queued =>
    intro l far
    have old := linked.queued l far
    grind [Sock.setState]
  case queueNodup =>
    intro l
    have old := linked.queueNodup l
    grind [Sock.setState]
  case queueUnique =>
    intro l l' far
    have old := linked.queueUnique l l' far
    grind [Sock.setState]
  case idle =>
    intro i
    have old := linked.idle i
    grind [Sock.setState]
  case unreferenced =>
    intro i
    have old := linked.unreferenced i
    grind [Sock.setState]
  case gone =>
    intro i
    have old := linked.gone
    have refs := linked.pendingRefs sock
    grind [Sock.setState]
  case pendingRefs =>
    intro i
    have old := linked.pendingRefs i
    grind [Sock.setState]
  case named =>
    intro i
    have old := linked.named i
    grind [Sock.setState]
  case streams =>
    intro i
    have old := linked.streams i
    grind [Sock.setState]

/-- A free slot is taken and pending. -/
theorem Linked.take
    (linked : net.Linked pending queues)
    (isFree : (net.socks sock).state = .free)
    (host : Nat)
    (family : Family)
    (kind : Kind) :
    ((net.setIdent sock 0).modifySock sock
      (.fresh host family kind)).Linked (insert sock pending)
        (Function.update queues sock []) := by
  have socks : ∀ i, ((net.setIdent sock 0).modifySock sock
      (.fresh host family kind)).socks i =
      if i = sock then (net.socks sock).fresh host family kind
      else net.socks i :=
    fun i => net.modifySock_socks sock i _
  have idents : ∀ i, ((net.setIdent sock 0).modifySock sock
      (.fresh host family kind)).idents i =
      if i = sock then 0 else net.idents i :=
    fun i => Function.update_apply net.idents sock 0 i
  have moved : ∀ i, Function.update queues sock [] i =
      if i = sock then [] else queues i :=
    fun i => Function.update_apply queues sock [] i
  have unused := linked.gone sock (.inl isFree)
  constructor
  case counts =>
    intro i
    have old := linked.counts i
    have same : ((net.setIdent sock 0).modifySock sock
      (.fresh host family kind)).counted i = net.counted i := rfl
    grind [Sock.fresh]
  case entries => exact linked.entries
  case paired =>
    intro i
    have old := linked.paired i
    grind [Sock.fresh]
  case single =>
    intro i
    have old := linked.single i
    grind [Sock.fresh]
  case queued =>
    intro l far
    have old := linked.queued l far
    grind [Sock.fresh]
  case queueNodup =>
    intro l
    have old := linked.queueNodup l
    grind [Sock.fresh]
  case queueUnique =>
    intro l l' far
    have old := linked.queueUnique l l' far
    grind [Sock.fresh]
  case idle =>
    intro i
    have old := linked.idle i
    grind [Sock.fresh]
  case unreferenced =>
    intro i
    have old := linked.unreferenced i
    grind [Sock.fresh]
  case gone =>
    intro i
    have old := linked.gone i
    grind [Sock.fresh]
  case pendingRefs =>
    intro i
    have old := linked.pendingRefs i
    grind [Sock.fresh]
  case named =>
    intro i
    have old := linked.named i
    grind [Sock.fresh]
  case streams =>
    intro i
    have old := linked.streams i
    grind [Sock.fresh]

/-- A taken slot and a socket that is not connected become the two ends of a
connection. -/
theorem Linked.join
    (linked : net.Linked pending queues)
    (isNew : (net.socks far).state = .new)
    (unlinked : (net.socks sock).state = .new ∨
      (net.socks sock).state = .bound)
    (different : far ≠ sock)
    (farKind : (net.socks far).kind = .stream)
    (kind : (net.socks sock).kind = .stream)
    (farLocal nearLocal : Addr) :
    ((net.modifySock far (.linkFar farLocal nearLocal sock)).modifySock sock
      (.linkNear farLocal far)).Linked pending queues := by
  have socks : ∀ i, ((net.modifySock far
      (.linkFar farLocal nearLocal sock)).modifySock sock
        (.linkNear farLocal far)).socks i =
      if i = sock then (net.socks sock).linkNear farLocal far
      else if i = far then (net.socks far).linkFar farLocal nearLocal sock
      else net.socks i := by
    intro i
    simp only [modifySock_socks]
    grind
  have free := linked.single
  constructor
  case counts =>
    intro i
    have old := linked.counts i
    have same : ((net.modifySock far
      (.linkFar farLocal nearLocal sock)).modifySock sock
        (.linkNear farLocal far)).counted i = net.counted i := rfl
    grind [Sock.linkFar, Sock.linkNear]
  case entries => exact linked.entries
  case paired =>
    intro i
    have old := linked.paired i
    grind [Sock.linkFar, Sock.linkNear]
  case single =>
    intro i
    grind [Sock.linkFar, Sock.linkNear]
  case queued =>
    intro l far'
    have old := linked.queued l far'
    grind [Sock.linkFar, Sock.linkNear]
  case queueNodup =>
    intro l
    have old := linked.queueNodup l
    grind [Sock.linkFar, Sock.linkNear]
  case queueUnique =>
    intro l l' far'
    have old := linked.queueUnique l l' far'
    grind [Sock.linkFar, Sock.linkNear]
  case idle =>
    intro i
    have old := linked.idle i
    grind [Sock.linkFar, Sock.linkNear]
  case unreferenced =>
    intro i
    have old := linked.unreferenced i
    grind [Sock.linkFar, Sock.linkNear]
  case gone =>
    intro i
    have old := linked.gone i
    grind [Sock.linkFar, Sock.linkNear]
  case pendingRefs =>
    intro i
    have old := linked.pendingRefs i
    grind [Sock.linkFar, Sock.linkNear]
  case named =>
    intro i
    have old := linked.named i
    have same : ((net.modifySock far
      (.linkFar farLocal nearLocal sock)).modifySock sock
        (.linkNear farLocal far)).idents = net.idents := rfl
    grind [Sock.linkFar, Sock.linkNear]
  case streams =>
    intro i
    have old := linked.streams i
    grind [Sock.linkFar, Sock.linkNear]

/-! ## Changes of the queues -/

/-- A pending end of a connection is queued on a listener. -/
theorem Linked.enqueue
    (linked : net.Linked pending queues)
    {listener : SockId}
    (isPending : far ∈ pending)
    (unnamed : net.idents far = 0)
    (connected : (net.socks far).state = .connected)
    (open' : (net.socks far).shutWr = false)
    (listening : (net.socks listener).state = .listening) :
    net.Linked (pending.erase far)
      (Function.update queues listener (queues listener ++ [far])) := by
  have moved : ∀ i,
      Function.update queues listener (queues listener ++ [far]) i =
        if i = listener then queues listener ++ [far] else queues i :=
    fun i => Function.update_apply queues listener _ i
  have refs := linked.pendingRefs far isPending
  have unqueued : ∀ l, (net.socks l).state = .listening → far ∉ queues l :=
    fun l isListening present =>
      (linked.queued l far isListening present).2.2.2 isPending
  constructor
  case counts => exact linked.counts
  case entries => exact linked.entries
  case paired => exact linked.paired
  case single => exact linked.single
  case streams => exact linked.streams
  case queued =>
    intro l other
    have old := linked.queued l other
    grind
  case queueNodup =>
    intro l isListening
    have old := linked.queueNodup l isListening
    rw [moved]
    split
    · next same =>
        subst same
        rw [List.nodup_append]
        refine ⟨old, by simp, ?_⟩
        have := unqueued l isListening
        grind
    · exact old
  case queueUnique =>
    intro l l' other
    have old := linked.queueUnique l l' other
    grind
  case idle =>
    intro i
    have old := linked.idle i
    grind
  case unreferenced =>
    intro i
    have old := linked.unreferenced i
    grind
  case gone =>
    intro i
    have old := linked.gone i
    grind
  case pendingRefs =>
    intro i
    have old := linked.pendingRefs i
    grind
  case named =>
    intro i
    have old := linked.named i
    grind

/-- The oldest connection leaves a listener's queue. -/
theorem Linked.dequeue
    (linked : net.Linked pending queues)
    {listener : SockId}
    {later : List SockId}
    (listening : (net.socks listener).state = .listening)
    (queue : queues listener = far :: later) :
    net.Linked (insert far pending)
      (Function.update queues listener later) := by
  have moved : ∀ i, Function.update queues listener later i =
      if i = listener then later else queues i :=
    fun i => Function.update_apply queues listener _ i
  have first := linked.queued listener far listening (by simp [queue])
  have rest := linked.queueNodup listener listening
  rw [queue, List.nodup_cons] at rest
  constructor
  case counts => exact linked.counts
  case entries => exact linked.entries
  case paired => exact linked.paired
  case single => exact linked.single
  case streams => exact linked.streams
  case queued =>
    intro l other
    have old := linked.queued l other
    have unique := linked.queueUnique l listener far
    grind
  case queueNodup =>
    intro l
    have old := linked.queueNodup l
    grind
  case queueUnique =>
    intro l l' other
    have old := linked.queueUnique l l' other
    grind
  case idle =>
    intro i
    have old := linked.idle i
    grind
  case unreferenced =>
    intro i
    have old := linked.unreferenced i
    grind
  case gone =>
    intro i
    have old := linked.gone i
    grind
  case pendingRefs =>
    intro i
    have old := linked.pendingRefs i
    grind
  case named =>
    intro i
    have old := linked.named i
    grind

end Net
end Derp
