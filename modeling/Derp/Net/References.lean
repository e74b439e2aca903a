import Derp.Net.Linked
import Mathlib.Algebra.Order.BigOperators.Group.Finset

/-!
# The table of references

Descriptors are counted per process and socket.  A process gains one for a
socket that is in use and gives up one that it holds.
-/

namespace Derp

/-- What an entry counts towards a process's references to a socket. -/
def FdRef.shareOf (r : FdRef) (pid : Nat) (sock : SockId) : Nat :=
  if r.pid = pid ∧ r.sock = sock then r.count else 0

theorem FdRef.isFor_iff (r : FdRef) (pid : Nat) (sock : SockId) :
    r.isFor pid sock = true ↔ 0 < r.count ∧ r.pid = pid ∧ r.sock = sock := by
  simp [FdRef.isFor, and_assoc]

namespace Net

variable
  {net later : Net}
  {pending : Finset SockId}
  {queues : SockId → List SockId}
  {sock : SockId}
  {pid : Nat}

/-- The entry that counts, if there is one, and a free one otherwise. -/
theorem fdrefAt_some
    {at' : Nat}
    (found : net.fdrefAt pid sock = some at') :
    at' < maxFdrefs ∧
      ((net.fdrefs at').isFor pid sock = true ∨
        (net.fdrefs at').count = 0 ∧
          ∀ other < maxFdrefs, (net.fdrefs other).isFor pid sock = false) := by
  unfold fdrefAt at found
  generalize maxFdrefs = size at found ⊢
  cases own : (List.range size).find?
      fun at' => (net.fdrefs at').isFor pid sock with
  | some entry =>
      have isFor : (net.fdrefs entry).isFor pid sock = true := by
        simpa using List.find?_some own
      rw [own, Option.some_or] at found
      cases found
      exact ⟨List.mem_range.mp (List.mem_of_find?_eq_some own), .inl isFor⟩
  | none =>
      rw [own, Option.none_or] at found
      refine ⟨List.mem_range.mp (List.mem_of_find?_eq_some found), .inr ⟨?_, ?_⟩⟩
      · simpa using List.find?_some found
      · intro other within
        simpa using List.find?_eq_none.mp own other (List.mem_range.mpr within)

/-- What a process holds is what the table counts for it. -/
theorem held_eq_sum
    (linked : net.Linked pending queues)
    (pid : Nat)
    (sock : SockId) :
    net.held pid sock =
      ∑ at' ∈ Finset.range maxFdrefs, (net.fdrefs at').shareOf pid sock := by
  have entries := linked.entries
  unfold held
  generalize maxFdrefs = size at entries ⊢
  cases own : (List.range size).find?
      fun at' => (net.fdrefs at').isFor pid sock with
  | none =>
      rw [eq_comm]
      apply Finset.sum_eq_zero
      intro at' within
      rw [Finset.mem_range] at within
      have := List.find?_eq_none.mp own at' (List.mem_range.mpr within)
      rw [FdRef.isFor_iff] at this
      unfold FdRef.shareOf
      grind
  | some entry =>
      have within := List.mem_range.mp (List.mem_of_find?_eq_some own)
      have isFor := List.find?_some own
      rw [FdRef.isFor_iff] at isFor
      rw [Finset.sum_eq_single entry]
      · simp [FdRef.shareOf, isFor]
      · intro other otherWithin different
        rw [Finset.mem_range] at otherWithin
        have same := entries other otherWithin entry within
        unfold FdRef.shareOf
        grind
      · intro outside
        simp [within] at outside

/-- A held descriptor has an entry of its own. -/
theorem fdrefAt_of_held
    (holds : 0 < net.held pid sock) :
    ∃ at' < maxFdrefs, net.fdrefAt pid sock = some at' ∧
      (net.fdrefs at').isFor pid sock = true := by
  unfold held at holds
  unfold fdrefAt
  generalize maxFdrefs = size at holds ⊢
  cases own : (List.range size).find?
      fun at' => (net.fdrefs at').isFor pid sock with
  | none => simp [own] at holds
  | some entry =>
      have isFor : (net.fdrefs entry).isFor pid sock = true := by
        simpa using List.find?_some own
      exact ⟨entry, List.mem_range.mp (List.mem_of_find?_eq_some own), rfl,
        isFor⟩

/-- Replacing an entry moves what the table counts for a socket. -/
theorem counted_setFdref
    (net : Net)
    {at' : Nat}
    (within : at' < maxFdrefs)
    (pid : Nat)
    (owned : SockId)
    (count : Nat)
    (sock : SockId) :
    (net.setFdref at' pid owned count).counted sock +
        (net.fdrefs at').share sock =
      net.counted sock + FdRef.share ⟨pid, owned, count⟩ sock := by
  have moved := @Finset.sum_replace Nat Nat _ _ (Finset.range maxFdrefs) at'
    (Finset.mem_range.mpr within)
    (fun entry => (net.fdrefs entry).share sock)
    (fun entry => ((net.setFdref at' pid owned count).fdrefs entry).share sock)
    (by
      intro other _ different
      simp [setFdref, different])
  simpa [counted, setFdref] using moved

/-- Replacing an entry moves what the table counts for a process. -/
theorem sum_shareOf_setFdref
    (net : Net)
    {at' : Nat}
    (within : at' < maxFdrefs)
    (pid : Nat)
    (owned : SockId)
    (count : Nat)
    (holder : Nat)
    (sock : SockId) :
    (∑ entry ∈ Finset.range maxFdrefs,
        ((net.setFdref at' pid owned count).fdrefs entry).shareOf holder sock) +
        (net.fdrefs at').shareOf holder sock =
      (∑ entry ∈ Finset.range maxFdrefs,
        (net.fdrefs entry).shareOf holder sock) +
        FdRef.shareOf ⟨pid, owned, count⟩ holder sock := by
  have moved := @Finset.sum_replace Nat Nat _ _ (Finset.range maxFdrefs) at'
    (Finset.mem_range.mpr within)
    (fun entry => (net.fdrefs entry).shareOf holder sock)
    (fun entry => ((net.setFdref at' pid owned count).fdrefs entry).shareOf holder sock)
    (by
      intro other _ different
      simp [setFdref, different])
  simpa [setFdref] using moved

/-- A held descriptor is a reference. -/
theorem Linked.refs_of_held
    (linked : net.Linked pending queues)
    (holds : 0 < net.held pid sock) : 0 < (net.socks sock).refs := by
  obtain ⟨at', within, -, isFor⟩ := fdrefAt_of_held holds
  rw [FdRef.isFor_iff] at isFor
  have part : (net.fdrefs at').share sock ≤ net.counted sock :=
    Finset.single_le_sum (f := fun entry => (net.fdrefs entry).share sock)
      (fun _ _ => Nat.zero_le _) (Finset.mem_range.mpr within)
  rw [linked.counts sock]
  simp only [FdRef.share, isFor.2.2] at part
  simp only [if_true] at part
  omega

/-- A process gains a descriptor for a pending or a referenced socket. -/
theorem Linked.gain
    (linked : net.Linked pending queues)
    (live : sock ∈ pending ∨ 0 < (net.socks sock).refs)
    {at' : Nat}
    (found : net.fdrefAt pid sock = some at') :
    ((net.setFdref at' pid sock
        ((net.fdrefs at').count + 1)).modifySock sock
      .gainRef).Linked (pending.erase sock) queues := by
  obtain ⟨within, entry⟩ := fdrefAt_some found
  have socks := (net.setFdref at' pid sock
        ((net.fdrefs at').count + 1)).modifySock_socks sock
  have same : (net.setFdref at' pid sock
        ((net.fdrefs at').count + 1)).socks = net.socks := rfl
  have table : ∀ b, ((net.setFdref at' pid sock
        ((net.fdrefs at').count + 1)).modifySock sock
        .gainRef).fdrefs b = if b = at' then
          ⟨pid, sock, (net.fdrefs at').count + 1⟩
        else net.fdrefs b :=
    fun b => Function.update_apply net.fdrefs at' _ b
  constructor
  case counts =>
    intro i
    have old := linked.counts i
    have moved := net.counted_setFdref within
      pid sock ((net.fdrefs at').count + 1) i
    have kept : ((net.setFdref at' pid sock
        ((net.fdrefs at').count + 1)).modifySock sock
          .gainRef).counted i = (net.setFdref at' pid sock
        ((net.fdrefs at').count + 1)).counted i := rfl
    rw [kept, socks, same]
    simp only [FdRef.share] at moved
    simp only [FdRef.isFor_iff] at entry
    grind [Sock.gainRef]
  case entries =>
    intro a aWithin b bWithin
    have old := linked.entries a aWithin b bWithin
    have oldA := linked.entries a aWithin at' within
    have oldB := linked.entries b bWithin at' within
    rw [table, table]
    simp only [← Bool.not_eq_true, FdRef.isFor_iff] at entry
    grind
  case paired =>
    intro i
    have old := linked.paired i
    grind [Sock.gainRef]
  case single =>
    intro i
    have old := linked.single i
    grind [Sock.gainRef]
  case queued =>
    intro l far
    have old := linked.queued l far
    grind [Sock.gainRef]
  case queueNodup =>
    intro l
    have old := linked.queueNodup l
    grind [Sock.gainRef]
  case queueUnique =>
    intro l l' far
    have old := linked.queueUnique l l' far
    grind [Sock.gainRef]
  case idle =>
    intro i
    have old := linked.idle i
    grind [Sock.gainRef]
  case unreferenced =>
    intro i
    have old := linked.unreferenced i
    grind [Sock.gainRef]
  case gone =>
    intro i
    have old := linked.gone i
    grind [Sock.gainRef]
  case pendingRefs =>
    intro i
    have old := linked.pendingRefs i
    grind [Sock.gainRef]
  case named =>
    intro i
    have old := linked.named i
    have kept : ((net.setFdref at' pid sock
        ((net.fdrefs at').count + 1)).modifySock sock
        .gainRef).idents = net.idents := rfl
    grind [Sock.gainRef]
  case streams =>
    intro i
    have old := linked.streams i
    grind [Sock.gainRef]

/-- The sockets that are pending once one has lost a reference. -/
def pendingWithout
    (net : Net)
    (sock : SockId)
    (pending : Finset SockId) : Finset SockId :=
  if (net.socks sock).refs = 1 then insert sock pending else pending

/-- A process gives up a descriptor it holds; with the last one the socket
becomes pending. -/
theorem Linked.lose
    (linked : net.Linked pending queues)
    {at' : Nat}
    (within : at' < maxFdrefs)
    (isFor : (net.fdrefs at').isFor pid sock = true)
    (refs : 0 < (net.socks sock).refs) :
    ((net.setFdref at' pid sock
        ((net.fdrefs at').count - 1)).modifySock sock
      .loseRef).Linked (net.pendingWithout sock pending) queues := by
  rw [FdRef.isFor_iff] at isFor
  have socks := (net.setFdref at' pid sock
        ((net.fdrefs at').count - 1)).modifySock_socks sock
  have same : (net.setFdref at' pid sock
        ((net.fdrefs at').count - 1)).socks = net.socks := rfl
  have table : ∀ b, ((net.setFdref at' pid sock
        ((net.fdrefs at').count - 1)).modifySock sock
        .loseRef).fdrefs b = if b = at' then
          ⟨pid, sock, (net.fdrefs at').count - 1⟩
        else net.fdrefs b :=
    fun b => Function.update_apply net.fdrefs at' _ b
  have remaining : ∀ i, i ∈ net.pendingWithout sock pending ↔
      i ∈ pending ∨ (net.socks sock).refs = 1 ∧ i = sock := by
    intro i
    unfold pendingWithout
    grind
  constructor
  case counts =>
    intro i
    have old := linked.counts i
    have moved := net.counted_setFdref within
      pid sock ((net.fdrefs at').count - 1) i
    have kept : ((net.setFdref at' pid sock
        ((net.fdrefs at').count - 1)).modifySock sock
          .loseRef).counted i = (net.setFdref at' pid sock
        ((net.fdrefs at').count - 1)).counted i := rfl
    rw [kept, socks, same]
    simp only [FdRef.share] at moved
    grind [Sock.loseRef]
  case entries =>
    intro a aWithin b bWithin
    have old := linked.entries a aWithin b bWithin
    have oldA := linked.entries a aWithin at' within
    have oldB := linked.entries b bWithin at' within
    rw [table, table]
    grind
  case paired =>
    intro i
    have old := linked.paired i
    grind [Sock.loseRef]
  case single =>
    intro i
    have old := linked.single i
    grind [Sock.loseRef]
  case queued =>
    intro l far
    have old := linked.queued l far
    grind [Sock.loseRef]
  case queueNodup =>
    intro l
    have old := linked.queueNodup l
    grind [Sock.loseRef]
  case queueUnique =>
    intro l l' far
    have old := linked.queueUnique l l' far
    grind [Sock.loseRef]
  case idle =>
    intro i
    have old := linked.idle i
    grind [Sock.loseRef]
  case unreferenced =>
    intro i
    have old := linked.unreferenced i
    grind [Sock.loseRef]
  case gone =>
    intro i
    have old := linked.gone i
    grind [Sock.loseRef]
  case pendingRefs =>
    intro i
    have old := linked.pendingRefs i
    grind [Sock.loseRef]
  case named =>
    intro i
    have old := linked.named i
    have kept : ((net.setFdref at' pid sock
        ((net.fdrefs at').count - 1)).modifySock sock
        .loseRef).idents = net.idents := rfl
    grind [Sock.loseRef]
  case streams =>
    intro i
    have old := linked.streams i
    grind [Sock.loseRef]

end Net
end Derp
