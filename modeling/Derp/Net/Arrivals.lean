import Derp.Net.Rings

/-!
# What is due arrives

When the clock moves, everything that is due at the head of a flight ring arrives, and what
a process leaves behind as it dies arrives later.
-/

namespace Derp
namespace Net

variable
  {net : Net}
  {sock : SockId}

/-- When the record at the head of a flight ring is due. -/
def headDue (net : Net) (sock : SockId) : Option Nat :=
  if 0 < (net.socks sock).flight.len then
    some (headerDue (net.flightPeek sock 0 flightHeaderLen))
  else none

theorem headDue_eq (ok : (net.socks sock).traffic.Ok) :
    net.headDue sock = (net.socks sock).traffic.records.head?.map FlightRecord.due := by
  unfold headDue
  cases records : (net.socks sock).traffic.records with
  | nil =>
      have empty : (net.socks sock).flight.len = 0 := ok.records_eq_nil_iff.1 records
      rw [empty]
      rfl
  | cons r rest =>
      obtain ⟨header, -, -⟩ := flightPeek_head ok records
      have some : (net.socks sock).flight.len ≠ 0 := fun empty => by
        have none : (net.socks sock).traffic.records = [] := ok.records_eq_nil_iff.2 empty
        rw [records] at none
        cases none
      rw [if_pos (Nat.pos_of_ne_zero some), header,
        headerDue_flightHeader r.due_lt r.kind r.payload.length]
      rfl

/-- No head record is due, as the header of each says. -/
theorem lt_of_headDue
    (counted : net.accounts.Counted)
    (ahead : net.accounts.Ahead)
    {due : Nat}
    (head : net.headDue sock = some due) : net.now < due := by
  rw [headDue_eq (counted.rings sock)] at head
  obtain ⟨r, isHead, rfl⟩ := Option.map_eq_some_iff.1 head
  exact ahead sock r isHead

/-- The next due time is not after that of any head record. -/
theorem nextDue_le_headDue
    (accounted : net.Accounted)
    {due : Nat}
    (head : net.headDue sock = some due) : ∃ next, net.nextDue = some next ∧ next ≤ due := by
  rw [headDue_eq (accounted.counted.rings sock)] at head
  obtain ⟨r, isHead, rfl⟩ := Option.map_eq_some_iff.1 head
  have inFlight : 0 < net.inFlight := by
    rw [Nat.pos_iff_ne_zero]
    intro none
    have empty := accounted.counted.no_records none sock
    change (net.socks sock).traffic.records = [] at empty
    rw [empty] at isHead
    cases isHead
  exact ⟨net.nextDueAt, if_pos inFlight, accounted.nextLe sock r isHead⟩

theorem Accounts.Lands.kept
    {now : Nat}
    {a b : Accounts}
    (lands : Accounts.Lands now a b) : b.now = a.now ∧ b.overflow = a.overflow := by
  induction lands with
  | refl => exact ⟨rfl, rfl⟩
  | tail _ land inductionHypothesis =>
      rw [← inductionHypothesis.1, ← inductionHypothesis.2]
      cases land with
      | head => exact ⟨rfl, rfl⟩

/-- Once the clock has moved no head record is due. -/
theorem ahead_advance
    (accounted : net.Accounted)
    (now : Nat) :
    (net.advance now).1.now = now ∧ (net.advance now).1.overflow = net.overflow ∧
      (net.advance now).1.accounts.Ahead := by
  obtain ⟨early, -, same⟩ | ⟨-, -, b, next, lands, same, isOver, -⟩ :=
    advance_spec accounted.counted now
  · refine ⟨congrArg Accounts.now same, congrArg Accounts.overflow same, ?_⟩
    rw [same]
    intro i r isHead
    obtain none | early := early
    · have empty := accounted.counted.no_records none i
      change r ∈ (net.accounts.socks i).records.head? at isHead
      rw [empty] at isHead
      cases isHead
    · exact early.trans_le (accounted.nextLe i r isHead)
  · obtain ⟨time, overflow⟩ := lands.kept
    refine ⟨(congrArg Accounts.now same).trans time,
      (congrArg Accounts.overflow same).trans overflow, ?_⟩
    rw [same]
    intro i r isHead
    change b.now < r.due
    rw [time]
    exact (isOver i r isHead).1

theorem onTime_processDied
    (accounted : net.Accounted)
    (wired : net.Wired)
    (pid : Nat) : Accounts.OnTime net.accounts (net.processDied pid).accounts :=
  (Settles.refSteps accounted wired (refSteps_processDied wired pid).1).onTime

end Net
end Derp
