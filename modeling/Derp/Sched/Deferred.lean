import Derp.Library.Tables
import Derp.Library.Transition
import Derp.Sched.Pick
import Mathlib.Algebra.Order.Group.Multiset

/-!
# Wakes left for the holder of the lock

A signal handler on the thread inside the scheduler lock cannot take the lock.
It leaves a wake in one of eight slots, and the holder makes what it finds as it
lets go.  Handlers interrupt the holder, and each other, between any two of
their accesses to memory.  A wake in a slot the holder has yet to look at is
made exactly once before the lock is free.
-/

namespace Derp
namespace Deferred

def deferredWakes : Nat := 8

/-- The key that stands for an I/O wake. -/
def deferredIo : UInt64 := 0xFFFFFFFFFFFFFFFE

/-- What a handler hands over: the process and the key. -/
structure Wake where
  pid : UInt32
  key : UInt64
  deriving DecidableEq, Repr

/-- Make a wake that was left. -/
def Wake.make (wake : Wake) (s : State) : State :=
  if wake.key = deferredIo then s.wakeIo
  else s.wakeAll wake.pid.toNat wake.key.toNat

/-- Where the holder of the lock is, between two of its accesses to memory. -/
inductive Place
  /-- In its critical section. -/
  | inside
  /-- About to load the key of a slot, or past the last one. -/
  | scans (i : Nat)
  /-- About to load the process of a slot whose key it has loaded. -/
  | names (i : Fin deferredWakes) (key : UInt64)
  /-- About to empty a slot. -/
  | empties (i : Fin deferredWakes) (key pid : UInt64)
  /-- About to make the wake it took from a slot. -/
  | makes (i : Fin deferredWakes) (key pid : UInt64)
  /-- The lock is free. -/
  | out
  deriving DecidableEq, Repr

/-- A slot whose key the holder does not load any more. -/
def Place.Passed : Place → Fin deferredWakes → Prop
  | inside, _ => False
  | scans j, i => i < j
  | names j _, i => i < j
  | empties j _ _, i => i < j
  | makes j _ _, i => i ≤ j
  | out, _ => True

instance (place : Place) (i : Fin deferredWakes) : Decidable (place.Passed i) :=
  match place with
  | .inside => inferInstanceAs (Decidable False)
  | .scans j => inferInstanceAs (Decidable (i.val < j))
  | .names j _ => inferInstanceAs (Decidable (i < j))
  | .empties j _ _ => inferInstanceAs (Decidable (i < j))
  | .makes j _ _ => inferInstanceAs (Decidable (i ≤ j))
  | .out => inferInstanceAs (Decidable True)

/-- A handler inside `defer_wake`, between two of its accesses to memory. -/
inductive Handler
  /-- About to take a slot if it is empty, or past the last one. -/
  | tries (i : Nat) (wake : Wake)
  /-- About to store the process of a slot it has taken. -/
  | signs (i : Fin deferredWakes) (wake : Wake)
  deriving DecidableEq, Repr

/-- What became of the wakes; no part of the memory. -/
structure Ledger where
  left : List Wake := []
  /-- Left in a slot that the holder had yet to look at. -/
  placed : List Wake := []
  /-- Left in a slot that the holder had passed. -/
  late : List Wake := []
  /-- Left while all slots were taken. -/
  lost : List Wake := []
  made : List Wake := []

/-- The memory that the holder of the lock and the handlers on its thread share,
and where they are.  The innermost handler is the first. -/
structure Holder where
  state : State
  keys : Fin deferredWakes → UInt64
  pids : Fin deferredWakes → UInt64
  place : Place
  handlers : List Handler
  ledger : Ledger

namespace Holder

variable {h later : Holder} {wake : Wake} {i : Fin deferredWakes}

/-- The next access to memory of `Guard::drop`. -/
def drop (h : Holder) : Option Holder :=
  match h.place with
  | .inside => some { h with place := .scans 0 }
  | .scans i =>
      if inside : i < deferredWakes then
        if h.keys ⟨i, inside⟩ = 0 then some { h with place := .scans (i + 1) }
        else some { h with place := .names ⟨i, inside⟩ (h.keys ⟨i, inside⟩) }
      else some { h with place := .out }
  | .names i key => some { h with place := .empties i key (h.pids i) }
  | .empties i key pid =>
      some { h with
        keys := Function.update h.keys i 0
        place := .makes i key pid }
  | .makes i key pid =>
      let wake : Wake := { pid := pid.toUInt32, key := key - 1 }
      some { h with
        state := wake.make h.state
        place := .scans (i + 1)
        ledger := { h.ledger with made := h.ledger.made ++ [wake] } }
  | .out => none

/-- A slot is taken by a wake. -/
def take (h : Holder) (i : Fin deferredWakes) (wake : Wake) : Holder :=
  { h with
    keys := Function.update h.keys i (wake.key + 1)
    ledger := { h.ledger with
      placed := h.ledger.placed ++ if h.place.Passed i then [] else [wake]
      late := h.ledger.late ++ if h.place.Passed i then [wake] else [] } }

/-- The next access to memory of the innermost handler's `defer_wake`. -/
def defer (h : Holder) : Option Holder :=
  match h.handlers with
  | [] => none
  | .tries i wake :: outer =>
      if inside : i < deferredWakes then
        if h.keys ⟨i, inside⟩ = 0 then
          some { h.take ⟨i, inside⟩ wake with
            handlers := .signs ⟨i, inside⟩ wake :: outer }
        else some { h with handlers := .tries (i + 1) wake :: outer }
      else
        some { h with
          handlers := outer
          ledger := { h.ledger with lost := h.ledger.lost ++ [wake] } }
  | .signs i wake :: outer =>
      some { h with
        pids := Function.update h.pids i wake.pid.toUInt64
        handlers := outer }

/-- What happens next on the holder's thread. -/
inductive Step
  /-- The holder changes the state it has locked. -/
  | works (change : State → State)
  /-- The holder goes on letting go. -/
  | drops
  /-- A handler interrupts whatever runs, with a wake to leave. -/
  | interrupts (wake : Wake)
  /-- The innermost handler goes on. -/
  | defers

/-- Whatever was interrupted waits for the handler.  No key is the last word
there is: keys are addresses. -/
def perform (h : Holder) : Step → Option Holder
  | .works change =>
      if h.place = .inside ∧ h.handlers = [] then
        some { h with state := change h.state }
      else none
  | .drops => if h.handlers = [] then h.drop else none
  | .interrupts wake =>
      if h.place ≠ .out ∧ wake.key + 1 ≠ 0 then
        some { h with
          handlers := .tries 0 wake :: h.handlers
          ledger := { h.ledger with left := h.ledger.left ++ [wake] } }
      else none
  | .defers => h.defer

/-- A holder that has just taken the lock. -/
def acquired
    (s : State)
    (keys pids : Fin deferredWakes → UInt64) : Holder where
  state := s
  keys := keys
  pids := pids
  place := .inside
  handlers := []
  ledger := {}

end Holder

/-- The critical sections that begin with these words in the slots. -/
def system (start : Holder) : Transition Holder Holder.Step where
  init := (· = start)
  step := fun h step later => h.perform step = some later

/-! ## What the slots hold -/

variable {h later : Holder} {claims : Fin deferredWakes → Option Wake}
  {place after : Place} {wake : Wake} {i : Fin deferredWakes}

/-- The wake that the words of a slot stand for. -/
def held (key pid : UInt64) : Option Wake :=
  if key = 0 then none else some { pid := pid.toUInt32, key := key - 1 }

def bag (claim : Option Wake) : Multiset Wake := claim.elim 0 ({·})

/-- What a slot adds to the wakes in some of the slots. -/
def share
    (claims : Fin deferredWakes → Option Wake)
    (counts : Fin deferredWakes → Prop)
    [DecidablePred counts]
    (i : Fin deferredWakes) : Multiset Wake :=
  if counts i then bag (claims i) else 0

/-- The wakes in some of the slots. -/
def stored
    (claims : Fin deferredWakes → Option Wake)
    (counts : Fin deferredWakes → Prop)
    [DecidablePred counts] : Multiset Wake :=
  ∑ i, share claims counts i

/-- The wakes in slots that the holder has yet to look at. -/
abbrev ahead (claims : Fin deferredWakes → Option Wake) (place : Place) :
    Multiset Wake :=
  stored claims fun i => ¬place.Passed i

/-- The wakes in slots that the holder has passed. -/
abbrev behind (claims : Fin deferredWakes → Option Wake) (place : Place) :
    Multiset Wake :=
  stored claims place.Passed

/-- The wakes that wait in the slots. -/
def waiting (keys pids : Fin deferredWakes → UInt64) : Multiset Wake :=
  ∑ i, bag (held (keys i) (pids i))

/-- The wake that the holder has taken from its slot. -/
def Place.inHand : Place → Multiset Wake
  | makes _ key pid => {{ pid := pid.toUInt32, key := key - 1 }}
  | _ => 0

/-- The wakes of handlers that look for an empty slot. -/
def trying : List Handler → Multiset Wake
  | [] => 0
  | .tries _ wake :: outer => wake ::ₘ trying outer
  | .signs _ _ :: outer => trying outer

section Stored

variable {counts others : Fin deferredWakes → Prop} [DecidablePred counts]
  [DecidablePred others]

theorem share_free (free : claims i = none) : share claims counts i = 0 := by
  unfold share
  rw [free]
  exact ite_self _

theorem share_full (full : claims i = some wake) :
    share claims counts i = if counts i then {wake} else 0 := by
  unfold share
  rw [full]
  rfl

/-- Only slots with a wake in them matter. -/
theorem stored_congr (same : ∀ i, claims i ≠ none → (counts i ↔ others i)) :
    stored claims counts = stored claims others := by
  refine Finset.sum_congr rfl fun i _ => ?_
  by_cases free : claims i = none
  · rw [share_free free, share_free free]
  · unfold share
    simp only [same i free]

/-- A wake that is put into an empty slot. -/
theorem stored_put
    (free : claims i = none)
    (wake : Wake) :
    stored (Function.update claims i (some wake)) counts =
      (if counts i then {wake} else 0) + stored claims counts := by
  have apart : ∀ k ∈ Finset.univ, k ≠ i →
      share (Function.update claims i (some wake)) counts k =
        share claims counts k := by
    intro k _ apart
    unfold share
    rw [Function.update_of_ne apart]
  have moved := Finset.sum_replace (Finset.mem_univ i) apart
  rw [share_free free, add_zero,
    share_full (Function.update_self i (some wake) claims)] at moved
  exact moved.trans (add_comm ..)

/-- A wake that is taken out of its slot. -/
theorem stored_take (full : claims i = some wake) :
    stored claims counts =
      (if counts i then {wake} else 0) +
        stored (Function.update claims i none) counts := by
  have put : Function.update (Function.update claims i none) i (some wake) =
      claims := by
    rw [Function.update_idem, ← full, Function.update_eq_self]
  have back : stored (Function.update (Function.update claims i none) i (some wake)) counts =
      (if counts i then {wake} else 0) + stored (Function.update claims i none) counts :=
    stored_put (Function.update_self i none claims) wake
  rwa [put] at back

end Stored

/-- What the holder passes without a wake changes nothing. -/
theorem passed_congr
    (same : ∀ i, claims i ≠ none → (after.Passed i ↔ place.Passed i)) :
    ahead claims after = ahead claims place ∧
      behind claims after = behind claims place :=
  ⟨stored_congr fun i full => not_congr (same i full), stored_congr same⟩

/-- Every slot is ahead of the holder or behind it. -/
theorem ahead_add_behind
    (claims : Fin deferredWakes → Option Wake)
    (place : Place) :
    ahead claims place + behind claims place = ∑ i, bag (claims i) := by
  unfold ahead behind stored
  rw [← Finset.sum_add_distrib]
  refine Finset.sum_congr rfl fun i _ => ?_
  unfold share
  by_cases passed : place.Passed i
  · rw [if_neg (not_not_intro passed), if_pos passed, zero_add]
  · rw [if_pos passed, if_neg passed, add_zero]

/-- The wakes of full slots fill all of them. -/
theorem card_ahead_behind (full : ∀ i, claims i ≠ none) :
    (ahead claims place).card + (behind claims place).card = deferredWakes := by
  have each (i : Fin deferredWakes) : (bag (claims i)).card = 1 := by
    obtain ⟨wake, isFull⟩ := Option.ne_none_iff_exists'.1 (full i)
    rw [isFull]
    rfl
  rw [← Multiset.card_add, ahead_add_behind, Multiset.card_sum,
    Finset.sum_const_nat fun i _ => each i, Finset.card_univ, Fintype.card_fin,
    Nat.mul_one]

/-! ## The words and the account -/

/-- What the holder has loaded is what the slot holds. -/
def Place.Reads (claims : Fin deferredWakes → Option Wake) : Place → Prop
  | names i key => ∃ wake, claims i = some wake ∧ key = wake.key + 1
  | empties i key pid =>
      ∃ wake, claims i = some wake ∧ key = wake.key + 1 ∧ pid.toUInt32 = wake.pid
  | _ => True

/-- A handler has found all earlier slots full, or has taken the one it signs. -/
def Handler.Proper (claims : Fin deferredWakes → Option Wake) : Handler → Prop
  | tries j wake =>
      wake.key + 1 ≠ 0 ∧ ∀ i : Fin deferredWakes, i.val < j → claims i ≠ none
  | signs i wake => claims i = some wake

/-- The words of the slots, and where everyone is, say what the slots hold. -/
structure Backed (claims : Fin deferredWakes → Option Wake) (h : Holder) :
    Prop where
  free : ∀ i, claims i = none → h.keys i = 0
  key : ∀ i wake, claims i = some wake →
    h.keys i = wake.key + 1 ∧ wake.key + 1 ≠ 0
  pid : ∀ i wake, claims i = some wake →
    (h.pids i).toUInt32 = wake.pid ∨ .signs i wake ∈ h.handlers
  handlers : ∀ handler ∈ h.handlers, handler.Proper claims
  place : h.place.Reads claims

/-- A slot without a key is empty. -/
theorem Backed.none_of_key
    (backed : Backed claims h)
    (isZero : h.keys i = 0) : claims i = none := by
  by_contra full
  obtain ⟨wake, isFull⟩ := Option.ne_none_iff_exists'.1 full
  obtain ⟨isKey, nonzero⟩ := backed.key _ _ isFull
  exact nonzero (isKey.symm.trans isZero)

/-- A slot that holds a wake has a key. -/
theorem Backed.key_of_full
    (backed : Backed claims h)
    (full : claims i ≠ none) : h.keys i ≠ 0 := by
  obtain ⟨wake, isFull⟩ := Option.ne_none_iff_exists'.1 full
  obtain ⟨isKey, nonzero⟩ := backed.key _ _ isFull
  rw [isKey]
  exact nonzero

/-- Once every handler has signed, the words of the slots spell their wakes. -/
theorem Backed.waiting_eq
    (backed : Backed claims h)
    (alone : h.handlers = []) :
    waiting h.keys h.pids = ahead claims h.place + behind claims h.place := by
  rw [ahead_add_behind]
  refine Finset.sum_congr rfl fun i _ => congrArg bag ?_
  unfold held
  cases claim : claims i with
  | none => exact if_pos (backed.free i claim)
  | some wake =>
      obtain ⟨isKey, nonzero⟩ := backed.key i wake claim
      have isPid := (backed.pid i wake claim).resolve_right (by rw [alone]; nofun)
      rw [isKey, if_neg nonzero, isPid, UInt64.add_sub_cancel]

/-- The handlers go on, and nobody forgets to sign. -/
theorem Backed.handled
    (backed : Backed claims h)
    {handlers : List Handler}
    (signed : ∀ i wake, .signs i wake ∈ h.handlers → .signs i wake ∈ handlers)
    (proper : ∀ handler ∈ handlers, handler.Proper claims)
    (ledger : Ledger) :
    Backed claims { h with handlers := handlers, ledger := ledger } where
  free := backed.free
  key := backed.key
  pid := fun i wake full => (backed.pid i wake full).imp_right (signed i wake)
  handlers := proper
  place := backed.place

/-- A handler that looks for a slot has none to sign. -/
theorem mem_of_tries
    {j : Nat}
    {other : Wake}
    {outer : List Handler}
    (signs : .signs i other ∈ .tries j wake :: outer) : .signs i other ∈ outer :=
  (List.mem_cons.1 signs).resolve_left nofun

/-- Every wake that was left is somewhere, and once. -/
structure Accounts
    (waits : Multiset Wake)
    (claims : Fin deferredWakes → Option Wake)
    (h : Holder) : Prop where
  made : (h.ledger.made : Multiset Wake) + h.place.inHand + ahead claims h.place =
    waits + h.ledger.placed
  passed : behind claims h.place = h.ledger.late
  left : (h.ledger.left : Multiset Wake) =
    h.ledger.placed + h.ledger.late + h.ledger.lost + trying h.handlers
  room : h.ledger.lost ≠ [] → deferredWakes ≤
    waits.card + h.ledger.placed.length + h.ledger.late.length
  inside : h.place = .inside → h.ledger.late = []

/-- What holds of a critical section between any two accesses to memory. -/
def Sound (waits : Multiset Wake) (h : Holder) : Prop :=
  ∃ claims, Backed claims h ∧ Accounts waits claims h

/-! ## One access to memory -/

variable {waits : Multiset Wake}

theorem sound_acquired
    (s : State)
    (keys pids : Fin deferredWakes → UInt64) :
    Sound (waiting keys pids) (.acquired s keys pids) := by
  refine ⟨fun i => held (keys i) (pids i), ⟨?free, ?key, ?pid, nofun, trivial⟩,
    ⟨?made, ?behind, rfl, nofun, fun _ => rfl⟩⟩
  case free =>
    intro i free
    unfold held at free
    split at free
    · next isZero => exact isZero
    · cases free
  case key =>
    intro i wake full
    unfold held at full
    split at full
    · cases full
    · next nonzero =>
        obtain rfl := Option.some.inj full
        exact ⟨(UInt64.sub_add_cancel _ _).symm,
          (UInt64.sub_add_cancel _ _).symm ▸ nonzero⟩
  case pid =>
    intro i wake full
    unfold held at full
    split at full
    · cases full
    · obtain rfl := Option.some.inj full
      exact .inl rfl
  case made =>
    change 0 + 0 + ahead _ .inside = waiting keys pids + 0
    rw [zero_add, zero_add, add_zero]
    refine Finset.sum_congr rfl fun i _ => ?_
    exact if_pos not_false
  case behind =>
    refine Finset.sum_eq_zero fun i _ => ?_
    exact if_neg not_false

/-- The holder goes on to a place that passes no wake. -/
theorem Accounts.moves
    (accounts : Accounts waits claims h)
    (same : ∀ i, claims i ≠ none → (after.Passed i ↔ h.place.Passed i))
    (inHand : after.inHand = h.place.inHand)
    (apart : after ≠ .inside) :
    Accounts waits claims { h with place := after } where
  made := by
    rw [inHand, (passed_congr same).1]
    exact accounts.made
  passed := (passed_congr same).2.trans accounts.passed
  left := accounts.left
  room := accounts.room
  inside := fun isInside => absurd isInside apart

theorem Backed.moves
    (backed : Backed claims h)
    (reads : after.Reads claims) :
    Backed claims { h with place := after } where
  free := backed.free
  key := backed.key
  pid := backed.pid
  handlers := backed.handlers
  place := reads

/-- The holder scans a slot, or finds no more slots. -/
theorem Sound.scanned
    (backed : Backed claims h)
    (accounts : Accounts waits claims h)
    {j : Nat}
    (isPlace : h.place = .scans j)
    (dropped : h.drop = some later) : Sound waits later := by
  unfold Holder.drop at dropped
  rw [isPlace] at dropped
  dsimp only at dropped
  have stays {after : Place}
      (reads : after.Reads claims)
      (same : ∀ k, claims k ≠ none → (after.Passed k ↔ k.val < j))
      (empty : after.inHand = 0)
      (apart : after ≠ .inside) : Sound waits { h with place := after } := by
    refine ⟨claims, backed.moves reads, accounts.moves (fun k full => ?_) ?_ apart⟩
    · rw [isPlace]
      exact same k full
    · rw [isPlace]
      exact empty
  split at dropped
  · next inside =>
      split at dropped
      · next isZero =>
          obtain rfl := Option.some.inj dropped
          refine stays trivial (fun k full => ?_) rfl nofun
          have apart : k.val ≠ j := by
            rintro rfl
            exact full (backed.none_of_key isZero)
          change k.val < j + 1 ↔ k.val < j
          omega
      · next nonzero =>
          obtain rfl := Option.some.inj dropped
          obtain ⟨wake, full⟩ : ∃ wake, claims ⟨j, inside⟩ = some wake :=
            Option.ne_none_iff_exists'.1 fun free => nonzero (backed.free _ free)
          exact stays ⟨wake, full, (backed.key _ _ full).1⟩ (fun _ _ => Iff.rfl)
            rfl nofun
  · next beyond =>
      obtain rfl := Option.some.inj dropped
      refine stays trivial (fun k _ => iff_of_true trivial ?_) rfl nofun
      exact lt_of_lt_of_le k.isLt (Nat.le_of_not_lt beyond)

/-- The holder takes a wake out of its slot. -/
theorem Sound.emptied
    (backed : Backed claims h)
    (accounts : Accounts waits claims h)
    (alone : h.handlers = [])
    {key pid : UInt64}
    (isPlace : h.place = .empties i key pid) :
    Sound waits { h with
      keys := Function.update h.keys i 0
      place := .makes i key pid } := by
  have reads := backed.place
  rw [isPlace] at reads
  obtain ⟨wake, full, isKey, isPid⟩ := reads
  have apart {k : Fin deferredWakes} {other : Wake}
      (isFull : Function.update claims i none k = some other) :
      k ≠ i ∧ claims k = some other := by
    by_cases same : k = i
    · rw [same, Function.update_self] at isFull
      cases isFull
    · exact ⟨same, by rwa [Function.update_of_ne same] at isFull⟩
  have taken : ({ pid := pid.toUInt32, key := key - 1 } : Wake) = wake := by
    rw [isKey, isPid, UInt64.add_sub_cancel]
  have passes (k : Fin deferredWakes)
      (isFull : Function.update claims i none k ≠ none) :
      Place.Passed (.makes i key pid) k ↔ h.place.Passed k := by
    obtain ⟨other, isOther⟩ := Option.ne_none_iff_exists'.1 isFull
    have notIt := Fin.val_ne_of_ne (apart isOther).1
    rw [isPlace]
    change k.val ≤ i.val ↔ k.val < i.val
    omega
  have notPassed : ¬h.place.Passed i := by
    rw [isPlace]
    exact lt_irrefl i
  refine ⟨Function.update claims i none, ⟨fun k free => ?free, fun k other isFull => ?key,
    fun k other isFull => ?pid, alone ▸ nofun, trivial⟩,
    ⟨?made, ?behind, accounts.left, accounts.room, nofun⟩⟩
  case free =>
    change Function.update h.keys i 0 k = 0
    by_cases same : k = i
    · rw [same, Function.update_self]
    · rw [Function.update_of_ne same] at free ⊢
      exact backed.free k free
  case key =>
    obtain ⟨notIt, before⟩ := apart isFull
    change Function.update h.keys i 0 k = _ ∧ _
    rw [Function.update_of_ne notIt]
    exact backed.key k other before
  case pid => exact backed.pid k other (apart isFull).2
  case made =>
    have before := accounts.made
    have none : h.place.inHand = 0 := by
      rw [isPlace]
      rfl
    have kept : ahead (Function.update claims i .none) (.makes i key pid) =
        ahead (Function.update claims i .none) h.place := (passed_congr passes).1
    rw [none, add_zero, ahead, stored_take full, if_pos notPassed, ← add_assoc] at before
    change _ + ({{ pid := pid.toUInt32, key := key - 1 }} : Multiset Wake) + _ = _
    rw [taken, kept]
    exact before
  case behind =>
    have before := accounts.passed
    rw [behind, stored_take full, if_neg notPassed, zero_add] at before
    exact (passed_congr passes).2.trans before

/-- The holder makes the wake it has taken. -/
theorem Sound.made
    (backed : Backed claims h)
    (accounts : Accounts waits claims h)
    {key pid : UInt64}
    (isPlace : h.place = .makes i key pid) (s : State) :
    Sound waits { h with
      state := s
      place := .scans (i + 1)
      ledger := { h.ledger with
        made := h.ledger.made ++ [{ pid := pid.toUInt32, key := key - 1 }] } } := by
  have passes (k : Fin deferredWakes) (_ : claims k ≠ none) :
      Place.Passed (.scans (i + 1)) k ↔ h.place.Passed k := by
    rw [isPlace]
    exact Nat.lt_succ_iff
  refine ⟨claims, ⟨backed.free, backed.key, backed.pid, backed.handlers, trivial⟩,
    ⟨?made, (passed_congr passes).2.trans accounts.passed,
    accounts.left, accounts.room, nofun⟩⟩
  have before := accounts.made
  rw [← (passed_congr passes).1] at before
  rw [isPlace] at before
  change ((h.ledger.made ++ [_] : List Wake) : Multiset Wake) + 0 + _ = _
  rw [← Multiset.coe_add, add_zero]
  exact before

theorem Sound.drops
    (sound : Sound waits h)
    (alone : h.handlers = [])
    (dropped : h.drop = some later) : Sound waits later := by
  obtain ⟨claims, backed, accounts⟩ := sound
  cases isPlace : h.place with
  | inside =>
      rw [Holder.drop, isPlace] at dropped
      obtain rfl := Option.some.inj dropped
      refine ⟨claims, backed.moves trivial, accounts.moves (fun k _ => ?_) ?_ nofun⟩
      · rw [isPlace]
        exact iff_of_false (Nat.not_lt_zero k) not_false
      · rw [isPlace]
        rfl
  | scans j => exact .scanned backed accounts isPlace dropped
  | names i key =>
      rw [Holder.drop, isPlace] at dropped
      obtain rfl := Option.some.inj dropped
      have reads := backed.place
      rw [isPlace] at reads
      obtain ⟨wake, full, isKey⟩ := reads
      have signed : (h.pids i).toUInt32 = wake.pid := by
        refine (backed.pid i wake full).resolve_right ?_
        rw [alone]
        exact List.not_mem_nil
      refine ⟨claims, backed.moves ⟨wake, full, isKey, signed⟩,
        accounts.moves (fun k _ => ?_) ?_ nofun⟩
      · rw [isPlace]
        exact Iff.rfl
      · rw [isPlace]
        rfl
  | empties i key pid =>
      rw [Holder.drop, isPlace] at dropped
      obtain rfl := Option.some.inj dropped
      exact .emptied backed accounts alone isPlace
  | makes i key pid =>
      rw [Holder.drop, isPlace] at dropped
      obtain rfl := Option.some.inj dropped
      exact .made backed accounts isPlace _
  | out =>
      rw [Holder.drop, isPlace] at dropped
      cases dropped

/-- The holder's own work touches no slot. -/
theorem Sound.works
    (sound : Sound waits h)
    (change : State → State) :
    Sound waits { h with state := change h.state } := by
  obtain ⟨claims, backed, accounts⟩ := sound
  exact ⟨claims, ⟨backed.free, backed.key, backed.pid, backed.handlers,
    backed.place⟩, ⟨accounts.made, accounts.passed, accounts.left,
    accounts.room, accounts.inside⟩⟩

theorem Sound.interrupts
    (sound : Sound waits h)
    (real : wake.key + 1 ≠ 0) :
    Sound waits { h with
      handlers := .tries 0 wake :: h.handlers
      ledger := { h.ledger with left := h.ledger.left ++ [wake] } } := by
  obtain ⟨claims, backed, accounts⟩ := sound
  have proper : (Handler.tries 0 wake).Proper claims :=
    ⟨real, fun i early => absurd early (Nat.not_lt_zero i)⟩
  have handled := backed.handled (fun _ _ signs => List.mem_cons_of_mem _ signs)
    (List.forall_mem_cons.2 ⟨proper, backed.handlers⟩)
    { h.ledger with left := h.ledger.left ++ [wake] }
  refine ⟨claims, handled,
    ⟨accounts.made, accounts.passed, ?_, accounts.room, accounts.inside⟩⟩
  change ((h.ledger.left ++ [wake] : List Wake) : Multiset Wake) =
    _ + (wake ::ₘ trying h.handlers)
  rw [← Multiset.coe_add, accounts.left, Multiset.coe_singleton,
    ← Multiset.singleton_add, add_assoc, add_comm (trying _)]

theorem Accounts.took
    (accounts : Accounts waits claims h)
    (free : claims i = none)
    {j : Nat}
    {outer : List Handler}
    (isHandlers : h.handlers = .tries j wake :: outer) :
    Accounts waits (Function.update claims i (some wake))
      { h.take i wake with handlers := .signs i wake :: outer } := by
  have left := accounts.left
  rw [isHandlers] at left
  have aheadPut : stored _ (fun i => ¬h.place.Passed i) = _ := stored_put free wake
  have behindPut : stored _ h.place.Passed = _ := stored_put free wake
  have places : ((if h.place.Passed i then [] else [wake] : List Wake) : Multiset Wake) =
        (if ¬h.place.Passed i then {wake} else 0) ∧
      ((if h.place.Passed i then [wake] else [] : List Wake) : Multiset Wake) =
        if h.place.Passed i then {wake} else 0 := by
    by_cases passed : h.place.Passed i
    · rw [if_pos passed, if_pos passed, if_neg (not_not_intro passed), if_pos passed]
      exact ⟨rfl, rfl⟩
    · rw [if_neg passed, if_neg passed, if_pos passed, if_neg passed]
      exact ⟨rfl, rfl⟩
  have one : (if ¬h.place.Passed i then {wake} else 0) +
      (if h.place.Passed i then {wake} else 0) = ({wake} : Multiset Wake) := by
    by_cases passed : h.place.Passed i
    · rw [if_neg (not_not_intro passed), if_pos passed, zero_add]
    · rw [if_pos passed, if_neg passed, add_zero]
  generalize (if ¬h.place.Passed i then ({wake} : Multiset Wake) else 0) = early
    at aheadPut places one
  generalize (if h.place.Passed i then ({wake} : Multiset Wake) else 0) = late
    at behindPut places one
  refine ⟨?made, ?passed, ?left, fun isLost => ?room, fun isInside => ?inside⟩
  case made =>
    change (h.ledger.made : Multiset Wake) + h.place.inHand +
        ahead (Function.update claims i (some wake)) h.place =
      waits + ((h.ledger.placed ++ _ : List Wake) : Multiset Wake)
    rw [ahead, aheadPut, ← Multiset.coe_add, places.1, ← add_assoc waits,
      ← accounts.made, ahead]
    ac_rfl
  case passed =>
    change behind (Function.update claims i (some wake)) h.place =
      ((h.ledger.late ++ _ : List Wake) : Multiset Wake)
    rw [behind, behindPut, ← Multiset.coe_add, places.2, ← accounts.passed]
    exact add_comm ..
  case left =>
    change (h.ledger.left : Multiset Wake) =
      ((h.ledger.placed ++ _ : List Wake) : Multiset Wake) +
        ((h.ledger.late ++ _ : List Wake) : Multiset Wake) + h.ledger.lost +
        trying outer
    rw [← Multiset.coe_add, ← Multiset.coe_add, places.1, places.2, left, trying,
      ← Multiset.singleton_add, ← one]
    ac_rfl
  case room =>
    have enough := accounts.room isLost
    change deferredWakes ≤ waits.card + (h.ledger.placed ++ _).length +
      (h.ledger.late ++ _).length
    rw [List.length_append, List.length_append]
    omega
  case inside =>
    have inside : h.place = .inside := isInside
    have notPassed : ¬h.place.Passed i := by
      rw [inside]
      exact not_false
    change h.ledger.late ++ (if h.place.Passed i then [wake] else []) = []
    rw [accounts.inside inside, if_neg notPassed]
    rfl

/-- A handler takes an empty slot. -/
theorem Sound.took
    (backed : Backed claims h)
    (accounts : Accounts waits claims h)
    {j : Nat}
    {outer : List Handler}
    (isHandlers : h.handlers = .tries j wake :: outer)
    (isZero : h.keys i = 0) :
    Sound waits { h.take i wake with handlers := .signs i wake :: outer } := by
  obtain ⟨⟨real, -⟩, proper⟩ := List.forall_mem_cons.1 (isHandlers ▸ backed.handlers)
  have free := backed.none_of_key isZero
  have own : Function.update claims i (some wake) i = some wake :=
    Function.update_self ..
  have others {k : Fin deferredWakes} (apart : k ≠ i) :
      Function.update claims i (some wake) k = claims k :=
    Function.update_of_ne apart ..
  have stays {k : Fin deferredWakes} {other : Wake} (full : claims k = some other) :
      Function.update claims i (some wake) k = some other := by
    rwa [others]
    rintro rfl
    exact Option.some_ne_none _ (full.symm.trans free)
  refine ⟨_, ⟨fun k isFree => ?free, fun k other full => ?key,
    fun k other full => ?pid, List.forall_mem_cons.2 ⟨own, fun handler present => ?outer⟩,
    ?place⟩, accounts.took free isHandlers⟩
  case free =>
    have apart : k ≠ i := by
      rintro rfl
      rw [own] at isFree
      cases isFree
    change Function.update h.keys i (wake.key + 1) k = 0
    rw [others apart] at isFree
    rw [Function.update_of_ne apart]
    exact backed.free k isFree
  case key =>
    change Function.update h.keys i (wake.key + 1) k = _ ∧ _
    by_cases same : k = i
    · subst same
      rw [own] at full
      obtain rfl := Option.some.inj full
      rw [Function.update_self]
      exact ⟨rfl, real⟩
    · rw [others same] at full
      rw [Function.update_of_ne same]
      exact backed.key k other full
  case pid =>
    by_cases same : k = i
    · subst same
      rw [own] at full
      obtain rfl := Option.some.inj full
      exact .inr List.mem_cons_self
    · rw [others same] at full
      refine (backed.pid k other full).imp_right fun signs => ?_
      exact List.mem_cons_of_mem _ (mem_of_tries (isHandlers ▸ signs))
  case outer =>
    cases handler with
    | signs k other => exact stays (proper _ present)
    | tries j other =>
        obtain ⟨isReal, taken⟩ := proper _ present
        refine ⟨isReal, fun m early => ?_⟩
        obtain ⟨there, full⟩ := Option.ne_none_iff_exists'.1 (taken m early)
        rw [stays full]
        exact Option.some_ne_none there
  case place =>
    change h.place.Reads _
    have reads := backed.place
    cases isPlace : h.place with
    | names k key =>
        rw [isPlace] at reads
        obtain ⟨other, full, isKey⟩ := reads
        exact ⟨other, stays full, isKey⟩
    | empties k key pid =>
        rw [isPlace] at reads
        obtain ⟨other, full, both⟩ := reads
        exact ⟨other, stays full, both⟩
    | _ => trivial

/-- A handler goes on to the next slot. -/
theorem Sound.passed_over
    (backed : Backed claims h)
    (accounts : Accounts waits claims h)
    {j : Nat}
    {inside : j < deferredWakes}
    {outer : List Handler}
    (isHandlers : h.handlers = .tries j wake :: outer)
    (nonzero : h.keys ⟨j, inside⟩ ≠ 0) :
    Sound waits { h with handlers := .tries (j + 1) wake :: outer } := by
  obtain ⟨⟨real, taken⟩, proper⟩ :=
    List.forall_mem_cons.1 (isHandlers ▸ backed.handlers)
  have further : (Handler.tries (j + 1) wake).Proper claims := by
    refine ⟨real, fun m early => ?_⟩
    obtain before | same := Nat.lt_succ_iff_lt_or_eq.1 early
    · exact taken m before
    · obtain rfl : m = ⟨j, inside⟩ := Fin.ext same
      exact fun free => nonzero (backed.free _ free)
  have handled := backed.handled
    (fun _ _ signs => List.mem_cons_of_mem _ (mem_of_tries (isHandlers ▸ signs)))
    (List.forall_mem_cons.2 ⟨further, proper⟩) h.ledger
  have left := accounts.left
  rw [isHandlers] at left
  exact ⟨claims, handled,
    ⟨accounts.made, accounts.passed, left, accounts.room, accounts.inside⟩⟩

/-- A handler whose wake finds no slot goes away. -/
theorem Sound.misses
    (backed : Backed claims h)
    (accounts : Accounts waits claims h)
    {j : Nat}
    {outer : List Handler}
    (isHandlers : h.handlers = .tries j wake :: outer)
    (beyond : ¬j < deferredWakes) :
    Sound waits { h with
      handlers := outer
      ledger := { h.ledger with lost := h.ledger.lost ++ [wake] } } := by
  obtain ⟨⟨-, taken⟩, proper⟩ := List.forall_mem_cons.1 (isHandlers ▸ backed.handlers)
  have full (i : Fin deferredWakes) : claims i ≠ none :=
    taken i (lt_of_lt_of_le i.isLt (Nat.le_of_not_lt beyond))
  have handled := backed.handled
    (fun _ _ signs => mem_of_tries (isHandlers ▸ signs)) proper
    { h.ledger with lost := h.ledger.lost ++ [wake] }
  refine ⟨claims, handled,
    ⟨accounts.made, accounts.passed, ?left, fun _ => ?room, accounts.inside⟩⟩
  case left =>
    have left := accounts.left
    rw [isHandlers, trying, ← Multiset.singleton_add] at left
    change (h.ledger.left : Multiset Wake) = h.ledger.placed + h.ledger.late +
      ((h.ledger.lost ++ [wake] : List Wake) : Multiset Wake) + trying outer
    rw [left, ← Multiset.coe_add, Multiset.coe_singleton]
    ac_rfl
  case room =>
    have all : (ahead _ h.place).card + (behind _ h.place).card = deferredWakes :=
      card_ahead_behind full
    have made := congrArg Multiset.card accounts.made
    have late := congrArg Multiset.card accounts.passed
    rw [Multiset.card_add, Multiset.card_add, Multiset.card_add, Multiset.coe_card,
      Multiset.coe_card] at made
    rw [Multiset.coe_card] at late
    change deferredWakes ≤
      waits.card + h.ledger.placed.length + h.ledger.late.length
    omega

/-- A handler stores the process of its wake. -/
theorem Sound.signed
    (backed : Backed claims h)
    (accounts : Accounts waits claims h)
    {outer : List Handler}
    (isHandlers : h.handlers = .signs i wake :: outer) :
    Sound waits { h with
      pids := Function.update h.pids i wake.pid.toUInt64
      handlers := outer } := by
  obtain ⟨own, proper⟩ := List.forall_mem_cons.1 (isHandlers ▸ backed.handlers)
  have left := accounts.left
  rw [isHandlers] at left
  refine ⟨claims, ⟨backed.free, backed.key, fun k other isFull => ?_, proper,
    backed.place⟩,
    ⟨accounts.made, accounts.passed, left, accounts.room, accounts.inside⟩⟩
  change (Function.update h.pids i wake.pid.toUInt64 k).toUInt32 = other.pid ∨ _
  by_cases same : k = i
  · subst same
    obtain rfl := Option.some.inj (Eq.trans (Eq.symm own) isFull)
    rw [Function.update_self]
    exact .inl (UInt32.toUInt32_toUInt64 wake.pid)
  · rw [Function.update_of_ne same]
    refine (backed.pid k other isFull).imp_right fun signs => ?_
    exact (List.mem_cons.1 (isHandlers ▸ signs)).resolve_left fun isHead =>
      same (Handler.signs.inj isHead).1

theorem Sound.defers
    (sound : Sound waits h)
    (deferred : h.defer = some later) : Sound waits later := by
  obtain ⟨claims, backed, accounts⟩ := sound
  unfold Holder.defer at deferred
  split at deferred
  case h_1 => cases deferred
  case h_2 j wake outer isHandlers =>
    split at deferred
    · next inside =>
        split at deferred
        · next isZero =>
            obtain rfl := Option.some.inj deferred
            exact .took backed accounts isHandlers isZero
        · next nonzero =>
            obtain rfl := Option.some.inj deferred
            exact .passed_over backed accounts isHandlers nonzero
    · next beyond =>
        obtain rfl := Option.some.inj deferred
        exact .misses backed accounts isHandlers beyond
  case h_3 i wake outer isHandlers =>
    obtain rfl := Option.some.inj deferred
    exact .signed backed accounts isHandlers

theorem Sound.performs
    {step : Holder.Step}
    (sound : Sound waits h)
    (performed : h.perform step = some later) : Sound waits later := by
  cases step with
  | works change =>
      obtain ⟨-, same⟩ := Option.ite_none_right_eq_some.1 performed
      obtain rfl := Option.some.inj same
      exact sound.works change
  | drops =>
      obtain ⟨alone, dropped⟩ := Option.ite_none_right_eq_some.1 performed
      exact sound.drops alone dropped
  | interrupts wake =>
      obtain ⟨may, same⟩ := Option.ite_none_right_eq_some.1 performed
      obtain rfl := Option.some.inj same
      exact sound.interrupts may.2
  | defers => exact sound.defers performed

/-! ## Critical sections -/

/-- Only a handler that found all slots taken gives a wake up. -/
theorem Backed.refuses
    (backed : Backed claims h)
    {step : Holder.Step}
    (performed : h.perform step = some later)
    (refused : later.ledger.lost ≠ h.ledger.lost) : h.keys i ≠ 0 := by
  cases step with
  | works change =>
      obtain ⟨-, same⟩ := Option.ite_none_right_eq_some.1 performed
      obtain rfl := Option.some.inj same
      exact absurd rfl refused
  | drops =>
      obtain ⟨-, dropped⟩ := Option.ite_none_right_eq_some.1 performed
      unfold Holder.drop at dropped
      split at dropped
      case h_2 =>
        split at dropped
        · split at dropped <;> cases dropped <;> exact absurd rfl refused
        · cases dropped
          exact absurd rfl refused
      all_goals
        cases dropped
        try exact absurd rfl refused
  | interrupts wake =>
      obtain ⟨-, same⟩ := Option.ite_none_right_eq_some.1 performed
      obtain rfl := Option.some.inj same
      exact absurd rfl refused
  | defers =>
      have deferred : h.defer = some later := performed
      unfold Holder.defer at deferred
      split at deferred
      case h_1 => cases deferred
      case h_2 j wake outer isHandlers =>
        split at deferred
        · split at deferred <;> cases deferred <;> exact absurd rfl refused
        · next beyond =>
            obtain ⟨-, taken⟩ := backed.handlers (.tries j wake) (by simp [isHandlers])
            exact backed.key_of_full
              (taken i (lt_of_lt_of_le i.isLt (Nat.le_of_not_lt beyond)))
      case h_3 =>
        cases deferred
        exact absurd rfl refused

/-- What a critical section has made of the wakes that its handlers left, and of
those that it found in the slots. -/
structure Settled (waits : Multiset Wake) (h : Holder) : Prop where
  /-- Once no handler is about, every wake has been made, or is about to be, or is in
  a slot, or was given up; and it is so once. -/
  account : h.handlers = [] → waits + (h.ledger.left : Multiset Wake) =
    h.ledger.made + h.place.inHand + waiting h.keys h.pids + h.ledger.lost
  /-- No wake is made twice, and none is made up. -/
  once : (h.ledger.made : Multiset Wake) ≤ waits + h.ledger.placed
  /-- Once the lock is free, every wake is made that was left in a slot the holder
  had yet to look at. -/
  made : h.place = .out →
    (h.ledger.made : Multiset Wake) = waits + h.ledger.placed
  /-- Once the lock is free, the slots hold the wakes that were left in those the
  holder had passed, and no others. -/
  late : h.place = .out → h.handlers = [] → waiting h.keys h.pids = h.ledger.late
  /-- Once no handler is about, a wake was left ahead of the holder, or behind it, or
  found no slot. -/
  left : h.handlers = [] → (h.ledger.left : Multiset Wake) =
    h.ledger.placed + h.ledger.late + h.ledger.lost
  /-- Only the last part of a critical section is too late. -/
  inside : h.place = .inside → h.ledger.late = []
  /-- A wake is given up where all slots are taken. -/
  refused : ∀ step later, h.perform step = some later →
    later.ledger.lost ≠ h.ledger.lost → ∀ i, h.keys i ≠ 0
  /-- Eight wakes find a slot. -/
  room : waits.card + h.ledger.left.length ≤ deferredWakes → h.ledger.lost = []

/-- A holder that finds no wake of its own. -/
def unlocking (s : State) : Holder := .acquired s (fun _ => 0) fun _ => 0

/-- A handler leaves a wake, and the holder lets go. -/
def leftInside (wake : Wake) : List Holder.Step :=
  [.interrupts wake, .defers, .defers] ++ List.replicate 13 .drops

/-- A handler leaves a wake when the holder has looked at the first slot. -/
def leftBehind (wake : Wake) : List Holder.Step :=
  [.drops, .drops, .interrupts wake, .defers, .defers] ++ List.replicate 8 .drops

/-- What is left in a slot that the holder has passed stays there. -/
example (s : State) :
    ((leftBehind ⟨0, 42⟩).foldlM Holder.perform (unlocking s)).map (fun h =>
      (h.place, h.ledger.late, h.ledger.made)) = some (.out, [⟨0, 42⟩], []) :=
  rfl

/-! ## Timely wakes -/

section Timely

variable {step : Holder.Step} {steps : List Holder.Step}

/-- A handler that tries a slot tries one of the eight, and takes one only if the holder has
yet to look at it. -/
def Timely (h : Holder) : Holder.Step → Prop
  | .defers =>
      match h.handlers with
      | .tries i _ :: _ =>
          ∃ inside : i < deferredWakes, h.keys ⟨i, inside⟩ = 0 → ¬ h.place.Passed ⟨i, inside⟩
      | _ => True
  | _ => True

/-- How many wakes were left too late, or found no slot. -/
def Ledger.missed (ledger : Ledger) : Nat := ledger.late.length + ledger.lost.length

/-- A step of the holder moves on without missing a wake. -/
theorem Holder.drop_missed (dropped : h.drop = some later) :
    later.ledger.missed = h.ledger.missed := by
  unfold Holder.drop at dropped
  split at dropped
  case h_2 =>
    split at dropped
    · split at dropped
      · cases dropped
        rfl
      · cases dropped
        rfl
    · cases dropped
      rfl
  all_goals
    cases dropped
    try rfl

/-- A wake is missed by a step that is not timely, and by no other. -/
theorem missed_step (performed : h.perform step = some later) :
    h.ledger.missed ≤ later.ledger.missed ∧
      (later.ledger.missed = h.ledger.missed ↔ Timely h step) := by
  cases step with
  | works change =>
      obtain ⟨-, same⟩ := Option.ite_none_right_eq_some.1 performed
      obtain rfl := Option.some.inj same
      exact ⟨le_rfl, iff_of_true rfl trivial⟩
  | drops =>
      obtain ⟨-, dropped⟩ := Option.ite_none_right_eq_some.1 performed
      have same := Holder.drop_missed dropped
      exact ⟨same.ge, iff_of_true same trivial⟩
  | interrupts wake =>
      obtain ⟨-, same⟩ := Option.ite_none_right_eq_some.1 performed
      obtain rfl := Option.some.inj same
      exact ⟨le_rfl, iff_of_true rfl trivial⟩
  | defers =>
      have deferred : h.defer = some later := performed
      unfold Holder.defer at deferred
      unfold Timely
      split at deferred
      case h_1 => cases deferred
      case h_2 i wake outer isHandlers =>
        rw [isHandlers]
        dsimp only
        split at deferred
        · rename_i inside
          split at deferred
          · rename_i isZero
            obtain rfl := Option.some.inj deferred
            unfold Ledger.missed Holder.take
            dsimp only
            by_cases passed : h.place.Passed ⟨i, inside⟩
            · rw [if_pos passed, List.length_append, List.length_singleton]
              refine ⟨by omega, iff_of_false (by omega) ?_⟩
              rintro ⟨_, timely⟩
              exact timely isZero passed
            · rw [if_neg passed, List.append_nil]
              exact ⟨le_rfl, iff_of_true rfl ⟨inside, fun _ => passed⟩⟩
          · rename_i nonzero
            obtain rfl := Option.some.inj deferred
            exact ⟨le_rfl, iff_of_true rfl ⟨inside, fun isZero => absurd isZero nonzero⟩⟩
        · rename_i beyond
          obtain rfl := Option.some.inj deferred
          unfold Ledger.missed
          dsimp only
          rw [List.length_append, List.length_singleton]
          refine ⟨by omega, iff_of_false (by omega) ?_⟩
          rintro ⟨inside, -⟩
          exact beyond inside
      case h_3 i wake outer isHandlers =>
        obtain rfl := Option.some.inj deferred
        rw [isHandlers]
        exact ⟨le_rfl, iff_of_true rfl trivial⟩

/-- No wake was missed in exactly the runs whose steps are all timely. -/
theorem missed_iff {start : Holder} (fresh : start.ledger.missed = 0)
    (run : (system start).Run start steps h) :
    h.ledger.missed = 0 ↔ ((system start).restrict Timely).Run start steps h := by
  constructor
  · intro none
    induction run with
    | refl => exact .refl _
    | @tail h later steps step before performed ih =>
        obtain ⟨grows, timely⟩ := missed_step performed
        have noneBefore : h.ledger.missed = 0 := by omega
        exact .tail (ih noneBefore) ⟨timely.1 (none.trans noneBefore.symm), performed⟩
  · intro restricted
    clear run
    induction restricted with
    | refl => exact fresh
    | tail before step ih => exact ((missed_step step.2).2.2 step.1).trans ih

/-- Nobody interrupts a holder that has left the lock. -/
theorem alone_of_out {start : Holder} (within : start.place ≠ .out)
    (reachable : (system start).Reachable h) : h.place = .out → h.handlers = [] := by
  have initial : ∀ first, (system start).init first → first.place = .out →
      first.handlers = [] := by
    rintro first rfl isOut
    exact absurd isOut within
  refine reachable.invariant initial ?_
  intro h step later alone performed isOut
  cases step with
  | works change =>
      obtain ⟨⟨-, alone⟩, same⟩ := Option.ite_none_right_eq_some.1 performed
      obtain rfl := Option.some.inj same
      exact alone
  | drops =>
      obtain ⟨alone, dropped⟩ := Option.ite_none_right_eq_some.1 performed
      rw [← alone]
      unfold Holder.drop at dropped
      split at dropped
      case h_2 =>
        split at dropped
        · split at dropped
          · cases dropped
            rfl
          · cases dropped
            rfl
        · cases dropped
          rfl
      all_goals
        cases dropped
        try rfl
  | interrupts wake =>
      obtain ⟨⟨within, -⟩, same⟩ := Option.ite_none_right_eq_some.1 performed
      obtain rfl := Option.some.inj same
      exact absurd isOut within
  | defers =>
      have deferred : h.defer = some later := performed
      have samePlace : later.place = h.place := by
        unfold Holder.defer at deferred
        split at deferred
        case h_1 => cases deferred
        case h_2 =>
          split at deferred
          · split at deferred
            · cases deferred
              rfl
            · cases deferred
              rfl
          · cases deferred
            rfl
        case h_3 =>
          cases deferred
          rfl
      have none := alone (samePlace ▸ isOut)
      unfold Holder.defer at deferred
      rw [none] at deferred
      cases deferred

/-- Every wake that was found in the slots or left by a handler has been made, once. -/
def AllMade (waits : Multiset Wake) (h : Holder) : Prop :=
  (h.ledger.made : Multiset Wake) = waits + h.ledger.left

/-- Nine handlers in turn, before the holder lets go. -/
def leftNine (wake : Wake) : List Holder.Step :=
  (List.range 8).flatMap (fun i => .interrupts wake :: List.replicate (i + 2) .defers) ++
    .interrupts wake :: List.replicate 9 .defers ++ List.replicate 34 .drops

end Timely

end Deferred
end Derp
