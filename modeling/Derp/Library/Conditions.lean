import Derp.Library.Transition
import Mathlib.Data.Finset.Basic
import Mathlib.Data.Finset.Lattice.Lemmas

/-!
# Conditions and those who wait for them

Waiters join one line, each for a condition.  A signal releases the first in
line that waits for its condition, a broadcast all of them.  A wait is over when
its waiter was released, or when the waiter gives up after its deadline; who
gives up has left the line, and no signal is spent on it.
-/

universe u v

/-- A place in the line. -/
structure Conditions.Entry (ι : Type u) (κ : Type v) where
  who : ι
  key : κ
  /-- When the waiter may give up (none: never). -/
  deadline : Option Nat
  /-- The clock has reached the deadline. -/
  late : Bool := false

/-- Who waits, in order of arrival, and who was released and has not gone on. -/
structure Conditions (ι : Type u) (κ : Type v) where
  line : List (Conditions.Entry ι κ) := []
  released : Finset ι := ∅

namespace Conditions

/-- What can be seen of conditions. -/
inductive Event (ι : Type u) (κ : Type v)
  | enqueue (who : ι) (key : κ) (deadline : Option Nat)
  /-- A signal, or a broadcast, and whom it releases. -/
  | wake (key : κ) (all : Bool) (woken : Finset ι)
  /-- A wait is over, and reports whether it was signaled. -/
  | finish (who : ι) (signaled : Bool)
  /-- Waiters are gone for good. -/
  | exit (gone : Finset ι)
  | clock (now : Nat)

variable
  {ι : Type u}
  {κ : Type v}

/-- The deadline of an entry, if it has one, is not later than a time. -/
def Entry.due (now : Nat) (e : Entry ι κ) : Bool :=
  e.deadline.any (· ≤ now)

/-- The clock shows a time. -/
def tick (c : Conditions ι κ) (now : Nat) : Conditions ι κ :=
  { c with line := c.line.map fun e => { e with late := e.late || e.due now } }

section Waiters

variable [DecidableEq ι]

/-- Some leave the line. -/
def drop (c : Conditions ι κ) (who : Finset ι) : Conditions ι κ :=
  { c with line := c.line.filter (·.who ∉ who) }

def release (c : Conditions ι κ) (who : Finset ι) : Conditions ι κ :=
  { c.drop who with released := c.released ∪ who }

/-- Some are gone, wherever they were. -/
def without (c : Conditions ι κ) (gone : Finset ι) : Conditions ι κ :=
  { c.drop gone with released := c.released \ gone }

theorem release_empty (c : Conditions ι κ) : c.release ∅ = c := by
  unfold release drop
  simp

theorem release_release (c : Conditions ι κ) (first second : Finset ι) :
    (c.release first).release second = c.release (first ∪ second) := by
  unfold release drop
  dsimp only
  rw [List.filter_filter, Finset.union_assoc]
  congr 1
  apply List.filter_congr
  intro e _
  simp [Bool.and_comm]

end Waiters

section Keys

variable [DecidableEq κ]

/-- Those who wait for a condition, in order of arrival. -/
def waiting (c : Conditions ι κ) (key : κ) : List ι :=
  (c.line.filter (·.key = key)).map Entry.who

theorem mem_waiting
    {c : Conditions ι κ}
    {key : κ}
    {i : ι} :
    i ∈ c.waiting key ↔ ∃ e ∈ c.line, e.key = key ∧ e.who = i := by
  unfold waiting
  simp only [List.mem_map, List.mem_filter, decide_eq_true_eq, and_assoc]

end Keys

variable
  [DecidableEq ι]
  [DecidableEq κ]

/-- Whom a signal or a broadcast releases. -/
def woken (c : Conditions ι κ) (key : κ) (all : Bool) : Finset ι :=
  (if all then c.waiting key else (c.waiting key).take 1).toFinset

/-- The steps of conditions. -/
inductive Step :
    Conditions ι κ → Event ι κ → Conditions ι κ → Prop
  | enqueue {c : Conditions ι κ} {who : ι} (key : κ)
      (deadline : Option Nat) :
      (∀ e ∈ c.line, e.who ≠ who) → who ∉ c.released →
      Step c (.enqueue who key deadline)
        { c with line := c.line ++ [⟨who, key, deadline, false⟩] }
  | wake {c : Conditions ι κ} (key : κ) (all : Bool) :
      Step c (.wake key all (c.woken key all)) (c.release (c.woken key all))
  | signaled {c : Conditions ι κ} {who : ι} :
      who ∈ c.released →
      Step c (.finish who true) { c with released := c.released.erase who }
  | timedOut {c : Conditions ι κ} {e : Entry ι κ} :
      e ∈ c.line → e.late = true →
      Step c (.finish e.who false) (c.drop {e.who})
  | exit {c : Conditions ι κ} (gone : Finset ι) :
      Step c (.exit gone) (c.without gone)
  | clock {c : Conditions ι κ} (now : Nat) :
      Step c (.clock now) (c.tick now)

/-- The runs of conditions, from one where nobody waits. -/
def system (ι : Type u) (κ : Type v) [DecidableEq ι] [DecidableEq κ] :
    Transition (Conditions ι κ) (Event ι κ) where
  init := fun c => c = {}
  step := Step

variable
  {c : Conditions ι κ}
  {i : ι}
  {key : κ}

theorem waiting_release (c : Conditions ι κ) (who : Finset ι) (key : κ) :
    (c.release who).waiting key = (c.waiting key).filter (· ∉ who) := by
  unfold waiting release drop
  dsimp only
  rw [List.filter_filter, List.filter_map, List.filter_filter]
  congr 1
  apply List.filter_congr
  intro e _
  simp [Bool.and_comm]

theorem mem_woken {all : Bool} (woken : i ∈ c.woken key all) :
    i ∈ c.waiting key := by
  unfold Conditions.woken at woken
  rw [List.mem_toFinset] at woken
  split at woken
  · exact woken
  · exact List.mem_of_mem_take woken

theorem woken_nil (none : c.waiting key = []) (all : Bool) :
    c.woken key all = ∅ := by
  unfold woken
  rw [none]
  cases all <;> rfl

end Conditions
