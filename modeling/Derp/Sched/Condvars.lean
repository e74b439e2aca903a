import Derp.Library.Conditions
import Derp.Sched.Tidy

/-!
# Condition variables

A wait of a scheduled thread is a number of critical sections: it queues on the
condition, looks for a signal, blocks, looks whether its deadline passed, and
leaves the queue if it did.  Between them everything else may happen.
-/

namespace Derp
namespace State

/-! ## The pieces of a wait -/

/-- Take the mark of a thread that was signaled. -/
def takeSignaled (s : State) (me : ThreadId) : State × Bool :=
  (s.modifyThread me fun t => { t with signaled := false },
    (s.threads me).signaled)

/-- Take the mark of a thread whose deadline passed. -/
def takeTimedOut (s : State) (me : ThreadId) : State × Bool :=
  (s.modifyThread me fun t => { t with timedOut := false },
    (s.threads me).timedOut)

/-- Leave the queue of a condition after the deadline.  A signal that raced the
deadline still counts. -/
def condLeave (s : State) (me : ThreadId) : State × Bool :=
  (s.modifyThread me fun t => { t with condKey := 0, signaled := false },
    (s.threads me).signaled)

/-- A wake from outside the schedule came since the thread last looked. -/
def wokenOutside (s : State) (me : ThreadId) : Bool :=
  (s.threads me).wakesSeen ≠ (s.procs (s.threads me).pid).outsideWakes

/-- The thread looks again instead of blocking. -/
def lookAgain (s : State) (me : ThreadId) : State :=
  s.modifyThread me fun t =>
    { t with
      timedOut := false
      wakesSeen := (s.procs t.pid).outsideWakes }

/-- A deadline of 0 would mean none. -/
def deadlineWord (deadline : Option Nat) : Nat :=
  deadline.elim 0 (max 1)

/-- The thread gives the baton up, blocked on `key`. -/
def yieldBlocked
    (fuel : Nat)
    (s : State)
    (me : ThreadId)
    (key : Nat)
    (deadline : Option Nat) : Option State :=
  ((s.setDeadline me (deadlineWord deadline)).handOff fuel
    (some (me, .blocked, key)) (UInt64.ofNat key)).map Prod.fst

end State

/-! ## The threads that wait -/

/-- Where a thread is in its wait. -/
inductive WaitStage
  /-- It is about to look for a signal. -/
  | looking
  /-- It saw none, and is about to block. -/
  | blocking
  /-- It gave the baton up. -/
  | parked
  /-- Its deadline passed. -/
  | late
  deriving DecidableEq

/-- A wait that is not over. -/
structure Wait where
  cond : Nat
  deadline : Option Nat
  stage : WaitStage
  deriving DecidableEq

/-- The shared state, and the waits that are not over. -/
structure Condvars where
  state : State
  wait : ThreadId → Option Wait := fun _ => none

namespace Condvars

/-- What may happen: the pieces of waits, and all else. -/
inductive Action
  | enqueue (id : ThreadId) (cond : Nat) (deadline : Option Nat)
  | look (id : ThreadId)
  | block (id : ThreadId)
  | resume (id : ThreadId)
  | leave (id : ThreadId)
  | other (op : State.Op)

def setState (w : Condvars) (s : State) : Condvars :=
  { w with state := s }

def setWait (w : Condvars) (id : ThreadId) (wait : Option Wait) : Condvars :=
  { w with wait := Function.update w.wait id wait }

def setStage (w : Condvars) (id : ThreadId) (stage : WaitStage) : Condvars :=
  w.setWait id ((w.wait id).map fun wait => { wait with stage := stage })

/-- The thread has the baton, and is at a stage of a wait. -/
def At (w : Condvars) (id : ThreadId) (stage : WaitStage) : Prop :=
  w.state.Holds id ∧ (w.wait id).map Wait.stage = some stage

/-- The thread that waits for something after an operation. -/
def waiter : State.Op → Option ThreadId
  | .setDeadline id deadline => if deadline = 0 then none else some id
  | .handOff (some (id, .blocked, _)) _ => some id
  | _ => none

def isEnqueue : State.Op → Bool
  | .condEnqueue _ _ => true
  | _ => false

/-- While a thread waits it begins no other wait, and blocks on nothing else; it
may give the baton up between two pieces of its wait. -/
def Allows (w : Condvars) (op : State.Op) : Prop :=
  isEnqueue op = false ∧ ∀ id ∈ waiter op, w.wait id = none

def Possible (w : Condvars) : Action → Prop
  | .enqueue id cond _ =>
      w.state.Possible (.condEnqueue id cond) ∧ w.wait id = none
  | .look id => w.At id .looking
  | .block id => w.At id .blocking
  | .resume id => w.At id .parked ∧ (w.state.threads id).state = .running
  | .leave id => w.At id .late
  | .other op => w.state.Possible op ∧ w.Allows op

/-- Carry an action out. -/
def exec (fuel : Nat) (w : Condvars) : Action → Option Condvars
  | .enqueue id cond deadline =>
      some ((w.setState (w.state.condEnqueue id cond)).setWait id
        (some { cond := cond, deadline := deadline, stage := .looking }))
  | .look id =>
      let (s, signaled) := w.state.takeSignaled id
      some (if signaled then (w.setState s).setWait id none
        else (w.setState s).setStage id .blocking)
  | .block id =>
      (w.wait id).bind fun wait =>
        -- The mark of a passed deadline was just cleared, and a thread that
        -- has the baton gets none.
        if w.state.wokenOutside id then
          some ((w.setState (w.state.lookAgain id)).setStage id .looking)
        else
          (w.state.yieldBlocked fuel id wait.cond wait.deadline).map fun s =>
            (w.setState s).setStage id .parked
  | .resume id =>
      let (s, timedOut) := w.state.takeTimedOut id
      some ((w.setState s).setStage id (if timedOut then .late else .looking))
  | .leave id =>
      some ((w.setState (w.state.condLeave id).1).setWait id none)
  | .other op =>
      (w.state.exec fuel op).map fun result => w.setState result.1

/-- A condition of a process. -/
abbrev Key := Pid × Nat

/-- Who was marked as signaled. -/
def released (s later : State) : Finset ThreadId :=
  (s.live.filter fun id =>
    !(s.threads id).signaled && (later.threads id).signaled).toFinset

/-- Who left the schedule for good. -/
def gone (s later : State) : Finset ThreadId :=
  (s.live.filter fun id =>
    (s.threads id).state ≠ .exited && (later.threads id).state = .exited)
    |>.toFinset

/-- What an action does to conditions. -/
def shown
    (w later : Condvars) : Action → List (Conditions.Event ThreadId Key)
  | .enqueue id cond deadline =>
      [.enqueue id ((w.state.threads id).pid, cond) deadline]
  | .look id =>
      if (w.state.takeSignaled id).2 then [.finish id true] else []
  | .leave id => [.finish id (w.state.condLeave id).2]
  | .other (.condWake pid cond all) =>
      [.wake (pid, cond) all (released w.state later.state)]
  | _ => []

/-- What can be seen of an action: what it does to conditions, whose threads
are gone, and the time. -/
def seen
    (w later : Condvars)
    (action : Action) : List (Conditions.Event ThreadId Key) :=
  w.shown later action ++
    [.exit (gone w.state later.state), .clock later.state.clockNs]

/-- The runs of the schedule whose threads wait on conditions. -/
def system :
    Transition Condvars (Action × List (Conditions.Event ThreadId Key)) where
  init := fun w => State.schedule.init w.state ∧ ∀ id, w.wait id = none
  step := fun w label later =>
    w.Possible label.1 ∧ (∃ fuel, w.exec fuel label.1 = some later) ∧
      label.2 = w.seen later label.1

instance (w : Condvars) (id : ThreadId) (stage : WaitStage) :
    Decidable (w.At id stage) :=
  inferInstanceAs (Decidable (_ ∧ _))

instance (w : Condvars) (op : State.Op) : Decidable (w.Allows op) :=
  inferInstanceAs (Decidable (_ ∧ _))

instance (w : Condvars) (action : Action) : Decidable (w.Possible action) := by
  unfold Possible
  split <;> infer_instance

/-- Carry out actions one after the other, as long as they are possible. -/
def play (fuel : Nat) : List Action → Condvars → Option Condvars
  | [], w => some w
  | action :: actions, w =>
      if w.Possible action then (w.exec fuel action).bind (play fuel actions)
      else none

theorem run_play
    {fuel : Nat}
    {actions : List Action}
    {w later : Condvars}
    (played : play fuel actions w = some later) :
    ∃ labels, labels.map Prod.fst = actions ∧ system.Run w labels later := by
  induction actions generalizing w with
  | nil =>
      obtain rfl := Option.some.inj played
      exact ⟨[], rfl, .refl w⟩
  | cons action actions inductionHypothesis =>
      unfold play at played
      split at played
      · next possible =>
          obtain ⟨middle, done, rest⟩ := Option.bind_eq_some_iff.1 played
          obtain ⟨labels, rfl, run⟩ := inductionHypothesis rest
          have step : system.step w (action, w.seen middle action) middle :=
            ⟨possible, ⟨fuel, done⟩, rfl⟩
          exact ⟨(action, w.seen middle action) :: labels, rfl, run.cons step⟩
      · cases played

end Condvars
end Derp
