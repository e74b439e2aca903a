import Derp.Sched.Parked

/-!
# Locks that park

A contended lock of the guest would sleep in the kernel with the baton held.
Instead a thread tries, and blocks in the scheduler on the lock's address while
it is busy; whoever lets the lock go wakes all that are blocked there.  Threads
that the scheduler does not run take and release the same locks at any time: the
wakes of a process from outside are counted, and a thread that is about to block
looks again when one came since it last looked.  So no wake is lost.
-/

namespace Derp

/-! ## Locks -/

/-- A thread of the schedule, or one of a process that the schedule does not
run. -/
inductive Who
  | scheduled (id : ThreadId)
  | outside (pid : Pid) (number : Nat)
  deriving DecidableEq

/-- What threads lock, as the system keeps it. -/
inductive Lockable
  /-- Held by a thread, some number of times. -/
  | mutex (recursive : Bool) (holder : Option (Who × Nat))
  | rwlock (readers : Nat) (writer : Option Who)
  | semaphore (count : Nat)
  deriving DecidableEq

inductive Request
  | mutex
  | read
  | write
  | semaphore
  deriving DecidableEq

namespace Lockable

/-- `pthread_mutex_trylock`, `pthread_rwlock_tryrdlock` and `_trywrlock`, and a
wait on a semaphore that does not wait: none where they find it busy.  Asked for
something else, they fail at once. -/
def attempt (who : Who) : Request → Lockable → Option Lockable
  | .mutex, .mutex recursive none => some (.mutex recursive (some (who, 1)))
  | .mutex, .mutex recursive (some (holder, depth)) =>
      if recursive ∧ holder = who then
        some (.mutex recursive (some (holder, depth + 1)))
      else none
  | .read, .rwlock readers none => some (.rwlock (readers + 1) none)
  | .read, .rwlock _ (some _) => none
  | .write, .rwlock 0 none => some (.rwlock 0 (some who))
  | .write, .rwlock _ _ => none
  | .semaphore, .semaphore (count + 1) => some (.semaphore count)
  | .semaphore, .semaphore 0 => none
  | _, lockable => some lockable

/-- An unlock, or a signal of a semaphore. -/
def release (who : Who) : Lockable → Lockable
  | .mutex false (some _) => .mutex false none
  | .mutex true (some (holder, depth)) =>
      if holder = who then
        .mutex true (if depth ≤ 1 then none else some (holder, depth - 1))
      else .mutex true (some (holder, depth))
  | .rwlock readers (some _) => .rwlock readers none
  | .rwlock (readers + 1) none => .rwlock readers none
  | .semaphore count => .semaphore (count + 1)
  | lockable => lockable

variable {who other : Who} {request wanted : Request} {lockable later : Lockable}

/-- Nobody makes a lock free by taking it. -/
theorem attempt_refused
    (refused : lockable.attempt who request = none)
    (taken : lockable.attempt other wanted = some later) :
    later.attempt who request = none := by
  cases lockable with
  | mutex recursive holder =>
      cases holder with
      | none => cases request <;> cases refused
      | some held =>
          obtain ⟨holder, depth⟩ := held
          cases request with
          | mutex =>
              have others : ¬(recursive = true ∧ holder = who) := by
                intro own
                rw [attempt, if_pos own] at refused
                cases refused
              cases wanted with
              | mutex =>
                  rw [attempt] at taken
                  split at taken
                  · obtain rfl := Option.some.inj taken
                    exact if_neg others
                  · cases taken
              | read | write | semaphore =>
                  obtain rfl := Option.some.inj taken
                  exact refused
          | read | write | semaphore => cases refused
  | rwlock readers writer =>
      cases request with
      | mutex | semaphore => cases writer <;> cases refused
      | read =>
          cases writer with
          | none => cases refused
          | some writer =>
              cases wanted with
              | mutex | semaphore =>
                  obtain rfl := Option.some.inj taken
                  rfl
              | read => cases taken
              | write => cases readers <;> cases taken
      | write =>
          cases wanted with
          | mutex | semaphore =>
              cases writer <;> obtain rfl := Option.some.inj taken <;> exact refused
          | read =>
              cases writer with
              | none =>
                  obtain rfl := Option.some.inj taken
                  rfl
              | some writer => cases taken
          | write =>
              cases writer with
              | none =>
                  cases readers with
                  | zero => cases refused
                  | succ readers => cases taken
              | some writer => cases readers <;> cases taken
  | semaphore count =>
      cases request with
      | mutex | read | write => cases count <;> cases refused
      | semaphore =>
          cases count with
          | zero =>
              cases wanted with
              | mutex | read | write =>
                  obtain rfl := Option.some.inj taken
                  rfl
              | semaphore => cases taken
          | succ count => cases refused

end Lockable
/-! ## Threads that lock -/

/-- Where a thread of the schedule is in a call that locks. -/
inductive Parking.Stage
  /-- It is about to try. -/
  | tries
  /-- It found the lock busy, and is about to block. -/
  | busy
  /-- It gave the baton up. -/
  | parked
  deriving DecidableEq

/-- A call that is not over. -/
structure Parking.Call where
  key : Nat
  request : Request
  stage : Parking.Stage
  deriving DecidableEq

/-- The shared state, the locks of every process at their addresses, the calls
that are not over, and the wakes that threads outside the schedule are about to
make. -/
structure Parking where
  state : State
  locks : Pid × Nat → Lockable
  call : ThreadId → Option Parking.Call := fun _ => none
  owed : List (Pid × Nat) := []

namespace Parking

/-- The process of a thread. -/
def pidOf (w : Parking) : Who → Pid
  | .scheduled id => (w.state.threads id).pid
  | .outside pid _ => pid

/-- What may happen: the pieces of calls, locks taken without a wait, locks let
go, wakes from outside, and all else. -/
inductive Action
  | asks (id : ThreadId) (key : Nat) (request : Request)
  | attempts (id : ThreadId)
  | blocks (id : ThreadId) (deadline : Option Nat)
  | resumes (id : ThreadId)
  | takes (who : Who) (key : Nat) (request : Request)
  | releases (who : Who) (key : Nat)
  | wakes (pid : Pid) (key : Nat)
  | other (op : State.Op)

def setState (w : Parking) (s : State) : Parking :=
  { w with state := s }

def setLock (w : Parking) (key : Pid × Nat) (lock : Lockable) : Parking :=
  { w with locks := Function.update w.locks key lock }

def setCall (w : Parking) (id : ThreadId) (call : Option Call) : Parking :=
  { w with call := Function.update w.call id call }

/-- The lock that a call is about. -/
def keyOf (w : Parking) (id : ThreadId) (call : Call) : Pid × Nat :=
  ((w.state.threads id).pid, call.key)

/-- A thread is in a call, and runs. -/
def At (w : Parking) (id : ThreadId) (stage : Stage) : Prop :=
  w.state.Holds id ∧ (w.state.threads id).state = .running ∧
    (w.call id).map Call.stage = some stage

/-- Whoever looks for a thread to run. -/
def looker : State.Op → Option ThreadId
  | .choose me _ => me
  | _ => none

/-- The baton is given up by no thread in a call but by its blocking. -/
def Allows (w : Parking) (op : State.Op) : Prop :=
  (∀ giver ∈ op.giver, w.call giver.1 = none) ∧
    ∀ id ∈ looker op, ∀ call ∈ w.call id, call.stage = .parked

/-- A thread of the schedule that has the baton and is in no call, or any thread
outside. -/
def Free (w : Parking) : Who → Prop
  | .scheduled id => w.state.Holds id ∧ w.call id = none
  | .outside pid _ => pid < w.state.nprocs

def Possible (w : Parking) : Action → Prop
  | .asks id key _ =>
      w.state.Holds id ∧ (w.state.threads id).state = .running ∧
        w.call id = none ∧ key ≠ restartKey
  | .attempts id => w.At id .tries
  | .blocks id deadline => w.At id .busy ∧
      ∀ call ∈ w.call id, call.request ≠ .semaphore → deadline = none
  | .resumes id => w.At id .parked
  | .takes who _ _ => w.Free who
  | .releases who key => w.Free who ∧ key ≠ restartKey
  | .wakes pid key => (pid, key) ∈ w.owed
  | .other op => w.state.Possible op ∧ w.Allows op

/-- A lock is let go.  Whoever has the baton goes on to the wake, and nobody else
of the schedule comes in between; a thread outside makes its wake later. -/
def released (w : Parking) (who : Who) (key : Nat) : Parking :=
  let at' := (w.pidOf who, key)
  let w := w.setLock at' ((w.locks at').release who)
  match who with
  | .scheduled _ => w.setState (w.state.wakeAll at'.1 key)
  | .outside _ _ => { w with owed := at' :: w.owed }

/-- Carry an action out. -/
def exec (fuel : Nat) (w : Parking) : Action → Option Parking
  | .asks id key request => some (w.setCall id (some ⟨key, request, .tries⟩))
  | .attempts id =>
      (w.call id).map fun call =>
        match (w.locks (w.keyOf id call)).attempt (.scheduled id) call.request with
        | some lock => (w.setLock (w.keyOf id call) lock).setCall id none
        | none => w.setCall id (some { call with stage := .busy })
  | .blocks id deadline =>
      (w.call id).bind fun call =>
        if w.state.wokenOutside id then
          some ((w.setState (w.state.lookAgain id)).setCall id
            (some { call with stage := .tries }))
        else
          (w.state.yieldBlocked fuel id call.key deadline).map fun s =>
            (w.setState s).setCall id (some { call with stage := .parked })
  | .resumes id =>
      (w.call id).map fun call =>
        -- Only a wait on a semaphore has a deadline, and looks at it.
        if call.request = .semaphore then
          let (s, timedOut) := w.state.takeTimedOut id
          (w.setState s).setCall id
            (if timedOut then none else some { call with stage := .tries })
        else w.setCall id (some { call with stage := .tries })
  | .takes who key request =>
      some (((w.locks (w.pidOf who, key)).attempt who request).elim w
        (w.setLock (w.pidOf who, key)))
  | .releases who key => some (w.released who key)
  | .wakes pid key =>
      some { w.setState ((w.state.noteOutsideWake pid).wakeAll pid key) with
        owed := w.owed.erase (pid, key) }
  | .other op => (w.state.exec fuel op).map fun result => w.setState result.1

/-- The runs of the schedule whose threads lock. -/
def system : Transition Parking Action where
  init := fun w =>
    State.schedule.init w.state ∧ (∀ id, w.call id = none) ∧ w.owed = []
  step := fun w action later =>
    w.Possible action ∧ ∃ fuel, w.exec fuel action = some later

instance (w : Parking) (id : ThreadId) (stage : Stage) : Decidable (w.At id stage) :=
  inferInstanceAs (Decidable (_ ∧ _ ∧ _))

instance (w : Parking) (op : State.Op) : Decidable (w.Allows op) :=
  inferInstanceAs (Decidable (_ ∧ _))

instance (w : Parking) (who : Who) : Decidable (w.Free who) := by
  unfold Free
  split <;> infer_instance

instance (w : Parking) (action : Action) : Decidable (w.Possible action) := by
  unfold Possible
  split <;> infer_instance

/-- Carry an action out if it is possible. -/
def perform (fuel : Nat) (w : Parking) (action : Action) : Option Parking :=
  if w.Possible action then w.exec fuel action else none

theorem step_perform
    {fuel : Nat}
    {w later : Parking}
    {action : Action}
    (performed : w.perform fuel action = some later) : system.step w action later := by
  unfold perform at performed
  split at performed
  · next possible => exact ⟨possible, fuel, performed⟩
  · cases performed

/-! ## The invariant -/

/-- The lock does not have what a call asks for. -/
def Refused (w : Parking) (id : ThreadId) (call : Call) : Prop :=
  (w.locks (w.keyOf id call)).attempt (.scheduled id) call.request = none

structure Sound (w : Parking) : Prop where
  tidy : w.state.Tidy
  oneBaton : w.state.OneBaton
  seen : w.state.Seen
  registered : ∀ {id}, w.call id ≠ none → id < w.state.nthreads
  owes : ∀ key ∈ w.owed, key.1 < w.state.nprocs ∧ key.2 ≠ restartKey
  /-- A thread between its attempt and its block has the baton. -/
  active : ∀ {id call}, w.call id = some call → call.stage ≠ .parked →
    (w.state.threads id).state ≠ .exited → w.state.current = some id
  /-- What it found is so, or a wake is on its way, or one has come. -/
  busy : ∀ {id call}, w.call id = some call → call.stage = .busy →
    (w.state.threads id).state ≠ .exited →
    w.Refused id call ∨ w.keyOf id call ∈ w.owed ∨
      (w.state.threads id).wakesSeen <
        (w.state.procs (w.state.threads id).pid).outsideWakes
  parked : ∀ {id call}, w.call id = some call → call.stage = .parked →
    (w.state.threads id).state = .blocked →
    (w.state.threads id).key = call.key ∧
      (w.Refused id call ∨ w.keyOf id call ∈ w.owed)

variable
  {w later : Parking}
  {s : State}
  {id : ThreadId}
  {call : Call}
  {fuel : Nat}
  {key : Nat}
  {who : Who}

theorem setCall_self (new : Option Call) : (w.setCall id new).call id = new := by
  unfold setCall
  dsimp only
  rw [Function.update_self]

theorem setCall_setState (new other : Option Call) :
    ((w.setCall id new).setState s).setCall id other =
      (w.setState s).setCall id other := by
  unfold setCall setState
  dsimp only
  rw [Function.update_idem]

/-- Another state in which the threads in calls stay parked. -/
theorem Sound.setState
    (sound : Sound w)
    (tidy : s.Tidy)
    (oneBaton : s.OneBaton)
    (seen : s.Seen)
    (nthreads : w.state.nthreads ≤ s.nthreads)
    (nprocs : w.state.nprocs ≤ s.nprocs)
    (thread : ∀ id, w.call id ≠ none →
      (w.state.threads id).StaysParked (s.threads id))
    (wakes : ∀ pid < w.state.nprocs,
      (w.state.procs pid).outsideWakes ≤ (s.procs pid).outsideWakes)
    (current : ∀ id call, w.call id = some call → call.stage ≠ .parked →
      w.state.current = some id → (s.threads id).state ≠ .exited →
      s.current = some id) : Sound (w.setState s) := by
  have present {id : ThreadId} {call : Call} (isCall : w.call id = some call) :
      w.call id ≠ none := by simp [isCall]
  have sameKey {id : ThreadId} {call : Call} (isCall : w.call id = some call) :
      (w.setState s).keyOf id call = w.keyOf id call := by
    unfold keyOf
    change ((s.threads id).pid, _) = _
    rw [(thread id (present isCall)).pid]
  have refused {id : ThreadId} {call : Call} (isCall : w.call id = some call) :
      (w.setState s).Refused id call ↔ w.Refused id call := by
    unfold Refused
    rw [sameKey isCall]
    exact .rfl
  refine ⟨tidy, oneBaton, seen, fun isCall => (sound.registered isCall).trans_le nthreads,
    fun key owed => (sound.owes key owed).imp_left (·.trans_le nprocs),
    fun {id} {call} isCall stage staying => ?_,
    fun {id} {call} isCall stage staying => ?_,
    fun {id} {call} isCall stage blocked => ?_⟩
  · refine current id call isCall stage (sound.active isCall stage fun exited => ?_) staying
    exact staying ((thread id (present isCall)).exited exited)
  · rw [refused isCall, sameKey isCall]
    have before := sound.busy isCall stage fun exited =>
      staying ((thread id (present isCall)).exited exited)
    refine before.imp_right (.imp_right fun less => ?_)
    change (s.threads id).wakesSeen < (s.procs (s.threads id).pid).outsideWakes
    rw [(thread id (present isCall)).wakesSeen, (thread id (present isCall)).pid]
    exact less.trans_le (wakes _ (sound.tidy.owner id (sound.registered (present isCall))))
  · rw [refused isCall, sameKey isCall]
    obtain ⟨before, same⟩ := (thread id (present isCall)).blocked blocked
    obtain ⟨isKey, rest⟩ := sound.parked isCall stage before
    exact ⟨same.trans isKey, rest⟩

/-- Another call of a thread, or none. -/
theorem Sound.setCall
    (sound : Sound w)
    (registered : id < w.state.nthreads)
    (new : Option Call)
    (active : ∀ call ∈ new, call.stage ≠ .parked → w.state.current = some id)
    (busy : ∀ call ∈ new, call.stage = .busy → w.Refused id call)
    (parked : ∀ call ∈ new, call.stage = .parked →
      (w.state.threads id).state = .blocked →
      (w.state.threads id).key = call.key ∧
        (w.Refused id call ∨ w.keyOf id call ∈ w.owed)) :
    Sound (w.setCall id new) := by
  have split {other : ThreadId} {call : Call}
      (isCall : (w.setCall id new).call other = some call) :
      other = id ∧ call ∈ new ∨ w.call other = some call := by
    change Function.update w.call id new other = some call at isCall
    by_cases same : other = id
    · subst same
      rw [Function.update_self] at isCall
      exact .inl ⟨rfl, isCall⟩
    · rw [Function.update_of_ne same] at isCall
      exact .inr isCall
  refine ⟨sound.tidy, sound.oneBaton, sound.seen, fun {other} isCall => ?_,
    sound.owes, fun isCall stage staying => ?_, fun isCall stage staying => ?_,
    fun isCall stage blocked => ?_⟩
  · obtain ⟨call, isCall⟩ := Option.ne_none_iff_exists'.1 isCall
    obtain ⟨rfl, -⟩ | before := split isCall
    · exact registered
    · exact sound.registered (Option.ne_none_iff_exists'.2 ⟨_, before⟩)
  · obtain ⟨rfl, isNew⟩ | before := split isCall
    · exact active _ isNew stage
    · exact sound.active before stage staying
  · obtain ⟨rfl, isNew⟩ | before := split isCall
    · exact .inl (busy _ isNew stage)
    · exact sound.busy before stage staying
  · obtain ⟨rfl, isNew⟩ | before := split isCall
    · exact parked _ isNew stage blocked
    · exact sound.parked before stage blocked

/-- The thread that has the baton is about to try. -/
theorem Sound.tries
    (sound : Sound w)
    (holds : w.state.Holds id)
    (isTry : call.stage = .tries) : Sound (w.setCall id (some call)) := by
  refine sound.setCall holds.2.1 _ (fun _ _ _ => holds.1) (fun _ isNew busy => ?_)
    fun _ isNew parked => ?_
  · rw [← Option.some.inj isNew, isTry] at busy
    cases busy
  · rw [← Option.some.inj isNew, isTry] at parked
    cases parked

/-- A lock is taken. -/
theorem Sound.taken
    (sound : Sound w)
    {at' : Pid × Nat}
    {request : Request}
    {lock : Lockable}
    (taken : (w.locks at').attempt who request = some lock) :
    Sound (w.setLock at' lock) := by
  have refused {id : ThreadId} {call : Call} (before : w.Refused id call) :
      (w.setLock at' lock).Refused id call := by
    unfold Refused
    change (Function.update w.locks at' lock (w.keyOf id call)).attempt _ _ = none
    by_cases same : w.keyOf id call = at'
    · rw [same, Function.update_self]
      unfold Refused at before
      rw [same] at before
      exact Lockable.attempt_refused before taken
    · rw [Function.update_of_ne same]
      exact before
  exact ⟨sound.tidy, sound.oneBaton, sound.seen, sound.registered, sound.owes,
    sound.active, fun isCall stage staying =>
      (sound.busy isCall stage staying).imp_left refused,
    fun isCall stage blocked =>
      (sound.parked isCall stage blocked).imp_right (.imp_left refused)⟩

/-! ## Steps of the schedule -/

/-- The baton stays with a thread that neither gives it up nor dies. -/
theorem stays_of_current
    {before after : State}
    {op : State.Op}
    {answer : State.Answer}
    (oneBaton : before.OneBaton)
    (possible : before.Possible op)
    (done : before.exec fuel op = some (after, answer))
    (notGiver : ∀ giver ∈ op.giver, giver.1 ≠ id)
    (notLooker : ∀ other ∈ looker op, other ≠ id)
    (current : before.current = some id)
    (staying : (after.threads id).state ≠ .exited) : op.Stays before := by
  cases op with
  | handOff src site =>
      cases src with
      | none =>
          have nobody : before.current = none := possible
          rw [current] at nobody
          cases nobody
      | some giver =>
          have last : before.current = some giver.1 := possible.1.1
          rw [current] at last
          exact absurd (Option.some.inj last).symm (notGiver giver rfl)
  | choose me site =>
      cases me with
      | none => exact possible.elim
      | some other =>
          have last : before.current = some other := possible.1
          rw [current] at last
          exact absurd (Option.some.inj last).symm (notLooker other rfl)
  | processDied pid status =>
      obtain ⟨⟨middle, handoff⟩, died, same⟩ := Option.map_eq_some_iff.1 done
      obtain rfl : middle = after := congrArg Prod.fst same
      have lulled := State.lulled_buried possible status
      obtain ⟨nobody, -, -⟩ | ⟨holder, passed, held, handed, -⟩ :=
        State.processDied_eq_some_iff.1 died
      · exact nobody
      · obtain ⟨last, inside, -⟩ := State.heldBy_eq_some held
        rw [lulled.current, current] at last
        obtain rfl := Option.some.inj last
        exact absurd (State.handed_gone (oneBaton.lulled lulled)
          (lulled.current.trans current) inside handed).2 staying
  | _ => trivial

/-- The baton is taken from no thread but by its own word, or its death. -/
theorem current_of_exec
    {before after : State}
    {op : State.Op}
    {answer : State.Answer}
    (oneBaton : before.OneBaton)
    (possible : before.Possible op)
    (done : before.exec fuel op = some (after, answer))
    (notGiver : ∀ giver ∈ op.giver, giver.1 ≠ id)
    (notLooker : ∀ other ∈ looker op, other ≠ id)
    (current : before.current = some id)
    (staying : (after.threads id).state ≠ .exited) : after.current = some id :=
  (State.lulled_of_stays (stays_of_current oneBaton possible done notGiver notLooker
    current staying) possible done).current.trans current

/-- Whatever else happens to the schedule. -/
theorem Sound.other
    {op : State.Op}
    {answer : State.Answer}
    (sound : Sound w)
    (possible : w.state.Possible op)
    (allows : w.Allows op)
    (done : w.state.exec fuel op = some (s, answer)) : Sound (w.setState s) := by
  obtain ⟨nthreads, nprocs, wakes⟩ := State.tables_of_exec possible done
  have notGiver {id : ThreadId} (present : w.call id ≠ none) :
      ∀ giver ∈ op.giver, giver.1 ≠ id := by
    rintro giver gives rfl
    exact present (allows.1 giver gives)
  refine sound.setState (State.tidy_of_exec sound.tidy possible done)
    (State.passed_of_exec sound.oneBaton possible done).oneBaton
    (State.seen_of_exec sound.tidy sound.seen possible done) nthreads nprocs
    (fun id present => State.staysParked_of_exec possible done
      (sound.registered present) (notGiver present)) wakes
    fun id call isCall stage current staying => ?_
  refine current_of_exec sound.oneBaton possible done
    (notGiver (by simp [isCall])) ?_ current staying
  rintro other looks rfl
  exact stage (allows.2 other looks call isCall)

/-! ## Every step -/

/-- A change of the record of the thread that has the baton. -/
theorem Sound.modifyThread
    (sound : Sound w)
    (registered : id < w.state.nthreads)
    {change : ThreadRec → ThreadRec}
    (same : ∀ t, (change t).pid = t.pid ∧ (change t).state = t.state ∧
      (change t).key = t.key ∧ (change t).wakesSeen = t.wakesSeen) :
    Sound (w.setState (w.state.modifyThread id change)) := by
  have keeps : State.KeepsParked w.state (w.state.modifyThread id change) :=
    State.keepsParked_modifyThread _ id (ThreadRec.staysParked_of_eq (same _).1
      (same _).2.2.2 (same _).2.1 (same _).2.2.1)
  have lulled : State.Lulled w.state (w.state.modifyThread id change) :=
    State.lulled_modifyThread _ id (ThreadRec.lulled_of_eq (same _).2.1)
  exact sound.setState (sound.tidy.modifyThread registered fun t => (same t).1)
    (sound.oneBaton.lulled lulled) (keeps.seen sound.tidy sound.seen) le_rfl le_rfl
    (fun id present => keeps.thread id (sound.registered present))
    (fun pid inside => keeps.wakes pid inside) fun _ _ _ _ current _ => current

/-- Another lock at an address where nobody is refused. -/
theorem Sound.setLock
    (sound : Sound w)
    (at' : Pid × Nat)
    (lock : Lockable)
    (busy : ∀ id call, w.call id = some call → call.stage = .busy →
      (w.state.threads id).state ≠ .exited → w.keyOf id call = at' → at' ∈ w.owed)
    (parked : ∀ id call, w.call id = some call → call.stage = .parked →
      (w.state.threads id).state = .blocked → w.keyOf id call = at' → at' ∈ w.owed) :
    Sound (w.setLock at' lock) := by
  have refused {id : ThreadId} {call : Call} (apart : w.keyOf id call ≠ at')
      (before : w.Refused id call) : (w.setLock at' lock).Refused id call := by
    unfold Refused
    change (Function.update w.locks at' lock (w.keyOf id call)).attempt _ _ = none
    rw [Function.update_of_ne apart]
    exact before
  refine ⟨sound.tidy, sound.oneBaton, sound.seen, sound.registered, sound.owes,
    sound.active, fun {id} {call} isCall stage staying => ?_,
    fun {id} {call} isCall stage blocked => ?_⟩
  · by_cases same : w.keyOf id call = at'
    · exact .inr (.inl (same ▸ busy id call isCall stage staying same))
    · exact (sound.busy isCall stage staying).imp_left (refused same)
  · refine (sound.parked isCall stage blocked).imp_right fun before => ?_
    by_cases same : w.keyOf id call = at'
    · exact .inr (same ▸ parked id call isCall stage blocked same)
    · exact before.imp_left (refused same)

/-- A lock is let go by the thread that has the baton: nobody stays parked. -/
theorem Sound.released_scheduled
    (sound : Sound w)
    (holds : w.state.Holds id)
    (noCall : w.call id = none)
    (isKey : key ≠ restartKey) : Sound (w.released (.scheduled id) key) := by
  have woken : Sound (w.setState (w.state.wakeAll (w.state.threads id).pid key)) :=
    @Sound.other _ _ 0 (.wakeAll (w.state.threads id).pid key) _ sound isKey
      ⟨nofun, nofun⟩ rfl
  refine woken.setLock ((w.state.threads id).pid, key) _
    (fun other call isCall stage staying _ => ?_)
    fun other call isCall stage blocked same => ?_
  · -- It has the baton, and is in no call.
    have last : w.state.current = some other :=
      woken.active isCall (by rw [stage]; decide) staying
    obtain rfl := Option.some.inj (holds.1.symm.trans last)
    rw [show w.call id = some call from isCall] at noCall
    cases noCall
  · have inside : other < w.state.nthreads :=
      sound.registered (by simp [show w.call other = _ from isCall])
    have keeps := (State.keepsParked_wakeAll w.state (w.state.threads id).pid key).thread
      other inside
    obtain ⟨ofPid, onKey⟩ := Prod.mk.inj same
    have before := sound.parked isCall stage (keeps.blocked blocked).1
    exact absurd blocked (State.awake_wakeAll inside (keeps.pid.symm.trans ofPid)
      (before.1.trans onKey))

/-- A lock is let go by a thread outside, which owes a wake. -/
theorem Sound.released_outside
    (sound : Sound w)
    {pid : Pid}
    (number : Nat)
    (registered : pid < w.state.nprocs)
    (isKey : key ≠ restartKey) : Sound (w.released (.outside pid number) key) := by
  have owing : Sound { w with owed := (pid, key) :: w.owed } :=
    ⟨sound.tidy, sound.oneBaton, sound.seen, sound.registered,
      fun at' owed => (List.mem_cons.1 owed).elim
        (fun same => by rw [same]; exact ⟨registered, isKey⟩) (sound.owes at'),
      sound.active,
      fun isCall stage staying => (sound.busy isCall stage staying).imp_right
        (.imp_left (List.mem_cons_of_mem _)),
      fun isCall stage blocked => (sound.parked isCall stage blocked).imp_right
        (.imp_right (List.mem_cons_of_mem _))⟩
  exact owing.setLock (pid, key) _ (fun _ _ _ _ _ _ => List.mem_cons_self)
    fun _ _ _ _ _ _ => List.mem_cons_self

/-- A wake that nobody needs any more is not owed any more. -/
theorem Sound.repaid
    (sound : Sound w)
    (at' : Pid × Nat)
    (busy : ∀ id call, w.call id = some call → w.keyOf id call = at' →
      (w.state.threads id).wakesSeen <
        (w.state.procs (w.state.threads id).pid).outsideWakes)
    (parked : ∀ id call, w.call id = some call → call.stage = .parked →
      (w.state.threads id).state = .blocked → w.keyOf id call ≠ at') :
    Sound { w with owed := w.owed.erase at' } := by
  refine ⟨sound.tidy, sound.oneBaton, sound.seen, sound.registered,
    fun key isOwed => sound.owes key (List.mem_of_mem_erase isOwed), sound.active,
    fun {id} {call} isCall stage staying => ?_,
    fun {id} {call} isCall stage blocked => ?_⟩
  · obtain before | before | before := sound.busy isCall stage staying
    · exact .inl before
    · by_cases same : w.keyOf id call = at'
      · exact .inr (.inr (busy id call isCall same))
      · exact .inr (.inl ((List.mem_erase_of_ne same).2 before))
    · exact .inr (.inr before)
  · have apart := parked id call isCall stage blocked
    exact (sound.parked isCall stage blocked).imp_right
      (.imp_right (List.mem_erase_of_ne apart).2)

/-- A thread outside makes the wake that it owes. -/
theorem Sound.woken
    (sound : Sound w)
    {pid : Pid}
    (owed : (pid, key) ∈ w.owed) :
    Sound { w.setState ((w.state.noteOutsideWake pid).wakeAll pid key) with
      owed := w.owed.erase (pid, key) } := by
  obtain ⟨registered, isKey⟩ := sound.owes _ owed
  have noted : Sound (w.setState (w.state.noteOutsideWake pid)) :=
    @Sound.other _ _ 0 (.noteOutsideWake pid) _ sound registered ⟨nofun, nofun⟩ rfl
  have carried : Sound ((w.setState (w.state.noteOutsideWake pid)).setState
      ((w.state.noteOutsideWake pid).wakeAll pid key)) :=
    @Sound.other _ _ 0 (.wakeAll pid key) _ noted isKey ⟨nofun, nofun⟩ rfl
  have keeps := State.keepsParked_wakeAll (w.state.noteOutsideWake pid) pid key
  have counted : ((w.state.noteOutsideWake pid).procs pid).outsideWakes =
      (w.state.procs pid).outsideWakes + 1 :=
    congrArg ProcRec.outsideWakes (Function.update_self pid _ w.state.procs)
  refine carried.repaid (pid, key) (fun id call isCall same => ?_)
    fun id call isCall stage blocked same => ?_
  · have inside : id < w.state.nthreads :=
      sound.registered (by simp [show w.call id = _ from isCall])
    have stays := keeps.thread id inside
    have ofPid : (w.state.threads id).pid = pid :=
      stays.pid.symm.trans (congrArg Prod.fst same)
    have seen := sound.seen id inside
    change (((w.state.noteOutsideWake pid).wakeAll pid key).threads id).wakesSeen <
      ((w.state.noteOutsideWake pid).procs
        (((w.state.noteOutsideWake pid).wakeAll pid key).threads id).pid).outsideWakes
    rw [stays.wakesSeen, show (((w.state.noteOutsideWake pid).wakeAll pid key).threads
      id).pid = pid from congrArg Prod.fst same, counted]
    rw [ofPid] at seen
    exact Nat.lt_succ_of_le seen
  · have inside : id < w.state.nthreads :=
      sound.registered (by simp [show w.call id = _ from isCall])
    have stays := keeps.thread id inside
    have onKey := (carried.parked isCall stage blocked).1
    exact absurd blocked (State.awake_wakeAll inside
      (stays.pid.symm.trans (congrArg Prod.fst same))
      ((stays.blocked blocked).2.symm.trans (onKey.trans (congrArg Prod.snd same))))

/-- A thread in no call gives the baton up. -/
theorem Sound.handedOff
    (sound : Sound w)
    (holds : w.state.Holds id)
    (noCall : w.call id = none)
    {site : UInt64}
    {handoff : Handoff}
    (handed : w.state.handOff fuel (some (id, .blocked, key)) site =
      some (s, handoff)) : Sound (w.setState s) := by
  have possible : w.state.Possible (.handOff (some (id, .blocked, key)) site) :=
    ⟨holds, .inr (.inl rfl)⟩
  have allows : w.Allows (.handOff (some (id, .blocked, key)) site) := by
    refine ⟨?_, nofun⟩
    rintro giver ⟨⟩
    exact noCall
  have done : w.state.exec fuel (.handOff (some (id, .blocked, key)) site) =
      some (s, .handoff handoff) := by
    unfold State.exec
    dsimp only
    rw [handed]
    rfl
  exact sound.other possible allows done

/-- A thread that saw no wake blocks. -/
theorem Sound.blocked
    (sound : Sound w)
    (holds : w.state.Holds id)
    (isCall : w.call id = some call)
    (isBusy : call.stage = .busy)
    (quiet : w.state.wokenOutside id = false)
    {deadline : Option Nat}
    (yielded : w.state.yieldBlocked fuel id call.key deadline = some s) :
    Sound ((w.setState s).setCall id (some { call with stage := .parked })) := by
  obtain ⟨⟨middle, handoff⟩, handed, same⟩ := Option.map_eq_some_iff.1 yielded
  obtain rfl : middle = s := same
  have registered := holds.2.1
  have record : (w.state.setDeadline id (State.deadlineWord deadline)).threads id =
      { w.state.threads id with
        deadline := State.deadlineWord deadline, timedOut := false } :=
    Function.update_self ..
  have stillHolds : (w.state.setDeadline id (State.deadlineWord deadline)).Holds id := by
    refine ⟨holds.1, registered, ?_⟩
    rw [record]
    exact holds.2.2
  have dropped : Sound (w.setCall id none) :=
    sound.setCall registered none nofun nofun nofun
  have dated : Sound ((w.setCall id none).setState
      (w.state.setDeadline id (State.deadlineWord deadline))) :=
    @Sound.other _ _ 0 (.setDeadline id (State.deadlineWord deadline)) _ dropped
      holds ⟨nofun, nofun⟩ rfl
  have given : Sound ((w.setCall id none).setState middle) :=
    dated.handedOff stillHolds (setCall_self none) handed
  obtain ⟨inside, after⟩ := State.giver_handOff stillHolds.2.1 handed
  have samePid : (middle.threads id).pid = (w.state.threads id).pid := by
    rw [after, record]
  have level : ¬(w.state.threads id).wakesSeen <
      (w.state.procs (w.state.threads id).pid).outsideWakes := by
    unfold State.wokenOutside at quiet
    rw [decide_eq_false_iff_not, not_not] at quiet
    exact quiet.not_lt
  have found : w.Refused id call ∨ w.keyOf id call ∈ w.owed :=
    (sound.busy isCall isBusy holds.2.2).imp_right fun rest => rest.resolve_right level
  have sameKey : ((w.setCall id none).setState middle).keyOf id
      { call with stage := .parked } = w.keyOf id call :=
    congrArg (·, call.key) samePid
  have parked := given.setCall inside
    (some { call with stage := .parked })
    (fun _ isNew other => absurd (Option.some.inj isNew ▸ rfl) other)
    (fun _ isNew other => by
      rw [← Option.some.inj isNew] at other
      cases other)
    (fun _ isNew _ blocked => by
      rw [← Option.some.inj isNew]
      refine ⟨State.blocked_handOff stillHolds.2.1 handed blocked, ?_⟩
      unfold Refused
      rw [sameKey]
      exact found)
  rwa [setCall_setState] at parked

/-- A thread looks again instead of blocking. -/
theorem Sound.again
    (sound : Sound w)
    (holds : w.state.Holds id)
    (call : Call) :
    Sound ((w.setState (w.state.lookAgain id)).setCall id
      (some { call with stage := .tries })) := by
  have registered := holds.2.1
  have others {other : ThreadId} (apart : other ≠ id) :
      (w.state.lookAgain id).threads other = w.state.threads other :=
    Function.update_of_ne apart ..
  have itself : (w.state.lookAgain id).threads id =
      { w.state.threads id with
        timedOut := false
        wakesSeen := (w.state.procs (w.state.threads id).pid).outsideWakes } :=
    Function.update_self ..
  have lulled : State.Lulled w.state (w.state.lookAgain id) :=
    State.lulled_modifyThread _ id (ThreadRec.lulled_of_eq rfl)
  have seen : (w.state.lookAgain id).Seen := by
    intro other inside
    by_cases same : other = id
    · rw [same, itself]
      exact le_rfl
    · rw [others same]
      exact sound.seen other inside
  have dropped : Sound (w.setCall id none) :=
    sound.setCall registered none nofun nofun nofun
  have looked : Sound ((w.setCall id none).setState (w.state.lookAgain id)) := by
    refine dropped.setState (sound.tidy.modifyThread registered fun _ => rfl)
      (sound.oneBaton.lulled lulled) seen le_rfl le_rfl (fun other present => ?_)
      (fun _ _ => le_rfl) fun _ _ _ _ current _ => current
    have apart : other ≠ id := by
      rintro rfl
      exact present (setCall_self none)
    rw [others apart]
    exact .refl _
  have stillHolds : (w.state.lookAgain id).Holds id := by
    refine ⟨holds.1, registered, ?_⟩
    rw [itself]
    exact holds.2.2
  have tries : Sound (((w.setCall id none).setState (w.state.lookAgain id)).setCall id
      (some { call with stage := .tries })) :=
    looked.tries stillHolds rfl
  rwa [setCall_setState] at tries

theorem Sound.step
    {action : Action}
    (sound : Sound w)
    (step : system.step w action later) : Sound later := by
  obtain ⟨possible, fuel, done⟩ := step
  cases action with
  | asks id key request =>
      obtain rfl := Option.some.inj done
      exact sound.tries possible.1 rfl
  | attempts id =>
      obtain ⟨holds, -, -⟩ := possible
      obtain ⟨call, isCall, rfl⟩ := Option.map_eq_some_iff.1 done
      split
      · next lock taken =>
          exact (sound.taken taken).setCall holds.2.1 none nofun nofun nofun
      · next refused =>
          refine sound.setCall holds.2.1 _ (fun _ _ _ => holds.1)
            (fun _ isNew _ => ?_) fun _ isNew parked => ?_
          · rw [← Option.some.inj isNew]
            exact refused
          · rw [← Option.some.inj isNew] at parked
            cases parked
  | blocks id deadline =>
      obtain ⟨⟨holds, -, atBusy⟩, -⟩ := possible
      obtain ⟨call, isCall, done⟩ := Option.bind_eq_some_iff.1 done
      have isBusy : call.stage = .busy := by
        rw [isCall] at atBusy
        exact Option.some.inj atBusy
      split at done
      · obtain rfl := Option.some.inj done
        exact sound.again holds call
      · next quiet =>
          obtain ⟨s, yielded, rfl⟩ := Option.map_eq_some_iff.1 done
          exact sound.blocked holds isCall isBusy (Bool.eq_false_iff.2 quiet) yielded
  | resumes id =>
      obtain ⟨holds, running, -⟩ := possible
      obtain ⟨call, isCall, rfl⟩ := Option.map_eq_some_iff.1 done
      split
      · have looked : Sound (w.setState (w.state.takeTimedOut id).1) :=
          @Sound.modifyThread _ _ sound holds.2.1 (fun t => { t with timedOut := false })
            fun _ => ⟨rfl, rfl, rfl, rfl⟩
        have record : (w.state.takeTimedOut id).1.threads id =
            { w.state.threads id with timedOut := false } :=
          Function.update_self ..
        dsimp only
        split
        · exact looked.setCall holds.2.1 none nofun nofun nofun
        · refine looked.tries ⟨holds.1, holds.2.1, ?_⟩ rfl
          change ((w.state.takeTimedOut id).1.threads id).state ≠ .exited
          rw [record]
          exact holds.2.2
      · exact sound.tries holds rfl
  | takes who key request =>
      obtain rfl := Option.some.inj done
      cases taken : (w.locks (w.pidOf who, key)).attempt who request with
      | none => exact sound
      | some lock => exact sound.taken taken
  | releases who key =>
      obtain rfl := Option.some.inj done
      obtain ⟨free, isKey⟩ := possible
      cases who with
      | scheduled id => exact sound.released_scheduled free.1 free.2 isKey
      | outside pid number => exact sound.released_outside number free isKey
  | wakes pid key =>
      obtain rfl := Option.some.inj done
      exact sound.woken possible
  | other op =>
      obtain ⟨possible, allows⟩ := possible
      obtain ⟨⟨s, answer⟩, carried, rfl⟩ := Option.map_eq_some_iff.1 done
      exact sound.other possible allows carried

theorem Sound.of_reachable (reachable : system.Reachable w) : Sound w := by
  refine reachable.invariant ?_ fun _ _ _ sound step => sound.step step
  rintro start ⟨initial, noCall, nothing⟩
  have oneBaton := State.oneBaton_of_reachable (.start initial)
  have tidy := State.tidy_of_reachable (.start initial)
  obtain ⟨seed, quantumLo, quantumHi, names, latencyNs, same⟩ := initial
  have none {id : ThreadId} {call : Call} (isCall : start.call id = some call) :
      False := by
    rw [noCall id] at isCall
    cases isCall
  refine ⟨tidy, oneBaton, fun id inside => ?_, fun present => absurd (noCall _) present,
    fun key owed => ?_, fun isCall => (none isCall).elim, fun isCall => (none isCall).elim,
    fun isCall => (none isCall).elim⟩
  · rw [same] at inside
    exact absurd inside (Nat.not_lt_zero _)
  · rw [nothing] at owed
    cases owed

/-! ## No wake is lost -/

/-- Whatever threads of the schedule and threads outside do, a thread that is
blocked in a call is blocked on the lock's key, and the lock does not have what
it asks for, or a thread outside is about to wake it; and the wake does wake it,
as does a thread of the schedule that lets the lock go. -/
theorem refused_of_reachable
    (reachable : system.Reachable w)
    (isCall : w.call id = some call)
    (isParked : call.stage = .parked)
    (blocked : (w.state.threads id).state = .blocked) :
    (w.state.threads id).key = call.key ∧
      (w.Refused id call ∨ w.keyOf id call ∈ w.owed) ∧
      (∀ later, system.step w (.wakes (w.state.threads id).pid call.key) later →
        (later.state.threads id).state ≠ .blocked) ∧
      ∀ me later, w.pidOf (.scheduled me) = (w.state.threads id).pid →
        system.step w (.releases (.scheduled me) call.key) later →
        (later.state.threads id).state ≠ .blocked := by
  have sound := Sound.of_reachable reachable
  have inside : id < w.state.nthreads := sound.registered (by simp [isCall])
  obtain ⟨onKey, refused⟩ := sound.parked isCall isParked blocked
  refine ⟨onKey, refused, ?_, ?_⟩
  · rintro later ⟨-, fuel, done⟩
    obtain rfl := Option.some.inj done
    exact State.awake_wakeAll (s := w.state.noteOutsideWake _) inside rfl onKey
  · rintro me later same ⟨-, fuel, done⟩
    obtain rfl := Option.some.inj done
    exact State.awake_wakeAll inside same.symm onKey

/-- A thread takes a lock and sleeps; the other one finds it busy. -/
def oneSleeps : List Action :=
  [.other (.addProc 0 none), .other (.addThread 0), .other (.addThread 0),
    .other (.handOff none 0), .takes (.scheduled 1) 42 .mutex,
    .other (.handOff (some (1, .blocked, sleepKey)) 0), .asks 0 42 .mutex,
    .attempts 0, .blocks 0 none]

def unlocked : Parking where
  state := .initial 1 1 1 [] 0
  locks := fun _ => .mutex false none

theorem refused_oneSleeps :
    ∃ w, (w.state.threads 0).key = 42 ∧
      (w.Refused 0 ⟨42, .mutex, .parked⟩ ∨
        w.keyOf 0 ⟨42, .mutex, .parked⟩ ∈ w.owed) ∧
      (∀ later, system.step w (.wakes (w.state.threads 0).pid 42) later →
        (later.state.threads 0).state ≠ .blocked) ∧
      ∀ me later, w.pidOf (.scheduled me) = (w.state.threads 0).pid →
        system.step w (.releases (.scheduled me) 42) later →
        (later.state.threads 0).state ≠ .blocked := by
  obtain ⟨w, performed, facts⟩ := Option.map_eq_some_iff.1
    (by decide +kernel : (oneSleeps.foldlM (perform 1) unlocked).map (fun w =>
      (w.call 0, (w.state.threads 0).state)) =
        some (some ⟨42, .mutex, .parked⟩, .blocked))
  obtain ⟨isParked, isBlocked⟩ := Prod.mk.inj facts
  have reachable : system.Reachable w :=
    .foldlM step_perform (.start ⟨⟨1, 1, 1, [], 0, rfl⟩, fun _ => rfl, rfl⟩) performed
  exact ⟨w, refused_of_reachable reachable isParked rfl isBlocked⟩

end Parking
end Derp
