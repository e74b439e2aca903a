import Derp.Sched.Halting
import Derp.Sched.Mourning
import Derp.Sched.Deadlock

/-!
# Waiting for children

A thread of a parent looks for a child that has exited, and blocks if there is none yet; a
child's death wakes the threads that are blocked for it.  The launcher reports a death
without having the baton, so it may do so between the look and the block, or while the
thread is retired for an exec that fails: then the exit is lost.
-/

namespace Derp

namespace State

/-- An exited, unreaped child of `parent`: the one named, or the lowest. -/
def exitedChild (s : State) (parent : Pid) (which : Option Pid) : Option Pid :=
  s.pids.find? fun child =>
    (s.procs child).parent = some parent &&
      ((s.procs child).state = .exited || (s.procs child).killed) &&
      !(s.procs child).reaped && which.all (· = child)

/-- Whether `parent` has a child it could still wait for. -/
def hasChild (s : State) (parent : Pid) (which : Option Pid) : Bool :=
  s.pids.any fun child =>
    (s.procs child).parent = some parent && !(s.procs child).reaped && which.all (· = child)

/-- What the other threads of a process are before one of them execs: they die with the old
image. -/
def retiredBy (s : State) (me id : ThreadId) : Option ThreadState :=
  if id < s.nthreads ∧ (s.threads id).pid = (s.threads me).pid ∧ id ≠ me ∧
      (s.threads id).state ≠ .exited then
    some (s.threads id).state
  else none

def retireOthers (s : State) (me : ThreadId) : State :=
  { s with threads := fun id =>
      (s.retiredBy me id).elim (s.threads id) fun _ => (s.threads id).setState .exited }

/-- The exec failed. -/
def restoreThreads (s : State) (retired : ThreadId → Option ThreadState) : State :=
  { s with threads := fun id =>
      (retired id).elim (s.threads id) (s.threads id).setState }

end State

/-- An exec under way, and what the other threads were. -/
structure Children.Attempt where
  me : ThreadId
  retired : ThreadId → Option ThreadState

/-- The shared state and the calls of `wait_for_child`, each for a child or any, and the
last exec that has not returned. -/
structure Children extends Halting (Option Pid) where
  attempt : Option Children.Attempt := none

namespace Children

open Halting (Call Sound Tells Leaves Warned)

/-! ## Runs -/

/-- What may happen: the pieces of calls and of execs, and all else. -/
inductive Action
  | asks (id : ThreadId) (which : Option Pid)
  /-- A thread looks for a child that has exited; it may want an answer at once. -/
  | looks (id : ThreadId) (noHang : Bool)
  | blocks (id : ThreadId)
  | resumes (id : ThreadId)
  | execs (id : ThreadId)
  /-- The exec begins the new image. -/
  | becomes (id : ThreadId)
  /-- The exec fails. -/
  | fails (id : ThreadId)
  | other (op : State.Op)

/-- The thread that is at its exec. -/
def trying (w : Children) : Option ThreadId :=
  (w.attempt.map Attempt.me).filter fun me => (w.state.threads me).state ≠ .exited

/-- A thread will be blocked again if the exec under way fails. -/
def away (w : Children) (id : ThreadId) : Bool :=
  w.attempt.any fun a =>
    (w.state.threads a.me).state ≠ .exited && a.retired id = some .blocked

def Possible (w : Children) : Action → Prop
  | .asks id _ => w.Free id ∧ w.trying = none
  | .looks id _ => w.At id .looks
  | .blocks id => w.At id .missed
  | .resumes id => w.At id .parked
  | .execs id => w.Free id ∧ w.trying = none
  | .becomes id | .fails id => w.trying = some id
  | .other op => w.state.Possible op ∧ w.Allows op ∧
      (w.trying ≠ none → op.giver = none ∧ Parking.looker op = none)

def setState (w : Children) (s : State) : Children :=
  { w with toHalting := w.toHalting.setState s }

def setCall (w : Children) (id : ThreadId) (call : Option (Call (Option Pid))) : Children :=
  { w with toHalting := w.toHalting.setCall id call }

/-- The look for a child that has exited. -/
def look (w : Children) (id : ThreadId) (noHang : Bool) (call : Call (Option Pid)) :
    Children :=
  match w.state.exitedChild (w.state.threads id).pid call.wish with
  | some child => (w.setState (w.state.reap child)).setCall id none
  | none =>
      if w.state.hasChild (w.state.threads id).pid call.wish && !noHang then
        w.setCall id (some { call with stage := .missed })
      else w.setCall id none

/-- Carry an action out. -/
def exec (fuel : Nat) (w : Children) : Action → Option Children
  | .asks id which => some (w.setCall id (some ⟨which, .looks⟩))
  | .looks id noHang => (w.call id).map (w.look id noHang)
  | .blocks id =>
      (w.halt fuel id (fun _ => waitKey) none).map fun halted => { w with toHalting := halted }
  | .resumes id => (w.call id).map fun call =>
      w.setCall id (some { call with stage := .looks })
  | .execs id => some { w.setState (w.state.retireOthers id) with
      attempt := some ⟨id, w.state.retiredBy id⟩ }
  | .becomes _ => some { w with attempt := none }
  | .fails _ => w.attempt.map fun a =>
      { w.setState (w.state.restoreThreads a.retired) with attempt := none }
  | .other op => (w.state.exec fuel op).map fun result => w.setState result.1

/-- The runs of the schedule whose threads wait for children. -/
def system : Transition Children Action where
  init := fun w => State.schedule.init w.state ∧ (∀ id, w.call id = none) ∧ w.attempt = none
  step := fun w action later =>
    w.Possible action ∧ ∃ fuel, w.exec fuel action = some later

/-- A child dies while no thread that waits for it is about to block, unless a wake from
outside makes it look again, or is away. -/
def Heard (w : Children) : Action → Prop
  | .other op => ∀ victim ∈ op.victim, (w.state.procs victim).alive = true →
      ∀ id < w.state.nthreads, ∀ call ∈ w.call id,
        (w.state.procs victim).parent = some (w.state.threads id).pid →
        call.wish.all (· = victim) = true →
          (call.stage = .missed → (w.state.threads id).state ≠ .exited →
            w.state.wokenOutside id = true) ∧ w.away id = false
  | _ => True

def careful : Transition Children Action := system.restrict Heard

instance (w : Children) (action : Action) : Decidable (w.Possible action) := by
  unfold Possible
  split <;> infer_instance

instance (w : Children) (action : Action) : Decidable (w.Heard action) := by
  unfold Heard
  split <;> infer_instance

/-- Carry an action out if it is possible. -/
def perform (fuel : Nat) (w : Children) (action : Action) : Option Children :=
  if w.Possible action then w.exec fuel action else none

def performCarefully (fuel : Nat) (w : Children) (action : Action) : Option Children :=
  if w.Heard action then w.perform fuel action else none

variable
  {w later : Children}
  {s : State}
  {id : ThreadId}
  {call : Call (Option Pid)}
  {fuel : Nat}
  {action : Action}

theorem step_perform (performed : w.perform fuel action = some later) :
    system.step w action later := by
  unfold perform at performed
  split at performed
  · next possible => exact ⟨possible, fuel, performed⟩
  · cases performed

theorem step_performCarefully (performed : w.performCarefully fuel action = some later) :
    careful.step w action later := by
  unfold performCarefully at performed
  split at performed
  · next heard => exact ⟨heard, step_perform performed⟩
  · cases performed

/-! ## The invariant -/

/-- A child that a thread may wait for is gone, and not collected. -/
def Due (s : State) (id : ThreadId) (which : Option Pid) : Prop :=
  ∃ child, (s.procs child).Gone (s.threads id).pid ∧ which.all (· = child) = true

/-- Whoever is at its exec has the baton and is in no call, and the others are retired
where they were parked. -/
structure Attempt.Sound (w : Children) (a : Attempt) : Prop where
  holds : w.state.Holds a.me
  free : w.call a.me = none
  retired : ∀ {id state}, a.retired id = some state →
    id < w.state.nthreads ∧ state ≠ .running ∧ (w.state.threads id).state = .exited ∧
      ∀ call ∈ w.call id, call.stage = .parked

structure Told (w : Children) : Prop where
  sound : Sound (fun _ => waitKey) (Due w.state) (fun id => w.away id = true) w.toHalting
  registered : ∀ a ∈ w.attempt, a.me < w.state.nthreads
  attempt : ∀ a ∈ w.attempt, (w.state.threads a.me).state ≠ .exited → a.Sound w

/-- Nobody is at an exec. -/
def Idle (w : Children) : Prop :=
  ∀ a ∈ w.attempt, (w.state.threads a.me).state = .exited

theorem idle_of_trying (nobody : w.trying = none) : w.Idle := by
  intro a isAttempt
  unfold trying at nobody
  rw [isAttempt] at nobody
  simpa [Option.filter_eq_none_iff] using nobody

theorem Idle.away (idle : w.Idle) (id : ThreadId) : ¬w.away id = true := by
  unfold Children.away
  cases isAttempt : w.attempt with
  | none => exact nofun
  | some a =>
      rw [Option.any_some, idle a isAttempt]
      exact nofun

/-- Whoever is in a call and has the baton is not at its exec, nor is anybody else. -/
theorem Told.idle
    (told : Told w)
    (holds : w.state.Holds id)
    (isCall : w.call id = some call) : w.Idle := by
  intro a isAttempt
  by_contra staying
  have sound := told.attempt a isAttempt staying
  obtain rfl := Option.some.inj (holds.1.symm.trans sound.holds.1)
  cases sound.free.symm.trans isCall

theorem told_of_idle
    (idle : w.Idle)
    (sound : Sound (fun _ => waitKey) (Due w.state) (fun _ => False) w.toHalting)
    (registered : ∀ a ∈ w.attempt, a.me < w.state.nthreads) : Told w where
  sound := sound.mono (fun _ _ due => due) fun id away => absurd away (idle.away id)
  registered := registered
  attempt := fun a isAttempt staying => absurd (idle a isAttempt) staying

theorem Told.still (told : Told w) :
    Sound (fun _ => waitKey) (Due w.state) (fun _ => False) w.toHalting :=
  told.sound.mono (fun _ _ due => due) fun _ => False.elim

/-- A look that finds no child finds none that is due. -/
theorem notDue_of_exitedChild
    {which : Option Pid}
    (tidy : s.Tidy)
    (found : s.exitedChild (s.threads id).pid which = none) : ¬Due s id which := by
  rintro ⟨child, ⟨isParent, gone, left⟩, isWanted⟩
  have inside : child < s.nprocs := by
    by_contra outside
    obtain ⟨_, _, _, _, spare⟩ := tidy.spareProcs child (not_lt.1 outside)
    rw [spare] at isParent
    cases isParent
  have refused := List.find?_eq_none.1 found child (List.mem_range.2 inside)
  rw [isParent, left, isWanted] at refused
  simp [gone] at refused

/-- Whoever is still blocked for children has none due that was not. -/
theorem due_of_hears
    {before middle after : State}
    {which : Option Pid}
    (hears : State.Hears middle after)
    (inside : id < middle.nthreads)
    (samePid : (middle.threads id).pid = (before.threads id).pid)
    (sameProcs : middle.procs = before.procs)
    (blocked : (after.threads id).state = .blocked)
    (onKey : (after.threads id).key = waitKey)
    (due : Due after id which) : Due before id which := by
  obtain ⟨child, gone, isWanted⟩ := due
  rw [(hears.keeps.thread id inside).pid] at gone
  have goneThen := hears.heard id inside blocked onKey child gone
  rw [sameProcs, samePid] at goneThen
  exact ⟨child, goneThen, isWanted⟩

/-! ## The pieces of a call -/

theorem Told.looks
    (told : Told w)
    (holds : w.state.Holds id)
    (idle : w.Idle)
    (isLook : call.stage = .looks) : Told (w.setCall id (some call)) :=
  told_of_idle idle (told.still.looks holds isLook) told.registered

/-- A thread collects a child that has exited, or finds none. -/
theorem Told.look
    (told : Told w)
    (holds : w.state.Holds id)
    (isCall : w.call id = some call)
    (noHang : Bool) : Told (w.look id noHang call) := by
  have idle := told.idle holds isCall
  have still := told.still
  unfold Children.look
  split
  · next child found =>
      have inside : child < w.state.nprocs :=
        List.mem_range.1 (List.mem_of_find?_eq_some found)
      have lives : State.KeepsLives w.state (w.state.reap child) :=
        State.keepsLives_modifyProc _ child fun _ gone => nomatch gone.2.2
      have due {other : ThreadId} {which : Option Pid}
          (due : Due (w.state.reap child) other which) : Due w.state other which :=
        due.imp fun c wanted => wanted.imp_left (lives c _)
      have reaped : Sound (fun _ => waitKey) (Due (w.state.reap child)) (fun _ => False)
          (w.toHalting.setState (w.state.reap child)) :=
        @Sound.other _ _ _ 0 _ _ _ _ _ (.reap child) _ still inside ⟨nofun, nofun⟩ rfl
          ⟨fun _ _ _ isDue => .inl (due isDue), fun _ _ _ _ isDue => due isDue⟩ nofun
      exact told_of_idle idle (reaped.returns holds.2.1) told.registered
  · next found =>
      split
      · exact told_of_idle idle (still.misses holds rfl (fun _ _ _ due => due)
          (notDue_of_exitedChild still.tidy found)) told.registered
      · exact told_of_idle idle (still.returns holds.2.1) told.registered

/-- A thread that found no child blocks: it hears of those who die while others are
chosen. -/
theorem Told.rests
    (told : Told w)
    (holds : w.state.Holds id)
    (isCall : w.call id = some call)
    (isMissed : call.stage = .missed)
    (quiet : w.state.wokenOutside id = false)
    (yielded : w.state.yieldBlocked fuel id waitKey none = some s) :
    Told { w with toHalting := w.rests id call s } := by
  have idle := told.idle holds isCall
  obtain ⟨⟨middle, handoff⟩, handed, same⟩ := Option.map_eq_some_iff.1 yielded
  obtain rfl : middle = s := same
  have dated (other : ThreadId) :
      ((w.state.setDeadline id (State.deadlineWord none)).threads other).pid =
        (w.state.threads other).pid := by
    change (Function.update w.state.threads id _ other).pid = _
    by_cases same : other = id
    · rw [same, Function.update_self]
    · rw [Function.update_of_ne same]
  have recorded := State.recorded_record
    (w.state.setDeadline id (State.deadlineWord none)) (some (id, .blocked, waitKey))
  obtain ⟨nthreads, -, procs⟩ := State.recorded_sizes
    (w.state.setDeadline id (State.deadlineWord none)) (some (id, .blocked, waitKey))
  have inside {other : ThreadId} (inside : other < w.state.nthreads) :
      other < ((w.state.setDeadline id (State.deadlineWord none)).recorded
        (some (id, .blocked, waitKey))).nthreads := inside.trans_eq nthreads.symm
  have hears := State.hears_handOff handed
  have exited : ∀ a ∈ w.attempt, (middle.threads a.me).state = .exited := by
    intro a isAttempt
    have apart : a.me ≠ id := by
      rintro same
      exact holds.2.2 (same ▸ idle a isAttempt)
    refine (hears.keeps.thread a.me (inside (told.registered a isAttempt))).exited ?_
    rw [State.recorded_threads (by rintro giver ⟨⟩; exact apart.symm)]
    change (Function.update w.state.threads id _ a.me).state = .exited
    rw [Function.update_of_ne apart]
    exact idle a isAttempt
  refine told_of_idle exited (told.still.rests holds isCall isMissed quiet yielded
    (fun other which registered blocked onKey due => ?_) fun _ away => away)
    fun a isAttempt => (inside (told.registered a isAttempt)).trans_le hears.keeps.nthreads
  exact due_of_hears hears (inside registered) ((recorded other).1.trans (dated other))
    procs blocked onKey due

/-- A thread that found no child blocks, unless a wake came from outside. -/
theorem Told.halts
    (told : Told w)
    (holds : w.state.Holds id)
    (atMissed : (w.call id).map Call.stage = some .missed)
    {halted : Halting (Option Pid)}
    (halts : w.halt fuel id (fun _ => waitKey) none = some halted) :
    Told { w with toHalting := halted } := by
  obtain ⟨call, isCall, halts⟩ := Option.bind_eq_some_iff.1 halts
  have isMissed : call.stage = .missed := by
    rw [isCall] at atMissed
    exact Option.some.inj atMissed
  have idle := told.idle holds isCall
  split at halts
  · obtain rfl := Option.some.inj halts
    have others {other : ThreadId} :
        ((w.state.lookAgain id).threads other).pid = (w.state.threads other).pid ∧
          ((w.state.lookAgain id).threads other).state = (w.state.threads other).state := by
      change (Function.update w.state.threads id _ other).pid = _ ∧
        (Function.update w.state.threads id _ other).state = _
      by_cases same : other = id
      · rw [same, Function.update_self]
        exact ⟨rfl, rfl⟩
      · rw [Function.update_of_ne same]
        exact ⟨rfl, rfl⟩
    refine told_of_idle (fun a isAttempt => others.2.trans (idle a isAttempt)) ?_
      told.registered
    refine (told.still.again holds call).mono (fun other which due => ?_) fun _ => False.elim
    obtain ⟨child, gone, isWanted⟩ := due
    change ((w.state).procs child).Gone ((w.state.lookAgain id).threads other).pid at gone
    rw [others.1] at gone
    exact ⟨child, gone, isWanted⟩
  · next quiet =>
      obtain ⟨s, yielded, rfl⟩ := Option.map_eq_some_iff.1 halts
      exact told.rests holds isCall isMissed (Bool.eq_false_iff.2 quiet) yielded

/-! ## Execs -/

/-- A retired thread, or one that is left alone. -/
theorem retireOthers_thread (s : State) (me id : ThreadId) :
    (∃ state, s.retiredBy me id = some state ∧ id < s.nthreads ∧ id ≠ me ∧
      (s.threads id).state = state ∧ state ≠ .exited ∧
      (s.threads id).pid = (s.threads me).pid ∧
      (s.retireOthers me).threads id = (s.threads id).setState .exited) ∨
      s.retiredBy me id = none ∧ (s.retireOthers me).threads id = s.threads id := by
  unfold State.retireOthers
  dsimp only
  cases isRetired : s.retiredBy me id with
  | none => exact .inr ⟨rfl, rfl⟩
  | some state =>
      unfold State.retiredBy at isRetired
      split at isRetired
      · next chosen =>
          exact .inl ⟨state, rfl, chosen.1, chosen.2.2.1, Option.some.inj isRetired,
            Option.some.inj isRetired ▸ chosen.2.2.2, chosen.2.1, rfl⟩
      · cases isRetired

theorem restoreThreads_thread
    (s : State)
    (retired : ThreadId → Option ThreadState)
    (id : ThreadId) :
    (∃ state, retired id = some state ∧
      (s.restoreThreads retired).threads id = (s.threads id).setState state) ∨
      retired id = none ∧ (s.restoreThreads retired).threads id = s.threads id := by
  unfold State.restoreThreads
  dsimp only
  cases retired id with
  | none => exact .inr ⟨rfl, rfl⟩
  | some state => exact .inl ⟨state, rfl, rfl⟩

/-- Nothing but the states of threads differs. -/
structure Restated (s s' : State) : Prop where
  record : ∀ id, ∃ state, s'.threads id = { s.threads id with state := state }
  spare : ∀ id, s.nthreads ≤ id → s'.threads id = s.threads id
  nthreads : s'.nthreads = s.nthreads
  nprocs : s'.nprocs = s.nprocs
  procs : s'.procs = s.procs
  current : s'.current = s.current

section Restating

variable {s' : State}

theorem Restated.tidy (restated : Restated s s') (tidy : s.Tidy) : s'.Tidy := by
  refine tidy.of_orderly ⟨restated.nthreads, restated.nprocs, fun id => ?_, restated.spare,
    fun pid => by rw [restated.procs], fun pid _ => by rw [restated.procs]; exact .refl _,
    fun id isCurrent => tidy.current id (restated.current ▸ isCurrent)⟩
  obtain ⟨state, same⟩ := restated.record id
  rw [same]

theorem Restated.seen (restated : Restated s s') (seen : s.Seen) : s'.Seen := by
  intro id inside
  obtain ⟨state, same⟩ := restated.record id
  rw [same, restated.procs]
  exact seen id (inside.trans_eq restated.nthreads)

theorem Restated.due
    {which : Option Pid}
    (restated : Restated s s')
    (due : Due s' id which) : Due s id which := by
  obtain ⟨child, gone, isWanted⟩ := due
  obtain ⟨state, same⟩ := restated.record id
  rw [restated.procs, same] at gone
  exact ⟨child, gone, isWanted⟩

theorem restated_retireOthers (s : State) (me : ThreadId) :
    Restated s (s.retireOthers me) := by
  refine ⟨fun id => ?_, fun id outside => ?_, rfl, rfl, rfl, rfl⟩
  · obtain ⟨_, -, -, -, -, -, -, same⟩ | ⟨-, same⟩ := retireOthers_thread s me id
    · exact ⟨_, same⟩
    · exact ⟨_, same⟩
  · obtain ⟨_, -, inside, -⟩ | ⟨-, same⟩ := retireOthers_thread s me id
    · exact absurd inside (not_lt.2 outside)
    · exact same

theorem restated_restoreThreads
    {retired : ThreadId → Option ThreadState}
    (inside : ∀ {id state}, retired id = some state → id < s.nthreads) :
    Restated s (s.restoreThreads retired) := by
  refine ⟨fun id => ?_, fun id outside => ?_, rfl, rfl, rfl, rfl⟩
  · obtain ⟨_, -, same⟩ | ⟨-, same⟩ := restoreThreads_thread s retired id
    · exact ⟨_, same⟩
    · exact ⟨_, same⟩
  · obtain ⟨_, isRetired, -⟩ | ⟨-, same⟩ := restoreThreads_thread s retired id
    · exact absurd (inside isRetired) (not_lt.2 outside)
    · exact same

end Restating

/-- Whoever begins an exec retires the others where they are parked. -/
theorem Told.execs
    (told : Told w)
    (free : w.Free id) :
    Told { w.setState (w.state.retireOthers id) with
      attempt := some ⟨id, w.state.retiredBy id⟩ } := by
  obtain ⟨holds, -, noCall⟩ := free
  have restated := restated_retireOthers w.state id
  have itself : (w.state.retireOthers id).threads id = w.state.threads id := by
    obtain ⟨_, -, -, apart, -⟩ | ⟨-, same⟩ := retireOthers_thread w.state id id
    · exact absurd rfl apart
    · exact same
  have toBlock : Sound (fun _ => waitKey) (Due w.state)
      (fun other => w.state.retiredBy id other = some .blocked) w.toHalting := by
    refine told.sound.mono (fun _ _ due => due) fun other retired => ?_
    obtain ⟨state, isState, -, -, was, -⟩ | ⟨isNone, -⟩ := retireOthers_thread w.state id other
    · exact .inl (was.trans (Option.some.inj (isState.symm.trans retired)))
    · cases isNone.symm.trans retired
  refine ⟨?_, fun a isAttempt => ?_, fun a isAttempt _ => ?_⟩
  · refine toBlock.setState (restated.tidy told.sound.tidy) (fun other running => ?_)
      (restated.seen told.sound.seen) le_rfl (fun other _ => ?_) (fun _ _ => le_rfl)
      (fun _ _ _ _ current _ => current)
      ⟨fun _ _ _ due => .inl (restated.due due), fun _ _ _ _ due => restated.due due⟩
      fun other _ _ _ isAway => ⟨?_, ?_, restated.due⟩
    · obtain ⟨_, -, -, -, -, -, -, same⟩ | ⟨-, same⟩ := retireOthers_thread w.state id other
      · rw [same] at running
        cases running
      · exact told.sound.oneBaton other (same ▸ running)
    · obtain ⟨_, -, -, -, -, -, -, same⟩ | ⟨-, same⟩ := retireOthers_thread w.state id other
      · rw [same]
        exact ThreadRec.staysParked_gone rfl rfl rfl
      · rw [same]
        exact .refl _
    · exact of_decide_eq_true (Bool.and_eq_true_iff.1 isAway).2
    · obtain ⟨state, same⟩ := restated.record other
      rw [same]
  · obtain rfl := Option.some.inj isAttempt
    exact holds.2.1
  · obtain rfl := Option.some.inj isAttempt
    refine ⟨⟨holds.1, holds.2.1, ?_⟩, noCall, fun {other state} isRetired => ?_⟩
    · change ((w.state.retireOthers id).threads id).state ≠ .exited
      rw [itself]
      exact holds.2.2
    · obtain ⟨_, isState, inside, apart, was, staying, -, same⟩ | ⟨isNone, -⟩ :=
        retireOthers_thread w.state id other
      · obtain rfl := Option.some.inj (isState.symm.trans isRetired)
        refine ⟨inside, ?_, congrArg ThreadRec.state same, fun call isCall => ?_⟩
        · rintro rfl
          exact apart (Option.some.inj ((told.sound.oneBaton other was).symm.trans holds.1))
        · by_contra stage
          have last := told.sound.active isCall stage (was ▸ staying)
          exact apart (Option.some.inj (last.symm.trans holds.1))
      · cases isNone.symm.trans isRetired

/-- A failed exec puts the others back, where they were parked. -/
theorem Told.fails
    {a : Attempt}
    (told : Told w)
    (isAttempt : w.attempt = some a)
    (staying : (w.state.threads a.me).state ≠ .exited) :
    Told { w.setState (w.state.restoreThreads a.retired) with attempt := none } := by
  have sound := told.attempt a isAttempt staying
  have restated := restated_restoreThreads (s := w.state) fun isRetired =>
    (sound.retired isRetired).1
  refine told_of_idle (fun _ isNone => nomatch isNone) ?_ fun _ isNone => nomatch isNone
  refine ⟨restated.tidy told.sound.tidy, fun other running => ?_,
    restated.seen told.sound.seen, told.sound.registered,
    fun {other} {call} isCall stage stays => ?_,
    fun {other} {call} isCall stage stays due => ?_,
    fun {other} {call} isCall stage asleep => ?_⟩
  · obtain ⟨state, isRetired, same⟩ | ⟨-, same⟩ :=
      restoreThreads_thread w.state a.retired other
    · change ((w.state.restoreThreads a.retired).threads other).state = .running at running
      rw [same] at running
      exact absurd running (sound.retired isRetired).2.1
    · exact told.sound.oneBaton other (same ▸ running)
  · obtain ⟨state, isRetired, same⟩ | ⟨-, same⟩ :=
      restoreThreads_thread w.state a.retired other
    · exact absurd ((sound.retired isRetired).2.2.2 call isCall) stage
    · exact told.sound.active isCall stage (same ▸ stays)
  · obtain ⟨state, isRetired, same⟩ | ⟨-, same⟩ :=
      restoreThreads_thread w.state a.retired other
    · have isParked := (sound.retired isRetired).2.2.2 call isCall
      rw [stage] at isParked
      cases isParked
    · have warned := told.sound.missed isCall stage (same ▸ stays) (restated.due due)
      unfold Warned at warned ⊢
      change ((w.state.restoreThreads a.retired).threads other).wakesSeen <
        (w.state.procs ((w.state.restoreThreads a.retired).threads other).pid).outsideWakes
      rwa [same]
  · have blocked : ((w.state.restoreThreads a.retired).threads other).state = .blocked :=
      asleep.resolve_right fun isAway => isAway
    have rested : (w.state.threads other).state = .blocked ∨ w.away other = true := by
      obtain ⟨state, isRetired, same⟩ | ⟨-, same⟩ :=
        restoreThreads_thread w.state a.retired other
      · rw [same] at blocked
        obtain rfl : state = .blocked := blocked
        refine .inr ?_
        unfold away
        rw [isAttempt, Option.any_some, isRetired, Bool.and_eq_true, decide_eq_true_eq]
        exact ⟨staying, decide_eq_true rfl⟩
      · exact .inl (same ▸ blocked)
    obtain ⟨onKey, notDue⟩ := told.sound.parked isCall stage rested
    refine ⟨?_, notDue ∘ restated.due⟩
    obtain ⟨state, same⟩ := restated.record other
    change ((w.state.restoreThreads a.retired).threads other).key = waitKey
    rw [same]
    exact onKey

/-- The exec began the new image: the others are gone. -/
theorem Told.becomes (told : Told w) : Told { w with attempt := none } :=
  told_of_idle (fun _ isNone => nomatch isNone) told.still fun _ isNone => nomatch isNone

/-! ## Steps of the schedule -/

section Steps

variable
  {op : State.Op}
  {answer : State.Answer}

/-- A thread that is gone stays gone. -/
theorem exited_of_exec
    (possible : s.Possible op)
    {after : State}
    (done : s.exec fuel op = some (after, answer))
    (inside : id < s.nthreads)
    (exited : (s.threads id).state = .exited) : (after.threads id).state = .exited := by
  refine (State.staysParked_of_exec possible done inside ?_).exited exited
  rintro giver gives rfl
  cases op with
  | handOff src site =>
      obtain rfl : src = some giver := gives
      exact possible.1.2.2 exited
  | _ => cases gives

/-- Nobody in a call gives the baton up. -/
theorem notGiver_of_possible
    (possible : w.Possible (.other op))
    (isCall : w.call id = some call) : ∀ giver ∈ op.giver, giver.1 ≠ id := by
  rintro giver gives rfl
  cases isCall.symm.trans (possible.2.1.1 giver gives)

variable
  (told : Told w)
  (possible : w.Possible (.other op))
  (done : w.state.exec fuel op = some (s, answer))

include told possible done

/-- Whoever is at its exec afterwards was before, and the baton did not move. -/
theorem Told.attempting
    {a : Attempt}
    (isAttempt : w.attempt = some a)
    (staying : (s.threads a.me).state ≠ .exited) :
    a.Sound w ∧ op.Stays w.state ∧ s.current = some a.me := by
  have registered := told.registered a isAttempt
  have before : (w.state.threads a.me).state ≠ .exited := fun exited =>
    staying (exited_of_exec possible.1 done registered exited)
  have sound := told.attempt a isAttempt before
  have busy : w.trying ≠ none := by
    unfold trying
    rw [isAttempt, Option.map_some, Option.filter_some, if_pos (decide_eq_true before)]
    exact nofun
  obtain ⟨noGiver, noLooker⟩ := possible.2.2 busy
  have notGiver : ∀ giver ∈ op.giver, giver.1 ≠ a.me := by rw [noGiver]; exact nofun
  have notLooker : ∀ other ∈ Parking.looker op, other ≠ a.me := by rw [noLooker]; exact nofun
  have stays := Parking.stays_of_current told.sound.oneBaton possible.1 done notGiver
    notLooker sound.holds.1 staying
  exact ⟨sound, stays, (State.lulled_of_stays stays possible.1 done).current.trans sound.holds.1⟩

/-- A death that is heard warns those who are about to block, and wakes the others. -/
theorem Told.tells (heard : w.Heard (.other op)) :
    Tells (fun _ => waitKey) (Due w.state) (Due s) w.toHalting s := by
  refine ⟨fun {id} {call} isCall stage staying due => ?_,
    fun {id} {call} isCall stage blocked onKey due => ?_⟩
  · have present : w.call id ≠ none := by simp [show w.call id = some call from isCall]
    have inside := told.sound.registered present
    have notGiver := notGiver_of_possible possible isCall
    have still := State.staysParked_of_exec possible.1 done inside notGiver
    have before : (w.state.threads id).state ≠ .exited := fun exited =>
      staying (still.exited exited)
    have current := told.sound.active isCall (by rw [stage]; decide) before
    have stays : op.Stays w.state := by
      refine Parking.stays_of_current told.sound.oneBaton possible.1 done notGiver ?_ current
        staying
      rintro other looks rfl
      cases stage.symm.trans (possible.2.1.2 other looks call isCall)
    obtain ⟨child, gone, isWanted⟩ := due
    rw [still.pid] at gone
    obtain gone | ⟨isVictim, isParent, alive⟩ :=
      State.gone_of_exec told.sound.tidy stays possible.1 done gone
    · exact .inl ⟨child, gone, isWanted⟩
    · have woken := (heard child isVictim alive id inside call isCall isParent isWanted).1
        stage before
      have warned : Warned w.state id :=
        lt_of_le_of_ne (told.sound.seen id inside) (of_decide_eq_true woken)
      refine .inr ?_
      unfold Warned at warned ⊢
      rw [still.wakesSeen, still.pid]
      exact warned.trans_le ((State.tables_of_exec possible.1 done).2.2 _
        (told.sound.tidy.owner id inside))
  · have present : w.call id ≠ none := by simp [show w.call id = some call from isCall]
    have inside := told.sound.registered present
    obtain ⟨nthreads, -, procs⟩ := w.state.recorded_sizes op.giver
    exact due_of_hears (State.hears_of_exec told.sound.tidy possible.1 done)
      (inside.trans_eq nthreads.symm) (w.state.recorded_record op.giver id).1 procs blocked
      onKey due

/-- Nobody dies unheard for whom a thread would wait that is away. -/
theorem Told.leaves (heard : w.Heard (.other op)) :
    Halting.Leaves (Due w.state) (Due s) (fun id => w.away id = true)
      (fun id => (w.setState s).away id = true) w.toHalting s := by
  intro id call isCall stage away
  obtain ⟨a, isAttempt, away⟩ := (Option.any_eq_true _ _).1 away
  rw [Bool.and_eq_true] at away
  obtain ⟨sound, stays, -⟩ := told.attempting possible done isAttempt
    (of_decide_eq_true away.1)
  have present : w.call id ≠ none := by simp [show w.call id = some call from isCall]
  have inside := told.sound.registered present
  have isAway : w.away id = true := by
    unfold Children.away
    rw [show w.attempt = some a from isAttempt, Option.any_some, Bool.and_eq_true]
    exact ⟨decide_eq_true sound.holds.2.2, away.2⟩
  refine ⟨isAway, (State.keepsKeys_of_exec stays possible.1 done).key id inside, ?_⟩
  rintro ⟨child, gone, isWanted⟩
  rw [(State.staysParked_of_exec possible.1 done inside
    (notGiver_of_possible possible isCall)).pid] at gone
  obtain gone | ⟨isVictim, isParent, alive⟩ :=
    State.gone_of_exec told.sound.tidy stays possible.1 done gone
  · exact ⟨child, gone, isWanted⟩
  · have home := (heard child isVictim alive id inside call isCall isParent isWanted).2
    rw [isAway] at home
    cases home

theorem Told.other (heard : w.Heard (.other op)) : Told (w.setState s) := by
  obtain ⟨nthreads, -, -⟩ := State.tables_of_exec possible.1 done
  refine ⟨told.sound.other possible.1 possible.2.1 done (told.tells possible done heard)
    (told.leaves possible done heard), fun a isAttempt =>
      (told.registered a isAttempt).trans_le nthreads, fun a isAttempt staying => ?_⟩
  obtain ⟨sound, -, current⟩ := told.attempting possible done isAttempt staying
  refine ⟨⟨current, sound.holds.2.1.trans_le nthreads, staying⟩, sound.free,
    fun isRetired => ?_⟩
  obtain ⟨inside, waits, exited, parked⟩ := sound.retired isRetired
  exact ⟨inside.trans_le nthreads, waits,
    exited_of_exec possible.1 done inside exited, parked⟩

end Steps

theorem Told.step
    (told : Told w)
    (step : careful.step w action later) : Told later := by
  obtain ⟨heard, possible, fuel, done⟩ := step
  cases action with
  | asks id which =>
      obtain rfl := Option.some.inj done
      exact told.looks possible.1.1 (idle_of_trying possible.2) rfl
  | looks id noHang =>
      obtain ⟨call, isCall, rfl⟩ := Option.map_eq_some_iff.1 done
      exact told.look possible.1 isCall noHang
  | blocks id =>
      obtain ⟨halted, isHalted, rfl⟩ := Option.map_eq_some_iff.1 done
      exact told.halts possible.1 possible.2.2 isHalted
  | resumes id =>
      obtain ⟨call, isCall, rfl⟩ := Option.map_eq_some_iff.1 done
      exact told.looks possible.1 (told.idle possible.1 isCall) rfl
  | execs id =>
      obtain rfl := Option.some.inj done
      exact told.execs possible.1
  | becomes id =>
      obtain rfl := Option.some.inj done
      exact told.becomes
  | fails id =>
      obtain ⟨a, isAttempt, rfl⟩ := Option.map_eq_some_iff.1 done
      obtain ⟨isMe, staying⟩ := Option.filter_eq_some_iff.1 possible
      rw [isAttempt] at isMe
      obtain rfl := Option.some.inj isMe
      exact told.fails isAttempt (of_decide_eq_true staying)
  | other op =>
      obtain ⟨⟨s, answer⟩, carried, rfl⟩ := Option.map_eq_some_iff.1 done
      exact told.other possible carried heard

theorem Told.of_reachable (reachable : careful.Reachable w) : Told w := by
  refine reachable.invariant ?_ fun _ _ _ told step => told.step step
  rintro start ⟨initial, noCall, noAttempt⟩
  have oneBaton := State.oneBaton_of_reachable (.start initial)
  have tidy := State.tidy_of_reachable (.start initial)
  obtain ⟨seed, quantumLo, quantumHi, names, latencyNs, same⟩ := initial
  have none {id : ThreadId} {call : Call (Option Pid)} (isCall : start.call id = some call) :
      False := by
    rw [noCall id] at isCall
    cases isCall
  have vacant {a : Attempt} (isAttempt : start.attempt = some a) : False := by
    rw [noAttempt] at isAttempt
    cases isAttempt
  refine told_of_idle (fun a isAttempt => (vacant isAttempt).elim)
    ⟨tidy, oneBaton, fun id inside => ?_, fun present => absurd (noCall _) present,
      fun isCall => (none isCall).elim, fun isCall => (none isCall).elim,
      fun isCall => (none isCall).elim⟩ fun a isAttempt => (vacant isAttempt).elim
  rw [same] at inside
  exact absurd inside (Nat.not_lt_zero _)

/-- As long as no child dies while a thread that waits for it is between its look and its
block, or is retired by an exec, a thread that sleeps in its wait is woken by the next
death: none of the children that it waits for has exited and was not collected. -/
theorem collected_of_reachable
    (reachable : careful.Reachable w)
    (isCall : w.call id = some call)
    (isParked : call.stage = .parked)
    (blocked : (w.state.threads id).state = .blocked) :
    (w.state.threads id).key = waitKey ∧ ∀ child,
      (w.state.procs child).parent = some (w.state.threads id).pid →
        call.wish.all (· = child) = true →
          ((w.state.procs child).state = .exited ∨ (w.state.procs child).killed = true) →
            (w.state.procs child).reaped = true := by
  obtain ⟨onKey, notDue⟩ :=
    (Told.of_reachable reachable).sound.parked isCall isParked (.inl blocked)
  refine ⟨onKey, fun child isParent isWanted gone => ?_⟩
  by_contra left
  exact notDue ⟨child, ⟨isParent, gone, Bool.eq_false_iff.2 left⟩, isWanted⟩

/-! ## Runs of a parent -/

def alone : Children where
  state := .initial 1 1 1 [] 0

theorem init_alone : system.init alone :=
  ⟨⟨1, 1, 1, [], 0, rfl⟩, fun _ => rfl, rfl⟩

/-- A thread has the baton; its process has two children, and the second has a thread. -/
def begins : List Action :=
  [.other (.addProc 0 none), .other (.addThread 0), .other (.handOff none 0),
    .other (.addProc 0 (some 0)), .other (.addProc 0 (some 0)), .other (.addThread 2)]

/-- A first child that had no sockets is dead. -/
def buriedFirst (s : State) : State :=
  ((((s.noteExit 1 0).registerRestart 1 0).modifyProc 1 .clearFaultTimes).wakeIo.tellParent
    1).mapLive fun t => if t.pid = 1 ∧ t.state ≠ .exited then t.retire else t

/-- The first child dies at a point of a run. -/
def around (before after : List Action) : List Action :=
  before ++ .other (.processDied 1 0) :: after

/-- The thread collects a child, and waits for another. -/
def collects : List Action :=
  [.asks 0 none, .looks 0 false, .asks 0 none, .looks 0 false, .blocks 0]

/-- The thread is about to block for the first child. -/
def misses : List Action :=
  begins ++ [.asks 0 (some 1), .looks 0 false]

/-- The thread waits for the first child, and is retired by an exec of another. -/
def retires : List Action :=
  [.other (.addProc 0 none), .other (.addThread 0), .other (.handOff none 0),
    .other (.addProc 0 (some 0)), .other (.addThread 0), .asks 0 (some 1), .looks 0 false,
    .blocks 0, .execs 1]

/-- A thread sleeps in its wait for any child. -/
def Waits (w : Children) (id : ThreadId) : Prop :=
  w.call id = some ⟨none, .parked⟩ ∧ (w.state.threads id).state = .blocked

/-- A thread sleeps in its wait for a child that has exited and was not collected. -/
def Lost (w : Children) (id : ThreadId) (child : Pid) : Prop :=
  w.call id = some ⟨some child, .parked⟩ ∧ (w.state.threads id).state = .blocked ∧
    (w.state.threads id).key = waitKey ∧
      (w.state.procs child).parent = some (w.state.threads id).pid ∧
        (w.state.procs child).state = .exited ∧ (w.state.procs child).reaped = false

/-- The first child can die, and the baton is not its own. -/
def Dies (w : Children) : Prop :=
  w.Possible (.other (.processDied 1 0)) ∧ 1 < w.state.nprocs ∧
    (w.state.procs 1).killed = false ∧ (buriedFirst w.state).heldBy 1 = none

instance (w : Children) (id : ThreadId) : Decidable (w.Waits id) :=
  inferInstanceAs (Decidable (_ ∧ _))

instance (w : Children) (id : ThreadId) (child : Pid) : Decidable (w.Lost id child) :=
  inferInstanceAs (Decidable (_ ∧ _ ∧ _ ∧ _ ∧ _ ∧ _))

instance (w : Children) : Decidable w.Dies :=
  inferInstanceAs (Decidable (_ ∧ _ ∧ _ ∧ _))

/-- Where a run gets. -/
def played (f : Children → Action → Option Children) (actions : List Action) : Children :=
  (actions.foldlM f alone).getD alone

theorem perform_dies
    (dies : w.Dies)
    (empty : ∀ at', (w.state.net.fdrefs at').count = 0) :
    w.perform 1 (.other (.processDied 1 0)) = some (w.setState (buriedFirst w.state)) := by
  obtain ⟨possible, registered, killed, nobody⟩ := dies
  have same : w.state.buried 1 0 = buriedFirst w.state :=
    State.buried_of_empty registered empty killed 0
  unfold perform
  rw [if_pos possible]
  unfold exec State.exec State.processDied
  dsimp only
  rw [same, nobody]
  rfl

/-- A run goes on after the death of a child that has no sockets. -/
theorem foldlM_around
    {f : Children → Action → Option Children}
    {before : List Action}
    (performed : (before.foldlM f alone).isSome = true)
    (dies : (played f before).Dies)
    (empty : ∀ at', ((played f before).state.net.fdrefs at').count = 0)
    (same : f (played f before) (.other (.processDied 1 0)) =
      (played f before).perform 1 (.other (.processDied 1 0)))
    (after : List Action) :
    (around before after).foldlM f alone =
      after.foldlM f ((played f before).setState (buriedFirst (played f before).state)) := by
  have upTo : before.foldlM f alone = some (played f before) := by
    obtain ⟨w, same⟩ := Option.isSome_iff_exists.1 performed
    unfold played
    rw [same]
    rfl
  unfold around
  rw [List.foldlM_append, upTo]
  change (f (played f before) (.other (.processDied 1 0)) >>= after.foldlM f) = _
  rw [same, perform_dies dies empty]
  rfl

theorem collected_collects :
    ∃ w : Children, (w.state.procs 1).parent = some 0 ∧ (w.state.procs 1).state = .exited ∧
      (w.state.threads 0).key = waitKey ∧ ∀ child,
        (w.state.procs child).parent = some (w.state.threads 0).pid →
          ((w.state.procs child).state = .exited ∨ (w.state.procs child).killed = true) →
            (w.state.procs child).reaped = true := by
  have heard : (played (performCarefully 1) begins).Heard (.other (.processDied 1 0)) := by
    decide +kernel
  have waits : ((around begins collects).foldlM (performCarefully 1) alone).any fun w =>
      w.Waits 0 ∧ (w.state.procs 1).parent = some 0 ∧ (w.state.procs 1).state = .exited := by
    rw [foldlM_around (by decide +kernel) (by decide +kernel) (fun _ => rfl) (if_pos heard)]
    decide +kernel
  obtain ⟨w, performed, facts⟩ := (Option.any_eq_true _ _).1 waits
  obtain ⟨⟨isCall, blocked⟩, isParent, exited⟩ := of_decide_eq_true facts
  obtain ⟨onKey, collected⟩ := collected_of_reachable
    (.foldlM step_performCarefully (.start init_alone) performed) isCall rfl blocked
  exact ⟨w, isParent, exited, onKey, fun child isParent gone =>
    collected child isParent rfl gone⟩

theorem lost_of_performed
    {actions : List Action}
    (lost : (actions.foldlM (perform 1) alone).any fun w => w.Lost 0 1) :
    ∃ w, actions.foldlM (perform 1) alone = some w ∧ system.Reachable w ∧ w.Lost 0 1 := by
  obtain ⟨w, performed, lost⟩ := (Option.any_eq_true _ _).1 lost
  exact ⟨w, performed, .foldlM step_perform (.start init_alone) performed,
    of_decide_eq_true lost⟩

theorem lost_unseen_retired :
    (∃ w, (around misses [.blocks 0]).foldlM (perform 1) alone = some w ∧
      system.Reachable w ∧ w.Lost 0 1) ∧
      ∃ w, (around retires [.fails 1]).foldlM (perform 1) alone = some w ∧
        system.Reachable w ∧ w.Lost 0 1 := by
  constructor
  · refine lost_of_performed ?_
    rw [foldlM_around (by decide +kernel) (by decide +kernel) (fun _ => rfl) rfl]
    decide +kernel
  · refine lost_of_performed ?_
    rw [foldlM_around (by decide +kernel) (by decide +kernel) (fun _ => rfl) rfl]
    decide +kernel

end Children
end Derp
