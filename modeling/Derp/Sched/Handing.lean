import Derp.Sched.Words

/-!
# Passing the baton

A thread that gives the baton up sleeps on its park word, and whoever chooses it
adds one to the word under the lock, and wakes it once the lock is dropped.  So
the next thread may be asleep, on its way to sleep, or not born; whoever was to
wake it may be killed first.  A thread that exits goes on for a while after it
gave the baton away, and its process waits for that.  Whatever comes between,
one thread runs at a time, and whoever was given the baton takes it up.
-/

namespace Derp

/-! ## What a critical section does to the baton and the words -/

namespace State

variable
  {s middle later : State}
  {pid : Pid}
  {id : ThreadId}
  {fuel : Nat}
  {safe : ThreadId → Prop}
  {target : Option ThreadId}

/-- The thread that is switched to, if there is one, has the baton, runs, and
finds its word changed; nothing else is done to words or the baton. -/
structure Shift (s : State) (target : Option ThreadId) (later : State) : Prop where
  nthreads : s.nthreads ≤ later.nthreads
  pid : ∀ id < s.nthreads, (later.threads id).pid = (s.threads id).pid
  park : ∀ id, (later.threads id).park =
    (s.threads id).park + if target = some id then 1 else 0
  current : later.current = target.or s.current
  running : ∀ {next}, target = some next →
    (later.threads next).state = .running ∧ s.current ≠ some next
  exited : ∀ id < s.nthreads, (s.threads id).state = .exited →
    (later.threads id).state = .exited

theorem KeepsWords.shift
    (kept : KeepsWords safe s later)
    (lulled : Lulled s later) : Shift s none later where
  nthreads := kept.nthreads
  pid := kept.pid
  park := kept.park
  current := lulled.current
  running := nofun
  exited := fun id inside => (lulled.thread id inside).exited

theorem Bumped.shift
    {giver : Option ThreadId}
    {handoff : Handoff}
    (bumped : Bumped s giver handoff later)
    (handed : Entrusted s later giver handoff)
    (last : s.current = giver) : Shift s handoff.target later where
  nthreads := bumped.nthreads
  pid := bumped.pid
  park := bumped.park
  current := by
    cases handoff with
    | idle => exact (handed.idle rfl).current
    | stay =>
        obtain ⟨next, same, current, -⟩ := handed.given nofun
        exact current.trans (same.symm.trans last.symm)
    | switch next seen =>
        obtain ⟨_, same, current, -⟩ := handed.given nofun
        exact current.trans same.symm
  running := fun {next} isTarget => by
    cases handoff with
    | idle => cases isTarget
    | stay => cases isTarget
    | switch other seen =>
        obtain rfl : other = next := Option.some.inj isTarget
        obtain ⟨_, same, -, running⟩ := handed.given nofun
        obtain rfl := Option.some.inj same
        exact ⟨(running other).2 rfl, fun current =>
          (bumped.told rfl).1 (last.symm.trans current)⟩
  exited := handed.exited

/-- The launcher's report of a death. -/
theorem shift_processDied
    (tidy : s.Tidy)
    (oneBaton : s.OneBaton)
    (registered : pid < s.nprocs)
    {status : Int}
    {handoff : Option Handoff}
    (died : s.processDied fuel pid status = some (later, handoff)) :
    Shift s (handoff.bind Handoff.target) later ∧
      ∀ id, s.current = some id → (s.threads id).pid ≠ pid →
        handoff.bind Handoff.target = none ∧ Lulled s later ∧
          ((later.threads id).state = .exited → (s.threads id).state = .exited) := by
  have lulled := lulled_buried registered status
  have kept := @keepsWords_buried s pid
    (fun id => s.current = some id ∧ (s.threads id).pid ≠ pid) registered
    (fun id isSafe => ⟨tidy.current id isSafe.1, isSafe.2⟩) status
  obtain ⟨-, rfl, rfl⟩ | ⟨id, passed, held, handed, rfl⟩ :=
    processDied_eq_some_iff.1 died
  · exact ⟨kept.shift lulled, fun id current apart => ⟨rfl, lulled,
      kept.staying id (tidy.current id current) ⟨current, apart⟩⟩⟩
  · obtain ⟨last, inside, own⟩ := heldBy_eq_some held
    have was : s.current = some id := lulled.current.symm.trans last
    have given := (handed_gone (oneBaton.lulled lulled) last inside handed).1
    have bumped := kept.bumped (bumped_handOff (.inr rfl) handed)
    refine ⟨bumped.shift (given.after lulled) was, fun other current apart => ?_⟩
    obtain rfl : id = other := Option.some.inj (was.symm.trans current)
    exact absurd ((kept.pid id (tidy.current id was)).symm.trans own) apart

theorem takeKills_tables (s : State) :
    s.takeKills.1.nthreads = s.nthreads ∧ s.takeKills.1.threads = s.threads ∧
      s.takeKills.1.current = s.current := by
  unfold takeKills
  split <;> exact ⟨rfl, rfl, rfl⟩

theorem Shift.takeKills (shift : Shift s target later) :
    Shift s target later.takeKills.1 := by
  obtain ⟨nthreads, threads, current⟩ := later.takeKills_tables
  refine ⟨nthreads ▸ shift.nthreads, ?_, ?_, current.trans shift.current, ?_, ?_⟩
  · rw [threads]
    exact shift.pid
  · rw [threads]
    exact shift.park
  · rw [threads]
    exact shift.running
  · rw [threads]
    exact shift.exited

theorem reachable_takeKills
    (reachable : schedule.Reachable s) : schedule.Reachable s.takeKills.1 :=
  @Transition.Reachable.next _ _ schedule _ _ (.takeKills, .kills s.takeKills.2)
    reachable ⟨trivial, 0, rfl⟩

end State

/-! ## Threads, processes and the launcher -/

/-- Where a thread is on the way from one turn to the next. -/
inductive Handing.Place
  /-- It is not at its first wait. -/
  | unborn
  /-- It is about to compare its word with the one it saw. -/
  | checks (seen : UInt32)
  /-- They were the same: it is about to sleep in the kernel. -/
  | compares (seen : UInt32)
  | sleeps (seen : UInt32)
  /-- It is awake with the baton. -/
  | takesUp
  /-- It waits until a thread of its process that exited is gone. -/
  | waitsOut
  /-- It waits until crashed processes are dead. -/
  | settles
  /-- It was chosen again, without a sleep. -/
  | keeps
  | runs
  /-- It found the run idle and looks again; or it was exiting when it did. -/
  | polls (exits : Bool)
  /-- It has dropped the lock and is about to wake the next thread, and then to
  die, to sleep, or to go. -/
  | wakes (next : ThreadId) (crashed : Bool) (seen : Option UInt32)
  /-- It is about to kill its own process. -/
  | dies
  /-- It has given the baton away for good. -/
  | teardown
  | gone
  deriving DecidableEq

/-- The shared state, the threads of the run, the processes that are really dead,
whom the launcher is about to wake, and for each process the thread that left
its port behind when it exited and the number of its children's deaths that a
signal told it of.  Of the threads that exited, some are strays: no port of
theirs could be kept, or whoever waited for them gave up. -/
structure Handing where
  state : State
  place : ThreadId → Handing.Place := fun _ => .unborn
  dead : Pid → Bool := fun _ => false
  owed : Option ThreadId := none
  leaving : Pid → Option ThreadId := fun _ => none
  heard : Pid → Nat := fun _ => 0
  stray : ThreadId → Bool := fun _ => false

namespace Handing

namespace Place

/-- It has the baton. -/
def holds : Place → Bool
  | .takesUp | .waitsOut | .settles | .keeps | .runs | .polls _ => true
  | _ => false

/-- It has the baton, and no other thread of its process that exited is left. -/
def alone : Place → Bool
  | .settles | .keeps | .runs | .polls _ => true
  | _ => false

/-- It exits, and is not gone. -/
def exiting : Place → Bool
  | .polls true | .wakes _ _ none | .teardown => true
  | _ => false

/-- What it saw in its park word. -/
def seen : Place → Option UInt32
  | .unborn => some 0
  | .checks seen | .compares seen | .sleeps seen => some seen
  | .wakes _ _ seen => seen
  | _ => none

/-- It is in the schedule when it has the baton. -/
def scheduled : Place → Bool
  | .polls _ | .wakes _ _ none | .dies | .teardown | .gone => false
  | _ => true

end Place

def pidOf (w : Handing) (id : ThreadId) : Pid :=
  (w.state.threads id).pid

/-- The park word: how often it was handed the baton, in 32 bits. -/
def word (w : Handing) (id : ThreadId) : UInt32 :=
  UInt32.ofNat (w.state.threads id).park

/-- A thread of the run whose process is not dead. -/
def Live (w : Handing) (id : ThreadId) : Prop :=
  id < w.state.nthreads ∧ w.dead (w.pidOf id) = false

def go (w : Handing) (id : ThreadId) (place : Place) : Handing :=
  { w with place := Function.update w.place id place }

def setState (w : Handing) (s : State) : Handing :=
  { w with state := s }

/-- `SIGCHLD` is raised: no death of a child is left to tell. -/
def takeSigchld (w : Handing) (pid : Pid) : Handing :=
  { w with heard := Function.update w.heard pid (w.state.procs pid).childDeaths }

/-- `note_exiting`: a thread that exits leaves its port behind, if it can be
kept. -/
def noteExiting (w : Handing) (id : ThreadId) (exits kept : Bool) : Handing :=
  { w with
    leaving :=
      if exits && kept then Function.update w.leaving (w.pidOf id) (some id)
      else w.leaving
    stray := if exits && !kept then Function.update w.stray id true else w.stray }

/-- `wait_out_exit`: the port is dropped once its thread is gone, or after 30 s
all the same. -/
def dropPort (w : Handing) (pid : Pid) : Handing :=
  { w with
    leaving := Function.update w.leaving pid none
    stray := fun id =>
      w.stray id || decide (w.leaving pid = some id ∧ w.place id ≠ .gone) }

/-- The kernel's wake: nothing happens where the thread does not sleep. -/
def unpark (w : Handing) (next : ThreadId) : Handing :=
  match w.place next with
  | .sleeps seen => w.go next (.checks seen)
  | _ => w

/-- Where a thread goes that passed the baton on, or could not. -/
def afterwards
    (w : Handing)
    (id : ThreadId)
    (exits : Bool)
    (idle : Place)
    (s : State) : Handoff → Place
  | .idle => if (s.procs (w.pidOf id)).killed then .dies else idle
  | .stay =>
      if 0 < s.unsettled ∨
          w.heard (w.pidOf id) < (s.procs (w.pidOf id)).childDeaths then .takesUp
      else .keeps
  | .switch next seen =>
      .wakes next (s.procs (w.pidOf id)).killed
        (if exits then none else some (UInt32.ofNat seen))

/-- `After::of`, under the lock: newly crashed processes are killed. -/
def passed
    (w : Handing)
    (id : ThreadId)
    (exits : Bool)
    (idle : State → Place)
    (result : State × Handoff) : Handing :=
  let s := result.1.takeKills.1
  (w.setState s).go id (w.afterwards id exits (idle s) s result.2)

/-- The rest of `yield_baton_as`, once the thread has said how long it waits. -/
def yieldBaton
    (fuel : Nat)
    (w : Handing)
    (id : ThreadId)
    (state : ThreadState)
    (key : Nat)
    (site : UInt64)
    (kept : Bool) : Option Handing :=
  let exits : Bool := state = .exited
  (w.state.handOff fuel (some (id, state, key)) site).map
    ((w.noteExiting id exits kept).passed id exits fun s =>
      if exits ∧ s.anyAlive = false then .teardown else .polls exits)

/-- What may happen. -/
inductive Action
  | begins (id : ThreadId)
  | reads (id : ThreadId)
  | sleeps (id : ThreadId)
  /-- The kernel's wait ends on its own. -/
  | rouses (id : ThreadId)
  | resumes (id : ThreadId)
  /-- The end of `wait_out_exit`; it may be the one that gives up. -/
  | waitsOut (id : ThreadId) (givesUp : Bool)
  /-- `settle_deaths`: a thread that runs waits for the dead. -/
  | awaitsDeaths (id : ThreadId)
  /-- One poll of `wait_out_deaths`; it may be the one that gives up.  Where it
  is the last, the process may take `SIGCHLD`. -/
  | settles (id : ThreadId) (givesUp takesSigchld : Bool)
  /-- It gives the baton up, and found no wake from outside the schedule.  Where
it exits, its port may be kept. -/
  | yields (id : ThreadId) (state : ThreadState) (key : Nat) (deadline : Option Nat)
      (site : UInt64) (kept : Bool)
  | polls (id : ThreadId) (site : UInt64)
  | wakes (id : ThreadId)
  | leaves (id : ThreadId)
  | dies (pid : Pid)
  | reports (pid : Pid) (status : Int)
  | starts
  | launcherWakes
  /-- A critical section that does not pass the baton on. -/
  | other (op : State.Op)

/-- The thread that acts. -/
def Action.actor : Action → Option ThreadId
  | .begins id | .reads id | .sleeps id | .rouses id | .resumes id => some id
  | .waitsOut id _ | .awaitsDeaths id | .settles id _ _ => some id
  | .yields id _ _ _ _ _ | .polls id _ => some id
  | .wakes id | .leaves id => some id
  | _ => none

/-- One poll of `wait_out_deaths`. -/
def settleOnce (s : State) (givesUp : Bool) : State × Bool :=
  let s := if givesUp ∧ s.settleDeaths.2 = false then s.forgetUnsettled else s
  s.settleDeaths

/-- Carry an action out. -/
def exec (fuel : Nat) (w : Handing) : Action → Option Handing
  | .begins id =>
      if w.place id = .unborn then some (w.go id (.checks 0)) else none
  | .reads id =>
      match w.place id with
      | .checks seen =>
          some (w.go id (if w.word id = seen then .compares seen else .takesUp))
      | _ => none
  | .sleeps id =>
      match w.place id with
      | .compares seen =>
          some (w.go id (if w.word id = seen then .sleeps seen else .checks seen))
      | _ => none
  | .rouses id =>
      match w.place id with
      | .sleeps seen => some (w.go id (.checks seen))
      | _ => none
  | .resumes id =>
      let stopped := (w.state.procs (w.pidOf id)).stopped
      match w.place id with
      | .takesUp => some (w.go id (if stopped then .dies else .waitsOut))
      | .keeps => some (w.go id (if stopped then .dies else .runs))
      | _ => none
  | .waitsOut id givesUp =>
      if w.place id = .waitsOut ∧ (givesUp ∨
          ∀ other ∈ w.leaving (w.pidOf id), w.place other = .gone) then
        some ((w.dropPort (w.pidOf id)).go id .settles)
      else none
  | .awaitsDeaths id =>
      if w.place id = .runs then some (w.go id .settles) else none
  | .settles id givesUp takesSigchld =>
      if w.place id = .settles then
        let (s, settled) := settleOnce w.state givesUp
        let w := (w.setState s).go id (if settled then .runs else .settles)
        some (if settled ∧ takesSigchld then w.takeSigchld (w.pidOf id) else w)
      else none
  | .yields id state key deadline site kept =>
      if w.place id = .runs then
        (w.setState (w.state.setDeadline id (State.deadlineWord deadline))).yieldBaton
          fuel id state key site kept
      else none
  | .polls id site =>
      match w.place id with
      | .polls exits =>
          (w.state.choose fuel (some id) site).map
            (w.passed id exits fun _ => .polls exits)
      | _ => none
  | .wakes id =>
      match w.place id with
      | .wakes next crashed seen =>
          some ((w.unpark next).go id
            (if crashed then .dies else seen.elim .teardown .checks))
      | _ => none
  | .leaves id =>
      if w.place id = .teardown then some (w.go id .gone) else none
  | .dies pid => some { w with dead := Function.update w.dead pid true }
  | .reports pid status =>
      (w.state.processDied fuel pid status).map fun (s, handoff) =>
        { w with state := s.takeKills.1, owed := handoff.bind Handoff.target }
  | .starts =>
      (w.state.handOff fuel none 0).map fun (s, handoff) =>
        { w with state := s, owed := handoff.target }
  | .launcherWakes =>
      w.owed.map fun next => { w.unpark next with owed := none }
  | .other op => (w.state.exec fuel op).map fun result => w.setState result.1

/-- The launcher starts the run once, reports a process that it has reaped, and
wakes whom it owes a wake before it goes on. -/
def Possible (w : Handing) : Action → Prop
  | .yields id state _ _ _ _ => w.Live id ∧
      (state = .runnable ∨ state = .blocked ∨ state = .exited)
  | .begins id | .reads id | .sleeps id | .rouses id | .resumes id => w.Live id
  | .waitsOut id _ | .awaitsDeaths id | .settles id _ _ | .polls id _ => w.Live id
  | .wakes id | .leaves id => w.Live id
  | .dies _ | .launcherWakes => True
  | .reports pid _ =>
      pid < w.state.nprocs ∧ w.dead pid = true ∧ w.owed = none
  | .starts => w.state.current = none ∧ w.owed = none
  | .other op => w.state.Possible op ∧ op.still = true

/-- The runs of the schedule, with threads that wait for the baton. -/
def system : Transition Handing Action where
  init := fun w => State.schedule.init w.state ∧ (∀ id, w.place id = .unborn) ∧
    (∀ pid, w.dead pid = false) ∧ w.owed = none ∧
      (∀ pid, w.leaving pid = none ∧ w.heard pid = 0) ∧ ∀ id, w.stray id = false
  step := fun w action later =>
    w.Possible action ∧ ∃ fuel, w.exec fuel action = some later

instance (w : Handing) (id : ThreadId) : Decidable (w.Live id) :=
  inferInstanceAs (Decidable (_ ∧ _))

instance (w : Handing) (action : Action) : Decidable (w.Possible action) := by
  unfold Possible
  split <;> infer_instance

/-- Carry an action out if it is possible. -/
def perform (fuel : Nat) (w : Handing) (action : Action) : Option Handing :=
  if w.Possible action then w.exec fuel action else none

theorem step_perform
    {fuel : Nat}
    {w later : Handing}
    {action : Action}
    (performed : w.perform fuel action = some later) : system.step w action later := by
  unfold perform at performed
  split at performed
  · next possible => exact ⟨possible, fuel, performed⟩
  · cases performed

variable
  {w later : Handing}
  {s : State}
  {id other next : ThreadId}
  {pid : Pid}
  {fuel : Nat}

@[simp] theorem go_place_self (w : Handing) (id : ThreadId) (place : Place) :
    (w.go id place).place id = place :=
  Function.update_self ..

theorem go_place_of_ne
    (apart : other ≠ id)
    {place : Place} : (w.go id place).place other = w.place other :=
  Function.update_of_ne apart ..

/-! ## The invariant -/

/-- All but the wakes that are on their way. -/
structure Sound (w : Handing) : Prop where
  reached : State.schedule.Reachable w.state
  spare : ∀ {id}, w.state.nthreads ≤ id → w.place id = .unborn
  holder : ∀ {id}, w.Live id → (w.place id).holds = true →
    w.state.current = some id
  staying : ∀ {id}, w.Live id → w.state.current = some id →
    (w.place id).scheduled = true → (w.state.threads id).state ≠ .exited
  polling : ∀ {id exits}, w.Live id → w.place id = .polls exits →
    (w.state.threads id).state ≠ .running
  /-- A thread that waits is told by its word, and by nothing else, that it was
  given the baton. -/
  told : ∀ {id seen}, w.Live id → (w.place id).seen = some seen →
    w.word id = if w.state.current = some id then seen + 1 else seen
  left : ∀ {id}, w.Live id → (w.place id).exiting = true → w.stray id = false →
    w.leaving (w.pidOf id) = some id
  alone : ∀ {id other}, w.Live id → w.Live other → w.pidOf other = w.pidOf id →
    other ≠ id → w.stray other = false → (w.place id).alone = true →
    (w.place other).exiting = false
  doomed : ∀ {id next seen}, w.Live id → w.place id = .wakes next true seen →
    (w.state.threads id).state = .exited

/-- The thread that was given the baton and sleeps is about to be woken, unless
its waker is killed first. -/
def Awaited (w : Handing) : Prop :=
  ∀ id seen, w.Live id → w.state.current = some id → w.place id = .sleeps seen →
    w.owed = some id ∨ ∃ other crashed seen, w.place other = .wakes id crashed seen

/-- What the invariant asks of the place of a thread. -/
structure Fits (w : Handing) (id : ThreadId) (place : Place) : Prop where
  holder : place.holds = true → w.state.current = some id
  staying : w.state.current = some id → place.scheduled = true →
    (w.state.threads id).state ≠ .exited
  polling : ∀ {exits}, place = .polls exits →
    (w.state.threads id).state ≠ .running
  told : ∀ {seen}, place.seen = some seen →
    w.word id = if w.state.current = some id then seen + 1 else seen
  left : place.exiting = true → w.stray id = false → w.leaving (w.pidOf id) = some id
  alone : place.alone = true → ∀ {other}, w.Live other →
    w.pidOf other = w.pidOf id → other ≠ id → w.stray other = false →
    (w.place other).exiting = false
  apart : place.exiting = true → w.stray id = false → ∀ {other}, w.Live other →
    w.pidOf other = w.pidOf id → other ≠ id → (w.place other).alone = false
  doomed : ∀ {next seen}, place = .wakes next true seen →
    (w.state.threads id).state = .exited

/-- Nothing is asked of a thread that is on its way to die, or gone. -/
theorem fits_away {place : Place} (away : place = .dies ∨ place = .gone) :
    Fits w id place := by
  obtain rfl | rfl := away <;>
    exact ⟨nofun, nofun, nofun, nofun, nofun, nofun, nofun, nofun⟩

theorem Place.holds_of_alone {place : Place} (alone : place.alone = true) :
    place.holds = true := by
  cases place <;> first | rfl | cases alone

/-- A thread of the run goes to another place. -/
theorem Sound.go
    (sound : Sound w)
    (registered : id < w.state.nthreads)
    {place : Place}
    (fits : w.Live id → Fits w id place) : Sound (w.go id place) where
  reached := sound.reached
  spare := fun {other} outside => by
    have apart : other ≠ id := by
      rintro rfl
      exact absurd registered (not_lt.2 outside)
    exact (Function.update_of_ne apart _ _).trans (sound.spare outside)
  holder := fun {other} lives => by
    by_cases same : other = id
    · subst same
      rw [go_place_self]
      exact (fits lives).holder
    · rw [go_place_of_ne same]
      exact sound.holder lives
  staying := fun {other} lives current => by
    by_cases same : other = id
    · subst same
      rw [go_place_self]
      exact (fits lives).staying current
    · rw [go_place_of_ne same]
      exact sound.staying lives current
  polling := fun {other exits} lives => by
    by_cases same : other = id
    · subst same
      rw [go_place_self]
      exact (fits lives).polling
    · rw [go_place_of_ne same]
      exact sound.polling lives
  told := fun {other seen} lives => by
    by_cases same : other = id
    · subst same
      rw [go_place_self]
      exact (fits lives).told
    · rw [go_place_of_ne same]
      exact sound.told lives
  left := fun {other} lives => by
    by_cases same : other = id
    · subst same
      rw [go_place_self]
      exact (fits lives).left
    · rw [go_place_of_ne same]
      exact sound.left lives
  alone := fun {first second} lives livesToo own apart kept => by
    have pids : w.pidOf second = w.pidOf first := own
    by_cases same : first = id
    · subst same
      rw [go_place_self, go_place_of_ne apart]
      exact fun alone => (fits lives).alone alone livesToo pids apart kept
    by_cases sameToo : second = id
    · subst sameToo
      rw [go_place_self, go_place_of_ne same]
      intro alone
      by_contra exits
      have none := (fits livesToo).apart (Bool.eq_true_of_not_eq_false exits) kept lives
        pids.symm same
      rw [none] at alone
      cases alone
    · rw [go_place_of_ne same, go_place_of_ne sameToo]
      exact sound.alone lives livesToo pids apart kept
  doomed := fun {other next seen} lives => by
    by_cases same : other = id
    · subst same
      rw [go_place_self]
      exact (fits lives).doomed
    · rw [go_place_of_ne same]
      exact sound.doomed lives

theorem Sound.registered
    (sound : Sound w)
    (born : w.place id ≠ .unborn) : id < w.state.nthreads := by
  by_contra outside
  exact born (sound.spare (not_lt.1 outside))

/-- The place where a thread is fits. -/
theorem Sound.fits (sound : Sound w) (live : w.Live id) : Fits w id (w.place id) where
  holder := sound.holder live
  staying := sound.staying live
  polling := sound.polling live
  told := sound.told live
  left := sound.left live
  alone := fun alone _ lives own apart kept => sound.alone live lives own apart kept alone
  apart := fun exits kept {other} lives own apart => by
    by_contra alone
    have none := sound.alone lives live own.symm apart.symm kept
      (Bool.eq_true_of_not_eq_false alone)
    rw [none] at exits
    cases exits
  doomed := sound.doomed live

/-- Threads that were registered are where they were, and others are unborn. -/
theorem Sound.live_setState
    (sound : Sound w)
    {target : Option ThreadId}
    (shift : State.Shift w.state target s)
    (live : (w.setState s).Live id) :
    w.Live id ∧ (w.setState s).pidOf id = w.pidOf id ∨
      w.state.nthreads ≤ id ∧ w.place id = .unborn := by
  by_cases inside : id < w.state.nthreads
  · have same : (w.setState s).pidOf id = w.pidOf id := shift.pid id inside
    exact .inl ⟨⟨inside, same ▸ live.2⟩, same⟩
  · exact .inr ⟨not_lt.1 inside, sound.spare (not_lt.1 inside)⟩

/-- In a critical section, what a thread that waits is told is still so. -/
theorem Sound.told_shift
    (sound : Sound w)
    {target : Option ThreadId}
    (shift : State.Shift w.state target s)
    (held : ∀ {id}, w.Live id → w.state.current = some id →
      w.place id = .dies ∨ target = none)
    (live : (w.setState s).Live id)
    {seen : UInt32}
    (sees : (w.place id).seen = some seen) :
    (w.setState s).word id = if s.current = some id then seen + 1 else seen := by
  have tidy := State.tidy_of_reachable sound.reached
  have before : w.word id =
      if w.state.current = some id then seen + 1 else seen := by
    obtain ⟨lives, -⟩ | ⟨outside, unborn⟩ := sound.live_setState shift live
    · exact sound.told lives sees
    · rw [unborn] at sees
      obtain rfl := Option.some.inj sees
      have apart : w.state.current ≠ some id := fun current =>
        absurd (tidy.current id current) (not_lt.2 outside)
      rw [if_neg apart, word, tidy.spareThreads id outside]
      rfl
  have after : (w.setState s).word id =
      if target = some id then w.word id + 1 else w.word id := by
    change UInt32.ofNat (s.threads id).park = _
    rw [shift.park id]
    split
    · exact UInt32.ofNat_add _ _
    · rfl
  rw [after, before]
  change _ = if s.current = some id then _ else _
  rw [shift.current]
  cases isTarget : target with
  | none => rw [if_neg nofun]; rfl
  | some next =>
      by_cases same : next = id
      · subst same
        rw [if_neg (shift.running isTarget).2, if_pos rfl]
        exact (if_pos rfl).symm
      · have other : some next ≠ some id := fun both =>
          same (Option.some.inj both)
        have apart : w.state.current ≠ some id := by
          intro current
          obtain ⟨lives, -⟩ | ⟨outside, -⟩ := sound.live_setState shift live
          · obtain dies | none := held lives current
            · rw [dies] at sees
              cases sees
            · rw [none] at isTarget
              cases isTarget
          · exact absurd (tidy.current id current) (not_lt.2 outside)
        rw [if_neg other, if_neg apart]
        exact (if_neg other).symm

/-- A critical section.  Whoever has the baton gave it up for it, or keeps it. -/
theorem Sound.shift
    (sound : Sound w)
    {target : Option ThreadId}
    (shift : State.Shift w.state target s)
    (reached : State.schedule.Reachable s)
    (held : ∀ {id}, w.Live id → w.state.current = some id →
      w.place id = .dies ∨ target = none ∧
        ((s.threads id).state = .exited → (w.state.threads id).state = .exited) ∧
        ((s.threads id).state = .running →
          (w.state.threads id).state = .running)) :
    Sound (w.setState s) where
  reached := reached
  spare := fun outside => sound.spare (shift.nthreads.trans outside)
  holder := fun {id} live holds => by
    have holds : (w.place id).holds = true := holds
    obtain ⟨lives, -⟩ | ⟨-, unborn⟩ := sound.live_setState shift live
    · have current := sound.holder lives holds
      obtain dies | ⟨rfl, -⟩ := held lives current
      · rw [dies] at holds
        cases holds
      · exact shift.current.trans current
    · rw [unborn] at holds
      cases holds
  staying := fun {id} live current scheduled => by
    have current : s.current = some id := current
    have scheduled : (w.place id).scheduled = true := scheduled
    change (s.threads id).state ≠ .exited
    rw [shift.current] at current
    cases isTarget : target with
    | some next =>
        rw [isTarget] at current
        obtain rfl : next = id := Option.some.inj current
        rw [(shift.running isTarget).1]
        decide
    | none =>
        rw [isTarget] at current
        have current : w.state.current = some id := current
        have inside := (State.tidy_of_reachable sound.reached).current id current
        obtain ⟨lives, -⟩ | ⟨outside, -⟩ := sound.live_setState shift live
        · obtain dies | ⟨-, stays, -⟩ := held lives current
          · rw [dies] at scheduled
            cases scheduled
          · exact fun exited => sound.staying lives current scheduled (stays exited)
        · exact absurd inside (not_lt.2 outside)
  polling := fun {id exits} live polls => by
    have polls : w.place id = .polls exits := polls
    change (s.threads id).state ≠ .running
    obtain ⟨lives, -⟩ | ⟨-, unborn⟩ := sound.live_setState shift live
    · have current := sound.holder lives (by rw [polls]; rfl)
      obtain dies | ⟨-, -, runs⟩ := held lives current
      · rw [dies] at polls
        cases polls
      · exact fun running => sound.polling lives polls (runs running)
    · rw [unborn] at polls
      cases polls
  told := fun {id seen} live sees =>
    sound.told_shift shift (fun lives current => (held lives current).imp_right And.left)
      live sees
  left := fun {id} live exits => by
    have exits : (w.place id).exiting = true := exits
    obtain ⟨lives, same⟩ | ⟨-, unborn⟩ := sound.live_setState shift live
    · rw [same]
      exact sound.left lives exits
    · rw [unborn] at exits
      cases exits
  alone := fun {id other} live liveToo own apart kept alone => by
    have alone : (w.place id).alone = true := alone
    change (w.place other).exiting = false
    obtain ⟨lives, same⟩ | ⟨-, unborn⟩ := sound.live_setState shift live
    · obtain ⟨livesToo, sameToo⟩ | ⟨-, unborn⟩ := sound.live_setState shift liveToo
      · exact sound.alone lives livesToo (sameToo.symm.trans (own.trans same)) apart kept
          alone
      · rw [unborn]
        rfl
    · rw [unborn] at alone
      cases alone
  doomed := fun {id next seen} live wakes => by
    have wakes : w.place id = .wakes next true seen := wakes
    obtain ⟨lives, -⟩ | ⟨-, unborn⟩ := sound.live_setState shift live
    · exact shift.exited id lives.1 (sound.doomed lives wakes)
    · rw [unborn] at wakes
      cases wakes

/-! ## One step -/

/-- A step at which nobody passes the baton on. -/
theorem Sound.still
    (sound : Sound w)
    {op : State.Op}
    {answer : State.Answer}
    (still : op.still = true)
    (possible : w.state.Possible op)
    (done : w.state.exec fuel op = some (s, answer)) :
    Sound (w.setState s) ∧ s.current = w.state.current ∧
      State.Shift w.state none s := by
  have lulled := State.lulled_of_still still possible done
  have kept := State.keepsWords_of_still still possible done
  have shift := kept.shift lulled
  have step : State.schedule.step w.state (op, answer) s := ⟨possible, fuel, done⟩
  refine ⟨sound.shift shift (.next sound.reached step)
    fun {id} live current => .inr ⟨rfl, kept.staying id live.1 current, ?_⟩,
    lulled.current, shift⟩
  exact (lulled.thread id live.1).running

/-- Only a wake that is made is not on its way any more. -/
theorem Awaited.go
    (awaited : w.Awaited)
    {place : Place}
    (asleep : ∀ seen, place = .sleeps seen → w.state.current ≠ some id)
    (made : ∀ {next crashed seen told}, w.place id = .wakes next crashed seen →
      w.place next ≠ .sleeps told) : (w.go id place).Awaited := by
  intro other seen live current sleeps
  by_cases same : other = id
  · subst same
    rw [go_place_self] at sleeps
    exact absurd current (asleep seen sleeps)
  · rw [go_place_of_ne same] at sleeps
    obtain owed | ⟨waker, crashed, told, wakes⟩ := awaited _ _ live current sleeps
    · exact .inl owed
    · refine .inr ⟨waker, crashed, told, ?_⟩
      have apart : waker ≠ id := by
        rintro rfl
        exact made wakes sleeps
      rw [go_place_of_ne apart]
      exact wakes

/-- A thread that is woken looks at its word again. -/
theorem Sound.unpark (sound : Sound w) (next : ThreadId) : Sound (w.unpark next) := by
  unfold Handing.unpark
  split
  · next seen sleeps =>
      refine sound.go (sound.registered ?_) fun live => ?_
      · rw [sleeps]
        nofun
      · have fits := sound.fits live
        rw [sleeps] at fits
        exact ⟨nofun, fun current _ => fits.staying current rfl, nofun,
          fun sees => fits.told sees, nofun, nofun, nofun, nofun⟩
  · exact sound

/-- A thread that waits goes on waiting, with the same word in mind. -/
theorem Sound.waiting
    (sound : Sound w)
    (registered : id < w.state.nthreads)
    {seen : UInt32}
    (sees : (w.place id).seen = some seen)
    (scheduled : (w.place id).scheduled = true)
    {place : Place}
    (same : place.seen = some seen)
    (waits : place = .checks seen ∨ place = .compares seen ∨ place = .sleeps seen) :
    Sound (w.go id place) := by
  refine sound.go registered fun live => ?_
  have fits := sound.fits live
  obtain rfl | rfl | rfl := waits <;>
    exact ⟨nofun, fun current _ => fits.staying current scheduled, nofun,
      fun told => fits.told (sees.trans (same.symm.trans told)), nofun, nofun, nofun,
      nofun⟩

/-- A thread that has the baton goes on, in the schedule. -/
theorem Sound.onward
    (sound : Sound w)
    (live : w.Live id)
    (current : w.state.current = some id)
    (scheduled : (w.place id).scheduled = true)
    {place : Place}
    (goes : place = .takesUp ∨ place = .waitsOut ∨ place = .dies ∨
      (place = .settles ∨ place = .runs) ∧ (w.place id).alone = true) :
    Sound (w.go id place) := by
  refine sound.go live.1 fun _ => ?_
  have fits := sound.fits live
  obtain rfl | rfl | rfl | ⟨rfl | rfl, was⟩ := goes
  · exact ⟨fun _ => current, fun _ _ => fits.staying current scheduled, nofun, nofun,
      nofun, nofun, nofun, nofun⟩
  · exact ⟨fun _ => current, fun _ _ => fits.staying current scheduled, nofun, nofun,
      nofun, nofun, nofun, nofun⟩
  · exact fits_away (.inl rfl)
  all_goals
    exact ⟨fun _ => current, fun _ _ => fits.staying current scheduled, nofun, nofun,
      nofun, fun _ => fits.alone was, nofun, nofun⟩

/-- More strays, and other ports of a process none of whose threads is on its
way out but strays. -/
theorem Sound.setPorts
    (sound : Sound w)
    {leaving : Pid → Option ThreadId}
    {stray : ThreadId → Bool}
    (more : ∀ id, stray id = false → w.stray id = false)
    (ports : ∀ {id}, w.Live id → (w.place id).exiting = true → stray id = false →
      leaving (w.pidOf id) = w.leaving (w.pidOf id)) :
    Sound { w with leaving := leaving, stray := stray } :=
  ⟨sound.reached, sound.spare, sound.holder, sound.staying, sound.polling, sound.told,
    fun live exits kept => (ports live exits kept).trans
      (sound.left live exits (more _ kept)),
    fun live lives own apart kept => sound.alone live lives own apart (more _ kept),
    sound.doomed⟩

/-- The critical section of a thread that passes the baton on: the thread itself
is nowhere meanwhile. -/
def within (w : Handing) (id : ThreadId) (s : State) : Handing :=
  (w.go id .dies).setState s

theorem passed_eq_go
    (w : Handing)
    (id : ThreadId)
    (exits : Bool)
    (idle : State → Place)
    (middle : State)
    (handoff : Handoff) :
    w.passed id exits idle (middle, handoff) =
      (w.within id middle.takeKills.1).go id
        (w.afterwards id exits (idle middle.takeKills.1) middle.takeKills.1
          handoff) := by
  unfold Handing.passed within Handing.go Handing.setState
  dsimp only
  rw [Function.update_idem]

theorem Sound.within
    (sound : Sound w)
    (live : w.Live id)
    (current : w.state.current = some id)
    {target : Option ThreadId}
    (shift : State.Shift w.state target s)
    (reached : State.schedule.Reachable s) : Sound (w.within id s) := by
  have nowhere : Sound (w.go id .dies) :=
    sound.go live.1 fun _ => fits_away (.inl rfl)
  exact nowhere.shift shift reached fun {other} _ last => by
    obtain rfl : id = other := Option.some.inj (current.symm.trans last)
    exact .inl (go_place_self ..)

/-- Meanwhile no other thread of its process exits, or is where none may exit. -/
theorem Sound.within_alone
    (sound : Sound w)
    (live : w.Live id)
    (current : w.state.current = some id)
    {target : Option ThreadId}
    (shift : State.Shift w.state target s)
    (alone : ∀ {other}, w.Live other → w.pidOf other = w.pidOf id → other ≠ id →
      w.stray other = false → (w.place other).exiting = false)
    (lives : (w.within id s).Live other)
    (own : (w.within id s).pidOf other = (w.within id s).pidOf id)
    (apart : other ≠ id) :
    ((w.within id s).stray other = false →
      ((w.within id s).place other).exiting = false) ∧
        ((w.within id s).place other).alone = false := by
  have same : (w.within id s).place other = w.place other := go_place_of_ne apart
  have pid : (w.within id s).pidOf id = w.pidOf id := shift.pid id live.1
  rw [same]
  obtain ⟨before, pids⟩ | ⟨-, unborn⟩ := sound.live_setState shift lives
  · refine ⟨alone before (pids.symm.trans (own.trans pid)) apart, ?_⟩
    by_contra runs
    have last := sound.holder before
      (Place.holds_of_alone (Bool.eq_true_of_not_eq_false runs))
    exact apart (Option.some.inj (last.symm.trans current))
  · rw [unborn]
    exact ⟨fun _ => rfl, rfl⟩

/-- A thread that found the run idle, and looks again or goes. -/
theorem fits_idle
    {exits : Bool}
    (current : w.state.current = some id)
    (parked : (w.state.threads id).state ≠ .running)
    (left : exits = true → w.stray id = false → w.leaving (w.pidOf id) = some id)
    (alone : ∀ {other}, w.Live other → w.pidOf other = w.pidOf id → other ≠ id →
      (w.stray other = false → (w.place other).exiting = false) ∧
        (w.place other).alone = false)
    {place : Place}
    (goes : place = .polls exits ∨ place = .teardown ∧ exits = true) :
    Fits w id place := by
  obtain rfl | ⟨rfl, exiting⟩ := goes
  · refine ⟨fun _ => current, nofun, fun _ => parked, nofun, fun isExiting => ?_,
      fun _ _ lives own apart => (alone lives own apart).1,
      fun _ _ _ lives own apart => (alone lives own apart).2, nofun⟩
    cases exits with
    | true => exact left rfl
    | false => cases isExiting
  · exact ⟨nofun, nofun, nofun, nofun, fun _ => left exiting, nofun,
      fun _ _ _ lives own apart => (alone lives own apart).2, nofun⟩

/-- A thread that was chosen again. -/
theorem fits_stay
    (current : w.state.current = some id)
    (stays : (w.state.threads id).state ≠ .exited)
    (alone : ∀ {other}, w.Live other → w.pidOf other = w.pidOf id → other ≠ id →
      (w.stray other = false → (w.place other).exiting = false) ∧
        (w.place other).alone = false)
    {place : Place}
    (goes : place = .takesUp ∨ place = .keeps) : Fits w id place := by
  obtain rfl | rfl := goes
  · exact ⟨fun _ => current, fun _ _ => stays, nofun, nofun, nofun, nofun, nofun, nofun⟩
  · exact ⟨fun _ => current, fun _ _ => stays, nofun, nofun, nofun,
      fun _ _ lives own apart => (alone lives own apart).1, nofun, nofun⟩

/-- A thread that gave the baton to another. -/
theorem fits_switch
    {exits crashed : Bool}
    {seen : UInt32}
    (passed : w.state.current ≠ some id)
    (told : w.word id = seen)
    (left : exits = true → w.stray id = false → w.leaving (w.pidOf id) = some id)
    (alone : ∀ {other}, w.Live other → w.pidOf other = w.pidOf id → other ≠ id →
      (w.stray other = false → (w.place other).exiting = false) ∧
        (w.place other).alone = false)
    (doomed : crashed = true → (w.state.threads id).state = .exited) :
    Fits w id (.wakes next crashed (if exits then none else some seen)) := by
  refine ⟨nofun, fun again => absurd again passed, nofun, fun {word} sees => ?_,
    fun isExiting => ?_, nofun,
    fun _ _ _ lives own apart => (alone lives own apart).2, fun {_ _} wakes => ?_⟩
  · cases exits with
    | true => cases sees
    | false =>
        obtain rfl := Option.some.inj sees
        exact told.trans (if_neg passed).symm
  · cases exits with
    | true => exact left rfl
    | false => cases isExiting
  · obtain ⟨-, isCrashed, -⟩ := Place.wakes.inj wakes
    exact doomed isCrashed

/-- A thread passes the baton on, or finds that it cannot. -/
theorem Sound.passed
    (sound : Sound w)
    (live : w.Live id)
    (current : w.state.current = some id)
    {middle : State}
    {handoff : Handoff}
    {exits : Bool}
    (shift : State.Shift w.state handoff.target middle)
    (reached : State.schedule.Reachable middle)
    (seen : ∀ {next word}, handoff = .switch next word →
      (w.state.threads id).park = word)
    (running : handoff = .stay → (middle.threads id).state = .running)
    (parked : handoff = .idle → (middle.threads id).state ≠ .running)
    (left : exits = true → w.stray id = false → w.leaving (w.pidOf id) = some id)
    (alone : ∀ {other}, w.Live other → w.pidOf other = w.pidOf id → other ≠ id →
      w.stray other = false → (w.place other).exiting = false)
    {idle : State → Place}
    (polls : ∀ s, idle s = .polls exits ∨ idle s = .teardown ∧ exits = true) :
    Sound (w.passed id exits idle (middle, handoff)) := by
  have threads : middle.takeKills.1.threads = middle.threads :=
    middle.takeKills_tables.2.1
  rw [← threads] at running parked
  rw [passed_eq_go]
  have shift := shift.takeKills
  have inside := sound.within live current shift (State.reachable_takeKills reached)
  have pid : (w.within id middle.takeKills.1).pidOf id = w.pidOf id :=
    shift.pid id live.1
  have left (exiting : exits = true) (kept : w.stray id = false) :
      (w.within id middle.takeKills.1).leaving
        ((w.within id middle.takeKills.1).pidOf id) = some id :=
    pid.symm ▸ left exiting kept
  have alone {other : ThreadId} := @within_alone _ _ id other sound live current _ shift alone
  refine inside.go (live.1.trans_le shift.nthreads) fun _ => ?_
  cases handoff with
  | idle =>
      unfold afterwards
      dsimp only
      split
      · exact fits_away (.inl rfl)
      · exact fits_idle (shift.current.trans current) (parked rfl) left alone (polls _)
  | stay =>
      have stays : (middle.takeKills.1.threads id).state ≠ .exited := by
        rw [running rfl]
        decide
      refine fits_stay (shift.current.trans current) stays alone ?_
      unfold afterwards
      dsimp only
      split
      · exact .inl rfl
      · exact .inr rfl
  | switch next told =>
      have apart : (Handoff.switch next told).target ≠ some id := fun same =>
        (shift.running same).2 current
      have passed : middle.takeKills.1.current ≠ some id := by
        rw [shift.current]
        exact apart
      have word : (middle.takeKills.1.threads id).park = told := by
        rw [shift.park id, if_neg apart]
        exact seen rfl
      exact fits_switch passed (congrArg UInt32.ofNat word) left alone fun crashed =>
        (State.condemned_of_reachable inside.reached).gone _ crashed id
          (live.1.trans_le shift.nthreads) pid

theorem unpark_place (w : Handing) (next other : ThreadId) :
    (w.unpark next).place other = w.place other ∨
      other = next ∧ ∃ seen, w.place next = .sleeps seen ∧
        (w.unpark next).place next = .checks seen := by
  unfold Handing.unpark
  split
  · next seen sleeps =>
      by_cases same : other = next
      · exact .inr ⟨same, seen, sleeps, go_place_self ..⟩
      · exact .inl (go_place_of_ne same)
  · exact .inl rfl

theorem unpark_awake
    (w : Handing)
    (next : ThreadId)
    (seen : UInt32) : (w.unpark next).place next ≠ .sleeps seen := by
  obtain same | ⟨-, word, -, checks⟩ := unpark_place w next next
  · unfold Handing.unpark at same ⊢
    split
    · next sleeps =>
        rw [go_place_self]
        nofun
    · next awake => exact awake seen
  · rw [checks]
    nofun

theorem unpark_tables (w : Handing) (next : ThreadId) :
    (w.unpark next).state = w.state ∧ (w.unpark next).dead = w.dead ∧
      (w.unpark next).owed = w.owed ∧ (w.unpark next).leaving = w.leaving := by
  unfold Handing.unpark
  split <;> exact ⟨rfl, rfl, rfl, rfl⟩

/-- Whoever sleeps on after a wake of another thread is still about to be
woken. -/
theorem Awaited.unpark
    (awaited : w.Awaited)
    (next : ThreadId)
    {seen : UInt32}
    (live : w.Live id)
    (current : w.state.current = some id)
    (sleeps : (w.unpark next).place id = .sleeps seen) :
    id ≠ next ∧ (w.owed = some id ∨
      ∃ other crashed word, (w.unpark next).place other = .wakes id crashed word) := by
  have apart : id ≠ next := by
    rintro rfl
    exact unpark_awake w id seen sleeps
  obtain same | ⟨isNext, -⟩ := unpark_place w next id
  · rw [same] at sleeps
    obtain owed | ⟨other, crashed, word, wakes⟩ := awaited _ _ live current sleeps
    · exact ⟨apart, .inl owed⟩
    · refine ⟨apart, .inr ⟨other, crashed, word, ?_⟩⟩
      obtain stays | ⟨rfl, told, asleep, -⟩ := unpark_place w next other
      · exact stays.trans wakes
      · rw [asleep] at wakes
        cases wakes
  · exact absurd isNext apart

/-- Whoever was given the baton in a critical section is about to be woken. -/
theorem Awaited.shift
    (awaited : w.Awaited)
    (sound : Sound w)
    {target : Option ThreadId}
    (shift : State.Shift w.state target s)
    {owed : Option ThreadId}
    (stays : target = none → owed = w.owed)
    (owes : ∀ next ∈ target, owed = some next) :
    ({ w with state := s, owed := owed } : Handing).Awaited := by
  intro id seen live current sleeps
  have sleeps : w.place id = .sleeps seen := sleeps
  have current : s.current = some id := current
  rw [shift.current] at current
  cases isTarget : target with
  | some next =>
      rw [isTarget] at current
      exact .inl ((owes next isTarget).trans current)
  | none =>
      rw [isTarget] at current
      obtain ⟨lives, -⟩ | ⟨-, unborn⟩ := sound.live_setState shift live
      · obtain isOwed | waker := awaited _ _ lives current sleeps
        · exact .inl ((stays isTarget).trans isOwed)
        · exact .inr waker
      · rw [unborn] at sleeps
        cases sleeps

theorem awaited_passed
    (current : w.state.current = some id)
    {middle : State}
    {handoff : Handoff}
    {exits : Bool}
    (shift : State.Shift w.state handoff.target middle)
    {idle : State → Place}
    (polls : ∀ s seen, idle s ≠ .sleeps seen) :
    (w.passed id exits idle (middle, handoff)).Awaited := by
  intro other seen live last sleeps
  have last : middle.takeKills.1.current = some other := last
  rw [shift.takeKills.current] at last
  unfold Handing.passed at sleeps
  dsimp only at sleeps
  cases handoff with
  | idle =>
      obtain rfl := Option.some.inj (current.symm.trans last)
      rw [go_place_self, afterwards] at sleeps
      split at sleeps
      · cases sleeps
      · exact absurd sleeps (polls _ _)
  | stay =>
      obtain rfl := Option.some.inj (current.symm.trans last)
      rw [go_place_self, afterwards] at sleeps
      split at sleeps <;> cases sleeps
  | switch next told =>
      obtain rfl : next = other := Option.some.inj last
      exact .inr ⟨id, _, _, go_place_self ..⟩

/-- Whoever runs can give the baton up. -/
theorem Sound.holds
    (sound : Sound w)
    (live : w.Live id)
    (runs : w.place id = .runs) : w.state.Holds id := by
  have current := sound.holder live (by rw [runs]; rfl)
  exact ⟨current, live.1, sound.staying live current (by rw [runs]; rfl)⟩

theorem stray_of_noteExiting
    {exits kept : Bool}
    (notStray : (w.noteExiting id exits kept).stray other = false) :
    w.stray other = false := by
  unfold Handing.noteExiting at notStray
  dsimp only at notStray
  split at notStray
  · by_cases same : other = id
    · rw [same, Function.update_self] at notStray
      cases notStray
    · rwa [Function.update_of_ne same] at notStray
  · exact notStray

theorem leaving_noteExiting
    {exits kept : Bool}
    (isExiting : exits = true)
    (notStray : (w.noteExiting id exits kept).stray id = false) :
    (w.noteExiting id exits kept).leaving (w.pidOf id) = some id := by
  subst isExiting
  cases kept with
  | true => exact Function.update_self ..
  | false =>
      have stray : (w.noteExiting id true false).stray id = true :=
        Function.update_self ..
      rw [stray] at notStray
      cases notStray

/-- A thread that runs where no other of its process is on its way out exits. -/
theorem Sound.noteExiting
    (sound : Sound w)
    (none : ∀ {other}, w.Live other → w.pidOf other = w.pidOf id →
      w.stray other = false → (w.place other).exiting = false)
    (exits kept : Bool) : Sound (w.noteExiting id exits kept) := by
  refine sound.setPorts (fun _ => stray_of_noteExiting) fun {other} live exiting notStray => ?_
  have apart : w.pidOf other ≠ w.pidOf id := fun own => by
    rw [none live own (stray_of_noteExiting notStray)] at exiting
    cases exiting
  split
  · exact Function.update_of_ne apart _ _
  · rfl

theorem Sound.yields
    (sound : Sound w)
    (live : w.Live id)
    (runs : w.place id = .runs)
    {state : ThreadState}
    (kind : state = .runnable ∨ state = .blocked ∨ state = .exited)
    {key : Nat}
    {site : UInt64}
    {kept : Bool}
    (done : w.yieldBaton fuel id state key site kept = some later) :
    Sound later ∧ later.Awaited := by
  have holds := sound.holds live runs
  have possible : w.state.Possible (.handOff (some (id, state, key)) site) :=
    ⟨holds, kind⟩
  have oneBaton := State.oneBaton_of_reachable sound.reached
  have waits : state ≠ .running := by
    rintro rfl
    simp at kind
  have alone {other : ThreadId}
      (lives : w.Live other)
      (own : w.pidOf other = w.pidOf id)
      (notStray : w.stray other = false) : (w.place other).exiting = false := by
    by_cases same : other = id
    · rw [same, runs]
      rfl
    · exact sound.alone live lives own same notStray (by rw [runs]; rfl)
  obtain ⟨⟨middle, handoff⟩, handed, rfl⟩ := Option.map_eq_some_iff.1 done
  have step : State.schedule.step w.state
      (.handOff (some (id, state, key)) site, .handoff handoff) middle :=
    ⟨possible, fuel, by rw [State.exec, handed]; rfl⟩
  have entrusted := State.handed_giver oneBaton holds.1 waits handed
  have bumped := State.bumped_of_handOff possible handed
  have shift := bumped.shift (State.handed_handOff oneBaton possible handed) holds.1
  have left := sound.noteExiting alone (decide (state = .exited)) kept
  generalize decide (state = .exited) = exits at left ⊢
  have polls (s : State) :
      (if exits = true ∧ s.anyAlive = false then Place.teardown
        else .polls exits) = .polls exits ∨
      (if exits = true ∧ s.anyAlive = false then Place.teardown
        else .polls exits) = .teardown ∧ exits = true := by
    split
    · next isLast => exact .inr ⟨rfl, isLast.1⟩
    · exact .inl rfl
  refine ⟨left.passed live holds.1 shift (.next sound.reached step)
    (fun switches => (bumped.told switches).2 id rfl) (fun stays => ?_)
    (fun idle => ?_) leaving_noteExiting
    (fun lives own _ notStray => alone lives own (stray_of_noteExiting notStray)) polls,
    awaited_passed (w := w.noteExiting id exits kept) holds.1 shift fun s seen => ?_⟩
  · obtain ⟨next, same, -, running⟩ := entrusted.given (by rw [stays]; nofun)
    rw [stays] at same
    exact (running id).2 (Option.some.inj same)
  · exact (State.parked_recorded oneBaton waits holds.1 key).lulled
      (entrusted.idle idle) id
  · obtain same | ⟨same, -⟩ := polls s <;> rw [same] <;> nofun

theorem Sound.polls
    (sound : Sound w)
    (live : w.Live id)
    {exits : Bool}
    (polls : w.place id = .polls exits)
    {site : UInt64}
    (done : w.exec fuel (.polls id site) = some later) :
    Sound later ∧ later.Awaited := by
  have current := sound.holder live (by rw [polls]; rfl)
  have waits := sound.polling live polls
  have oneBaton := State.oneBaton_of_reachable sound.reached
  have parked : w.state.Parked := fun other running => by
    have last := oneBaton other running
    rw [current] at last
    obtain rfl := Option.some.inj last
    exact waits running
  have possible : w.state.Possible (.choose (some id) site) := ⟨current, waits⟩
  rw [exec, polls] at done
  obtain ⟨⟨middle, handoff⟩, chosen, rfl⟩ := Option.map_eq_some_iff.1 done
  have step : State.schedule.step w.state
      (.choose (some id) site, .handoff handoff) middle :=
    ⟨possible, fuel, by rw [State.exec, chosen]; rfl⟩
  have entrusted := State.handed_choose parked (fun other isGiver => by
    obtain rfl := Option.some.inj isGiver
    exact current) chosen
  have bumped := State.bumped_choose chosen
  have shift := bumped.shift entrusted current
  refine ⟨sound.passed live current shift (.next sound.reached step)
    (fun switches => (bumped.told switches).2 id rfl) (fun stays => ?_)
    (fun idle => parked.lulled (entrusted.idle idle) id) (fun isExiting => ?_)
    (fun lives own apart notStray =>
      sound.alone live lives own apart notStray (by rw [polls]; rfl)) fun _ => .inl rfl,
    awaited_passed current shift fun _ _ => nofun⟩
  · obtain ⟨next, same, -, running⟩ := entrusted.given (by rw [stays]; nofun)
    rw [stays] at same
    exact (running id).2 (Option.some.inj same)
  · exact sound.left live (by rw [polls, isExiting]; rfl)

/-- The launcher's report of a death. -/
theorem Sound.reports
    (sound : Sound w)
    (awaited : w.Awaited)
    (registered : pid < w.state.nprocs)
    (dead : w.dead pid = true)
    (free : w.owed = none)
    {status : Int}
    (done : w.exec fuel (.reports pid status) = some later) :
    Sound later ∧ later.Awaited := by
  obtain ⟨⟨middle, handoff⟩, died, rfl⟩ := Option.map_eq_some_iff.1 done
  have step : State.schedule.step w.state
      (.processDied pid status, .died handoff) middle :=
    ⟨registered, fuel, by rw [State.exec, died]; rfl⟩
  obtain ⟨shift, others⟩ := State.shift_processDied
    (State.tidy_of_reachable sound.reached)
    (State.oneBaton_of_reachable sound.reached) registered died
  have threads : middle.takeKills.1.threads = middle.threads :=
    middle.takeKills_tables.2.1
  have reported : Sound (w.setState middle.takeKills.1) :=
    sound.shift shift.takeKills
      (State.reachable_takeKills (.next sound.reached step))
      fun {id} live current => by
        have apart : (w.state.threads id).pid ≠ pid := fun own => by
          have lives := live.2
          rw [pidOf, own, dead] at lives
          cases lives
        obtain ⟨none, lulled, stays⟩ := others id current apart
        rw [threads]
        exact .inr ⟨none, stays, (lulled.thread id live.1).running⟩
  exact ⟨⟨reported.reached, reported.spare, reported.holder, reported.staying,
    reported.polling, reported.told, reported.left, reported.alone, reported.doomed⟩,
    awaited.shift sound shift.takeKills (fun none => none.trans free.symm)
      fun _ isTarget => isTarget⟩

/-- The launcher's first hand-off. -/
theorem Sound.starts
    (sound : Sound w)
    (awaited : w.Awaited)
    (idle : w.state.current = none)
    (free : w.owed = none)
    (done : w.exec fuel .starts = some later) : Sound later ∧ later.Awaited := by
  obtain ⟨⟨middle, handoff⟩, handed, rfl⟩ := Option.map_eq_some_iff.1 done
  have oneBaton := State.oneBaton_of_reachable sound.reached
  have possible : w.state.Possible (.handOff none 0) := idle
  have step : State.schedule.step w.state (.handOff none 0, .handoff handoff) middle :=
    ⟨possible, fuel, by rw [State.exec, handed]; rfl⟩
  have shift := (State.bumped_of_handOff possible handed).shift
    (State.handed_handOff oneBaton possible handed) idle
  have started : Sound (w.setState middle) :=
    sound.shift shift (.next sound.reached step) fun {id} _ current => by
      rw [idle] at current
      cases current
  exact ⟨⟨started.reached, started.spare, started.holder, started.staying,
    started.polling, started.told, started.left, started.alone, started.doomed⟩,
    awaited.shift sound shift (fun none => none.trans free.symm)
      fun _ isTarget => isTarget⟩

/-- A poll of `wait_out_deaths` is one or two critical sections. -/
theorem Sound.settleOnce
    (sound : Sound w)
    (givesUp : Bool) :
    Sound (w.setState (Handing.settleOnce w.state givesUp).1) ∧
      (Handing.settleOnce w.state givesUp).1.current = w.state.current ∧
      State.Shift w.state none (Handing.settleOnce w.state givesUp).1 := by
  have settled {w : Handing} (sound : Sound w) :=
    @Sound.still w _ 0 sound .settleDeaths (.settled w.state.settleDeaths.2)
      rfl trivial rfl
  have forgotten := @Sound.still w _ 0 sound .forgetUnsettled .done rfl trivial rfl
  unfold Handing.settleOnce
  dsimp only
  split
  · obtain ⟨first, current, shift⟩ := forgotten
    obtain ⟨second, same, more⟩ := settled first
    exact ⟨second, same.trans current, shift.nthreads.trans more.nthreads,
      fun id inside => (more.pid id (inside.trans_le shift.nthreads)).trans
        (shift.pid id inside), fun id => (more.park id).trans (shift.park id),
      same.trans current, nofun, fun id inside gone =>
        more.exited id (inside.trans_le shift.nthreads) (shift.exited id inside gone)⟩
  · exact settled sound

theorem Sound.takeSigchld (sound : Sound w) (pid : Pid) : Sound (w.takeSigchld pid) :=
  ⟨sound.reached, sound.spare, sound.holder, sound.staying, sound.polling, sound.told,
    sound.left, sound.alone, sound.doomed⟩

theorem live_unpark
    (w : Handing)
    (next : ThreadId)
    (live : (w.unpark next).Live id) : w.Live id := by
  obtain ⟨state, dead, -⟩ := w.unpark_tables next
  unfold Live pidOf at live
  rw [state, dead] at live
  exact live

/-- A wake, and what its thread does then. -/
theorem Sound.wakes
    (sound : Sound w)
    (awaited : w.Awaited)
    (live : w.Live id)
    {crashed : Bool}
    {seen : Option UInt32}
    (place : w.place id = .wakes next crashed seen)
    (done : w.exec fuel (.wakes id) = some later) : Sound later ∧ later.Awaited := by
  rw [exec, place] at done
  obtain rfl := Option.some.inj done
  obtain ⟨state, dead, owes, -⟩ := w.unpark_tables next
  have stays : (w.unpark next).place id = .wakes next crashed seen := by
    obtain same | ⟨rfl, word, sleeps, -⟩ := w.unpark_place next id
    · exact same.trans place
    · rw [sleeps] at place
      cases place
  have lives : (w.unpark next).Live id := by
    unfold Live pidOf
    rw [state, dead]
    exact live
  have after := sound.unpark next
  constructor
  · cases crashed with
    | true =>
        exact after.go lives.1 fun _ => fits_away (.inl rfl)
    | false =>
        cases seen with
        | none =>
            have fits := after.fits lives
            rw [stays] at fits
            exact after.go lives.1 fun _ => ⟨nofun, nofun, nofun, nofun,
              fun _ => fits.left rfl, nofun, fun _ => fits.apart rfl, nofun⟩
        | some seen =>
            exact after.waiting lives.1 (by rw [stays]; rfl) (by rw [stays]; rfl) rfl
              (.inl rfl)
  · have before : (w.unpark next).Awaited := fun other word lives current sleeps => by
      rw [owes]
      exact (awaited.unpark next (w.live_unpark next lives) (state ▸ current)
        sleeps).2
    refine before.go (fun word => ?_) fun {target isCrashed told word} wakes => ?_
    · cases crashed with
      | true => nofun
      | false => cases seen <;> nofun
    · rw [stays] at wakes
      obtain ⟨rfl, -⟩ := Place.wakes.inj wakes
      exact w.unpark_awake next word

/-- A thread comes to its first wait. -/
theorem Sound.begins
    (sound : Sound w)
    (awaited : w.Awaited)
    (live : w.Live id)
    (done : w.exec fuel (.begins id) = some later) : Sound later ∧ later.Awaited := by
  rw [exec] at done
  split at done
  · next unborn =>
      obtain rfl := Option.some.inj done
      exact ⟨sound.waiting live.1 (by rw [unborn]; rfl) (by rw [unborn]; rfl)
        rfl (.inl rfl), awaited.go (fun _ => nofun) fun wakes => by
          rw [unborn] at wakes; cases wakes⟩
  · cases done

/-- A thread looks at its word. -/
theorem Sound.reads
    (sound : Sound w)
    (awaited : w.Awaited)
    (live : w.Live id)
    (done : w.exec fuel (.reads id) = some later) : Sound later ∧ later.Awaited := by
  cases place : w.place id with
  | checks seen =>
      rw [exec, place] at done
      obtain rfl := Option.some.inj done
      have noWaker {next crashed told word}
          (wakes : w.place id = .wakes next crashed told) :
          w.place next ≠ .sleeps word := by
        rw [place] at wakes
        cases wakes
      split
      · exact ⟨sound.waiting live.1 (by rw [place]; rfl) (by rw [place]; rfl)
          rfl (.inr (.inl rfl)), awaited.go (fun _ => nofun) noWaker⟩
      · next told =>
          have current : w.state.current = some id := by
            have word := sound.told live (by rw [place]; rfl)
            by_contra passed
            rw [if_neg passed] at word
            exact told word
          exact ⟨sound.onward live current (by rw [place]; rfl) (.inl rfl),
            awaited.go (fun _ => nofun) noWaker⟩
  | _ => rw [exec, place] at done; cases done

/-- The kernel looks at the word once more. -/
theorem Sound.sleeps
    (sound : Sound w)
    (awaited : w.Awaited)
    (live : w.Live id)
    (done : w.exec fuel (.sleeps id) = some later) : Sound later ∧ later.Awaited := by
  cases place : w.place id with
  | compares seen =>
      rw [exec, place] at done
      obtain rfl := Option.some.inj done
      have noWaker {next crashed told word}
          (wakes : w.place id = .wakes next crashed told) :
          w.place next ≠ .sleeps word := by
        rw [place] at wakes
        cases wakes
      split
      · next same =>
          refine ⟨sound.waiting live.1 (by rw [place]; rfl) (by rw [place]; rfl)
            rfl (.inr (.inr rfl)), awaited.go (fun _ _ current => ?_) noWaker⟩
          have word : w.word id =
              if w.state.current = some id then seen + 1 else seen :=
            sound.told live (by rw [place]; rfl)
          rw [if_pos current, same] at word
          simp at word
      · exact ⟨sound.waiting live.1 (by rw [place]; rfl) (by rw [place]; rfl)
          rfl (.inl rfl), awaited.go (fun _ => nofun) noWaker⟩
  | _ => rw [exec, place] at done; cases done

/-- The kernel's wait ends on its own. -/
theorem Sound.rouses
    (sound : Sound w)
    (awaited : w.Awaited)
    (live : w.Live id)
    (done : w.exec fuel (.rouses id) = some later) : Sound later ∧ later.Awaited := by
  cases place : w.place id with
  | sleeps seen =>
      rw [exec, place] at done
      obtain rfl := Option.some.inj done
      exact ⟨sound.waiting live.1 (by rw [place]; rfl) (by rw [place]; rfl)
        rfl (.inl rfl), awaited.go (fun _ => nofun) fun wakes => by
          rw [place] at wakes; cases wakes⟩
  | _ => rw [exec, place] at done; cases done

/-- A thread that has the baton looks whether its process was stopped. -/
theorem Sound.resumes
    (sound : Sound w)
    (awaited : w.Awaited)
    (live : w.Live id)
    (done : w.exec fuel (.resumes id) = some later) : Sound later ∧ later.Awaited := by
  cases place : w.place id with
  | takesUp | keeps =>
      have current := sound.holder live (by rw [place]; rfl)
      rw [exec, place] at done
      obtain rfl := Option.some.inj done
      refine ⟨sound.onward live current (by rw [place]; rfl) ?_,
        awaited.go (fun _ => ?_) fun wakes => ?_⟩
      · split
        · exact .inr (.inr (.inl rfl))
        · first
            | exact .inr (.inl rfl)
            | exact .inr (.inr (.inr ⟨.inr rfl, by rw [place]; rfl⟩))
      · split <;> nofun
      · rw [place] at wakes
        cases wakes
  | _ => rw [exec, place] at done; cases done

/-- A port is dropped, and who left it is gone or a stray. -/
theorem Sound.dropPort
    (sound : Sound w)
    (pid : Pid) :
    Sound (w.dropPort pid) ∧ ∀ {id}, w.Live id → w.pidOf id = pid →
      (w.dropPort pid).stray id = false → (w.place id).exiting = false := by
  have before {id : ThreadId} (notStray : (w.dropPort pid).stray id = false) :
      w.stray id = false ∧ ¬(w.leaving pid = some id ∧ w.place id ≠ .gone) := by
    obtain ⟨kept, notLeft⟩ := Bool.or_eq_false_iff.1 notStray
    exact ⟨kept, of_decide_eq_false notLeft⟩
  have none {id : ThreadId} (live : w.Live id) (own : w.pidOf id = pid)
      (notStray : (w.dropPort pid).stray id = false) :
      (w.place id).exiting = false := by
    obtain ⟨kept, notLeft⟩ := before notStray
    by_contra exits
    have exits := Bool.eq_true_of_not_eq_false exits
    refine notLeft ⟨own ▸ sound.left live exits kept, fun isGone => ?_⟩
    rw [isGone] at exits
    cases exits
  refine ⟨sound.setPorts (fun _ notStray => (before notStray).1)
    fun {id} live exits notStray => ?_, none⟩
  have apart : w.pidOf id ≠ pid := fun own => by
    rw [none live own notStray] at exits
    cases exits
  exact Function.update_of_ne apart _ _

/-- The port of a thread that exited is dropped. -/
theorem Sound.waitsOut
    (sound : Sound w)
    (awaited : w.Awaited)
    (live : w.Live id)
    {givesUp : Bool}
    (done : w.exec fuel (.waitsOut id givesUp) = some later) :
    Sound later ∧ later.Awaited := by
  rw [exec] at done
  split at done
  · next ready =>
      have place : w.place id = .waitsOut := ready.1
      obtain rfl := Option.some.inj done
      have current := sound.holder live (by rw [place]; rfl)
      have stays := sound.staying live current (by rw [place]; rfl)
      obtain ⟨dropped, none⟩ := sound.dropPort (w.pidOf id)
      have same : (w.dropPort (w.pidOf id)).Awaited := awaited
      refine ⟨dropped.go live.1 fun _ => ⟨fun _ => current, fun _ _ => stays, nofun, nofun,
        nofun, fun _ _ lives own _ notStray => none lives own notStray, nofun, nofun⟩,
        same.go (fun _ => nofun) fun wakes => ?_⟩
      have wakes : w.place id = _ := wakes
      rw [place] at wakes
      cases wakes
  · cases done

/-- A thread that runs waits for the dead. -/
theorem Sound.awaitsDeaths
    (sound : Sound w)
    (awaited : w.Awaited)
    (live : w.Live id)
    (done : w.exec fuel (.awaitsDeaths id) = some later) : Sound later ∧ later.Awaited := by
  rw [exec] at done
  split at done
  · next runs =>
      obtain rfl := Option.some.inj done
      have current := sound.holder live (by rw [runs]; rfl)
      exact ⟨sound.onward live current (by rw [runs]; rfl)
        (.inr (.inr (.inr ⟨.inl rfl, by rw [runs]; rfl⟩))),
        awaited.go (fun _ => nofun) fun wakes => by rw [runs] at wakes; cases wakes⟩
  · cases done

/-- One poll for the dead. -/
theorem Sound.settles
    (sound : Sound w)
    (awaited : w.Awaited)
    (live : w.Live id)
    {givesUp takesSigchld : Bool}
    (done : w.exec fuel (.settles id givesUp takesSigchld) = some later) :
    Sound later ∧ later.Awaited := by
  rw [exec] at done
  split at done
  · next place =>
      have current := sound.holder live (by rw [place]; rfl)
      obtain ⟨settled, same, shift⟩ := sound.settleOnce givesUp
      generalize Handing.settleOnce w.state givesUp = result at done settled same shift
      obtain ⟨s, isSettled⟩ := result
      suffices kept :
          Sound ((w.setState s).go id (if isSettled then .runs else .settles)) ∧
            ((w.setState s).go id (if isSettled then .runs else .settles)).Awaited by
        rw [← Option.some.inj done]
        split
        · exact ⟨kept.1.takeSigchld _, kept.2⟩
        · exact kept
      have own : (w.setState s).pidOf id = w.pidOf id := shift.pid id live.1
      have lives : (w.setState s).Live id :=
        ⟨live.1.trans_le shift.nthreads, own ▸ live.2⟩
      have stays : (w.setState s).place id = .settles := place
      have after : (w.setState s).Awaited :=
        awaited.shift sound shift (fun _ => rfl) nofun
      refine ⟨settled.onward lives (same.trans current) (by rw [stays]; rfl)
        (.inr (.inr (.inr ⟨?_, by rw [stays]; rfl⟩))),
        after.go (fun _ => ?_) fun wakes => ?_⟩
      · cases isSettled with
        | true => exact .inr rfl
        | false => exact .inl rfl
      · cases isSettled <;> nofun
      · rw [stays] at wakes
        cases wakes
  · cases done

/-- A thread that exited is gone. -/
theorem Sound.leaves
    (sound : Sound w)
    (awaited : w.Awaited)
    (live : w.Live id)
    (done : w.exec fuel (.leaves id) = some later) : Sound later ∧ later.Awaited := by
  rw [exec] at done
  split at done
  · next tearing =>
      obtain rfl := Option.some.inj done
      exact ⟨sound.go live.1 fun _ => fits_away (.inr rfl),
        awaited.go (fun _ => nofun) fun wakes => by rw [tearing] at wakes; cases wakes⟩
  · cases done

/-- A process is dead. -/
theorem Sound.dies
    (sound : Sound w)
    (awaited : w.Awaited)
    (done : w.exec fuel (.dies pid) = some later) : Sound later ∧ later.Awaited := by
  obtain rfl := Option.some.inj done
  have before {id : ThreadId}
      (live : Live { w with dead := Function.update w.dead pid true } id) :
      w.Live id := by
    refine ⟨live.1, ?_⟩
    have lives : Function.update w.dead pid true (w.pidOf id) = false := live.2
    by_cases own : w.pidOf id = pid
    · rw [own, Function.update_self] at lives
      cases lives
    · rwa [Function.update_of_ne own] at lives
  exact ⟨⟨sound.reached, sound.spare, fun live => sound.holder (before live),
    fun live => sound.staying (before live), fun live => sound.polling (before live),
    fun live => sound.told (before live), fun live => sound.left (before live),
    fun live lives => sound.alone (before live) (before lives),
    fun live => sound.doomed (before live)⟩,
    fun _ _ live => awaited _ _ (before live)⟩

/-- The launcher makes the wake that it owes. -/
theorem Sound.launcherWakes
    (sound : Sound w)
    (awaited : w.Awaited)
    (done : w.exec fuel .launcherWakes = some later) : Sound later ∧ later.Awaited := by
  obtain ⟨next, owed, rfl⟩ := Option.map_eq_some_iff.1 done
  obtain ⟨state, dead, owes, -⟩ := w.unpark_tables next
  have after := sound.unpark next
  refine ⟨⟨after.reached, after.spare, after.holder, after.staying, after.polling,
    after.told, after.left, after.alone, after.doomed⟩,
    fun id seen live current sleeps => ?_⟩
  have lives : w.Live id := w.live_unpark next live
  obtain ⟨apart, isOwed | waker⟩ :=
    awaited.unpark next lives (state ▸ current) sleeps
  · exact absurd (Option.some.inj (isOwed.symm.trans owed)) apart
  · exact .inr waker

/-- Every step keeps the invariant. -/
theorem Sound.step
    {action : Action}
    (sound : Sound w)
    (awaited : w.Awaited)
    (step : system.step w action later) : Sound later ∧ later.Awaited := by
  obtain ⟨possible, fuel, done⟩ := step
  cases action with
  | begins id => exact sound.begins awaited possible done
  | reads id => exact sound.reads awaited possible done
  | sleeps id => exact sound.sleeps awaited possible done
  | rouses id => exact sound.rouses awaited possible done
  | resumes id => exact sound.resumes awaited possible done
  | waitsOut id givesUp => exact sound.waitsOut awaited possible done
  | awaitsDeaths id => exact sound.awaitsDeaths awaited possible done
  | settles id givesUp takesSigchld => exact sound.settles awaited possible done
  | yields id state key deadline site kept =>
      rw [exec] at done
      split at done
      · next runs =>
          obtain ⟨live, kind⟩ := possible
          obtain ⟨told, -, shift⟩ := @Sound.still w _ 0 sound
            (.setDeadline id (State.deadlineWord deadline)) .done rfl
            (sound.holds live runs) rfl
          have lives : (w.setState (w.state.setDeadline id
              (State.deadlineWord deadline))).Live id :=
            ⟨live.1.trans_le shift.nthreads,
              (congrArg w.dead (shift.pid id live.1)).trans live.2⟩
          exact told.yields lives runs kind done
      · cases done
  | polls id site =>
      cases place : w.place id with
      | polls exits => exact sound.polls possible place done
      | _ => rw [exec, place] at done; cases done
  | wakes id =>
      cases place : w.place id with
      | wakes next crashed seen => exact sound.wakes awaited possible place done
      | _ => rw [exec, place] at done; cases done
  | leaves id => exact sound.leaves awaited possible done
  | dies pid => exact sound.dies awaited done
  | reports pid status =>
      exact sound.reports awaited possible.1 possible.2.1 possible.2.2 done
  | starts => exact sound.starts awaited possible.1 possible.2 done
  | launcherWakes => exact sound.launcherWakes awaited done
  | other op =>
      obtain ⟨⟨s, answer⟩, performed, rfl⟩ := Option.map_eq_some_iff.1 done
      obtain ⟨after, -, shift⟩ := sound.still possible.2 possible.1 performed
      exact ⟨after, awaited.shift sound shift (fun _ => rfl) nofun⟩

theorem sound_of_reachable (reachable : system.Reachable w) :
    Sound w ∧ w.Awaited := by
  refine @Transition.Reachable.invariant _ _ system
    (fun w => Sound w ∧ w.Awaited) ?_ ?_ w reachable
  · rintro w ⟨start, unborn, -, -, -⟩
    have outside {id : ThreadId} (live : w.Live id) : False := by
      obtain ⟨seed, quantumLo, quantumHi, names, latencyNs, same⟩ := start
      have inside := live.1
      rw [same] at inside
      exact Nat.not_lt_zero _ inside
    exact ⟨⟨.start start, fun _ => unborn _, fun live => (outside live).elim,
      fun live => (outside live).elim, fun live => (outside live).elim,
      fun live => (outside live).elim, fun live => (outside live).elim,
      fun live => (outside live).elim, fun live => (outside live).elim⟩,
      fun _ _ live => (outside live).elim⟩
  · exact fun _ _ _ before step => before.1.step before.2 step

/-- A run before it begins. -/
def fresh : Handing where
  state := State.initial 1 1 1 [] 0

/-- A process of two threads starts, and one of them runs. -/
def oneRuns : List Action :=
  [.other (.addProc 0 none), .other (.addThread 0), .other (.addThread 0), .starts,
    .begins 1, .reads 1, .resumes 1, .waitsOut 1 false, .settles 1 false true]

/-- A thread that is about to look at its word takes the baton up if it was
given it. -/
theorem takes_up_of_step
    {action : Action}
    {seen : UInt32}
    (step : system.step w action later)
    (live : later.Live id)
    (acts : action.actor = some id)
    (place : later.place id = .checks seen)
    (told : later.word id ≠ seen) :
    ∃ actions last, (∀ action ∈ actions, action.actor = some id) ∧
      actions.length ≤ 2 ∧ system.Run w actions last ∧ last.place id = .takesUp := by
  have reads : system.step later (.reads id) (later.go id .takesUp) := by
    refine ⟨live, 0, ?_⟩
    rw [exec, place]
    dsimp only
    rw [if_neg told]
  refine ⟨[action, .reads id], _, ?_, le_rfl, .cons step (.cons reads (.refl _)),
    go_place_self ..⟩
  intro action isOne
  obtain rfl | rfl : action = _ ∨ action = _ := by simpa using isOne
  · exact acts
  · rfl

/-- Who ends the sleep of a thread: the launcher, a live thread, or the timeout of
its own wait, where the thread that was to wake it was killed. -/
inductive Rouser (w : Handing) (id : ThreadId) : Action → Prop
  | launcher : Rouser w id .launcherWakes
  | thread {other : ThreadId} : w.Live other → Rouser w id (.wakes other)
  | timeout {other : ThreadId} {crashed : Bool} {told : Option UInt32} :
      w.place other = .wakes id crashed told → w.dead (w.pidOf other) = true →
      Rouser w id (.rouses id)

/-- Whoever has the baton and sleeps is roused. -/
theorem Awaited.roused
    (awaited : w.Awaited)
    (sound : Sound w)
    (live : w.Live id)
    (current : w.state.current = some id)
    {seen : UInt32}
    (sleeps : w.place id = .sleeps seen) :
    ∃ action later, Rouser w id action ∧ system.step w action later ∧
      later.place id = .checks seen := by
  have checks : (w.unpark id).place id = .checks seen := by
    unfold Handing.unpark
    rw [sleeps]
    exact go_place_self ..
  obtain owed | ⟨other, crashed, told, wakes⟩ := awaited id seen live current sleeps
  · exact ⟨.launcherWakes, { w.unpark id with owed := none }, .launcher,
      ⟨trivial, 0, by rw [exec, owed]; rfl⟩, checks⟩
  have inside : other < w.state.nthreads :=
    sound.registered (by rw [wakes]; nofun)
  cases dead : w.dead (w.pidOf other) with
  | true =>
      exact ⟨.rouses id, w.go id (.checks seen), .timeout wakes dead,
        ⟨live, 0, by rw [exec, sleeps]⟩, go_place_self ..⟩
  | false =>
      have apart : id ≠ other := by
        rintro rfl
        rw [wakes] at sleeps
        cases sleeps
      refine ⟨.wakes other, _, .thread ⟨inside, dead⟩,
        ⟨⟨inside, dead⟩, 0, by rw [exec, wakes]⟩, ?_⟩
      exact (go_place_of_ne apart).trans checks

/-- Whoever is given the baton takes it up: its word is not what it saw; if it
sleeps, it is roused; and at most two steps of its own bring it to the baton, one
of which may be the timeout of its wait. -/
theorem taken_up_of_reachable
    (reachable : system.Reachable w)
    (live : w.Live id)
    (current : w.state.current = some id)
    {seen : UInt32}
    (waits : (w.place id).seen = some seen) :
    w.word id ≠ seen ∧
      (w.place id = .sleeps seen → ∃ action later, Rouser w id action ∧
        system.step w action later ∧ later.place id = .checks seen) ∧
      ∃ actions last, (∀ action ∈ actions, action.actor = some id) ∧
        actions.length ≤ 2 ∧ system.Run w actions last ∧
          last.place id = .takesUp := by
  obtain ⟨sound, awaited⟩ := sound_of_reachable reachable
  have told : w.word id ≠ seen := by
    have word := sound.told live waits
    rw [if_pos current] at word
    rw [word]
    simp
  refine ⟨told, awaited.roused sound live current, ?_⟩
  cases place : w.place id with
  | unborn =>
      rw [place] at waits
      obtain rfl := Option.some.inj waits
      have step : system.step w (.begins id) (w.go id (.checks 0)) :=
        ⟨live, 0, by rw [exec, if_pos place]⟩
      exact takes_up_of_step step live rfl (go_place_self ..) told
  | checks before =>
      rw [place] at waits
      obtain rfl := Option.some.inj waits
      have step : system.step w (.reads id) (w.go id .takesUp) := by
        refine ⟨live, 0, ?_⟩
        rw [exec, place]
        dsimp only
        rw [if_neg told]
      refine ⟨[.reads id], _, fun action isOne => ?_, Nat.le_succ 1,
        .cons step (.refl _), go_place_self ..⟩
      rw [List.mem_singleton.1 isOne]
      rfl
  | compares before =>
      rw [place] at waits
      obtain rfl := Option.some.inj waits
      have step : system.step w (.sleeps id) (w.go id (.checks before)) := by
        refine ⟨live, 0, ?_⟩
        rw [exec, place]
        dsimp only
        rw [if_neg told]
      exact takes_up_of_step step live rfl (go_place_self ..) told
  | sleeps before =>
      rw [place] at waits
      obtain rfl := Option.some.inj waits
      have step : system.step w (.rouses id) (w.go id (.checks before)) :=
        ⟨live, 0, by rw [exec, place]⟩
      exact takes_up_of_step step live rfl (go_place_self ..) told
  | wakes next crashed before =>
      rw [place] at waits
      obtain rfl : before = some seen := waits
      cases crashed with
      | true =>
          have stays := sound.staying live current (by rw [place]; rfl)
          exact absurd (sound.doomed live place) stays
      | false =>
          have step : system.step w (.wakes id) ((w.unpark next).go id (.checks seen)) :=
            ⟨live, 0, by rw [exec, place]; rfl⟩
          obtain ⟨state, dead, -⟩ := w.unpark_tables next
          refine takes_up_of_step step ?_ rfl (go_place_self ..) ?_
          · unfold Live pidOf go
            dsimp only
            rw [state, dead]
            exact live
          · unfold word go
            dsimp only
            rw [state]
            exact told
  | _ => rw [place] at waits; cases waits

/-- The other thread falls asleep, and is handed the baton. -/
def otherSleeps : List Action :=
  oneRuns ++ [.begins 0, .reads 0, .sleeps 0, .yields 1 .blocked 42 none 0 true]

/-- The first thread of two sleeps, and the second is about to wake it. -/
theorem taken_up_otherSleeps :
    ∃ w : Handing, w.word 0 ≠ 0 ∧
      (w.place 0 = .sleeps 0 → ∃ action later, Rouser w 0 action ∧
        system.step w action later ∧ later.place 0 = .checks 0) ∧
      ∃ actions last, (∀ action ∈ actions, action.actor = some 0) ∧
        actions.length ≤ 2 ∧ system.Run w actions last ∧
          last.place 0 = .takesUp := by
  obtain ⟨w, performed, facts⟩ := Option.map_eq_some_iff.1
    (by decide +kernel : (otherSleeps.foldlM (perform 1) fresh).map (fun w =>
      (decide (w.Live 0), w.state.current, w.place 0)) =
        some (true, some 0, .sleeps 0))
  obtain ⟨isLive, rest⟩ := Prod.mk.inj facts
  obtain ⟨current, sleeps⟩ := Prod.mk.inj rest
  have reachable : system.Reachable w :=
    .foldlM step_perform (.start ⟨⟨1, 1, 1, [], 0, rfl⟩, fun _ => rfl, fun _ => rfl,
      rfl, fun _ => ⟨rfl, rfl⟩, fun _ => rfl⟩) performed
  exact ⟨w, taken_up_of_reachable reachable (of_decide_eq_true isLive) current
    (by rw [sleeps]; rfl)⟩

end Handing
end Derp
