import Derp.Sched.Halting

/-!
# Wakes from outside the schedule

Threads that the scheduler does not run unlock mutexes, signal conditions and do I/O at
any time, also between the look of a scheduled thread and its block.  A thread that is
about to block notices such a wake by the count of its process; but a signal of a
condition is not counted at all, nor is a wake that the sockets of the run or the holder
of the lock make, and an I/O act is counted in the process of whoever acts.
-/

namespace Derp

/-- What a thread waits for. -/
inductive Outside.Wish
  /-- A lock at an address. -/
  | lock (key : Nat)
  /-- The signal of a condition. -/
  | cond (address : Nat)
  | io
  deriving DecidableEq

namespace Outside.Wish

def key : Wish → Nat
  | lock key => key
  | cond address => address
  | io => ioKey

def isLock : Wish → Bool
  | lock _ => true
  | cond _ | io => false

def isCond : Wish → Bool
  | cond _ => true
  | lock _ | io => false

end Outside.Wish

/-- The shared state and the calls that are not over, and whom a thread outside has woken
since it last looked. -/
structure Outside extends Halting Outside.Wish where
  woken : ThreadId → Bool := fun _ => false

namespace Outside

open Halting (Call Sound Tells Warned)

/-! ## Wakes -/

/-- The ways a thread outside wakes others. -/
inductive Wake
  /-- `sched::wake_all`, as after an unlock. -/
  | all (pid : Pid) (key : Nat)
  /-- `sched::wake_io`, after an I/O act. -/
  | io (pid : Pid)
  /-- The calls on sockets of the run wake those who wait for I/O themselves. -/
  | socket
  /-- The lock's holder makes a wake of a handler that interrupted it. -/
  | deferred (pid : Pid) (key : Option Nat)
  /-- `pthread_cond_signal` and `pthread_cond_broadcast`. -/
  | cond (pid : Pid) (address : Nat) (every : Bool)
  deriving DecidableEq

namespace Wake

/-- The process that counts the wake. -/
def counts : Wake → Option Pid
  | all pid _ | io pid => some pid
  | socket | deferred _ _ | cond _ _ _ => none

/-- What the wake does to those who are blocked. -/
def op : Wake → State.Op
  | all pid key | deferred pid (some key) => .wakeAll pid key
  | io _ | socket | deferred _ none => .wakeIo
  | cond pid address every => .condWake pid address every

/-- The wake is counted first, if it is at all. -/
def noted (s : State) (wake : Wake) : State :=
  wake.counts.elim s s.noteOutsideWake

def make (s : State) : Wake → State
  | all pid key => (s.noteOutsideWake pid).wakeAll pid key
  | io pid => (s.noteOutsideWake pid).wakeIo
  | socket => s.wakeIo
  | deferred pid (some key) => s.wakeAll pid key
  | deferred _ none => s.wakeIo
  | cond pid address every => s.condWake pid address every

/-- The wake is for a thread that waits for something. -/
def reaches (s : State) (id : ThreadId) (wish : Wish) : Wake → Bool
  | all pid key | deferred pid (some key) =>
      (s.threads id).pid = pid && wish.key = key
  | io _ | socket | deferred _ none => wish.key = ioKey
  | cond pid address every =>
      wish = .cond address && !(s.threads id).signaled &&
        ((s.condWake pid address every).threads id).signaled

/-- A process of the run, and a key that is not kept for restarts. -/
def Possible (s : State) (wake : Wake) : Prop :=
  (∀ pid ∈ wake.counts, pid < s.nprocs) ∧ s.Possible wake.op

theorem exec_op (s : State) (wake : Wake) :
    (wake.noted s).exec 0 wake.op = some (wake.make s, .done) := by
  cases wake with
  | deferred pid key => cases key <;> rfl
  | _ => rfl

/-- Nobody gives the baton up by a wake. -/
theorem allows (w : Halting Wish) (wake : Wake) : w.Allows wake.op := by
  cases wake with
  | deferred pid key => cases key <;> exact ⟨nofun, nofun⟩
  | _ => exact ⟨nofun, nofun⟩

end Wake

/-! ## Runs -/

/-- What may happen: the pieces of calls, wakes of threads outside, and all else. -/
inductive Action
  | asks (id : ThreadId) (wish : Wish)
  /-- A thread looks, and finds what it wants or does not. -/
  | looks (id : ThreadId) (found : Bool)
  | blocks (id : ThreadId) (deadline : Option Nat)
  | resumes (id : ThreadId)
  | wakes (wake : Wake)
  | other (op : State.Op)

/-- Who waits for a condition looks whether it was signaled; nobody waits for a lock until
a deadline. -/
def Possible (w : Outside) : Action → Prop
  | .asks id wish => w.Free id ∧ wish.key ≠ 0 ∧ wish.key ≠ restartKey
  | .looks id found => w.At id .looks ∧
      ∀ call ∈ w.call id, call.wish.isCond = true → found = (w.state.threads id).signaled
  | .blocks id deadline => w.At id .missed ∧
      ∀ call ∈ w.call id, call.wish.isLock = true → deadline = none
  | .resumes id => w.At id .parked
  | .wakes wake => wake.Possible w.state
  | .other op => w.state.Possible op ∧ w.Allows op

/-- Who waits for a condition joins its queue. -/
def joins (s : State) (id : ThreadId) : Wish → State
  | .cond address => s.condEnqueue id address
  | .lock _ | .io => s

/-- Who waits for a condition takes the mark of its signal. -/
def takes (s : State) (id : ThreadId) (wish : Wish) : State :=
  if wish.isCond then (s.takeSignaled id).1 else s

/-- Who waited for a condition leaves its queue. -/
def leaves (s : State) (id : ThreadId) (wish : Wish) : State :=
  if wish.isCond then (s.condLeave id).1 else s

def setState (w : Outside) (s : State) : Outside :=
  { w with toHalting := w.toHalting.setState s }

def setCall (w : Outside) (id : ThreadId) (call : Option (Call Wish)) : Outside :=
  { w with toHalting := w.toHalting.setCall id call }

/-- A thread has looked, and was not woken since. -/
def miss (w : Outside) (id : ThreadId) (call : Call Wish) : Outside :=
  { w.setCall id (some { call with stage := .missed }) with
    woken := Function.update w.woken id false }

/-- A thread outside makes a wake. -/
def wake (w : Outside) (wake : Wake) : Outside :=
  { w.setState (wake.make w.state) with
    woken := fun id => w.woken id ||
      (w.call id).any fun call => wake.reaches w.state id call.wish }

/-- Carry an action out. -/
def exec (fuel : Nat) (w : Outside) : Action → Option Outside
  | .asks id wish =>
      some ((w.setState (joins w.state id wish)).setCall id (some ⟨wish, .looks⟩))
  | .looks id found =>
      (w.call id).map fun call =>
        let w := w.setState (takes w.state id call.wish)
        if found then w.setCall id none else w.miss id call
  | .blocks id deadline =>
      (w.halt fuel id Wish.key deadline).map fun halted => { w with toHalting := halted }
  | .resumes id =>
      (w.call id).map fun call =>
        let again := some { call with stage := .looks }
        -- A wait for a lock has no deadline, and does not look whether it passed.
        if call.wish.isLock then w.setCall id again
        else
          let (s, timedOut) := w.state.takeTimedOut id
          if timedOut then (w.setState (leaves s id call.wish)).setCall id none
          else (w.setState s).setCall id again
  | .wakes wake => some (w.wake wake)
  | .other op => (w.state.exec fuel op).map fun result => w.setState result.1

/-- The runs of the schedule whose threads wait while others outside wake them. -/
def system : Transition Outside Action where
  init := fun w =>
    State.schedule.init w.state ∧ (∀ id, w.call id = none) ∧ ∀ id, w.woken id = false
  step := fun w action later =>
    w.Possible action ∧ ∃ fuel, w.exec fuel action = some later

/-- Whoever is about to block and is woken will notice: the wake is counted in its process,
or another one was since it last looked. -/
def Noticed (w : Outside) : Action → Prop
  | .wakes wake => ∀ id < w.state.nthreads, ∀ call ∈ w.call id,
      call.stage = .missed → (w.state.threads id).state ≠ .exited →
        wake.reaches w.state id call.wish = true →
          wake.counts = some (w.state.threads id).pid ∨ w.state.wokenOutside id = true
  | _ => True

def careful : Transition Outside Action := system.restrict Noticed

instance (s : State) (wake : Wake) : Decidable (wake.Possible s) :=
  inferInstanceAs (Decidable (_ ∧ _))

instance (w : Outside) (action : Action) : Decidable (w.Possible action) := by
  unfold Possible
  split <;> infer_instance

instance (w : Outside) (action : Action) : Decidable (w.Noticed action) := by
  unfold Noticed
  split <;> infer_instance

/-- Carry an action out if it is possible. -/
def perform (fuel : Nat) (w : Outside) (action : Action) : Option Outside :=
  if w.Possible action then w.exec fuel action else none

def performCarefully (fuel : Nat) (w : Outside) (action : Action) : Option Outside :=
  if w.Noticed action then w.perform fuel action else none

variable
  {w later : Outside}
  {s : State}
  {id : ThreadId}
  {call : Call Wish}
  {fuel : Nat}
  {action : Action}

theorem step_perform (performed : w.perform fuel action = some later) :
    system.step w action later := by
  unfold perform at performed
  split at performed
  · next possible => exact ⟨possible, fuel, performed⟩
  · cases performed

theorem step_performCarefully (performed : w.performCarefully fuel action = some later) :
    careful.step w action later := by
  unfold performCarefully at performed
  split at performed
  · next noticed => exact ⟨noticed, step_perform performed⟩
  · cases performed

/-! ## Nobody sleeps through a wake -/

/-- Nobody sleeps who was woken since it last looked, and whoever was woken before its
block will notice. -/
def Heeds (w : Outside) : Prop :=
  Sound Wish.key (fun id _ => w.woken id = true) (fun _ => False) w.toHalting

/-- A wake of those who wait for I/O leaves none of them blocked. -/
theorem awake_wakeIo
    (inside : id < s.nthreads)
    (onKey : (s.threads id).key = ioKey) : (s.wakeIo.threads id).state ≠ .blocked := by
  have woken : s.wakeIo.threads id = (s.threads id).wake :=
    (if_pos inside).trans (if_pos onKey)
  rw [woken]
  exact (s.threads id).awake_wake

/-- A thread that a condition is signaled to is not left blocked. -/
theorem awake_condWakeLoop
    {rounds : Nat}
    {pid : Pid}
    {cond : Nat}
    {every : Bool}
    (inside : id < s.nthreads)
    (unmarked : (s.threads id).signaled = false)
    (marked : ((State.condWakeLoop rounds s pid cond every).threads id).signaled = true) :
    ((State.condWakeLoop rounds s pid cond every).threads id).state ≠ .blocked := by
  induction rounds generalizing s with
  | zero =>
      rw [show State.condWakeLoop 0 s pid cond every = s from rfl, unmarked] at marked
      cases marked
  | succ rounds inductionHypothesis =>
      unfold State.condWakeLoop at marked ⊢
      cases isFirst : s.condFirst pid cond with
      | none =>
          rw [isFirst] at marked
          exact absurd (unmarked.symm.trans marked) Bool.false_ne_true
      | some first =>
          rw [isFirst] at marked
          dsimp only at marked ⊢
          by_cases itself : id = first
          · subst itself
            have signalled : ((s.condSignal id).threads id).state ≠ .blocked := by
              rw [show (s.condSignal id).threads id =
                ThreadRec.wake { s.threads id with condKey := 0, signaled := true } from
                  (Function.update_self ..).trans
                    (congrArg ThreadRec.wake (Function.update_self ..))]
              exact ThreadRec.awake_wake _
            split
            · intro blocked
              have keeps := (State.keepsParked_condWakeLoop rounds (s.condSignal id) pid cond
                every).thread id inside
              exact signalled (keeps.blocked blocked).1
            · exact signalled
          · have same : (s.condSignal first).threads id = s.threads id :=
              (Function.update_of_ne itself ..).trans (Function.update_of_ne itself ..)
            split
            · next isEvery =>
                rw [if_pos isEvery] at marked
                exact inductionHypothesis (s := s.condSignal first) inside
                  (same ▸ unmarked) marked
            · next isOne =>
                rw [if_neg isOne, same, unmarked] at marked
                cases marked

namespace Wake

variable {wake : Wake}

theorem noted_threads (s : State) (wake : Wake) : (wake.noted s).threads = s.threads := by
  cases wake <;> rfl

theorem noted_nthreads (s : State) (wake : Wake) :
    (wake.noted s).nthreads = s.nthreads := by
  cases wake <;> rfl

/-- Nobody whom a wake reaches on its key stays blocked. -/
theorem awake_of_reaches
    {wish : Wish}
    (inside : id < s.nthreads)
    (onKey : (s.threads id).key = wish.key)
    (reached : wake.reaches s id wish = true) :
    ((wake.make s).threads id).state ≠ .blocked := by
  have ofAll (pid : Pid) (key : Nat)
      (reached : ((s.threads id).pid = pid && wish.key = key) = true) :
      ((s.wakeAll pid key).threads id).state ≠ .blocked := by
    simp only [Bool.and_eq_true, decide_eq_true_eq] at reached
    exact State.awake_wakeAll inside reached.1 (onKey.trans reached.2)
  have ofIo (reached : decide (wish.key = ioKey) = true) :
      (s.wakeIo.threads id).state ≠ .blocked :=
    awake_wakeIo inside (onKey.trans (of_decide_eq_true reached))
  cases wake with
  | all pid key => exact ofAll pid key reached
  | io pid => exact ofIo reached
  | socket => exact ofIo reached
  | deferred pid key =>
      cases key with
      | none => exact ofIo reached
      | some key => exact ofAll pid key reached
  | cond pid address every =>
      simp only [reaches, Bool.and_eq_true, Bool.not_eq_true'] at reached
      exact awake_condWakeLoop inside reached.1.2 reached.2

end Wake

namespace Wake

variable {wake : Wake}

theorem possible_op (possible : wake.Possible s) : (wake.noted s).Possible wake.op := by
  obtain ⟨-, possible⟩ := possible
  cases wake with
  | deferred pid key => cases key <;> exact possible
  | _ => exact possible

theorem keepsParked_noted (s : State) (wake : Wake) :
    State.KeepsParked s (wake.noted s) := by
  unfold noted
  cases wake.counts with
  | none => exact .refl s
  | some pid =>
      exact @State.keepsParked_modifyProc s pid (fun p =>
        { p with outsideWakes := p.outsideWakes + 1, hasOutsideThreads := true })
        (Nat.le_succ _)

/-- A counted wake warns the threads of the process, and no wake takes a warning back. -/
theorem warned_noted
    (seen : s.Seen)
    (inside : id < s.nthreads)
    (noticed : wake.counts = some (s.threads id).pid ∨ s.wokenOutside id = true) :
    Warned (wake.noted s) id := by
  have before := seen id inside
  unfold Warned
  rw [noted_threads]
  obtain counted | warned := noticed
  · unfold noted
    rw [counted]
    change _ < (Function.update s.procs (s.threads id).pid _ (s.threads id).pid).outsideWakes
    rw [Function.update_self]
    exact Nat.lt_succ_of_le before
  · have less : (s.threads id).wakesSeen < (s.procs (s.threads id).pid).outsideWakes :=
      lt_of_le_of_ne before (of_decide_eq_true warned)
    refine less.trans_le ?_
    unfold noted
    cases wake.counts with
    | none => exact le_rfl
    | some pid =>
        change _ ≤ (Function.update s.procs pid _ (s.threads id).pid).outsideWakes
        by_cases same : (s.threads id).pid = pid
        · rw [same, Function.update_self]
          exact Nat.le_succ _
        · rw [Function.update_of_ne same]

end Wake

/-- A wake warns those who are about to block, if it is noticed, and leaves nobody blocked
whom it reaches. -/
theorem tells_wake
    {wake : Wake}
    (heeds : Heeds w)
    (possible : wake.Possible w.state)
    (noticed : w.Noticed (.wakes wake)) :
    Tells Wish.key (fun id _ => w.woken id = true)
      (fun id _ => (w.woken id || (w.call id).any fun call =>
        wake.reaches w.state id call.wish) = true)
      (w.toHalting.setState (wake.noted w.state)) (wake.make w.state) := by
  have carried := wake.exec_op w.state
  have counted := wake.keepsParked_noted w.state
  obtain ⟨-, -, wakes⟩ := State.tables_of_exec (Wake.possible_op possible) carried
  have inside {id : ThreadId} {call : Call Wish} (isCall : w.call id = some call) :
      id < w.state.nthreads := heeds.registered (by simp [isCall])
  have stays {id : ThreadId} {call : Call Wish} (isCall : w.call id = some call) :
      ((wake.noted w.state).threads id).StaysParked ((wake.make w.state).threads id) :=
    State.staysParked_of_exec (Wake.possible_op possible) carried
      ((inside isCall).trans_le counted.nthreads) fun giver gives => by
        cases wake with
        | deferred pid key => cases key <;> cases gives
        | _ => cases gives
  refine ⟨fun {id} {call} isCall stage staying due => ?_,
    fun {id} {call} isCall stage blocked onKey due => ?_⟩
  · obtain woken | reached := Bool.or_eq_true_iff.1 due
    · exact .inl woken
    · rw [show w.call id = some call from isCall, Option.any_some] at reached
      have still := stays isCall
      rw [Wake.noted_threads] at still
      have warned := Wake.warned_noted heeds.seen (inside isCall)
        (noticed id (inside isCall) call isCall stage
          (fun exited => staying (still.exited exited)) reached)
      refine .inr ?_
      unfold Warned at warned ⊢
      rw [Wake.noted_threads] at warned
      rw [still.wakesSeen, still.pid]
      refine warned.trans_le (wakes _ ?_)
      exact (heeds.tidy.owner id (inside isCall)).trans_le counted.nprocs
  · obtain woken | reached := Bool.or_eq_true_iff.1 due
    · exact woken
    · rw [show w.call id = some call from isCall, Option.any_some] at reached
      have before := ((stays isCall).blocked blocked).2
      rw [Wake.noted_threads] at before
      exact absurd blocked (Wake.awake_of_reaches (inside isCall)
        (before.symm.trans onKey) reached)

/-- A wake from outside that is noticed is slept through by nobody. -/
theorem Heeds.wake
    {wake : Wake}
    (heeds : Heeds w)
    (possible : wake.Possible w.state)
    (noticed : w.Noticed (.wakes wake)) : Heeds (w.wake wake) := by
  have counted : Sound Wish.key (fun id _ => w.woken id = true) (fun _ => False)
      (w.toHalting.setState (wake.noted w.state)) := by
    unfold Wake.noted
    cases counted : wake.counts with
    | none => exact heeds
    | some pid =>
        exact @Sound.other _ _ _ 0 _ _ _ _ _ (.noteOutsideWake pid) _ heeds
          (possible.1 pid counted) ⟨nofun, nofun⟩ rfl (.refl ..) nofun
  exact counted.other (Wake.possible_op possible) (Wake.allows _ wake)
    (wake.exec_op w.state) (tells_wake heeds possible noticed) nofun

/-- The record of the thread that has the baton changes, but for what wakes are about. -/
theorem Heeds.modifyThread
    (heeds : Heeds w)
    (holds : w.state.Holds id)
    (change : ThreadRec → ThreadRec)
    (same : ∀ t, (change t).pid = t.pid ∧ (change t).state = t.state ∧
      (change t).key = t.key ∧ (change t).wakesSeen = t.wakesSeen) :
    Heeds (w.setState (w.state.modifyThread id change)) ∧
      (w.state.modifyThread id change).Holds id := by
  refine ⟨Sound.modifyThread heeds holds.2.1 same, holds.1, holds.2.1, ?_⟩
  change (Function.update w.state.threads id _ id).state ≠ .exited
  rw [Function.update_self, (same _).2.1]
  exact holds.2.2

theorem Heeds.joins
    (heeds : Heeds w)
    (holds : w.state.Holds id)
    (wish : Wish)
    (isAddress : wish.key ≠ 0) :
    Heeds (w.setState (joins w.state id wish)) ∧ (joins w.state id wish).Holds id := by
  cases wish with
  | lock key => exact ⟨heeds, holds⟩
  | io => exact ⟨heeds, holds⟩
  | cond address =>
      have joined : Heeds (w.setState (w.state.condEnqueue id address)) :=
        @Sound.other _ _ _ 0 _ _ _ _ _ (.condEnqueue id address) _ heeds
          ⟨holds, isAddress⟩ ⟨nofun, nofun⟩ rfl (.refl ..) nofun
      refine ⟨joined, holds.1, holds.2.1, ?_⟩
      change (Function.update w.state.threads id _ id).state ≠ .exited
      rw [Function.update_self]
      exact holds.2.2

theorem Heeds.takes (heeds : Heeds w) (holds : w.state.Holds id) (wish : Wish) :
    Heeds (w.setState (takes w.state id wish)) ∧ (takes w.state id wish).Holds id := by
  unfold Outside.takes
  split
  · exact heeds.modifyThread holds (fun t => { t with signaled := false })
      fun _ => ⟨rfl, rfl, rfl, rfl⟩
  · exact ⟨heeds, holds⟩

theorem Heeds.leaves (heeds : Heeds w) (holds : w.state.Holds id) (wish : Wish) :
    Heeds (w.setState (leaves w.state id wish)) ∧ (leaves w.state id wish).Holds id := by
  unfold Outside.leaves
  split
  · exact heeds.modifyThread holds (fun t => { t with condKey := 0, signaled := false })
      fun _ => ⟨rfl, rfl, rfl, rfl⟩
  · exact ⟨heeds, holds⟩

theorem Heeds.step
    (heeds : Heeds w)
    (step : careful.step w action later) : Heeds later := by
  obtain ⟨noticed, possible, fuel, done⟩ := step
  cases action with
  | asks id wish =>
      obtain rfl := Option.some.inj done
      obtain ⟨joined, holds⟩ := heeds.joins possible.1.1 wish possible.2.1
      exact Sound.looks joined holds rfl
  | looks id found =>
      obtain ⟨call, isCall, rfl⟩ := Option.map_eq_some_iff.1 done
      obtain ⟨looked, holds⟩ := heeds.takes possible.1.1 call.wish
      dsimp only
      split
      · exact Sound.returns looked holds.2.1
      · refine Sound.misses looked holds rfl (fun other _ apart due => ?_) ?_
        · change Function.update w.woken id false other = true at due
          rwa [Function.update_of_ne apart] at due
        · change ¬Function.update w.woken id false id = true
          rw [Function.update_self]
          exact nofun
  | blocks id deadline =>
      obtain ⟨⟨holds, -, atMissed⟩, -⟩ := possible
      obtain ⟨halted, isHalted, rfl⟩ := Option.map_eq_some_iff.1 done
      obtain ⟨call, isCall, isHalted⟩ := Option.bind_eq_some_iff.1 isHalted
      have isMissed : call.stage = .missed := by
        rw [isCall] at atMissed
        exact Option.some.inj atMissed
      split at isHalted
      · obtain rfl := Option.some.inj isHalted
        exact Sound.again heeds holds call
      · next quiet =>
          obtain ⟨s, yielded, rfl⟩ := Option.map_eq_some_iff.1 isHalted
          exact Sound.rests heeds holds isCall isMissed (Bool.eq_false_iff.2 quiet) yielded
            (fun _ _ _ _ _ due => due) fun _ away => away
  | resumes id =>
      obtain ⟨holds, -, -⟩ := possible
      obtain ⟨call, isCall, rfl⟩ := Option.map_eq_some_iff.1 done
      dsimp only
      split
      · exact Sound.looks heeds holds rfl
      · obtain ⟨looked, holds⟩ := heeds.modifyThread holds
          (fun t => { t with timedOut := false }) fun _ => ⟨rfl, rfl, rfl, rfl⟩
        split
        · obtain ⟨left, holds⟩ := looked.leaves holds call.wish
          exact Sound.returns left holds.2.1
        · exact Sound.looks looked holds rfl
  | wakes wake =>
      obtain rfl := Option.some.inj done
      exact heeds.wake possible noticed
  | other op =>
      obtain ⟨⟨s, answer⟩, carried, rfl⟩ := Option.map_eq_some_iff.1 done
      exact Sound.other heeds possible.1 possible.2 carried (.refl ..) nofun

theorem Heeds.of_reachable (reachable : careful.Reachable w) : Heeds w := by
  refine reachable.invariant ?_ fun _ _ _ heeds step => heeds.step step
  rintro start ⟨initial, noCall, -⟩
  have oneBaton := State.oneBaton_of_reachable (.start initial)
  have tidy := State.tidy_of_reachable (.start initial)
  obtain ⟨seed, quantumLo, quantumHi, names, latencyNs, same⟩ := initial
  have none {id : ThreadId} {call : Call Wish} (isCall : start.call id = some call) :
      False := by
    rw [noCall id] at isCall
    cases isCall
  refine ⟨tidy, oneBaton, fun id inside => ?_, fun present => absurd (noCall _) present,
    fun isCall => (none isCall).elim, fun isCall => (none isCall).elim,
    fun isCall => (none isCall).elim⟩
  rw [same] at inside
  exact absurd inside (Nat.not_lt_zero _)

/-- As long as whoever is about to block will notice the wakes that come from outside,
nobody sleeps who was woken since it last looked: a thread that is about to block looks
again, and one that is parked is not blocked any more. -/
theorem heeded_of_reachable
    (reachable : careful.Reachable w)
    (isCall : w.call id = some call)
    (woken : w.woken id = true) :
    (call.stage = .missed → ∀ deadline later, system.step w (.blocks id deadline) later →
      later.call id = some { call with stage := .looks } ∧
        (later.state.threads id).state = .running) ∧
      (call.stage = .parked → (w.state.threads id).state ≠ .blocked) := by
  have heeds := Heeds.of_reachable reachable
  refine ⟨?_, fun isParked blocked =>
    (Sound.parked heeds isCall isParked (.inl blocked)).2 woken⟩
  rintro isMissed deadline later ⟨⟨⟨holds, running, -⟩, -⟩, fuel, done⟩
  obtain ⟨halted, isHalted, rfl⟩ := Option.map_eq_some_iff.1 done
  obtain ⟨call', isCall', isHalted⟩ := Option.bind_eq_some_iff.1 isHalted
  obtain rfl := Option.some.inj (isCall.symm.trans isCall')
  have warned : Warned w.state id := Sound.missed heeds isCall isMissed holds.2.2 woken
  rw [if_pos (show w.state.wokenOutside id = true from decide_eq_true warned.ne)] at isHalted
  obtain rfl := Option.some.inj isHalted
  refine ⟨Halting.setCall_self _, ?_⟩
  change (Function.update w.state.threads id _ id).state = .running
  rw [Function.update_self]
  exact running

/-! ## Runs of two processes -/

def quiet : Outside where
  state := .initial 1 1 1 [] 0

theorem init_quiet : system.init quiet :=
  ⟨⟨1, 1, 1, [], 0, rfl⟩, fun _ => rfl, fun _ => rfl⟩

/-- Two threads of a process, of which the second runs, and another process. -/
def begins : List Action :=
  [.other (.addProc 0 none), .other (.addThread 0), .other (.addThread 0),
    .other (.addProc 0 none), .other (.handOff none 0)]

/-- The thread finds a lock taken, and is woken before it blocks. -/
def unlocks : List Action :=
  begins ++ [.asks 1 (.lock 42), .looks 1 false, .wakes (.all 0 42)]

/-- It looks again and blocks, and is woken. -/
def unlocksAgain : List Action :=
  unlocks ++ [.blocks 1 none, .looks 1 false, .blocks 1 none, .wakes (.all 0 42)]

theorem heeded_unlocks :
    (∃ w : Outside, w.call 1 = some ⟨.lock 42, .missed⟩ ∧
      ∀ deadline later, system.step w (.blocks 1 deadline) later →
        later.call 1 = some ⟨.lock 42, .looks⟩ ∧
          (later.state.threads 1).state = .running) ∧
      ∃ w : Outside, w.call 1 = some ⟨.lock 42, .parked⟩ ∧
        (w.state.threads 1).state ≠ .blocked := by
  constructor
  · obtain ⟨w, performed, facts⟩ := Option.map_eq_some_iff.1
      (by decide +kernel : (unlocks.foldlM (performCarefully 1) quiet).map (fun w =>
        (w.call 1, w.woken 1)) = some (some ⟨.lock 42, .missed⟩, true))
    obtain ⟨isMissed, woken⟩ := Prod.mk.inj facts
    exact ⟨w, isMissed, (heeded_of_reachable
      (.foldlM step_performCarefully (.start init_quiet) performed) isMissed woken).1 rfl⟩
  · obtain ⟨w, performed, facts⟩ := Option.map_eq_some_iff.1
      (by decide +kernel : (unlocksAgain.foldlM (performCarefully 1) quiet).map (fun w =>
        (w.call 1, w.woken 1)) = some (some ⟨.lock 42, .parked⟩, true))
    obtain ⟨isParked, woken⟩ := Prod.mk.inj facts
    exact ⟨w, isParked, (heeded_of_reachable
      (.foldlM step_performCarefully (.start init_quiet) performed) isParked woken).2 rfl⟩

/-- A thread that finds nothing blocks after a wake. -/
def loses (wish : Wish) (wake : Wake) : List Action :=
  begins ++ [.asks 1 wish, .looks 1 false, .wakes wake, .blocks 1 none]

/-- The wakes that nobody counts, or that count elsewhere, and what they are for. -/
def uncounted : List (Wish × Wake) :=
  [(.cond 42, .cond 0 42 false), (.cond 42, .cond 0 42 true), (.io, .io 1), (.io, .socket),
    (.lock 42, .deferred 0 (some 42)), (.io, .deferred 0 none)]

/-- The thread sleeps through a signal or a broadcast of its condition, an I/O act of
another process, a call on a socket, and the wakes that the lock's holder makes. -/
theorem sleeps_uncounted
    {lost : Wish × Wake}
    (isLost : lost ∈ uncounted) :
    ∃ w, system.Reachable w ∧ w.call 1 = some ⟨lost.1, .parked⟩ ∧
      w.woken 1 = true ∧ (w.state.threads 1).state = .blocked := by
  have facts := (by decide +kernel : ∀ lost ∈ uncounted,
    ((loses lost.1 lost.2).foldlM (perform 1) quiet).map (fun w =>
      (w.call 1, w.woken 1, (w.state.threads 1).state)) =
        some (some ⟨lost.1, .parked⟩, true, .blocked)) lost isLost
  obtain ⟨w, performed, facts⟩ := Option.map_eq_some_iff.1 facts
  obtain ⟨isParked, facts⟩ := Prod.mk.inj facts
  obtain ⟨woken, blocked⟩ := Prod.mk.inj facts
  exact ⟨w, .foldlM step_perform (.start init_quiet) performed, isParked, woken, blocked⟩

theorem not_heeded_uncounted :
    (∃ w, system.Reachable w ∧ w.call 1 = some ⟨.cond 42, .parked⟩ ∧
      w.woken 1 = true ∧ (w.state.threads 1).state = .blocked) ∧
      ∃ w, system.Reachable w ∧ w.call 1 = some ⟨.io, .parked⟩ ∧
        w.woken 1 = true ∧ (w.state.threads 1).state = .blocked :=
  ⟨@sleeps_uncounted (.cond 42, .cond 0 42 false) (by decide),
    @sleeps_uncounted (.io, .io 1) (by decide)⟩

end Outside
end Derp
