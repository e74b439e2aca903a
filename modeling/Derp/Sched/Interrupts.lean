import Derp.Sched.Hush

/-!
# Signals and masks

A signal that is sent to a process stays pending until a thread of it that does not mask
the signal takes the baton up.  Whoever is blocked is woken to look, and blocks again if it
masks the signal.  So when no thread can run, a signal that is pending is masked by all the
threads that wait.  A timer wakes only the first of them, which may be one that masks it.
-/

namespace Derp

/-- The shared state and the signals that the threads mask.  While the next holder of the
baton is sought nobody has it; whoever gets it takes its signals first. -/
structure Interrupts where
  state : State
  /-- The bits of the signals that a thread masks. -/
  mask : ThreadId → Nat := fun _ => 0
  /-- The thread that got the baton and has not taken its signals yet. -/
  fresh : Option ThreadId := none
  seeking : Bool := false

namespace Interrupts

/-! ## Runs -/

/-- The pieces of the run: what a thread does that has the baton, and all that others do. -/
inductive Piece
  /-- A thread gives the baton up, or the run begins. -/
  | gives (src : Option (ThreadId × ThreadState × Nat))
  /-- A thread that found the run idle looks again. -/
  | looks (id : ThreadId)
  /-- The launcher reports the death of the process that has the baton. -/
  | dies (pid : Pid) (status : Int)
  | gets (me : Option ThreadId) (next : ThreadId) (site : UInt64)
  /-- Nothing can run. -/
  | idles
  /-- A thread that got the baton takes the signals that it does not mask. -/
  | delivers (id : ThreadId)
  | masks (id : ThreadId) (mask : Nat)
  | other (op : State.Op)

/-- A piece, or what happens while the next holder of the baton is sought. -/
inductive Action
  | does (piece : Piece)
  | passes (later : State)

/-- The signals that a thread takes, of 1 to 31. -/
def unmasked (w : Interrupts) (id : ThreadId) : Nat :=
  (2 ^ 32 - 2 : Nat).ldiff (w.mask id)

/-- A thread that is not registered yet, or whose life has not begun. -/
def Unbegun (w : Interrupts) (id : ThreadId) : Prop :=
  w.state.nthreads ≤ id ∨
    (w.state.threads id).state = .blocked ∧ (w.state.threads id).key = restartKey

/-- The baton goes nowhere, and no signal is taken. -/
def Untaken (w : Interrupts) : State.Op → Prop
  | .takeSignals _ _ => False
  | op => op.Stays w.state

def Possible (w : Interrupts) : Piece → Prop
  | .gives src => w.seeking = false ∧ w.fresh = none ∧
      w.state.Possible (.handOff src 0) ∧
        ∀ giver ∈ src, (w.state.threads giver.1).state = .running
  | .looks id => w.seeking = false ∧ w.fresh = none ∧ w.state.Possible (.choose (some id) 0)
  | .dies pid status => w.seeking = false ∧ pid < w.state.nprocs ∧
      (w.state.buried pid status).heldBy pid ≠ none
  | .gets me next _ => w.seeking = true ∧ (∀ id ∈ me, w.state.current = some id) ∧
      next < w.state.nthreads ∧ (w.state.threads next).state = .runnable
  | .idles => w.seeking = true ∧ w.state.runnable = 0
  | .delivers id => w.fresh = some id ∧ w.state.Holds id
  | .masks id _ => w.fresh ≠ some id ∧
      ((w.state.threads id).state = .running ∨ w.Unbegun id)
  | .other op => w.seeking = false ∧ w.Untaken op ∧ w.state.Possible op

def setState (w : Interrupts) (s : State) : Interrupts :=
  { w with state := s }

/-- Carry a piece out. -/
def exec (fuel : Nat) (w : Interrupts) : Piece → Option Interrupts
  | .gives src => some { w with state := w.state.recorded src, seeking := true }
  | .looks _ => some { w with seeking := true }
  | .dies pid status => ((w.state.buried pid status).heldBy pid).map fun id =>
      { w with
        state := (w.state.buried pid status).recorded (some (id, .exited, 0))
        fresh := none
        seeking := true }
  | .gets me next site => some
      { w with
        state := (w.state.giveBaton me next site).1
        fresh := some next
        seeking := false }
  | .idles => some { w with seeking := false }
  | .delivers id => some
      { w with state := w.state.takeSignals id (w.unmasked id), fresh := none }
  | .masks id mask => some { w with mask := Function.update w.mask id mask }
  | .other op => (w.state.exec fuel op).map fun result => w.setState result.1

/-- The runs of the schedule whose threads mask signals. -/
def system : Transition Interrupts Action where
  init := fun w => State.schedule.init w.state ∧ w.fresh = none ∧ w.seeking = false
  step := fun w action later =>
    match action with
    | .does piece => w.Possible piece ∧ ∃ fuel, w.exec fuel piece = some later
    | .passes s => w.seeking = true ∧ (State.Passage w.state s ∨ State.Choice w.state s) ∧
        later = w.setState s

/-- A signal is masked by a thread. -/
def Masks (w : Interrupts) (id : ThreadId) (sig : Nat) : Prop :=
  (w.mask id).testBit sig = true

/-- If a thread would take the signal of a timer but is left to wait, then one that would
take it is ready. -/
def Rings (w : Interrupts) (pid : Pid) : Prop :=
  (∀ id < w.state.nthreads, (w.state.threads id).pid = pid →
    ((w.state.wakeFirst pid).threads id).state = .blocked →
      (w.state.threads id).key ≠ restartKey → w.Masks id sigalrm) ∨
    ∃ id < w.state.nthreads, (w.state.threads id).pid = pid ∧
      ((w.state.wakeFirst pid).threads id).state = .runnable ∧ ¬w.Masks id sigalrm

/-- No thread unmasks a signal that is pending against its process, and nobody else sends a
signal to the process that runs, unless its thread masks the signal. -/
def Minded (w : Interrupts) : Piece → Prop
  | .masks id mask => (w.state.threads id).state = .running → ∀ sig < 32,
      (w.state.procs (w.state.threads id).pid).sigPending.testBit sig = true →
        w.Masks id sig → mask.testBit sig = true
  | .other (.postSignal pid sig) => ∀ id < w.state.nthreads,
      (w.state.threads id).pid = pid → (w.state.threads id).state = .running →
        w.fresh = some id ∨ w.Masks id sig
  | _ => True

/-- Signals are minded, and a timer that fires is heard. -/
def Heard (w : Interrupts) : Action → Prop
  | .does piece => w.Minded piece
  | .passes later => ∀ pid < w.state.nprocs, ∀ due ≤ w.state.clockNs,
      (w.state.procs pid).pendingAlarm = some due → later = w.state.fireAlarm pid →
        w.Rings pid

def careful : Transition Interrupts Action := system.restrict Heard

instance (w : Interrupts) (id : ThreadId) (sig : Nat) : Decidable (w.Masks id sig) :=
  inferInstanceAs (Decidable (_ = _))

instance (w : Interrupts) (pid : Pid) : Decidable (w.Rings pid) :=
  inferInstanceAs (Decidable (_ ∨ _))

instance (w : Interrupts) (op : State.Op) : Decidable (w.Untaken op) := by
  apply State.Op.casesOn (motive := fun op => Decidable (w.Untaken op)) op
  case handOff | choose | takeSignals => exact fun _ _ => inferInstanceAs (Decidable False)
  case processDied =>
    exact fun pid status =>
      inferInstanceAs (Decidable ((w.state.buried pid status).heldBy pid = none))
  all_goals
    intros
    exact inferInstanceAs (Decidable True)

instance (w : Interrupts) (id : ThreadId) : Decidable (w.Unbegun id) :=
  inferInstanceAs (Decidable (_ ∨ _))

instance (w : Interrupts) (piece : Piece) : Decidable (w.Possible piece) := by
  unfold Possible
  split <;> infer_instance

instance (w : Interrupts) (piece : Piece) : Decidable (w.Minded piece) := by
  unfold Minded
  split <;> infer_instance

/-- Carry a piece out if it is possible. -/
def perform (fuel : Nat) (w : Interrupts) : Action → Option Interrupts
  | .does piece => if w.Possible piece then w.exec fuel piece else none
  | .passes _ => none

def performCarefully (fuel : Nat) (w : Interrupts) : Action → Option Interrupts
  | .does piece => if w.Minded piece then w.perform fuel (.does piece) else none
  | .passes _ => none

variable
  {w later : Interrupts}
  {s : State}
  {id : ThreadId}
  {pid : Pid}
  {fuel : Nat}
  {action : Action}

theorem step_perform (performed : w.perform fuel action = some later) :
    system.step w action later := by
  cases action with
  | passes s => cases performed
  | does piece =>
      unfold perform at performed
      dsimp only at performed
      split at performed
      · next possible => exact ⟨possible, fuel, performed⟩
      · cases performed

theorem step_performCarefully (performed : w.performCarefully fuel action = some later) :
    careful.step w action later := by
  cases action with
  | passes s => cases performed
  | does piece =>
      unfold performCarefully at performed
      dsimp only at performed
      split at performed
      · next minded => exact ⟨minded, step_perform performed⟩
      · cases performed

/-! ## The code's choices in pieces -/

theorem run_of_passages
    (isSeeking : w.seeking = true)
    (passages : State.Passages w.state s) :
    ∃ actions, system.Run w actions (w.setState s) := by
  induction passages with
  | refl => exact ⟨[], .refl w⟩
  | @tail middle later _ passage inductionHypothesis =>
      obtain ⟨actions, run⟩ := inductionHypothesis
      have passes : system.step (w.setState middle) (.passes later) (w.setState later) :=
        ⟨isSeeking, .inl passage, rfl⟩
      exact ⟨_, run.tail passes⟩

/-- What the code does to find the next holder is done piece by piece; the holder has not
taken its signals. -/
theorem run_of_choose
    (w : Interrupts)
    {me : Option ThreadId}
    {site : UInt64}
    {handoff : Handoff}
    (isSeeking : w.seeking = true)
    (stale : w.fresh = none)
    (last : ∀ id ∈ me, w.state.current = some id)
    (chosen : w.state.choose fuel me site = some (s, handoff)) :
    ∃ actions, system.Run w actions
      { w with state := s, fresh := handoff.holder me, seeking := false } := by
  obtain ⟨middle, ⟨chooses, given⟩ | ⟨chooses, rfl, rfl⟩⟩ :=
    State.choose_eq_some_iff.1 chosen
  · obtain ⟨actions, run⟩ := run_of_passages isSeeking chooses.passages.1
    obtain ⟨choice, mem⟩ := State.chooseThread_spec chooses.runnable
    rw [← choice.candidates, State.mem_candidates] at mem
    have current : middle.chooseThread.1.current = w.state.current :=
      choice.lulled.current.trans (State.Passages.lulled chooses.passages.1).current
    have picks : system.step (w.setState middle) (.passes middle.chooseThread.1)
        (w.setState middle.chooseThread.1) := ⟨isSeeking, .inr choice, rfl⟩
    have holder := (middle.chooseThread.1.holder_giveBaton me middle.chooseThread.2 site).2
    rw [given] at holder
    have gets : system.step (w.setState middle.chooseThread.1)
        (.does (.gets me middle.chooseThread.2 site))
        { w with state := s, fresh := handoff.holder me, seeking := false } := by
      refine ⟨⟨isSeeking, fun id isMe => current.trans (last id isMe), mem.1,
        State.candidate_runnable mem.2⟩, 0, ?_⟩
      unfold exec setState
      dsimp only
      rw [given, holder]
    exact ⟨_, (run.tail picks).tail gets⟩
  · obtain ⟨actions, run⟩ := run_of_passages isSeeking chooses.passages.1
    have nobody : s.runnable = 0 := by
      have isOver := chooses.passages.2
      unfold State.pickOver at isOver
      by_contra canRun
      rw [if_pos canRun] at isOver
      cases isOver
    have idles : system.step (w.setState s) (.does .idles)
        { w with state := s, fresh := none, seeking := false } := by
      refine ⟨⟨isSeeking, nobody⟩, 0, ?_⟩
      unfold exec setState
      rw [stale]
    exact ⟨_, run.tail idles⟩

theorem recorded_current
    (s : State)
    (src : Option (ThreadId × ThreadState × Nat)) :
    (s.recorded src).current = s.current := by
  cases src with
  | none => rfl
  | some giver => rfl

/-- Every critical section of a thread that has taken its signals is a run of pieces. -/
theorem run_of_exec
    {op : State.Op}
    {answer : State.Answer}
    (notSeeking : w.seeking = false)
    (taken : w.fresh = none)
    (notTakes : ∀ id unmasked, op ≠ .takeSignals id unmasked)
    (running : ∀ giver ∈ op.giver, (w.state.threads giver.1).state = .running)
    (possible : w.state.Possible op)
    (done : w.state.exec fuel op = some (s, answer)) :
    ∃ actions later, system.Run w actions later ∧ later.state = s := by
  by_cases stays : op.Stays w.state
  · have untaken : w.Untaken op := by
      cases op with
      | takeSignals id unmasked => exact notTakes id unmasked rfl
      | _ => exact stays
    have step : system.step w (.does (.other op)) (w.setState s) := by
      refine ⟨⟨notSeeking, untaken, possible⟩, fuel, ?_⟩
      unfold exec
      dsimp only
      rw [done]
      rfl
    exact ⟨_, _, .tail (.refl w) step, rfl⟩
  cases op with
  | handOff src site =>
      obtain ⟨⟨middle, handoff⟩, handed, same⟩ := Option.map_eq_some_iff.1 done
      obtain rfl : middle = s := congrArg Prod.fst same
      have gives : system.step w (.does (.gives src))
          { w with state := w.state.recorded src, seeking := true } := by
        refine ⟨⟨notSeeking, taken, ?_, running⟩, 0, rfl⟩
        cases src with
        | none => exact possible
        | some giver => exact possible
      have last : ∀ id ∈ src.map Prod.fst, (w.state.recorded src).current = some id := by
        rw [recorded_current]
        cases src with
        | none => exact nofun
        | some giver =>
            rintro id ⟨⟩
            exact possible.1.1
      obtain ⟨actions, run⟩ := run_of_choose
        { w with state := w.state.recorded src, seeking := true } rfl taken last handed
      exact ⟨_, _, run.cons gives, rfl⟩
  | choose me site =>
      obtain ⟨⟨middle, handoff⟩, chosen, same⟩ := Option.map_eq_some_iff.1 done
      obtain rfl : middle = s := congrArg Prod.fst same
      cases me with
      | none => cases possible
      | some id =>
          have looks : system.step w (.does (.looks id)) { w with seeking := true } :=
            ⟨⟨notSeeking, taken, possible⟩, 0, rfl⟩
          have last : ∀ other ∈ some id, w.state.current = some other := by
            rintro other ⟨⟩
            exact possible.1
          obtain ⟨actions, run⟩ := run_of_choose { w with seeking := true } rfl taken
            last chosen
          exact ⟨_, _, run.cons looks, rfl⟩
  | processDied pid status =>
      obtain ⟨⟨middle, handoff⟩, died, same⟩ := Option.map_eq_some_iff.1 done
      obtain rfl : middle = s := congrArg Prod.fst same
      obtain ⟨free, -⟩ | ⟨id, passed, held, handed, -⟩ :=
        State.processDied_eq_some_iff.1 died
      · exact absurd free stays
      · have dies : system.step w (.does (.dies pid status))
            { w with
              state := (w.state.buried pid status).recorded (some (id, .exited, 0))
              fresh := none
              seeking := true } := by
          refine ⟨⟨notSeeking, possible, fun free => nomatch free.symm.trans held⟩, 0, ?_⟩
          unfold exec
          dsimp only
          rw [held]
          rfl
        have last : ∀ other ∈ some id, ((w.state.buried pid status).recorded
            (some (id, .exited, 0))).current = some other := by
          rintro other ⟨⟩
          rw [recorded_current]
          exact (State.heldBy_eq_some held).1
        obtain ⟨actions, run⟩ := run_of_choose
          { w with
            state := (w.state.buried pid status).recorded (some (id, .exited, 0))
            fresh := none
            seeking := true } rfl rfl last handed
        exact ⟨_, _, run.cons dies, rfl⟩
  | _ => exact absurd trivial stays

/-! ## The invariant -/

/-- A thread waits, or has taken its signals and runs. -/
def Rests (w : Interrupts) (id : ThreadId) : Prop :=
  (w.state.threads id).state = .blocked ∧ (w.state.threads id).key ≠ restartKey ∨
    (w.state.threads id).state = .running ∧ w.fresh ≠ some id

/-- A thread is about to take its signals. -/
def Ready (w : Interrupts) (id : ThreadId) : Prop :=
  (w.state.threads id).state = .runnable ∨ w.fresh = some id

/-- A signal to a process that a thread at rest does not mask will be taken by another. -/
structure Sound (w : Interrupts) : Prop where
  tidy : w.state.Tidy
  oneBaton : w.state.OneBaton
  fresh : ∀ id ∈ w.fresh, w.state.current = some id ∧ w.seeking = false
  idle : w.seeking = true → w.state.Parked
  taken : ∀ id < w.state.nthreads, w.Rests id →
    (w.state.procs (w.state.threads id).pid).alive = true → ∀ sig, 0 < sig → sig < 32 →
      (w.state.procs (w.state.threads id).pid).sigPending.testBit sig = true →
        ¬w.Masks id sig → ∃ other < w.state.nthreads,
          (w.state.threads other).pid = (w.state.threads id).pid ∧ w.Ready other ∧
            ¬w.Masks other sig

/-- Whoever runs has the baton. -/
theorem Sound.registered
    (sound : Sound w)
    (running : (w.state.threads id).state = .running) : id < w.state.nthreads :=
  sound.tidy.current id (sound.oneBaton id running)

/-- Where no signal is sent, those at rest were before, and those who are ready stay so. -/
theorem Sound.hushed
    (sound : Sound w)
    (tidy : s.Tidy)
    (hushed : State.Hushed w.state s)
    (lulled : State.Lulled w.state s) : Sound (w.setState s) := by
  refine ⟨tidy, sound.oneBaton.lulled lulled,
    fun id isFresh => (sound.fresh id isFresh).imp_left lulled.current.trans,
    fun isSeeking => (sound.idle isSeeking).lulled lulled, ?_⟩
  intro id inside rests alive sig positive small pending notMasked
  have before : id < w.state.nthreads ∧ w.Rests id := by
    obtain ⟨blocked, begun⟩ | ⟨running, taken⟩ := rests
    · by_cases registered : id < w.state.nthreads
      · obtain ⟨was, same⟩ := (hushed.keeps.thread id registered).blocked blocked
        exact ⟨registered, .inl ⟨was, same ▸ begun⟩⟩
      · exact absurd (hushed.begun id (not_lt.1 registered) inside blocked) begun
    · have was := lulled.running running
      exact ⟨sound.registered was, .inr ⟨was, taken⟩⟩
  obtain ⟨registered, rested⟩ := before
  have ofPid := (hushed.keeps.thread id registered).pid
  have owner := sound.tidy.owner id registered
  change (s.procs (s.threads id).pid).alive = true at alive
  change (s.procs (s.threads id).pid).sigPending.testBit sig = true at pending
  rw [ofPid] at alive pending
  obtain ⟨lived, same⟩ := hushed.alive _ owner alive
  rw [same] at pending
  obtain ⟨other, present, ofOther, isReady, takes⟩ :=
    sound.taken id registered rested lived sig positive small pending notMasked
  refine ⟨other, present.trans_le hushed.keeps.nthreads, ?_, ?_, takes⟩
  · exact ((hushed.keeps.thread other present).pid.trans ofOther).trans ofPid.symm
  · refine isReady.imp_left fun ready => ?_
    exact hushed.ready other present (ofOther ▸ owner) ready (ofOther ▸ alive)

/-! ## Signals -/

theorem testBit_addSignal
    {p : ProcRec}
    {sig other : Nat}
    (pending : (p.addSignal sig).sigPending.testBit other = true) :
    p.sigPending.testBit other = true ∨ other = sig := by
  change (p.sigPending ||| 2 ^ sig).testBit other = true at pending
  rw [Nat.testBit_or, Nat.testBit_two_pow, Bool.or_eq_true, decide_eq_true_eq] at pending
  exact pending.imp_right Eq.symm

/-- A signal is sent to a process: whoever is left at rest masks it, or another that does
not is ready. -/
theorem Sound.sent
    {sig : Nat}
    (sound : Sound w)
    (tidy : s.Tidy)
    (keeps : State.KeepsParked w.state s)
    (lulled : State.Lulled w.state s)
    (nthreads : s.nthreads = w.state.nthreads)
    (ready : ∀ id, (w.state.threads id).state = .runnable → (s.threads id).state = .runnable)
    (procs : ∀ other, ((s.procs other).alive = true → (w.state.procs other).alive = true) ∧
      ∀ sig', (s.procs other).sigPending.testBit sig' = true →
        (w.state.procs other).sigPending.testBit sig' = true ∨ other = pid ∧ sig' = sig)
    (heard : ∀ id < w.state.nthreads, (w.state.threads id).pid = pid →
      (w.setState s).Rests id → ¬w.Masks id sig → ∃ other < w.state.nthreads,
        (w.state.threads other).pid = pid ∧ (w.setState s).Ready other ∧
          ¬w.Masks other sig) : Sound (w.setState s) := by
  refine ⟨tidy, sound.oneBaton.lulled lulled,
    fun id isFresh => (sound.fresh id isFresh).imp_left lulled.current.trans,
    fun isSeeking => (sound.idle isSeeking).lulled lulled, ?_⟩
  intro id inside rests alive sig' positive small pending notMasked
  have registered : id < w.state.nthreads := inside.trans_eq nthreads
  have ofPid := (keeps.thread id registered).pid
  change (s.procs (s.threads id).pid).alive = true at alive
  change (s.procs (s.threads id).pid).sigPending.testBit sig' = true at pending
  rw [ofPid] at alive pending
  have carried {target : Pid} (owner : (w.state.threads id).pid = target)
      (found : ∃ other < w.state.nthreads, (w.state.threads other).pid = target ∧
        (w.setState s).Ready other ∧ ¬w.Masks other sig') :
      ∃ other < s.nthreads, (s.threads other).pid = (s.threads id).pid ∧
        (w.setState s).Ready other ∧ ¬w.Masks other sig' := by
    obtain ⟨other, present, ofOther, isReady, takes⟩ := found
    refine ⟨other, present.trans_eq nthreads.symm, ?_, isReady, takes⟩
    rw [(keeps.thread other present).pid, ofOther, ofPid, owner]
  obtain pending | ⟨isTarget, rfl⟩ := (procs _).2 sig' pending
  · have rested : w.Rests id := by
      obtain ⟨blocked, begun⟩ | ⟨running, taken⟩ := rests
      · obtain ⟨was, same⟩ := (keeps.thread id registered).blocked blocked
        exact .inl ⟨was, same ▸ begun⟩
      · exact .inr ⟨lulled.running running, taken⟩
    obtain ⟨other, present, ofOther, isReady, takes⟩ :=
      sound.taken id registered rested ((procs _).1 alive) sig' positive small pending
        notMasked
    exact carried rfl ⟨other, present, ofOther, isReady.imp_left (ready other), takes⟩
  · exact carried isTarget (heard id registered isTarget rests notMasked)

/-- What a signal adds to the processes' records. -/
theorem procs_addSignal
    {sig : Nat}
    {procs : Pid → ProcRec}
    {p : ProcRec}
    (alive : p.alive = (procs pid).alive)
    (pending : p.sigPending = (procs pid).sigPending)
    (other : Pid) :
    ((Function.update procs pid (p.addSignal sig) other).alive = true →
      (procs other).alive = true) ∧
      ∀ sig', (Function.update procs pid (p.addSignal sig) other).sigPending.testBit sig' =
        true → (procs other).sigPending.testBit sig' = true ∨ other = pid ∧ sig' = sig := by
  by_cases same : other = pid
  · subst same
    rw [Function.update_self, ← pending, ← alive]
    exact ⟨id, fun sig' found => (testBit_addSignal found).imp_right fun is => ⟨rfl, is⟩⟩
  · rw [Function.update_of_ne same]
    exact ⟨id, fun _ => .inl⟩

/-- A process is sent a signal: all of it that wait are woken to look. -/
theorem Sound.signalled
    {sig : Nat}
    (sound : Sound w)
    (registered : pid < w.state.nprocs)
    (aloof : ∀ id < w.state.nthreads, (w.state.threads id).pid = pid →
      (w.state.threads id).state = .running → w.fresh = some id ∨ w.Masks id sig) :
    Sound (w.setState (w.state.postSignal pid sig)) := by
  have change : State.Change w.state (w.state.postSignal pid sig) := .signal pid sig registered
  have keeps := change.keepsParked
  refine @Sound.sent _ _ pid sig sound (sound.tidy.postSignal registered sig) keeps
    change.lulled rfl (fun id ready => ?_) (procs_addSignal rfl rfl)
    fun id inside ofPid rests notMasked => ?_
  · change (if id < w.state.nthreads then
        if (w.state.threads id).pid = pid ∧ (w.state.threads id).key ≠ restartKey then
          (w.state.threads id).wake
        else w.state.threads id
      else w.state.threads id).state = .runnable
    split
    · split
      · exact (ThreadRec.hushed_wake _).ready ready
      · exact ready
    · exact ready
  · obtain ⟨blocked, begun⟩ | ⟨running, taken⟩ := rests
    · change ((w.state.postSignal pid sig).threads id).state = .blocked at blocked
      change ((w.state.postSignal pid sig).threads id).key ≠ restartKey at begun
      have same := ((keeps.thread id inside).blocked blocked).2
      have record : (w.state.postSignal pid sig).threads id = (w.state.threads id).wake :=
        (if_pos inside).trans (if_pos ⟨ofPid, same ▸ begun⟩)
      rw [record] at blocked
      exact absurd blocked (ThreadRec.awake_wake _)
    · have was := change.lulled.running running
      exact absurd ((aloof id inside ofPid was).resolve_left taken) notMasked

/-- Who is woken first depends on the threads alone. -/
theorem wakeFirst_threads
    {s' : State}
    (threads : s'.threads = s.threads)
    (nthreads : s'.nthreads = s.nthreads)
    (pid : Pid) :
    (s'.wakeFirst pid).threads = (s.wakeFirst pid).threads ∧
      (s'.wakeFirst pid).nthreads = s.nthreads ∧ (s'.wakeFirst pid).procs = s'.procs := by
  unfold State.wakeFirst State.live
  rw [threads, nthreads]
  split
  · unfold State.modifyThread
    dsimp only
    rw [threads]
    exact ⟨rfl, nthreads, rfl⟩
  · exact ⟨threads, nthreads, rfl⟩

/-- What a timer that fires does to the records. -/
theorem fireAlarm_records
    {due : Nat}
    (pending : (s.procs pid).pendingAlarm = some due)
    (reached : due ≤ s.clockNs) :
    (s.fireAlarm pid).threads = (s.wakeFirst pid).threads ∧
      (s.fireAlarm pid).nthreads = s.nthreads ∧ ∃ p : ProcRec,
        p.alive = (s.procs pid).alive ∧ p.sigPending = (s.procs pid).sigPending ∧
          (s.fireAlarm pid).procs = Function.update s.procs pid (p.addSignal sigalrm) := by
  obtain ⟨isOver, again, same, -, -⟩ := s.rearm_eq pid
  rw [State.fireAlarm_due pending reached, same]
  obtain ⟨threads, nthreads, procs⟩ := @wakeFirst_threads s
    (({ s with overflow := isOver }.modifyProc pid (.setAlarmAt again)).modifyProc pid
      (.addSignal sigalrm)) rfl rfl pid
  refine ⟨threads, nthreads, (s.procs pid).setAlarmAt again, rfl, rfl, procs.trans ?_⟩
  unfold State.modifyProc
  dsimp only
  rw [Function.update_self, Function.update_idem]

/-- A thread that is woken first was blocked. -/
theorem wakeFirst_thread (s : State) (pid : Pid) (id : ThreadId) :
    (s.wakeFirst pid).threads id = s.threads id ∨
      (s.wakeFirst pid).threads id = (s.threads id).setState .runnable ∧
        (s.threads id).state = .blocked := by
  unfold State.wakeFirst
  split
  · next first found =>
      have blocked := List.find?_some found
      rw [Bool.and_eq_true, decide_eq_true_eq, decide_eq_true_eq] at blocked
      unfold State.modifyThread
      dsimp only
      by_cases same : id = first
      · rw [same, Function.update_self]
        exact .inr ⟨rfl, blocked.2⟩
      · exact .inl (Function.update_of_ne same ..)
  · exact .inl rfl

/-- A timer fires, and is heard. -/
theorem Sound.rung
    {due : Nat}
    (sound : Sound w)
    (isSeeking : w.seeking = true)
    (registered : pid < w.state.nprocs)
    (pending : (w.state.procs pid).pendingAlarm = some due)
    (reached : due ≤ w.state.clockNs)
    (rings : w.Rings pid) : Sound (w.setState (w.state.fireAlarm pid)) := by
  have change : State.Change w.state (w.state.fireAlarm pid) :=
    .alarm pid registered pending reached
  have keeps := change.keepsParked
  obtain ⟨threads, nthreads, p, alive, sigPending, procs⟩ := fireAlarm_records pending reached
  refine @Sound.sent _ _ pid sigalrm sound
    (sound.tidy.fireAlarm registered pending reached) keeps change.lulled nthreads
    (fun id ready => ?_) (by rw [procs]; exact procs_addSignal alive sigPending)
    fun id inside ofPid rests notMasked => ?_
  · rw [threads]
    obtain same | ⟨same, blocked⟩ := wakeFirst_thread w.state pid id
    · rw [same]
      exact ready
    · rw [same]
      rfl
  · obtain ⟨blocked, begun⟩ | ⟨running, -⟩ := rests
    · change ((w.state.fireAlarm pid).threads id).state = .blocked at blocked
      change ((w.state.fireAlarm pid).threads id).key ≠ restartKey at begun
      have same := ((keeps.thread id inside).blocked blocked).2
      rw [threads] at blocked
      obtain masked | ⟨other, present, ofOther, ready, takes⟩ := rings
      · exact absurd (masked id inside ofPid blocked (same ▸ begun)) notMasked
      · exact ⟨other, present, ofOther, .inl (threads ▸ ready), takes⟩
    · exact absurd (change.lulled.running running) (sound.idle isSeeking id)

/-! ## Steps -/

theorem Sound.passes
    (sound : Sound w)
    (heard : w.Heard (.passes s))
    (isSeeking : w.seeking = true)
    (passes : State.Passage w.state s ∨ State.Choice w.state s) : Sound (w.setState s) := by
  obtain passage | choice := passes
  · have tidy := State.Passages.tidy (.single passage) sound.tidy
    obtain hushed | ⟨pid, sig, registered, rfl⟩ |
      ⟨pid, due, registered, pending, reached, rfl⟩ := passage.hushed
    · exact sound.hushed tidy hushed (State.Passages.lulled (.single passage))
    · exact sound.signalled registered fun id _ _ running =>
        absurd running (sound.idle isSeeking id)
    · exact sound.rung isSeeking registered pending reached
        (heard pid registered due reached pending rfl)
  · exact sound.hushed (choice.tidy sound.tidy) choice.hushed choice.lulled

/-- A thread that has taken its signals is not about to take any. -/
theorem not_ready
    (running : (w.state.threads id).state = .running)
    (stale : w.fresh = none) : ¬w.Ready id := by
  rintro (ready | isFresh)
  · cases running.symm.trans ready
  · cases stale.symm.trans isFresh

/-- Whoever runs and has taken its signals gives the baton up. -/
theorem Sound.gives
    {src : Option (ThreadId × ThreadState × Nat)}
    (sound : Sound w)
    (possible : w.Possible (.gives src)) :
    Sound { w with state := w.state.recorded src, seeking := true } := by
  obtain ⟨-, stale, possible, running⟩ := possible
  have parked : (w.state.recorded src).Parked := by
    cases src with
    | none =>
        have nobody : w.state.current = none := possible
        exact fun id runs => nomatch nobody.symm.trans (sound.oneBaton id runs)
    | some giver =>
        refine State.parked_recorded sound.oneBaton ?_ possible.1.1 giver.2.2
        rintro same
        obtain isReady | isBlocked | isGone := possible.2
        · cases same.symm.trans isReady
        · cases same.symm.trans isBlocked
        · cases same.symm.trans isGone
  have others {id : ThreadId} (notGiver : ∀ giver ∈ src, giver.1 ≠ id) :
      (w.state.recorded src).threads id = w.state.threads id :=
    State.recorded_threads notGiver
  obtain ⟨nthreads, -, procs⟩ := w.state.recorded_sizes src
  refine ⟨sound.tidy.recorded fun giver gives => sound.registered (running giver gives),
    parked.oneBaton, fun id isFresh => (nomatch stale.symm.trans isFresh), fun _ => parked, ?_⟩
  intro id inside rests alive sig positive small pending notMasked
  have ofPid := (w.state.recorded_record src id).1
  have registered : id < w.state.nthreads := inside.trans_eq nthreads
  change ((w.state.recorded src).procs ((w.state.recorded src).threads id).pid).alive = true
    at alive
  change ((w.state.recorded src).procs
    ((w.state.recorded src).threads id).pid).sigPending.testBit sig = true at pending
  rw [procs, ofPid] at alive pending
  have rested : w.Rests id := by
    by_cases gives : ∃ giver ∈ src, giver.1 = id
    · obtain ⟨giver, gives, rfl⟩ := gives
      exact .inr ⟨running giver gives, stale ▸ nofun⟩
    · have same := others fun giver is isId => gives ⟨giver, is, isId⟩
      obtain ⟨blocked, begun⟩ | ⟨runs, -⟩ := rests
      · change ((w.state.recorded src).threads id).state = .blocked at blocked
        change ((w.state.recorded src).threads id).key ≠ restartKey at begun
        rw [same] at blocked begun
        exact .inl ⟨blocked, begun⟩
      · exact absurd runs (parked id)
  obtain ⟨other, present, ofOther, isReady, takes⟩ :=
    sound.taken id registered rested alive sig positive small pending notMasked
  refine ⟨other, present.trans_eq nthreads.symm, ?_, ?_, takes⟩
  · exact ((w.state.recorded_record src other).1.trans ofOther).trans ofPid.symm
  · refine isReady.imp_left fun ready => ?_
    change ((w.state.recorded src).threads other).state = .runnable
    rw [others fun giver gives isOther => ?_]
    · exact ready
    · exact not_ready (isOther ▸ running giver gives) stale isReady

theorem Sound.looks
    (sound : Sound w)
    (possible : w.Possible (.looks id)) : Sound { w with seeking := true } := by
  obtain ⟨-, stale, last, waits⟩ := possible
  refine ⟨sound.tidy, sound.oneBaton, fun id isFresh => (nomatch stale.symm.trans isFresh),
    fun _ other running => ?_, sound.taken⟩
  obtain rfl := Option.some.inj (last.symm.trans (sound.oneBaton other running))
  exact waits running

theorem Sound.idles (sound : Sound w) : Sound { w with seeking := false } :=
  ⟨sound.tidy, sound.oneBaton, fun id isFresh => ⟨(sound.fresh id isFresh).1, rfl⟩, nofun,
    sound.taken⟩

/-- A thread that the run was waiting for gets the baton, and is to take its signals. -/
theorem Sound.gets
    {me : Option ThreadId}
    {next : ThreadId}
    {site : UInt64}
    (sound : Sound w)
    (possible : w.Possible (.gets me next site)) :
    Sound
      { w with
        state := (w.state.giveBaton me next site).1
        fresh := some next
        seeking := false } := by
  obtain ⟨isSeeking, last, registered, runnable⟩ := possible
  have parked := sound.idle isSeeking
  have handed := State.handed_giveBaton parked last runnable site
  obtain ⟨given, -⟩ := w.state.holder_giveBaton me next site
  obtain ⟨next', named, current, -⟩ := handed.given given
  obtain rfl : next = next' :=
    Option.some.inj ((w.state.holder_giveBaton me next site).2.symm.trans named)
  have notFresh (id : ThreadId) : w.fresh ≠ some id := fun isFresh =>
    nomatch isSeeking.symm.trans (sound.fresh id isFresh).2
  have tidy := sound.tidy.giveBaton registered me site
  have oneBaton := handed.oneBaton sound.oneBaton
  obtain ⟨_, _, _, _, _, park, same⟩ := w.state.giveBaton_eq me next site
  obtain ⟨s, isLater⟩ : ∃ s, s = (w.state.giveBaton me next site).1 := ⟨_, rfl⟩
  rw [← isLater] at same tidy oneBaton current ⊢
  have nthreads : s.nthreads = w.state.nthreads := by rw [same]
  have procs : s.procs = w.state.procs := by rw [same]
  have others {id : ThreadId} (apart : id ≠ next) : s.threads id = w.state.threads id := by
    rw [same]
    exact Function.update_of_ne apart ..
  have itself : s.threads next = { w.state.threads next with state := .running, park := park } := by
    rw [same]
    exact Function.update_self ..
  have ofPid (id : ThreadId) : (s.threads id).pid = (w.state.threads id).pid := by
    by_cases isNext : id = next
    · rw [isNext, itself]
    · rw [others isNext]
  refine ⟨tidy, oneBaton, ?_, nofun, ?_⟩
  · rintro id isFresh
    obtain rfl := Option.some.inj isFresh
    exact ⟨current, rfl⟩
  · intro id inside rests alive sig positive small pending notMasked
    change (s.procs (s.threads id).pid).alive = true at alive
    change (s.procs (s.threads id).pid).sigPending.testBit sig = true at pending
    rw [procs, ofPid] at alive pending
    have rested : w.Rests id := by
      obtain ⟨blocked, begun⟩ | ⟨running, taken⟩ := rests
      · change (s.threads id).state = .blocked at blocked
        change (s.threads id).key ≠ restartKey at begun
        have apart : id ≠ next := by
          rintro rfl
          rw [itself] at blocked
          cases blocked
        rw [others apart] at blocked begun
        exact .inl ⟨blocked, begun⟩
      · have apart : id ≠ next := fun isNext => taken (congrArg some isNext.symm)
        change (s.threads id).state = .running at running
        rw [others apart] at running
        exact absurd running (parked id)
    obtain ⟨other, present, ofOther, isReady, takes⟩ :=
      sound.taken id (inside.trans_eq nthreads) rested alive sig positive small pending
        notMasked
    refine ⟨other, present.trans_eq nthreads.symm,
      ((ofPid other).trans ofOther).trans (ofPid id).symm, ?_, takes⟩
    by_cases isNext : other = next
    · exact .inr (congrArg some isNext.symm)
    · refine .inl ?_
      change (s.threads other).state = .runnable
      rw [others isNext]
      exact isReady.resolve_right (notFresh other)

/-- What is left of the signals of 1 to 31 is masked. -/
theorem testBit_ldiff_unmasked
    {pending sig : Nat}
    (positive : 0 < sig)
    (small : sig < 32)
    (left : (pending.ldiff (w.unmasked id)).testBit sig = true) :
    pending.testBit sig = true ∧ w.Masks id sig := by
  rw [Nat.testBit_ldiff, Bool.and_eq_true] at left
  refine ⟨left.1, ?_⟩
  have isSignal : (2 ^ 32 - 2 : Nat).testBit sig = true :=
    (by decide : ∀ sig < 32, 0 < sig → (2 ^ 32 - 2 : Nat).testBit sig = true) sig small positive
  have notTaken := left.2
  unfold unmasked at notTaken
  rw [Nat.testBit_ldiff, isSignal] at notTaken
  unfold Masks
  simpa using notTaken

/-- A thread takes the signals that it does not mask. -/
theorem Sound.delivers
    (sound : Sound w)
    (possible : w.Possible (.delivers id)) :
    Sound { w with state := w.state.takeSignals id (w.unmasked id), fresh := none } := by
  obtain ⟨isFresh, holds⟩ := possible
  have possible : w.state.Possible (.takeSignals id (w.unmasked id)) := holds
  have taken : w.state.exec 0 (.takeSignals id (w.unmasked id)) =
      some (w.state.takeSignals id (w.unmasked id), .done) := rfl
  have tidy := State.tidy_of_exec sound.tidy possible taken
  have stays : State.Op.Stays w.state (.takeSignals id (w.unmasked id)) := trivial
  have lulled := State.lulled_of_stays stays possible taken
  have sameThread (other : ThreadId) :
      ((w.state.takeSignals id (w.unmasked id)).threads other).pid =
        (w.state.threads other).pid ∧
        ((w.state.takeSignals id (w.unmasked id)).threads other).state =
          (w.state.threads other).state ∧
          ((w.state.takeSignals id (w.unmasked id)).threads other).key =
            (w.state.threads other).key := by
    change (Function.update w.state.threads id _ other).pid = _ ∧
      (Function.update w.state.threads id _ other).state = _ ∧
        (Function.update w.state.threads id _ other).key = _
    by_cases same : other = id
    · rw [same, Function.update_self]
      exact ⟨rfl, rfl, rfl⟩
    · rw [Function.update_of_ne same]
      exact ⟨rfl, rfl, rfl⟩
  refine ⟨tidy, sound.oneBaton.lulled lulled, nofun,
    fun isSeeking => (sound.idle isSeeking).lulled lulled, ?_⟩
  intro other inside rests alive sig positive small pending notMasked
  obtain ⟨ofPid, state, key⟩ := sameThread other
  change ((w.state.takeSignals id (w.unmasked id)).procs
    ((w.state.takeSignals id (w.unmasked id)).threads other).pid).alive = true at alive
  change ((w.state.takeSignals id (w.unmasked id)).procs
    ((w.state.takeSignals id (w.unmasked id)).threads other).pid).sigPending.testBit sig = true
      at pending
  rw [ofPid] at alive pending
  have before : (w.state.procs (w.state.threads other).pid).alive = true ∧
      (w.state.procs (w.state.threads other).pid).sigPending.testBit sig = true ∧
        ((w.state.threads other).pid = (w.state.threads id).pid → w.Masks id sig) := by
    change (Function.update w.state.procs (w.state.threads id).pid _
      (w.state.threads other).pid).alive = true at alive
    change (Function.update w.state.procs (w.state.threads id).pid _
      (w.state.threads other).pid).sigPending.testBit sig = true at pending
    by_cases same : (w.state.threads other).pid = (w.state.threads id).pid
    · rw [same, Function.update_self] at alive pending
      rw [same]
      obtain ⟨was, masked⟩ := testBit_ldiff_unmasked positive small pending
      exact ⟨alive, was, fun _ => masked⟩
    · rw [Function.update_of_ne same] at alive pending
      exact ⟨alive, pending, fun is => absurd is same⟩
  obtain ⟨lived, was, masked⟩ := before
  have apart : other ≠ id := by
    rintro rfl
    exact notMasked (masked rfl)
  have rested : w.Rests other := by
    obtain ⟨blocked, begun⟩ | ⟨running, -⟩ := rests
    · exact .inl ⟨state.symm.trans blocked, key ▸ begun⟩
    · refine .inr ⟨state.symm.trans running, fun isOther => apart ?_⟩
      exact Option.some.inj (isOther.symm.trans isFresh)
  obtain ⟨taker, present, ofTaker, isReady, takes⟩ :=
    sound.taken other inside rested lived sig positive small was notMasked
  refine ⟨taker, present, ((sameThread taker).1.trans ofTaker).trans ofPid.symm, ?_, takes⟩
  refine .inl ((sameThread taker).2.1.trans (isReady.resolve_right fun isTaker => takes ?_))
  obtain rfl := Option.some.inj (isTaker.symm.trans isFresh)
  exact masked ofTaker.symm

/-- A thread masks other signals, but none less of those that are pending, or has not
begun. -/
theorem Sound.masks
    {mask : Nat}
    (sound : Sound w)
    (possible : w.Possible (.masks id mask))
    (heard : w.Heard (.does (.masks id mask))) :
    Sound { w with mask := Function.update w.mask id mask } := by
  obtain ⟨taken, sets⟩ := possible
  refine ⟨sound.tidy, sound.oneBaton, sound.fresh, sound.idle, ?_⟩
  intro other inside rests alive sig positive small pending notMasked
  have others {taker : ThreadId} (apart : taker ≠ id) :
      Function.update w.mask id mask taker = w.mask taker := Function.update_of_ne apart ..
  have before : ¬w.Masks other sig := by
    by_cases same : other = id
    · subst same
      intro masked
      have running : (w.state.threads other).state = .running := by
        obtain running | outside | ⟨blocked, notBegun⟩ := sets
        · exact running
        · exact absurd inside (not_lt.2 outside)
        · obtain ⟨-, begun⟩ | ⟨running, -⟩ := rests
          · exact absurd notBegun begun
          · exact running
      refine notMasked ?_
      unfold Masks
      dsimp only
      rw [Function.update_self]
      exact heard running sig small pending masked
    · unfold Masks at notMasked
      dsimp only at notMasked
      rwa [others same] at notMasked
  obtain ⟨taker, present, ofTaker, isReady, takes⟩ :=
    sound.taken other inside rests alive sig positive small pending before
  have apart : taker ≠ id := by
    rintro rfl
    have ready := isReady.resolve_right taken
    obtain running | outside | ⟨blocked, -⟩ := sets
    · cases ready.symm.trans running
    · exact absurd present (not_lt.2 outside)
    · cases ready.symm.trans blocked
  refine ⟨taker, present, ofTaker, isReady, ?_⟩
  unfold Masks
  dsimp only
  rw [others apart]
  exact takes

/-- The process that had the baton is dead, and the baton is passed on. -/
theorem Sound.bequeaths
    (sound : Sound (w.setState s))
    (dead : s.Dead pid)
    (held : s.heldBy pid = some id) :
    Sound
      { w with
        state := s.recorded (some (id, .exited, 0))
        fresh := none
        seeking := true } := by
  obtain ⟨last, inside, owner⟩ := State.heldBy_eq_some held
  have waits : ThreadState.exited ≠ .running := nofun
  have parked : (s.recorded (some (id, .exited, 0))).Parked :=
    State.parked_recorded sound.oneBaton waits last 0
  have tidy : (s.recorded (some (id, .exited, 0))).Tidy := by
    refine sound.tidy.recorded ?_
    rintro giver ⟨⟩
    exact inside
  have others {other : ThreadId} (apart : other ≠ id) :
      (s.recorded (some (id, .exited, 0))).threads other = s.threads other :=
    Function.update_of_ne apart ..
  have ofPid (other : ThreadId) :=
    (s.recorded_record (some (id, .exited, 0)) other).1
  refine ⟨tidy, parked.oneBaton, nofun, fun _ => parked, ?_⟩
  intro other registered rests alive sig positive small pending notMasked
  change (s.procs ((s.recorded (some (id, .exited, 0))).threads other).pid).alive = true at alive
  change (s.procs ((s.recorded
    (some (id, .exited, 0))).threads other).pid).sigPending.testBit sig = true at pending
  rw [ofPid] at alive pending
  -- A thread of a living process is not the one that died.
  have apart {taker : ThreadId}
      (ofTaker : (s.threads taker).pid = (s.threads other).pid) : taker ≠ id := by
    rintro rfl
    rw [← ofTaker, owner] at alive
    cases dead.2.symm.trans alive
  have rested : (w.setState s).Rests other := by
    obtain ⟨blocked, begun⟩ | ⟨running, -⟩ := rests
    · change ((s.recorded (some (id, .exited, 0))).threads other).state = .blocked at blocked
      change ((s.recorded (some (id, .exited, 0))).threads other).key ≠ restartKey at begun
      rw [others (apart rfl)] at blocked begun
      exact .inl ⟨blocked, begun⟩
    · exact absurd running (parked other)
  obtain ⟨taker, present, ofTaker, isReady, takes⟩ :=
    sound.taken other registered rested alive sig positive small pending notMasked
  refine ⟨taker, present, ((ofPid taker).trans ofTaker).trans (ofPid other).symm, .inl ?_,
    takes⟩
  change ((s.recorded (some (id, .exited, 0))).threads taker).state = .runnable
  rw [others (apart ofTaker)]
  refine isReady.resolve_right fun isFresh => apart ofTaker ?_
  exact Option.some.inj ((sound.fresh taker isFresh).1.symm.trans last)

/-- The launcher reports the death of the process that has the baton. -/
theorem Sound.dies
    {status : Int}
    (sound : Sound w)
    (registered : pid < w.state.nprocs)
    (held : (w.state.buried pid status).heldBy pid = some id) :
    Sound
      { w with
        state := (w.state.buried pid status).recorded (some (id, .exited, 0))
        fresh := none
        seeking := true } :=
  (sound.hushed (sound.tidy.buried registered status) (State.hushed_buried registered status)
    (State.lulled_buried registered status)).bequeaths
      (State.dead_buried registered status) held

theorem Sound.other
    {op : State.Op}
    (sound : Sound w)
    (possible : w.Possible (.other op))
    (heard : w.Heard (.does (.other op)))
    {answer : State.Answer}
    (done : w.state.exec fuel op = some (s, answer)) : Sound (w.setState s) := by
  obtain ⟨-, untaken, possible⟩ := possible
  by_cases signals : op.signals = true
  · cases op with
    | postSignal pid sig =>
        obtain ⟨rfl, -⟩ := Prod.mk.inj (Option.some.inj done)
        exact sound.signalled possible.1 heard
    | takeSignals => cases untaken
    | _ => cases signals
  · have stays : op.Stays w.state := by
      cases op with
      | takeSignals => trivial
      | _ => exact untaken
    exact sound.hushed (State.tidy_of_exec sound.tidy possible done)
      (State.hushed_of_exec stays (Bool.eq_false_iff.2 signals) possible done)
      (State.lulled_of_stays stays possible done)

/-! ## Every run -/

theorem Sound.step
    (sound : Sound w)
    (step : careful.step w action later) : Sound later := by
  obtain ⟨heard, step⟩ := step
  cases action with
  | passes s =>
      obtain ⟨isSeeking, passes, rfl⟩ := step
      exact sound.passes heard isSeeking passes
  | does piece =>
      obtain ⟨possible, fuel, done⟩ := step
      cases piece with
      | gives src =>
          obtain rfl := Option.some.inj done
          exact sound.gives possible
      | looks id =>
          obtain rfl := Option.some.inj done
          exact sound.looks possible
      | dies pid status =>
          obtain ⟨id, held, rfl⟩ := Option.map_eq_some_iff.1 done
          exact sound.dies possible.2.1 held
      | gets me next site =>
          obtain rfl := Option.some.inj done
          exact sound.gets possible
      | idles =>
          obtain rfl := Option.some.inj done
          exact sound.idles
      | delivers id =>
          obtain rfl := Option.some.inj done
          exact sound.delivers possible
      | masks id mask =>
          obtain rfl := Option.some.inj done
          exact sound.masks possible heard
      | other op =>
          obtain ⟨⟨s, answer⟩, carried, rfl⟩ := Option.map_eq_some_iff.1 done
          exact sound.other possible heard carried

theorem Sound.of_reachable (reachable : careful.Reachable w) : Sound w := by
  refine reachable.invariant ?_ fun _ _ _ sound step => sound.step step
  rintro start ⟨initial, noFresh, notSeeking⟩
  have tidy := State.tidy_of_reachable (.start initial)
  have oneBaton := State.oneBaton_of_reachable (.start initial)
  obtain ⟨seed, quantumLo, quantumHi, names, latencyNs, same⟩ := initial
  refine ⟨tidy, oneBaton, fun id isFresh => (nomatch noFresh.symm.trans isFresh),
    fun isSeeking => (nomatch notSeeking.symm.trans isSeeking), fun id inside => ?_⟩
  rw [same] at inside
  exact absurd inside (Nat.not_lt_zero _)

/-- No signal that was sent to a process is left behind when no thread can run: all the
threads of the process that wait mask it. -/
theorem masked_of_reachable
    (reachable : careful.Reachable w)
    (isSeeking : w.seeking = true)
    (nobody : w.state.runnable = 0)
    (inside : id < w.state.nthreads)
    (blocked : (w.state.threads id).state = .blocked)
    (begun : (w.state.threads id).key ≠ restartKey)
    (alive : (w.state.procs (w.state.threads id).pid).alive = true)
    {sig : Nat}
    (positive : 0 < sig)
    (small : sig < 32)
    (pending : (w.state.procs (w.state.threads id).pid).sigPending.testBit sig = true) :
    w.Masks id sig := by
  have sound := Sound.of_reachable reachable
  by_contra notMasked
  obtain ⟨other, present, -, ready | isFresh, -⟩ :=
    sound.taken id inside (.inl ⟨blocked, begun⟩) alive sig positive small pending notMasked
  · refine List.countP_eq_zero.1 nobody other (List.mem_range.2 present) ?_
    exact decide_eq_true ready
  · cases isSeeking.symm.trans (sound.fresh other isFresh).2

/-! ## Runs that end idle -/

def alone : Interrupts where
  state := .initial 1 1 1 [] 0

theorem init_alone : system.init alone :=
  ⟨⟨1, 1, 1, [], 0, rfl⟩, rfl, rfl⟩

/-- The timer of a process fires. -/
def rung (w : Interrupts) (pid : Pid) : Interrupts :=
  w.setState (w.state.fireAlarm pid)

/-- A timer is due while the next holder of the baton is sought, and will be heard. -/
def CanRing (w : Interrupts) (pid : Pid) : Prop :=
  w.seeking = true ∧ pid < w.state.nprocs ∧
    (∃ due ∈ (w.state.procs pid).pendingAlarm, due ≤ w.state.clockNs) ∧
      ∀ other < w.state.nprocs,
        (w.state.procs other).pendingAlarm.isSome = true → w.Rings other

instance (w : Interrupts) (pid : Pid) : Decidable (w.CanRing pid) :=
  inferInstanceAs (Decidable (_ ∧ _ ∧ _ ∧ _))

theorem step_rung (canRing : w.CanRing pid) :
    careful.step w (.passes (w.state.fireAlarm pid)) (w.rung pid) := by
  obtain ⟨isSeeking, registered, ⟨due, pending, reached⟩, rings⟩ := canRing
  refine ⟨fun other inside _ _ waits _ => rings other inside ?_, isSeeking,
    .inl (.deed (.change (.alarm pid registered pending reached))), rfl⟩
  rw [waits]
  rfl

/-- A thread gives the baton to another, which takes its signals. -/
def turn (id next : ThreadId) : List Action :=
  [.does (.gives (some (id, .blocked, 5))), .does (.gets (some id) next 0),
    .does (.delivers next)]

/-- A process with a thread, and a second one with two that mask SIGTERM; one masks SIGALRM
too.  They wait, and the timer of theirs is due. -/
def waits : List Action :=
  [.does (.other (.addProc 0 none)), .does (.other (.addThread 0)),
    .does (.other (.addProc 0 (some 0))), .does (.masks 1 (2 ^ 15)),
    .does (.other (.addThread 1)), .does (.masks 2 (2 ^ 15 + 2 ^ 14)),
    .does (.other (.addThread 1)), .does (.gives none), .does (.gets none 1 0),
    .does (.delivers 1)] ++ turn 1 2 ++ turn 2 0 ++
    [.does (.other (.setAlarm 1 1 0)), .does (.gives (some (0, .runnable, 0)))]

/-- One thread takes SIGALRM; then SIGTERM is sent, and all wait. -/
def takes : List Action :=
  [.does (.gets (some 0) 1 0), .does (.delivers 1)] ++ turn 1 0 ++
    [.does (.other (.postSignal 1 15))] ++ turn 0 1 ++ turn 1 2 ++
    [.does (.gives (some (2, .blocked, 5)))]

/-- SIGTERM alone is left for the second process, both of whose threads wait. -/
def Ends (w : Interrupts) : Prop :=
  w.seeking = true ∧ w.state.runnable = 0 ∧ (w.state.procs 1).alive = true ∧
    (w.state.procs 1).sigPending = 2 ^ 15 ∧ ∀ id ∈ [1, 2], id < w.state.nthreads ∧
      (w.state.threads id).pid = 1 ∧ (w.state.threads id).state = .blocked ∧
        (w.state.threads id).key ≠ restartKey

instance (w : Interrupts) : Decidable w.Ends :=
  inferInstanceAs (Decidable (_ ∧ _ ∧ _ ∧ _ ∧ _))

/-- Where the timer is due. -/
def due : Interrupts :=
  (waits.foldlM (performCarefully 1) alone).getD alone

theorem masked_takes : ∃ w : Interrupts, w.Ends ∧ w.Masks 1 15 ∧ w.Masks 2 15 := by
  have upTo : waits.foldlM (performCarefully 1) alone = some due := by
    have performed : (waits.foldlM (performCarefully 1) alone).isSome = true := by
      decide +kernel
    obtain ⟨w, same⟩ := Option.isSome_iff_exists.1 performed
    unfold due
    rw [same]
    rfl
  have canRing : due.CanRing 1 := by decide +kernel
  have ends : (takes.foldlM (performCarefully 1) (due.rung 1)).any fun w => w.Ends := by
    decide +kernel
  obtain ⟨w, performed, ends⟩ := (Option.any_eq_true _ _).1 ends
  have isDue : careful.Reachable due := .foldlM step_performCarefully (.start init_alone) upTo
  have reachable : careful.Reachable w :=
    .foldlM step_performCarefully (.next isDue (step_rung canRing)) performed
  have isEnd := of_decide_eq_true ends
  obtain ⟨isSeeking, nobody, alive, pending, threads⟩ := isEnd
  have masked (id : ThreadId) (mem : id ∈ [1, 2]) : w.Masks id 15 := by
    obtain ⟨inside, ofPid, blocked, begun⟩ := threads id mem
    refine masked_of_reachable reachable isSeeking nobody inside blocked begun
      (ofPid.symm ▸ alive) (by decide) (by decide) ?_
    rw [ofPid, pending]
    decide
  exact ⟨w, of_decide_eq_true ends, masked 1 (by decide), masked 2 (by decide)⟩

/-- Nobody can run, and a signal is pending that a thread that waits does not mask. -/
def Left (s : State) (mask pending : Nat) (id : ThreadId) (sig : Nat) : Prop :=
  s.runnable = 0 ∧ id < s.nthreads ∧ (s.threads id).state = .blocked ∧
    (s.threads id).key ≠ restartKey ∧ (s.procs (s.threads id).pid).alive = true ∧
      pending.testBit sig = true ∧ ¬mask.testBit sig = true

instance (s : State) (mask pending : Nat) (id : ThreadId) (sig : Nat) :
    Decidable (Left s mask pending id sig) :=
  inferInstanceAs (Decidable (_ ∧ _ ∧ _ ∧ _ ∧ _ ∧ _ ∧ _))

/-- A thread takes the signals that are not in its mask. -/
def taking (id : ThreadId) (mask : Nat) : State.Op :=
  .takeSignals id ((2 ^ 32 - 2 : Nat).ldiff mask)

def blocking (id : ThreadId) : State.Op :=
  .handOff (some (id, .blocked, 5)) 0

/-- A process with a thread that has the baton. -/
def starts (mask : Nat) : List State.Op :=
  [.addProc 0 none, .addThread 0, .handOff none 0, taking 0 mask]

/-- The second thread waits, and is sent SIGURG by `pthread_kill`. -/
def directs : List State.Op :=
  starts 0 ++ [.addThread 0, blocking 0, taking 1 0, .wakeThread 0, blocking 1, taking 0 0,
    .threadKill 1 23]

/-- The timer wakes the first thread, which masks SIGALRM; the second does not. -/
def rings : List State.Op :=
  starts (2 ^ 14) ++ [.addThread 0, blocking 0, taking 1 0, .wakeThread 0, blocking 1,
    taking 0 (2 ^ 14), .setAlarm 0 1 0, blocking 0, taking 0 (2 ^ 14)]

/-- A thread of another process is woken by a signal that it masks, and then unmasks it. -/
def unmasks : List State.Op :=
  starts 0 ++ [.addProc 0 (some 0), .addThread 1, blocking 0, taking 1 (2 ^ 15),
    .wakeThread 0, blocking 1, taking 0 0, .postSignal 1 15, blocking 0, taking 1 (2 ^ 15)]

/-- A thread that the scheduler does not run sends a signal to the process that runs. -/
def intrudes : List State.Op :=
  starts 0 ++ [.postSignal 0 15]

theorem left_of_played
    {ops : List State.Op}
    {mask : Nat}
    {pending : State → Nat}
    {last : ThreadId}
    {sig : Nat}
    (ends : (State.play 1 ops (.initial 1 1 1 [] 0)).any fun s =>
      (s.handOff 1 (some (last, .blocked, 5)) 0).any fun result =>
        result.2 = .idle ∧ Left result.1 mask (pending result.1) id sig) :
    ∃ s later, State.schedule.Reachable s ∧
      State.play 1 ops (.initial 1 1 1 [] 0) = some s ∧
        s.handOff 1 (some (last, .blocked, 5)) 0 = some (later, .idle) ∧
          Left later mask (pending later) id sig := by
  obtain ⟨s, played, ends⟩ := (Option.any_eq_true _ _).1 ends
  obtain ⟨⟨later, handoff⟩, handed, ends⟩ := (Option.any_eq_true _ _).1 ends
  obtain ⟨rfl, left⟩ := of_decide_eq_true ends
  exact ⟨s, later, State.reachable_play (.start ⟨1, 1, 1, [], 0, rfl⟩) played, played,
    handed, left⟩

/-- What thread-directed signals, timers, changes of masks and senders outside the schedule
leave behind. -/
theorem left_when_idle :
    (∃ s later, State.schedule.Reachable s ∧
      State.play 1 directs (.initial 1 1 1 [] 0) = some s ∧
        s.handOff 1 (some (0, .blocked, 5)) 0 = some (later, .idle) ∧
          Left later 0 (later.threads 1).sigPending 1 23) ∧
    (∃ s later, State.schedule.Reachable s ∧
      State.play 1 rings (.initial 1 1 1 [] 0) = some s ∧
        s.handOff 1 (some (0, .blocked, 5)) 0 = some (later, .idle) ∧
          Left later 0 (later.procs 0).sigPending 1 sigalrm) ∧
    (∃ s later, State.schedule.Reachable s ∧
      State.play 1 unmasks (.initial 1 1 1 [] 0) = some s ∧
        s.handOff 1 (some (1, .blocked, 5)) 0 = some (later, .idle) ∧
          Left later 0 (later.procs 1).sigPending 1 15) ∧
    ∃ s later, State.schedule.Reachable s ∧
      State.play 1 intrudes (.initial 1 1 1 [] 0) = some s ∧
        s.handOff 1 (some (0, .blocked, 5)) 0 = some (later, .idle) ∧
          Left later 0 (later.procs 0).sigPending 0 15 :=
  ⟨@left_of_played _ _ _ (fun s => (s.threads 1).sigPending) _ _ (by decide +kernel),
    @left_of_played _ _ _ (fun s => (s.procs 0).sigPending) _ _ (by decide +kernel),
    @left_of_played _ _ _ (fun s => (s.procs 1).sigPending) _ _ (by decide +kernel),
    @left_of_played _ _ _ (fun s => (s.procs 0).sigPending) _ _ (by decide +kernel)⟩

end Interrupts
end Derp
