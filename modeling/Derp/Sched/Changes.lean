import Derp.Net.Wiring
import Derp.Sched.Step

/-!
# What the events do

The handlers of due events, the wakes and the crashes are chains of a few kinds
of changes.  What every kind of change and a crash keep, every handler keeps.
-/

namespace Derp

/-- What does not matter to the schedule: signals that were counted, children
that died, exits that are waited out, and who was told to stop. -/
def ProcRec.Noise (p p' : ProcRec) : Prop :=
  ∃ childDeaths lastDeadChild signalled unsettled, p' =
    { p with
      childDeaths := childDeaths
      lastDeadChild := lastDeadChild
      signalled := signalled
      unsettled := unsettled }

theorem ProcRec.Noise.refl (p : ProcRec) : p.Noise p :=
  ⟨_, _, _, _, rfl⟩

namespace State

variable
  {s middle later : State}
  {pid : Pid}
  {id : ThreadId}

/-- A thread is left alone, woken by somebody, or its deadline has passed. -/
inductive Woken (s : State) : ThreadRec → ThreadRec → Prop
  | same (t : ThreadRec) : Woken s t t
  | woken (t : ThreadRec) : t.state = .blocked → t.key ≠ restartKey →
      Woken s t (t.setState .runnable)
  | timedOut (t : ThreadRec) : t.expired s.clockNs = true →
      Woken s t t.timeOut

/-- A violent death, as the tables show it. -/
def killed (s : State) (victim : Pid) : State :=
  (s.retireThreads victim).modifyProc victim (.condemn s.clockNs)

/-- A due crash strikes. -/
def struck (s : State) (victim : Pid) : State :=
  (s.modifyProc victim .useUpCrash).killed victim

/-- A due shutdown begins; its signal is not sent yet. -/
def graced (s : State) (pid : Pid) : State :=
  (s.modifyProc pid .useUpShutdown).modifyProc pid
    (.beginGrace (wrappingAdd s.clockNs (max 1 (s.procs pid).faults.graceNs)))

/-- One kind of change; nobody is crashed by it, and nobody begins a life. -/
inductive Change : State → State → Prop
  /-- Counters, and whether a sum of times did not fit. -/
  | count {s : State}
      (unsignalled unsettled crashes shutdowns forced : Nat)
      (overflow : Bool) :
      (s.overflow = true → overflow = true) →
      Change s
        { s with
          unsignalled := unsignalled
          unsettled := unsettled
          crashesInjected := crashes
          shutdownsInjected := shutdowns
          shutdownsForced := forced
          overflow := overflow }
  | wake {s : State} {threads : ThreadId → ThreadRec} :
      (∀ id, s.Woken (s.threads id) (threads id)) →
      Change s { s with threads := threads }
  | noise {s : State} {procs : Pid → ProcRec} :
      (∀ pid, (s.procs pid).Noise (procs pid)) →
      Change s { s with procs := procs }
  | net {s : State} (op : Net.Op) {net : Net}
      {answer : Except NetError Net.Answer} :
      s.net.Admissible op → s.net.exec op = some (net, answer) →
      Change s (s.setNet net)
  | signal {s : State} (pid : Pid) (sig : Nat) : pid < s.nprocs →
      Change s (s.postSignal pid sig)
  | alarm {s : State} (pid : Pid) {due : Nat} : pid < s.nprocs →
      (s.procs pid).pendingAlarm = some due → due ≤ s.clockNs →
      Change s (s.fireAlarm pid)
  | stop {s : State} {due : Nat} : s.pendingStop = some due →
      due ≤ s.clockNs → Change s s.stopRun
  | grace {s : State} (pid : Pid) : s.Alive pid →
      (s.procs pid).shutdownAt ≠ 0 → (s.procs pid).shutdownAt ≤ s.clockNs →
      (s.overflow = false →
        addOverflows s.clockNs (max 1 (s.procs pid).faults.graceNs) = false) →
      Change s (s.graced pid)

/-- A chain of changes. -/
abbrev Changes : State → State → Prop :=
  Relation.ReflTransGen Change

/-- A change, or a crash with all that it means to the run. -/
inductive Deed : State → State → Prop
  | change {s later : State} : Change s later → Deed s later
  | crash {s : State} (pid : Pid) : s.Alive pid → Deed s (s.crash pid)
  | strike {s : State} (pid : Pid) {due : Nat} : pid < s.nprocs →
      (s.procs pid).pendingCrash = some due → due ≤ s.clockNs →
      Deed s ((s.modifyProc pid .useUpCrash).crash pid)

/-- A chain of changes and crashes. -/
abbrev Deeds : State → State → Prop :=
  Relation.ReflTransGen Deed

theorem Changes.deeds (changes : Changes s later) : Deeds s later :=
  Relation.ReflTransGen.mono (fun _ _ => .change) _ _ changes

/-! ## Wakes and counters -/

theorem changes_wake
    {threads : ThreadId → ThreadRec}
    (woken : ∀ id, s.Woken (s.threads id) (threads id)) :
    Changes s { s with threads := threads } :=
  .single (.wake woken)

theorem woken_wake
    (s : State)
    {t : ThreadRec}
    (begun : t.key ≠ restartKey) : s.Woken t t.wake := by
  unfold ThreadRec.wake
  split
  · next blocked => exact .woken t blocked begun
  · exact .same t

theorem changes_mapLive
    {change : ThreadRec → ThreadRec}
    (woken : ∀ t, s.Woken t (change t)) : Changes s (s.mapLive change) := by
  apply changes_wake
  intro id
  split
  · exact woken _
  · exact .same _

theorem changes_wakeAll
    (pid : Pid)
    {key : Nat}
    (begun : key ≠ restartKey) : Changes s (s.wakeAll pid key) := by
  apply changes_mapLive
  intro t
  split
  · next named => exact woken_wake s (by rw [named.2]; exact begun)
  · exact .same t

theorem changes_wakeIo (s : State) : Changes s s.wakeIo := by
  apply changes_mapLive
  intro t
  split
  · next named => exact woken_wake s (by rw [named]; decide)
  · exact .same t

theorem changes_expireDeadlines (s : State) : Changes s s.expireDeadlines := by
  apply changes_mapLive
  intro t
  split
  · next expired => exact .timedOut t expired
  · exact .same t

theorem changes_modifyProc
    {change : ProcRec → ProcRec}
    (noise : (s.procs pid).Noise (change (s.procs pid))) :
    Changes s (s.modifyProc pid change) := by
  refine .single (.noise fun other => ?_)
  by_cases same : other = pid
  · subst same
    rw [Function.update_self]
    exact noise
  · rw [Function.update_of_ne same]
    exact .refl _

theorem changes_mapProcs
    {change : ProcRec → ProcRec}
    (noise : ∀ p : ProcRec, p.Noise (change p)) :
    Changes s (s.mapProcs change) := by
  refine .single (.noise fun pid => ?_)
  split
  · exact noise _
  · exact .refl _

theorem changes_tellParent (s : State) (child : Pid) :
    Changes s (s.tellParent child) := by
  unfold tellParent
  split
  · next parent _ =>
      have told : Changes s (s.modifyProc parent (.noteChild child)) :=
        changes_modifyProc ⟨_, _, _, _, rfl⟩
      exact told.trans (changes_wakeAll parent (by decide))
  · exact .refl

theorem changes_noteUnsettled (s : State) (victim : Pid) :
    Changes s (s.noteUnsettled victim) := by
  unfold noteUnsettled
  split
  · have noted : Changes s
        (s.modifyProc victim fun p => { p with unsettled := true }) :=
      changes_modifyProc ⟨_, _, _, _, rfl⟩
    exact noted.tail (.count _ _ _ _ _ _ id)
  · exact .refl

theorem changes_processDied (s : State) (pid : Pid) :
    Changes s (s.setNet (s.net.processDied pid)) :=
  .single (.net (.died pid) trivial rfl)

theorem changes_clockMoved (s : State) : Changes s s.clockMoved := by
  have moved : Changes s (s.setNet (s.net.advance s.clockNs).1) :=
    .single (.net (.advance s.clockNs) trivial rfl)
  unfold clockMoved
  dsimp only
  split
  · exact moved.trans (changes_wakeIo _)
  · exact moved

/-! ## Deaths and restarts -/

/-- A dead process gets another life. -/
structure Restarts (s : State) (pid : Pid) (status : Int) : Prop where
  registered : pid < s.nprocs
  dead : (s.procs pid).alive = false
  first : (s.procs pid).replacedBy = none
  due : s.restartDue pid status = true
  room : s.hasRoom = true

/-- A restart is registered exactly when it is due and has room. -/
theorem registerRestart_cases
    (registered : pid < s.nprocs)
    (dead : (s.procs pid).alive = false)
    (status : Int) :
    Restarts s pid status ∧ s.registerRestart pid status = s.newLife pid ∨
      ¬Restarts s pid status ∧ s.registerRestart pid status = s := by
  unfold registerRestart
  split
  · next refused =>
      refine .inr ⟨fun restarts => ?_, rfl⟩
      obtain again | undue := refused
      · rw [restarts.first] at again
        cases again
      · exact undue restarts.due
  · next wanted =>
      split
      · next full => exact .inr ⟨fun restarts => full restarts.room, rfl⟩
      · next room =>
          rw [not_or, not_not] at wanted
          refine .inl ⟨⟨registered, dead, ?_, wanted.2, not_not.1 room⟩, rfl⟩
          simpa using wanted.1

/-- A process that is dead, or as good as dead. -/
def Dead (s : State) (pid : Pid) : Prop :=
  pid < s.nprocs ∧ (s.procs pid).alive = false

theorem Dead.modifyProc
    (dead : s.Dead pid)
    {change : ProcRec → ProcRec}
    (other : Pid)
    (kept : ∀ p, (change p).alive = p.alive) :
    (s.modifyProc other change).Dead pid := by
  refine ⟨dead.1, ?_⟩
  unfold State.modifyProc
  dsimp only
  by_cases same : pid = other
  · subst same
    rw [Function.update_self, kept]
    exact dead.2
  · rw [Function.update_of_ne same]
    exact dead.2

theorem Dead.noteUnsettled
    (dead : s.Dead pid)
    (victim : Pid) : (s.noteUnsettled victim).Dead pid := by
  unfold State.noteUnsettled
  split
  · have noted : (s.modifyProc victim fun p =>
        { p with unsettled := true }).Dead pid :=
      dead.modifyProc victim fun _ => rfl
    exact noted
  · exact dead

theorem Dead.setNet (dead : s.Dead pid) (net : Net) : (s.setNet net).Dead pid :=
  dead

theorem Dead.wakeIo (dead : s.Dead pid) : s.wakeIo.Dead pid :=
  dead

theorem Dead.tellParent
    (dead : s.Dead pid)
    (child : Pid) : (s.tellParent child).Dead pid := by
  unfold State.tellParent
  split
  · next parent _ => exact dead.modifyProc parent fun _ => rfl
  · exact dead

/-- The sockets of a dead process close, and its parent learns of the death. -/
def closeDown (s : State) (pid : Pid) : State :=
  (s.setNet (s.net.processDied pid)).wakeIo.tellParent pid

theorem changes_closeDown (s : State) (pid : Pid) :
    Changes s (s.closeDown pid) :=
  ((changes_processDied s pid).trans (changes_wakeIo _)).trans
    (changes_tellParent _ pid)

theorem Dead.closeDown
    (dead : s.Dead pid)
    (child : Pid) : (s.closeDown child).Dead pid :=
  ((dead.setNet _).wakeIo).tellParent child

/-- What follows a violent death in the tables, up to the restart. -/
def grieved (s : State) (victim : Pid) : State :=
  ({ s with unsignalled := s.unsignalled + 1 }.noteUnsettled victim).closeDown
    victim

theorem crash_eq (s : State) (victim : Pid) :
    s.crash victim =
      ((s.killed victim).grieved victim).registerRestart victim killedStatus :=
  rfl

theorem changes_grieved (s : State) (pid : Pid) : Changes s (s.grieved pid) := by
  have counted : Changes s { s with unsignalled := s.unsignalled + 1 } :=
    .single (.count _ _ _ _ _ _ id)
  exact (counted.trans (changes_noteUnsettled _ pid)).trans
    (changes_closeDown _ pid)

theorem Dead.grieved (dead : s.Dead pid) : (s.grieved pid).Dead pid := by
  have counted : { s with unsignalled := s.unsignalled + 1 }.Dead pid := dead
  exact (counted.noteUnsettled pid).closeDown pid

theorem dead_killed (registered : pid < s.nprocs) : (s.killed pid).Dead pid := by
  refine ⟨registered, ?_⟩
  unfold killed modifyProc
  dsimp only
  rw [Function.update_self]
  simp [ProcRec.condemn, ProcRec.alive]

/-- What changes keep, a chain of them keeps. -/
theorem Changes.keep
    {P : State → Prop}
    (change : ∀ {s later}, Change s later → P s → P later)
    (changes : Changes s later)
    (before : P s) : P later := by
  induction changes with
  | refl => exact before
  | tail _ last inductionHypothesis => exact change last inductionHypothesis

/-- What changes, violent deaths and new lives keep, a chain of deeds keeps. -/
theorem Deeds.keep
    {P : State → Prop}
    (change : ∀ {s later}, Change s later → P s → P later)
    (kill : ∀ {s pid}, s.Alive pid → P s → P (s.killed pid))
    (strike : ∀ {s pid due}, pid < s.nprocs →
      (s.procs pid).pendingCrash = some due → due ≤ s.clockNs →
      P s → P (s.struck pid))
    (newLife : ∀ {s pid status}, Restarts s pid status → P s →
      P (s.newLife pid))
    (deeds : Deeds s later)
    (before : P s) : P later := by
  have buried {s : State} {pid : Pid} (dead : s.Dead pid) (holds : P s) :
      P ((s.grieved pid).registerRestart pid killedStatus) := by
    have grieved := Changes.keep change (changes_grieved s pid) holds
    obtain ⟨restarts, same⟩ | ⟨-, same⟩ :=
      registerRestart_cases dead.grieved.1 dead.grieved.2 killedStatus
    · rw [same]
      exact newLife restarts grieved
    · rw [same]
      exact grieved
  induction deeds with
  | refl => exact before
  | tail _ deed inductionHypothesis =>
      cases deed with
      | change last => exact change last inductionHypothesis
      | crash pid alive =>
          exact buried (dead_killed alive.1) (kill alive inductionHypothesis)
      | strike pid registered pending reached =>
          exact buried (dead_killed registered)
            (strike registered pending reached inductionHypothesis)

/-! ## What a new life is -/

/-- The fault stream moved, and sums of times were noted. -/
def drawn (s : State) (faultRng : Rng) (overflow : Bool) : State :=
  { s with faultRng := faultRng, overflow := overflow }

/-- A time drawn for a life that begins at a time: none, or one in the range. -/
structure InLife (lifeStarts lo hi left at' : Nat) (overflow : Bool) : Prop where
  never : hi = 0 ∨ left = 0 → at' = 0
  some : ¬(hi = 0 ∨ left = 0) → 0 < at'
  after : ¬(hi = 0 ∨ left = 0) → overflow = false → lifeStarts ≤ at'
  within : ¬(hi = 0 ∨ left = 0) → overflow = false → lo ≤ hi → hi < 2 ^ 64 →
    max 1 (lifeStarts + lo) ≤ at' ∧ at' ≤ max 1 (lifeStarts + hi)

theorem addOverflows_false {a b : Nat} (fits : addOverflows a b = false) :
    wrappingAdd a b = a + b := by
  unfold addOverflows at fits
  unfold wrappingAdd
  rw [decide_eq_false_iff_not, not_le] at fits
  exact Nat.mod_eq_of_lt fits

/-- A draw from a range of 64-bit words is no more than its width. -/
theorem below_span
    (rng : Rng)
    {lo hi : Nat}
    (ordered : lo ≤ hi)
    (word : hi < 2 ^ 64) :
    (rng.below (wrappingAdd (wrappingSub hi lo) 1)).1 ≤ hi - lo := by
  have width : wrappingSub hi lo = hi - lo := by
    unfold wrappingSub
    omega
  rw [width]
  by_cases whole : hi - lo + 1 = 2 ^ 64
  · have zero : wrappingAdd (hi - lo) 1 = 0 := by
      unfold wrappingAdd
      rw [whole, Nat.mod_self]
    rw [zero]
    unfold Rng.below
    simp
  · have fits : wrappingAdd (hi - lo) 1 = hi - lo + 1 :=
      Nat.mod_eq_of_lt (by omega)
    rw [fits]
    have := rng.below_lt (n := hi - lo + 1) (by omega)
    omega

theorem drawTime_eq (s : State) (lifeStarts lo hi left : Nat) :
    ∃ faultRng overflow at',
      s.drawTime lifeStarts lo hi left = (s.drawn faultRng overflow, at') ∧
      (s.overflow = true → overflow = true) ∧
      InLife lifeStarts lo hi left at' overflow := by
  unfold drawTime
  split
  · next never =>
      exact ⟨s.faultRng, s.overflow, 0, rfl, id, fun _ => rfl,
        fun ever => absurd never ever, fun ever => absurd never ever,
        fun ever => absurd never ever⟩
  · next ever =>
      have small := @below_span s.faultRng lo hi
      dsimp only
      generalize s.faultRng.below (wrappingAdd (wrappingSub hi lo) 1) = result
        at small ⊢
      obtain ⟨draw, rng⟩ := result
      refine ⟨rng, s.overflow || addOverflows lifeStarts lo ||
          addOverflows (wrappingAdd lifeStarts lo) draw,
        max 1 (wrappingAdd (wrappingAdd lifeStarts lo) draw), rfl,
        fun isOver => by rw [isOver]; rfl, ?_⟩
      refine ⟨fun never => absurd never ever, fun _ => by omega, ?_, ?_⟩
      · intro _ fits
        rw [Bool.or_eq_false_iff, Bool.or_eq_false_iff] at fits
        obtain ⟨⟨-, first⟩, second⟩ := fits
        rw [addOverflows_false second, addOverflows_false first]
        omega
      intro _ fits ordered word
      have least := small ordered word
      rw [Bool.or_eq_false_iff, Bool.or_eq_false_iff] at fits
      obtain ⟨⟨-, first⟩, second⟩ := fits
      rw [addOverflows_false second, addOverflows_false first]
      dsimp only at least
      omega

/-- When a next life begins: later than now, after the delay that was drawn. -/
structure Starts
    (clockNs : Nat)
    (faults : Faults)
    (starts : Nat)
    (overflow : Bool) : Prop where
  after : overflow = false → clockNs < starts
  within : overflow = false →
    faults.restartDelayLoNs ≤ faults.restartDelayHiNs →
    faults.restartDelayHiNs < 2 ^ 64 →
    clockNs + max 1 faults.restartDelayLoNs ≤ starts ∧
      starts ≤ clockNs + max 1 faults.restartDelayHiNs

theorem drawStart_eq (s : State) (faults : Faults) :
    ∃ faultRng overflow starts,
      s.drawStart faults = (s.drawn faultRng overflow, starts) ∧
      (s.overflow = true → overflow = true) ∧
      Starts s.clockNs faults starts overflow := by
  have small := @below_span s.faultRng faults.restartDelayLoNs
    faults.restartDelayHiNs
  unfold drawStart
  dsimp only
  generalize s.faultRng.below (wrappingAdd (wrappingSub faults.restartDelayHiNs
    faults.restartDelayLoNs) 1) = result at small ⊢
  obtain ⟨draw, rng⟩ := result
  refine ⟨rng, s.overflow || addOverflows faults.restartDelayLoNs draw ||
      addOverflows s.clockNs
        (max 1 (wrappingAdd faults.restartDelayLoNs draw)),
    wrappingAdd s.clockNs (max 1 (wrappingAdd faults.restartDelayLoNs draw)),
    rfl, fun isOver => by rw [isOver]; rfl, ?_⟩
  constructor
  · intro fits
    rw [Bool.or_eq_false_iff] at fits
    rw [addOverflows_false fits.2]
    omega
  · intro fits ordered word
    have least := small ordered word
    rw [Bool.or_eq_false_iff, Bool.or_eq_false_iff] at fits
    obtain ⟨⟨-, first⟩, second⟩ := fits
    rw [addOverflows_false second, addOverflows_false first]
    dsimp only at least
    omega

theorem drawPriority_eq (s : State) :
    ∃ pctRng priority,
      s.drawPriority = ({ s with pctRng := pctRng }, priority) ∧
      (s.scheduler = .pct → maxPctDepth < priority) := by
  unfold drawPriority
  split
  · exact ⟨_, _, rfl, fun _ => by omega⟩
  · next random =>
      exact ⟨s.pctRng, 0, rfl, fun isPct => by rw [random] at isPct; cases isPct⟩

/-- The main thread of a life that has not begun. -/
def waiting
    (s : State)
    (pid : Pid)
    (starts priority : Nat) : ThreadRec :=
  { s.threads s.nthreads with
    state := .blocked
    pid := pid
    priority := priority
    key := restartKey
    deadline := starts }

/-- The process that takes the place of another. -/
def newborn
    (s : State)
    (victim : Pid)
    (crashAt shutdownAt : Nat) : ProcRec :=
  { s.procs s.nprocs with
    state := .starting
    host := (s.procs victim).host
    parent := none
    replacedBy := none
    spec := (s.procs victim).spec
    faults := (s.procs victim).faults.useUpRestart
    crashAt := crashAt
    shutdownAt := shutdownAt }

/-- The tables with a next life in them. -/
def born
    (s : State)
    (victim : Pid)
    (starts priority crashAt shutdownAt : Nat)
    (pctRng : Rng) : State :=
  { s with
    pctRng := pctRng
    restarts := s.restarts + 1
    nprocs := s.nprocs + 1
    nthreads := s.nthreads + 1
    threads := Function.update s.threads s.nthreads
      (s.waiting s.nprocs starts priority)
    procs := Function.update
      (Function.update s.procs victim
        ((s.procs victim).setReplacedBy s.nprocs))
      s.nprocs (s.newborn victim crashAt shutdownAt) }

/-- The threads with the main thread of a next life among them. -/
theorem born_threads
    {faultRng pctRng : Rng}
    {overflow : Bool}
    {starts priority crashAt shutdownAt : Nat} :
    ((s.drawn faultRng overflow).born pid starts priority crashAt shutdownAt
        pctRng).threads id =
      if id = s.nthreads then s.waiting s.nprocs starts priority
      else s.threads id := by
  split
  · next new =>
      subst new
      exact Function.update_self _ _ _
  · next old => exact Function.update_of_ne old _ _

/-- The processes with a next life among them. -/
theorem born_procs
    {faultRng pctRng : Rng}
    {overflow : Bool}
    {starts priority crashAt shutdownAt : Nat}
    {other : Pid} :
    ((s.drawn faultRng overflow).born pid starts priority crashAt shutdownAt
        pctRng).procs other =
      if other = s.nprocs then s.newborn pid crashAt shutdownAt
      else if other = pid then (s.procs pid).setReplacedBy s.nprocs
      else s.procs other := by
  split
  · next new =>
      subst new
      exact Function.update_self _ _ _
  · next old =>
      refine (Function.update_of_ne old _ _).trans ?_
      split
      · next victim =>
          subst victim
          exact Function.update_self _ _ _
      · next stranger => exact Function.update_of_ne stranger _ _

/-- What a draw of crash times leaves. -/
theorem drawCrash_eq (s : State) (pid : Pid) (lifeStarts : Nat) :
    ∃ faultRng overflow crashAt shutdownAt,
      s.drawCrash pid lifeStarts =
        ((s.drawn faultRng overflow).modifyProc pid
          (.setCrashAt crashAt)).modifyProc pid (.setShutdownAt shutdownAt) ∧
      (s.overflow = true → overflow = true) ∧
      InLife lifeStarts (s.procs pid).faults.crashLoNs
        (s.procs pid).faults.crashHiNs (s.procs pid).faults.crashesLeft
        crashAt overflow ∧
      InLife lifeStarts (s.procs pid).faults.shutdownLoNs
        (s.procs pid).faults.shutdownHiNs (s.procs pid).faults.shutdownsLeft
        shutdownAt overflow := by
  obtain ⟨rng, isOver, crashAt, crash, grows, inLife⟩ := s.drawTime_eq lifeStarts
    (s.procs pid).faults.crashLoNs (s.procs pid).faults.crashHiNs
    (s.procs pid).faults.crashesLeft
  obtain ⟨rng', over', shutdownAt, shutdown, grows', inLife'⟩ :=
    ((s.drawn rng isOver).modifyProc pid (.setCrashAt crashAt)).drawTime_eq
      lifeStarts (s.procs pid).faults.shutdownLoNs
      (s.procs pid).faults.shutdownHiNs (s.procs pid).faults.shutdownsLeft
  refine ⟨rng', over', crashAt, shutdownAt, ?_, fun was => grows' (grows was),
    ?_, inLife'⟩
  · unfold drawCrash
    dsimp only
    rw [crash]
    dsimp only
    exact congrArg (fun result : State × Nat =>
      result.1.modifyProc pid (.setShutdownAt result.2)) shutdown
  · have fitted : over' = false → isOver = false := fun fits => by
      by_contra was
      rw [Bool.not_eq_false] at was
      rw [grows' was] at fits
      cases fits
    exact ⟨inLife.never, inLife.some, fun ever fits => inLife.after ever (fitted fits),
      fun ever fits => inLife.within ever (fitted fits)⟩

theorem addMain_eq (s : State) (pid : Pid) (starts : Nat) :
    ∃ pctRng priority,
      s.addMain pid starts =
        { s with
          pctRng := pctRng
          nthreads := s.nthreads + 1
          threads := Function.update s.threads s.nthreads
            (s.waiting pid starts priority) } ∧
      (s.scheduler = .pct → maxPctDepth < priority) := by
  obtain ⟨pctRng, priority, drawn, high⟩ :=
    { s with nthreads := s.nthreads + 1 }.drawPriority_eq
  refine ⟨pctRng, priority, ?_, high⟩
  unfold addMain addThread
  dsimp only
  rw [drawn]
  unfold modifyThread
  dsimp only
  rw [Function.update_self, Function.update_idem]
  rfl

/-- A next life is one more process and one more thread. -/
theorem newLife_eq
    (registered : pid < s.nprocs) :
    ∃ faultRng overflow starts priority crashAt shutdownAt pctRng,
      s.newLife pid =
        (s.drawn faultRng overflow).born pid starts priority crashAt shutdownAt
          pctRng ∧
      (s.overflow = true → overflow = true) ∧
      (s.scheduler = .pct → maxPctDepth < priority) ∧
      Starts s.clockNs (s.procs pid).faults starts overflow ∧
      InLife starts (s.procs pid).faults.crashLoNs
        (s.procs pid).faults.crashHiNs (s.procs pid).faults.crashesLeft
        crashAt overflow ∧
      InLife starts (s.procs pid).faults.shutdownLoNs
        (s.procs pid).faults.shutdownHiNs (s.procs pid).faults.shutdownsLeft
        shutdownAt overflow := by
  obtain ⟨rng, isOver, starts, start, grows, later⟩ :=
    (s.addProc (s.procs pid).host none).1.drawStart_eq
      (s.procs pid).faults.useUpRestart
  have notNew : pid ≠ s.nprocs := registered.ne
  obtain ⟨succeeded, isSucceeded⟩ : ∃ succeeded, succeeded =
      ((s.addProc (s.procs pid).host none).1.drawn rng isOver).succeed pid
        s.nprocs (s.procs pid).faults.useUpRestart (s.procs pid).spec := ⟨_, rfl⟩
  obtain ⟨pctRng, priority, main, high⟩ := succeeded.addMain_eq s.nprocs starts
  obtain ⟨rng', over', crashAt, shutdownAt, drawn, grows', crash, shutdown⟩ :=
    (succeeded.addMain s.nprocs starts).drawCrash_eq s.nprocs starts
  have procs : succeeded.procs =
      Function.update
        (Function.update s.procs pid ((s.procs pid).setReplacedBy s.nprocs))
        s.nprocs
        { s.procs s.nprocs with
          state := .starting
          host := (s.procs pid).host
          parent := none
          replacedBy := none
          spec := (s.procs pid).spec
          faults := (s.procs pid).faults.useUpRestart } := by
    rw [isSucceeded]
    unfold succeed modifyProc addProc State.drawn
    dsimp only
    unfold modifyProc
    dsimp only
    rw [Function.update_idem, Function.update_self,
      Function.update_comm notNew, Function.update_of_ne notNew]
    rfl
  have newProc : succeeded.procs s.nprocs =
      { s.procs s.nprocs with
        state := .starting
        host := (s.procs pid).host
        parent := none
        replacedBy := none
        spec := (s.procs pid).spec
        faults := (s.procs pid).faults.useUpRestart } := by
    rw [procs, Function.update_self]
  have used (faults : Faults) : faults.useUpRestart = faults ∨
      faults.useUpRestart =
        { faults with restartsLeft := faults.restartsLeft - 1 } := by
    unfold Faults.useUpRestart
    split
    · exact .inl rfl
    · exact .inr rfl
  have mainProcs : (succeeded.addMain s.nprocs starts).procs =
      succeeded.procs := by
    rw [main]
  have mainOver : (succeeded.addMain s.nprocs starts).overflow = isOver := by
    rw [main, isSucceeded]
    rfl
  rw [mainProcs, newProc] at crash shutdown
  rw [mainOver] at grows'
  have fits : over' = false → isOver = false := by
    intro fits
    by_contra was
    rw [Bool.not_eq_false] at was
    rw [grows' was] at fits
    cases fits
  refine ⟨rng', over', starts, priority, crashAt, shutdownAt, pctRng, ?_,
    fun was => grows' (grows was), ?_, ?_, ?_, ?_⟩
  · unfold newLife
    dsimp only
    rw [start]
    dsimp only
    have isNew : (s.addProc (s.procs pid).host none).2 = s.nprocs := rfl
    rw [isNew, ← isSucceeded, drawn, main]
    unfold State.drawn born newborn modifyProc
    dsimp only
    rw [Function.update_self, Function.update_idem, procs,
      Function.update_self, Function.update_idem, isSucceeded]
    rfl
  · intro isPct
    apply high
    rw [isSucceeded]
    exact isPct
  · obtain same | same := used (s.procs pid).faults <;> rw [same] at later
    · exact ⟨fun fit => later.after (fits fit),
        fun fit => later.within (fits fit)⟩
    · exact ⟨fun fit => later.after (fits fit),
        fun fit => later.within (fits fit)⟩
  · obtain same | same := used (s.procs pid).faults <;> rw [same] at crash
    · exact crash
    · exact crash
  · obtain same | same := used (s.procs pid).faults <;> rw [same] at shutdown
    · exact shutdown
    · exact shutdown

/-! ## Tables only grow -/

theorem newLife_tables (registered : pid < s.nprocs) :
    (s.newLife pid).nprocs = s.nprocs + 1 ∧
      (s.newLife pid).nthreads = s.nthreads + 1 := by
  obtain ⟨_, _, _, _, _, _, _, same, -⟩ := newLife_eq registered
  rw [same]
  exact ⟨rfl, rfl⟩

theorem rearm_eq (s : State) (pid : Pid) :
    ∃ overflow again, s.rearm pid =
        { s with overflow := overflow }.modifyProc pid (.setAlarmAt again) ∧
      (s.overflow = true → overflow = true) ∧
      again = (if (s.procs pid).alarmInterval = 0 then 0
        else wrappingAdd s.clockNs (s.procs pid).alarmInterval) := by
  unfold rearm
  dsimp only
  split
  · next once => exact ⟨s.overflow, 0, rfl, id, rfl⟩
  · next again =>
      exact ⟨_, _, rfl, fun isOver => by rw [isOver]; rfl, rfl⟩

theorem rearm_tables (s : State) (pid : Pid) :
    (s.rearm pid).nprocs = s.nprocs ∧ (s.rearm pid).nthreads = s.nthreads := by
  obtain ⟨overflow, again, same, -⟩ := s.rearm_eq pid
  rw [same]
  exact ⟨rfl, rfl⟩

theorem wakeFirst_tables (s : State) (pid : Pid) :
    (s.wakeFirst pid).nprocs = s.nprocs ∧
      (s.wakeFirst pid).nthreads = s.nthreads := by
  unfold wakeFirst
  split <;> exact ⟨rfl, rfl⟩

/-- What a timer that is due does. -/
theorem fireAlarm_due
    {due : Nat}
    (pending : (s.procs pid).pendingAlarm = some due)
    (reached : due ≤ s.clockNs) :
    s.fireAlarm pid =
      ((s.rearm pid).modifyProc pid (.addSignal sigalrm)).wakeFirst pid := by
  unfold fireAlarm
  rw [pending]
  exact if_neg (by omega)

/-- What the stop of the run does to a thread. -/
theorem stopRun_thread (s : State) (id : ThreadId) :
    s.stopRun.threads id = s.threads id ∨
      s.stopRun.threads id = (s.threads id).setState .runnable ∧
        id < s.nthreads ∧ (s.threads id).state ≠ .exited := by
  unfold stopRun mapLive
  dsimp only
  split
  · next inside =>
      split
      · next stopped => exact .inr ⟨rfl, inside, stopped.1⟩
      · exact .inl rfl
  · exact .inl rfl

/-- What the stop of the run does to a process. -/
theorem stopRun_proc (s : State) (pid : Pid) :
    s.stopRun.procs pid = s.procs pid ∨
      s.stopRun.procs pid = { s.procs pid with stopped := true } := by
  unfold stopRun mapProcs mapLive
  dsimp only
  split
  · split
    · exact .inr rfl
    · exact .inl rfl
  · exact .inl rfl

theorem Change.tables (change : Change s later) :
    later.nprocs = s.nprocs ∧ later.nthreads = s.nthreads := by
  cases change with
  | alarm pid _ pending reached =>
      rw [fireAlarm_due pending reached, (wakeFirst_tables _ pid).1,
        (wakeFirst_tables _ pid).2]
      exact s.rearm_tables pid
  | _ => exact ⟨rfl, rfl⟩

theorem Changes.tables (changes : Changes s later) :
    later.nprocs = s.nprocs ∧ later.nthreads = s.nthreads :=
  Changes.keep (P := fun later =>
      later.nprocs = s.nprocs ∧ later.nthreads = s.nthreads)
    (fun change same => by rw [change.tables.1, change.tables.2]; exact same)
    changes ⟨rfl, rfl⟩

theorem Deeds.tables (deeds : Deeds s later) :
    s.nprocs ≤ later.nprocs ∧ s.nthreads ≤ later.nthreads := by
  refine Deeds.keep (P := fun later =>
      s.nprocs ≤ later.nprocs ∧ s.nthreads ≤ later.nthreads)
    (fun change grown => ?_) (fun _ grown => grown) (fun _ _ _ grown => grown)
    (fun restarts grown => ?_) deeds ⟨le_rfl, le_rfl⟩
  · rw [change.tables.1, change.tables.2]
    exact grown
  · obtain ⟨procs, threads⟩ := newLife_tables restarts.registered
    omega

theorem newLife_restarts (registered : pid < s.nprocs) :
    (s.newLife pid).restarts = s.restarts + 1 := by
  obtain ⟨_, _, _, _, _, _, _, same, -⟩ := newLife_eq registered
  rw [same]
  rfl

/-- Nobody begins a life by a change. -/
theorem Change.restarts (change : Change s later) :
    later.restarts = s.restarts := by
  cases change with
  | alarm pid _ pending reached =>
      obtain ⟨_, _, same, -⟩ := s.rearm_eq pid
      rw [fireAlarm_due pending reached, same]
      unfold wakeFirst
      split <;> rfl
  | _ => rfl

theorem Changes.restarts (changes : Changes s later) :
    later.restarts = s.restarts :=
  Changes.keep (P := fun later => later.restarts = s.restarts)
    (fun change same => change.restarts.trans same) changes rfl

theorem Deeds.restarts_le (deeds : Deeds s later) :
    s.restarts ≤ later.restarts := by
  refine Deeds.keep (P := fun later => s.restarts ≤ later.restarts)
    (fun change grown => grown.trans_eq change.restarts.symm)
    (fun _ grown => grown) (fun _ _ _ grown => grown)
    (fun restarts grown => ?_) deeds le_rfl
  rw [newLife_restarts restarts.registered]
  exact Nat.le_succ_of_le grown

/-! ## The handlers -/

theorem deeds_injectDueCrash
    (registered : pid < s.nprocs) : Deeds s (s.injectDueCrash pid) := by
  unfold injectDueCrash
  split
  · next due pending =>
      split
      · exact .refl
      · next reached =>
          have strike : Deeds s ((s.modifyProc pid .useUpCrash).crash pid) :=
            .single (.strike pid registered pending (by omega))
          exact strike.tail (.change (.count _ _ _ _ _ _ id))
  · exact .refl

/-- What one process after the other goes through. -/
theorem deeds_foldl
    {handle : State → Pid → State}
    (handled : ∀ s pid, pid < s.nprocs → Deeds s (handle s pid))
    (pids : List Pid)
    (registered : ∀ pid ∈ pids, pid < s.nprocs) :
    Deeds s (pids.foldl handle s) := by
  induction pids generalizing s with
  | nil => exact .refl
  | cons pid pids inductionHypothesis =>
      have first := handled s pid (registered pid List.mem_cons_self)
      refine first.trans (inductionHypothesis fun other later => ?_)
      exact (registered other (List.mem_cons_of_mem _ later)).trans_le
        (Deeds.tables first).1

theorem deeds_pids
    {handle : State → Pid → State}
    (handled : ∀ s pid, pid < s.nprocs → Deeds s (handle s pid))
    (s : State) : Deeds s (s.pids.foldl handle s) :=
  deeds_foldl handled s.pids fun _ present => List.mem_range.1 present

theorem deeds_injectDueCrashes (s : State) : Deeds s s.injectDueCrashes :=
  deeds_pids (fun _ _ => deeds_injectDueCrash) s

theorem changes_noteAdd (s : State) (a b : Nat) : Changes s (s.noteAdd a b) :=
  .single (.count _ _ _ _ _ _ fun isOver => by rw [isOver]; rfl)

theorem deeds_injectDueShutdown
    (registered : pid < s.nprocs) : Deeds s (s.injectDueShutdown pid) := by
  unfold injectDueShutdown
  dsimp only
  split
  · exact .refl
  next alive =>
  rw [not_not] at alive
  split
  · have crash : Deeds s (s.crash pid) := .single (.crash pid ⟨registered, alive⟩)
    exact crash.tail (.change (.count _ _ _ _ _ _ id))
  split
  · exact .refl
  · next ahead =>
      rw [not_or, not_lt] at ahead
      have noted := changes_noteAdd s s.clockNs
        (max 1 (s.procs pid).faults.graceNs)
      have graced : Changes (s.noteAdd s.clockNs
            (max 1 (s.procs pid).faults.graceNs))
          ((s.noteAdd s.clockNs (max 1 (s.procs pid).faults.graceNs)).graced
            pid) :=
        .single (.grace pid ⟨registered, alive⟩ ahead.1 ahead.2 fun fits =>
          (Bool.or_eq_false_iff.1 fits).2)
      have signalled := (noted.trans graced).tail
        (.signal pid (s.procs pid).faults.shutdownSignal registered)
      exact Changes.deeds
        ((signalled.trans (changes_wakeIo _)).tail (.count _ _ _ _ _ _ id))

theorem deeds_injectDueShutdowns (s : State) : Deeds s s.injectDueShutdowns :=
  deeds_pids (fun _ _ => deeds_injectDueShutdown) s

theorem changes_stopIfDue (s : State) : Changes s s.stopIfDue := by
  unfold stopIfDue
  split
  · next due pending =>
      split
      · next reached => exact .single (.stop pending reached)
      · exact .refl
  · exact .refl

theorem changes_fireAlarm
    (registered : pid < s.nprocs) : Changes s (s.fireAlarm pid) := by
  cases pending : (s.procs pid).pendingAlarm with
  | none =>
      unfold fireAlarm
      rw [pending]
  | some due =>
      by_cases reached : due ≤ s.clockNs
      · exact .single (.alarm pid registered pending reached)
      · unfold fireAlarm
        rw [pending]
        simp only
        rw [if_pos (by omega)]

theorem deeds_fireAlarms (s : State) : Deeds s s.fireAlarms :=
  deeds_pids (fun _ _ registered => Changes.deeds (changes_fireAlarm registered)) s

/-- What is due happens as a chain of changes and crashes. -/
theorem deeds_handleDue (s : State) : Deeds s s.handleDue := by
  have arrived := (changes_stopIfDue s).trans (changes_clockMoved _)
  have crashed := (Changes.deeds arrived).trans (deeds_injectDueCrashes _)
  have shutDown := crashed.trans (deeds_injectDueShutdowns _)
  have expired := shutDown.trans (Changes.deeds (changes_expireDeadlines _))
  exact expired.trans (deeds_fireAlarms _)

end State
end Derp
