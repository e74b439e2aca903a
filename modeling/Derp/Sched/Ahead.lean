import Derp.Net.Arrivals
import Derp.Sched.Parked

/-!
# What is scheduled is scheduled for later

The handlers of due events may schedule new ones: a crash registers a life that begins and
is crashed later, a shutdown begins a grace period, and the sockets of a dead process close.
None of these is due at once, as long as the sums of times fit.
-/

namespace Derp

/-- What is ahead of a life: a crash, its shutdown signal, and the end of its grace
period. -/
inductive Fault
  | crash
  | shutdown
  | grace

namespace ProcRec

def timeOf (p : ProcRec) : Fault → Nat
  | .crash => p.crashAt
  | .shutdown => p.shutdownAt
  | .grace => p.killAt

/-- A fault is not due, if one is ahead at all. -/
def Spared (now : Nat) (fault : Fault) (p : ProcRec) : Prop :=
  p.alive = true → p.timeOf fault = 0 ∨ now < p.timeOf fault

variable
  {now : Nat}
  {fault : Fault}
  {p p' : ProcRec}

theorem Spared.congr
    (alive : p'.alive = true → p.alive = true)
    (same : p'.timeOf fault = p.timeOf fault)
    (spared : p.Spared now fault) : p'.Spared now fault := fun lives =>
  same ▸ spared (alive lives)

theorem spared_of_dead (dead : p.alive = false) : p.Spared now fault := fun lives =>
  nomatch dead.symm.trans lives

end ProcRec

namespace State

variable
  {s middle later : State}
  {pid : Pid}
  {id : ThreadId}
  {fault : Fault}

/-- Nothing is ahead of a process that was never registered. -/
def Blank (s : State) : Prop :=
  ∀ pid, s.nprocs ≤ pid → (s.procs pid).killAt = 0

/-- No fault comes to be due, unless a sum of times does not fit. -/
structure Postpones (s later : State) : Prop where
  clock : later.clockNs = s.clockNs
  nprocs : s.nprocs ≤ later.nprocs
  overflow : s.overflow = true → later.overflow = true
  blank : s.Blank → later.Blank
  spared : later.overflow = false → ∀ fault, ∀ pid < s.nprocs,
    (s.procs pid).Spared s.clockNs fault → (later.procs pid).Spared s.clockNs fault
  born : later.overflow = false → s.Blank → ∀ fault pid, s.nprocs ≤ pid →
    pid < later.nprocs → (later.procs pid).Spared s.clockNs fault

theorem Postpones.fits
    (postpones : Postpones s later)
    (fits : later.overflow = false) : s.overflow = false :=
  Bool.eq_false_iff.2 fun isOver => nomatch fits.symm.trans (postpones.overflow isOver)

theorem Postpones.trans
    (first : Postpones s middle)
    (second : Postpones middle later) : Postpones s later where
  clock := second.clock.trans first.clock
  nprocs := first.nprocs.trans second.nprocs
  overflow := fun isOver => second.overflow (first.overflow isOver)
  blank := fun blank => second.blank (first.blank blank)
  spared := fun fits fault pid inside spared => by
    have between := first.spared (second.fits fits) fault pid inside spared
    rw [← first.clock] at between ⊢
    exact second.spared fits fault pid (inside.trans_le first.nprocs) between
  born := fun fits blank fault pid outside inside => by
    rw [← first.clock]
    by_cases between : pid < middle.nprocs
    · refine second.spared fits fault pid between ?_
      rw [first.clock]
      exact first.born (second.fits fits) blank fault pid outside between
    · exact second.born fits (first.blank blank) fault pid (not_lt.1 between) inside

/-- Other records in a table of the same length. -/
theorem postpones_of_records
    (clock : later.clockNs = s.clockNs)
    (nprocs : later.nprocs = s.nprocs)
    (overflow : s.overflow = true → later.overflow = true)
    (blank : ∀ pid, s.nprocs ≤ pid → (later.procs pid).killAt = (s.procs pid).killAt)
    (spared : later.overflow = false → ∀ pid fault,
      (s.procs pid).Spared s.clockNs fault → (later.procs pid).Spared s.clockNs fault) :
    Postpones s later where
  clock := clock
  nprocs := nprocs.ge
  overflow := overflow
  blank := fun before pid outside => by
    rw [nprocs] at outside
    rw [blank pid outside, before pid outside]
  spared := fun fits fault pid _ => spared fits pid fault
  born := fun _ _ _ _ outside inside =>
    absurd (inside.trans_eq nprocs) (not_lt.2 outside)

/-- Other records of processes that have the same times ahead. -/
theorem postpones_of_times
    (clock : later.clockNs = s.clockNs)
    (nprocs : later.nprocs = s.nprocs)
    (overflow : s.overflow = true → later.overflow = true)
    (procs : ∀ pid, ((later.procs pid).alive = true → (s.procs pid).alive = true) ∧
      ∀ fault, (later.procs pid).timeOf fault = (s.procs pid).timeOf fault) :
    Postpones s later :=
  postpones_of_records clock nprocs overflow (fun pid _ => (procs pid).2 .grace)
    fun _ pid fault => .congr (procs pid).1 ((procs pid).2 fault)

theorem postpones_of_eq
    (clock : later.clockNs = s.clockNs)
    (nprocs : later.nprocs = s.nprocs)
    (overflow : s.overflow = true → later.overflow = true)
    (procs : later.procs = s.procs) : Postpones s later :=
  postpones_of_times clock nprocs overflow fun pid => by
    rw [procs]
    exact ⟨id, fun _ => rfl⟩

theorem Postpones.refl (s : State) : Postpones s s := postpones_of_eq rfl rfl id rfl

theorem postpones_modifyProc
    (s : State)
    (pid : Pid)
    {change : ProcRec → ProcRec}
    (alive : (change (s.procs pid)).alive = true → (s.procs pid).alive = true)
    (times : ∀ fault, (change (s.procs pid)).timeOf fault = (s.procs pid).timeOf fault) :
    Postpones s (s.modifyProc pid change) := by
  refine postpones_of_times rfl rfl id fun other => ?_
  unfold modifyProc
  dsimp only
  by_cases same : other = pid
  · subst same
    rw [Function.update_self]
    exact ⟨alive, times⟩
  · rw [Function.update_of_ne same]
    exact ⟨id, fun _ => rfl⟩

theorem timeOf_noise
    {p p' : ProcRec}
    (noise : p.Noise p') : p'.alive = p.alive ∧ ∀ fault, p'.timeOf fault = p.timeOf fault := by
  obtain ⟨_, _, _, _, rfl⟩ := noise
  refine ⟨rfl, fun fault => ?_⟩
  cases fault <;> rfl

/-- A shutdown begins: its grace period ends later. -/
theorem postpones_graced
    (registered : pid < s.nprocs)
    (noted : s.overflow = false →
      addOverflows s.clockNs (max 1 (s.procs pid).faults.graceNs) = false) :
    Postpones s (s.graced pid) := by
  have others {other : Pid} (apart : other ≠ pid) :
      (s.graced pid).procs other = s.procs other := by
    unfold graced modifyProc
    dsimp only
    rw [Function.update_of_ne apart, Function.update_of_ne apart]
  have itself : (s.graced pid).procs pid = (s.procs pid).useUpShutdown.beginGrace
      (wrappingAdd s.clockNs (max 1 (s.procs pid).faults.graceNs)) := by
    unfold graced modifyProc
    dsimp only
    rw [Function.update_self, Function.update_self]
  have used : (s.procs pid).useUpShutdown.crashAt = (s.procs pid).crashAt ∧
      (s.procs pid).useUpShutdown.alive = (s.procs pid).alive := by
    unfold ProcRec.useUpShutdown
    split <;> exact ⟨rfl, rfl⟩
  refine postpones_of_records rfl rfl id (fun other outside => ?_)
    fun fits other fault spared => ?_
  · rw [others (registered.trans_le outside).ne']
  · by_cases same : other = pid
    · subst same
      rw [itself]
      cases fault with
      | crash => exact spared.congr (fun lives => used.2.symm.trans lives) used.1
      | shutdown => exact fun _ => .inl rfl
      | grace =>
          refine fun _ => .inr ?_
          change s.clockNs < wrappingAdd s.clockNs _
          rw [addOverflows_false (noted fits)]
          omega
    · rw [others same]
      exact spared

theorem Change.postpones (change : Change s later) : Postpones s later := by
  cases change with
  | count _ _ _ _ _ _ isOver => exact postpones_of_eq rfl rfl isOver rfl
  | wake => exact postpones_of_eq rfl rfl id rfl
  | net => exact postpones_of_eq rfl rfl id rfl
  | noise noise =>
      exact postpones_of_times rfl rfl id fun pid =>
        ⟨fun lives => (timeOf_noise (noise pid)).1.symm.trans lives,
          (timeOf_noise (noise pid)).2⟩
  | signal pid sig =>
      have times (fault : Fault) :
          ((s.procs pid).addSignal sig).timeOf fault = (s.procs pid).timeOf fault := by
        cases fault <;> rfl
      exact (postpones_modifyProc s pid id times).trans (postpones_of_eq rfl rfl id rfl)
  | alarm pid _ pending reached =>
      obtain ⟨isOver, again, same, grows, -⟩ := s.rearm_eq pid
      have times (fault : Fault) : (((s.procs pid).setAlarmAt again).addSignal sigalrm).timeOf
          fault = (s.procs pid).timeOf fault := by
        cases fault <;> rfl
      have rearmed : Postpones s ((s.rearm pid).modifyProc pid (.addSignal sigalrm)) := by
        refine postpones_of_times ?_ ?_ ?_ fun other => ?_
        · rw [same]
          rfl
        · rw [same]
          rfl
        · rw [same]
          exact grows
        · rw [same]
          unfold modifyProc
          dsimp only
          rw [Function.update_self, Function.update_idem]
          by_cases isPid : other = pid
          · subst isPid
            rw [Function.update_self]
            exact ⟨id, times⟩
          · rw [Function.update_of_ne isPid]
            exact ⟨id, fun _ => rfl⟩
      rw [fireAlarm_due pending reached]
      refine rearmed.trans ?_
      unfold wakeFirst
      split
      · exact postpones_of_eq rfl rfl id rfl
      · exact .refl _
  | stop =>
      refine postpones_of_times rfl rfl id fun pid => ?_
      obtain same | same := s.stopRun_proc pid <;> rw [same]
      · exact ⟨id, fun _ => rfl⟩
      · refine ⟨id, fun fault => ?_⟩
        cases fault <;> rfl
  | grace pid alive _ _ noted => exact postpones_graced alive.1 noted

theorem postpones_killed (registered : pid < s.nprocs) : Postpones s (s.killed pid) := by
  have others {other : Pid} (apart : other ≠ pid) :
      (s.killed pid).procs other = s.procs other := Function.update_of_ne apart ..
  refine postpones_of_records rfl rfl id (fun other outside => ?_)
    fun _ other fault spared => ?_
  · rw [others (registered.trans_le outside).ne']
  · by_cases same : other = pid
    · subst same
      exact ProcRec.spared_of_dead (dead_killed registered).2
    · rw [others same]
      exact spared

theorem postpones_struck (registered : pid < s.nprocs) : Postpones s (s.struck pid) := by
  have used : (s.procs pid).useUpCrash.alive = (s.procs pid).alive ∧
      ∀ fault, (s.procs pid).useUpCrash.timeOf fault = (s.procs pid).timeOf fault := by
    unfold ProcRec.useUpCrash
    split
    · exact ⟨rfl, fun _ => rfl⟩
    · refine ⟨rfl, fun fault => ?_⟩
      cases fault <;> rfl
  exact (postpones_modifyProc s pid (fun lives => used.1.symm.trans lives) used.2).trans
    (postpones_killed registered)

/-- A time that is drawn for a life that begins later is later. -/
theorem spared_of_inLife
    {now starts lo hi left at' : Nat}
    {isOver : Bool}
    (inLife : InLife starts lo hi left at' isOver)
    (fits : isOver = false)
    (later : now < starts) : at' = 0 ∨ now < at' := by
  by_cases never : hi = 0 ∨ left = 0
  · exact .inl (inLife.never never)
  · exact .inr (later.trans_le (inLife.after never fits))

/-- The next life begins later, and so do its faults. -/
theorem postpones_newLife (registered : pid < s.nprocs) : Postpones s (s.newLife pid) := by
  obtain ⟨faultRng, isOver, starts, priority, crashAt, shutdownAt, pctRng, same, grows, -,
    start, crash, shutdown⟩ := newLife_eq registered
  rw [same]
  have apart : s.nprocs ≠ pid := registered.ne'
  refine ⟨rfl, Nat.le_succ _, grows, fun blank other outside => ?_,
    fun fits fault other inside spared => ?_,
    fun fits blank fault other outside inside => ?_⟩
  · change s.nprocs + 1 ≤ other at outside
    rw [born_procs, if_neg (Nat.lt_of_succ_le outside).ne',
      if_neg (registered.trans (Nat.lt_of_succ_le outside)).ne']
    exact blank other (Nat.le_of_succ_le outside)
  · rw [born_procs, if_neg inside.ne]
    split
    · next isVictim =>
        subst isVictim
        refine spared.congr id ?_
        cases fault <;> rfl
    · exact spared
  · change other < s.nprocs + 1 at inside
    obtain rfl : other = s.nprocs := Nat.le_antisymm (Nat.le_of_lt_succ inside) outside
    rw [born_procs, if_pos rfl]
    have begins := start.after fits
    cases fault with
    | crash => exact fun _ => spared_of_inLife crash fits begins
    | shutdown => exact fun _ => spared_of_inLife shutdown fits begins
    | grace => exact fun _ => .inl (blank _ le_rfl)

theorem Deeds.postpones (deeds : Deeds s later) : Postpones s later :=
  Deeds.keep (P := Postpones s)
    (fun change before => before.trans change.postpones)
    (fun alive before => before.trans (postpones_killed alive.1))
    (fun registered _ _ before => before.trans (postpones_struck registered))
    (fun restarts before => before.trans (postpones_newLife restarts.registered))
    deeds (.refl s)

end State
end Derp
