import Derp.Sched.Kinds
import Derp.Sched.Tidy

/-!
# Condemned processes

A process is condemned by a crash and by nothing else.  Everything that a critical section
does to the run is a chain of condemnations and of changes that leave every process's fate
as it is: whether it is condemned, was signalled, is waited for, and what its real pid is.
-/

namespace Derp

/-- The records agree about the death of their process. -/
structure ProcRec.SameFate (p p' : ProcRec) : Prop where
  killed : p'.killed = p.killed
  signalled : p'.signalled = p.signalled
  unsettled : p'.unsettled = p.unsettled
  realPid : p'.realPid = p.realPid

theorem ProcRec.SameFate.refl (p : ProcRec) : p.SameFate p := ⟨rfl, rfl, rfl, rfl⟩

theorem ProcRec.SameFate.trans {p p' p'' : ProcRec} (first : p.SameFate p')
    (second : p'.SameFate p'') : p.SameFate p'' :=
  ⟨second.killed.trans first.killed, second.signalled.trans first.signalled,
    second.unsettled.trans first.unsettled, second.realPid.trans first.realPid⟩

namespace State

variable {s middle later : State} {pid victim : Pid} {id : ThreadId} {fuel : Nat}

/-! ## Peace -/

/-- Nobody is condemned, signalled or waited out, and nobody attaches or exits. -/
structure Peaceful (s later : State) : Prop where
  nprocs : s.nprocs ≤ later.nprocs
  unsignalled : later.unsignalled = s.unsignalled
  unsettled : later.unsettled = s.unsettled
  fate : ∀ pid, (s.procs pid).SameFate (later.procs pid)
  state : ∀ pid < s.nprocs, (later.procs pid).state = (s.procs pid).state

theorem Peaceful.trans (first : Peaceful s middle) (second : Peaceful middle later) :
    Peaceful s later where
  nprocs := first.nprocs.trans second.nprocs
  unsignalled := second.unsignalled.trans first.unsignalled
  unsettled := second.unsettled.trans first.unsettled
  fate := fun pid => (first.fate pid).trans (second.fate pid)
  state := fun pid registered =>
    (second.state pid (registered.trans_le first.nprocs)).trans (first.state pid registered)

/-- The tables of processes are the same. -/
theorem Peaceful.of_procs (nprocs : later.nprocs = s.nprocs)
    (unsignalled : later.unsignalled = s.unsignalled) (unsettled : later.unsettled = s.unsettled)
    (procs : later.procs = s.procs) : Peaceful s later where
  nprocs := nprocs.ge
  unsignalled := unsignalled
  unsettled := unsettled
  fate := fun pid => by
    rw [procs]
    exact .refl _
  state := fun pid _ => by rw [procs]

theorem Peaceful.refl (s : State) : Peaceful s s := .of_procs rfl rfl rfl rfl

theorem peaceful_mapLive (s : State) (change : ThreadRec → ThreadRec) :
    Peaceful s (s.mapLive change) := .of_procs rfl rfl rfl rfl

theorem peaceful_wakeIo (s : State) : Peaceful s s.wakeIo := peaceful_mapLive s _

theorem peaceful_setNet (s : State) (net : Net) : Peaceful s (s.setNet net) :=
  .of_procs rfl rfl rfl rfl

theorem peaceful_noteAdd (s : State) (a b : Nat) : Peaceful s (s.noteAdd a b) :=
  .of_procs rfl rfl rfl rfl

theorem procs_modifyProc (s : State) (pid other : Pid) (change : ProcRec → ProcRec) :
    (s.modifyProc pid change).procs other =
      if other = pid then change (s.procs pid) else s.procs other :=
  Function.update_apply _ _ _ _

theorem peaceful_modifyProc {change : ProcRec → ProcRec}
    (fate : (s.procs pid).SameFate (change (s.procs pid)))
    (state : pid < s.nprocs → (change (s.procs pid)).state = (s.procs pid).state) :
    Peaceful s (s.modifyProc pid change) := by
  refine ⟨le_rfl, rfl, rfl, fun other => ?_, fun other registered => ?_⟩
  · rw [procs_modifyProc]
    split
    · rename_i same
      rw [same]
      exact fate
    · exact .refl _
  · rw [procs_modifyProc]
    split
    · rename_i same
      rw [same] at registered ⊢
      exact state registered
    · rfl

theorem peaceful_mapProcs {change : ProcRec → ProcRec}
    (fate : ∀ p : ProcRec, p.SameFate (change p)) (state : ∀ p, (change p).state = p.state) :
    Peaceful s (s.mapProcs change) := by
  refine ⟨le_rfl, rfl, rfl, fun pid => ?_, fun pid registered => ?_⟩
  · unfold mapProcs
    dsimp only
    split
    · exact fate _
    · exact .refl _
  · unfold mapProcs
    dsimp only
    rw [if_pos registered]
    exact state _

theorem peaceful_foldl {handle : State → Pid → State}
    (handled : ∀ s pid, Peaceful s (handle s pid)) (pids : List Pid) :
    Peaceful s (pids.foldl handle s) := by
  induction pids generalizing s with
  | nil => exact .refl s
  | cons pid pids ih => exact (handled s pid).trans ih

/-! ## What is peaceful -/

theorem peaceful_tellParent (s : State) (child : Pid) : Peaceful s (s.tellParent child) := by
  unfold tellParent
  split
  · rename_i parent _
    have told : Peaceful s (s.modifyProc parent (.noteChild child)) :=
      peaceful_modifyProc ⟨rfl, rfl, rfl, rfl⟩ fun _ => rfl
    exact told.trans (peaceful_mapLive _ _)
  · exact .refl s

theorem peaceful_closeDown (s : State) (pid : Pid) : Peaceful s (s.closeDown pid) := by
  have closed : Peaceful s (s.setNet (s.net.processDied pid)).wakeIo :=
    (peaceful_setNet s _).trans (peaceful_mapLive _ _)
  exact closed.trans (peaceful_tellParent _ pid)

theorem peaceful_newLife (registered : pid < s.nprocs) : Peaceful s (s.newLife pid) := by
  obtain ⟨faultRng, overflow, starts, priority, crashAt, shutdownAt, pctRng, same, -⟩ :=
    newLife_eq registered
  rw [same]
  refine ⟨Nat.le_succ _, rfl, rfl, fun other => ?_, fun other old => ?_⟩
  · rw [born_procs]
    split
    · rename_i isNew
      rw [isNew]
      exact ⟨rfl, rfl, rfl, rfl⟩
    · split
      · rename_i isVictim
        rw [isVictim]
        exact ⟨rfl, rfl, rfl, rfl⟩
      · exact .refl _
  · rw [born_procs, if_neg old.ne]
    split
    · rename_i isVictim
      rw [isVictim]
      rfl
    · rfl

theorem peaceful_registerRestart (registered : pid < s.nprocs) (status : Int) :
    Peaceful s (s.registerRestart pid status) := by
  unfold registerRestart
  split
  · exact .refl s
  · split
    · exact .refl s
    · exact peaceful_newLife registered

theorem peaceful_clockMoved (s : State) : Peaceful s s.clockMoved := by
  unfold clockMoved
  dsimp only
  split
  · exact (peaceful_setNet s _).trans (peaceful_mapLive _ _)
  · exact peaceful_setNet s _

theorem peaceful_stopRun (s : State) : Peaceful s s.stopRun := by
  have stops : Peaceful s { s with stopped := true } := .of_procs rfl rfl rfl rfl
  have marked : Peaceful { s with stopped := true }
      ({ s with stopped := true }.mapProcs fun p =>
        if p.alive then { p with stopped := true } else p) := by
    refine peaceful_mapProcs (fun p => ?_) fun p => ?_
    · split
      · exact ⟨rfl, rfl, rfl, rfl⟩
      · exact .refl p
    · split
      · rfl
      · rfl
  unfold stopRun
  dsimp only
  exact (stops.trans marked).trans (peaceful_mapLive _ _)

theorem peaceful_stopIfDue (s : State) : Peaceful s s.stopIfDue := by
  unfold stopIfDue
  split
  · split
    · exact peaceful_stopRun s
    · exact .refl s
  · exact .refl s

theorem peaceful_fireAlarm (s : State) (pid : Pid) : Peaceful s (s.fireAlarm pid) := by
  unfold fireAlarm
  split
  · split
    · exact .refl s
    · obtain ⟨overflow, again, same, -⟩ := s.rearm_eq pid
      have counted : Peaceful s { s with overflow := overflow } := .of_procs rfl rfl rfl rfl
      have set : Peaceful { s with overflow := overflow }
          ({ s with overflow := overflow }.modifyProc pid (.setAlarmAt again)) :=
        peaceful_modifyProc ⟨rfl, rfl, rfl, rfl⟩ fun _ => rfl
      have noted : Peaceful (s.rearm pid) ((s.rearm pid).modifyProc pid (.addSignal sigalrm)) :=
        peaceful_modifyProc ⟨rfl, rfl, rfl, rfl⟩ fun _ => rfl
      have woken : Peaceful ((s.rearm pid).modifyProc pid (.addSignal sigalrm))
          (((s.rearm pid).modifyProc pid (.addSignal sigalrm)).wakeFirst pid) := by
        unfold wakeFirst
        split
        · exact .of_procs rfl rfl rfl rfl
        · exact .refl _
      exact ((counted.trans (same ▸ set)).trans noted).trans woken
  · exact .refl s

theorem peaceful_postSignal (s : State) (pid : Pid) (sig : Nat) :
    Peaceful s (s.postSignal pid sig) := by
  have noted : Peaceful s (s.modifyProc pid (.addSignal sig)) :=
    peaceful_modifyProc ⟨rfl, rfl, rfl, rfl⟩ fun _ => rfl
  exact noted.trans (peaceful_mapLive _ _)

theorem peaceful_drawCrash (s : State) (pid : Pid) (lifeStarts : Nat) :
    Peaceful s (s.drawCrash pid lifeStarts) := by
  obtain ⟨faultRng, overflow, crashAt, shutdownAt, same, -⟩ := s.drawCrash_eq pid lifeStarts
  have drawn : Peaceful s (s.drawn faultRng overflow) := .of_procs rfl rfl rfl rfl
  have crash : Peaceful (s.drawn faultRng overflow)
      ((s.drawn faultRng overflow).modifyProc pid (.setCrashAt crashAt)) :=
    peaceful_modifyProc ⟨rfl, rfl, rfl, rfl⟩ fun _ => rfl
  rw [same]
  exact (drawn.trans crash).trans (peaceful_modifyProc ⟨rfl, rfl, rfl, rfl⟩ fun _ => rfl)

theorem peaceful_condWakeLoop (cond : Nat) (all : Bool) (rounds : Nat) (s : State) :
    Peaceful s (condWakeLoop rounds s pid cond all) := by
  induction rounds generalizing s with
  | zero => exact .refl s
  | succ rounds ih =>
      unfold condWakeLoop
      split
      · exact .refl s
      · rename_i id _
        have signalled : Peaceful s (s.condSignal id) := .of_procs rfl rfl rfl rfl
        dsimp only
        split
        · exact signalled.trans (ih _)
        · exact signalled

/-! ## Condemnations -/

/-- The process is condemned, and counted with those to be signalled and, if it had
attached, to be waited out. -/
def condemned (s : State) (victim : Pid) : State :=
  { s.killed victim with unsignalled := s.unsignalled + 1 }.noteUnsettled victim

theorem crash_eq_condemned (s : State) (victim : Pid) :
    s.crash victim =
      ((s.condemned victim).closeDown victim).registerRestart victim killedStatus := rfl

theorem condemned_procs (s : State) (victim : Pid) :
    ((s.condemned victim).procs victim).killed = true ∧
      ((s.condemned victim).procs victim).signalled = (s.procs victim).signalled ∧
      ((s.condemned victim).procs victim).realPid = (s.procs victim).realPid ∧
      ((s.condemned victim).procs victim).state = (s.procs victim).state ∧
      ((s.condemned victim).procs victim).unsettled =
        ((s.procs victim).unsettled || (s.procs victim).state = .live) ∧
      ∀ other ≠ victim, (s.condemned victim).procs other = s.procs other := by
  have self : ({ s.killed victim with unsignalled := s.unsignalled + 1 }).procs victim =
      (s.procs victim).condemn s.clockNs := Function.update_self _ _ _
  have others : ∀ other ≠ victim,
      ({ s.killed victim with unsignalled := s.unsignalled + 1 }).procs other = s.procs other :=
    fun other different => Function.update_of_ne different _ _
  unfold condemned noteUnsettled
  rw [self]
  split
  · rename_i isLive
    have isLive : (s.procs victim).state = .live := isLive
    unfold modifyProc
    dsimp only
    rw [Function.update_self, self]
    refine ⟨rfl, rfl, rfl, rfl, ?_, fun other different => ?_⟩
    · rw [isLive, decide_eq_true rfl, Bool.or_true]
    · rw [Function.update_of_ne different]
      exact others other different
  · rename_i notLive
    have notLive : (s.procs victim).state ≠ .live := notLive
    rw [self]
    refine ⟨rfl, rfl, rfl, rfl, ?_, others⟩
    rw [decide_eq_false notLive, Bool.or_false]
    rfl

theorem condemned_counts (s : State) (victim : Pid) :
    (s.condemned victim).nprocs = s.nprocs ∧
      (s.condemned victim).unsignalled = s.unsignalled + 1 ∧
      (s.condemned victim).unsettled =
        s.unsettled + if (s.procs victim).state = .live then 1 else 0 := by
  have self : ({ s.killed victim with unsignalled := s.unsignalled + 1 }).procs victim =
      (s.procs victim).condemn s.clockNs := Function.update_self _ _ _
  unfold condemned noteUnsettled
  rw [self]
  split
  · rename_i isLive
    exact ⟨rfl, rfl, by rw [if_pos (show (s.procs victim).state = .live from isLive)]; rfl⟩
  · rename_i notLive
    exact ⟨rfl, rfl, by rw [if_neg (show (s.procs victim).state ≠ .live from notLive)]; rfl⟩

/-- A condemnation, or a peaceful change. -/
inductive Toll : State → State → Prop
  | peace {s later : State} : Peaceful s later → Toll s later
  | condemn {s : State} (victim : Pid) : s.Alive victim → Toll s (s.condemned victim)

abbrev Tolls : State → State → Prop :=
  Relation.ReflTransGen Toll

theorem Peaceful.tolls (peaceful : Peaceful s later) : Tolls s later :=
  .single (.peace peaceful)

theorem tolls_crash (alive : s.Alive victim) : Tolls s (s.crash victim) := by
  have condemn : Tolls s (s.condemned victim) := .single (.condemn victim alive)
  have closed := peaceful_closeDown (s.condemned victim) victim
  have registered : victim < ((s.condemned victim).closeDown victim).nprocs := by
    have := closed.nprocs
    rw [(s.condemned_counts victim).1] at this
    exact alive.1.trans_le this
  rw [crash_eq_condemned]
  exact (condemn.trans closed.tolls).trans
    (peaceful_registerRestart registered killedStatus).tolls

theorem Tolls.nprocs (tolls : Tolls s later) : s.nprocs ≤ later.nprocs := by
  induction tolls with
  | refl => exact le_rfl
  | tail _ toll ih =>
      cases toll with
      | peace peaceful => exact ih.trans peaceful.nprocs
      | condemn victim _ => exact ih.trans (condemned_counts _ victim).1.ge

/-- What one process after the other goes through. -/
theorem tolls_foldl {handle : State → Pid → State}
    (handled : ∀ s pid, pid < s.nprocs → Tolls s (handle s pid)) (pids : List Pid)
    (registered : ∀ pid ∈ pids, pid < s.nprocs) : Tolls s (pids.foldl handle s) := by
  induction pids generalizing s with
  | nil => exact .refl
  | cons pid pids ih =>
      have first := handled s pid (registered pid List.mem_cons_self)
      exact first.trans (ih fun other later =>
        (registered other (List.mem_cons_of_mem _ later)).trans_le first.nprocs)

theorem tolls_injectDueCrash (registered : pid < s.nprocs) :
    Tolls s (s.injectDueCrash pid) := by
  unfold injectDueCrash
  split
  · rename_i due pending
    split
    · exact .refl
    · have used : Peaceful s (s.modifyProc pid .useUpCrash) := by
        unfold ProcRec.useUpCrash
        refine peaceful_modifyProc ?_ fun _ => ?_
        · split
          · exact .refl _
          · exact ⟨rfl, rfl, rfl, rfl⟩
        · split
          · rfl
          · rfl
      have isAlive : (s.procs pid).alive = true := by
        unfold ProcRec.pendingCrash at pending
        split at pending
        · rename_i both
          exact both.2
        · cases pending
      have alive : (s.modifyProc pid .useUpCrash).Alive pid := by
        refine ⟨registered, ?_⟩
        have fate := used.fate pid
        have state := used.state pid registered
        unfold ProcRec.alive at isAlive ⊢
        rw [fate.killed, state]
        exact isAlive
      exact (used.tolls.trans (tolls_crash alive)).tail (.peace (.of_procs rfl rfl rfl rfl))
  · exact .refl

theorem tolls_injectDueShutdown (registered : pid < s.nprocs) :
    Tolls s (s.injectDueShutdown pid) := by
  unfold injectDueShutdown
  dsimp only
  split
  · exact .refl
  · rename_i alive
    split
    · exact (tolls_crash ⟨registered, not_not.mp alive⟩).tail
        (.peace (.of_procs rfl rfl rfl rfl))
    · split
      · exact .refl
      · have noted := peaceful_noteAdd s s.clockNs (max 1 (s.procs pid).faults.graceNs)
        have used : Peaceful (s.noteAdd s.clockNs (max 1 (s.procs pid).faults.graceNs))
            ((s.noteAdd s.clockNs (max 1 (s.procs pid).faults.graceNs)).modifyProc pid
              .useUpShutdown) := by
          unfold ProcRec.useUpShutdown
          refine peaceful_modifyProc ?_ fun _ => ?_
          · split
            · exact .refl _
            · exact ⟨rfl, rfl, rfl, rfl⟩
          · split
            · rfl
            · rfl
        refine ((noted.trans used).trans ?_).tolls
        generalize (s.noteAdd s.clockNs (max 1 (s.procs pid).faults.graceNs)).modifyProc pid
          .useUpShutdown = begun
        generalize wrappingAdd _ _ = due
        have graced : Peaceful begun (begun.modifyProc pid (.beginGrace due)) :=
          peaceful_modifyProc ⟨rfl, rfl, rfl, rfl⟩ fun _ => rfl
        have told := peaceful_postSignal (begun.modifyProc pid (.beginGrace due)) pid
          (s.procs pid).faults.shutdownSignal
        exact ((graced.trans told).trans (peaceful_wakeIo _)).trans (.of_procs rfl rfl rfl rfl)

theorem tolls_handleDue (s : State) : Tolls s s.handleDue := by
  have arrived := (peaceful_stopIfDue s).trans (peaceful_clockMoved _)
  have crashed : Tolls s s.stopIfDue.clockMoved.injectDueCrashes :=
    arrived.tolls.trans (tolls_foldl (fun _ _ => tolls_injectDueCrash) _
      fun _ present => List.mem_range.1 present)
  have shutDown : Tolls s s.stopIfDue.clockMoved.injectDueCrashes.injectDueShutdowns :=
    crashed.trans (tolls_foldl (fun _ _ => tolls_injectDueShutdown) _
      fun _ present => List.mem_range.1 present)
  have expired : Tolls s
      s.stopIfDue.clockMoved.injectDueCrashes.injectDueShutdowns.expireDeadlines :=
    shutDown.tail (.peace (peaceful_mapLive _ _))
  exact expired.trans (peaceful_foldl peaceful_fireAlarm _).tolls

/-! ## Choices and deaths -/

theorem Choice.peaceful (choice : Choice s later) : Peaceful s later := by
  cases choice
  exact .of_procs rfl rfl rfl rfl

theorem peaceful_streams (s : State) (rng faultRng pauseRng pctRng : Rng) :
    Peaceful s
      { s with
        reseeded := true
        rng := rng
        faultRng := faultRng
        pauseRng := pauseRng
        pctRng := pctRng } := .of_procs rfl rfl rfl rfl

theorem Chooses.tolls {found : Bool} (chooses : Chooses fuel s middle found) :
    Tolls s middle := by
  have entered : Tolls s s.entered := by
    have reseeded : Peaceful s s.reseedIfDue := by
      unfold reseedIfDue
      split
      · exact peaceful_streams s _ _ _ _
      · exact .refl s
    exact reseeded.tolls.trans (tolls_handleDue _)
  refine (Loop.run_invariant (Tolls s) (fun round tolled _ => ?_) entered chooses).1
  unfold pickRound
  split
  · exact tolled
  · rename_i next _
    have jumped : Peaceful round (round.jump next) := .of_procs rfl rfl rfl rfl
    exact (tolled.trans jumped.tolls).trans (tolls_handleDue _)

theorem tolls_choose {me : Option ThreadId} {site : UInt64} {handoff : Handoff}
    (chosen : s.choose fuel me site = some (later, handoff)) : Tolls s later := by
  obtain ⟨middle, ⟨chooses, given⟩ | ⟨chooses, rfl, -⟩⟩ := choose_eq_some_iff.1 chosen
  · obtain rfl := congrArg Prod.fst given
    have choice := (chooseThread_spec chooses.runnable).1.peaceful
    obtain ⟨_, _, _, _, _, _, same⟩ :=
      middle.chooseThread.1.giveBaton_eq me middle.chooseThread.2 site
    rw [same]
    exact (chooses.tolls.trans choice.tolls).tail (.peace (.of_procs rfl rfl rfl rfl))
  · exact chooses.tolls

theorem tolls_handOff {src : Option (ThreadId × ThreadState × Nat)} {site : UInt64}
    {handoff : Handoff} (handed : s.handOff fuel src site = some (later, handoff)) :
    Tolls s later := by
  have recorded : Peaceful s (s.recorded src) := by
    cases src with
    | none => exact .refl s
    | some giver => exact .of_procs rfl rfl rfl rfl
  exact recorded.tolls.trans (tolls_choose handed)

/-- Behind the note of the exit a report of a death is peaceful, up to the hand-off. -/
theorem tolls_processDied {status : Int} {handoff : Option Handoff} (registered : pid < s.nprocs)
    (died : s.processDied fuel pid status = some (later, handoff)) :
    Tolls (s.noteExit pid status) later := by
  have mourned : Peaceful (s.noteExit pid status) ((s.noteExit pid status).mourn pid status) := by
    rw [mourn_eq]
    refine (peaceful_registerRestart (show pid < (s.noteExit pid status).nprocs from registered)
      status).trans (Peaceful.trans ?_ (peaceful_closeDown _ pid))
    exact peaceful_modifyProc ⟨rfl, rfl, rfl, rfl⟩ fun _ => rfl
  have buried : Peaceful (s.noteExit pid status) (s.buried pid status) := by
    rw [buried_eq]
    split
    · exact .of_procs rfl rfl rfl rfl
    · exact mourned.trans (.of_procs rfl rfl rfl rfl)
  obtain ⟨-, rfl, -⟩ | ⟨id, passed, -, handed, -⟩ := processDied_eq_some_iff.1 died
  · exact buried.tolls
  · exact buried.tolls.trans (tolls_handOff handed)

end State

end Derp
