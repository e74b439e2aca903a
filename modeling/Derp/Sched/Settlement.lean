import Derp.Sched.Settling

/-!
# The ledger of crashes

A ledger beside the run says which processes were crashed, which of them since the kills
were last taken, and which were attached when they were crashed and are not given up on.
The flags and counters of the shared state answer to it at every point of every run.
-/

namespace Derp

/-- It was condemned, can be signalled and was not. -/
def ProcRec.due (p : ProcRec) : Bool :=
  p.killed && !p.signalled && 0 < p.realPid

theorem ProcRec.due_iff {p : ProcRec} :
    p.due = true ↔ p.killed = true ∧ p.signalled = false ∧ 0 < p.realPid := by
  unfold due
  rw [Bool.and_eq_true, Bool.and_eq_true, Bool.not_eq_true', decide_eq_true_eq, and_assoc]

namespace State

variable {s later : State} {pid : Pid}

/-! ## Kills -/

/-- The processes that a call for the kills hands out. -/
def dueKills (s : State) : List Pid :=
  if s.unsignalled = 0 then []
  else s.pids.filter fun pid => (s.procs pid).due

theorem nodup_dueKills (s : State) : s.dueKills.Nodup := by
  unfold dueKills
  split
  · exact List.nodup_nil
  · exact List.nodup_range.filter _

theorem mem_dueKills :
    pid ∈ s.dueKills ↔ s.unsignalled ≠ 0 ∧ pid < s.nprocs ∧ (s.procs pid).killed = true ∧
      (s.procs pid).signalled = false ∧ 0 < (s.procs pid).realPid := by
  unfold dueKills
  split
  · rename_i nothing
    exact iff_of_false List.not_mem_nil fun due => due.1 nothing
  · rename_i some
    unfold pids
    rw [List.mem_filter, List.mem_range, ProcRec.due_iff]
    exact (and_iff_right some).symm

theorem takeKills_kills (s : State) :
    s.takeKills.2 = s.dueKills.map fun pid => (s.procs pid).realPid := by
  unfold takeKills dueKills
  split
  · rfl
  · rfl

theorem takeKills_procs (s : State) (pid : Pid) :
    s.takeKills.1.procs pid =
      if pid ∈ s.dueKills then { s.procs pid with signalled := true } else s.procs pid := by
  unfold takeKills
  split
  · rename_i nothing
    rw [if_neg fun due => (mem_dueKills.1 due).1 nothing]
  · rename_i some
    change (if pid < s.nprocs then
      if (s.procs pid).due then { s.procs pid with signalled := true } else s.procs pid
      else s.procs pid) = _
    by_cases registered : pid < s.nprocs
    · rw [if_pos registered]
      by_cases due : (s.procs pid).due = true
      · rw [if_pos due, if_pos (mem_dueKills.2 ⟨some, registered, ProcRec.due_iff.1 due⟩)]
      · rw [if_neg due, if_neg fun listed =>
          due (ProcRec.due_iff.2 (mem_dueKills.1 listed).2.2)]
    · rw [if_neg registered, if_neg fun listed => registered (mem_dueKills.1 listed).2.1]

theorem takeKills_counts (s : State) :
    s.takeKills.1.nprocs = s.nprocs ∧ s.takeKills.1.unsettled = s.unsettled ∧
      s.takeKills.1.unsignalled = 0 := by
  unfold takeKills
  split
  · rename_i nothing
    exact ⟨rfl, rfl, nothing⟩
  · exact ⟨rfl, rfl, rfl⟩

/-- Handing the kills out changes nothing but who is signalled. -/
theorem takeKills_fate (s : State) (pid : Pid) :
    (s.takeKills.1.procs pid).killed = (s.procs pid).killed ∧
      (s.takeKills.1.procs pid).unsettled = (s.procs pid).unsettled ∧
      (s.takeKills.1.procs pid).realPid = (s.procs pid).realPid ∧
      (s.takeKills.1.procs pid).state = (s.procs pid).state ∧
      ((s.takeKills.1.procs pid).signalled = true ↔
        (s.procs pid).signalled = true ∨ pid ∈ s.dueKills) := by
  rw [takeKills_procs]
  split
  · rename_i due
    exact ⟨rfl, rfl, rfl, rfl, iff_of_true rfl (Or.inr due)⟩
  · rename_i notDue
    exact ⟨rfl, rfl, rfl, rfl, (or_iff_left notDue).symm⟩

/-! ## Settlements -/

theorem forgetUnsettled_fate (accounted : Accounted s) (pid : Pid) :
    (s.forgetUnsettled.procs pid).killed = (s.procs pid).killed ∧
      (s.forgetUnsettled.procs pid).signalled = (s.procs pid).signalled ∧
      (s.forgetUnsettled.procs pid).realPid = (s.procs pid).realPid ∧
      (s.forgetUnsettled.procs pid).state = (s.procs pid).state ∧
      (s.forgetUnsettled.procs pid).unsettled = false := by
  have same : s.forgetUnsettled.procs pid =
      if pid < s.nprocs then { s.procs pid with unsettled := false } else s.procs pid := rfl
  rw [same]
  split
  · exact ⟨rfl, rfl, rfl, rfl, rfl⟩
  · rename_i spare
    refine ⟨rfl, rfl, rfl, rfl, eq_false_of_ne_true fun waited => spare ?_⟩
    exact accounted.spare pid (accounted.unsettled pid waited)

/-- A settlement leaves the run alone, or clears all that was waited for. -/
theorem settleDeaths_cases (s : State) :
    (s.unsettled = 0 ∧ s.settleDeaths = (s, true)) ∨
      (0 < s.unsettled ∧ s.settleDeaths = (s, false)) ∨
      0 < s.unsettled ∧ s.settleDeaths = (s.forgetUnsettled, true) ∧
        ∀ pid < s.nprocs, (s.procs pid).unsettled = true → (s.procs pid).state = .exited := by
  unfold settleDeaths
  split
  · rename_i nothing
    exact Or.inl ⟨nothing, rfl⟩
  · rename_i some
    split
    · exact Or.inr (Or.inl ⟨Nat.pos_of_ne_zero some, rfl⟩)
    · rename_i noneLeft
      refine Or.inr (Or.inr ⟨Nat.pos_of_ne_zero some, rfl, fun pid registered waited => ?_⟩)
      by_contra stays
      refine noneLeft (List.any_eq_true.2 ⟨pid, List.mem_range.2 registered, ?_⟩)
      rw [waited, decide_eq_true stays]
      rfl

/-! ## The ledger -/

/-- A critical section, or a note of the real pid that a process was started under. -/
inductive Section
  | exec (op : Op) (answer : Answer)
  | spawned (pid : Pid) (realPid : Int)

/-- The real pids that a section hands out to be signalled. -/
def Section.handed : Section → List Int
  | .exec .takeKills (.kills real) => real
  | _ => []

/-- What a run has seen of crashes. -/
structure Crashes where
  /-- The processes that were crashed. -/
  crashed : Pid → Prop
  /-- Those that were crashed since the kills were last taken. -/
  condemned : Pid → Prop
  /-- Those that were attached when they were crashed, and were not given up on. -/
  awaited : Pid → Prop

/-- Nobody was crashed. -/
def Crashes.nobody : Crashes := ⟨fun _ => False, fun _ => False, fun _ => False⟩

/-- What the run has seen after a critical section. -/
def Crashes.after (crashes : Crashes) (s : State) (op : Op) (later : State) : Crashes where
  crashed := fun pid => crashes.crashed pid ∨ Struck s later pid
  condemned := fun pid => op ≠ .takeKills ∧ (crashes.condemned pid ∨ Struck s later pid)
  awaited := fun pid => op ≠ .forgetUnsettled ∧ (crashes.awaited pid ∨
    Struck s later pid ∧ pid < s.nprocs ∧ (s.procs pid).state = .live)

/-- The runs with their ledger.  Sections of every kind come in any order; a process that is
started has no real pid yet, or the one it attached under. -/
def settling : Transition (State × Crashes) Section where
  init := fun start => ∃ seed quantumLo quantumHi names latencyNs,
    start = (initial seed quantumLo quantumHi names latencyNs, .nobody)
  step := fun before event after =>
    match event with
    | .exec op answer =>
        before.1.Settles op ∧ (∃ fuel, before.1.exec fuel op = some (after.1, answer)) ∧
          after.2 = before.2.after before.1 op after.1
    | .spawned pid realPid =>
        pid < before.1.nprocs ∧ 0 < realPid ∧
          ((before.1.procs pid).realPid = 0 ∨ (before.1.procs pid).realPid = realPid) ∧
          after = (before.1.modifyProc pid fun p => { p with realPid := realPid }, before.2)

/-- The flags and the counters of the run are what the ledger says. -/
structure Ledger (s : State) (crashes : Crashes) : Prop where
  accounted : Accounted s
  crashed : ∀ pid, crashes.crashed pid ↔ (s.procs pid).killed = true
  condemned : ∀ pid, crashes.condemned pid →
    (s.procs pid).killed = true ∧ (s.procs pid).signalled = false ∧ s.unsignalled ≠ 0
  awaited : ∀ pid, crashes.awaited pid →
    pid < s.nprocs ∧ ((s.procs pid).state = .exited ∨ (s.procs pid).unsettled = true)

theorem ledger_initial (seed quantumLo quantumHi names latencyNs) :
    Ledger (initial seed quantumLo quantumHi names latencyNs) .nobody := by
  refine ⟨⟨?_, ?_, ?_, rfl⟩, fun pid => ?_, fun pid condemned => condemned.elim,
    fun pid awaited => awaited.elim⟩
  · exact fun pid killed => Bool.noConfusion killed
  · exact fun pid signalled => Bool.noConfusion signalled
  · exact fun pid waited => Bool.noConfusion waited
  · exact iff_of_false id fun killed => Bool.noConfusion killed

/-- What goes onward is entered. -/
theorem Ledger.onward {crashes : Crashes} (ledger : Ledger s crashes) (accounted : Accounted later)
    (onward : Onward s later) (op : Op) : Ledger later (crashes.after s op later) where
  accounted := accounted
  crashed := by
    intro pid
    constructor
    · rintro (before | struck)
      · exact onward.killed pid ((ledger.crashed pid).1 before)
      · exact struck.2
    · intro killed
      by_cases before : (s.procs pid).killed = true
      · exact Or.inl ((ledger.crashed pid).2 before)
      · exact Or.inr ⟨eq_false_of_ne_true before, killed⟩
  condemned := by
    rintro pid ⟨-, before | struck⟩
    · obtain ⟨killed, unsignalled, some⟩ := ledger.condemned pid before
      refine ⟨onward.killed pid killed, (onward.signalled pid).trans unsignalled, ?_⟩
      exact ((Nat.pos_of_ne_zero some).trans_le onward.unsignalled).ne'
    · have unsignalled : (s.procs pid).signalled = false := eq_false_of_ne_true fun signalled =>
        Bool.false_ne_true (struck.1.symm.trans (ledger.accounted.signalled pid signalled))
      refine ⟨struck.2, (onward.signalled pid).trans unsignalled, ?_⟩
      exact ((Nat.zero_le _).trans_lt (onward.struck pid struck).1).ne'
  awaited := by
    rintro pid ⟨-, before | ⟨struck, registered, isLive⟩⟩
    · obtain ⟨registered, waits⟩ := ledger.awaited pid before
      exact ⟨registered.trans_le onward.nprocs,
        waits.imp (onward.exited pid registered) (onward.unsettled pid)⟩
    · exact ⟨registered.trans_le onward.nprocs, (onward.struck pid struck).2 registered isLive⟩

/-- Nobody is struck where nobody is killed. -/
theorem not_struck (killed : (later.procs pid).killed = (s.procs pid).killed) :
    ¬Struck s later pid := by
  rintro ⟨before, after⟩
  rw [killed, before] at after
  cases after

/-- Where nobody is struck the ledger needs no entry. -/
theorem Ledger.still {crashes : Crashes} (ledger : Ledger s crashes) (accounted : Accounted later)
    (onward : Onward s later) (unstruck : ∀ pid, ¬Struck s later pid) : Ledger later crashes := by
  have entered := ledger.onward accounted onward .wakeIo
  refine ⟨accounted, fun pid => ?_, fun pid condemned => ?_, fun pid awaited => ?_⟩
  · rw [← entered.crashed pid]
    exact (or_iff_left (unstruck pid)).symm
  · exact entered.condemned pid ⟨Op.noConfusion, Or.inl condemned⟩
  · exact entered.awaited pid ⟨Op.noConfusion, Or.inl awaited⟩

theorem Ledger.takeKills {crashes : Crashes} (ledger : Ledger s crashes) :
    Ledger s.takeKills.1 (crashes.after s .takeKills s.takeKills.1) := by
  obtain ⟨nprocs, unsettled, -⟩ := s.takeKills_counts
  have unstruck : ∀ pid, ¬Struck s s.takeKills.1 pid := fun pid =>
    not_struck (s.takeKills_fate pid).1
  refine ⟨⟨fun pid killed => ?_, fun pid signalled => ?_, fun pid waited => ?_, ?_⟩,
    fun pid => ?_, fun pid condemned => absurd rfl condemned.1, fun pid awaited => ?_⟩
  · rw [(s.takeKills_fate pid).1] at killed
    rw [nprocs]
    exact ledger.accounted.spare pid killed
  · rw [(s.takeKills_fate pid).1]
    obtain before | due := (s.takeKills_fate pid).2.2.2.2.1 signalled
    · exact ledger.accounted.signalled pid before
    · exact (mem_dueKills.1 due).2.2.1
  · rw [(s.takeKills_fate pid).2.1] at waited
    rw [(s.takeKills_fate pid).1]
    exact ledger.accounted.unsettled pid waited
  · rw [unsettled, ledger.accounted.counted]
    congr 1
    ext pid
    rw [mem_flagged, mem_flagged, nprocs, (s.takeKills_fate pid).2.1]
  · rw [(s.takeKills_fate pid).1, ← ledger.crashed pid]
    exact or_iff_left (unstruck pid)
  · obtain ⟨-, before | ⟨struck, -⟩⟩ := awaited
    · rw [nprocs, (s.takeKills_fate pid).2.1, (s.takeKills_fate pid).2.2.2.1]
      exact ledger.awaited pid before
    · exact absurd struck (unstruck pid)

/-- After everything waited for is cleared the ledger stands, if those that it still awaits
exited. -/
theorem Ledger.cleared {crashes after : Crashes} (ledger : Ledger s crashes)
    (crashed : ∀ pid, after.crashed pid ↔ crashes.crashed pid)
    (condemned : ∀ pid, after.condemned pid → crashes.condemned pid)
    (awaited : ∀ pid, after.awaited pid → pid < s.nprocs ∧ (s.procs pid).state = .exited) :
    Ledger s.forgetUnsettled after := by
  have fate := forgetUnsettled_fate ledger.accounted
  refine ⟨⟨fun pid killed => ?_, fun pid signalled => ?_, fun pid waited => ?_, ?_⟩,
    fun pid => ?_, fun pid struck => ?_, fun pid waits => ?_⟩
  · exact ledger.accounted.spare pid ((fate pid).1.symm.trans killed)
  · rw [(fate pid).1]
    exact ledger.accounted.signalled pid ((fate pid).2.1.symm.trans signalled)
  · rw [(fate pid).2.2.2.2] at waited
    cases waited
  · have nobody : s.forgetUnsettled.flagged = ∅ := by
      refine Finset.eq_empty_of_forall_notMem fun pid member => ?_
      have waited := (mem_flagged.1 member).2
      rw [(fate pid).2.2.2.2] at waited
      cases waited
    rw [nobody]
    rfl
  · rw [(fate pid).1, ← ledger.crashed pid]
    exact crashed pid
  · rw [(fate pid).1, (fate pid).2.1]
    exact ledger.condemned pid (condemned pid struck)
  · obtain ⟨registered, gone⟩ := awaited pid waits
    exact ⟨registered, Or.inl ((fate pid).2.2.2.1.trans gone)⟩

theorem Ledger.forgetUnsettled {crashes : Crashes} (ledger : Ledger s crashes) :
    Ledger s.forgetUnsettled (crashes.after s .forgetUnsettled s.forgetUnsettled) := by
  have unstruck : ∀ pid, ¬Struck s s.forgetUnsettled pid := fun pid =>
    not_struck (forgetUnsettled_fate ledger.accounted pid).1
  exact ledger.cleared (fun pid => or_iff_left (unstruck pid))
    (fun pid condemned => condemned.2.resolve_right (unstruck pid))
    fun pid awaited => absurd rfl awaited.1

theorem Ledger.settleDeaths {crashes : Crashes} (ledger : Ledger s crashes) :
    Ledger s.settleDeaths.1 (crashes.after s .settleDeaths s.settleDeaths.1) := by
  have stays : Ledger s (crashes.after s .settleDeaths s) :=
    ledger.onward ledger.accounted (.refl s) .settleDeaths
  obtain ⟨-, same⟩ | ⟨-, same⟩ | ⟨-, same, exited⟩ := s.settleDeaths_cases
  · rwa [same]
  · rwa [same]
  · have unstruck : ∀ pid, ¬Struck s s.forgetUnsettled pid := fun pid =>
      not_struck (forgetUnsettled_fate ledger.accounted pid).1
    rw [same]
    refine ledger.cleared (fun pid => or_iff_left (unstruck pid))
      (fun pid condemned => condemned.2.resolve_right (unstruck pid)) fun pid awaited => ?_
    obtain ⟨registered, waits⟩ :=
      ledger.awaited pid (awaited.2.resolve_right fun both => unstruck pid both.1)
    exact ⟨registered, waits.elim id (exited pid registered)⟩

/-- What one section does to the ledger. -/
theorem Ledger.exec {crashes : Crashes} {fuel : Nat} {op : Op} {answer : Answer}
    (ledger : Ledger s crashes) (settles : s.Settles op)
    (done : s.exec fuel op = some (later, answer)) : Ledger later (crashes.after s op later) := by
  by_cases settling : op.settling = true
  · cases op with
    | takeKills =>
        obtain ⟨rfl, -⟩ := Prod.mk.inj (Option.some.inj done)
        exact ledger.takeKills
    | settleDeaths =>
        obtain ⟨rfl, -⟩ := Prod.mk.inj (Option.some.inj done)
        exact ledger.settleDeaths
    | forgetUnsettled =>
        obtain ⟨rfl, -⟩ := Prod.mk.inj (Option.some.inj done)
        exact ledger.forgetUnsettled
    | _ => cases settling
  · obtain ⟨accounted, onward⟩ :=
      onward_of_exec ledger.accounted (eq_false_of_ne_true settling) settles done
    exact ledger.onward accounted onward op

/-- A process that is started is named once. -/
theorem Accounted.spawned {realPid : Int} (accounted : Accounted s)
    (fresh : (s.procs pid).realPid = 0 ∨ (s.procs pid).realPid = realPid) :
    Accounted (s.modifyProc pid fun p => { p with realPid := realPid }) ∧
      Onward s (s.modifyProc pid fun p => { p with realPid := realPid }) :=
  accounted.modifyProc ⟨rfl, rfl, rfl,
    fun named => fresh.elim (fun unnamed => absurd unnamed named.ne') Eq.symm, id, Or.inl⟩

/-! ## Runs -/

/-- The processes were each handed out once, under the real pids they have, and signalled. -/
structure Handed (pids : List Pid) (real : List Int) (s : State) : Prop where
  once : pids.Nodup
  named : real = pids.map fun pid => (s.procs pid).realPid
  signalled : ∀ pid ∈ pids, (s.procs pid).signalled = true ∧ 0 < (s.procs pid).realPid

/-- Who was handed out stays so where the signalled stay signalled under their names. -/
theorem Handed.kept {pids : List Pid} {real : List Int} (handed : Handed pids real s)
    (realPid : ∀ pid, 0 < (s.procs pid).realPid →
      (later.procs pid).realPid = (s.procs pid).realPid)
    (signalled : ∀ pid, (s.procs pid).signalled = true → (later.procs pid).signalled = true) :
    Handed pids real later where
  once := handed.once
  named := by
    rw [handed.named]
    refine List.map_congr_left fun pid member => ?_
    exact (realPid pid (handed.signalled pid member).2).symm
  signalled := fun pid member => by
    obtain ⟨before, named⟩ := handed.signalled pid member
    rw [realPid pid named]
    exact ⟨signalled pid before, named⟩

theorem Handed.onward {pids : List Pid} {real : List Int} (handed : Handed pids real s)
    (onward : Onward s later) : Handed pids real later :=
  handed.kept onward.realPid fun pid before => (onward.signalled pid).trans before

/-- The kills are handed out behind those handed out before. -/
theorem Handed.takeKills {pids : List Pid} {real : List Int} (handed : Handed pids real s) :
    Handed (pids ++ s.dueKills) (real ++ s.takeKills.2) s.takeKills.1 := by
  have kept : Handed pids real s.takeKills.1 :=
    handed.kept (fun pid _ => (s.takeKills_fate pid).2.2.1)
      fun pid before => (s.takeKills_fate pid).2.2.2.2.2 (Or.inl before)
  refine ⟨?_, ?_, fun pid member => ?_⟩
  · refine List.nodup_append'.2 ⟨handed.once, s.nodup_dueKills, fun pid before due => ?_⟩
    have unsignalled := (mem_dueKills.1 due).2.2.2.1
    rw [(handed.signalled pid before).1] at unsignalled
    cases unsignalled
  · rw [List.map_append, ← kept.named, takeKills_kills]
    congr 1
    exact List.map_congr_left fun pid _ => (s.takeKills_fate pid).2.2.1.symm
  · obtain before | due := List.mem_append.1 member
    · exact kept.signalled pid before
    · rw [(s.takeKills_fate pid).2.2.1]
      exact ⟨(s.takeKills_fate pid).2.2.2.2.2 (Or.inr due), (mem_dueKills.1 due).2.2.2.2⟩

theorem Handed.forgetUnsettled {pids : List Pid} {real : List Int} (handed : Handed pids real s)
    (accounted : Accounted s) : Handed pids real s.forgetUnsettled :=
  handed.kept (fun pid _ => (forgetUnsettled_fate accounted pid).2.2.1)
    fun pid before => (forgetUnsettled_fate accounted pid).2.1.trans before

theorem Handed.settleDeaths {pids : List Pid} {real : List Int} (handed : Handed pids real s)
    (accounted : Accounted s) : Handed pids real s.settleDeaths.1 := by
  obtain ⟨-, same⟩ | ⟨-, same⟩ | ⟨-, same, -⟩ := s.settleDeaths_cases
  · rwa [same]
  · rwa [same]
  · rw [same]
    exact handed.forgetUnsettled accounted

theorem Handed.exec {pids : List Pid} {real : List Int} {crashes : Crashes} {fuel : Nat}
    {op : Op} {answer : Answer} (handed : Handed pids real s) (ledger : Ledger s crashes)
    (settles : s.Settles op) (done : s.exec fuel op = some (later, answer)) :
    ∃ more, Handed more (real ++ (Section.exec op answer).handed) later := by
  by_cases settling : op.settling = true
  · cases op with
    | takeKills =>
        obtain ⟨rfl, rfl⟩ := Prod.mk.inj (Option.some.inj done)
        exact ⟨_, handed.takeKills⟩
    | settleDeaths =>
        obtain ⟨rfl, -⟩ := Prod.mk.inj (Option.some.inj done)
        refine ⟨pids, ?_⟩
        rw [show (Section.exec .settleDeaths answer).handed = [] from rfl, List.append_nil]
        exact handed.settleDeaths ledger.accounted
    | forgetUnsettled =>
        obtain ⟨rfl, -⟩ := Prod.mk.inj (Option.some.inj done)
        refine ⟨pids, ?_⟩
        rw [show (Section.exec .forgetUnsettled answer).handed = [] from rfl, List.append_nil]
        exact handed.forgetUnsettled ledger.accounted
    | _ => cases settling
  · have nothing : (Section.exec op answer).handed = [] := by
      unfold Section.handed
      split
      · rename_i same
        rw [(Section.exec.inj same).1] at settling
        exact absurd rfl settling
      · rfl
    rw [nothing, List.append_nil]
    exact ⟨pids, handed.onward
      (onward_of_exec ledger.accounted (eq_false_of_ne_true settling) settles done).2⟩

/-- The ledger and the kills of a run. -/
theorem ledger_of_run {start after : State × Crashes} {events : List Section}
    (begun : settling.init start) (run : settling.Run start events after) :
    Ledger after.1 after.2 ∧ ∃ pids, Handed pids (events.flatMap Section.handed) after.1 := by
  induction run with
  | refl =>
      obtain ⟨seed, quantumLo, quantumHi, names, latencyNs, rfl⟩ := begun
      refine ⟨ledger_initial seed quantumLo quantumHi names latencyNs, [], List.nodup_nil, rfl, ?_⟩
      exact fun pid member => absurd member List.not_mem_nil
  | @tail before after events event _ step ih =>
      obtain ⟨ledger, pids, handed⟩ := ih
      rw [List.flatMap_append, List.flatMap_singleton]
      cases event with
      | exec op answer =>
          obtain ⟨settles, ⟨fuel, done⟩, seen⟩ := step
          rw [seen]
          exact ⟨ledger.exec settles done, handed.exec ledger settles done⟩
      | spawned pid realPid =>
          obtain ⟨-, -, fresh, rfl⟩ := step
          obtain ⟨accounted, onward⟩ := ledger.accounted.spawned fresh
          rw [show (Section.spawned pid realPid).handed = [] from rfl, List.append_nil]
          refine ⟨ledger.still accounted onward fun other => not_struck ?_, pids,
            handed.onward onward⟩
          rw [procs_modifyProc]
          split
          · rename_i same
            rw [same]
          · rfl

/-- What crashes come to at a point of a run.  Over the whole run each process that the kills
name was crashed before, is named by its real pid, and once. -/
structure Settlement (events : List Section) (s : State) (crashes : Crashes) : Prop where
  once : ∃ pids : List Pid, pids.Nodup ∧ (∀ pid ∈ pids, crashes.crashed pid) ∧
    events.flatMap Section.handed = pids.map fun pid => (s.procs pid).realPid
  /-- The kills would name everyone condemned since they were last taken who can be named. -/
  signals : ∀ pid, crashes.condemned pid → 0 < (s.procs pid).realPid →
    (s.procs pid).realPid ∈ s.takeKills.2 ∧ (s.takeKills.1.procs pid).signalled = true
  counted : s.unsettled = s.flagged.card
  settles : s.settleDeaths.2 = true →
    ∀ pid, crashes.awaited pid → (s.procs pid).state = .exited
  wakes : 0 < s.unsettled → s.settleDeaths.1.unsettled = 0 →
    s.settleDeaths.1.threads = s.wakeIo.threads
  rests : ¬(0 < s.unsettled ∧ s.settleDeaths.1.unsettled = 0) → s.settleDeaths.1 = s

theorem Ledger.settles {crashes : Crashes} (ledger : Ledger s crashes)
    (all : s.settleDeaths.2 = true) (awaited : crashes.awaited pid) :
    (s.procs pid).state = .exited := by
  obtain ⟨registered, gone | waited⟩ := ledger.awaited pid awaited
  · exact gone
  obtain ⟨nothing, -⟩ | ⟨-, same⟩ | ⟨-, -, exited⟩ := s.settleDeaths_cases
  · have counted := ledger.accounted.counted
    rw [nothing, eq_comm, Finset.card_eq_zero] at counted
    have member := mem_flagged.2 ⟨registered, waited⟩
    rw [counted] at member
    exact absurd member (Finset.notMem_empty pid)
  · rw [same] at all
    cases all
  · exact exited pid registered waited

/-- In every run each crashed process is signalled at most once, under its real pid, the kills
name everyone they can, what is waited for is counted, and it is waited out. -/
theorem crashes_settled {start after : State × Crashes} {events : List Section}
    (begun : settling.init start) (run : settling.Run start events after) :
    Settlement events after.1 after.2 := by
  obtain ⟨ledger, pids, handed⟩ := ledger_of_run begun run
  obtain ⟨s, crashes⟩ := after
  refine ⟨⟨pids, handed.once, fun pid member => ?_, handed.named⟩,
    fun pid condemned named => ?_, ledger.accounted.counted,
    fun all pid awaited => ledger.settles all awaited, fun some cleared => ?_, fun stays => ?_⟩
  · have signalled := (handed.signalled pid member).1
    exact (ledger.crashed pid).2 (ledger.accounted.signalled pid signalled)
  · obtain ⟨killed, unsignalled, some⟩ := ledger.condemned pid condemned
    have due : pid ∈ s.dueKills :=
      mem_dueKills.2 ⟨some, ledger.accounted.spare pid killed, killed, unsignalled, named⟩
    rw [takeKills_kills]
    exact ⟨List.mem_map_of_mem due, (s.takeKills_fate pid).2.2.2.2.2 (Or.inr due)⟩
  · obtain ⟨nothing, -⟩ | ⟨-, same⟩ | ⟨-, same, -⟩ := s.settleDeaths_cases
    · exact absurd nothing some.ne'
    · rw [same] at cleared
      exact absurd cleared some.ne'
    · rw [same]
      rfl
  · obtain ⟨-, same⟩ | ⟨-, same⟩ | ⟨some, same, -⟩ := s.settleDeaths_cases
    · rw [same]
    · rw [same]
    · rw [same] at stays
      exact absurd ⟨some, rfl⟩ stays

theorem step_exec (crashes : Crashes) {fuel : Nat} {op : Op} {answer : Answer}
    (settles : s.Settles op) (done : s.exec fuel op = some (later, answer)) :
    settling.step (s, crashes) (.exec op answer) (later, crashes.after s op later) :=
  ⟨settles, ⟨fuel, done⟩, rfl⟩

/-- A process is crashed before it attaches, and signalled once it has. -/
theorem crashes_settled_late :
    ∃ (after : State × Crashes) (events : List Section),
      events.flatMap Section.handed = [77] ∧ Settlement events after.1 after.2 := by
  have begun : settling.init (initial 1 1 1 [] 0, .nobody) := ⟨1, 1, 1, [], 0, rfl⟩
  have added := (Transition.Run.refl (initial 1 1 1 [] 0, Crashes.nobody)).tail
    (step_exec .nobody (show Settles _ (.addProc 0 none) from trivial)
      (show exec 0 _ (.addProc 0 none) = some (_, _) from rfl))
  have crashed := added.tail (step_exec _ (show Settles _ (.crash 0) from ⟨by decide, rfl⟩)
    (show exec 0 _ (.crash 0) = some (_, _) from rfl))
  have attached := crashed.tail (step_exec _
    (show Settles _ (.attach 0 77) from ⟨by decide, rfl, by decide, Or.inl rfl⟩)
    (show exec 0 _ (.attach 0 77) = some (_, _) from rfl))
  have taken := attached.tail (step_exec _ (show Settles _ .takeKills from trivial)
    (show exec 0 _ .takeKills = some (_, _) from rfl))
  exact ⟨_, _, rfl, crashes_settled begun taken⟩

end State

end Derp
