import Derp.Sched.Tolls
import Mathlib.Data.Finset.Card
import Mathlib.Data.Finset.Range

/-!
# Crashes and what is done about them

A crashed process is dead to the run at once, and really dies later: it is signalled when
the kills are taken, and the baton holder waits its death out.  What is counted about the
processes in between is what their records say.
-/

namespace Derp

namespace State

variable {s middle later : State} {pid victim : Pid} {fuel : Nat} {op : Op} {answer : Answer}

/-! ## Accounts -/

/-- The processes whose real death is not waited out. -/
def flagged (s : State) : Finset Pid :=
  (Finset.range s.nprocs).filter fun pid => (s.procs pid).unsettled = true

theorem mem_flagged : pid ∈ s.flagged ↔ pid < s.nprocs ∧ (s.procs pid).unsettled = true := by
  unfold flagged
  rw [Finset.mem_filter, Finset.mem_range]

/-- Who is signalled or waited for is condemned, and the count is of those waited for. -/
structure Accounted (s : State) : Prop where
  spare : ∀ pid, (s.procs pid).killed = true → pid < s.nprocs
  signalled : ∀ pid, (s.procs pid).signalled = true → (s.procs pid).killed = true
  unsettled : ∀ pid, (s.procs pid).unsettled = true → (s.procs pid).killed = true
  counted : s.unsettled = s.flagged.card

/-- The process was condemned between the states. -/
def Struck (s later : State) (pid : Pid) : Prop :=
  (s.procs pid).killed = false ∧ (later.procs pid).killed = true

/-- Nobody is pardoned, signalled or settled, and nobody comes back. -/
structure Onward (s later : State) : Prop where
  nprocs : s.nprocs ≤ later.nprocs
  unsignalled : s.unsignalled ≤ later.unsignalled
  killed : ∀ pid, (s.procs pid).killed = true → (later.procs pid).killed = true
  signalled : ∀ pid, (later.procs pid).signalled = (s.procs pid).signalled
  realPid : ∀ pid, 0 < (s.procs pid).realPid → (later.procs pid).realPid = (s.procs pid).realPid
  unsettled : ∀ pid, (s.procs pid).unsettled = true → (later.procs pid).unsettled = true
  exited : ∀ pid < s.nprocs, (s.procs pid).state = .exited → (later.procs pid).state = .exited
  attached : ∀ pid < s.nprocs, (s.procs pid).state = .live →
    (later.procs pid).state = .live ∨ (later.procs pid).state = .exited
  struck : ∀ pid, Struck s later pid → s.unsignalled < later.unsignalled ∧
    (pid < s.nprocs → (s.procs pid).state = .live →
      (later.procs pid).state = .exited ∨ (later.procs pid).unsettled = true)

theorem Onward.refl (s : State) : Onward s s where
  nprocs := le_rfl
  unsignalled := le_rfl
  killed := fun _ killed => killed
  signalled := fun _ => rfl
  realPid := fun _ _ => rfl
  unsettled := fun _ waited => waited
  exited := fun _ _ gone => gone
  attached := fun _ _ isLive => Or.inl isLive
  struck := fun _ struck => absurd (struck.1.symm.trans struck.2) Bool.false_ne_true

theorem Onward.trans (first : Onward s middle) (second : Onward middle later) :
    Onward s later where
  nprocs := first.nprocs.trans second.nprocs
  unsignalled := first.unsignalled.trans second.unsignalled
  killed := fun pid killed => second.killed pid (first.killed pid killed)
  signalled := fun pid => (second.signalled pid).trans (first.signalled pid)
  realPid := fun pid named => by
    have same := first.realPid pid named
    rw [second.realPid pid (same ▸ named), same]
  unsettled := fun pid waited => second.unsettled pid (first.unsettled pid waited)
  exited := fun pid registered gone =>
    second.exited pid (registered.trans_le first.nprocs) (first.exited pid registered gone)
  attached := fun pid registered isLive => by
    have between := registered.trans_le first.nprocs
    obtain stays | gone := first.attached pid registered isLive
    · exact second.attached pid between stays
    · exact Or.inr (second.exited pid between gone)
  struck := by
    rintro pid ⟨before, after⟩
    by_cases already : (middle.procs pid).killed = true
    · obtain ⟨more, waits⟩ := first.struck pid ⟨before, already⟩
      refine ⟨more.trans_le second.unsignalled, fun registered isLive => ?_⟩
      obtain gone | waited := waits registered isLive
      · exact Or.inl (second.exited pid (registered.trans_le first.nprocs) gone)
      · exact Or.inr (second.unsettled pid waited)
    · obtain ⟨more, waits⟩ := second.struck pid ⟨eq_false_of_ne_true already, after⟩
      refine ⟨first.unsignalled.trans_lt more, fun registered isLive => ?_⟩
      have between := registered.trans_le first.nprocs
      obtain stays | gone := first.attached pid registered isLive
      · exact waits between stays
      · exact Or.inl (second.exited pid between gone)

theorem Peaceful.onward (peaceful : Peaceful s later) : Onward s later where
  nprocs := peaceful.nprocs
  unsignalled := peaceful.unsignalled.ge
  killed := fun pid killed => (peaceful.fate pid).killed.trans killed
  signalled := fun pid => (peaceful.fate pid).signalled
  realPid := fun pid _ => (peaceful.fate pid).realPid
  unsettled := fun pid waited => (peaceful.fate pid).unsettled.trans waited
  exited := fun pid registered gone => (peaceful.state pid registered).trans gone
  attached := fun pid registered isLive => Or.inl ((peaceful.state pid registered).trans isLive)
  struck := fun pid struck => by
    have same := (peaceful.fate pid).killed
    rw [struck.1, struck.2] at same
    cases same

theorem Accounted.peaceful (accounted : Accounted s) (peaceful : Peaceful s later) :
    Accounted later where
  spare := fun pid killed =>
    (accounted.spare pid ((peaceful.fate pid).killed.symm.trans killed)).trans_le peaceful.nprocs
  signalled := fun pid signalled => by
    rw [(peaceful.fate pid).killed]
    rw [(peaceful.fate pid).signalled] at signalled
    exact accounted.signalled pid signalled
  unsettled := fun pid waited => by
    rw [(peaceful.fate pid).killed]
    rw [(peaceful.fate pid).unsettled] at waited
    exact accounted.unsettled pid waited
  counted := by
    rw [peaceful.unsettled, accounted.counted]
    congr 1
    ext pid
    rw [mem_flagged, mem_flagged, (peaceful.fate pid).unsettled]
    refine ⟨fun both => ⟨both.1.trans_le peaceful.nprocs, both.2⟩, fun both => ⟨?_, both.2⟩⟩
    exact accounted.spare pid (accounted.unsettled pid both.2)

/-- Nobody who is alive is waited for. -/
theorem Accounted.not_flagged (accounted : Accounted s) (alive : s.Alive victim) :
    (s.procs victim).killed = false ∧ (s.procs victim).signalled = false ∧
      (s.procs victim).unsettled = false := by
  have spared : (s.procs victim).killed = false := by
    have isAlive := alive.2
    unfold ProcRec.alive at isAlive
    rw [Bool.and_eq_true, Bool.not_eq_true'] at isAlive
    exact isAlive.2
  refine ⟨spared, eq_false_of_ne_true fun signalled => ?_, eq_false_of_ne_true fun waited => ?_⟩
  · rw [accounted.signalled victim signalled] at spared
    cases spared
  · rw [accounted.unsettled victim waited] at spared
    cases spared

theorem Accounted.condemned (accounted : Accounted s) (alive : s.Alive victim) :
    Accounted (s.condemned victim) ∧ Onward s (s.condemned victim) := by
  obtain ⟨spared, unsignalled, unflagged⟩ := accounted.not_flagged alive
  obtain ⟨isKilled, sameSignalled, sameReal, sameState, flag, others⟩ := s.condemned_procs victim
  obtain ⟨sameTable, oneMore, count⟩ := s.condemned_counts victim
  rw [unflagged, Bool.false_or] at flag
  have either : ∀ pid, pid = victim ∨ (s.condemned victim).procs pid = s.procs pid := fun pid =>
    (eq_or_ne pid victim).imp_right (others pid)
  constructor
  · refine ⟨fun pid killed => ?_, fun pid signalled => ?_, fun pid waited => ?_, ?_⟩
    · rw [sameTable]
      obtain rfl | same := either pid
      · exact alive.1
      · exact accounted.spare pid (same ▸ killed)
    · obtain rfl | same := either pid
      · exact isKilled
      · rw [same] at signalled ⊢
        exact accounted.signalled pid signalled
    · obtain rfl | same := either pid
      · exact isKilled
      · rw [same] at waited ⊢
        exact accounted.unsettled pid waited
    · rw [count, accounted.counted]
      split
      · rename_i isLive
        have more : (s.condemned victim).flagged = insert victim s.flagged := by
          ext pid
          rw [Finset.mem_insert, mem_flagged, mem_flagged, sameTable]
          obtain rfl | same := either pid
          · rw [flag, decide_eq_true isLive]
            exact iff_of_true ⟨alive.1, rfl⟩ (Or.inl rfl)
          · rw [same]
            refine ⟨Or.inr, fun member => member.resolve_left ?_⟩
            rintro rfl
            rw [same] at isKilled
            rw [isKilled] at spared
            cases spared
        have fresh : victim ∉ s.flagged := fun member => by
          rw [(mem_flagged.mp member).2] at unflagged
          cases unflagged
        rw [more, Finset.card_insert_of_notMem fresh]
      · rename_i notLive
        have same : (s.condemned victim).flagged = s.flagged := by
          ext pid
          rw [mem_flagged, mem_flagged, sameTable]
          obtain rfl | same := either pid
          · rw [flag, decide_eq_false notLive, unflagged]
          · rw [same]
        rw [same, Nat.add_zero]
  · refine ⟨sameTable.ge, oneMore ▸ Nat.le_succ _, fun pid killed => ?_, fun pid => ?_,
      fun pid _ => ?_, fun pid waited => ?_, fun pid _ gone => ?_, fun pid _ isLive => ?_,
      fun pid struck => ?_⟩
    · obtain rfl | same := either pid
      · exact isKilled
      · rwa [same]
    · obtain rfl | same := either pid
      · exact sameSignalled
      · rw [same]
    · obtain rfl | same := either pid
      · exact sameReal
      · rw [same]
    · obtain rfl | same := either pid
      · rw [unflagged] at waited
        cases waited
      · rwa [same]
    · obtain rfl | same := either pid
      · rwa [sameState]
      · rwa [same]
    · obtain rfl | same := either pid
      · exact Or.inl (sameState.trans isLive)
      · exact Or.inl (by rwa [same])
    · refine ⟨oneMore ▸ Nat.lt_succ_self _, fun _ isLive => Or.inr ?_⟩
      obtain rfl | same := either pid
      · rw [flag, decide_eq_true isLive]
      · have dead := struck.2
        rw [same, struck.1] at dead
        cases dead

/-- What tolls come to. -/
theorem Accounted.tolls (accounted : Accounted s) (tolls : Tolls s later) :
    Accounted later ∧ Onward s later := by
  induction tolls with
  | refl => exact ⟨accounted, .refl s⟩
  | tail _ toll ih =>
      obtain ⟨between, first⟩ := ih
      cases toll with
      | peace peaceful =>
          exact ⟨between.peaceful peaceful, first.trans peaceful.onward⟩
      | condemn victim alive =>
          obtain ⟨after, second⟩ := between.condemned alive
          exact ⟨after, first.trans second⟩

/-! ## Sections -/

/-- The sections that do more than tolls. -/
def Op.fateful : Op → Bool
  | .attach _ _ => true
  | .unregister _ => true
  | .processDied _ _ => true
  | .takeKills => true
  | .settleDeaths => true
  | .forgetUnsettled => true
  | _ => false

/-- The sections that settle crashes. -/
def Op.settling : Op → Bool
  | .takeKills => true
  | .settleDeaths => true
  | .forgetUnsettled => true
  | _ => false

/-- What is asked of a section: a process that is crashed is alive to the run, one attaches
that had only been started, under the real pid it was started with, and one that died or
never came to be is of the run. -/
def Settles (s : State) : Op → Prop
  | .crash victim => s.Alive victim
  | .attach pid realPid => pid < s.nprocs ∧ (s.procs pid).state = .starting ∧ 0 < realPid ∧
      ((s.procs pid).realPid = 0 ∨ (s.procs pid).realPid = realPid)
  | .unregister child => child < s.nprocs
  | .processDied pid _ => pid < s.nprocs
  | _ => True

theorem peaceful_addProc (s : State) (host : Nat) (parent : Option Pid) :
    Peaceful s (s.addProc host parent).1 := by
  unfold addProc
  refine ⟨Nat.le_succ _, rfl, rfl, fun pid => ?_, fun pid old => ?_⟩
  · dsimp only
    rw [procs_modifyProc]
    split
    · rename_i isNew
      rw [isNew]
      exact ⟨rfl, rfl, rfl, rfl⟩
    · exact .refl _
  · dsimp only
    rw [procs_modifyProc, if_neg old.ne]

theorem peaceful_addThread (s : State) (pid : Pid) : Peaceful s (s.addThread pid).1 := by
  obtain ⟨pctRng, priority, drawn, -⟩ := { s with nthreads := s.nthreads + 1 }.drawPriority_eq
  unfold addThread
  dsimp only
  rw [drawn]
  exact .of_procs rfl rfl rfl rfl

theorem peaceful_modifyThread (s : State) (id : ThreadId) (change : ThreadRec → ThreadRec) :
    Peaceful s (s.modifyThread id change) := .of_procs rfl rfl rfl rfl

theorem peaceful_setClock (s : State) (ns : Nat) : Peaceful s (s.setClock ns) :=
  .of_procs rfl rfl rfl rfl

theorem tolls_of_exec (plain : op.fateful = false) (settles : s.Settles op)
    (done : s.exec fuel op = some (later, answer)) : Tolls s later := by
  by_cases setting : op.setting = true
  · cases tuned_of_exec setting done
    exact Peaceful.tolls (.of_procs rfl rfl rfl rfl)
  cases op with
  | addProc host parent =>
      obtain ⟨rfl, -⟩ := Prod.mk.inj (Option.some.inj done)
      exact (peaceful_addProc s host parent).tolls
  | addThread pid =>
      obtain ⟨rfl, -⟩ := Prod.mk.inj (Option.some.inj done)
      exact (peaceful_addThread s pid).tolls
  | setFaults pid faults spec =>
      obtain ⟨rfl, -⟩ := Prod.mk.inj (Option.some.inj done)
      have given : Peaceful s (s.modifyProc pid fun p =>
          { p with faults := faults, spec := some spec }) :=
        peaceful_modifyProc ⟨rfl, rfl, rfl, rfl⟩ fun _ => rfl
      exact (given.trans (peaceful_drawCrash _ pid _)).tolls
  | setAlarm pid value interval =>
      obtain ⟨rfl, -⟩ := Prod.mk.inj (Option.some.inj done)
      unfold setAlarm
      dsimp only
      split
      · exact (peaceful_modifyProc ⟨rfl, rfl, rfl, rfl⟩ fun _ => rfl).tolls
      · exact ((peaceful_noteAdd s _ _).trans
          (peaceful_modifyProc ⟨rfl, rfl, rfl, rfl⟩ fun _ => rfl)).tolls
  | reap pid =>
      obtain ⟨rfl, -⟩ := Prod.mk.inj (Option.some.inj done)
      exact (peaceful_modifyProc ⟨rfl, rfl, rfl, rfl⟩ fun _ => rfl).tolls
  | setDeadline id deadline =>
      obtain ⟨rfl, -⟩ := Prod.mk.inj (Option.some.inj done)
      exact Peaceful.tolls (.of_procs rfl rfl rfl rfl)
  | handOff src site =>
      obtain ⟨⟨middle, handoff⟩, handed, same⟩ := Option.map_eq_some_iff.1 done
      obtain rfl : middle = later := congrArg Prod.fst same
      exact tolls_handOff handed
  | choose me site =>
      obtain ⟨⟨middle, handoff⟩, chosen, same⟩ := Option.map_eq_some_iff.1 done
      obtain rfl : middle = later := congrArg Prod.fst same
      exact tolls_choose chosen
  | crash victim =>
      obtain ⟨rfl, -⟩ := Prod.mk.inj (Option.some.inj done)
      exact tolls_crash settles
  | wakeAll pid key =>
      obtain ⟨rfl, -⟩ := Prod.mk.inj (Option.some.inj done)
      exact (peaceful_mapLive s _).tolls
  | wakeIo =>
      obtain ⟨rfl, -⟩ := Prod.mk.inj (Option.some.inj done)
      exact (peaceful_wakeIo s).tolls
  | wakeThread id =>
      obtain ⟨rfl, -⟩ := Prod.mk.inj (Option.some.inj done)
      exact Peaceful.tolls (.of_procs rfl rfl rfl rfl)
  | postSignal pid sig =>
      obtain ⟨rfl, -⟩ := Prod.mk.inj (Option.some.inj done)
      exact (peaceful_postSignal s pid sig).tolls
  | threadKill id sig =>
      obtain ⟨rfl, -⟩ := Prod.mk.inj (Option.some.inj done)
      exact Peaceful.tolls (.of_procs rfl rfl rfl rfl)
  | takeSignals id unmasked =>
      obtain ⟨rfl, -⟩ := Prod.mk.inj (Option.some.inj done)
      have taken : Peaceful s (s.modifyProc (s.threads id).pid fun p =>
          { p with sigPending := p.sigPending.ldiff unmasked }) :=
        peaceful_modifyProc ⟨rfl, rfl, rfl, rfl⟩ fun _ => rfl
      exact (taken.trans (peaceful_modifyThread _ id _)).tolls
  | condEnqueue id cond =>
      obtain ⟨rfl, -⟩ := Prod.mk.inj (Option.some.inj done)
      exact Peaceful.tolls (.of_procs rfl rfl rfl rfl)
  | condWake pid cond all =>
      obtain ⟨rfl, -⟩ := Prod.mk.inj (Option.some.inj done)
      exact (peaceful_condWakeLoop cond all _ s).tolls
  | noteOutsideWake pid =>
      obtain ⟨rfl, -⟩ := Prod.mk.inj (Option.some.inj done)
      exact (peaceful_modifyProc ⟨rfl, rfl, rfl, rfl⟩ fun _ => rfl).tolls
  | clockRead =>
      obtain ⟨rfl, -⟩ := Prod.mk.inj (Option.some.inj done)
      have read := (peaceful_noteAdd s s.clockNs perReadNs).trans
        (peaceful_setClock _ (wrappingAdd s.clockNs perReadNs))
      exact (read.trans (peaceful_clockMoved _)).tolls
  | net op =>
      obtain ⟨⟨net, answered⟩, -, same⟩ := Option.map_eq_some_iff.1 done
      obtain rfl : s.setNet net = later := congrArg Prod.fst same
      exact (peaceful_setNet s net).tolls
  | attach => cases plain
  | unregister => cases plain
  | processDied => cases plain
  | takeKills => cases plain
  | settleDeaths => cases plain
  | forgetUnsettled => cases plain
  | _ => exact absurd rfl setting

/-- A change of a process that leaves it as condemned as it was, and neither brings it back
nor names it anew. -/
structure Bears (p p' : ProcRec) : Prop where
  killed : p'.killed = p.killed
  signalled : p'.signalled = p.signalled
  unsettled : p'.unsettled = p.unsettled
  realPid : 0 < p.realPid → p'.realPid = p.realPid
  exited : p.state = .exited → p'.state = .exited
  attached : p.state = .live → p'.state = .live ∨ p'.state = .exited

theorem Bears.refl (p : ProcRec) : Bears p p :=
  ⟨rfl, rfl, rfl, fun _ => rfl, id, Or.inl⟩

theorem Accounted.borne (accounted : Accounted s) (nprocs : later.nprocs = s.nprocs)
    (unsignalled : later.unsignalled = s.unsignalled) (unsettled : later.unsettled = s.unsettled)
    (bears : ∀ pid, Bears (s.procs pid) (later.procs pid)) :
    Accounted later ∧ Onward s later := by
  constructor
  · refine ⟨fun pid killed => ?_, fun pid signalled => ?_, fun pid waited => ?_, ?_⟩
    · rw [nprocs]
      exact accounted.spare pid ((bears pid).killed.symm.trans killed)
    · rw [(bears pid).killed]
      exact accounted.signalled pid ((bears pid).signalled.symm.trans signalled)
    · rw [(bears pid).killed]
      exact accounted.unsettled pid ((bears pid).unsettled.symm.trans waited)
    · rw [unsettled, accounted.counted]
      congr 1
      ext pid
      rw [mem_flagged, mem_flagged, (bears pid).unsettled, nprocs]
  · refine ⟨nprocs.ge, unsignalled.ge, fun pid killed => (bears pid).killed.trans killed,
      fun pid => (bears pid).signalled, fun pid => (bears pid).realPid,
      fun pid waited => (bears pid).unsettled.trans waited, fun pid _ => (bears pid).exited,
      fun pid _ => (bears pid).attached, fun pid struck => ?_⟩
    have same := (bears pid).killed
    rw [struck.1, struck.2] at same
    cases same

/-- What a change of one record comes to. -/
theorem Accounted.modifyProc (accounted : Accounted s) {change : ProcRec → ProcRec}
    (bears : Bears (s.procs pid) (change (s.procs pid))) :
    Accounted (s.modifyProc pid change) ∧ Onward s (s.modifyProc pid change) := by
  refine accounted.borne rfl rfl rfl fun other => ?_
  rw [procs_modifyProc]
  split
  · rename_i same
    rw [same]
    exact bears
  · exact .refl _

/-- Every section but the three that settle crashes goes onward. -/
theorem onward_of_exec (accounted : Accounted s) (plain : op.settling = false)
    (settles : s.Settles op) (done : s.exec fuel op = some (later, answer)) :
    Accounted later ∧ Onward s later := by
  by_cases fateful : op.fateful = true
  · cases op with
    | attach pid realPid =>
        obtain ⟨rfl, -⟩ := Prod.mk.inj (Option.some.inj done)
        obtain ⟨-, starting, -, fresh⟩ := settles
        refine accounted.modifyProc ⟨rfl, rfl, rfl, fun named => ?_, fun gone => ?_, fun _ => ?_⟩
        · exact fresh.elim (fun unnamed => absurd unnamed named.ne') Eq.symm
        · rw [starting] at gone
          cases gone
        · exact Or.inl rfl
    | unregister child =>
        obtain ⟨rfl, -⟩ := Prod.mk.inj (Option.some.inj done)
        have gone : Accounted (s.modifyProc child fun p =>
            { p with state := .exited, reaped := true }) ∧ Onward s _ :=
          accounted.modifyProc ⟨rfl, rfl, rfl, fun _ => rfl, fun _ => rfl, fun _ => Or.inr rfl⟩
        have retired : Accounted (s.unregister child) ∧ Onward _ (s.unregister child) :=
          gone.1.tolls (peaceful_mapLive _ _).tolls
        exact ⟨retired.1, gone.2.trans retired.2⟩
    | processDied pid status =>
        obtain ⟨⟨middle, handoff⟩, died, same⟩ := Option.map_eq_some_iff.1 done
        obtain rfl : middle = later := congrArg Prod.fst same
        have noted : Accounted (s.noteExit pid status) ∧ Onward s (s.noteExit pid status) :=
          accounted.modifyProc ⟨rfl, rfl, rfl, fun _ => rfl, fun _ => rfl, fun _ => Or.inr rfl⟩
        have buried := noted.1.tolls (tolls_processDied settles died)
        exact ⟨buried.1, noted.2.trans buried.2⟩
    | takeKills => cases plain
    | settleDeaths => cases plain
    | forgetUnsettled => cases plain
    | _ => cases fateful
  · exact accounted.tolls (tolls_of_exec (eq_false_of_ne_true fateful) settles done)

end State

end Derp
