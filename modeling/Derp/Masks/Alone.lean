import Derp.Masks.Deferral

/-!
# Runs with and without a mask

A mask of sites at which no quantum ends is as good as none: the programs, the scheduler and
the other processes see the same run.
-/

namespace Derp
namespace Masks
namespace Machine

variable {ω : Type*} {world : World ω} {mask : Mask} {m : Machine ω} {pid : Pid}

theorem takeUp_log (m : Machine ω) (turn : Turn) : m.log <+: (m.takeUp turn).log := by
  induction turn generalizing m with
  | stopped pid next ih =>
      unfold Machine.takeUp
      split
      · refine List.IsPrefix.trans ?_ (ih _)
        exact List.prefix_append m.log _
      · exact List.prefix_rfl
  | unheeded | idle => exact List.prefix_rfl
  | stay quantum | given pid quantum =>
      unfold Machine.takeUp
      split <;> exact List.prefix_rfl

theorem handOff_log (world : World ω) (m : Machine ω) (site : Option UInt64)
    (entry : Turn → Entry) :
    ∃ turn, m.log ++ [entry turn] <+: (m.handOff world site entry).log := by
  unfold handOff
  generalize world.turn m.outside site = answer
  obtain ⟨turn, outside⟩ := answer
  exact ⟨turn, takeUp_log ({ m with outside := outside }.note (entry turn)) turn⟩

theorem perform_log (world : World ω) (mask : Mask) (m : Machine ω) (pid : Pid) (act : Act) :
    m.log <+: (m.perform world mask pid act).log := by
  have handed : ∀ (machine : Machine ω) (site : Option UInt64) (entry : Turn → Entry),
      machine.log = m.log → m.log <+: (machine.handOff world site entry).log :=
    fun machine site entry same => by
      obtain ⟨turn, log⟩ := handOff_log world machine site entry
      rw [same] at log
      exact (List.prefix_append m.log _).trans log
  cases act with
  | hook site =>
      unfold perform Machine.hookEvent
      dsimp only
      split
      · unfold Machine.rewriteYieldImpl
        dsimp only
        split
        · exact List.prefix_append m.log _
        · exact handed _ _ _ rfl
      · exact List.prefix_append m.log _
  | giveUp => exact handed _ _ _ rfl
  | report => exact List.prefix_append m.log _
  | fork => exact List.prefix_append m.log _
  | spawn program => exact List.prefix_append m.log _
  | exec program => exact handed _ _ _ rfl
  | die => exact handed _ _ _ rfl

/-- The log of a run grows at its end. -/
theorem step_log (world : World ω) (mask : Mask) (m : Machine ω) :
    m.log <+: (m.step world mask).log := by
  unfold Machine.step
  split
  · generalize world.act m.outside = answer
    obtain ⟨act, outside⟩ := answer
    exact perform_log world mask { m with outside := outside } _ act
  · exact List.prefix_rfl

/-- The programs and sites at which a quantum expired. -/
def expired (log : List Entry) : List (Program × UInt64) :=
  log.filterMap fun
    | .defers _ program site _ => some (program, site)
    | .yields _ program site _ _ => some (program, site)
    | _ => none

/-- The mask names no site at which a quantum of the log expired. -/
def Clear (mask : Mask) (log : List Entry) : Prop :=
  ∀ place ∈ expired log, ∀ sites ∈ mask, place.2 ∉ sites place.1

theorem Clear.shorter {log longer : List Entry} (clear : Clear mask longer)
    (grows : log <+: longer) : Clear mask log := by
  obtain ⟨more, rfl⟩ := grows
  intro place listed
  refine clear place ?_
  unfold expired
  rw [List.filterMap_append]
  exact List.mem_append_left _ listed

/-- At a site that no mask names the expiry is dealt with as without a mask. -/
theorem masked_eq {h : Hooking} {pc : UInt64} (unnamed : ∀ sites ∈ mask, pc ∉ sites h.program) :
    masked mask h pc = masked none h pc := by
  cases mask with
  | none => rfl
  | some sites =>
      have absent : (sites h.program).contains pc = false := eq_false_of_ne_true fun listed =>
        unnamed sites rfl (List.contains_iff_mem.1 listed)
      unfold masked
      rw [Option.all_some, absent]
      rfl

theorem rewriteYieldImpl_eq {site : UInt64}
    (clear : Clear mask (m.rewriteYieldImpl world none pid site).log) :
    m.rewriteYieldImpl world mask pid site = m.rewriteYieldImpl world none pid site := by
  have unnamed : ∀ sites ∈ mask, site ∉ sites (m.procs pid).program := by
    unfold Machine.rewriteYieldImpl yieldBaton at clear
    dsimp only at clear
    rw [show masked none (m.procs pid) site = (false, { m.procs pid with deferred := 0 }) from rfl,
      if_neg Bool.false_ne_true] at clear
    obtain ⟨turn, log⟩ := handOff_log world
      ((m.setProc pid { m.procs pid with deferred := 0 }).settleHooks pid) (some site)
      (.yields pid (m.procs pid).program site
        (((m.setProc pid { m.procs pid with deferred := 0 }).settleHooks pid).procs pid).hooks)
    refine clear.shorter log ((m.procs pid).program, site) ?_
    unfold expired
    rw [List.filterMap_append]
    exact List.mem_append_right _ List.mem_cons_self
  unfold Machine.rewriteYieldImpl
  rw [masked_eq unnamed]

theorem perform_eq {act : Act} (clear : Clear mask (m.perform world none pid act).log) :
    m.perform world mask pid act = m.perform world none pid act := by
  cases act with
  | hook site =>
      unfold perform Machine.hookEvent at clear ⊢
      dsimp only at clear ⊢
      split
      · rename_i expires
        rw [if_pos expires] at clear
        exact rewriteYieldImpl_eq clear
      · rfl
  | _ => rfl

theorem step_of_held (world : World ω) (mask : Mask) (held : m.holder = some pid) :
    m.step world mask =
      { m with outside := (world.act m.outside).2 }.perform world mask pid
        (world.act m.outside).1 := by
  unfold Machine.step
  rw [held]

theorem step_eq (clear : Clear mask (m.step world none).log) :
    m.step world mask = m.step world none := by
  cases held : m.holder with
  | none =>
      unfold Machine.step
      rw [held]
  | some pid =>
      rw [step_of_held world none held] at clear ⊢
      rw [step_of_held world mask held]
      exact perform_eq clear

/-- A mask of sites at which the run without it ends no quantum leaves the run alone. -/
theorem run_eq (world : World ω) (mask : Mask) (outside : ω) (program : Program) (counter : Int)
    (n : Nat) (clear : Clear mask (run world none outside program counter n).log) :
    run world mask outside program counter n = run world none outside program counter n := by
  induction n with
  | zero => rfl
  | succ n ih =>
      have before := ih (clear.shorter (step_log world none _))
      unfold run
      rw [before]
      exact step_eq clear

/-- A process that does nothing but reach one site, two events to a quantum. -/
def steady : World Unit where
  act := fun _ => (.hook 8, ())
  turn := fun _ _ => (.given 0 2, ())

/-- A process starts another and blocks after one event of five; the other blocks at the start
of a quantum of nine, and the run's stop ends the first. -/
def stopping : World Nat where
  act := fun time => ([.spawn "b", .hook 8, .giveUp, .giveUp].getD time .report, time + 1)
  turn := fun time _ => ([.given 0 5, .idle, .idle, .given 1 9, .stopped 0 .idle].getD time .idle,
    time)

end Machine

end Masks
end Derp
