import Mathlib.Data.List.Basic
import Mathlib.Logic.Function.Basic

/-!
# Masked sites

The hooked sites and the interposed calls of the baton holder count the quantum down, in a
counter that all processes of a run share.  Where it expires the baton is given up, unless a
mask names the site: then the quantum is one event longer.  Each process adds up the events
that it used.

What the program does next and what comes of a yield (the scheduler, the other threads, the
launcher) is a world that answers the same questions alike.
-/

namespace Derp
namespace Masks

abbrev Pid := Nat

/-- The name of a program's file. -/
abbrev Program := String

/-- For each program the sites at which a quantum may not end, as addresses in the file;
without a mask there is nothing to look up. -/
abbrev Mask := Option (Program → List UInt64)

def maxDeferred : Nat := 100000

/-- What the supervisor of one process keeps for its hooks. -/
structure Hooking where
  program : Program := ""
  /-- What the process last saw in the counter. -/
  lastQuantum : Int := 0
  /-- What it consumed before that. -/
  hooks : Int := 0
  /-- Expiries deferred in a row. -/
  deferred : Nat := 0
  saidMaskedLoop : Bool := false
  /-- The process is gone. -/
  ended : Bool := false

/-- What came of a yield. -/
inductive Turn
  /-- The baton is kept with the quantum as it is: a wake from outside came first, or the
  yield is a signal handler's on the thread that is inside the lock. -/
  | unheeded
  /-- The baton comes back at once, with a new quantum. -/
  | stay (quantum : Int)
  /-- A thread of the process takes the baton up, with a new quantum. -/
  | given (pid : Pid) (quantum : Int)
  /-- A thread of the process takes the baton up and finds the run stopped: the process
  reports and is gone, and the launcher hands the baton on. -/
  | stopped (pid : Pid) (next : Turn)
  /-- Nobody runs. -/
  | idle

/-- What the baton holder does next. -/
inductive Act
  /-- A hooked site, or an interposed call that counts like one. -/
  | hook (site : UInt64)
  /-- Its thread blocks or exits. -/
  | giveUp
  | report
  | fork
  | spawn (program : Program)
  | exec (program : Program)
  /-- The process exits or is killed, and the launcher hands the baton on. -/
  | die

/-- What is outside of the hooks: the programs, the scheduler and the launcher. -/
structure World (ω : Type*) where
  act : ω → Act × ω
  /-- What comes of a yield at a site, or of another hand-off. -/
  turn : ω → Option UInt64 → Turn × ω

/-- What a run records of a step, with the hooks the process has counted by then where it
settles them. -/
inductive Entry
  /-- A hook event on which no quantum ends. -/
  | counts (pid : Pid) (site : UInt64)
  | defers (pid : Pid) (program : Program) (site : UInt64) (hooks : Int)
  | yields (pid : Pid) (program : Program) (site : UInt64) (hooks : Int) (turn : Turn)
  | givesUp (pid : Pid) (hooks : Int) (turn : Turn)
  | reports (pid : Pid) (hooks : Int)
  | forks (pid child : Pid)
  | spawns (child : Pid)
  | execs (pid : Pid) (turn : Turn)
  | dies (pid : Pid) (turn : Turn)
  /-- The run's stop ends the process as it takes the baton up: what it saw in the counter
  last, what is in it now, and what it reports. -/
  | stops (pid : Pid) (last remaining hooks : Int)

structure Machine (ω : Type*) where
  outside : ω
  counter : Int
  nprocs : Nat
  procs : Pid → Hooking
  holder : Option Pid
  log : List Entry

variable {ω : Type*} {world : World ω} {mask : Mask} {m : Machine ω} {pid : Pid}

/-! ## The hooks -/

/-- Fold the hooks consumed from the current quantum into those before. -/
def Hooking.settle (h : Hooking) (remaining : Int) : Hooking :=
  { h with lastQuantum := remaining, hooks := h.hooks + (h.lastQuantum - remaining) }

namespace Machine

def setProc (m : Machine ω) (pid : Pid) (h : Hooking) : Machine ω :=
  { m with procs := Function.update m.procs pid h }

def settleHooks (m : Machine ω) (pid : Pid) : Machine ω :=
  m.setProc pid ((m.procs pid).settle m.counter)

def installQuantum (m : Machine ω) (pid : Pid) (quantum : Int) : Machine ω :=
  { m.setProc pid { m.procs pid with lastQuantum := quantum } with counter := quantum }

def note (m : Machine ω) (entry : Entry) : Machine ω :=
  { m with log := m.log ++ [entry] }

end Machine

/-- Whether the expiry is deferred. -/
def masked (mask : Mask) (h : Hooking) (pc : UInt64) : Bool × Hooking :=
  if mask.all fun sites => !(sites h.program).contains pc then
    (false, { h with deferred := 0 })
  else if h.deferred < maxDeferred then
    (true, { h with deferred := h.deferred + 1 })
  else (false, { h with deferred := 0, saidMaskedLoop := true })

namespace Machine

/-- The process of the turn is there to take the baton up. -/
def Takes (m : Machine ω) (pid : Pid) : Prop :=
  pid < m.nprocs ∧ (m.procs pid).ended = false

instance (m : Machine ω) (pid : Pid) : Decidable (m.Takes pid) :=
  inferInstanceAs (Decidable (_ ∧ _))

/-- Carry the turn out. -/
def takeUp (m : Machine ω) : Turn → Machine ω
  | .unheeded => m
  | .stay quantum =>
      match m.holder with
      | some pid => m.installQuantum pid quantum
      | none => m
  | .given pid quantum =>
      if m.Takes pid then { m.installQuantum pid quantum with holder := some pid }
      else { m with holder := none }
  | .stopped pid next =>
      if m.Takes pid then
        -- the report settles the hooks, though the counter is not the process's yet
        let h := (m.procs pid).settle m.counter
        takeUp ({ m.setProc pid { h with ended := true } with holder := none }.note
          (.stops pid (m.procs pid).lastQuantum m.counter h.hooks)) next
      else { m with holder := none }
  | .idle => { m with holder := none }

/-- Ask the world for the turn, and carry it out. -/
def handOff (world : World ω) (m : Machine ω) (site : Option UInt64) (entry : Turn → Entry) :
    Machine ω :=
  let (turn, outside) := world.turn m.outside site
  ({ m with outside := outside }.note (entry turn)).takeUp turn

/-- Give the baton up. -/
def yieldBaton (world : World ω) (m : Machine ω) (pid : Pid) (site : Option UInt64)
    (entry : Int → Turn → Entry) : Machine ω :=
  let m := m.settleHooks pid
  m.handOff world site (entry (m.procs pid).hooks)

/-- The quantum expired at a site. -/
def rewriteYieldImpl (world : World ω) (mask : Mask) (m : Machine ω) (pid : Pid)
    (pc : UInt64) : Machine ω :=
  let (isMasked, h) := masked mask (m.procs pid) pc
  let m := m.setProc pid h
  if isMasked then
    -- one more event, so the switch falls on the next hook
    let m := m.settleHooks pid
    (m.installQuantum pid 1).note (.defers pid h.program pc (m.procs pid).hooks)
  else m.yieldBaton world pid (some pc) (.yields pid h.program pc)

/-- A stub and an interposed call count alike. -/
def hookEvent (world : World ω) (mask : Mask) (m : Machine ω) (pid : Pid) (site : UInt64) :
    Machine ω :=
  let m := { m with counter := m.counter - 1 }
  if m.counter = 0 then m.rewriteYieldImpl world mask pid site
  else m.note (.counts pid site)

/-- What the holder does. -/
def perform (world : World ω) (mask : Mask) (m : Machine ω) (pid : Pid) : Act → Machine ω
  | .hook site => m.hookEvent world mask pid site
  | .giveUp => m.yieldBaton world pid none (.givesUp pid)
  | .report =>
      let m := m.settleHooks pid
      m.note (.reports pid (m.procs pid).hooks)
  | .fork =>
      -- the child has its parent's memory, less what it starts anew
      let child := m.nprocs
      ({ m with nprocs := m.nprocs + 1 }.setProc child { m.procs pid with hooks := 0 }).note
        (.forks pid child)
  | .spawn program =>
      let child := m.nprocs
      ({ m with nprocs := m.nprocs + 1 }.setProc child { program := program }).note
        (.spawns child)
  | .exec program =>
      { m.setProc pid { program := program } with holder := none }.handOff world none
        (.execs pid)
  | .die =>
      { m.setProc pid { m.procs pid with ended := true } with holder := none }.handOff world none
        (.dies pid)

/-- A step of the run; it is over when nobody runs. -/
def step (world : World ω) (mask : Mask) (m : Machine ω) : Machine ω :=
  match m.holder with
  | some pid =>
      let (act, outside) := world.act m.outside
      { m with outside := outside }.perform world mask pid act
  | none => m

/-- The run with its first process, before anybody was given the baton. -/
def initial (outside : ω) (program : Program) (counter : Int) : Machine ω where
  outside := outside
  counter := counter
  nprocs := 1
  procs := fun _ => { program := program }
  holder := none
  log := []

/-- A run of a number of steps from the first hand-off. -/
def run (world : World ω) (mask : Mask) (outside : ω) (program : Program) (counter : Int) :
    Nat → Machine ω
  | 0 =>
      let (turn, outside) := world.turn outside none
      (initial outside program counter).takeUp turn
  | n + 1 => (run world mask outside program counter n).step world mask

end Machine

end Masks
end Derp
