import Derp.Library.Registries
import Derp.Net.Kqueue
import Derp.Sched.Defs

/-!
# Kqueues that watch processes and signals

Besides its sockets a process watches through a kqueue what the run knows and the kernel
does not: another process's death, and signals that processes send.  These watches are
kept apart from the registrations on sockets, and a collect asks both.
-/

namespace Derp

/-- The filters of watches. -/
inductive WatchFilter
  | proc
  | signal
deriving DecidableEq, Repr

structure Watch where
  ident : Nat
  filter : WatchFilter
  flags : RegFlags
  fflags : Nat
  udata : Nat
  /-- The signal's count when this last fired -/
  seen : Nat
deriving DecidableEq

/-- A change of a watch, as a process asks for it. -/
structure WatchChange where
  ident : Nat
  filter : WatchFilter
  add : Bool := false
  delete : Bool := false
  enable : Bool := false
  disable : Bool := false
  flags : RegFlags := {}
  fflags : Nat := 0
  udata : Nat := 0

/-- An event of a watch. -/
structure WatchEvent where
  ident : Nat
  filter : WatchFilter
  flags : RegFlags
  fflags : Nat
  data : Int
  udata : Nat
deriving DecidableEq

/-- First virtual pid. -/
def VPID_BASE : Nat := 100000

def NOTE_EXIT : Nat := 0x80000000

/-- The bit that asks for the exit status. -/
def noteExitStatusBit : Nat := 26

/-- The process behind a virtual pid, if it is one of the run's. -/
def processOf (vpid : Nat) : Option Pid :=
  if VPID_BASE ≤ vpid ∧ vpid < VPID_BASE + maxProcs then some (vpid - VPID_BASE) else none

/-- Whether a change is a watch rather than the kernel's. -/
def WatchChange.isWatch (ev : WatchChange) : Bool :=
  match ev.filter with
  | .proc => (processOf ev.ident).isSome
  | .signal => decide (1 ≤ ev.ident ∧ ev.ident < 32)

open Registries (Shot)

namespace Watch

def key (w : Watch) : Nat × WatchFilter := (w.ident, w.filter)

def event (w : Watch) (fflags : Nat) (data : Int) : WatchEvent where
  ident := w.ident
  filter := w.filter
  flags := w.flags
  fflags
  data
  udata := w.udata

/-- What a change that adds a watch registers, for a process of which so many signals are
counted. -/
def added (counts : Nat → Nat) (ev : WatchChange) : Watch where
  ident := ev.ident
  filter := ev.filter
  flags := ev.flags
  fflags := ev.fflags
  udata := ev.udata
  seen := match ev.filter with
    | .signal => counts ev.ident
    | .proc => 0

/-- What a watch of the process has now: the death of the process it watches, or signals
sent since it last fired. -/
def shot (s : State) (pid : Pid) (w : Watch) : Option (Shot Watch WatchEvent) :=
  match w.filter with
  | .proc =>
      match processOf w.ident with
      | none => none
      | some target =>
          let p := s.procs target
          if p.state = .exited ∨ p.killed = true then
            some
              { event := w.event NOTE_EXIT
                  (if w.fflags.testBit noteExitStatusBit then p.exitStatus else 0)
                left := w
                gone := true }
          else none
  | .signal =>
      let count := (s.procs pid).sigCounts w.ident
      if count = w.seen then none
      else
        some
          { event := w.event 0 (count - w.seen : Nat)
            left := { w with seen := count }
            gone := w.flags.oneshot }

end Watch

/-- What a change makes of the watch it is about, if there is one. -/
def watched (counts : Nat → Nat) (ev : WatchChange) (at_ : Option Watch) : Option Watch :=
  if ev.delete then none
  else if ev.add then some (Watch.added counts ev)
  else at_

/-- Apply one change to the watches. -/
def watch (counts : Nat → Nat) (ev : WatchChange) : List Watch → List Watch :=
  Registries.alter Watch.key (ev.ident, ev.filter) (watched counts ev)

/-- Events the watches have now, up to `room`; those that go are removed by their index after
the loop. -/
def collectWatches (s : State) (pid : Pid) (room : Nat) (watches : List Watch) :
    List Watch × List WatchEvent :=
  let scan := Registries.scan (Watch.shot s pid) 0 room watches
  (scan.removed, scan.events)

/-- What becomes of a registration on a socket that fires. -/
def Reg.shot (net : Net) (r : Reg) : Option (Shot Reg Kevent) :=
  let snap := net.snapshot r.sock r.filter
  if r.fires snap then
    some
      { event := r.event snap
        left :=
          let r := { r with seen := some snap.events }
          if r.flags.oneshot then r
          -- Delivered once, then silent until the process enables it again
          else if r.flags.dispatch then { r with enabled := false }
          else r
        gone := r.flags.oneshot }
  else none

/-- A kqueue of a process of a run. -/
structure Queue where
  world : State
  regs : List Reg
  watches : List Watch

inductive QueueEvent
  | socket (e : Kevent)
  | watch (e : WatchEvent)
deriving DecidableEq

/-- Events the kqueue has now, those of sockets first. -/
def Queue.collect (pid : Pid) (q : Queue) (room : Nat) : Queue × List QueueEvent :=
  let (regs, events) := Derp.collect q.world.net room q.regs
  let (watches, more) := collectWatches q.world pid (room - events.length) q.watches
  ({ q with regs, watches }, events.map .socket ++ more.map .watch)

/-- What happens to a kqueue: the run goes on, its process changes registrations, closes a
descriptor or collects events. -/
inductive QueueAct
  | world (later : State)
  | change (ev : Change) (sock : SockId)
  | watch (ev : WatchChange)
  | closed (fd : Nat)
  | collect (room : Nat) (events : List QueueEvent)

/-- The runs of a kqueue, which is empty at first. -/
def queueing (pid : Pid) : Transition Queue QueueAct where
  init := fun q => q.regs = [] ∧ q.watches = []
  step := fun q act later =>
    match act with
    | .world world => later = { q with world }
    | .change ev sock => later = { q with regs := change ev sock q.regs }
    | .watch ev =>
        ev.isWatch = true ∧
          later = { q with watches := watch (q.world.procs pid).sigCounts ev q.watches }
    | .closed fd => later = { q with regs := forget fd q.regs }
    | .collect room events => q.collect pid room = (later, events)

/-! ## Both registries are registries -/

section Registries

variable {regs : List Reg} {watches : List Watch}

def Reg.key (r : Reg) : Nat × Filter := (r.fd, r.filter)

theorem Reg.isFor_iff (r : Reg) (fd : Nat) (filter : Filter) :
    r.isFor fd filter = true ↔ r.key = (fd, filter) := by
  unfold isFor Reg.key
  rw [Bool.and_eq_true, decide_eq_true_eq, decide_eq_true_eq, Prod.mk.injEq]

/-- What a change makes of the registration it is about, if there is one. -/
def changed (ev : Change) (sock : SockId) (at_ : Option Reg) : Option Reg :=
  if ev.delete then none
  else
    match at_ with
    | some r => some (r.apply ev sock)
    | none =>
        if ev.add then
          some (Reg.apply { fd := ev.fd, sock := sock, filter := ev.filter } ev sock)
        else none

theorem change_eq_alter (ev : Change) (sock : SockId) (regs : List Reg) :
    change ev sock regs = Registries.alter Reg.key (ev.fd, ev.filter) (changed ev sock) regs := by
  induction regs with
  | nil =>
      unfold change Registries.alter changed
      dsimp only
      split
      · rfl
      · split
        · rfl
        · rfl
  | cons r regs ih =>
      unfold change Registries.alter changed
      rw [ih]
      simp only [Reg.isFor_iff]
      split
      · split
        · rfl
        · rfl
      · rfl

theorem Reg.fired_eq_rest (r : Reg) (snap : Snapshot) {event : Kevent} :
    r.fired snap = Shot.rest
      { event
        left :=
          let r := { r with seen := some snap.events }
          if r.flags.oneshot then r
          else if r.flags.dispatch then { r with enabled := false }
          else r
        gone := r.flags.oneshot } := by
  unfold Reg.fired Shot.rest
  dsimp only
  split
  · rfl
  · split
    · rfl
    · rfl

/-- The registrations on sockets are collected as any. -/
theorem collect_eq_collect (net : Net) (room : Nat) (regs : List Reg) :
    collect net room regs = Registries.collect (Reg.shot net) room regs := by
  induction regs generalizing room with
  | nil => cases room <;> rfl
  | cons r regs ih =>
      cases room with
      | zero => rfl
      | succ room =>
          unfold collect
          dsimp only
          split
          · rename_i fires
            rw [Registries.collect_succ_of_some (show Reg.shot net r = some _ from if_pos fires),
              ih, Reg.fired_eq_rest]
          · rename_i quiet
            rw [Registries.collect_succ_of_none (show Reg.shot net r = none from if_neg quiet), ih]

theorem collectWatches_eq_collect (s : State) (pid : Pid) (room : Nat) (watches : List Watch) :
    collectWatches s pid room watches = Registries.collect (Watch.shot s pid) room watches :=
  Registries.removed_scan room watches

end Registries

end Derp
