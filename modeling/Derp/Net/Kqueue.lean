import Derp.Net.Notices

/-!
# Kqueues that watch sockets

A process registers for the readiness of its sockets and collects events.  An
edge-triggered registration fires once for each state of its socket's event
counter, so a socket that becomes ready fires it as long as the counter is
bumped.
-/

namespace Derp

/-- The filters that watch virtual sockets. -/
inductive Filter
  | read
  | write
  deriving DecidableEq, Repr

/-- What a registration keeps of the flags of its change. -/
structure RegFlags where
  clear : Bool := false
  oneshot : Bool := false
  dispatch : Bool := false
  deriving DecidableEq, Repr

/-- A registration of a descriptor for a filter. -/
structure Reg where
  fd : Nat
  sock : SockId
  filter : Filter
  flags : RegFlags := {}
  udata : Nat := 0
  enabled : Bool := true
  /-- The socket's event counter when this last fired. -/
  seen : Option Nat := none

/-- A change of a registration, as a process asks for it. -/
structure Change where
  fd : Nat
  filter : Filter
  add : Bool := false
  delete : Bool := false
  enable : Bool := false
  disable : Bool := false
  flags : RegFlags := {}
  udata : Nat := 0

/-- An event a process gets. -/
structure Kevent where
  fd : Nat
  filter : Filter
  flags : RegFlags
  eof : Bool
  data : Nat
  udata : Nat
  deriving DecidableEq, Repr

/-- What a registration looks at. -/
structure Snapshot where
  ready : Bool
  eof : Bool
  data : Nat
  events : Nat

namespace Net

/-- The bytes a receive would find. -/
def pendingBytes (net : Net) (sock : SockId) : Nat :=
  let s := net.socks sock
  if s.kind ≠ .dgram ∨ s.rx.len = 0 then s.rx.len
  else ofLittleEndian (net.ringPeek sock 0 4)

def snapshot (net : Net) (sock : SockId) : Filter → Snapshot
  | .read =>
      let k := net.socks sock
      { ready := net.readable sock
        eof := k.kind ≠ .dgram && k.state = .connected && k.fin
        data :=
          if k.state = .listening then (net.readable sock).toNat
          else net.pendingBytes sock
        events := k.rdEvents }
  | .write =>
      { ready := net.writable sock
        eof := false
        data := 0
        events := (net.socks sock).wrEvents }

end Net

namespace Reg

/-- The registration a change is about. -/
def isFor (r : Reg) (fd : Nat) (filter : Filter) : Bool :=
  r.fd = fd && r.filter = filter

/-- What adding and enabling do to a registration, new or old. -/
def apply (r : Reg) (ev : Change) (sock : SockId) : Reg :=
  let r :=
    -- Re-adding re-arms an edge-triggered registration.
    if ev.add then
      { r with flags := ev.flags, udata := ev.udata, sock := sock, seen := none }
    else r
  let r :=
    if ev.enable then
      -- The kernel looks again on enable: unread data fires once more.
      { r with
        enabled := true
        seen := if r.flags.dispatch then none else r.seen }
    else r
  if ev.disable then { r with enabled := false } else r

end Reg

/-- Apply one change to the registrations of a kqueue. -/
def change (ev : Change) (sock : SockId) : List Reg → List Reg
  | [] =>
      if ev.delete then []
      else if ev.add then
        [Reg.apply { fd := ev.fd, sock := sock, filter := ev.filter } ev sock]
      else []
  | r :: regs =>
      if r.isFor ev.fd ev.filter then
        if ev.delete then regs else r.apply ev sock :: regs
      else r :: change ev sock regs

/-- Whether a registration fires at what it sees. -/
def Reg.fires (r : Reg) (snap : Snapshot) : Bool :=
  r.enabled && snap.ready && !(r.flags.clear && r.seen = some snap.events)

/-- The event of a registration that fires. -/
def Reg.event (r : Reg) (snap : Snapshot) : Kevent where
  fd := r.fd
  filter := r.filter
  flags := r.flags
  eof := snap.eof
  data := snap.data
  udata := r.udata

/-- What is left of a registration that fired. -/
def Reg.fired (r : Reg) (snap : Snapshot) : Option Reg :=
  let r := { r with seen := some snap.events }
  if r.flags.oneshot then none
  -- Delivered once, then silent until the process enables it again.
  else if r.flags.dispatch then some { r with enabled := false }
  else some r

/-- The events the registrations have now, up to `room`, and the registrations
that are left. -/
def collect (net : Net) : Nat → List Reg → List Reg × List Kevent
  | _, [] => ([], [])
  | 0, regs => (regs, [])
  | room + 1, r :: regs =>
      let snap := net.snapshot r.sock r.filter
      if r.fires snap then
        let (later, events) := collect net room regs
        ((r.fired snap).toList ++ later, r.event snap :: events)
      else
        let (later, events) := collect net (room + 1) regs
        (r :: later, events)

/-- A descriptor was closed, and its registrations go. -/
def forget (fd : Nat) (regs : List Reg) : List Reg :=
  regs.filter fun r => r.fd ≠ fd

/-! ## Runs of a process that watches -/

/-- The network and the registrations of a kqueue. -/
structure Watcher where
  net : Net
  regs : List Reg

/-- What happens to a kqueue: a call of any process, and what its own process
does with it. -/
inductive Act
  | call (op : Net.Op) (answer : Except NetError Net.Answer)
  | change (ev : Change) (sock : SockId)
  | closed (fd : Nat)
  | collect (room : Nat) (events : List Kevent)

/-- The runs of a kqueue from the zeroed network.  A change names a socket that
the process has a descriptor for, and the registrations of a descriptor go
before the descriptor is closed. -/
def watching : Transition Watcher Act where
  init := fun w => (∃ names latencyNs, w.net = Net.zeroed names latencyNs) ∧
    w.regs = []
  step := fun w act later =>
    match act with
    | .call op answer =>
        w.net.Admissible op ∧ w.net.exec op = some (later.net, answer) ∧
          later.regs = w.regs ∧ ∀ r ∈ w.regs, (later.net.socks r.sock).Open
    | .change ev sock =>
        later.net = w.net ∧ (w.net.socks sock).Open ∧
          later.regs = change ev sock w.regs
    | .closed fd => later.net = w.net ∧ later.regs = forget fd w.regs
    | .collect room events =>
        later.net = w.net ∧ collect w.net room w.regs = (later.regs, events)

/-- An edge-triggered registration that is on. -/
def Reg.Armed (r : Reg) : Prop :=
  r.enabled = true ∧ r.flags.clear = true

/-- The readiness a registration waits for. -/
def Reg.Ready (r : Reg) (net : Net) : Prop :=
  (net.snapshot r.sock r.filter).ready = true

/-- The call shuts down the half of the socket that a registration watches. -/
def Reg.Quiets (r : Reg) (op : Net.Op) : Prop :=
  match r.filter with
  | .read => op.ShutsRead r.sock
  | .write => op.ShutsWrite r.sock

/-- The process takes the registration away, turns it off or changes what it
is for. -/
def Act.Disarms (r : Reg) : Act → Prop
  | .call _ _ => False
  | .change ev sock =>
      ev.fd = r.fd ∧ ev.filter = r.filter ∧
        (ev.delete = true ∨ ev.disable = true ∨
          ev.add = true ∧ (ev.flags.clear = false ∨ sock ≠ r.sock))
  | .closed fd => fd = r.fd
  | .collect _ _ => False

/-- The process gets an event of the registration. -/
def Act.Reports (r : Reg) : Act → Prop
  | .collect _ events => ∃ e ∈ events, e.fd = r.fd ∧ e.filter = r.filter
  | _ => False

variable
  {net later : Net}
  {regs left : List Reg}
  {events : List Kevent}
  {room : Nat}
  {r : Reg}

/-! ## Collecting -/

theorem collect_zero (net : Net) (regs : List Reg) :
    collect net 0 regs = (regs, []) := by
  cases regs <;> rfl

/-- A registration is left or fires. -/
theorem mem_of_collect
    (collected : collect net room regs = (left, events))
    (present : r ∈ regs) :
    r ∈ left ∨ r.event (net.snapshot r.sock r.filter) ∈ events := by
  induction regs generalizing room left events with
  | nil => cases present
  | cons first regs inductionHypothesis =>
      cases room with
      | zero =>
          rw [collect_zero] at collected
          cases collected
          exact .inl present
      | succ room =>
          unfold collect at collected
          dsimp only at collected
          split at collected
          · cases collected
            rcases List.mem_cons.1 present with rfl | rest
            · exact .inr List.mem_cons_self
            · rcases inductionHypothesis rfl rest with kept | fired
              · exact .inl (List.mem_append_right _ kept)
              · exact .inr (List.mem_cons_of_mem _ fired)
          · cases collected
            rcases List.mem_cons.1 present with rfl | rest
            · exact .inl List.mem_cons_self
            · rcases inductionHypothesis rfl rest with kept | fired
              · exact .inl (List.mem_cons_of_mem _ kept)
              · exact .inr fired

/-- A registration that fires is collected, unless there is no room left. -/
theorem event_mem_of_collect
    (collected : collect net room regs = (left, events))
    (present : r ∈ regs)
    (fires : r.fires (net.snapshot r.sock r.filter) = true)
    (space : events.length < room) :
    r.event (net.snapshot r.sock r.filter) ∈ events := by
  induction regs generalizing room left events with
  | nil => cases present
  | cons first regs inductionHypothesis =>
      cases room with
      | zero => exact absurd space (Nat.not_lt_zero _)
      | succ room =>
          unfold collect at collected
          dsimp only at collected
          split at collected
          · cases collected
            rcases List.mem_cons.1 present with rfl | rest
            · exact List.mem_cons_self
            · rw [List.length_cons] at space
              exact List.mem_cons_of_mem _
                (inductionHypothesis rfl rest (by omega))
          · next quiet =>
              cases collected
              rcases List.mem_cons.1 present with rfl | rest
              · exact absurd fires quiet
              · exact inductionHypothesis rfl rest space

/-- What is left of the registrations was there, or has fired. -/
theorem left_of_collect
    (collected : collect net room regs = (left, events))
    (present : r ∈ left) :
    r ∈ regs ∨ r.seen = some (net.snapshot r.sock r.filter).events ∧
      ∃ old ∈ regs, old.sock = r.sock := by
  induction regs generalizing room left events with
  | nil =>
      cases room <;> cases collected <;> cases present
  | cons first regs inductionHypothesis =>
      cases room with
      | zero =>
          rw [collect_zero] at collected
          cases collected
          exact .inl present
      | succ room =>
          have later {rest : List Reg} {events : List Kevent} {room : Nat}
              (collected : collect net room regs = (rest, events))
              (member : r ∈ rest) : r ∈ first :: regs ∨
                r.seen = some (net.snapshot r.sock r.filter).events ∧
                  ∃ old ∈ first :: regs, old.sock = r.sock := by
            rcases inductionHypothesis collected member with old |
                ⟨seen, old, there, same⟩
            · exact .inl (List.mem_cons_of_mem _ old)
            · exact .inr ⟨seen, old, List.mem_cons_of_mem _ there, same⟩
          unfold collect at collected
          dsimp only at collected
          split at collected
          · cases collected
            rcases List.mem_append.1 present with fired | rest
            · right
              unfold Reg.fired at fired
              dsimp only at fired
              split at fired
              · cases fired
              · split at fired
                · rw [Option.toList_some, List.mem_singleton] at fired
                  subst fired
                  exact ⟨rfl, first, List.mem_cons_self, rfl⟩
                · rw [Option.toList_some, List.mem_singleton] at fired
                  subst fired
                  exact ⟨rfl, first, List.mem_cons_self, rfl⟩
            · exact later rfl rest
          · cases collected
            rcases List.mem_cons.1 present with rfl | rest
            · exact .inl List.mem_cons_self
            · exact later rfl rest

/-! ## Changes -/

/-- What a change does to a registration: it adds it anew, or it leaves its
socket alone and may let it look again. -/
theorem Reg.apply_cases (r : Reg) (ev : Change) (sock : SockId) :
    (r.apply ev sock).fd = r.fd ∧ (r.apply ev sock).filter = r.filter ∧
      (ev.add = true ∧ (r.apply ev sock).sock = sock ∧
          (r.apply ev sock).flags = ev.flags ∧ (r.apply ev sock).seen = none ∨
        ev.add = false ∧ (r.apply ev sock).sock = r.sock ∧
          (r.apply ev sock).flags = r.flags ∧
          ((r.apply ev sock).seen = none ∨
            (r.apply ev sock).seen = r.seen)) ∧
      (ev.disable = false → r.enabled = true →
        (r.apply ev sock).enabled = true) := by
  unfold Reg.apply
  cases ev.add <;> cases ev.enable <;> cases ev.disable <;> grind

/-- Where the registrations come from that a change leaves. -/
theorem mem_of_change
    {ev : Change}
    {sock : SockId}
    (present : r ∈ change ev sock regs) :
    r ∈ regs ∨
      (∃ old ∈ regs, r = old.apply ev sock) ∨
      r = Reg.apply { fd := ev.fd, sock := sock, filter := ev.filter } ev
        sock := by
  induction regs with
  | nil =>
      unfold change at present
      split at present
      · cases present
      · split at present
        · exact .inr (.inr (List.mem_singleton.1 present))
        · cases present
  | cons first regs inductionHypothesis =>
      unfold change at present
      split at present
      · split at present
        · exact .inl (List.mem_cons_of_mem _ present)
        · rcases List.mem_cons.1 present with rfl | rest
          · exact .inr (.inl ⟨first, List.mem_cons_self, rfl⟩)
          · exact .inl (List.mem_cons_of_mem _ rest)
      · rcases List.mem_cons.1 present with rfl | rest
        · exact .inl List.mem_cons_self
        · rcases inductionHypothesis rest with old | ⟨old, there, same⟩ | new
          · exact .inl (List.mem_cons_of_mem _ old)
          · exact .inr (.inl ⟨old, List.mem_cons_of_mem _ there, same⟩)
          · exact .inr (.inr new)

/-- A registration stays, or the change is applied to it. -/
theorem change_of_mem
    {ev : Change}
    {sock : SockId}
    (present : r ∈ regs) :
    r ∈ change ev sock regs ∨
      ev.fd = r.fd ∧ ev.filter = r.filter ∧
        (ev.delete = true ∨ r.apply ev sock ∈ change ev sock regs) := by
  induction regs with
  | nil => cases present
  | cons first regs inductionHypothesis =>
      unfold change
      split
      · next isFor =>
          unfold Reg.isFor at isFor
          rw [Bool.and_eq_true, decide_eq_true_eq, decide_eq_true_eq] at isFor
          rcases List.mem_cons.1 present with rfl | rest
          · refine .inr ⟨isFor.1.symm, isFor.2.symm, ?_⟩
            split
            · next deleted => exact .inl deleted
            · exact .inr List.mem_cons_self
          · left
            split
            · exact rest
            · exact List.mem_cons_of_mem _ rest
      · rcases List.mem_cons.1 present with rfl | rest
        · exact .inl List.mem_cons_self
        · rcases inductionHypothesis rest with kept | ⟨fd, filter, applied⟩
          · exact .inl (List.mem_cons_of_mem _ kept)
          · exact .inr ⟨fd, filter,
              applied.imp_right (List.mem_cons_of_mem _)⟩

/-! ## What a registration has seen -/

/-- The events a registration counts. -/
abbrev Reg.count (r : Reg) (net : Net) : Nat :=
  (net.snapshot r.sock r.filter).events

/-- Registrations have sockets in use, and have not seen events to come. -/
def Watcher.Current (w : Watcher) : Prop :=
  ∀ r ∈ w.regs, (w.net.socks r.sock).Open ∧
    ∀ n, r.seen = some n → n ≤ r.count w.net

/-- The registration has not fired since its socket became ready. -/
def Watcher.Due (w : Watcher) (r : Reg) : Prop :=
  ∃ r' ∈ w.regs, r'.fd = r.fd ∧ r'.filter = r.filter ∧ r'.sock = r.sock ∧
    r'.Armed ∧ ∀ n, r'.seen = some n → n < r.count w.net

theorem watching_net
    {w : Watcher}
    (reachable : watching.Reachable w) : Net.system.Reachable w.net := by
  induction reachable with
  | start initial => exact .start initial.1
  | @next w later act _ step inductionHypothesis =>
      cases act with
      | call op answer =>
          have called : Net.system.step w.net (op, answer) later.net :=
            ⟨step.1, step.2.1⟩
          exact .next inductionHypothesis called
      | change ev sock => rw [step.1]; exact inductionHypothesis
      | closed fd => rw [step.1]; exact inductionHypothesis
      | collect room events => rw [step.1]; exact inductionHypothesis

/-- Events are counted up while the socket is in use. -/
theorem Reg.count_le
    (reachable : Net.system.Reachable net)
    {op : Net.Op}
    (admissible : net.Admissible op)
    {answer : Except NetError Net.Answer}
    (done : net.exec op = some (later, answer))
    (r : Reg)
    (before : (net.socks r.sock).Open)
    (after : (later.socks r.sock).Open) : r.count net ≤ r.count later := by
  have heeds := Net.Heeds.exec reachable admissible done
  unfold Reg.count
  cases r.filter with
  | read => exact heeds.rdLe r.sock before after
  | write => exact heeds.wrLe r.sock before after

theorem watching_current
    {w : Watcher}
    (reachable : watching.Reachable w) : w.Current := by
  induction reachable with
  | start initial =>
      intro r present
      rw [initial.2] at present
      cases present
  | @next w later act before step inductionHypothesis =>
      intro r present
      cases act with
      | call op answer =>
          obtain ⟨admissible, done, sameRegs, stillOpen⟩ := step
          rw [sameRegs] at present
          obtain ⟨isOpen, seen⟩ := inductionHypothesis r present
          refine ⟨stillOpen r present, fun n isSeen => ?_⟩
          exact (seen n isSeen).trans (r.count_le (watching_net before)
            admissible done isOpen (stillOpen r present))
      | change ev sock =>
          obtain ⟨sameNet, isOpen, changed⟩ := step
          rw [changed] at present
          rw [sameNet]
          rcases mem_of_change present with old | ⟨old, there, rfl⟩ | rfl
          · exact inductionHypothesis r old
          · obtain ⟨wasOpen, seen⟩ := inductionHypothesis old there
            obtain ⟨-, filter, added | kept, -⟩ := old.apply_cases ev sock
            · obtain ⟨-, sameSock, -, unseen⟩ := added
              rw [sameSock, unseen]
              exact ⟨isOpen, nofun⟩
            · obtain ⟨-, sameSock, -, unseen | same⟩ := kept
              · rw [sameSock, unseen]
                exact ⟨wasOpen, nofun⟩
              · unfold Reg.count
                rw [sameSock, same, filter]
                exact ⟨wasOpen, seen⟩
          · obtain ⟨-, filter, added | kept, -⟩ := Reg.apply_cases
              { fd := ev.fd, sock := sock, filter := ev.filter } ev sock
            · obtain ⟨-, sameSock, -, unseen⟩ := added
              rw [sameSock, unseen]
              exact ⟨isOpen, nofun⟩
            · obtain ⟨-, sameSock, -, unseen | unseen⟩ := kept
              · rw [sameSock, unseen]
                exact ⟨isOpen, nofun⟩
              · rw [sameSock, unseen]
                exact ⟨isOpen, nofun⟩
      | closed fd =>
          obtain ⟨sameNet, left⟩ := step
          rw [left] at present
          rw [sameNet]
          exact inductionHypothesis r (List.mem_of_mem_filter present)
      | collect room events =>
          obtain ⟨sameNet, collected⟩ := step
          rw [sameNet]
          rcases left_of_collect collected present with old |
              ⟨seen, old, there, same⟩
          · exact inductionHypothesis r old
          · have isOpen := (inductionHypothesis old there).1
            rw [same] at isOpen
            refine ⟨isOpen, fun n isSeen => ?_⟩
            rw [seen] at isSeen
            exact (Option.some.inj isSeen).ge

/-! ## A registration that is due fires -/

/-- A registration stays due until it fires or is disarmed. -/
theorem Watcher.Due.step
    {w later : Watcher}
    {act : Act}
    (reachable : watching.Reachable w)
    (due : w.Due r)
    (step : watching.step w act later)
    (armed : ¬act.Disarms r) : act.Reports r ∨ later.Due r := by
  obtain ⟨r', present, fd, filter, sock, ⟨enabled, clear⟩, unseen⟩ := due
  cases act with
  | call op answer =>
      obtain ⟨admissible, done, sameRegs, stillOpen⟩ := step
      refine .inr ⟨r', sameRegs ▸ present, fd, filter, sock, ⟨enabled, clear⟩,
        fun n isSeen => ?_⟩
      have isOpen := (watching_current reachable r' present).1
      have after := stillOpen r' present
      rw [sock] at isOpen after
      exact (unseen n isSeen).trans_le
        (r.count_le (watching_net reachable) admissible done isOpen after)
  | change ev sock' =>
      obtain ⟨sameNet, -, changed⟩ := step
      right
      unfold Watcher.Due
      rw [changed, sameNet]
      rcases @change_of_mem _ _ ev sock' present with kept |
          ⟨sameFd, sameFilter, deleted | applied⟩
      · exact ⟨r', kept, fd, filter, sock, ⟨enabled, clear⟩, unseen⟩
      · exact absurd ⟨sameFd.trans fd, sameFilter.trans filter, .inl deleted⟩
          armed
      · have quiet (what : ev.delete = true ∨ ev.disable = true ∨
            ev.add = true ∧ (ev.flags.clear = false ∨ sock' ≠ r.sock)) :
            False :=
          armed ⟨sameFd.trans fd, sameFilter.trans filter, what⟩
        obtain ⟨applyFd, applyFilter, cases', stays⟩ := r'.apply_cases ev sock'
        have on : (r'.apply ev sock').enabled = true := by
          refine stays ?_ enabled
          by_contra off
          exact quiet (.inr (.inl (by simpa using off)))
        refine ⟨_, applied, applyFd.trans fd, applyFilter.trans filter, ?_⟩
        rcases cases' with ⟨adds, sameSock, flags, noneSeen⟩ |
            ⟨-, sameSock, flags, noneSeen | same⟩
        · have ofSock : sock' = r.sock := by
            by_contra other
            exact quiet (.inr (.inr ⟨adds, .inr other⟩))
          have isClear : ev.flags.clear = true := by
            by_contra level
            exact quiet (.inr (.inr ⟨adds, .inl (by simpa using level)⟩))
          refine ⟨sameSock.trans ofSock, ⟨on, by rw [flags, isClear]⟩, ?_⟩
          rw [noneSeen]
          exact nofun
        · refine ⟨sameSock.trans sock, ⟨on, by rw [flags, clear]⟩, ?_⟩
          rw [noneSeen]
          exact nofun
        · refine ⟨sameSock.trans sock, ⟨on, by rw [flags, clear]⟩, ?_⟩
          rw [same]
          exact unseen
  | closed other =>
      obtain ⟨sameNet, left⟩ := step
      refine .inr ⟨r', ?_, fd, filter, sock, ⟨enabled, clear⟩, ?_⟩
      · rw [left]
        apply List.mem_filter.2 ⟨present, ?_⟩
        rw [decide_eq_true_eq, fd]
        exact fun same => armed same.symm
      · rw [sameNet]
        exact unseen
  | collect room events =>
      obtain ⟨sameNet, collected⟩ := step
      rcases mem_of_collect collected present with kept | fired
      · refine .inr ⟨r', kept, fd, filter, sock, ⟨enabled, clear⟩, ?_⟩
        rw [sameNet]
        exact unseen
      · exact .inl ⟨_, fired, fd, filter⟩

theorem Watcher.Due.run
    {w later : Watcher}
    {acts : List Act}
    (reachable : watching.Reachable w)
    (due : w.Due r)
    (run : watching.Run w acts later)
    (armed : ∀ act ∈ acts, ¬act.Disarms r) :
    (∃ act ∈ acts, act.Reports r) ∨ later.Due r := by
  induction run with
  | refl => exact .inr due
  | @tail middle later acts act run step inductionHypothesis =>
      rcases inductionHypothesis
          (fun act earlier => armed act (List.mem_append_left _ earlier)) with
        ⟨act, earlier, reports⟩ | stillDue
      · exact .inl ⟨act, List.mem_append_left _ earlier, reports⟩
      · rcases stillDue.step (run.reachable reachable) step
          (armed act (List.mem_append_right _ (List.mem_singleton_self act)))
          with reports | later
        · exact .inl ⟨act, List.mem_append_right _
            (List.mem_singleton_self act), reports⟩
        · exact .inr later

/-- A registration that is due fires when its process looks while its socket is
ready, unless other events leave no room for its own. -/
theorem Watcher.Due.look
    {w later : Watcher}
    (due : w.Due r)
    (ready : r.Ready w.net)
    (look : watching.step w (.collect room events) later)
    (space : events.length < room) : (Act.collect room events).Reports r := by
  obtain ⟨r', present, fd, filter, sock, ⟨enabled, clear⟩, unseen⟩ := due
  have fires : r'.fires (w.net.snapshot r'.sock r'.filter) = true := by
    unfold Reg.Ready at ready
    unfold Reg.fires
    rw [sock, filter, ready, enabled, clear]
    simp only [Bool.and_self, Bool.true_and, Bool.not_eq_true',
      decide_eq_false_iff_not]
    intro same
    exact absurd rfl (unseen _ same).ne
  exact ⟨_, event_mem_of_collect look.2 present fires space, fd, filter⟩

/-! ## No edge is lost -/

/-- Which calls announce the readiness they bring about, and what a process
that waits for it gets to see.  A shutdown of a socket's own half goes
unannounced, and so does the end of a socket that has lost its last descriptor
while its far end is in use. -/
theorem edges_of_reachable
    (reachable : Net.system.Reachable net)
    {op : Net.Op}
    (admissible : net.Admissible op)
    {answer : Except NetError Net.Answer}
    (done : net.exec op = some (later, answer)) :
    (∀ i, (net.socks i).state ≠ .free → (net.socks i).kind = .stream →
      ((later.socks i).Open →
        (Net.RdAnnounced net later i ↔ net.readable i = true ∨
          ¬((net.socks i).state = .connected ∧ op.ShutsRead i)) ∧
        (Net.WrAnnounced net later i ↔
          net.writable i = true ∨ ¬op.ShutsWrite i)) ∧
      ((later.socks i).state = .closed →
        (Net.RdAnnounced net later i ↔ net.readable i = true) ∧
        (Net.WrAnnounced net later i ↔ net.writable i = true))) ∧
    ∀ regs, watching.Reachable ⟨net, regs⟩ →
      (∀ r ∈ regs, (later.socks r.sock).Open) →
      ∀ r ∈ regs, r.Armed → (net.socks r.sock).kind = .stream →
        ¬r.Ready net → r.Ready later → ¬r.Quiets op →
        ∀ acts w, watching.Run ⟨later, regs⟩ acts w →
          (∀ act ∈ acts, ¬act.Disarms r) → r.Ready w.net →
          ∀ room events left,
            watching.step w (.collect room events) left →
            events.length < room →
            ∃ act ∈ acts ++ [.collect room events], act.Reports r := by
  constructor
  · intro i used stream
    constructor
    · intro kept
      exact ⟨Net.rdAnnounced_iff reachable admissible done used stream kept,
        Net.wrAnnounced_iff reachable admissible done used stream kept⟩
    · intro closed
      exact Net.announced_of_closed reachable admissible done used closed
  · intro regs watched stillOpen r present armed stream notReady ready loud
      acts w run kept readyNow room events left look space
    have called : watching.step ⟨net, regs⟩ (.call op answer) ⟨later, regs⟩ :=
      ⟨admissible, done, rfl, stillOpen⟩
    obtain ⟨isOpen, seen⟩ := watching_current watched r present
    have bumped : r.count net < r.count later := by
      have heeds := Net.Heeds.exec reachable admissible done
      have after := stillOpen r present
      unfold Reg.Ready at notReady ready
      unfold Reg.Quiets at loud
      unfold Reg.count
      cases which : r.filter with
      | read =>
          rw [which] at notReady ready loud
          exact (heeds.read r.sock isOpen after stream loud ready).resolve_left
            notReady
      | write =>
          rw [which] at notReady ready loud
          exact (heeds.write r.sock isOpen after stream loud ready).resolve_left
            notReady
    have due : Watcher.Due ⟨later, regs⟩ r :=
      ⟨r, present, rfl, rfl, rfl, armed,
        fun n isSeen => (seen n isSeen).trans_lt bumped⟩
    rcases due.run (.next watched called) run kept with
      ⟨act, earlier, reports⟩ | stillDue
    · exact ⟨act, List.mem_append_left _ earlier, reports⟩
    · exact ⟨_, List.mem_append_right _ (List.mem_singleton_self _),
        stillDue.look readyNow look space⟩

/-- A listener, and a socket that is about to connect to it. -/
def aboutToConnect : List Net.Op :=
  [.opened 1 0 .unix .stream 7, .bind 0 (Addr.unix [65]), .listen 0 5,
    .opened 1 0 .unix .stream 8]

/-- The listener becomes readable, and has an event to show for it. -/
theorem edges_of_connect :
    ∃ net later : Net, net.readable 0 = false ∧ later.readable 0 = true ∧
      (net.socks 0).rdEvents < (later.socks 0).rdEvents := by
  obtain ⟨net, played, facts⟩ := Option.map_eq_some_iff.mp
    (by decide +kernel : (Net.play Net.Admissible aboutToConnect
      (Net.zeroed [[]] 0)).map (fun net =>
        ((net.socks 0).state, (net.socks 0).kind, net.readable 0,
          (net.connect 1 0 (Addr.unix [65])).1.readable 0,
          ((net.connect 1 0 (Addr.unix [65])).1.socks 0).state)) =
            some (.listening, .stream, false, true, .listening))
  simp only [Prod.mk.injEq] at facts
  obtain ⟨listening, stream, notReady, ready, still⟩ := facts
  have done : net.exec (.connect 1 0 (Addr.unix [65])) = some (_, _) := rfl
  have admissible : net.Admissible (.connect 1 0 (Addr.unix [65])) := trivial
  obtain ⟨edges, -⟩ := edges_of_reachable
    (Net.reachable_play (.start ⟨_, _, rfl⟩) played) admissible done
  have announced := ((edges 0 (by rw [listening]; decide) stream).1
    ⟨by rw [still]; decide, by rw [still]; decide⟩).1.2 (.inr fun h => h.2)
  exact ⟨net, _, notReady, ready, announced notReady ready⟩

/-- A connected socket that shuts its reading side down becomes readable, and
its counter stays as it was. -/
theorem edges_of_shutdown :
    ∃ (net later : Net) (op : Net.Op) (answer : Except NetError Net.Answer),
      Net.system.Reachable net ∧ net.Admissible op ∧
      net.exec op = some (later, answer) ∧
      (net.socks 1).kind = .stream ∧ (later.socks 1).state = .connected ∧
      net.readable 1 = false ∧ later.readable 1 = true ∧
      (later.socks 1).rdEvents = (net.socks 1).rdEvents := by
  obtain ⟨net, played, facts⟩ := Option.map_eq_some_iff.mp
    (by decide +kernel : (Net.play Net.Admissible
      (aboutToConnect ++ [.connect 1 0 (Addr.unix [65])])
      (Net.zeroed [[]] 0)).map (fun net =>
        ((net.socks 1).refs, (net.socks 1).kind, net.readable 1,
          (net.shutdown 1 true false).1.readable 1,
          ((net.shutdown 1 true false).1.socks 1).state,
          decide (((net.shutdown 1 true false).1.socks 1).rdEvents =
            (net.socks 1).rdEvents))) =
            some (1, .stream, false, true, .connected, true))
  simp only [Prod.mk.injEq, decide_eq_true_eq] at facts
  obtain ⟨refs, stream, notReady, ready, connected, same⟩ := facts
  have admissible : net.Admissible (.shutdown 1 true false) :=
    show 0 < (net.socks 1).refs by rw [refs]; decide
  refine ⟨net, _, .shutdown 1 true false, _,
    Net.reachable_play (.start ⟨_, _, rfl⟩) played, admissible, rfl, stream,
    connected, notReady, ready, same⟩

end Derp
