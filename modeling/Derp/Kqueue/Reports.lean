import Derp.Kqueue.Contract

/-!
# Registrations and their flags

Both registries of a kqueue keep what is promised of a registration, as long as no watch
is disabled and no signal's watch dispatches.  The watches have no notion of being enabled:
these two flags are stored and reported, but nothing asks for them.
-/

namespace Derp

namespace Kqueue

variable {pid : Pid} {q later : Queue} {k : Key} {room : Nat} {events : List QueueEvent}
  {acts more : List QueueAct}

/-! ## The registration of a key -/

/-- A registration of either registry. -/
def find (q : Queue) : Key → Option (Reg ⊕ Watch)
  | .socket fd filter => (Registries.find Reg.key (fd, filter) q.regs).map .inl
  | .watch ident filter => (Registries.find Watch.key (ident, filter) q.watches).map .inr

/-- How a registration stands; a watch is always enabled. -/
def stands : Reg ⊕ Watch → Standing
  | .inl r => ⟨r.flags, r.enabled⟩
  | .inr w => ⟨w.flags, true⟩

/-- There is something to report: the socket is ready and, where the registration is
edge-triggered, something happened since it last fired; or the watched process is dead, or
signals were sent. -/
def Due (pid : Pid) (world : State) : Reg ⊕ Watch → Prop
  | .inl r =>
      (world.net.snapshot r.sock r.filter).ready = true ∧
        (r.flags.clear = true → r.seen ≠ some (world.net.snapshot r.sock r.filter).events)
  | .inr w =>
      match w.filter with
      | .proc => ∃ target, processOf w.ident = some target ∧
          ((world.procs target).state = .exited ∨ (world.procs target).killed = true)
      | .signal => (world.procs pid).sigCounts w.ident ≠ w.seen

theorem isSome_shot_watch {w : Watch} :
    (Watch.shot q.world pid w).isSome ↔ Due pid q.world (.inr w) := by
  unfold Watch.shot Due
  dsimp only
  cases w.filter with
  | proc =>
      dsimp only
      cases processOf w.ident with
      | none => exact iff_of_false Bool.false_ne_true fun ⟨_, isNone, _⟩ => nomatch isNone
      | some target =>
          dsimp only
          split
          · exact iff_of_true rfl ⟨target, rfl, ‹_›⟩
          · rename_i alive
            refine iff_of_false Bool.false_ne_true ?_
            rintro ⟨other, same, dead⟩
            obtain rfl := Option.some.inj same
            exact alive dead
  | signal =>
      dsimp only
      split
      · exact iff_of_false Bool.false_ne_true fun other => other ‹_›
      · exact iff_of_true rfl ‹_›

theorem isSome_shot_reg {r : Reg} :
    (Reg.shot q.world.net r).isSome ↔ r.enabled = true ∧ Due pid q.world (.inl r) := by
  unfold Reg.shot Reg.fires Due
  dsimp only
  split
  · rename_i fires
    rw [Bool.and_eq_true, Bool.and_eq_true, Bool.not_eq_true', and_assoc] at fires
    refine iff_of_true rfl ⟨fires.1, fires.2.1, fun clear seen => ?_⟩
    have quiet := fires.2.2
    rw [clear, Bool.true_and, decide_eq_false_iff_not] at quiet
    exact quiet seen
  · rename_i silent
    refine iff_of_false Bool.false_ne_true fun ⟨enabled, ready, new⟩ => silent ?_
    rw [enabled, ready, Bool.true_and, Bool.true_and, Bool.not_eq_true', Bool.and_eq_false_imp]
    exact fun clear => decide_eq_false (new clear)

theorem marked_reg (net : Net) :
    Registries.Marked Reg.key (fun e : Kevent => (e.fd, e.filter)) (Reg.shot net) := by
  intro r shot fires
  unfold Reg.shot at fires
  dsimp only at fires
  split at fires
  · obtain rfl := Option.some.inj fires
    refine ⟨?_, rfl⟩
    dsimp only
    split
    · rfl
    · split
      · rfl
      · rfl
  · cases fires

theorem marked_watch (s : State) (pid : Pid) :
    Registries.Marked Watch.key (fun e : WatchEvent => (e.ident, e.filter)) (Watch.shot s pid) := by
  intro w shot fires
  unfold Watch.shot at fires
  split at fires
  · split at fires
    · cases fires
    · dsimp only at fires
      split at fires
      · obtain rfl := Option.some.inj fires
        exact ⟨rfl, rfl⟩
      · cases fires
  · dsimp only at fires
    split at fires
    · cases fires
    · obtain rfl := Option.some.inj fires
      exact ⟨rfl, rfl⟩

/-- What is left of a registration on a socket stands as after a report. -/
theorem stands_rest_reg {net : Net} {r : Reg} {shot : Registries.Shot Reg Kevent}
    (fires : Reg.shot net r = some shot) (fd : Nat) (filter : Filter) :
    shot.rest.map (stands ∘ Sum.inl) =
      (stands (.inl r)).reported (.socket fd filter) := by
  unfold Reg.shot at fires
  dsimp only at fires
  split at fires
  · obtain rfl := Option.some.inj fires
    unfold Registries.Shot.rest Standing.reported stands Key.isDeath
    dsimp only
    rw [Bool.or_false]
    split
    · rfl
    · split
      · rfl
      · rfl
  · cases fires

/-- A watch on a signal goes with its event if it dispatches. -/
def Watch.Fair (w : Watch) : Prop :=
  w.filter = .signal → w.flags.dispatch = true → w.flags.oneshot = true

theorem stands_rest_watch {s : State} {w : Watch} {shot : Registries.Shot Watch WatchEvent}
    (fires : Watch.shot s pid w = some shot) (fair : Watch.Fair w) :
    shot.rest.map (stands ∘ Sum.inr) =
      (stands (.inr w)).reported (.watch w.ident w.filter) ∧
        ∀ left ∈ shot.rest, Watch.Fair left := by
  unfold Watch.shot at fires
  unfold Watch.Fair at fair
  split at fires
  · rename_i isProc
    split at fires
    · cases fires
    · dsimp only at fires
      split at fires
      · obtain rfl := Option.some.inj fires
        unfold Registries.Shot.rest Standing.reported stands Key.isDeath
        rw [isProc, if_pos rfl, Bool.or_true, if_pos rfl]
        exact ⟨rfl, fun left isLeft => nomatch isLeft⟩
      · cases fires
  · rename_i isSignal
    dsimp only at fires
    split at fires
    · cases fires
    · obtain rfl := Option.some.inj fires
      have lasting : (Key.watch w.ident w.filter).isDeath = false := by
        rw [isSignal]
        rfl
      unfold Registries.Shot.rest Standing.reported
      rw [lasting, Bool.or_false]
      unfold stands
      dsimp only
      split
      · exact ⟨rfl, fun left isLeft => nomatch isLeft⟩
      · rename_i stays
        rw [if_neg fun dispatch => stays (fair isSignal dispatch)]
        refine ⟨rfl, fun left isLeft => ?_⟩
        obtain rfl := Option.some.inj isLeft
        exact fair

/-! ## Runs -/

/-- No watch is disabled, and no watch on a signal is added that dispatches and stays. -/
def Plain (q : Queue) : QueueAct → Prop
  | .watch ev =>
      ev.delete = true ∨
        ((ev.add = true ∨ (Registries.find Watch.key (ev.ident, ev.filter) q.watches).isSome) →
          ev.disable = false ∧
            (ev.add = true → ev.filter = .signal → ev.flags.dispatch = true →
              ev.flags.oneshot = true))
  | _ => True

/-- Every key is registered once, and a registration stands as is promised after all that
happened. -/
structure Kept (acts : List QueueAct) (q : Queue) : Prop where
  regs : Registries.Keyed Reg.key q.regs
  watches : Registries.Keyed Watch.key q.watches
  fair : ∀ k w, Registries.find Watch.key k q.watches = some w → Watch.Fair w
  stands : ∀ k, (find q k).map stands = standing k acts

theorem key_apply (r : Reg) (ev : Change) (sock : SockId) : (r.apply ev sock).key = r.key := by
  obtain ⟨sameFd, sameFilter, -⟩ := r.apply_cases ev sock
  unfold Reg.key
  rw [sameFd, sameFilter]

theorem key_changed (ev : Change) (sock : SockId) :
    Registries.Kept Reg.key (ev.fd, ev.filter) (changed ev sock) := by
  intro old own r isLeft
  unfold changed at isLeft
  split at isLeft
  · cases isLeft
  · split at isLeft
    · obtain rfl := Option.some.inj isLeft
      exact (key_apply _ ev sock).trans (own _ rfl)
    · split at isLeft
      · obtain rfl := Option.some.inj isLeft
        exact key_apply _ ev sock
      · cases isLeft

theorem key_watched (counts : Nat → Nat) (ev : WatchChange) :
    Registries.Kept Watch.key (ev.ident, ev.filter) (watched counts ev) := by
  intro old own w isLeft
  unfold watched at isLeft
  split at isLeft
  · cases isLeft
  · split at isLeft
    · obtain rfl := Option.some.inj isLeft
      rfl
    · exact own w isLeft

/-- A change on a socket is answered as promised. -/
theorem stands_changed (ev : Change) (sock : SockId) (old : Option Reg) :
    (changed ev sock old).map (stands ∘ Sum.inl) =
      Ask.answer ⟨ev.add, ev.delete, ev.enable, ev.disable, ev.flags⟩
        (old.map (stands ∘ Sum.inl)) := by
  unfold changed Ask.answer
  dsimp only
  split
  · rfl
  · cases old with
    | none =>
        unfold Reg.apply
        cases ev.add <;> cases ev.enable <;> cases ev.disable <;> rfl
    | some r =>
        unfold Reg.apply
        cases ev.add <;> cases ev.enable <;> cases ev.disable <;> rfl

/-- So is a plain change of a watch. -/
theorem stands_watched (counts : Nat → Nat) {ev : WatchChange} {old : Option Watch}
    (plain : ev.delete = true ∨ ((ev.add = true ∨ old.isSome) → ev.disable = false)) :
    (watched counts ev old).map (stands ∘ Sum.inr) =
      Ask.answer ⟨ev.add, ev.delete, ev.enable, ev.disable, ev.flags⟩
        (old.map (stands ∘ Sum.inr)) := by
  unfold watched Ask.answer
  dsimp only
  split
  · rfl
  · rename_i kept
    have plain := plain.resolve_left kept
    split
    · rename_i added
      rw [plain (Or.inl added)]
      cases old <;> cases ev.enable <;> rfl
    · cases old with
      | none => rfl
      | some w =>
          rw [plain (Or.inr rfl)]
          cases ev.enable <;> rfl

theorem find_change (keyed : Registries.Keyed Reg.key q.regs) (ev : Change) (sock : SockId)
    (key : Nat × Filter) :
    Registries.find Reg.key key (change ev sock q.regs) =
      if key = (ev.fd, ev.filter) then
        changed ev sock (Registries.find Reg.key (ev.fd, ev.filter) q.regs)
      else Registries.find Reg.key key q.regs := by
  rw [change_eq_alter]
  exact Registries.find_alter keyed (key_changed ev sock)

theorem find_forget (fd : Nat) (key : Nat × Filter) :
    Registries.find Reg.key key (forget fd q.regs) =
      if key.1 = fd then none else Registries.find Reg.key key q.regs := by
  have filtered : Registries.find Reg.key key
      (q.regs.filter fun r => decide ((Reg.key r).1 ≠ fd)) =
        if decide (key.1 ≠ fd) = true then Registries.find Reg.key key q.regs else none :=
    Registries.find_filter fun key : Nat × Filter => decide (key.1 ≠ fd)
  refine filtered.trans ?_
  split
  · rename_i other
    rw [if_neg (of_decide_eq_true other)]
  · rename_i same
    rw [if_pos (of_not_not fun other => same (decide_eq_true other))]

theorem find_socket (q : Queue) (fd : Nat) (filter : Filter) :
    find q (.socket fd filter) = (Registries.find Reg.key (fd, filter) q.regs).map Sum.inl := rfl

theorem find_watch (q : Queue) (ident : Nat) (filter : WatchFilter) :
    find q (.watch ident filter) =
      (Registries.find Watch.key (ident, filter) q.watches).map Sum.inr := rfl

theorem stands_socket (q : Queue) (fd : Nat) (filter : Filter) :
    (find q (.socket fd filter)).map stands =
      (Registries.find Reg.key (fd, filter) q.regs).map (stands ∘ Sum.inl) :=
  Option.map_map _ _ _

theorem stands_watch (q : Queue) (ident : Nat) (filter : WatchFilter) :
    (find q (.watch ident filter)).map stands =
      (Registries.find Watch.key (ident, filter) q.watches).map (stands ∘ Sum.inr) :=
  Option.map_map _ _ _

section Step

variable (kept : Kept acts q)
include kept

theorem Kept.world (world : State) : Kept (acts ++ [.world world]) { q with world } :=
  { kept with
    stands := fun k => by
      have still : (QueueAct.world world).next k (standing k acts) = standing k acts :=
        next_of_not rfl id
      rw [standing_snoc, still, ← kept.stands k]
      cases k <;> rfl }

theorem Kept.change (ev : Change) (sock : SockId) :
    Kept (acts ++ [.change ev sock]) { q with regs := change ev sock q.regs } :=
  { kept with
    regs := by
      rw [change_eq_alter]
      exact kept.regs.alter (key_changed ev sock)
    stands := by
      rintro (⟨fd, filter⟩ | ⟨ident, filter⟩)
      · have before := kept.stands (.socket fd filter)
        rw [stands_socket] at before
        rw [standing_snoc, stands_socket, ← before, find_change kept.regs]
        split
        · rename_i same
          obtain ⟨rfl, rfl⟩ := Prod.mk.inj same
          rw [stands_changed, next_change_self]
        · rename_i other
          rw [next_change_other sock fun same => other (by cases same; rfl)]
      · rw [standing_snoc, next_change_other sock Key.noConfusion, ← kept.stands]
        rfl }

theorem Kept.watch {ev : WatchChange} (plain : Plain q (.watch ev)) :
    Kept (acts ++ [.watch ev])
      { q with watches := watch (q.world.procs pid).sigCounts ev q.watches } :=
  { kept with
    watches := kept.watches.alter (key_watched _ ev)
    fair := by
      intro key w found
      unfold Derp.watch at found
      rw [Registries.find_alter kept.watches (key_watched _ ev)] at found
      split at found
      · unfold watched at found
        split at found
        · cases found
        · rename_i stays
          split at found
          · rename_i added
            obtain rfl := Option.some.inj found
            exact (plain.resolve_left stays (Or.inl added)).2 added
          · exact kept.fair _ w found
      · exact kept.fair key w found
    stands := by
      rintro (⟨fd, filter⟩ | ⟨ident, filter⟩)
      · rw [standing_snoc, next_watch_other Key.noConfusion, ← kept.stands]
        rfl
      · have before := kept.stands (.watch ident filter)
        rw [stands_watch] at before
        rw [standing_snoc, stands_watch, ← before]
        unfold Derp.watch
        rw [Registries.find_alter kept.watches (key_watched _ ev)]
        split
        · rename_i same
          obtain ⟨rfl, rfl⟩ := Prod.mk.inj same
          rw [stands_watched _ (plain.imp_right fun plain any => (plain any).1),
            next_watch_self]
        · rename_i other
          rw [next_watch_other fun same => other (by cases same; rfl)] }

theorem Kept.closed (fd : Nat) :
    Kept (acts ++ [.closed fd]) { q with regs := forget fd q.regs } :=
  { kept with
    regs := kept.regs.filter fun key => decide (key.1 ≠ fd)
    stands := by
      rintro (⟨fd', filter⟩ | ⟨ident, filter⟩)
      · have before := kept.stands (.socket fd' filter)
        rw [stands_socket] at before
        rw [standing_snoc, stands_socket, ← before, find_forget, next_closed_socket]
        dsimp only
        split
        · rfl
        · rfl
      · have still : (QueueAct.closed fd).next (.watch ident filter)
            (standing (.watch ident filter) acts) = standing (.watch ident filter) acts :=
          next_of_not rfl id
        rw [standing_snoc, still, ← kept.stands]
        rfl }

end Step

/-! ## Collecting -/

/-- The parts of a collect. -/
theorem collect_eq (pid : Pid) (q : Queue) (room : Nat) :
    q.collect pid room =
      let sockets := Registries.collect (Reg.shot q.world.net) room q.regs
      let watches := Registries.collect (Watch.shot q.world pid) (room - sockets.2.length) q.watches
      ({ q with regs := sockets.1, watches := watches.1 },
        sockets.2.map QueueEvent.socket ++ watches.2.map QueueEvent.watch) := by
  unfold Queue.collect
  simp only [collect_eq_collect, collectWatches_eq_collect]

theorem socket_mem_keys {sockets : List Kevent} {watches : List WatchEvent} {fd : Nat}
    {filter : Filter} :
    Key.socket fd filter ∈
        (sockets.map QueueEvent.socket ++ watches.map QueueEvent.watch).map QueueEvent.key ↔
      (fd, filter) ∈ sockets.map fun e => (e.fd, e.filter) := by
  rw [List.map_append, List.mem_append, List.map_map, List.map_map, List.mem_map, List.mem_map,
    List.mem_map]
  constructor
  · rintro (⟨e, present, same⟩ | ⟨e, -, ⟨⟩⟩)
    cases same
    exact ⟨e, present, rfl⟩
  · rintro ⟨e, present, same⟩
    cases same
    exact Or.inl ⟨e, present, rfl⟩

theorem watch_mem_keys {sockets : List Kevent} {watches : List WatchEvent} {ident : Nat}
    {filter : WatchFilter} :
    Key.watch ident filter ∈
        (sockets.map QueueEvent.socket ++ watches.map QueueEvent.watch).map QueueEvent.key ↔
      (ident, filter) ∈ watches.map fun e => (e.ident, e.filter) := by
  rw [List.map_append, List.mem_append, List.map_map, List.map_map, List.mem_map, List.mem_map,
    List.mem_map]
  constructor
  · rintro (⟨e, -, ⟨⟩⟩ | ⟨e, present, same⟩)
    cases same
    exact ⟨e, present, rfl⟩
  · rintro ⟨e, present, same⟩
    cases same
    exact Or.inr ⟨e, present, rfl⟩

theorem nodup_keys {sockets : List Kevent} {watches : List WatchEvent}
    (first : (sockets.map fun e => (e.fd, e.filter)).Nodup)
    (second : (watches.map fun e => (e.ident, e.filter)).Nodup) :
    ((sockets.map QueueEvent.socket ++ watches.map QueueEvent.watch).map
      QueueEvent.key).Nodup := by
  rw [List.map_append, List.map_map, List.map_map]
  have sameSocket : (sockets.map fun e => (e.fd, e.filter)).map (fun p => Key.socket p.1 p.2) =
      sockets.map (QueueEvent.key ∘ QueueEvent.socket) := List.map_map
  have sameWatch : (watches.map fun e => (e.ident, e.filter)).map (fun p => Key.watch p.1 p.2) =
      watches.map (QueueEvent.key ∘ QueueEvent.watch) := List.map_map
  rw [← sameSocket, ← sameWatch]
  refine List.Nodup.append (first.map ?_) (second.map ?_) ?_
  · rintro ⟨fd, filter⟩ ⟨fd', filter'⟩ same
    cases same
    rfl
  · rintro ⟨ident, filter⟩ ⟨ident', filter'⟩ same
    cases same
    rfl
  · intro k isSocket isWatch
    obtain ⟨p, -, rfl⟩ := List.mem_map.mp isSocket
    obtain ⟨p', -, same⟩ := List.mem_map.mp isWatch
    cases same

/-- A registration that stands is reported if it is enabled and due, and is then what the
report leaves of it; or it stays as it is, and if it was enabled and due the room is used
up. -/
theorem collect_find (kept : Kept acts q) (collected : q.collect pid room = (later, events))
    (k : Key) :
    (∃ entry, find q k = some entry ∧ (stands entry).enabled = true ∧ Due pid q.world entry ∧
        k ∈ events.map QueueEvent.key ∧
          (find later k).map stands = (stands entry).reported k) ∨
      k ∉ events.map QueueEvent.key ∧ find later k = find q k ∧
        ∀ entry, find q k = some entry → (stands entry).enabled = true → Due pid q.world entry →
          events.length = room := by
  rw [collect_eq] at collected
  obtain ⟨rfl, rfl⟩ := Prod.mk.inj collected
  obtain ⟨fd, filter⟩ | ⟨ident, filter⟩ := k
  · rw [socket_mem_keys, find_socket, find_socket]
    obtain ⟨r, shot, found, fires, heard, left⟩ | ⟨unheard, same, full⟩ :=
      Registries.collect_cases (marked_reg q.world.net) kept.regs (fd, filter) room
    · obtain ⟨enabled, due⟩ := isSome_shot_reg.mp (Option.isSome_of_eq_some fires)
      refine Or.inl ⟨.inl r, by rw [found, Option.map_some], enabled, due, heard, ?_⟩
      rw [Option.map_map, left]
      exact stands_rest_reg fires fd filter
    · refine Or.inr ⟨unheard, by rw [same], ?_⟩
      intro entry found enabled due
      obtain ⟨r, isReg, rfl⟩ := Option.map_eq_some_iff.mp found
      have fires := isSome_shot_reg.mpr ⟨enabled, due⟩
      have used := (full r isReg).resolve_left fun quiet => by
        rw [quiet] at fires
        cases fires
      rw [used, Nat.sub_self, Registries.collect_zero, List.map_nil, List.append_nil,
        List.length_map, used]
  · rw [watch_mem_keys, find_watch, find_watch]
    obtain ⟨w, shot, found, fires, heard, left⟩ | ⟨unheard, same, full⟩ :=
      Registries.collect_cases (marked_watch q.world pid) kept.watches (ident, filter)
        (room - (Registries.collect (Reg.shot q.world.net) room q.regs).2.length)
    · have due := isSome_shot_watch.mp (Option.isSome_of_eq_some fires)
      obtain ⟨stood, -⟩ := stands_rest_watch fires (kept.fair _ w found)
      obtain ⟨rfl, rfl⟩ := Prod.mk.inj (Registries.mem_of_find found).2
      refine Or.inl ⟨.inr w, by rw [found, Option.map_some], rfl, due, heard, ?_⟩
      rw [Option.map_map, left]
      exact stood
    · refine Or.inr ⟨unheard, by rw [same], ?_⟩
      intro entry found enabled due
      obtain ⟨w, isWatch, rfl⟩ := Option.map_eq_some_iff.mp found
      have fires := isSome_shot_watch.mpr due
      have used := (full w isWatch).resolve_left fun quiet => by
        rw [quiet] at fires
        cases fires
      have fits : (Registries.collect (Reg.shot q.world.net) room q.regs).2.length ≤ room :=
        Registries.length_collect_le room q.regs
      rw [List.length_append, List.length_map, List.length_map, used]
      exact Nat.add_sub_cancel' fits

theorem Kept.collect (kept : Kept acts q) (collected : q.collect pid room = (later, events)) :
    Kept (acts ++ [.collect room events]) later := by
  have parts := collect_eq pid q room
  rw [collected] at parts
  obtain ⟨isLater, -⟩ := Prod.mk.inj parts
  refine ⟨?_, ?_, ?_, fun k => ?_⟩
  · rw [isLater]
    exact kept.regs.collect (marked_reg q.world.net) room
  · rw [isLater]
    exact kept.watches.collect (marked_watch q.world pid) _
  · intro key w found
    rw [isLater] at found
    obtain ⟨old, shot, isOld, fires, -, left⟩ | ⟨-, same, -⟩ :=
      Registries.collect_cases (marked_watch q.world pid) kept.watches key
        (room - (Registries.collect (Reg.shot q.world.net) room q.regs).2.length)
    · exact (stands_rest_watch fires (kept.fair _ old isOld)).2 w (left.symm.trans found)
    · exact kept.fair key w (same.symm.trans found)
  · rw [standing_snoc, ← kept.stands]
    obtain ⟨entry, found, -, -, heard, left⟩ | ⟨unheard, same, -⟩ := collect_find kept collected k
    · have told : (QueueAct.collect room events).next k (some (Kqueue.stands entry)) =
          (some (Kqueue.stands entry)).bind (Standing.reported k) := next_of_reports heard
      rw [left, found, Option.map_some, told, Option.bind_some]
    · rw [same]
      exact (@next_of_not k (.collect room events) _ rfl unheard).symm

/-- Every step keeps what is promised. -/
theorem Kept.step {act : QueueAct} (kept : Kept acts q) (plain : Plain q act)
    (step : (queueing pid).step q act later) : Kept (acts ++ [act]) later := by
  cases act with
  | world world =>
      obtain rfl := step
      exact kept.world world
  | change ev sock =>
      obtain rfl := step
      exact kept.change ev sock
  | watch ev =>
      obtain ⟨-, rfl⟩ := step
      exact kept.watch plain
  | closed fd =>
      obtain rfl := step
      exact kept.closed fd
  | collect room events => exact kept.collect step

theorem kept_init (init : (queueing pid).init q) : Kept [] q := by
  obtain ⟨noRegs, noWatches⟩ := init
  refine ⟨?_, ?_, ?_, ?_⟩
  · rw [noRegs]
    exact List.nodup_nil
  · rw [noWatches]
    exact List.nodup_nil
  · intro key w found
    rw [noWatches] at found
    cases found
  · rintro (⟨fd, filter⟩ | ⟨ident, filter⟩)
    · rw [find_socket, noRegs]
      rfl
    · rw [find_watch, noWatches]
      rfl

theorem Kept.run (kept : Kept acts q)
    (run : ((queueing pid).restrict Plain).Run q more later) : Kept (acts ++ more) later := by
  induction run with
  | refl =>
      rw [List.append_nil]
      exact kept
  | tail _ step ih =>
      rw [← List.append_assoc]
      exact ih.step step.1 step.2

/-- Who neither changes nor reports a registration leaves it alone. -/
theorem find_step {act : QueueAct} (kept : Kept acts q) (step : (queueing pid).step q act later)
    (unasked : act.ask k = none) (unheard : ¬ act.Reports k) : find later k = find q k := by
  cases act with
  | world world =>
      obtain rfl := step
      cases k <;> rfl
  | change ev sock =>
      obtain rfl := step
      cases k with
      | socket fd filter =>
          rw [find_socket, find_socket, find_change kept.regs, if_neg]
          intro same
          obtain ⟨rfl, rfl⟩ := Prod.mk.inj same
          exact absurd (unasked.symm.trans (if_pos rfl)) (Option.some_ne_none _).symm
      | watch ident filter => rfl
  | watch ev =>
      obtain ⟨-, rfl⟩ := step
      cases k with
      | socket fd filter => rfl
      | watch ident filter =>
          rw [find_watch, find_watch]
          unfold Derp.watch
          rw [Registries.find_alter kept.watches (key_watched _ ev), if_neg]
          intro same
          obtain ⟨rfl, rfl⟩ := Prod.mk.inj same
          exact absurd (unasked.symm.trans (if_pos rfl)) (Option.some_ne_none _).symm
  | closed fd =>
      obtain rfl := step
      cases k with
      | socket fd' filter =>
          rw [find_socket, find_socket, find_forget, if_neg]
          intro same
          exact absurd (unasked.symm.trans (if_pos same)) (Option.some_ne_none _).symm
      | watch ident filter => rfl
  | collect room events =>
      obtain ⟨entry, -, -, -, heard, -⟩ | ⟨-, same, -⟩ := collect_find kept step k
      · exact absurd heard unheard
      · exact same

/-! ## What the flags promise -/

/-- What is promised of the events of a collect, after all that happened. -/
structure Honours (pid : Pid) (acts : List QueueAct) (q : Queue) (room : Nat)
    (events : List QueueEvent) (later : Queue) : Prop where
  /-- No registration gives two events -/
  once : (events.map QueueEvent.key).Nodup
  /-- A one-shot one is reported once for each time it is added -/
  oneshot : ∀ k ∈ events.map QueueEvent.key, ∀ before act between s,
    acts = before ++ act :: between → standing k before = some s → s.flags.oneshot = true →
      act.Reports k → ∃ added ∈ between, added.Adds k
  /-- and it is gone after -/
  gone : ∀ k ∈ events.map QueueEvent.key, ∀ s, standing k acts = some s →
    s.flags.oneshot = true → find later k = none
  /-- One that dispatches is reported once between enables -/
  dispatch : ∀ k ∈ events.map QueueEvent.key, ∀ before act between s,
    acts = before ++ act :: between → standing k before = some s → s.flags.dispatch = true →
      act.Reports k → (∃ on ∈ between, on.Enables k) ∨ Renewed k (before ++ [act]) between
  /-- A disabled one is not reported until it is enabled -/
  disabled : ∀ k ∈ events.map QueueEvent.key, ∀ before act between,
    acts = before ++ act :: between → act.Disables k →
      (∃ on ∈ between, on.Enables k) ∨ Renewed k (before ++ [act]) between
  /-- One that is enabled and due is reported if there is room -/
  ready : ∀ k s, standing k acts = some s → s.enabled = true →
    ∃ entry, find q k = some entry ∧
      (Due pid q.world entry → k ∈ events.map QueueEvent.key ∨ events.length = room)
  /-- One that is not reported waits as it is for a later collect -/
  waits : ∀ k ∉ events.map QueueEvent.key, ∀ more q',
    ((queueing pid).restrict Plain).Run later more q' →
      (∀ act ∈ more, act.ask k = none ∧ ¬ act.Reports k) →
        find q' k = find q k ∧
          standing k (acts ++ .collect room events :: more) = standing k acts

theorem Kept.waits (kept : Kept acts q) (run : ((queueing pid).restrict Plain).Run q more later)
    (still : ∀ act ∈ more, act.ask k = none ∧ ¬ act.Reports k) :
    find later k = find q k ∧ standing k (acts ++ more) = standing k acts := by
  induction run with
  | refl => exact ⟨rfl, by rw [List.append_nil]⟩
  | @tail middle later labels act before step ih =>
      obtain ⟨same, stood⟩ := ih fun other present =>
        still other (List.mem_append_left _ present)
      obtain ⟨unasked, unheard⟩ :=
        still act (List.mem_append_right _ (List.mem_singleton_self act))
      refine ⟨(find_step (kept.run before) step.2 unasked unheard).trans same, ?_⟩
      rw [← List.append_assoc, standing_snoc, next_of_not unasked unheard, stood]

/-- In runs whose changes of watches are plain the flags of every registration are honoured
by every collect. -/
theorem flags_honoured {start : Queue} (init : (queueing pid).init start)
    (run : ((queueing pid).restrict Plain).Run start acts q)
    (collected : q.collect pid room = (later, events)) :
    Honours pid acts q room events later := by
  have kept : Kept acts q := (kept_init init).run run
  have heard : ∀ k ∈ events.map QueueEvent.key, ∃ s, standing k acts = some s ∧
      s.enabled = true ∧ (find later k).map stands = s.reported k := by
    intro k present
    obtain ⟨entry, found, enabled, -, -, left⟩ | ⟨unheard, -⟩ := collect_find kept collected k
    · exact ⟨stands entry, by rw [← kept.stands, found, Option.map_some], enabled, left⟩
    · exact absurd present unheard
  have reported : ∀ {k before act between s}, acts = before ++ act :: between →
      standing k before = some s → act.Reports k →
        standing k (before ++ [act]) = s.reported k := by
    intro k before act between s split stood reports
    rw [standing_snoc, next_of_reports reports, stood, Option.bind_some]
  have regroup : ∀ {before between : List QueueAct} {act}, acts = before ++ act :: between →
      acts = (before ++ [act]) ++ between := by
    intro before between act split
    rw [split, List.append_assoc, List.singleton_append]
  refine ⟨?_, ?_, ?_, ?_, ?_, ?_, ?_⟩
  · rw [collect_eq] at collected
    obtain ⟨-, rfl⟩ := Prod.mk.inj collected
    exact nodup_keys (kept.regs.events (marked_reg q.world.net) room)
      (kept.watches.events (marked_watch q.world pid) _)
  · intro k present before act between s split stood oneshot reports
    obtain ⟨s', stood', -⟩ := heard k present
    rw [regroup split] at stood'
    refine gone_until_added ?_ (Option.isSome_of_eq_some stood')
    rw [reported split stood reports]
    exact (reported_cases k s).1 oneshot
  · intro k present s stood oneshot
    obtain ⟨s', stood', -, left⟩ := heard k present
    obtain rfl : s = s' := Option.some.inj (stood.symm.trans stood')
    rwa [(reported_cases k s).1 oneshot, Option.map_eq_none_iff] at left
  · intro k present before act between s split stood dispatch reports
    obtain ⟨s', stood', enabled, -⟩ := heard k present
    rw [regroup split] at stood'
    refine silent_until_enabled ?_ stood' enabled
    rw [reported split stood reports]
    exact (reported_cases k s).2 dispatch
  · intro k present before act between split disables
    obtain ⟨s', stood', enabled, -⟩ := heard k present
    rw [regroup split] at stood'
    refine silent_until_enabled ?_ stood' enabled
    rw [standing_snoc]
    exact silent_of_disables disables _
  · intro k s stood enabled
    rw [← kept.stands, Option.map_eq_some_iff] at stood
    obtain ⟨entry, found, rfl⟩ := stood
    refine ⟨entry, found, fun due => ?_⟩
    obtain ⟨-, -, -, -, present, -⟩ | ⟨-, -, full⟩ := collect_find kept collected k
    · exact Or.inl present
    · exact Or.inr (full entry found enabled due)
  · intro k unheard more q' run' still
    have same : find later k = find q k :=
      @find_step pid q later k acts (.collect room events) kept collected rfl unheard
    obtain ⟨found, stood⟩ := (kept.collect collected).waits run' still
    refine ⟨found.trans same, ?_⟩
    rw [List.append_assoc, List.singleton_append] at stood
    rw [stood, standing_snoc]
    exact @next_of_not k (.collect room events) _ rfl unheard

/-! ## Crowded queues, and a signal's watch that dispatches -/

/-- So many signals were sent to every process. -/
def sent (count : Nat) : State :=
  { procs := fun _ => { sigCounts := fun _ => count } }

def interrupts (flags : RegFlags) : WatchChange :=
  { ident := 2, filter := .signal, add := true, flags }

def quiet : Queue := ⟨sent 0, [], []⟩

/-- A watch on a signal, which was sent once. -/
def alarmed (flags : RegFlags) : Queue :=
  ⟨sent 1, [], [Watch.added (fun _ => 0) (interrupts flags)]⟩

def reportOf (flags : RegFlags) : QueueEvent :=
  .watch ⟨2, .signal, flags, 0, 1, 0⟩

/-- A change that registers a descriptor for writing. -/
def writes (fd : Nat) (flags : RegFlags) : Change :=
  { fd, filter := .write, add := true, flags }

/-- Four sockets that are not connected, which are writable: one dispatches, one is disabled, one
is one-shot.  A one-shot watch waits for a signal, which is sent, and a collect has room for one
event. -/
def crowd : List QueueAct :=
  [.change (writes 3 { dispatch := true }) 0, .change (writes 4 {}) 1,
    .change { fd := 4, filter := .write, disable := true } 1,
    .change (writes 5 { oneshot := true }) 2, .change (writes 6 {}) 3,
    .watch (interrupts { oneshot := true }), .world (sent 1),
    .collect 1 [.socket ⟨3, .write, { dispatch := true }, false, 0, 0⟩]]

/-- The kqueue once the first event was collected. -/
def crowded : Queue :=
  { alarmed { oneshot := true } with
    regs :=
      [{ fd := 3, sock := 0, filter := .write, flags := { dispatch := true }, enabled := false,
          seen := some 0 },
        { fd := 4, sock := 1, filter := .write, enabled := false },
        { fd := 5, sock := 2, filter := .write, flags := { oneshot := true } },
        { fd := 6, sock := 3, filter := .write }] }

/-- What is left when the one-shot registration was reported. -/
def thinned : Queue :=
  { alarmed { oneshot := true } with
    regs :=
      [{ fd := 3, sock := 0, filter := .write, flags := { dispatch := true }, enabled := false,
          seen := some 0 },
        { fd := 4, sock := 1, filter := .write, enabled := false },
        { fd := 6, sock := 3, filter := .write }] }

/-- Past a registration that dispatched and one that is disabled a one-shot one is reported and
gone, and fills the array. -/
theorem flags_honoured_oneshot :
    Honours 0 crowd crowded 1 [.socket ⟨5, .write, { oneshot := true }, false, 0, 0⟩]
      thinned := by
  have init : (queueing 0).init quiet := ⟨rfl, rfl⟩
  have changed : ∀ {q later : Queue} {ev : Change} {sock : SockId},
      later = { q with regs := change ev sock q.regs } →
        ((queueing 0).restrict Plain).step q (.change ev sock) later :=
    fun same => ⟨trivial, same⟩
  have watched : ((queueing 0).restrict Plain).step
      { quiet with
        regs := change (writes 6 {}) 3 (change (writes 5 { oneshot := true }) 2
          (change { fd := 4, filter := .write, disable := true } 1
            (change (writes 4 {}) 1 (change (writes 3 { dispatch := true }) 0 [])))) }
      (.watch (interrupts { oneshot := true })) _ :=
    ⟨Or.inr fun _ => ⟨rfl, fun _ _ _ => rfl⟩, rfl, rfl⟩
  refine flags_honoured init ?_ rfl
  exact .cons (changed rfl) (.cons (changed rfl) (.cons (changed rfl) (.cons (changed rfl)
    (.cons (changed rfl) (.cons watched (.cons ⟨trivial, rfl⟩ (.cons ⟨trivial, rfl⟩ (.refl _))))))))

/-- A watch that dispatches is reported again without having been enabled. -/
theorem not_flags_honoured_dispatch :
    ¬ ∀ (pid : Pid) (start q later : Queue) (acts : List QueueAct) (room : Nat)
        (events : List QueueEvent), (queueing pid).init start → (queueing pid).Run start acts q →
      q.collect pid room = (later, events) → Honours pid acts q room events later := by
  intro every
  let flags : RegFlags := { dispatch := true }
  let fired : Queue := (Queue.collect 0 (alarmed flags) 1).1
  have added : (queueing 0).step quiet (.watch (interrupts flags))
      ⟨sent 0, [], (alarmed flags).watches⟩ := ⟨rfl, rfl⟩
  have signalled : (queueing 0).step ⟨sent 0, [], (alarmed flags).watches⟩ (.world (sent 1))
      (alarmed flags) := rfl
  have collected : (queueing 0).step (alarmed flags) (.collect 1 [reportOf flags]) fired := rfl
  have again : (queueing 0).step fired (.world (sent 2)) { fired with world := sent 2 } := rfl
  have honours := every 0 quiet { fired with world := sent 2 } _ _ 1 _ ⟨rfl, rfl⟩
    (.tail (.tail (.tail (.tail (.refl quiet) added) signalled) collected) again) rfl
  have twice := honours.dispatch (.watch 2 .signal) (List.mem_singleton_self _)
    [.watch (interrupts flags), .world (sent 1)] (.collect 1 [reportOf flags]) [.world (sent 2)]
    ⟨flags, true⟩ rfl rfl rfl (List.mem_singleton_self _)
  obtain ⟨on, present, ask, asks, -⟩ | ⟨first, act, last, split, ⟨ask, asks, -⟩, -⟩ := twice
  · obtain rfl := List.mem_singleton.mp present
    cases asks
  · have isWorld : act ∈ [QueueAct.world (sent 2)] :=
      split ▸ List.mem_append_right _ List.mem_cons_self
    obtain rfl := List.mem_singleton.mp isWorld
    cases asks

end Kqueue

end Derp
