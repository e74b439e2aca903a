import Derp.Sched.Parking

/-!
# Threads that look and then block

A thread that may have to wait looks for what it wants in one critical section, and
gives the baton up in another.  What it waits for may be announced in between, when the
announcement finds nobody to wake.  A thread that missed an announcement is safe as long
as it sees, when it is about to block, that a wake came from outside.
-/

namespace Derp

/-- Where a thread is in a call that may block. -/
inductive Halting.Stage
  /-- It is about to look. -/
  | looks
  /-- It did not find what it wants, and is about to block. -/
  | missed
  /-- It gave the baton up. -/
  | parked
  deriving DecidableEq

/-- A call that is not over, and what it waits for. -/
structure Halting.Call (κ : Type) where
  wish : κ
  stage : Halting.Stage
  deriving DecidableEq

/-- The shared state, and the calls that are not over. -/
structure Halting (κ : Type) where
  state : State
  call : ThreadId → Option (Halting.Call κ) := fun _ => none

namespace Halting

variable {κ : Type}

def setState (w : Halting κ) (s : State) : Halting κ :=
  { w with state := s }

def setCall (w : Halting κ) (id : ThreadId) (call : Option (Call κ)) : Halting κ :=
  { w with call := Function.update w.call id call }

/-- A thread is in a call, and runs. -/
def At (w : Halting κ) (id : ThreadId) (stage : Stage) : Prop :=
  w.state.Holds id ∧ (w.state.threads id).state = .running ∧
    (w.call id).map Call.stage = some stage

/-- A thread that has the baton is in no call. -/
def Free (w : Halting κ) (id : ThreadId) : Prop :=
  w.state.Holds id ∧ (w.state.threads id).state = .running ∧ w.call id = none

/-- The baton is given up by no thread in a call but by its blocking. -/
def Allows (w : Halting κ) (op : State.Op) : Prop :=
  (∀ giver ∈ op.giver, w.call giver.1 = none) ∧
    ∀ id ∈ Parking.looker op, ∀ call ∈ w.call id, call.stage = .parked

/-- The thread looks again instead of blocking. -/
def again (w : Halting κ) (id : ThreadId) (call : Call κ) : Halting κ :=
  (w.setState (w.state.lookAgain id)).setCall id (some { call with stage := .looks })

/-- The thread is parked in another state. -/
def rests (w : Halting κ) (id : ThreadId) (call : Call κ) (s : State) : Halting κ :=
  (w.setState s).setCall id (some { call with stage := .parked })

/-- The thread blocks, unless a wake came from outside since it last looked. -/
def halt
    (fuel : Nat)
    (w : Halting κ)
    (id : ThreadId)
    (key : κ → Nat)
    (deadline : Option Nat) : Option (Halting κ) :=
  (w.call id).bind fun call =>
    if w.state.wokenOutside id then some (w.again id call)
    else (w.state.yieldBlocked fuel id (key call.wish) deadline).map (w.rests id call)

instance (w : Halting κ) (id : ThreadId) (stage : Stage) : Decidable (w.At id stage) :=
  inferInstanceAs (Decidable (_ ∧ _ ∧ _))

instance [DecidableEq κ] (w : Halting κ) (id : ThreadId) : Decidable (w.Free id) :=
  inferInstanceAs (Decidable (_ ∧ _ ∧ _))

instance [DecidableEq κ] (w : Halting κ) (op : State.Op) : Decidable (w.Allows op) :=
  inferInstanceAs (Decidable (_ ∧ _))

/-! ## The invariant -/

/-- A wake from outside came since the thread last looked. -/
def Warned (s : State) (id : ThreadId) : Prop :=
  (s.threads id).wakesSeen < (s.procs (s.threads id).pid).outsideWakes

/-- No thread sleeps though what it waits for is due: one that is about to block is
warned.  Threads that are away will be blocked again. -/
structure Sound
    (key : κ → Nat)
    (Due : ThreadId → κ → Prop)
    (Away : ThreadId → Prop)
    (w : Halting κ) : Prop where
  tidy : w.state.Tidy
  oneBaton : w.state.OneBaton
  seen : w.state.Seen
  registered : ∀ {id}, w.call id ≠ none → id < w.state.nthreads
  /-- A thread between its look and its block has the baton. -/
  active : ∀ {id call}, w.call id = some call → call.stage ≠ .parked →
    (w.state.threads id).state ≠ .exited → w.state.current = some id
  missed : ∀ {id call}, w.call id = some call → call.stage = .missed →
    (w.state.threads id).state ≠ .exited → Due id call.wish → Warned w.state id
  parked : ∀ {id call}, w.call id = some call → call.stage = .parked →
    (w.state.threads id).state = .blocked ∨ Away id →
    (w.state.threads id).key = key call.wish ∧ ¬Due id call.wish

/-- What becomes due in a state warns those who are about to block, and wakes those who
are parked. -/
structure Tells
    (key : κ → Nat)
    (Due Due' : ThreadId → κ → Prop)
    (w : Halting κ)
    (s : State) : Prop where
  missed : ∀ {id call}, w.call id = some call → call.stage = .missed →
    (s.threads id).state ≠ .exited → Due' id call.wish →
    Due id call.wish ∨ Warned s id
  parked : ∀ {id call}, w.call id = some call → call.stage = .parked →
    (s.threads id).state = .blocked → (s.threads id).key = key call.wish →
    Due' id call.wish → Due id call.wish

/-- Those who are away in a state were before, and nothing that they wait for has become
due since. -/
def Leaves
    (Due Due' : ThreadId → κ → Prop)
    (Away Away' : ThreadId → Prop)
    (w : Halting κ)
    (s : State) : Prop :=
  ∀ id call, w.call id = some call → call.stage = .parked → Away' id →
    Away id ∧ (s.threads id).key = (w.state.threads id).key ∧
      (Due' id call.wish → Due id call.wish)

variable
  {w later : Halting κ}
  {s : State}
  {id : ThreadId}
  {call : Call κ}
  {fuel : Nat}
  {key : κ → Nat}
  {Due Due' : ThreadId → κ → Prop}
  {Away Away' : ThreadId → Prop}

theorem setCall_self (new : Option (Call κ)) : (w.setCall id new).call id = new :=
  Function.update_self ..

theorem setCall_setState (new other : Option (Call κ)) :
    ((w.setCall id new).setState s).setCall id other = (w.setState s).setCall id other := by
  unfold setCall setState
  dsimp only
  rw [Function.update_idem]

/-- Where nothing becomes due, nobody has to be told. -/
theorem Tells.refl
    (key : κ → Nat)
    (Due : ThreadId → κ → Prop)
    (w : Halting κ)
    (s : State) : Tells key Due Due w s :=
  ⟨fun _ _ _ => .inl, fun _ _ _ _ => id⟩

/-- Less may be due, and whoever is away may be blocked already. -/
theorem Sound.mono
    (sound : Sound key Due Away w)
    (due : ∀ id wish, Due' id wish → Due id wish)
    (away : ∀ id, Away' id → (w.state.threads id).state = .blocked ∨ Away id) :
    Sound key Due' Away' w where
  tidy := sound.tidy
  oneBaton := sound.oneBaton
  seen := sound.seen
  registered := sound.registered
  active := sound.active
  missed := fun isCall stage staying isDue =>
    sound.missed isCall stage staying (due _ _ isDue)
  parked := fun isCall stage asleep =>
    (sound.parked isCall stage (asleep.elim .inl (away _))).imp_right
      fun notDue isDue => notDue (due _ _ isDue)

/-- Another state in which the threads in calls stay parked. -/
theorem Sound.setState
    (sound : Sound key Due Away w)
    (tidy : s.Tidy)
    (oneBaton : s.OneBaton)
    (seen : s.Seen)
    (nthreads : w.state.nthreads ≤ s.nthreads)
    (thread : ∀ id, w.call id ≠ none → (w.state.threads id).StaysParked (s.threads id))
    (wakes : ∀ pid < w.state.nprocs,
      (w.state.procs pid).outsideWakes ≤ (s.procs pid).outsideWakes)
    (current : ∀ id call, w.call id = some call → call.stage ≠ .parked →
      w.state.current = some id → (s.threads id).state ≠ .exited → s.current = some id)
    (tells : Tells key Due Due' w s)
    (leaves : Leaves Due Due' Away Away' w s) :
    Sound key Due' Away' (w.setState s) := by
  have present {id : ThreadId} {call : Call κ} (isCall : w.call id = some call) :
      w.call id ≠ none := by simp [isCall]
  refine ⟨tidy, oneBaton, seen, fun isCall => (sound.registered isCall).trans_le nthreads,
    fun {id} {call} isCall stage staying => ?_,
    fun {id} {call} isCall stage staying due => ?_,
    fun {id} {call} isCall stage asleep => ?_⟩
  · refine current id call isCall stage (sound.active isCall stage fun exited => ?_) staying
    exact staying ((thread id (present isCall)).exited exited)
  · have stays := thread id (present isCall)
    obtain due | warned := tells.missed isCall stage staying due
    · have before : Warned w.state id :=
        sound.missed isCall stage (fun exited => staying (stays.exited exited)) due
      unfold Warned
      change (s.threads id).wakesSeen < (s.procs (s.threads id).pid).outsideWakes
      rw [stays.wakesSeen, stays.pid]
      exact before.trans_le
        (wakes _ (sound.tidy.owner id (sound.registered (present isCall))))
    · exact warned
  · obtain blocked | away := asleep
    · obtain ⟨before, same⟩ := (thread id (present isCall)).blocked blocked
      obtain ⟨onKey, notDue⟩ := sound.parked isCall stage (.inl before)
      have isKey : (s.threads id).key = key call.wish := same.trans onKey
      exact ⟨isKey, fun due => notDue (tells.parked isCall stage blocked isKey due)⟩
    · obtain ⟨before, same, notYet⟩ := leaves id call isCall stage away
      obtain ⟨onKey, notDue⟩ := sound.parked isCall stage (.inr before)
      exact ⟨same.trans onKey, notDue ∘ notYet⟩

/-- Another call of a thread, or none. -/
theorem Sound.setCall
    (sound : Sound key Due Away w)
    (registered : id < w.state.nthreads)
    (new : Option (Call κ))
    (same : ∀ other wish, other ≠ id → Due' other wish → Due other wish)
    (active : ∀ call ∈ new, call.stage ≠ .parked → w.state.current = some id)
    (missed : ∀ call ∈ new, call.stage = .missed → ¬Due' id call.wish)
    (parked : ∀ call ∈ new, call.stage = .parked →
      (w.state.threads id).state = .blocked ∨ Away id →
      (w.state.threads id).key = key call.wish ∧ ¬Due' id call.wish) :
    Sound key Due' Away (w.setCall id new) := by
  have split {other : ThreadId} {call : Call κ}
      (isCall : (w.setCall id new).call other = some call) :
      other = id ∧ call ∈ new ∨ other ≠ id ∧ w.call other = some call := by
    change Function.update w.call id new other = some call at isCall
    by_cases same : other = id
    · subst same
      rw [Function.update_self] at isCall
      exact .inl ⟨rfl, isCall⟩
    · rw [Function.update_of_ne same] at isCall
      exact .inr ⟨same, isCall⟩
  refine ⟨sound.tidy, sound.oneBaton, sound.seen, fun {other} isCall => ?_,
    fun isCall stage staying => ?_, fun isCall stage staying due => ?_,
    fun isCall stage asleep => ?_⟩
  · obtain ⟨call, isCall⟩ := Option.ne_none_iff_exists'.1 isCall
    obtain ⟨rfl, -⟩ | ⟨-, before⟩ := split isCall
    · exact registered
    · exact sound.registered (Option.ne_none_iff_exists'.2 ⟨_, before⟩)
  · obtain ⟨rfl, isNew⟩ | ⟨-, before⟩ := split isCall
    · exact active _ isNew stage
    · exact sound.active before stage staying
  · obtain ⟨rfl, isNew⟩ | ⟨apart, before⟩ := split isCall
    · exact absurd due (missed _ isNew stage)
    · exact sound.missed before stage staying (same _ _ apart due)
  · obtain ⟨rfl, isNew⟩ | ⟨apart, before⟩ := split isCall
    · exact parked _ isNew stage asleep
    · exact (sound.parked before stage asleep).imp_right fun notDue due =>
        notDue (same _ _ apart due)

/-- The call of a thread is over. -/
theorem Sound.returns
    (sound : Sound key Due Away w)
    (registered : id < w.state.nthreads) : Sound key Due Away (w.setCall id none) :=
  sound.setCall registered none (fun _ _ _ due => due) nofun nofun nofun

/-- The thread that has the baton is about to look. -/
theorem Sound.looks
    (sound : Sound key Due Away w)
    (holds : w.state.Holds id)
    (isLook : call.stage = .looks) : Sound key Due Away (w.setCall id (some call)) := by
  refine sound.setCall holds.2.1 _ (fun _ _ _ due => due) (fun _ _ _ => holds.1)
    (fun _ isNew missed => ?_) fun _ isNew parked => ?_
  · rw [← Option.some.inj isNew, isLook] at missed
    cases missed
  · rw [← Option.some.inj isNew, isLook] at parked
    cases parked

/-- The thread that has the baton looked, when nothing was due. -/
theorem Sound.misses
    (sound : Sound key Due Away w)
    (holds : w.state.Holds id)
    (isMiss : call.stage = .missed)
    (same : ∀ other wish, other ≠ id → Due' other wish → Due other wish)
    (notDue : ¬Due' id call.wish) :
    Sound key Due' Away (w.setCall id (some call)) := by
  refine sound.setCall holds.2.1 _ same (fun _ _ _ => holds.1)
    (fun _ isNew _ => ?_) fun _ isNew parked => ?_
  · rw [← Option.some.inj isNew]
    exact notDue
  · rw [← Option.some.inj isNew, isMiss] at parked
    cases parked

/-! ## Steps of the schedule -/

/-- Whatever else happens to the schedule. -/
theorem Sound.other
    {op : State.Op}
    {answer : State.Answer}
    (sound : Sound key Due Away w)
    (possible : w.state.Possible op)
    (allows : w.Allows op)
    (done : w.state.exec fuel op = some (s, answer))
    (tells : Tells key Due Due' w s)
    (leaves : Leaves Due Due' Away Away' w s) :
    Sound key Due' Away' (w.setState s) := by
  obtain ⟨nthreads, -, wakes⟩ := State.tables_of_exec possible done
  have notGiver {id : ThreadId} (present : w.call id ≠ none) :
      ∀ giver ∈ op.giver, giver.1 ≠ id := by
    rintro giver gives rfl
    exact present (allows.1 giver gives)
  refine sound.setState (State.tidy_of_exec sound.tidy possible done)
    (State.passed_of_exec sound.oneBaton possible done).oneBaton
    (State.seen_of_exec sound.tidy sound.seen possible done) nthreads
    (fun id present => State.staysParked_of_exec possible done
      (sound.registered present) (notGiver present)) wakes
    (fun id call isCall stage current staying => ?_) tells leaves
  refine Parking.current_of_exec sound.oneBaton possible done
    (notGiver (by simp [isCall])) ?_ current staying
  rintro other looks rfl
  exact stage (allows.2 other looks call isCall)

/-- A change of the record of the thread that has the baton. -/
theorem Sound.modifyThread
    (sound : Sound key Due Away w)
    (registered : id < w.state.nthreads)
    {change : ThreadRec → ThreadRec}
    (same : ∀ t, (change t).pid = t.pid ∧ (change t).state = t.state ∧
      (change t).key = t.key ∧ (change t).wakesSeen = t.wakesSeen) :
    Sound key Due Away (w.setState (w.state.modifyThread id change)) := by
  have keeps : State.KeepsParked w.state (w.state.modifyThread id change) :=
    State.keepsParked_modifyThread _ id (ThreadRec.staysParked_of_eq (same _).1
      (same _).2.2.2 (same _).2.1 (same _).2.2.1)
  have lulled : State.Lulled w.state (w.state.modifyThread id change) :=
    State.lulled_modifyThread _ id (ThreadRec.lulled_of_eq (same _).2.1)
  have keptKey (other : ThreadId) : ((w.state.modifyThread id change).threads other).key =
      (w.state.threads other).key := by
    change (Function.update w.state.threads id _ other).key = _
    by_cases itself : other = id
    · rw [itself, Function.update_self]
      exact (same _).2.2.1
    · rw [Function.update_of_ne itself]
  exact sound.setState (sound.tidy.modifyThread registered fun t => (same t).1)
    (sound.oneBaton.lulled lulled) (keeps.seen sound.tidy sound.seen) le_rfl
    (fun id present => keeps.thread id (sound.registered present))
    (fun pid inside => keeps.wakes pid inside) (fun _ _ _ _ current _ => current)
    (.refl key Due w _) fun other _ _ _ away => ⟨away, keptKey other, fun due => due⟩

/-- A thread looks again instead of blocking. -/
theorem Sound.again
    (sound : Sound key Due Away w)
    (holds : w.state.Holds id)
    (call : Call κ) : Sound key Due Away (w.again id call) := by
  have registered := holds.2.1
  have others {other : ThreadId} (apart : other ≠ id) :
      (w.state.lookAgain id).threads other = w.state.threads other :=
    Function.update_of_ne apart ..
  have itself : (w.state.lookAgain id).threads id =
      { w.state.threads id with
        timedOut := false
        wakesSeen := (w.state.procs (w.state.threads id).pid).outsideWakes } :=
    Function.update_self ..
  have lulled : State.Lulled w.state (w.state.lookAgain id) :=
    State.lulled_modifyThread _ id (ThreadRec.lulled_of_eq rfl)
  have seen : (w.state.lookAgain id).Seen := by
    intro other inside
    by_cases same : other = id
    · rw [same, itself]
      exact le_rfl
    · rw [others same]
      exact sound.seen other inside
  have apart {other : ThreadId} (present : (w.setCall id none).call other ≠ none) :
      other ≠ id := by
    rintro rfl
    exact present (setCall_self none)
  have looked : Sound key Due Away ((w.setCall id none).setState (w.state.lookAgain id)) := by
    refine (sound.returns registered).setState
      (sound.tidy.modifyThread registered fun _ => rfl)
      (sound.oneBaton.lulled lulled) seen le_rfl (fun other present => ?_)
      (fun _ _ => le_rfl) (fun _ _ _ _ current _ => current) (.refl key Due _ _)
      fun other _ isCall _ away => ⟨away, ?_, fun due => due⟩
    · rw [others (apart present)]
      exact .refl _
    · rw [others (apart (by simp [isCall]))]
      rfl
  have stillHolds : (w.state.lookAgain id).Holds id := by
    refine ⟨holds.1, registered, ?_⟩
    rw [itself]
    exact holds.2.2
  have looks : Sound key Due Away (((w.setCall id none).setState
      (w.state.lookAgain id)).setCall id (some { call with stage := .looks })) :=
    looked.looks stillHolds rfl
  rwa [setCall_setState] at looks

/-- A thread that saw no wake blocks: it is told of all that becomes due while others
are chosen. -/
theorem Sound.rests
    (sound : Sound key Due Away w)
    (holds : w.state.Holds id)
    (isCall : w.call id = some call)
    (isMissed : call.stage = .missed)
    (quiet : w.state.wokenOutside id = false)
    {deadline : Option Nat}
    (yielded : w.state.yieldBlocked fuel id (key call.wish) deadline = some s)
    (told : ∀ other wish, other < w.state.nthreads → (s.threads other).state = .blocked →
      (s.threads other).key = key wish → Due' other wish → Due other wish)
    (home : ∀ other, ¬Away' other) :
    Sound key Due' Away' (w.rests id call s) := by
  obtain ⟨⟨middle, handoff⟩, handed, same⟩ := Option.map_eq_some_iff.1 yielded
  obtain rfl : middle = s := same
  have registered := holds.2.1
  have record : (w.state.setDeadline id (State.deadlineWord deadline)).threads id =
      { w.state.threads id with
        deadline := State.deadlineWord deadline, timedOut := false } :=
    Function.update_self ..
  have stillHolds : (w.state.setDeadline id (State.deadlineWord deadline)).Holds id := by
    refine ⟨holds.1, registered, ?_⟩
    rw [record]
    exact holds.2.2
  have dated : Sound key Due Away ((w.setCall id none).setState
      (w.state.setDeadline id (State.deadlineWord deadline))) :=
    (sound.returns registered).modifyThread registered fun _ => ⟨rfl, rfl, rfl, rfl⟩
  have possible : (w.state.setDeadline id (State.deadlineWord deadline)).Possible
      (.handOff (some (id, .blocked, key call.wish)) (UInt64.ofNat (key call.wish))) :=
    ⟨stillHolds, .inr (.inl rfl)⟩
  have done : (w.state.setDeadline id (State.deadlineWord deadline)).exec fuel
      (.handOff (some (id, .blocked, key call.wish)) (UInt64.ofNat (key call.wish))) =
        some (middle, .handoff handoff) := by
    unfold State.exec
    dsimp only
    rw [handed]
    rfl
  have keeps := (State.tables_of_exec possible done).1
  have inCall {other : ThreadId} {wait : Call κ}
      (isWait : (w.setCall id none).call other = some wait) : other < w.state.nthreads :=
    (sound.returns registered).registered (by simp [isWait])
  -- Whoever else is in a call is parked, since the baton was this thread's.
  have alone {other : ThreadId} {wait : Call κ}
      (isWait : (w.setCall id none).call other = some wait) (stage : wait.stage ≠ .parked)
      (staying : (middle.threads other).state ≠ .exited) : False := by
    have apart : id ≠ other := by
      rintro rfl
      rw [setCall_self] at isWait
      cases isWait
    have stays := State.staysParked_of_exec possible done (inCall isWait) (by
      rintro giver ⟨⟩
      exact apart)
    have last : w.state.current = some other := dated.active isWait stage fun exited =>
      staying (stays.exited exited)
    exact apart (Option.some.inj (holds.1.symm.trans last))
  have given : Sound key Due' Away' ((w.setCall id none).setState middle) := by
    refine dated.other possible ⟨?_, nofun⟩ done ⟨fun isWait stage staying _ => ?_,
      fun {other} {wait} isWait stage blocked onKey due => ?_⟩
      fun other _ _ _ away => (home other away).elim
    · rintro giver ⟨⟩
      exact setCall_self none
    · exact (alone isWait (by rw [stage]; decide) staying).elim
    · exact told other wait.wish (inCall isWait) blocked onKey due
  obtain ⟨inside, after⟩ := State.giver_handOff stillHolds.2.1 handed
  have level : ¬Warned w.state id := by
    unfold State.wokenOutside at quiet
    rw [decide_eq_false_iff_not, not_not] at quiet
    exact quiet.not_lt
  have notDue : ¬Due id call.wish := fun due =>
    level (sound.missed isCall isMissed holds.2.2 due)
  have parked : Sound key Due' Away' (((w.setCall id none).setState middle).setCall id
      (some { call with stage := .parked })) := by
    refine given.setCall inside _ (fun _ _ _ due => due)
      (fun _ isNew stage => ?_) (fun _ isNew stage => ?_) fun _ isNew _ asleep => ?_
    · exact absurd (Option.some.inj isNew ▸ rfl) stage
    · rw [← Option.some.inj isNew] at stage
      cases stage
    · rw [← Option.some.inj isNew]
      have blocked := asleep.resolve_right (home id)
      have onKey := State.blocked_handOff stillHolds.2.1 handed blocked
      exact ⟨onKey, fun due => notDue (told id call.wish registered blocked onKey due)⟩
  rwa [setCall_setState] at parked

end Halting
end Derp
