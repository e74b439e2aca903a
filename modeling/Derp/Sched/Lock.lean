import Derp.Library.Transition
import Mathlib.Data.Nat.Bitwise
import Mathlib.Logic.Function.Basic

/-!
# The scheduler lock

The word of the lock names the pid and the thread inside.  A process can be
killed there, so a waiter takes the lock over from an owner whose process is
gone; an `execve` kills the threads of its process but not the process, so the
new image first takes the lock back from them.  Whatever dies where, at most one
thread is inside, and the lock never stays with the dead, as long as no handler
forks that interrupted a call for the lock, and no pid is used again.
-/

namespace Derp
namespace Lock

/-! ## The word -/

/-- A thread: the pid of its process and its port. -/
structure Owner where
  pid : UInt32
  port : UInt32
  positive : pid ≠ 0
  deriving DecidableEq

variable {o other : Owner} {pid : UInt32}

/-- What the lock word says of a thread: pid above, port below. -/
def ownerWord (o : Owner) : UInt64 :=
  o.pid.toUInt64 <<< 32 ||| o.port.toUInt64

def ownerPid (word : UInt64) : UInt32 := (word >>> 32).toUInt32

theorem toNat_ownerWord (o : Owner) :
    (ownerWord o).toNat = o.pid.toNat * 2 ^ 32 + o.port.toNat := by
  have pidSmall := o.pid.toNat_lt
  have portSmall := o.port.toNat_lt
  have shifted : (o.pid.toUInt64 <<< 32).toNat = o.pid.toNat * 2 ^ 32 := by
    rw [UInt64.toNat_shiftLeft, UInt32.toNat_toUInt64, Nat.shiftLeft_eq]
    refine Nat.mod_eq_of_lt ?_
    change o.pid.toNat * 2 ^ 32 < 2 ^ 64
    omega
  rw [ownerWord, UInt64.toNat_or, shifted, UInt32.toNat_toUInt64, ← Nat.shiftLeft_eq,
    Nat.shiftLeft_add_eq_or_of_lt portSmall]

theorem ownerPid_ownerWord (o : Owner) : ownerPid (ownerWord o) = o.pid := by
  have portSmall := o.port.toNat_lt
  apply UInt32.toNat_inj.1
  rw [ownerPid, UInt64.toNat_toUInt32, UInt64.toNat_shiftRight, toNat_ownerWord,
    Nat.shiftRight_eq_div_pow]
  have pidSmall := o.pid.toNat_lt
  change (o.pid.toNat * 2 ^ 32 + o.port.toNat) / 2 ^ 32 % 2 ^ 32 = _
  omega

theorem ownerWord_ne_zero (o : Owner) : ownerWord o ≠ 0 := by
  intro isZero
  have named := ownerPid_ownerWord o
  rw [isZero] at named
  exact o.positive named.symm

theorem ownerWord_injective : Function.Injective ownerWord := by
  intro o other same
  have pids : o.pid = other.pid := by
    rw [← ownerPid_ownerWord o, same, ownerPid_ownerWord]
  have words := congrArg UInt64.toNat same
  rw [toNat_ownerWord, toNat_ownerWord, pids] at words
  have ports : o.port = other.port := UInt32.toNat_inj.1 (Nat.add_left_cancel words)
  cases o
  cases other
  simp_all

/-! ## Threads, processes and the lock -/

/-- Where a call of `lock_unless_reentrant` is. -/
inductive Frame
  /-- It is about to put its word in the place of 0. -/
  | tries
  /-- That failed. -/
  | missed
  /-- It has spun for long: it is about to read who holds the lock. -/
  | looks
  /-- It has read this word, of another process. -/
  | looked (word : UInt64)
  /-- The process of this word is gone. -/
  | judged (word : UInt64)
  /-- Its guard is alive. -/
  | inside
  deriving DecidableEq

/-- A call of `lock_unless_reentrant`. -/
structure Call where
  /-- The word of the thread that it began on. -/
  me : UInt64
  spins : UInt32
  frame : Frame
  deriving DecidableEq

/-- A call that begins on a thread. -/
def Call.begun (o : Owner) : Call := { me := ownerWord o, spins := 0, frame := .tries }

/-- A call that has gone on. -/
def Call.on (call : Call) (frame : Frame) : Call := { call with frame }

/-- A waiter looks who holds the lock after so many spins. -/
def LOOKS : UInt32 := 0x10000

/-- Where a process is in its life. -/
inductive Image
  | unborn
  /-- A new image that has not looked at the lock. -/
  | starting
  /-- The lock names its own pid: it is about to clear that word. -/
  | reclaims (word : UInt64)
  | running
  | dead
  deriving DecidableEq

structure World where
  lock : UInt64
  image : UInt32 → Image
  /-- The calls on a thread, the innermost first: a signal handler calls while
  the call that it interrupted waits. -/
  calls : Owner → Option (List Call)

namespace World

/-- `process_lives`: some process has the pid. -/
def processLives (w : World) (pid : UInt32) : Bool :=
  w.image pid ≠ .unborn ∧ w.image pid ≠ .dead

/-- One access of a call to the lock: the word after it, and what is left of the
call.  An exchange that fails for no reason is `odd`. -/
def access (w : World) (odd : Bool) (call : Call) : UInt64 × List Call :=
  match call.frame with
  | .tries =>
      if w.lock = 0 ∧ !odd then (call.me, [call.on .inside]) else (w.lock, [call.on .missed])
  | .missed =>
      if w.lock = call.me then (w.lock, [])
      else
        let spins := call.spins + 1
        (w.lock, [{ call with spins, frame := if spins % LOOKS = 0 then .looks else .tries }])
  | .looks =>
      if w.lock = 0 ∨ ownerPid w.lock = ownerPid call.me then (w.lock, [call.on .tries])
      else (w.lock, [call.on (.looked w.lock)])
  | .looked word =>
      if w.processLives (ownerPid word) then (w.lock, [call.on .tries])
      else (w.lock, [call.on (.judged word)])
  | .judged word =>
      if w.lock = word then (call.me, [call.on .inside]) else (w.lock, [call.on .tries])
  | .inside => (0, [])

/-- The world after an access of the innermost call. -/
def after (w : World) (o : Owner) (outer : List Call)
    (access : UInt64 × List Call) : World :=
  { w with
    lock := access.1
    calls := Function.update w.calls o (some (access.2 ++ outer)) }

/-- `reclaim_after_exec`, up to its exchange. -/
def load (w : World) (pid : UInt32) : Image :=
  if w.lock ≠ 0 ∧ ownerPid w.lock = pid then .reclaims w.lock else .running

/-- What becomes of the threads of a process that loses them all. -/
def killed (w : World) (pid : UInt32) (o : Owner) : Option (List Call) :=
  if o.pid = pid then none else w.calls o

end World

inductive Event
  /-- A process is started: it begins with its image. -/
  | spawns (pid : UInt32)
  /-- A thread forks: the child begins with a copy of that thread, and with the
  calls that a handler that forks has interrupted. -/
  | forks (o child : Owner)
  /-- A new image reads the lock. -/
  | loads (pid : UInt32)
  /-- It clears the word that named its own pid. -/
  | reclaims (pid : UInt32)
  | begins (o : Owner)
  | ends (o : Owner)
  /-- Code or a handler on a thread asks for the lock. -/
  | asks (o : Owner)
  /-- The innermost call on a thread goes on. -/
  | goes (o : Owner) (odd : Bool)
  /-- The threads of a process are killed, wherever they are. -/
  | execs (pid : UInt32)
  | dies (pid : UInt32)
  deriving DecidableEq

namespace World

def perform (w : World) : Event → Option World
  | .spawns pid =>
      if w.processLives pid then none
      else some { w with image := Function.update w.image pid .starting }
  | .forks o child =>
      match w.calls o with
      | some calls =>
          -- The child is registered under the lock first: a thread inside
          -- aborts there.
          if w.processLives child.pid ∨ calls.any (·.frame = .inside) then none
          else some { w with
            image := Function.update w.image child.pid .running
            calls := Function.update w.calls child (some calls) }
      | none => none
  | .loads pid =>
      if w.image pid = .starting then
        some { w with image := Function.update w.image pid (w.load pid) }
      else none
  | .reclaims pid =>
      match w.image pid with
      | .reclaims word =>
          some { w with
            lock := if w.lock = word then 0 else w.lock
            image := Function.update w.image pid .running }
      | _ => none
  | .begins o =>
      if w.image o.pid = .running ∧ w.calls o = none then
        some { w with calls := Function.update w.calls o (some []) }
      else none
  | .ends o =>
      if w.calls o = some [] then
        some { w with calls := Function.update w.calls o none }
      else none
  | .asks o =>
      match w.calls o with
      | some calls =>
          some { w with calls := Function.update w.calls o (some (.begun o :: calls)) }
      | none => none
  | .goes o odd =>
      match w.calls o with
      | some (call :: outer) => some (w.after o outer (w.access odd call))
      | _ => none
  | .execs pid =>
      if w.image pid = .running then
        some { w with
          image := Function.update w.image pid .starting
          calls := w.killed pid }
      else none
  | .dies pid =>
      if w.processLives pid then
        some { w with
          image := Function.update w.image pid .dead
          calls := w.killed pid }
      else none

end World

/-- The runs that begin with the lock free and no thread of the scheduler. -/
def system : Transition World Event where
  init := fun w =>
    w.lock = 0 ∧ (∀ o, w.calls o = none) ∧
      ∀ pid, w.image pid = .unborn ∨ w.image pid = .running
  step := fun w event later => w.perform event = some later

/-- No handler forks that has interrupted a call for the lock, and no pid is
used again. -/
def Event.isCareful (w : World) : Event → Bool
  | .spawns pid => w.image pid = .unborn
  | .forks o child => w.calls o = some [] ∧ w.image child.pid = .unborn
  | _ => true

def Event.Careful (w : World) (event : Event) : Prop := event.isCareful w = true

def careful : Transition World Event := system.restrict fun w event => event.Careful w

/-! ## The invariant -/

/-- How often calls have the lock. -/
def depth (calls : List Call) : Nat := (calls.map Call.frame).count .inside

@[simp] theorem depth_nil : depth [] = 0 := rfl

theorem depth_append (calls outer : List Call) :
    depth (calls ++ outer) = depth calls + depth outer := by
  unfold depth
  rw [List.map_append, List.count_append]

theorem depth_cons (call : Call) (outer : List Call) :
    depth (call :: outer) = depth [call] + depth outer := depth_append [call] outer

theorem depth_inside {call : Call} (inside : call.frame = .inside) : depth [call] = 1 := by
  unfold depth
  rw [List.map_singleton, inside, List.count_singleton_self]

theorem depth_outside {call : Call} (outside : call.frame ≠ .inside) : depth [call] = 0 := by
  unfold depth
  rw [List.map_singleton, List.count_singleton, if_neg (by simpa using outside)]

/-- A thread is alive. -/
def Alive (w : World) (o : Owner) : Prop := w.calls o ≠ none

/-- A thread has the lock. -/
def Inside (w : World) (o : Owner) : Prop :=
  ∃ calls, w.calls o = some calls ∧ 0 < depth calls

/-- A process whose threads have been killed, and whose new image, if there is
one, has not looked yet. -/
def Left (w : World) (pid : UInt32) : Prop :=
  w.image pid = .dead ∨ w.image pid = .starting ∨
    ∃ word, w.image pid = .reclaims word

/-- What the words that a call has read say. -/
def Frame.Witnessed (w : World) : Frame → Prop
  | .looked word => w.image (ownerPid word) ≠ .unborn
  | .judged word => w.image (ownerPid word) = .dead
  | _ => True

structure Sound (w : World) : Prop where
  running : ∀ {o calls}, w.calls o = some calls → w.image o.pid = .running
  inside : ∀ {o calls}, w.calls o = some calls → 0 < depth calls →
    w.lock = ownerWord o
  once : ∀ {o calls}, w.calls o = some calls → depth calls ≤ 1
  named : w.lock ≠ 0 → ∃ o, w.lock = ownerWord o ∧ (Inside w o ∨ Left w o.pid)
  own : ∀ {o calls}, w.calls o = some calls → ∀ call ∈ calls, call.me = ownerWord o
  witnessed : ∀ {o calls}, w.calls o = some calls → ∀ call ∈ calls, call.frame.Witnessed w
  reclaimed : ∀ {pid word}, w.image pid = .reclaims word →
    w.lock = word ∧ word ≠ 0 ∧ ownerPid word = pid

variable {w later : World} {pid : UInt32} {calls outer : List Call} {frame : Frame} {call : Call}

theorem World.killed_eq_some :
    w.killed pid o = some calls ↔ o.pid ≠ pid ∧ w.calls o = some calls := by
  unfold World.killed
  split <;> simp_all

/-- The process of a word that was read goes on, and is not dead. -/
theorem Frame.Witnessed.updated
    {new : Image}
    (read : frame.Witnessed w)
    (lives : w.image pid ≠ .dead)
    (born : new ≠ .unborn)
    (images : later.image = Function.update w.image pid new) :
    frame.Witnessed later := by
  cases frame with
  | looked word =>
      change later.image (ownerPid word) ≠ .unborn
      rw [images]
      by_cases same : ownerPid word = pid
      · rwa [same, Function.update_self]
      · rw [Function.update_of_ne same]
        exact read
  | judged word =>
      have apart : ownerPid word ≠ pid := by
        rintro rfl
        exact lives read
      exact (congrFun images _).trans ((Function.update_of_ne apart ..).trans read)
  | tries | missed | looks | inside => trivial

/-- A process that has left is where it was when another one goes on. -/
theorem Left.updated
    {new : Image}
    {other : UInt32}
    (gone : Left w other)
    (apart : other ≠ pid)
    (images : later.image = Function.update w.image pid new) :
    Left later other := by
  have same : later.image other = w.image other := by
    rw [images, Function.update_of_ne apart]
  unfold Left
  rwa [same]

section Images

variable {new : Image}

/-- The image of a process without threads goes on. -/
theorem Sound.imaged
    (sound : Sound w)
    (idle : w.image pid ≠ .running)
    (lives : w.image pid ≠ .dead)
    (born : new ≠ .unborn)
    (left : w.lock ≠ 0 → ownerPid w.lock = pid →
      new = .starting ∨ ∃ word, new = .reclaims word)
    (reclaims : ∀ word, new = .reclaims word →
      w.lock = word ∧ word ≠ 0 ∧ ownerPid word = pid) :
    Sound { w with image := Function.update w.image pid new } := by
  have elsewhere {o : Owner} {calls : List Call} (now : w.calls o = some calls) :
      o.pid ≠ pid := by
    rintro rfl
    exact idle (sound.running now)
  refine ⟨fun {o} {calls} now => ?_, sound.inside, sound.once, fun taken => ?_, sound.own,
    fun {o} {calls} now call present => ?_, fun {other} {word} there => ?_⟩
  · exact (Function.update_of_ne (elsewhere now) ..).trans (sound.running now)
  · obtain ⟨o, names, inside | gone⟩ := sound.named taken
    · exact ⟨o, names, .inl inside⟩
    · refine ⟨o, names, .inr ?_⟩
      by_cases same : o.pid = pid
      · have named : ownerPid w.lock = pid := by rw [names, ownerPid_ownerWord, same]
        unfold Left
        simp only [same, Function.update_self]
        exact .inr (left taken named)
      · exact gone.updated same rfl
  · exact (sound.witnessed now call present).updated lives born rfl
  · by_cases same : other = pid
    · subst same
      exact reclaims word (by simpa only [Function.update_self] using there)
    · exact sound.reclaimed (by simpa only [Function.update_of_ne same] using there)

/-- All threads of a process are killed. -/
theorem Sound.killed
    (sound : Sound w)
    (lives : w.image pid ≠ .dead)
    (new : Image)
    (left : new = .starting ∨ new = .dead) :
    Sound { w with
      image := Function.update w.image pid new
      calls := w.killed pid } := by
  refine ⟨fun {o} {calls} now => ?_, fun now => ?_, fun now => ?_, fun taken => ?_,
    fun now => ?_, fun {o} {calls} now call present => ?_, fun {other} {word} there => ?_⟩
  · obtain ⟨apart, now⟩ := World.killed_eq_some.1 now
    exact (Function.update_of_ne apart ..).trans (sound.running now)
  · exact sound.inside (World.killed_eq_some.1 now).2
  · exact sound.once (World.killed_eq_some.1 now).2
  · obtain ⟨o, names, holds⟩ := sound.named taken
    refine ⟨o, names, ?_⟩
    by_cases same : o.pid = pid
    · refine .inr ?_
      unfold Left
      simp only [same, Function.update_self]
      exact left.elim (fun starts => .inr (.inl starts)) .inl
    · rcases holds with ⟨calls, now, inside⟩ | gone
      · exact .inl ⟨calls, World.killed_eq_some.2 ⟨same, now⟩, inside⟩
      · exact .inr (gone.updated same rfl)
  · exact sound.own (World.killed_eq_some.1 now).2
  · have now := (World.killed_eq_some.1 now).2
    have born : new ≠ .unborn := by rcases left with rfl | rfl <;> decide
    exact (sound.witnessed now call present).updated lives born rfl
  · by_cases same : other = pid
    · simp only [same, Function.update_self] at there
      rcases left with rfl | rfl <;> cases there
    · exact sound.reclaimed (by simpa only [Function.update_of_ne same] using there)

/-- A new image clears the word that names its own pid. -/
theorem Sound.cleared
    {word : UInt64}
    (sound : Sound w)
    (reclaims : w.image pid = .reclaims word) :
    Sound { w with lock := 0, image := Function.update w.image pid .running } := by
  obtain ⟨named, -, own⟩ := sound.reclaimed reclaims
  have elsewhere {o : Owner} {calls : List Call} (now : w.calls o = some calls) :
      o.pid ≠ pid := by
    rintro rfl
    have running := sound.running now
    rw [reclaims] at running
    cases running
  have nobody {o : Owner} {calls : List Call} (now : w.calls o = some calls)
      (inside : 0 < depth calls) : False := by
    have mine := sound.inside now inside
    refine elsewhere now ?_
    rw [← own, ← named, mine, ownerPid_ownerWord]
  refine ⟨fun {o} {calls} now => ?_, fun now inside => (nobody now inside).elim,
    sound.once, fun taken => absurd rfl taken, sound.own,
    fun {o} {calls} now call present => ?_, fun {other} {word'} there => ?_⟩
  · exact (Function.update_of_ne (elsewhere now) ..).trans (sound.running now)
  · have lives : w.image pid ≠ .dead := by simp [reclaims]
    exact (sound.witnessed now call present).updated lives (by decide) rfl
  · by_cases same : other = pid
    · simp only [same, Function.update_self] at there
      cases there
    · simp only [Function.update_of_ne same] at there
      obtain ⟨again, -, owner⟩ := sound.reclaimed there
      exact absurd (by rw [← owner, ← again, named, own]) same

end Images

section Calls

variable {mine : Option (List Call)} {lock : UInt64}

/-- One thread goes on, and may change the lock. -/
theorem Sound.moved
    (sound : Sound w)
    (running : mine ≠ none → w.image o.pid = .running)
    (once : ∀ calls ∈ mine, depth calls ≤ 1)
    (own : ∀ calls ∈ mine, ∀ call ∈ calls, call.me = ownerWord o)
    (witnessed : ∀ calls ∈ mine, ∀ call ∈ calls, call.frame.Witnessed w)
    (holds : ∀ calls ∈ mine, 0 < depth calls → lock = ownerWord o)
    (free : lock ≠ w.lock →
      (∀ other ≠ o, ¬Inside w other) ∧ ∀ pid word, w.image pid ≠ .reclaims word)
    (named : lock ≠ 0 →
      (lock = ownerWord o ∧ ∃ calls ∈ mine, 0 < depth calls) ∨
        lock = w.lock ∧ ¬Inside w o) :
    Sound { w with lock := lock, calls := Function.update w.calls o mine } := by
  have split {other : Owner} {calls : List Call}
      (now : Function.update w.calls o mine other = some calls) :
      other = o ∧ calls ∈ mine ∨ other ≠ o ∧ w.calls other = some calls := by
    by_cases same : other = o
    · subst same
      rw [Function.update_self] at now
      exact .inl ⟨rfl, now⟩
    · rw [Function.update_of_ne same] at now
      exact .inr ⟨same, now⟩
  refine ⟨fun now => ?_, fun {other} {calls} now inside => ?_, fun now => ?_,
    fun taken => ?_, fun now => ?_, fun now => ?_, fun {pid} {word} there => ?_⟩
  · obtain ⟨rfl, isMine⟩ | ⟨-, now⟩ := split now
    · exact running (Option.ne_none_iff_exists'.2 ⟨_, isMine⟩)
    · exact sound.running now
  · obtain ⟨rfl, isMine⟩ | ⟨apart, now⟩ := split now
    · exact holds calls isMine inside
    · have same : lock = w.lock := by
        by_contra changed
        exact (free changed).1 other apart ⟨calls, now, inside⟩
      exact same.trans (sound.inside now inside)
  · obtain ⟨rfl, isMine⟩ | ⟨-, now⟩ := split now
    · exact once _ isMine
    · exact sound.once now
  · obtain ⟨isMine, calls, has, inside⟩ | ⟨same, outside⟩ := named taken
    · exact ⟨o, isMine, .inl ⟨calls,
        (Function.update_self ..).trans (Option.mem_def.1 has), inside⟩⟩
    · obtain ⟨other, names, ⟨calls, now, inside⟩ | gone⟩ := sound.named (same ▸ taken)
      · have apart : other ≠ o := by
          rintro rfl
          exact outside ⟨calls, now, inside⟩
        exact ⟨other, same.trans names, .inl
          ⟨calls, (Function.update_of_ne apart ..).trans now, inside⟩⟩
      · exact ⟨other, same.trans names, .inr gone⟩
  · obtain ⟨rfl, isMine⟩ | ⟨-, now⟩ := split now
    · exact own _ isMine
    · exact sound.own now
  · obtain ⟨rfl, isMine⟩ | ⟨-, now⟩ := split now
    · exact witnessed _ isMine
    · exact sound.witnessed now
  · have same : lock = w.lock := by
      by_contra changed
      exact (free changed).2 pid word there
    obtain ⟨now, rest⟩ := sound.reclaimed there
    exact ⟨same.trans now, rest⟩

/-- A thread goes on and neither takes the lock nor lets it go. -/
theorem Sound.still
    (sound : Sound w)
    (running : mine ≠ none → w.image o.pid = .running)
    (own : ∀ calls ∈ mine, ∀ call ∈ calls, call.me = ownerWord o)
    (witnessed : ∀ calls ∈ mine, ∀ call ∈ calls, call.frame.Witnessed w)
    (same : depth (mine.getD []) = depth ((w.calls o).getD [])) :
    Sound { w with calls := Function.update w.calls o mine } := by
  have inner {calls : List Call} (has : calls ∈ mine) :
      depth calls = depth ((w.calls o).getD []) := by
    rw [← same, Option.mem_def.1 has]
    rfl
  have few : depth ((w.calls o).getD []) ≤ 1 := by
    cases now : w.calls o with
    | none => exact Nat.zero_le 1
    | some calls => exact sound.once now
  have was {calls : List Call} (has : calls ∈ mine) (inside : 0 < depth calls) :
      Inside w o := by
    rw [inner has] at inside
    cases now : w.calls o with
    | none =>
        rw [now] at inside
        exact absurd inside (Nat.lt_irrefl 0)
    | some before =>
        rw [now] at inside
        exact ⟨before, now, inside⟩
  have stays (inside : Inside w o) : ∃ calls ∈ mine, 0 < depth calls := by
    obtain ⟨before, now, inside⟩ := inside
    have some : 0 < depth (mine.getD []) := by
      rw [same, now]
      exact inside
    cases has : mine with
    | none =>
        rw [has] at some
        exact absurd some (Nat.lt_irrefl 0)
    | some calls =>
        rw [has] at some
        exact ⟨calls, rfl, some⟩
  have locked (inside : Inside w o) : w.lock = ownerWord o := by
    obtain ⟨before, now, inside⟩ := inside
    exact sound.inside now inside
  refine sound.moved running (fun calls has => (inner has).trans_le few) own witnessed
    (fun calls has inside => locked (was has inside)) (fun changed => absurd rfl changed)
    fun _ => ?_
  by_cases inside : Inside w o
  · exact .inl ⟨locked inside, stays inside⟩
  · exact .inr ⟨rfl, inside⟩

/-- A thread takes the lock: it is free, or its owner is dead. -/
theorem Sound.enters
    (sound : Sound w)
    (now : w.calls o = some (call :: outer))
    (free : w.lock = 0 ∨ w.image (ownerPid w.lock) = .dead) :
    Sound (w.after o outer (call.me, [call.on .inside])) := by
  have nobody (other : Owner) : ¬Inside w other := by
    rintro ⟨calls, there, inside⟩
    have names := sound.inside there inside
    rcases free with free | dead
    · exact ownerWord_ne_zero other (names.symm.trans free)
    · rw [names, ownerPid_ownerWord, sound.running there] at dead
      cases dead
  have outside : depth outer = 0 := by
    by_contra some
    refine nobody o ⟨_, now, ?_⟩
    rw [depth_cons]
    omega
  have isMine : call.me = ownerWord o := sound.own now call List.mem_cons_self
  have isInside : depth (call.on .inside :: outer) = 1 := by
    rw [depth_cons, depth_inside rfl, outside]
  refine sound.moved (fun _ => sound.running now) (fun calls has => ?_)
    (fun calls has other present => ?_) (fun calls has other present => ?_)
    (fun _ _ _ => isMine)
    (fun _ => ⟨fun other _ => nobody other, fun pid word reclaims => ?_⟩)
    fun _ => .inl ⟨isMine, _, rfl, isInside ▸ Nat.one_pos⟩
  · obtain rfl := Option.some.inj has
    exact isInside.le
  · obtain rfl := Option.some.inj has
    obtain rfl | present := List.mem_cons.1 present
    · exact isMine
    · exact sound.own now other (List.mem_cons_of_mem call present)
  · obtain rfl := Option.some.inj has
    obtain rfl | present := List.mem_cons.1 present
    · trivial
    · exact sound.witnessed now other (List.mem_cons_of_mem call present)
  · obtain ⟨same, taken, own⟩ := sound.reclaimed reclaims
    rcases free with free | dead
    · exact taken (same.symm.trans free)
    · rw [same, own, reclaims] at dead
      cases dead

/-- A thread lets the lock go. -/
theorem Sound.leaves
    (sound : Sound w)
    (now : w.calls o = some (call :: outer))
    (isInside : call.frame = .inside) :
    Sound (w.after o outer (0, [])) := by
  have once := sound.once now
  rw [depth_cons, depth_inside isInside] at once
  have mine := sound.inside now (by rw [depth_cons, depth_inside isInside]; omega)
  refine sound.moved (fun _ => sound.running now) (fun calls has => ?_)
    (fun calls has other present => ?_) (fun calls has other present => ?_)
    (fun calls has inside => ?_)
    (fun _ => ⟨fun other apart inside => ?_, fun pid word reclaims => ?_⟩)
    fun taken => absurd rfl taken
  · obtain rfl := Option.some.inj has
    change depth outer ≤ 1
    omega
  · obtain rfl := Option.some.inj has
    exact sound.own now other (List.mem_cons_of_mem _ present)
  · obtain rfl := Option.some.inj has
    exact sound.witnessed now other (List.mem_cons_of_mem _ present)
  · obtain rfl := Option.some.inj has
    change 0 < depth outer at inside
    omega
  · obtain ⟨calls, there, inside⟩ := inside
    exact apart (ownerWord_injective ((sound.inside there inside).symm.trans mine))
  · obtain ⟨same, -, own⟩ := sound.reclaimed reclaims
    have running := sound.running now
    rw [← ownerPid_ownerWord o, ← mine, same, own, reclaims] at running
    cases running

end Calls

/-! ## Every step -/

/-- The innermost call of a thread goes on. -/
theorem Sound.goes
    (sound : Sound w)
    (now : w.calls o = some (call :: outer))
    (odd : Bool) :
    Sound (w.after o outer (w.access odd call)) := by
  have isMine : call.me = ownerWord o := sound.own now call List.mem_cons_self
  -- A call that goes on elsewhere than into the lock or out of it.
  have still (next : List Call) (outside : depth next = 0) (was : call.frame ≠ .inside)
      (own : ∀ other ∈ next, other.me = call.me)
      (read : ∀ other ∈ next, other.frame.Witnessed w) :
      Sound (w.after o outer (w.lock, next)) := by
    refine sound.still (fun _ => sound.running now) (fun calls has other present => ?_)
      (fun calls has other present => ?_) ?_
    · obtain rfl := Option.some.inj has
      obtain new | waits := List.mem_append.1 present
      · exact (own other new).trans isMine
      · exact sound.own now other (List.mem_cons_of_mem call waits)
    · obtain rfl := Option.some.inj has
      obtain new | waits := List.mem_append.1 present
      · exact read other new
      · exact sound.witnessed now other (List.mem_cons_of_mem call waits)
    · rw [now, Option.getD_some, Option.getD_some, depth_append, depth_cons, outside,
        depth_outside was]
  have stillOn (next : Call) (outside : next.frame ≠ .inside) (was : call.frame ≠ .inside)
      (own : next.me = call.me) (read : next.frame.Witnessed w) :
      Sound (w.after o outer (w.lock, [next])) :=
    still [next] (depth_outside outside) was (by simpa using own) (by simpa using read)
  have read := sound.witnessed now call List.mem_cons_self
  obtain ⟨me, spins, frame⟩ := call
  cases frame with
  | tries =>
      unfold World.access
      dsimp only
      split
      · next free => exact sound.enters now (.inl free.1)
      · exact stillOn _ (by simp [Call.on]) (by simp) rfl trivial
  | missed =>
      unfold World.access
      dsimp only
      split
      · exact still [] rfl (by simp) (by simp) (by simp)
      · refine stillOn _ ?_ (by simp) rfl ?_
        · dsimp only
          split <;> simp
        · dsimp only
          split <;> trivial
  | looks =>
      unfold World.access
      dsimp only
      split
      · exact stillOn _ (by simp [Call.on]) (by simp) rfl trivial
      · next other =>
          refine stillOn _ (by simp [Call.on]) (by simp) rfl ?_
          -- The word names a process that had threads.
          obtain ⟨owner, names, holds⟩ := sound.named (fun free => other (.inl free))
          have born : w.image owner.pid ≠ .unborn := by
            rcases holds with ⟨calls, there, -⟩ | dead | starting | ⟨word, reclaims⟩
            · simp [sound.running there]
            · simp [dead]
            · simp [starting]
            · simp [reclaims]
          change w.image (ownerPid w.lock) ≠ .unborn
          rwa [names, ownerPid_ownerWord]
  | looked word =>
      unfold World.access
      dsimp only
      split
      · exact stillOn _ (by simp [Call.on]) (by simp) rfl trivial
      · next gone =>
          refine stillOn _ (by simp [Call.on]) (by simp) rfl ?_
          change w.image (ownerPid word) = .dead
          by_contra lives
          exact gone (decide_eq_true ⟨read, lives⟩)
  | judged word =>
      unfold World.access
      dsimp only
      split
      · next same =>
          have dead : w.image (ownerPid word) = .dead := read
          exact sound.enters now (.inr (same ▸ dead))
      · exact stillOn _ (by simp [Call.on]) (by simp) rfl trivial
  | inside => exact sound.leaves now rfl

theorem Sound.step
    {event : Event}
    (sound : Sound w)
    (isCareful : event.Careful w)
    (step : w.perform event = some later) : Sound later := by
  cases event with
  | spawns pid =>
      have unborn : w.image pid = .unborn := of_decide_eq_true isCareful
      simp only [World.perform, Option.ite_none_left_eq_some, Option.some.injEq] at step
      obtain ⟨-, rfl⟩ := step
      exact sound.imaged (by simp [unborn]) (by simp [unborn]) (by simp)
        (fun _ _ => .inl rfl) (by simp)
  | forks o child =>
      obtain ⟨outside, unborn⟩ := of_decide_eq_true isCareful
      simp only [World.perform, outside, Option.ite_none_left_eq_some,
        Option.some.injEq] at step
      obtain ⟨-, rfl⟩ := step
      have copied := @Sound.imaged _ child.pid .running sound (by simp [unborn])
        (by simp [unborn]) (by simp) (fun taken named => ?_) (by simp)
      · refine copied.still (fun _ => Function.update_self ..) (by simp) (by simp) ?_
        change 0 = depth ((w.calls child).getD [])
        cases there : w.calls child with
        | none => rfl
        | some calls =>
            have running := sound.running there
            rw [unborn] at running
            cases running
      · obtain ⟨owner, names, holds⟩ := sound.named taken
        have same : owner.pid = child.pid := by
          rw [← named, names, ownerPid_ownerWord]
        rcases holds with ⟨calls, there, -⟩ | dead | starting | ⟨word, reclaims⟩
        · have running := sound.running there
          rw [same, unborn] at running
          cases running
        · simp [same, unborn] at dead
        · simp [same, unborn] at starting
        · simp [same, unborn] at reclaims
  | loads pid =>
      simp only [World.perform, Option.ite_none_right_eq_some, Option.some.injEq] at step
      obtain ⟨starting, rfl⟩ := step
      unfold World.load
      split
      · next own =>
          refine sound.imaged (by simp [starting]) (by simp [starting]) (by simp)
            (fun _ _ => .inr ⟨_, rfl⟩) fun word same => ?_
          obtain rfl := Image.reclaims.inj same
          exact ⟨rfl, own⟩
      · next other =>
          exact sound.imaged (by simp [starting]) (by simp [starting]) (by simp)
            (fun taken named => absurd ⟨taken, named⟩ other) (by simp)
  | reclaims pid =>
      unfold World.perform at step
      dsimp only at step
      split at step
      · next word there =>
          obtain rfl := Option.some.inj step
          rw [if_pos (sound.reclaimed there).1]
          exact sound.cleared there
      · cases step
  | begins o =>
      simp only [World.perform, Option.ite_none_right_eq_some, Option.some.injEq] at step
      obtain ⟨⟨running, none⟩, rfl⟩ := step
      refine sound.still (fun _ => running) (by simp) (by simp) ?_
      rw [none]
      rfl
  | ends o =>
      simp only [World.perform, Option.ite_none_right_eq_some, Option.some.injEq] at step
      obtain ⟨outside, rfl⟩ := step
      refine sound.still (fun some => absurd rfl some) (by simp) (by simp) ?_
      rw [outside]
      rfl
  | asks o =>
      unfold World.perform at step
      dsimp only at step
      split at step
      · next calls now =>
          obtain rfl := Option.some.inj step
          refine sound.still (fun _ => sound.running now) (fun more has other present => ?_)
            (fun more has other present => ?_) ?_
          · obtain rfl := Option.some.inj has
            obtain rfl | present := List.mem_cons.1 present
            · rfl
            · exact sound.own now other present
          · obtain rfl := Option.some.inj has
            obtain rfl | present := List.mem_cons.1 present
            · trivial
            · exact sound.witnessed now other present
          · have outside : depth [Call.begun o] = 0 := rfl
            rw [now, Option.getD_some, Option.getD_some, depth_cons, outside, Nat.zero_add]
      · cases step
  | goes o odd =>
      unfold World.perform at step
      dsimp only at step
      split at step
      · next call outer now =>
          obtain rfl := Option.some.inj step
          exact sound.goes now odd
      · cases step
  | execs pid =>
      simp only [World.perform, Option.ite_none_right_eq_some, Option.some.injEq] at step
      obtain ⟨running, rfl⟩ := step
      exact sound.killed (by simp [running]) .starting (.inl rfl)
  | dies pid =>
      simp only [World.perform, Option.ite_none_right_eq_some, Option.some.injEq] at step
      obtain ⟨lives, rfl⟩ := step
      exact sound.killed (of_decide_eq_true lives).2 .dead (.inr rfl)

theorem sound_of_init (init : system.init w) : Sound w := by
  obtain ⟨free, none, images⟩ := init
  have nobody {o : Owner} {calls : List Call} (now : w.calls o = some calls) : False := by
    rw [none o] at now
    cases now
  refine ⟨fun now => (nobody now).elim, fun now => (nobody now).elim,
    fun now => (nobody now).elim, fun taken => absurd free taken,
    fun now => (nobody now).elim, fun now => (nobody now).elim,
    fun {pid} {word} there => ?_⟩
  rcases images pid with unborn | running
  · rw [unborn] at there
    cases there
  · rw [running] at there
    cases there

theorem Sound.of_reachable (reachable : careful.Reachable w) : Sound w := by
  have initial : ∀ w, careful.init w → Sound w := fun _ => sound_of_init
  have preserved : ∀ w event later, Sound w → careful.step w event later → Sound later :=
    fun _ _ _ sound ⟨isCareful, step⟩ => sound.step isCareful step
  exact reachable.invariant initial preserved

/-! ## One thread inside -/

variable {other : Owner}

theorem Sound.lock_iff (sound : Sound w) (alive : Alive w o) :
    w.lock = ownerWord o ↔ Inside w o := by
  constructor
  · intro mine
    obtain ⟨calls, now⟩ := Option.ne_none_iff_exists'.1 alive
    have running := sound.running now
    obtain ⟨owner, names, holds⟩ := sound.named (mine ▸ ownerWord_ne_zero o)
    obtain rfl := ownerWord_injective (mine.symm.trans names)
    rcases holds with inside | dead | starting | ⟨word, reclaims⟩
    · exact inside
    · simp [running] at dead
    · simp [running] at starting
    · simp [running] at reclaims
  · rintro ⟨calls, now, inside⟩
    exact sound.inside now inside

theorem Inside.alive (inside : Inside w o) : Alive w o := by
  obtain ⟨calls, now, -⟩ := inside
  exact Option.ne_none_iff_exists'.2 ⟨calls, now⟩

theorem Sound.one_inside
    (sound : Sound w)
    (inside : Inside w o)
    (there : Inside w other) : o = other :=
  ownerWord_injective (((sound.lock_iff inside.alive).2 inside).symm.trans
    ((sound.lock_iff there.alive).2 there))

/-- What takes the lock from a thread: its own guard, or the end of its threads. -/
def Event.Frees (w : World) (o : Owner) : Event → Prop
  | .goes owner _ => owner = o ∧
      ∃ call outer, w.calls o = some (call :: outer) ∧ call.frame = .inside
  | .execs pid => pid = o.pid
  | .dies pid => pid = o.pid
  | _ => False

/-- Nobody takes the lock from a live thread. -/
theorem Sound.stays
    {event : Event}
    (sound : Sound w)
    (inside : Inside w o)
    (isCareful : event.Careful w)
    (step : w.perform event = some later) :
    Inside later o ∨ event.Frees w o := by
  obtain ⟨calls, now, isInside⟩ := inside
  -- A step of another thread, or one that puts a call on top of this one's.
  have kept {owner : Owner} {mine : Option (List Call)}
      (grows : owner = o → ∃ calls, mine = some calls ∧ 0 < depth calls) :
      ∃ calls, Function.update w.calls owner mine o = some calls ∧ 0 < depth calls := by
    by_cases same : owner = o
    · obtain ⟨calls, has, inside⟩ := grows same
      rw [same]
      exact ⟨calls, (Function.update_self ..).trans has, inside⟩
    · rw [Function.update_of_ne (Ne.symm same)]
      exact ⟨calls, now, isInside⟩
  have killed {pid : UInt32} (apart : pid ≠ o.pid) :
      ∃ calls, w.killed pid o = some calls ∧ 0 < depth calls :=
    ⟨calls, World.killed_eq_some.2 ⟨Ne.symm apart, now⟩, isInside⟩
  cases event with
  | spawns pid =>
      simp only [World.perform, Option.ite_none_left_eq_some, Option.some.injEq] at step
      obtain ⟨-, rfl⟩ := step
      exact .inl ⟨calls, now, isInside⟩
  | forks owner child =>
      obtain ⟨outside, unborn⟩ := of_decide_eq_true isCareful
      simp only [World.perform, outside, Option.ite_none_left_eq_some,
        Option.some.injEq] at step
      obtain ⟨-, rfl⟩ := step
      refine .inl (kept fun same => ?_)
      have running := sound.running now
      rw [← same, unborn] at running
      cases running
  | loads pid =>
      simp only [World.perform, Option.ite_none_right_eq_some, Option.some.injEq] at step
      obtain ⟨-, rfl⟩ := step
      exact .inl ⟨calls, now, isInside⟩
  | reclaims pid =>
      unfold World.perform at step
      dsimp only at step
      split at step
      · obtain rfl := Option.some.inj step
        exact .inl ⟨calls, now, isInside⟩
      · cases step
  | begins owner =>
      simp only [World.perform, Option.ite_none_right_eq_some, Option.some.injEq] at step
      obtain ⟨⟨-, none⟩, rfl⟩ := step
      refine .inl (kept fun same => ?_)
      rw [same, now] at none
      cases none
  | ends owner =>
      simp only [World.perform, Option.ite_none_right_eq_some, Option.some.injEq] at step
      obtain ⟨outside, rfl⟩ := step
      refine .inl (kept fun same => ?_)
      rw [same, now] at outside
      rw [Option.some.inj outside] at isInside
      cases isInside
  | asks owner =>
      unfold World.perform at step
      dsimp only at step
      split at step
      · next more there =>
          obtain rfl := Option.some.inj step
          refine .inl (kept fun same => ⟨_, rfl, ?_⟩)
          rw [same, now] at there
          rw [depth_cons, ← Option.some.inj there]
          omega
      · cases step
  | goes owner odd =>
      unfold World.perform at step
      dsimp only at step
      split at step
      · next call outer there =>
          obtain rfl := Option.some.inj step
          by_cases frees : owner = o ∧ call.frame = .inside
          · obtain ⟨rfl, frees⟩ := frees
            exact .inr ⟨rfl, call, outer, there, frees⟩
          · refine .inl (kept fun same => ⟨_, rfl, ?_⟩)
            have outside : depth [call] = 0 := depth_outside fun frame => frees ⟨same, frame⟩
            rw [same, now] at there
            rw [Option.some.inj there, depth_cons, outside] at isInside
            rw [depth_append]
            omega
      · cases step
  | execs pid =>
      simp only [World.perform, Option.ite_none_right_eq_some, Option.some.injEq] at step
      obtain ⟨-, rfl⟩ := step
      by_cases same : pid = o.pid
      · exact .inr same
      · exact .inl (killed same)
  | dies pid =>
      simp only [World.perform, Option.ite_none_right_eq_some, Option.some.injEq] at step
      obtain ⟨-, rfl⟩ := step
      by_cases same : pid = o.pid
      · exact .inr same
      · exact .inl (killed same)

/-- Wherever processes fork, start, change their image and die, and wherever
signal handlers ask for the lock: the word names a live thread just when that
thread has the lock, so a handler on it finds out; no two threads have it, nor
does one twice; and nobody takes it from a live thread.  No handler forks that
interrupted a call for the lock, and no pid is used again. -/
theorem exclusive_of_reachable (reachable : careful.Reachable w) :
    (∀ o, Alive w o → (w.lock = ownerWord o ↔ Inside w o)) ∧
      (∀ o other, Inside w o → Inside w other → o = other) ∧
      (∀ o calls, w.calls o = some calls → depth calls ≤ 1) ∧
      ∀ o event later, Inside w o → careful.step w event later →
        Inside later o ∨ event.Frees w o :=
  have sound := Sound.of_reachable reachable
  ⟨fun _ alive => sound.lock_iff alive, fun _ _ => sound.one_inside,
    fun _ _ now => sound.once now,
    fun _ _ _ inside ⟨isCareful, step⟩ => sound.stays inside isCareful step⟩

/-- Two processes, and a thread of each. -/
def victim : Owner := { pid := 1, port := 7, positive := by decide }

def waiter : Owner := { pid := 2, port := 7, positive := by decide }

/-- Their processes run before any of their threads does. -/
def fresh : World where
  lock := 0
  image := fun pid => if pid = 1 ∨ pid = 2 then .running else .unborn
  calls := fun _ => none

/-- One gets in while the other one waits. -/
def waited : List Event :=
  [.begins victim, .begins waiter, .asks victim, .goes victim false, .asks waiter]

theorem init_fresh : system.init fresh := by
  refine ⟨rfl, fun _ => rfl, fun pid => ?_⟩
  change (if pid = 1 ∨ pid = 2 then Image.running else .unborn) = .unborn ∨ _
  split
  · next named => exact .inr (if_pos named)
  · exact .inl rfl

/-- A careful event. -/
def World.performCarefully (w : World) (event : Event) : Option World :=
  if event.isCareful w then w.perform event else none

theorem World.step_of_performCarefully
    {event : Event}
    (performed : w.performCarefully event = some later) : careful.step w event later := by
  unfold World.performCarefully at performed
  split at performed
  · next isCareful => exact ⟨isCareful, performed⟩
  · cases performed

theorem exclusive_waited :
    ∃ w, w.calls victim = some [(Call.begun victim).on .inside] ∧
      w.calls waiter = some [.begun waiter] ∧
      (∀ o, Alive w o → (w.lock = ownerWord o ↔ Inside w o)) ∧
      (∀ o other, Inside w o → Inside w other → o = other) ∧
      (∀ o calls, w.calls o = some calls → depth calls ≤ 1) ∧
      ∀ o event later, Inside w o → careful.step w event later →
        Inside later o ∨ event.Frees w o := by
  obtain ⟨w, performed, facts⟩ := Option.map_eq_some_iff.1
    (by decide : (waited.foldlM World.performCarefully fresh).map (fun w : World =>
      (w.calls victim, w.calls waiter)) =
        some (some [(Call.begun victim).on .inside], some [.begun waiter]))
  obtain ⟨isInside, isWaiting⟩ := Prod.mk.inj facts
  exact ⟨w, isInside, isWaiting, exclusive_of_reachable
    (.foldlM World.step_of_performCarefully (.start init_fresh) performed)⟩

/-- The child of a handler that forks. -/
def copied : Owner := { pid := 3, port := 7, positive := by decide }

/-- A handler forks that interrupted a call for the lock: the child goes on with
its parent's word, and its parent's death frees the lock that it has. -/
def forkedInCall : List Event :=
  [.begins victim, .asks victim, .forks victim copied, .goes copied false, .dies 1,
    .begins waiter, .asks waiter, .goes waiter false]

theorem not_exclusive_forked :
    ∃ w, system.Reachable w ∧ Inside w copied ∧ w.lock = ownerWord victim ∧
      w.image victim.pid = .dead := by
  obtain ⟨w, performed, facts⟩ := Option.map_eq_some_iff.1
    (by decide : (forkedInCall.foldlM World.perform fresh).map (fun w : World =>
      (w.calls copied, w.lock, w.image 1)) =
        some (some [(Call.begun victim).on .inside], ownerWord victim, .dead))
  obtain ⟨isInside, others⟩ := Prod.mk.inj facts
  obtain ⟨isNamed, isDead⟩ := Prod.mk.inj others
  exact ⟨w, .foldlM (fun step => step) (.start init_fresh) performed,
    ⟨_, isInside, by decide⟩, isNamed, isDead⟩

/-! ## The dead do not keep it -/

/-- The world with one thread's innermost call elsewhere. -/
def World.resting (w : World) (o : Owner) (outer : List Call) (call : Call) : World :=
  { w with calls := Function.update w.calls o (some (call :: outer)) }

theorem World.perform_goes
    (now : w.calls o = some (call :: outer))
    (odd : Bool) :
    w.perform (.goes o odd) = some (w.after o outer (w.access odd call)) := by
  unfold World.perform
  dsimp only
  rw [now]

theorem World.resting_goes
    {next : List Call}
    {lock : UInt64}
    {odd : Bool}
    (access : w.access odd call = (lock, next)) :
    careful.step (w.resting o outer call) (.goes o odd)
      { w with
        lock := lock
        calls := Function.update w.calls o (some (next ++ outer)) } := by
  have here : (w.resting o outer call).calls o = some (call :: outer) :=
    Function.update_self ..
  have same : (w.resting o outer call).access odd call = w.access odd call := rfl
  refine ⟨rfl, ?_⟩
  change World.perform _ _ = _
  rw [World.perform_goes here, same, access]
  unfold World.after World.resting
  rw [Function.update_idem]

theorem World.resting_self (now : w.calls o = some (call :: outer)) :
    w.resting o outer call = w := by
  unfold World.resting
  rw [← now, Function.update_eq_self]

/-- Accesses of one thread, one after another. -/
def accesses (o : Owner) (odds : List Bool) : List Event := odds.map (.goes o)

/-- The thread gets in by accesses of its own, no more of them than there are answers here
whether an exchange fails for no reason. -/
def Enters (w : World) (o : Owner) (outer : List Call) (odds : List Bool) : Prop :=
  ∃ before rest later call, odds = before ++ rest ∧
    careful.Run w (accesses o before) later ∧
      later.calls o = some (call :: outer) ∧ call.frame = .inside

/-- One more access. -/
theorem Enters.cons
    {next : Call}
    {odd : Bool}
    {odds : List Bool}
    (access : w.access odd call = (w.lock, [next]))
    (enters : Enters (w.resting o outer next) o outer odds) :
    Enters (w.resting o outer call) o outer (odd :: odds) := by
  obtain ⟨before, rest, later, last, rfl, run, inside⟩ := enters
  exact ⟨odd :: before, rest, later, last, rfl, .cons (World.resting_goes access) run, inside⟩

theorem Enters.single
    {lock : UInt64}
    {odd : Bool}
    (access : w.access odd call = (lock, [call.on .inside]))
    (odds : List Bool) : Enters (w.resting o outer call) o outer (odd :: odds) :=
  ⟨[odd], odds, _, _, rfl, .cons (World.resting_goes access) (.refl _),
    Function.update_self .., rfl⟩

section Dead

variable (others : ¬(w.lock = 0 ∨ ownerPid w.lock = ownerPid call.me))
  (gone : w.processLives (ownerPid w.lock) = false)

include gone in
theorem enters_of_looked
    (isLooked : call.frame = .looked w.lock)
    {odds : List Bool}
    (enough : 2 ≤ odds.length) : Enters (w.resting o outer call) o outer odds := by
  obtain ⟨me, spins, frame⟩ := call
  subst isLooked
  obtain _ | ⟨first, _ | ⟨second, odds⟩⟩ := odds
  · simp at enough
  · simp at enough
  have judges : w.access first { me, spins, frame := .looked w.lock } =
      (w.lock, [{ me, spins, frame := .judged w.lock }]) := by
    unfold World.access
    dsimp only
    rw [gone]
    rfl
  have takes : w.access second { me, spins, frame := .judged w.lock } =
      (me, [{ me, spins, frame := .inside }]) := if_pos rfl
  exact .cons judges (.single takes odds)

include others gone in
theorem enters_of_looks
    (looks : call.frame = .looks)
    {odds : List Bool}
    (enough : 3 ≤ odds.length) : Enters (w.resting o outer call) o outer odds := by
  obtain ⟨me, spins, frame⟩ := call
  subst looks
  obtain _ | ⟨first, odds⟩ := odds
  · simp at enough
  have reads : w.access first { me, spins, frame := .looks } =
      (w.lock, [{ me, spins, frame := .looked w.lock }]) := if_neg others
  exact .cons reads (enters_of_looked gone rfl (Nat.le_of_succ_le_succ enough))

theorem World.access_missed (odd : Bool) (mine : w.lock ≠ call.me) :
    w.access odd (call.on .missed) =
      (w.lock, [{ call with
        spins := call.spins + 1
        frame := if (call.spins + 1) % LOOKS = 0 then .looks else .tries }]) :=
  if_neg mine

/-- How many spins are left until the next look. -/
def Call.toSpin (call : Call) : Nat := 2 ^ 16 - call.spins.toNat % 2 ^ 16

theorem Call.toNat_spun (call : Call) :
    ((call.spins + 1) % LOOKS).toNat = (call.spins.toNat + 1) % 2 ^ 16 := by
  rw [UInt32.toNat_mod, UInt32.toNat_add]
  change (call.spins.toNat + 1) % 2 ^ 32 % 2 ^ 16 = _
  omega

theorem Call.looks_iff (call : Call) : (call.spins + 1) % LOOKS = 0 ↔ call.toSpin = 1 := by
  rw [← UInt32.toNat_inj, call.toNat_spun]
  change _ = 0 ↔ _
  unfold Call.toSpin
  omega

/-- A spin brings the next look nearer. -/
theorem Call.toSpin_spun (call : Call) (frame : Frame) (more : call.toSpin ≠ 1) :
    Call.toSpin { call with spins := call.spins + 1, frame } + 1 = call.toSpin := by
  have small := call.spins.toNat_lt
  have spun : (call.spins + 1).toNat = (call.spins.toNat + 1) % 2 ^ 32 := UInt32.toNat_add ..
  unfold Call.toSpin at more ⊢
  dsimp only
  rw [spun]
  omega

include others gone in
/-- Until the next look every try fails, for a reason or for none; then the thread takes
the lock over.  The induction is on the spins that are left. -/
theorem enters_of_tries
    (tries : call.frame = .tries)
    {odds : List Bool}
    (enough : 2 * call.toSpin + 3 ≤ odds.length) :
    Enters (w.resting o outer call) o outer odds := by
  have taken : w.lock ≠ 0 := fun free => others (.inl free)
  have mine : w.lock ≠ call.me := fun same => others (.inr (by rw [same]))
  induction left : call.toSpin generalizing call odds with
  | zero =>
      unfold Call.toSpin at left
      omega
  | succ left ih =>
      obtain _ | ⟨first, _ | ⟨second, odds⟩⟩ := odds
      · simp at enough
      · simp at enough
      have misses : w.access first call = (w.lock, [call.on .missed]) := by
        unfold World.access
        rw [tries]
        exact if_neg fun free => taken free.1
      refine .cons misses ?_
      rw [List.length_cons, List.length_cons] at enough
      by_cases last : call.toSpin = 1
      · -- The spin that is due: the thread looks
        have looks : w.access second (call.on .missed) =
            (w.lock, [{ call with spins := call.spins + 1, frame := .looks }]) := by
          rw [World.access_missed second mine, if_pos (call.looks_iff.2 last)]
        have rest : 3 ≤ odds.length := by omega
        let due : Call := { call with spins := call.spins + 1, frame := .looks }
        exact .cons looks (@enters_of_looks o w outer due others gone rfl odds rest)
      · have again : w.access second (call.on .missed) =
            (w.lock, [{ call with spins := call.spins + 1, frame := .tries }]) := by
          rw [World.access_missed second mine, if_neg fun due => last (call.looks_iff.1 due)]
        have fewer := call.toSpin_spun .tries last
        let spun : Call := { call with spins := call.spins + 1, frame := .tries }
        have isLess : spun.toSpin + 1 = call.toSpin := fewer
        have rest : 2 * spun.toSpin + 3 ≤ odds.length := by omega
        exact .cons again (@ih spun others rfl odds rest mine (by omega))

end Dead

/-- A new image that the lock names is about to clear it. -/
theorem perform_reclaims
    {word : UInt64}
    (sound : Sound w)
    (reclaims : w.image pid = .reclaims word) :
    careful.step w (.reclaims pid)
      { w with lock := 0, image := Function.update w.image pid .running } := by
  refine ⟨rfl, ?_⟩
  change World.perform _ _ = _
  unfold World.perform
  dsimp only
  rw [reclaims]
  dsimp only
  rw [if_pos (sound.reclaimed reclaims).1]

/-- A new image that the lock names frees it: it has only to look. -/
theorem run_left
    (sound : Sound w)
    (taken : w.lock ≠ 0)
    (left : w.image (ownerPid w.lock) = .starting ∨
      ∃ word, w.image (ownerPid w.lock) = .reclaims word) :
    ∃ events later, careful.Run w events later ∧ events.length ≤ 2 ∧
      (∀ event ∈ events, event = .loads (ownerPid w.lock) ∨
        event = .reclaims (ownerPid w.lock)) ∧
      later.lock = 0 ∧ later.calls = w.calls := by
  rcases left with starting | ⟨word, reclaims⟩
  · let looked : World :=
      { w with image := Function.update w.image (ownerPid w.lock) (.reclaims w.lock) }
    have step : careful.step w (.loads (ownerPid w.lock)) looked := by
      refine ⟨rfl, ?_⟩
      change World.perform _ _ = _
      unfold World.perform World.load
      dsimp only
      rw [if_pos starting, if_pos ⟨taken, rfl⟩]
    have after : Sound looked := sound.step step.1 step.2
    have reclaims : looked.image (ownerPid w.lock) = .reclaims w.lock :=
      Function.update_self ..
    exact ⟨_, _, .cons step (.cons (perform_reclaims after reclaims) (.refl _)),
      by simp, by simp, rfl, rfl⟩
  · exact ⟨_, _, .cons (perform_reclaims sound reclaims) (.refl _), by simp, by simp, rfl, rfl⟩

/-- A call that tries gets in, unless a live thread has the lock: with its next access, if
the lock is free and the exchange does not fail for no reason; by its own accesses, two for
each spin until its next look and three more, whatever exchanges fail, if the owner's process
is gone; and if the owner's process has a new image, the lock is free once that has looked. -/
theorem gets_in_of_reachable
    (reachable : careful.Reachable w)
    (now : w.calls o = some (call :: outer))
    (tries : call.frame = .tries) :
    (∃ owner, Inside w owner) ∨
      (w.lock = 0 ∧ ∀ odds, Enters w o outer (false :: odds)) ∨
      (w.image (ownerPid w.lock) = .dead ∧
        ∀ odds : List Bool, 2 * call.toSpin + 3 ≤ odds.length → Enters w o outer odds) ∨
      ∃ events later, careful.Run w events later ∧ events.length ≤ 2 ∧
        (∀ event ∈ events, event = .loads (ownerPid w.lock) ∨
          event = .reclaims (ownerPid w.lock)) ∧
        later.lock = 0 ∧ later.calls = w.calls := by
  have sound := Sound.of_reachable reachable
  have resting : w.resting o outer call = w := World.resting_self now
  by_cases free : w.lock = 0
  · refine .inr (.inl ⟨free, fun odds => ?_⟩)
    have access : w.access false call = (call.me, [call.on .inside]) := by
      unfold World.access
      rw [tries]
      exact if_pos ⟨free, rfl⟩
    exact resting ▸ Enters.single access odds
  obtain ⟨owner, names, holds⟩ := sound.named free
  have named : ownerPid w.lock = owner.pid := by rw [names, ownerPid_ownerWord]
  rcases holds with inside | dead | left
  · exact .inl ⟨owner, inside⟩
  · rw [← named] at dead
    refine .inr (.inr (.inl ⟨dead, fun odds enough => ?_⟩))
    have apart : ¬(w.lock = 0 ∨ ownerPid w.lock = ownerPid call.me) := by
      rw [sound.own now call List.mem_cons_self, ownerPid_ownerWord]
      refine not_or.2 ⟨free, fun same => ?_⟩
      rw [same, sound.running now] at dead
      cases dead
    have gone : w.processLives (ownerPid w.lock) = false := by
      simp [World.processLives, dead]
    exact resting ▸ enters_of_tries apart gone tries enough
  · exact .inr (.inr (.inr (run_left sound free (named ▸ left))))

/-- The first one's process is killed inside. -/
theorem gets_in_killed :
    ∃ w, w.lock = ownerWord victim ∧ w.image victim.pid = .dead ∧
      w.calls waiter = some [.begun waiter] ∧
      ((∃ owner, Inside w owner) ∨
        (w.lock = 0 ∧ ∀ odds, Enters w waiter [] (false :: odds)) ∨
        (w.image (ownerPid w.lock) = .dead ∧
          ∀ odds : List Bool, 2 * (Call.begun waiter).toSpin + 3 ≤ odds.length →
            Enters w waiter [] odds) ∨
        ∃ events later, careful.Run w events later ∧ events.length ≤ 2 ∧
          (∀ event ∈ events, event = .loads (ownerPid w.lock) ∨
            event = .reclaims (ownerPid w.lock)) ∧
          later.lock = 0 ∧ later.calls = w.calls) := by
  obtain ⟨w, performed, facts⟩ := Option.map_eq_some_iff.1
    (by decide : ((waited ++ [Event.dies 1]).foldlM World.performCarefully fresh).map
      (fun w : World => (w.lock, w.image 1, w.calls waiter)) =
        some (ownerWord victim, .dead, some [.begun waiter]))
  obtain ⟨isHeld, others⟩ := Prod.mk.inj facts
  obtain ⟨isDead, isWaiting⟩ := Prod.mk.inj others
  exact ⟨w, isHeld, isDead, isWaiting, gets_in_of_reachable
    (.foldlM World.step_of_performCarefully (.start init_fresh) performed) isWaiting rfl⟩

end Lock
end Derp
