import Derp.Masks.Defs

/-!
# What a mask changes

A quantum that expires at a masked site ends on the next hook event.  A mask of sites at
which no quantum ends changes nothing, and no mask changes what is counted.
-/

namespace Derp
namespace Masks

variable {ω : Type*} {world : World ω} {mask : Mask} {m : Machine ω} {pid : Pid}
  {log front : List Entry} {entry : Entry}

/-! ## What a log says -/

/-- What became of an expiry. -/
inductive Expiry
  | deferred
  | yielded
  deriving DecidableEq

/-- What a log says of one process: the expiries of its program, and the hook events it is to
have counted. -/
structure Memory where
  expiries : List Expiry := []
  events : Nat := 0

def Memory.expire (memory : Memory) (expiry : Expiry) : Memory where
  expiries := memory.expiries ++ [expiry]
  events := memory.events + 1

/-- A forked child remembers the expiries of its parent, and starts to count. -/
def remember (memories : Pid → Memory) : Entry → Pid → Memory
  | .counts pid _ =>
      Function.update memories pid { memories pid with events := (memories pid).events + 1 }
  | .defers pid _ _ _ => Function.update memories pid ((memories pid).expire .deferred)
  | .yields pid _ _ _ _ => Function.update memories pid ((memories pid).expire .yielded)
  | .forks pid child => Function.update memories child { memories pid with events := 0 }
  | .spawns child => Function.update memories child {}
  | .execs pid _ => Function.update memories pid {}
  | .givesUp _ _ _ => memories
  | .reports _ _ => memories
  | .dies _ _ => memories
  | .stops _ _ _ _ => memories

def remembered (log : List Entry) : Pid → Memory :=
  log.foldl remember fun _ => {}

theorem remembered_append (log : List Entry) (entry : Entry) :
    remembered (log ++ [entry]) = remember (remembered log) entry := by
  unfold remembered
  rw [List.foldl_append]
  rfl

/-- The last so many expiries were deferred. -/
def Deferring (count : Nat) (expiries : List Expiry) : Prop :=
  ∃ earlier, expiries = earlier ++ List.replicate count .deferred

/-- The hook event of an entry, and whether the quantum expired on it. -/
def Entry.hook : Entry → Option (Pid × Bool)
  | .counts pid _ => some (pid, false)
  | .defers pid _ _ _ => some (pid, true)
  | .yields pid _ _ _ _ => some (pid, true)
  | _ => none

/-- The baton and the quantum stay as they are. -/
def Entry.Quiet : Entry → Prop
  | .givesUp _ _ turn => turn = .unheeded
  | .reports _ _ => True
  | .forks _ _ => True
  | .spawns _ => True
  | _ => False

/-- The last hook event is a deferral of the process, and the baton was not given up since. -/
inductive Postponed (pid : Pid) : List Entry → Prop
  | deferred {log : List Entry} {program : Program} {site : UInt64} {hooks : Int} :
      Postponed pid (log ++ [.defers pid program site hooks])
  | quiet {log : List Entry} {entry : Entry} :
      Postponed pid log → entry.Quiet → Postponed pid (log ++ [entry])

/-- The hooks counted at an entry where the process settles them. -/
def Entry.settled : Entry → Option (Pid × Int)
  | .defers pid _ _ hooks => some (pid, hooks)
  | .yields pid _ _ hooks _ => some (pid, hooks)
  | .givesUp pid hooks _ => some (pid, hooks)
  | .reports pid hooks => some (pid, hooks)
  | .stops pid _ _ hooks => some (pid, hooks)
  | _ => none

/-- A process that the run's stop ends finds in the counter what it saw in it last. -/
def Entry.Steady : Entry → Prop
  | .stops _ last remaining _ => last = remaining
  | _ => True

/-- What is asked of an entry after the entries before it. -/
structure Proper (mask : Mask) (front : List Entry) (entry : Entry) : Prop where
  /-- The baton is yielded at no masked site, unless so many expiries in a row were deferred. -/
  yields : ∀ pid program site hooks turn, entry = .yields pid program site hooks turn →
    (∀ sites ∈ mask, site ∉ sites program) ∨
      Deferring maxDeferred (remembered front pid).expiries
  /-- A deferral puts the yield off to the next hook event. -/
  postponed : ∀ pid, Postponed pid front → ∀ other expires,
    entry.hook = some (other, expires) → other = pid ∧ expires = true
  /-- Each hook event is counted once where the hooks are next settled. -/
  counted : ∀ pid hooks, entry.settled = some (pid, hooks) →
    hooks = (remembered (front ++ [entry]) pid).events

/-- What every entry of a run meets: the hooks are counted unless a stop finds the counter of
another process. -/
structure Told (mask : Mask) (front : List Entry) (entry : Entry) : Prop where
  yields : ∀ pid program site hooks turn, entry = .yields pid program site hooks turn →
    (∀ sites ∈ mask, site ∉ sites program) ∨
      Deferring maxDeferred (remembered front pid).expiries
  postponed : ∀ pid, Postponed pid front → ∀ other expires,
    entry.hook = some (other, expires) → other = pid ∧ expires = true
  counted : ∀ pid hooks, entry.settled = some (pid, hooks) →
    (hooks = (remembered (front ++ [entry]) pid).events ↔ entry.Steady)

theorem Told.proper_iff (told : Told mask front entry) :
    Proper mask front entry ↔ entry.Steady := by
  constructor
  · intro proper
    cases entry with
    | stops pid last remaining hooks =>
        exact (told.counted pid hooks rfl).1 (proper.counted pid hooks rfl)
    | _ => trivial
  · exact fun steady => ⟨told.yields, told.postponed,
      fun pid hooks settled => (told.counted pid hooks settled).2 steady⟩

/-- A property of each entry of a log and the entries before it. -/
def Each (property : List Entry → Entry → Prop) (log : List Entry) : Prop :=
  ∀ front entry rest, log = front ++ entry :: rest → property front entry

theorem Each.nil (property : List Entry → Entry → Prop) : Each property [] := by
  intro front entry rest same
  exact absurd same.symm (List.append_ne_nil_of_right_ne_nil front (List.cons_ne_nil entry rest))

theorem Each.append {property : List Entry → Entry → Prop} (each : Each property log)
    (last : property log entry) : Each property (log ++ [entry]) := by
  intro front other rest same
  obtain rfl | ⟨behind, final, rfl⟩ := List.eq_nil_or_concat rest
  · obtain ⟨rfl, sameEntry⟩ := List.append_inj' same rfl
    obtain rfl := List.head_eq_of_cons_eq sameEntry
    exact last
  · rw [List.concat_eq_append, ← List.cons_append, ← List.append_assoc] at same
    obtain ⟨rfl, -⟩ := List.append_inj' same rfl
    exact each front other behind rfl

theorem Each.proper_iff (told : Each (Told mask) log) :
    Each (Proper mask) log ↔ ∀ entry ∈ log, entry.Steady := by
  constructor
  · intro proper entry listed
    obtain ⟨front, rest, same⟩ := List.append_of_mem listed
    exact (told front entry rest same).proper_iff.1 (proper front entry rest same)
  · intro steady front entry rest same
    have listed : entry ∈ log := by
      rw [same]
      exact List.mem_append_right _ List.mem_cons_self
    exact (told front entry rest same).proper_iff.2 (steady entry listed)

/-! ## Deferrals -/

theorem Deferring.zero (expiries : List Expiry) : Deferring 0 expiries :=
  ⟨expiries, (List.append_nil expiries).symm⟩

theorem Deferring.succ {count : Nat} {expiries : List Expiry}
    (deferring : Deferring count expiries) :
    Deferring (count + 1) (expiries ++ [.deferred]) := by
  obtain ⟨earlier, rfl⟩ := deferring
  refine ⟨earlier, ?_⟩
  rw [List.append_assoc, List.replicate_succ']

theorem Deferring.mono {few many : Nat} {expiries : List Expiry}
    (deferring : Deferring many expiries) (fewer : few ≤ many) : Deferring few expiries := by
  obtain ⟨earlier, rfl⟩ := deferring
  refine ⟨earlier ++ List.replicate (many - few) .deferred, ?_⟩
  rw [List.append_assoc, List.replicate_append_replicate, Nat.sub_add_cancel fewer]

/-- What `masked` answers, and what it does to the deferrals in a row. -/
theorem masked_spec (mask : Mask) (h : Hooking) (pc : UInt64) :
    ∃ deferred said,
      (masked mask h pc).2 = { h with deferred := deferred, saidMaskedLoop := said } ∧
        ((masked mask h pc).1 = true ∧ deferred = h.deferred + 1 ∨
          (masked mask h pc).1 = false ∧ deferred = 0 ∧
            ((∀ sites ∈ mask, pc ∉ sites h.program) ∨ maxDeferred ≤ h.deferred)) := by
  unfold masked
  split
  · rename_i unmasked
    refine ⟨_, _, rfl, Or.inr ⟨rfl, rfl, Or.inl fun sites isMask listed => ?_⟩⟩
    rw [Option.mem_def] at isMask
    rw [isMask, Option.all_some, List.contains_iff_mem.2 listed] at unmasked
    cases unmasked
  · split
    · exact ⟨_, _, rfl, Or.inl ⟨rfl, rfl⟩⟩
    · rename_i many
      exact ⟨_, _, rfl, Or.inr ⟨rfl, rfl, Or.inr (Nat.le_of_not_lt many)⟩⟩

/-- A postponed yield was just deferred, or was postponed before and nothing came of it. -/
theorem postponed_append (postponed : Postponed pid (log ++ [entry])) :
    (∃ program site hooks, entry = .defers pid program site hooks) ∨
      Postponed pid log ∧ entry.Quiet := by
  generalize same : log ++ [entry] = whole at postponed
  cases postponed with
  | deferred =>
      obtain ⟨-, sameEntry⟩ := List.append_inj' same rfl
      exact Or.inl ⟨_, _, _, List.head_eq_of_cons_eq sameEntry⟩
  | quiet before isQuiet =>
      obtain ⟨rfl, sameEntry⟩ := List.append_inj' same rfl
      obtain rfl := List.head_eq_of_cons_eq sameEntry
      exact Or.inr ⟨before, isQuiet⟩

theorem not_postponed_nil : ¬Postponed pid [] := by
  intro postponed
  generalize same : ([] : List Entry) = whole at postponed
  cases postponed with
  | deferred => exact List.append_ne_nil_of_right_ne_nil _ (List.cons_ne_nil _ _) same.symm
  | quiet => exact List.append_ne_nil_of_right_ne_nil _ (List.cons_ne_nil _ _) same.symm

/-! ## Balances -/

namespace Machine

/-- The hooks that were used of the quantum since they were last settled. -/
def unsettled (m : Machine ω) (pid : Pid) : Int :=
  if m.holder = some pid then (m.procs pid).lastQuantum - m.counter else 0

/-- The processes have counted what they remember, and deferred as often in a row. -/
structure Balanced (memories : Pid → Memory) (m : Machine ω) : Prop where
  held : ∀ pid, m.holder = some pid → m.Takes pid
  counts : ∀ pid, (m.procs pid).ended = false →
    (m.procs pid).hooks + m.unsettled pid = (memories pid).events
  deferring : ∀ pid, Deferring (m.procs pid).deferred (memories pid).expiries

/-- The holder has just settled its hooks. -/
def Settled (m : Machine ω) : Prop :=
  ∀ pid, m.holder = some pid → (m.procs pid).lastQuantum = m.counter

theorem Settled.unsettled (settled : m.Settled) (pid : Pid) : m.unsettled pid = 0 := by
  unfold Machine.unsettled
  split
  · rename_i held
    rw [settled pid held, Int.sub_self]
  · rfl

theorem setProc_self (m : Machine ω) (pid : Pid) (h : Hooking) :
    (m.setProc pid h).procs pid = h :=
  Function.update_self _ _ _

theorem setProc_other (m : Machine ω) {pid other : Pid} (h : Hooking) (different : other ≠ pid) :
    (m.setProc pid h).procs other = m.procs other :=
  Function.update_of_ne different _ _

/-- Between settled machines only who is left of the processes may differ. -/
theorem Balanced.resettled {memories : Pid → Memory} {later : Machine ω}
    (balanced : Balanced memories m) (settled : m.Settled) (after : later.Settled)
    (held : ∀ pid, later.holder = some pid → later.Takes pid)
    (same : ∀ pid, (later.procs pid).deferred = (m.procs pid).deferred ∧
      ((later.procs pid).ended = false →
        (m.procs pid).ended = false ∧ (later.procs pid).hooks = (m.procs pid).hooks)) :
    Balanced memories later where
  held := held
  counts := fun pid alive => by
    obtain ⟨before, hooks⟩ := (same pid).2 alive
    have counts := balanced.counts pid before
    rw [settled.unsettled] at counts
    rw [after.unsettled, hooks, counts]
  deferring := fun pid => by
    rw [(same pid).1]
    exact balanced.deferring pid

theorem installQuantum_settled (m : Machine ω) (pid : Pid) (quantum : Int)
    (holder : Option Pid) (held : ∀ other, holder = some other → other = pid) :
    Settled { m.installQuantum pid quantum with holder := holder } := by
  intro other isHolder
  obtain rfl := held other isHolder
  exact congrArg Hooking.lastQuantum (setProc_self m other _)

/-- Installing a quantum changes nothing that is counted. -/
theorem installQuantum_same (m : Machine ω) (pid : Pid) (quantum : Int) (other : Pid) :
    ((m.installQuantum pid quantum).procs other).deferred = (m.procs other).deferred ∧
      ((m.installQuantum pid quantum).procs other).ended = (m.procs other).ended ∧
      ((m.installQuantum pid quantum).procs other).hooks = (m.procs other).hooks := by
  obtain rfl | different := eq_or_ne other pid
  · have self : (m.installQuantum other quantum).procs other =
        { m.procs other with lastQuantum := quantum } := setProc_self m other _
    rw [self]
    exact ⟨rfl, rfl, rfl⟩
  · have kept : (m.installQuantum pid quantum).procs other = m.procs other :=
      setProc_other m _ different
    rw [kept]
    exact ⟨rfl, rfl, rfl⟩

theorem Balanced.idle {memories : Pid → Memory} (balanced : Balanced memories m)
    (settled : m.Settled) : Balanced memories { m with holder := none } :=
  balanced.resettled settled (fun _ held => nomatch held) (fun _ held => nomatch held)
    fun _ => ⟨rfl, fun alive => ⟨alive, rfl⟩⟩

/-- A process is gone, with its hooks as they may be. -/
theorem Balanced.ended {memories : Pid → Memory} {h : Hooking} (balanced : Balanced memories m)
    (settled : m.Settled) (gone : h.ended = true) (same : h.deferred = (m.procs pid).deferred) :
    Balanced memories { m.setProc pid h with holder := none } := by
  refine balanced.resettled settled (fun _ held => nomatch held) (fun _ held => nomatch held)
    fun other => ?_
  obtain rfl | different := eq_or_ne other pid
  · have self : (m.setProc other h).procs other = h := setProc_self m other h
    refine ⟨(congrArg Hooking.deferred self).trans same, fun alive => ?_⟩
    rw [show ({ m.setProc other h with holder := none } : Machine ω).procs other = h from self,
      gone] at alive
    cases alive
  · have kept : (m.setProc pid h).procs other = m.procs other := setProc_other m h different
    exact ⟨congrArg Hooking.deferred kept,
      fun alive => ⟨(congrArg Hooking.ended kept).symm.trans alive,
        congrArg Hooking.hooks kept⟩⟩

/-- A turn is carried out where the hooks are settled. -/
theorem Balanced.takeUp {memories : Pid → Memory} (balanced : Balanced memories m)
    (settled : m.Settled) (turn : Turn) : Balanced memories (m.takeUp turn) := by
  induction turn generalizing m with
  | unheeded => exact balanced
  | stay quantum =>
      unfold Machine.takeUp
      split
      · rename_i pid held
        have same := m.installQuantum_same pid quantum
        refine balanced.resettled settled (m.installQuantum_settled pid quantum m.holder
          fun other isHolder => ?_) (fun other isHolder => ?_) fun other => ⟨(same other).1,
            fun alive => ⟨(same other).2.1.symm.trans alive, (same other).2.2⟩⟩
        · exact Option.some.inj (isHolder.symm.trans held)
        · obtain ⟨registered, alive⟩ := balanced.held other isHolder
          exact ⟨registered, (same other).2.1.trans alive⟩
      · exact balanced
  | given pid quantum =>
      unfold Machine.takeUp
      split
      · rename_i takes
        have same := m.installQuantum_same pid quantum
        refine balanced.resettled settled (m.installQuantum_settled pid quantum (some pid)
          fun other isHolder => (Option.some.inj isHolder).symm) (fun other isHolder => ?_)
          fun other => ⟨(same other).1,
            fun alive => ⟨(same other).2.1.symm.trans alive, (same other).2.2⟩⟩
        obtain rfl := Option.some.inj isHolder
        exact ⟨takes.1, (same pid).2.1.trans takes.2⟩
      · exact balanced.idle settled
  | stopped pid next ih =>
      unfold Machine.takeUp
      split
      · have gone : Balanced memories { m.setProc pid { (m.procs pid).settle m.counter with
            ended := true } with holder := none } := balanced.ended settled rfl rfl
        exact ih ⟨gone.held, gone.counts, gone.deferring⟩ fun _ held => nomatch held
      · exact balanced.idle settled
  | idle => exact balanced.idle settled

/-- The holder folds into its hooks what it used of the quantum. -/
theorem Balanced.settleHooks {memories : Pid → Memory} (balanced : Balanced memories m)
    (held : m.holder = some pid) :
    Balanced memories (m.settleHooks pid) ∧ (m.settleHooks pid).Settled ∧
      ((m.settleHooks pid).procs pid).hooks = (memories pid).events := by
  have self : (m.settleHooks pid).procs pid = (m.procs pid).settle m.counter :=
    setProc_self m pid _
  have settled : (m.settleHooks pid).Settled := by
    intro other isHolder
    obtain rfl : pid = other := Option.some.inj (held.symm.trans isHolder)
    exact congrArg Hooking.lastQuantum self
  have counted : ((m.procs pid).settle m.counter).hooks = (memories pid).events := by
    rw [← balanced.counts pid (balanced.held pid held).2]
    unfold Machine.unsettled
    rw [if_pos held]
    rfl
  refine ⟨⟨fun other isHolder => ?_, fun other alive => ?_, fun other => ?_⟩, settled,
    (congrArg Hooking.hooks self).trans counted⟩
  · obtain rfl : pid = other := Option.some.inj (held.symm.trans isHolder)
    obtain ⟨registered, alive⟩ := balanced.held pid held
    exact ⟨registered, (congrArg Hooking.ended self).trans alive⟩
  · rw [settled.unsettled, Int.add_zero]
    obtain rfl | different := eq_or_ne other pid
    · rw [self, counted]
    · have kept : (m.settleHooks pid).procs other = m.procs other := setProc_other m _ different
      rw [kept] at alive ⊢
      have counts := balanced.counts other alive
      unfold Machine.unsettled at counts
      rw [held, if_neg fun same => different (Option.some.inj same).symm, Int.add_zero] at counts
      exact counts
  · obtain rfl | different := eq_or_ne other pid
    · rw [self]
      exact balanced.deferring other
    · have kept : (m.settleHooks pid).procs other = m.procs other := setProc_other m _ different
      rw [kept]
      exact balanced.deferring other

/-- A hook event takes one off the counter, and is remembered. -/
theorem Balanced.hooked {memories : Pid → Memory} {later : Machine ω} {memory : Memory}
    {deferred : Nat} {said : Bool} (balanced : Balanced memories m) (held : m.holder = some pid)
    (holder : later.holder = m.holder) (nprocs : later.nprocs = m.nprocs)
    (counter : later.counter = m.counter - 1)
    (self : later.procs pid = { m.procs pid with deferred := deferred, saidMaskedLoop := said })
    (others : ∀ other ≠ pid, later.procs other = m.procs other)
    (events : memory.events = (memories pid).events + 1)
    (deferring : Deferring deferred memory.expiries) :
    Balanced (Function.update memories pid memory) later := by
  refine ⟨fun other isHolder => ?_, fun other alive => ?_, fun other => ?_⟩
  · rw [holder, held] at isHolder
    obtain rfl := Option.some.inj isHolder
    obtain ⟨registered, alive⟩ := balanced.held pid held
    exact ⟨nprocs ▸ registered, (congrArg Hooking.ended self).trans alive⟩
  · obtain rfl | different := eq_or_ne other pid
    · rw [self] at alive
      have counts := balanced.counts other alive
      unfold Machine.unsettled at counts ⊢
      rw [if_pos held] at counts
      rw [Function.update_self, holder, if_pos held, self, counter, events]
      dsimp only
      omega
    · rw [others other different] at alive
      have counts := balanced.counts other alive
      have away : ¬some pid = some other := fun same => different (Option.some.inj same).symm
      unfold Machine.unsettled at counts ⊢
      rw [held, if_neg away] at counts
      rw [Function.update_of_ne different, others other different, holder, held, if_neg away]
      exact counts
  · obtain rfl | different := eq_or_ne other pid
    · rw [Function.update_self, self]
      exact deferring
    · rw [Function.update_of_ne different, others other different]
      exact balanced.deferring other

/-! ## Steps -/

theorem Balanced.outside {memories : Pid → Memory} (balanced : Balanced memories m) (outside : ω) :
    Balanced memories { m with outside := outside } :=
  ⟨balanced.held, balanced.counts, balanced.deferring⟩

theorem Balanced.note {memories : Pid → Memory} (balanced : Balanced memories m) (entry : Entry) :
    Balanced memories (m.note entry) :=
  ⟨balanced.held, balanced.counts, balanced.deferring⟩

/-- What holds at every point of a run under a mask. -/
structure Sound (mask : Mask) (m : Machine ω) : Prop where
  balanced : Balanced (remembered m.log) m
  postponed : ∀ pid, Postponed pid m.log → m.holder = some pid ∧ m.counter = 1
  told : Each (Told mask) m.log

/-- A process that is stopped counts what another one used since it saw the counter last. -/
theorem told_stops (balanced : Balanced (remembered m.log) m) (settled : m.Settled)
    (alive : (m.procs pid).ended = false) :
    Told mask m.log (.stops pid (m.procs pid).lastQuantum m.counter
      ((m.procs pid).settle m.counter).hooks) := by
  refine ⟨fun _ _ _ _ _ same => (nomatch same), fun _ _ _ _ isHook => (nomatch isHook),
    fun other hooks isSettled => ?_⟩
  obtain ⟨rfl, rfl⟩ := Prod.mk.inj (Option.some.inj isSettled)
  have counts := balanced.counts pid alive
  rw [settled.unsettled, Int.add_zero] at counts
  rw [remembered_append]
  unfold Hooking.settle Entry.Steady
  change (m.procs pid).hooks + _ = ((remembered m.log pid).events : Int) ↔ _
  rw [counts]
  omega

/-- A turn is carried out where the hooks are settled, and no yield is postponed but where
nothing came of the turn. -/
theorem sound_takeUp {turn : Turn} (balanced : Balanced (remembered m.log) m)
    (settled : m.Settled) (told : Each (Told mask) m.log)
    (postponed : turn = .unheeded →
      ∀ pid, Postponed pid m.log → m.holder = some pid ∧ m.counter = 1)
    (heeded : turn ≠ .unheeded → ∀ pid, ¬Postponed pid m.log) :
    Sound mask (m.takeUp turn) := by
  induction turn generalizing m with
  | unheeded => exact ⟨balanced, postponed rfl, told⟩
  | stay quantum =>
      have taken := balanced.takeUp settled (.stay quantum)
      have log : (m.takeUp (.stay quantum)).log = m.log := by
        unfold Machine.takeUp
        split <;> rfl
      exact ⟨log.symm ▸ taken, fun pid later => absurd (log ▸ later) (heeded nofun pid),
        log.symm ▸ told⟩
  | given pid quantum =>
      have taken := balanced.takeUp settled (.given pid quantum)
      have log : (m.takeUp (.given pid quantum)).log = m.log := by
        unfold Machine.takeUp
        split <;> rfl
      exact ⟨log.symm ▸ taken, fun pid later => absurd (log ▸ later) (heeded nofun pid),
        log.symm ▸ told⟩
  | stopped pid next ih =>
      unfold Machine.takeUp
      split
      · rename_i takes
        have gone : Balanced (remembered m.log) { m.setProc pid
            { (m.procs pid).settle m.counter with ended := true } with holder := none } :=
          balanced.ended settled rfl rfl
        have noted := remembered_append m.log (.stops pid (m.procs pid).lastQuantum m.counter
          ((m.procs pid).settle m.counter).hooks)
        have never : ∀ other, ¬Postponed other (m.log ++ [.stops pid
            (m.procs pid).lastQuantum m.counter ((m.procs pid).settle m.counter).hooks]) := by
          intro other later
          obtain ⟨_, _, _, same⟩ | ⟨-, isQuiet⟩ := postponed_append later
          · cases same
          · exact isQuiet
        refine ih ?_ (fun _ held => nomatch held)
          (told.append (told_stops balanced settled takes.2))
          (fun _ other later => absurd later (never other)) fun _ => never
        change Balanced (remembered (m.log ++ _)) _
        rw [noted]
        exact gone.note _
      · exact ⟨balanced.idle settled, fun other later => absurd later (heeded nofun other), told⟩
  | idle =>
      exact ⟨balanced.idle settled, fun other later => absurd later (heeded nofun other), told⟩

/-- A hand-off by a machine that remembers the entry already. -/
theorem sound_handOff {site : Option UInt64} {entry : Turn → Entry}
    (balanced : ∀ turn, Balanced (remember (remembered m.log) (entry turn)) m)
    (settled : m.Settled)
    (quiet : ∀ turn, (entry turn).Quiet → turn = .unheeded ∧
      ∀ pid, Postponed pid m.log → m.holder = some pid ∧ m.counter = 1)
    (defers : ∀ turn pid program site hooks, entry turn ≠ .defers pid program site hooks)
    (log : Each (Told mask) m.log) (told : ∀ turn, Told mask m.log (entry turn)) :
    Sound mask (m.handOff world site entry) := by
  unfold handOff
  generalize world.turn m.outside site = answer
  obtain ⟨turn, outside⟩ := answer
  dsimp only
  have later : ∀ pid, Postponed pid (m.log ++ [entry turn]) →
      Postponed pid m.log ∧ (entry turn).Quiet := by
    intro pid postponed
    obtain ⟨program, place, hooks, same⟩ | quietly := postponed_append postponed
    · exact absurd same (defers turn pid program place hooks)
    · exact quietly
  refine sound_takeUp ?_ settled (log.append (told turn)) (fun _ pid postponed => ?_)
    fun heeded pid postponed => ?_
  · change Balanced (remembered (m.log ++ _)) _
    rw [remembered_append]
    exact ((balanced turn).outside outside).note _
  · obtain ⟨before, isQuiet⟩ := later pid postponed
    exact (quiet turn isQuiet).2 pid before
  · exact heeded (quiet turn (later pid postponed).2).1

/-- A step that hands nothing off and is remembered. -/
theorem sound_note (balanced : Balanced (remember (remembered m.log) entry) m)
    (postponed : ∀ pid, Postponed pid (m.log ++ [entry]) → m.holder = some pid ∧ m.counter = 1)
    (log : Each (Told mask) m.log) (told : Told mask m.log entry) :
    Sound mask (m.note entry) := by
  have noted : (m.note entry).log = m.log ++ [entry] := rfl
  refine ⟨?_, postponed, log.append told⟩
  rw [noted, remembered_append]
  exact balanced.note entry

/-- An entry that is no hook event and settles nothing is as it should be. -/
theorem told_of_still (noHook : entry.hook = none) (noSettled : entry.settled = none) :
    Told mask front entry where
  yields := by
    rintro pid program site hooks turn rfl
    cases noHook
  postponed := fun pid _ other expires isHook => by
    rw [noHook] at isHook
    cases isHook
  counted := fun pid hooks settled => by
    rw [noSettled] at settled
    cases settled

/-- The quantum expires at a site. -/
theorem Sound.rewriteYieldImpl {counted : Machine ω} {site : UInt64} (sound : Sound mask m)
    (held : m.holder = some pid) (tick : counted = { m with counter := m.counter - 1 }) :
    Sound mask (counted.rewriteYieldImpl world mask pid site) := by
  obtain ⟨deferred, said, spec, outcome⟩ := masked_spec mask (counted.procs pid) site
  have others : ∀ other ≠ pid, (counted.setProc pid (masked mask (counted.procs pid) site).2).procs
      other = m.procs other := fun other different => by
    rw [setProc_other _ _ different, tick]
  have self : (counted.setProc pid (masked mask (counted.procs pid) site).2).procs pid =
      { m.procs pid with deferred := deferred, saidMaskedLoop := said } := by
    rw [setProc_self, spec, tick]
  have program : (masked mask (counted.procs pid) site).2.program = (m.procs pid).program := by
    rw [spec, tick]
  unfold Machine.rewriteYieldImpl
  dsimp only
  rw [program]
  generalize marked : counted.setProc pid (masked mask (counted.procs pid) site).2 = after at *
  have isHolder : after.holder = some pid := by
    rw [← marked, tick]
    exact held
  have sameLog : after.log = m.log := by
    rw [← marked, tick]
    rfl
  have hooked : ∀ memory : Memory, memory.events = (remembered m.log pid).events + 1 →
      Deferring deferred memory.expiries →
      Balanced (Function.update (remembered m.log) pid memory) after := by
    intro memory events deferring
    refine sound.balanced.hooked held (isHolder.trans held.symm) ?_ ?_ self others events deferring
    · rw [← marked, tick]
      rfl
    · rw [← marked, tick]
      rfl
  obtain ⟨isMasked, oneMore⟩ | ⟨unmasked, reset, allowed⟩ := outcome
  · rw [isMasked, if_pos rfl]
    obtain ⟨balanced, settled, count⟩ := (hooked
      ((remembered m.log pid).expire .deferred) rfl (by
        rw [oneMore, tick]
        exact (sound.balanced.deferring pid).succ)).settleHooks isHolder
    have installed : Balanced (remember (remembered m.log) (.defers pid (m.procs pid).program site
        ((after.settleHooks pid).procs pid).hooks))
        ((after.settleHooks pid).installQuantum pid 1) := by
      have stays := balanced.takeUp settled (.stay 1)
      unfold Machine.takeUp at stays
      rwa [show (after.settleHooks pid).holder = some pid from isHolder] at stays
    rw [← sameLog] at installed
    refine sound_note installed (fun other later => ?_) ?_ ?_
    · obtain ⟨_, _, _, same⟩ | ⟨-, isQuiet⟩ := postponed_append later
      · cases same
        exact ⟨isHolder, rfl⟩
      · cases isQuiet
    · rw [show ((after.settleHooks pid).installQuantum pid 1).log = m.log from sameLog]
      exact sound.told
    · rw [show ((after.settleHooks pid).installQuantum pid 1).log = m.log from sameLog]
      refine ⟨fun _ _ _ _ _ same => (nomatch same), fun other postponed _ _ isHook => ?_,
        fun _ _ isSettled => ?_⟩
      · cases isHook
        exact ⟨Option.some.inj (held.symm.trans (sound.postponed other postponed).1), rfl⟩
      · cases isSettled
        rw [count, remembered_append]
        exact iff_of_true rfl trivial
  · rw [unmasked, if_neg Bool.false_ne_true]
    obtain ⟨balanced, settled, count⟩ := (hooked
      ((remembered m.log pid).expire .yielded) rfl (by
        rw [reset]
        exact .zero _)).settleHooks isHolder
    unfold yieldBaton
    dsimp only
    rw [← sameLog] at balanced
    refine sound_handOff (fun _ => balanced) settled (fun _ isQuiet => isQuiet.elim)
      (fun _ _ _ _ _ same => (nomatch same)) ?_ fun turn => ?_
    · rw [show (after.settleHooks pid).log = m.log from sameLog]
      exact sound.told
    · rw [show (after.settleHooks pid).log = m.log from sameLog]
      refine ⟨fun _ _ _ _ _ same => ?_, fun other postponed _ _ isHook => ?_,
        fun _ _ isSettled => ?_⟩
      · cases same
        rw [tick] at allowed
        exact allowed.imp id (sound.balanced.deferring pid).mono
      · cases isHook
        exact ⟨Option.some.inj (held.symm.trans (sound.postponed other postponed).1), rfl⟩
      · cases isSettled
        rw [count, remembered_append]
        exact iff_of_true rfl trivial

/-- A hook event. -/
theorem Sound.hookEvent (sound : Sound mask m) (held : m.holder = some pid) (site : UInt64) :
    Sound mask (m.hookEvent world mask pid site) := by
  unfold Machine.hookEvent
  dsimp only
  split
  · exact sound.rewriteYieldImpl held rfl
  · rename_i goesOn
    refine sound_note ?_ (fun other later => ?_) sound.told ?_
    · exact sound.balanced.hooked held rfl rfl rfl rfl (fun _ _ => rfl) rfl
        (sound.balanced.deferring pid)
    · obtain ⟨_, _, _, same⟩ | ⟨-, isQuiet⟩ := postponed_append later
      · cases same
      · cases isQuiet
    · refine ⟨fun _ _ _ _ _ same => (nomatch same), fun other postponed _ _ _ => ?_,
        fun _ _ settled => (nomatch settled)⟩
      rw [(sound.postponed other postponed).2] at goesOn
      exact absurd rfl goesOn

theorem Sound.giveUp (sound : Sound mask m) (held : m.holder = some pid) :
    Sound mask (m.yieldBaton world pid none (.givesUp pid)) := by
  obtain ⟨balanced, settled, counted⟩ := sound.balanced.settleHooks held
  unfold yieldBaton
  dsimp only
  refine sound_handOff (fun _ => balanced) settled (fun _ isQuiet => ⟨isQuiet, sound.postponed⟩)
    (fun _ _ _ _ _ same => (nomatch same)) sound.told fun turn => ?_
  refine ⟨fun _ _ _ _ _ same => (nomatch same), fun _ _ _ _ isHook => (nomatch isHook),
    fun other hooks isSettled => ?_⟩
  obtain ⟨rfl, rfl⟩ := Prod.mk.inj (Option.some.inj isSettled)
  rw [counted, remembered_append]
  exact iff_of_true rfl trivial

theorem Sound.report (sound : Sound mask m) (held : m.holder = some pid) :
    Sound mask ((m.settleHooks pid).note
      (.reports pid ((m.settleHooks pid).procs pid).hooks)) := by
  obtain ⟨balanced, -, counted⟩ := sound.balanced.settleHooks held
  refine sound_note balanced (fun other later => ?_) sound.told ?_
  · obtain ⟨_, _, _, same⟩ | ⟨before, -⟩ := postponed_append later
    · cases same
    · exact sound.postponed other before
  · refine ⟨fun _ _ _ _ _ same => (nomatch same), fun _ _ _ _ isHook => (nomatch isHook),
      fun other hooks isSettled => ?_⟩
    obtain ⟨rfl, rfl⟩ := Prod.mk.inj (Option.some.inj isSettled)
    rw [counted, remembered_append]
    exact iff_of_true rfl trivial

/-- A process is registered. -/
theorem Sound.born {h : Hooking} (memory : Memory) (sound : Sound mask m)
    (counts : h.hooks = memory.events) (deferring : Deferring h.deferred memory.expiries)
    (remembers : remember (remembered m.log) entry =
      Function.update (remembered m.log) m.nprocs memory)
    (isQuiet : entry.Quiet) (noHook : entry.hook = none) (noSettled : entry.settled = none) :
    Sound mask (({ m with nprocs := m.nprocs + 1 }.setProc m.nprocs h).note entry) := by
  generalize born : { m with nprocs := m.nprocs + 1 }.setProc m.nprocs h = later
  have self : later.procs m.nprocs = h := born ▸ setProc_self _ _ _
  have others : ∀ other ≠ m.nprocs, later.procs other = m.procs other :=
    fun other different => born ▸ setProc_other _ _ different
  have sameLog : later.log = m.log := born ▸ rfl
  have holder : later.holder = m.holder := born ▸ rfl
  have counter : later.counter = m.counter := born ▸ rfl
  have nprocs : later.nprocs = m.nprocs + 1 := born ▸ rfl
  have old : ∀ other, m.holder = some other → other ≠ m.nprocs := fun other held =>
    Nat.ne_of_lt (sound.balanced.held other held).1
  refine sound_note ?_ (fun other postponed => ?_) (sameLog ▸ sound.told)
    (told_of_still noHook noSettled)
  · rw [sameLog, remembers]
    refine ⟨fun other held => ?_, fun other alive => ?_, fun other => ?_⟩
    · rw [holder] at held
      obtain ⟨registered, alive⟩ := sound.balanced.held other held
      exact ⟨nprocs ▸ Nat.lt_succ_of_lt registered,
        (congrArg Hooking.ended (others other (old other held))).trans alive⟩
    · obtain rfl | different := eq_or_ne other m.nprocs
      · unfold unsettled
        rw [Function.update_self, self, holder, if_neg fun held => old _ held rfl, Int.add_zero,
          counts]
      · rw [others other different] at alive
        rw [Function.update_of_ne different]
        unfold unsettled
        rw [others other different, holder, counter]
        exact sound.balanced.counts other alive
    · obtain rfl | different := eq_or_ne other m.nprocs
      · rw [Function.update_self, self]
        exact deferring
      · rw [Function.update_of_ne different, others other different]
        exact sound.balanced.deferring other
  · rw [sameLog] at postponed
    rw [holder, counter]
    obtain ⟨_, _, _, rfl⟩ | ⟨before, -⟩ := postponed_append postponed
    · exact isQuiet.elim
    · exact sound.postponed other before

/-- The image of the holder is replaced, or gone. -/
theorem Sound.replaced {h : Hooking} {memory : Memory} {entry : Turn → Entry}
    (sound : Sound mask m) (held : m.holder = some pid)
    (counts : h.ended = false → h.hooks = memory.events)
    (deferring : Deferring h.deferred memory.expiries)
    (remembers : ∀ turn, remember (remembered m.log) (entry turn) =
      Function.update (remembered m.log) pid memory)
    (notQuiet : ∀ turn, ¬(entry turn).Quiet)
    (noHook : ∀ turn, (entry turn).hook = none)
    (noSettled : ∀ turn, (entry turn).settled = none) :
    Sound mask ({ m.setProc pid h with holder := none }.handOff world none entry) := by
  have balanced : Balanced (Function.update (remembered m.log) pid memory)
      { m.setProc pid h with holder := none } := by
    refine ⟨fun other isHolder => (nomatch isHolder), fun other alive => ?_, fun other => ?_⟩
    · obtain rfl | different := eq_or_ne other pid
      · have self : (m.setProc other h).procs other = h := setProc_self m other h
        rw [Function.update_self]
        exact (Int.add_zero _).trans ((congrArg Hooking.hooks self).trans
          (counts ((congrArg Hooking.ended self).symm.trans alive)))
      · have kept : (m.setProc pid h).procs other = m.procs other := setProc_other m h different
        have count := sound.balanced.counts other
          ((congrArg Hooking.ended kept).symm.trans alive)
        unfold unsettled at count
        rw [if_neg fun isHolder => different (Option.some.inj (isHolder.symm.trans held))] at count
        rw [Function.update_of_ne different, ← count]
        exact congrArg (fun h : Hooking => h.hooks + 0) kept
    · obtain rfl | different := eq_or_ne other pid
      · rw [Function.update_self]
        exact (setProc_self m other h).symm ▸ deferring
      · rw [Function.update_of_ne different]
        exact (setProc_other m h different).symm ▸ sound.balanced.deferring other
  refine sound_handOff (fun turn => ?_) (fun _ isHolder => (nomatch isHolder))
    (fun turn isQuiet => absurd isQuiet (notQuiet turn)) (fun turn _ _ _ _ same => ?_)
    sound.told fun turn => told_of_still (noHook turn) (noSettled turn)
  · exact (remembers turn).symm ▸ balanced
  · have isHook := noHook turn
    rw [same] at isHook
    cases isHook

/-- What one act of the holder keeps. -/
theorem Sound.perform (sound : Sound mask m) (held : m.holder = some pid) (act : Act) :
    Sound mask (m.perform world mask pid act) := by
  cases act with
  | hook site => exact sound.hookEvent held site
  | giveUp => exact sound.giveUp held
  | report => exact sound.report held
  | fork =>
      exact sound.born { remembered m.log pid with events := 0 } rfl
        (sound.balanced.deferring pid) rfl trivial rfl rfl
  | spawn program => exact sound.born {} rfl (.zero _) rfl trivial rfl rfl
  | exec program =>
      exact sound.replaced held (fun _ => rfl) (.zero _) (fun _ => rfl) (fun _ => id)
        (fun _ => rfl) fun _ => rfl
  | die =>
      refine sound.replaced held (fun alive => (nomatch alive)) (sound.balanced.deferring pid)
        (fun _ => ?_) (fun _ => id) (fun _ => rfl) fun _ => rfl
      exact (Function.update_eq_self pid _).symm

theorem Sound.step (sound : Sound mask m) : Sound mask (m.step world mask) := by
  unfold Machine.step
  split
  · rename_i pid held
    generalize world.act m.outside = answer
    obtain ⟨act, outside⟩ := answer
    have later : Sound mask { m with outside := outside } :=
      ⟨sound.balanced.outside outside, sound.postponed, sound.told⟩
    exact later.perform held act
  · exact sound

theorem sound_run (world : World ω) (mask : Mask) (outside : ω) (program : Program)
    (counter : Int) (n : Nat) : Sound mask (run world mask outside program counter n) := by
  induction n with
  | zero =>
      unfold run
      generalize world.turn outside none = answer
      obtain ⟨turn, outside⟩ := answer
      dsimp only
      have fresh : Balanced (remembered []) (initial outside program counter) :=
        ⟨fun _ held => (nomatch held), fun _ _ => rfl, fun _ => .zero _⟩
      exact sound_takeUp fresh (fun _ held => (nomatch held)) (.nil _)
        (fun _ pid postponed => absurd postponed not_postponed_nil)
        fun _ pid => not_postponed_nil
  | succ n ih => exact ih.step

end Machine

end Masks
end Derp
