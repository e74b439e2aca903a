import Derp.Sched.Waiting

/-!
# Signals release the first in line

The queues of all conditions are one line, ordered by the numbers of the waits.
Whatever happens to the schedule between the pieces of a wait, the line is that
of conditions.
-/

namespace Derp
namespace Condvars

open State

variable
  {w later : Condvars}
  {c : Conditions ThreadId Key}
  {e : Conditions.Entry ThreadId Key}
  {id : ThreadId}
  {fuel : Nat}

/-- An entry of the line stands for a thread that is queued. -/
structure Queued
    (w : Condvars)
    (e : Conditions.Entry ThreadId Key) : Prop where
  registered : e.who < w.state.nthreads
  staying : (w.state.threads e.who).state ≠ .exited
  key : e.key =
    ((w.state.threads e.who).pid, (w.state.threads e.who).condKey)
  isQueued : (w.state.threads e.who).condKey ≠ 0
  unsignaled : (w.state.threads e.who).signaled = false
  waits : (w.wait e.who).map Wait.deadline = some e.deadline

/-- A thread is marked as timed out only when the clock has reached the deadline
of its wait. -/
structure Timely
    (w : Condvars)
    (e : Conditions.Entry ThreadId Key) : Prop where
  deadline : (w.wait e.who).map Wait.stage = some .parked →
    (w.state.threads e.who).deadline = 0 ∨
      (w.state.threads e.who).deadline = deadlineWord e.deadline
  timedOut : (w.wait e.who).map Wait.stage = some .parked →
    (w.state.threads e.who).timedOut = true → e.late = true
  late : (w.wait e.who).map Wait.stage = some .late → e.late = true

/-- A signal or a broadcast released the thread from a wait that is not over. -/
def Released (w : Condvars) (id : ThreadId) : Prop :=
  id < w.state.nthreads ∧ (w.state.threads id).state ≠ .exited ∧
    (w.state.threads id).condKey = 0 ∧ w.wait id ≠ none

/-- The state and the waits that are not over are those of conditions. -/
structure Represents
    (w : Condvars)
    (c : Conditions ThreadId Key) : Prop where
  ordered : c.line.Pairwise fun e e' =>
    (w.state.threads e.who).condSeq < (w.state.threads e'.who).condSeq
  numbered : ∀ e ∈ c.line,
    (w.state.threads e.who).condSeq < w.state.nextCondSeq
  queued : ∀ e ∈ c.line, w.Queued e
  timely : ∀ e ∈ c.line, w.Timely e
  inLine : ∀ id < w.state.nthreads, (w.state.threads id).state ≠ .exited →
    (w.state.threads id).condKey ≠ 0 → ∃ e ∈ c.line, e.who = id
  released : ∀ id, id ∈ c.released ↔ w.Released id
  marked : ∀ id ∈ c.released, (w.state.threads id).signaled = true
  spare : ∀ id, w.state.nthreads ≤ id →
    (w.state.threads id).condKey = 0 ∧ w.wait id = none

/-! ## What is in line -/

theorem Represents.line_nodup (represents : w.Represents c) :
    (c.line.map Conditions.Entry.who).Nodup := by
  unfold List.Nodup
  rw [List.pairwise_map]
  refine represents.ordered.imp fun less same => ?_
  rw [same] at less
  exact lt_irrefl _ less

theorem Represents.waiting_nodup
    (represents : w.Represents c)
    (key : Key) : (c.waiting key).Nodup :=
  represents.line_nodup.sublist (List.filter_sublist.map _)

theorem Represents.mem_waiting
    (represents : w.Represents c)
    {pid : Pid}
    {cond : Nat}
    (isCond : cond ≠ 0) :
    id ∈ c.waiting (pid, cond) ↔ id < w.state.nthreads ∧
      (w.state.threads id).pid = pid ∧
      (w.state.threads id).condKey = cond ∧
      (w.state.threads id).state ≠ .exited := by
  rw [Conditions.mem_waiting]
  constructor
  · rintro ⟨e, present, key, rfl⟩
    have queued := represents.queued e present
    obtain ⟨samePid, sameCond⟩ := Prod.mk.inj (queued.key.symm.trans key)
    exact ⟨queued.registered, samePid, sameCond, queued.staying⟩
  · rintro ⟨registered, rfl, rfl, staying⟩
    obtain ⟨e, present, rfl⟩ := represents.inLine id registered staying isCond
    exact ⟨e, present, (represents.queued e present).key, rfl⟩

/-- The code finds the first in line. -/
theorem Represents.condFirst
    (represents : w.Represents c)
    (pid : Pid)
    {cond : Nat}
    (isCond : cond ≠ 0) :
    w.state.condFirst pid cond = (c.waiting (pid, cond)).head? := by
  have members (id : ThreadId) :
      id ∈ w.state.live.filter (fun id =>
        let t := w.state.threads id
        t.pid = pid && t.condKey = cond && t.state ≠ .exited) ↔
      id ∈ c.waiting (pid, cond) := by
    rw [represents.mem_waiting isCond, List.mem_filter]
    unfold State.live
    simp only [List.mem_range, Bool.and_eq_true, decide_eq_true_eq, and_assoc]
  have ascending : (c.waiting (pid, cond)).Pairwise fun id id' =>
      (w.state.threads id).condSeq < (w.state.threads id').condSeq := by
    unfold Conditions.waiting
    rw [List.pairwise_map]
    exact represents.ordered.filter _
  unfold State.condFirst
  cases line : c.waiting (pid, cond) with
  | nil =>
      rw [List.head?_nil, List.argmin_eq_none, List.eq_nil_iff_forall_not_mem]
      intro id present
      rw [members, line] at present
      cases present
  | cons first rest =>
      rw [line] at ascending members
      rw [List.head?_cons]
      refine List.argmin_eq_some_iff.2 ⟨(members first).2 (by simp),
        fun id present => ?_, fun id present less => ?_⟩
      · obtain rfl | behind := List.mem_cons.1 ((members id).1 present)
        · exact le_rfl
        · exact (List.rel_of_pairwise_cons ascending behind).le
      · obtain rfl | behind := List.mem_cons.1 ((members id).1 present)
        · exact le_rfl
        · exact absurd less
            (List.rel_of_pairwise_cons ascending behind).not_ge

/-- Nobody is in line and released at once. -/
theorem Represents.not_released
    (represents : w.Represents c)
    (present : e ∈ c.line) : e.who ∉ c.released := by
  rw [represents.released]
  exact fun released =>
    (represents.queued e present).isQueued released.2.2.1

/-- A thread in a wait is in line, or was released. -/
theorem Represents.cases_of_wait
    (represents : w.Represents c)
    (staying : (w.state.threads id).state ≠ .exited)
    (waits : w.wait id ≠ none) :
    (∃ e ∈ c.line, e.who = id) ∨ id ∈ c.released := by
  have registered : id < w.state.nthreads := by
    by_contra outside
    exact waits (represents.spare id (not_lt.1 outside)).2
  by_cases none : (w.state.threads id).condKey = 0
  · exact .inr ((represents.released id).2 ⟨registered, staying, none, waits⟩)
  · exact .inl (represents.inLine id registered staying none)

/-- The mark tells whether the thread was released. -/
theorem Represents.released_iff
    (represents : w.Represents c)
    (staying : (w.state.threads id).state ≠ .exited)
    (waits : w.wait id ≠ none) :
    id ∈ c.released ↔ (w.state.threads id).signaled = true := by
  refine ⟨represents.marked id, fun marked => ?_⟩
  obtain ⟨e, present, rfl⟩ | released :=
    represents.cases_of_wait staying waits
  · rw [(represents.queued e present).unsignaled] at marked
    cases marked
  · exact released

/-! ## What else happens -/

/-- The place in a queue and the mark of a thread are the same. -/
structure SamePlace (t t' : ThreadRec) : Prop where
  pid : t'.pid = t.pid
  condKey : t'.condKey = t.condKey
  condSeq : t'.condSeq = t.condSeq
  signaled : t'.signaled = t.signaled
  exited : t'.state = .exited ↔ t.state = .exited

theorem SamePlace.refl (t : ThreadRec) : SamePlace t t :=
  ⟨rfl, rfl, rfl, rfl, .rfl⟩

theorem samePlace_update
    {s : State}
    {t : ThreadRec}
    (same : SamePlace (s.threads id) t)
    (other : ThreadId) :
    SamePlace (s.threads other) (Function.update s.threads id t other) := by
  by_cases isSame : other = id
  · subst isSame
    rw [Function.update_self]
    exact same
  · rw [Function.update_of_ne isSame]
    exact .refl _

theorem setStage_deadline
    (w : Condvars)
    (id other : ThreadId)
    (stage : WaitStage) :
    ((w.setStage id stage).wait other).map Wait.deadline =
      (w.wait other).map Wait.deadline := by
  unfold setStage setWait
  dsimp only
  by_cases same : other = id
  · subst same
    rw [Function.update_self, Option.map_map]
    rfl
  · rw [Function.update_of_ne same]

/-- Nobody moves in the line, and nobody is released. -/
theorem Represents.retimed
    (represents : w.Represents c)
    (nthreads : later.state.nthreads = w.state.nthreads)
    (nextCondSeq : later.state.nextCondSeq = w.state.nextCondSeq)
    (threads : ∀ id, SamePlace (w.state.threads id) (later.state.threads id))
    (deadline : ∀ id, (later.wait id).map Wait.deadline =
      (w.wait id).map Wait.deadline)
    (timely : ∀ e ∈ c.line, later.Timely e) : later.Represents c := by
  have noWait (id : ThreadId) : later.wait id = none ↔ w.wait id = none := by
    rw [← Option.map_eq_none_iff (f := Wait.deadline), deadline,
      Option.map_eq_none_iff]
  refine ⟨represents.ordered.imp fun less => ?_, fun e present => ?_,
    fun e present => ?_, timely, fun id inside staying some => ?_, fun id => ?_,
    fun id released => ?_, fun id outside => ?_⟩
  · rw [(threads _).condSeq, (threads _).condSeq]
    exact less
  · rw [(threads _).condSeq, nextCondSeq]
    exact represents.numbered e present
  · have queued := represents.queued e present
    refine ⟨queued.registered.trans_eq nthreads.symm, fun exited =>
      queued.staying ((threads _).exited.1 exited), ?_, ?_, ?_, ?_⟩
    · rw [(threads _).pid, (threads _).condKey]
      exact queued.key
    · rw [(threads _).condKey]
      exact queued.isQueued
    · rw [(threads _).signaled]
      exact queued.unsignaled
    · rw [deadline]
      exact queued.waits
  · rw [(threads id).condKey] at some
    exact represents.inLine id (inside.trans_eq nthreads)
      (fun exited => staying ((threads id).exited.2 exited)) some
  · rw [represents.released]
    unfold Released
    rw [nthreads, ne_eq, ne_eq, ne_eq, ne_eq, (threads id).exited,
      (threads id).condKey, noWait]
  · rw [(threads id).signaled]
    exact represents.marked id released
  · rw [(threads id).condKey, noWait]
    exact represents.spare id (nthreads.ge.trans outside)

/-- Threads may be gone, and the clock may have moved. -/
theorem Represents.framed
    (represents : w.Represents c)
    {s : State}
    (keeps : KeepsWaits s.clockNs w.state s)
    {gone : Finset ThreadId}
    (exited : ∀ id ∈ gone, (s.threads id).state = .exited)
    (all : ∀ id < w.state.nthreads, (w.state.threads id).state ≠ .exited →
      (s.threads id).state = .exited → id ∈ gone) :
    (w.setState s).Represents ((c.without gone).tick s.clockNs) := by
  have members (e' : Conditions.Entry ThreadId Key) :
      e' ∈ ((c.without gone).tick s.clockNs).line ↔
        ∃ e ∈ c.line, e.who ∉ gone ∧
          { e with late := e.late || e.due s.clockNs } = e' := by
    unfold Conditions.tick Conditions.without Conditions.drop
    simp only [List.mem_map, List.mem_filter, decide_eq_true_eq, and_assoc]
  have placed (e : Conditions.Entry ThreadId Key) (present : e ∈ c.line) :=
    keeps.thread e.who (represents.queued e present).registered
  have staying (id : ThreadId)
      (inside : id < w.state.nthreads)
      (left : id ∉ gone)
      (before : (w.state.threads id).state ≠ .exited) :
      (s.threads id).state ≠ .exited :=
    fun isExited => left (all id inside before isExited)
  refine ⟨?_, ?_, ?_, ?_, fun id inside isStaying isQueued => ?_, fun id => ?_,
    ?_, fun id outside => ?_⟩
  · unfold Conditions.tick Conditions.without Conditions.drop
    rw [List.pairwise_map]
    refine (represents.ordered.filter _).imp_of_mem ?_
    intro e e' present present' less
    have same := (placed e (List.mem_of_mem_filter present)).condSeq
    have same' := (placed e' (List.mem_of_mem_filter present')).condSeq
    exact same.trans_lt (less.trans_eq same'.symm)
  · intro e' present'
    obtain ⟨e, present, -, rfl⟩ := (members e').1 present'
    have less := represents.numbered e present
    rw [← keeps.nextCondSeq] at less
    exact (placed e present).condSeq.trans_lt less
  · intro e' present'
    obtain ⟨e, present, left, rfl⟩ := (members e').1 present'
    have queued := represents.queued e present
    have isStaying := staying e.who queued.registered left queued.staying
    have sameKey : (s.threads e.who).condKey =
        (w.state.threads e.who).condKey :=
      (placed e present).condKey.resolve_right fun gone => isStaying gone.2
    refine ⟨queued.registered.trans_le keeps.nthreads, isStaying, ?_, ?_,
      (placed e present).signaled.trans queued.unsignaled, queued.waits⟩
    · have samePid := keeps.pid e.who queued.registered
      exact queued.key.trans (by rw [← samePid, ← sameKey]; rfl)
    · exact fun none => queued.isQueued (sameKey.symm.trans none)
  · intro e' present'
    obtain ⟨e, present, -, rfl⟩ := (members e').1 present'
    have timely := represents.timely e present
    refine ⟨fun parked => ?_, fun parked timedOut => ?_, fun late => ?_⟩
    · obtain same | none := (placed e present).deadline
      · exact (timely.deadline parked).imp same.trans same.trans
      · exact .inl none
    · have passed := (placed e present).timedOut timedOut
      obtain before | ⟨some, passed⟩ := passed
      · exact Bool.or_eq_true_iff.2 (.inl (timely.timedOut parked before))
      · have word := (timely.deadline parked).resolve_left some
        rw [word] at passed
        refine Bool.or_eq_true_iff.2 (.inr ?_)
        unfold Conditions.Entry.due
        cases deadline : e.deadline with
        | none =>
            rw [deadline] at word
            exact absurd word some
        | some due =>
            rw [deadline] at passed
            exact decide_eq_true ((le_max_right 1 due).trans passed)
    · exact Bool.or_eq_true_iff.2 (.inl (timely.late late))
  · have old : id < w.state.nthreads := by
      by_contra outside
      exact isQueued (keeps.spare id (not_lt.1 outside)
        (represents.spare id (not_lt.1 outside)).1)
    have before : (w.state.threads id).state ≠ .exited :=
      fun isExited => isStaying ((keeps.thread id old).exited isExited)
    have sameKey := (keeps.thread id old).condKey.resolve_right
      fun gone => isStaying gone.2
    obtain ⟨e, present, rfl⟩ := represents.inLine id old before
      fun none => isQueued (sameKey.trans none)
    exact ⟨_, (members _).2 ⟨e, present,
      fun isGone => isStaying (exited _ isGone), rfl⟩, rfl⟩
  · have line : id ∈ ((c.without gone).tick s.clockNs).released ↔
        id ∈ c.released ∧ id ∉ gone := Finset.mem_sdiff
    rw [line, represents.released]
    constructor
    · rintro ⟨⟨inside, before, none, waits⟩, left⟩
      have isStaying := staying id inside left before
      refine ⟨inside.trans_le keeps.nthreads, isStaying, ?_, waits⟩
      obtain same | gone := (keeps.thread id inside).condKey
      · exact same.trans none
      · exact gone.1
    · rintro ⟨-, isStaying, none, waits⟩
      have old : id < w.state.nthreads := by
        by_contra outside
        exact waits (represents.spare id (not_lt.1 outside)).2
      refine ⟨⟨old, fun isExited => isStaying
        ((keeps.thread id old).exited isExited), ?_, waits⟩,
        fun isGone => isStaying (exited id isGone)⟩
      obtain same | gone := (keeps.thread id old).condKey
      · exact same.symm.trans none
      · exact absurd gone.2 isStaying
  · intro id released
    have before := (Finset.mem_sdiff.1 released).1
    have inside := ((represents.released id).1 before).1
    exact (keeps.thread id inside).signaled.trans (represents.marked id before)
  · have spare := represents.spare id (keeps.nthreads.trans outside)
    exact ⟨keeps.spare id (keeps.nthreads.trans outside) spare.1, spare.2⟩

theorem mem_gone {s later : State} :
    id ∈ gone s later ↔ id < s.nthreads ∧
      (s.threads id).state ≠ .exited ∧ (later.threads id).state = .exited := by
  unfold gone State.live
  simp only [List.mem_toFinset, List.mem_filter, List.mem_range,
    Bool.and_eq_true, decide_eq_true_eq]

theorem mem_released {s later : State} :
    id ∈ released s later ↔ id < s.nthreads ∧
      (s.threads id).signaled = false ∧
      (later.threads id).signaled = true := by
  unfold released State.live
  simp only [List.mem_toFinset, List.mem_filter, List.mem_range,
    Bool.and_eq_true, Bool.not_eq_true']

/-- Who is gone is neither in line nor released. -/
theorem Represents.settled
    (represents : w.Represents c)
    (s : State) :
    w.Represents ((c.without (gone s w.state)).tick w.state.clockNs) :=
  represents.framed (.refl _ _) (fun _ isGone => (mem_gone.1 isGone).2.2)
    fun _ _ staying exited => absurd exited staying

/-! ## The pieces of a wait -/

/-- One thread leaves the line, or its wait. -/
theorem Represents.unqueued
    (represents : w.Represents c)
    (after : Condvars)
    (registered : id < w.state.nthreads)
    (nthreads : after.state.nthreads = w.state.nthreads)
    (nextCondSeq : after.state.nextCondSeq = w.state.nextCondSeq)
    (others : ∀ other ≠ id,
      after.state.threads other = w.state.threads other ∧
        after.wait other = w.wait other)
    (none : (after.state.threads id).condKey = 0)
    {released : Finset ThreadId}
    (same : ∀ other ≠ id, other ∈ released ↔ other ∈ c.released)
    (itself : id ∈ released ↔ after.Released id)
    (marked : id ∈ released → (after.state.threads id).signaled = true) :
    after.Represents ⟨(c.drop {id}).line, released⟩ := by
  have members (e : Conditions.Entry ThreadId Key) :
      e ∈ (c.drop {id}).line ↔ e ∈ c.line ∧ e.who ≠ id := by
    unfold Conditions.drop
    simp only [List.mem_filter, decide_eq_true_eq, Finset.mem_singleton]
  refine ⟨?_, fun e present => ?_, fun e present => ?_, fun e present => ?_,
    fun other inside staying some => ?_, fun other => ?_,
    fun other isReleased => ?_, fun other outside => ?_⟩
  · refine (represents.ordered.filter _).imp_of_mem fun present present' less =>
      ?_
    rw [(others _ ((members _).1 present).2).1,
      (others _ ((members _).1 present').2).1]
    exact less
  · obtain ⟨before, other⟩ := (members e).1 present
    rw [(others _ other).1, nextCondSeq]
    exact represents.numbered e before
  · obtain ⟨before, other⟩ := (members e).1 present
    have queued := represents.queued e before
    have sameThread := (others _ other).1
    exact ⟨queued.registered.trans_eq nthreads.symm,
      sameThread ▸ queued.staying, sameThread ▸ queued.key,
      sameThread ▸ queued.isQueued, sameThread ▸ queued.unsignaled,
      (others _ other).2 ▸ queued.waits⟩
  · obtain ⟨before, other⟩ := (members e).1 present
    have timely := represents.timely e before
    refine ⟨?_, ?_, ?_⟩ <;> rw [(others _ other).2]
    · rw [(others _ other).1]
      exact timely.deadline
    · rw [(others _ other).1]
      exact timely.timedOut
    · exact timely.late
  · have isOther : other ≠ id := fun same => some (same ▸ none)
    rw [(others _ isOther).1] at staying some
    obtain ⟨e, present, rfl⟩ :=
      represents.inLine other (inside.trans_eq nthreads) staying some
    exact ⟨e, (members e).2 ⟨present, isOther⟩, rfl⟩
  · by_cases isSame : other = id
    · subst isSame
      exact itself
    · refine (same other isSame).trans ((represents.released other).trans ?_)
      unfold Released
      rw [nthreads, (others _ isSame).1, (others _ isSame).2]
  · by_cases isSame : other = id
    · subst isSame
      exact marked isReleased
    · rw [(others _ isSame).1]
      exact represents.marked other ((same other isSame).1 isReleased)
  · have beyond := nthreads.ge.trans outside
    have isOther : other ≠ id := (registered.trans_le beyond).ne'
    rw [(others _ isOther).1, (others _ isOther).2]
    exact represents.spare other beyond

/-- A thread that was released leaves its wait. -/
theorem Represents.signaled
    (represents : w.Represents c)
    (isReleased : id ∈ c.released) :
    ((w.setState (w.state.takeSignaled id).1).setWait id none).Represents
      { c with released := c.released.erase id } := by
  have apart : (c.drop {id}).line = c.line := by
    refine List.filter_eq_self.2 fun e present => decide_eq_true ?_
    rw [Finset.mem_singleton]
    rintro rfl
    exact represents.not_released present isReleased
  have before := (represents.released id).1 isReleased
  change Represents _ ⟨c.line, c.released.erase id⟩
  rw [← apart]
  refine represents.unqueued
    ((w.setState (w.state.takeSignaled id).1).setWait id none) before.1 rfl rfl
    (fun other isOther => ⟨Function.update_of_ne isOther _ _,
      Function.update_of_ne isOther _ _⟩) ?_ (fun other isOther => ?_) ?_ fun isErased => ?_
  · unfold takeSignaled modifyThread setState setWait
    dsimp only
    rw [Function.update_self]
    exact before.2.2.1
  · rw [Finset.mem_erase]
    exact and_iff_right isOther
  · refine iff_of_false (Finset.notMem_erase _ _) fun after => ?_
    exact after.2.2.2 (Function.update_self _ _ _)
  · exact absurd isErased (Finset.notMem_erase _ _)

/-- A thread whose deadline passed leaves the line. -/
theorem Represents.timedOut
    (represents : w.Represents c)
    (present : e ∈ c.line) :
    ((w.setState (w.state.condLeave e.who).1).setWait e.who none).Represents
      (c.drop {e.who}) := by
  have absent := represents.not_released present
  refine represents.unqueued
    ((w.setState (w.state.condLeave e.who).1).setWait e.who none)
    (represents.queued e present).registered rfl rfl
    (fun other isOther => ⟨Function.update_of_ne isOther _ _,
      Function.update_of_ne isOther _ _⟩) ?_ (fun _ _ => .rfl) ?_
    fun isReleased => absurd isReleased absent
  · unfold condLeave modifyThread setState setWait
    dsimp only
    rw [Function.update_self]
  · refine iff_of_false absent fun after => ?_
    exact after.2.2.2 (Function.update_self _ _ _)

/-- A thread joins the end of the line. -/
theorem Represents.enqueued
    (represents : w.Represents c)
    {cond : Nat}
    (holds : w.state.Holds id)
    (isCond : cond ≠ 0)
    (noWait : w.wait id = none)
    (deadline : Option Nat) :
    ((w.setState (w.state.condEnqueue id cond)).setWait id
      (some ⟨cond, deadline, .looking⟩)).Represents
      { c with line := c.line ++
        [⟨id, ((w.state.threads id).pid, cond), deadline, false⟩] } := by
  have isOther (e : Conditions.Entry ThreadId Key) (present : e ∈ c.line) :
      e.who ≠ id := by
    intro same
    have waits := (represents.queued e present).waits
    rw [same, noWait] at waits
    cases waits
  have others (other : ThreadId) (isOther : other ≠ id) :
      (w.state.condEnqueue id cond).threads other = w.state.threads other :=
    Function.update_of_ne isOther _ _
  have itself : (w.state.condEnqueue id cond).threads id =
      { w.state.threads id with
        signaled := false
        condKey := cond
        condSeq := w.state.nextCondSeq } :=
    Function.update_self _ _ _
  have waits (other : ThreadId) (isOther : other ≠ id) :
      ((w.setState (w.state.condEnqueue id cond)).setWait id
        (some ⟨cond, deadline, .looking⟩)).wait other = w.wait other :=
    Function.update_of_ne isOther _ _
  have newWait : ((w.setState (w.state.condEnqueue id cond)).setWait id
      (some ⟨cond, deadline, .looking⟩)).wait id =
      some ⟨cond, deadline, .looking⟩ :=
    Function.update_self _ _ _
  have members (e : Conditions.Entry ThreadId Key) :
      e ∈ c.line ++ [⟨id, ((w.state.threads id).pid, cond), deadline, false⟩] ↔
        e ∈ c.line ∨
          e = ⟨id, ((w.state.threads id).pid, cond), deadline, false⟩ := by
    rw [List.mem_append, List.mem_singleton]
  refine ⟨?_, fun e present => ?_, fun e present => ?_, fun e present => ?_,
    fun other inside staying some => ?_, fun other => ?_,
    fun other isReleased => ?_, fun other outside => ?_⟩
  · refine List.pairwise_append.2 ⟨?_, List.pairwise_singleton _ _, ?_⟩
    · refine represents.ordered.imp_of_mem fun present present' less => ?_
      change ((w.state.condEnqueue id cond).threads _).condSeq <
        ((w.state.condEnqueue id cond).threads _).condSeq
      rw [others _ (isOther _ present), others _ (isOther _ present')]
      exact less
    · intro e present e' new
      obtain rfl := List.mem_singleton.1 new
      change ((w.state.condEnqueue id cond).threads _).condSeq <
        ((w.state.condEnqueue id cond).threads id).condSeq
      rw [others _ (isOther _ present), itself]
      exact represents.numbered e present
  · change ((w.state.condEnqueue id cond).threads _).condSeq <
      w.state.nextCondSeq + 1
    obtain before | rfl := (members e).1 present
    · rw [others _ (isOther _ before)]
      exact (represents.numbered e before).trans (Nat.lt_succ_self _)
    · rw [itself]
      exact Nat.lt_succ_self _
  · obtain before | rfl := (members e).1 present
    · have queued := represents.queued e before
      have same := others _ (isOther _ before)
      refine ⟨queued.registered, ?_, ?_, ?_, ?_, ?_⟩
      · exact same ▸ queued.staying
      · exact same ▸ queued.key
      · exact same ▸ queued.isQueued
      · exact same ▸ queued.unsignaled
      · rw [waits _ (isOther _ before)]
        exact queued.waits
    · refine ⟨holds.2.1, ?_, ?_, ?_, ?_, ?_⟩
      · exact itself ▸ holds.2.2
      · exact itself ▸ rfl
      · exact itself ▸ isCond
      · exact itself ▸ rfl
      · rw [newWait]
        rfl
  · obtain before | rfl := (members e).1 present
    · have timely := represents.timely e before
      have same := others _ (isOther _ before)
      refine ⟨?_, ?_, ?_⟩ <;> rw [waits _ (isOther _ before)]
      · exact same ▸ timely.deadline
      · exact same ▸ timely.timedOut
      · exact timely.late
    · refine ⟨?_, ?_, ?_⟩ <;> rw [newWait] <;> exact (nomatch ·)
  · by_cases isSame : other = id
    · subst isSame
      exact ⟨_, (members _).2 (.inr rfl), rfl⟩
    · obtain ⟨e, before, rfl⟩ := represents.inLine other inside
        (others _ isSame ▸ staying) (others _ isSame ▸ some)
      exact ⟨e, (members e).2 (.inl before), rfl⟩
  · refine (represents.released other).trans ?_
    unfold Released
    by_cases isSame : other = id
    · subst isSame
      refine iff_of_false (fun before => before.2.2.2 noWait) fun after => ?_
      have key : ((w.state.condEnqueue other cond).threads other).condKey = 0 :=
        after.2.2.1
      rw [itself] at key
      exact isCond key
    · rw [waits _ isSame]
      exact others _ isSame ▸ .rfl
  · have isOther : other ≠ id := by
      rintro rfl
      exact ((represents.released _).1 isReleased).2.2.2 noWait
    exact others _ isOther ▸ represents.marked other isReleased
  · have isOther : other ≠ id := (holds.2.1.trans_le outside).ne'
    rw [waits _ isOther]
    exact others _ isOther ▸ represents.spare other outside

/-! ## Signals and broadcasts -/

theorem condSignal_eq (s : State) (id : ThreadId) :
    s.condSignal id = s.modifyThread id fun t =>
      ThreadRec.wake { t with condKey := 0, signaled := true } := by
  unfold State.condSignal State.wakeThread State.modifyThread
  dsimp only
  rw [Function.update_idem, Function.update_self]

/-- One thread in line is released. -/
theorem Represents.condSignal
    (represents : w.Represents c)
    (present : e ∈ c.line) :
    (w.setState (w.state.condSignal e.who)).Represents
      (c.release {e.who}) := by
  have queued := represents.queued e present
  rw [condSignal_eq]
  have itself : ((w.state.modifyThread e.who fun t =>
      ThreadRec.wake { t with condKey := 0, signaled := true }).threads
        e.who) = ThreadRec.wake
      { w.state.threads e.who with condKey := 0, signaled := true } :=
    Function.update_self _ _ _
  have woken : ∀ t : ThreadRec, t.wake.condKey = t.condKey ∧
      t.wake.signaled = t.signaled ∧
      (t.state ≠ .exited → t.wake.state ≠ .exited) := by
    intro t
    unfold ThreadRec.wake
    split
    · exact ⟨rfl, rfl, fun _ => (nomatch ·)⟩
    · exact ⟨rfl, rfl, id⟩
  have mark := woken
    { w.state.threads e.who with condKey := 0, signaled := true }
  rw [← itself] at mark
  refine represents.unqueued
    (w.setState (w.state.modifyThread e.who fun t =>
      ThreadRec.wake { t with condKey := 0, signaled := true }))
    queued.registered rfl rfl
    (fun other isOther => ⟨Function.update_of_ne isOther _ _, rfl⟩)
    mark.1 (fun other isOther => ?_) ?_ fun _ => mark.2.1
  · rw [Finset.mem_union, Finset.mem_singleton]
    exact or_iff_left isOther
  · refine iff_of_true
      (Finset.mem_union_right _ (Finset.mem_singleton_self _)) ?_
    refine ⟨queued.registered, mark.2.2 queued.staying, mark.1, fun noWait => ?_⟩
    have waits := queued.waits
    rw [show w.wait e.who = none from noWait] at waits
    cases waits

/-- The loop releases whom conditions release, and touches nobody else. -/
theorem Represents.condWakeLoop
    (represents : w.Represents c)
    (pid : Pid)
    {cond : Nat}
    (isCond : cond ≠ 0)
    (all : Bool)
    {rounds : Nat}
    (enough : (c.waiting (pid, cond)).length ≤ rounds) :
    (w.setState (State.condWakeLoop rounds w.state pid cond all)).Represents
        (c.release (c.woken (pid, cond) all)) ∧
      ∀ id ∉ c.woken (pid, cond) all,
        (State.condWakeLoop rounds w.state pid cond all).threads id =
          w.state.threads id := by
  have isOver (none : c.waiting (pid, cond) = []) :
      w.Represents (c.release (c.woken (pid, cond) all)) := by
    rw [Conditions.woken_nil none, Conditions.release_empty]
    exact represents
  induction rounds generalizing w c with
  | zero =>
      have none := List.eq_nil_of_length_eq_zero (Nat.le_zero.1 enough)
      exact ⟨isOver none, fun _ _ => rfl⟩
  | succ rounds inductionHypothesis =>
      unfold State.condWakeLoop
      rw [represents.condFirst pid isCond]
      cases line : c.waiting (pid, cond) with
      | nil => exact ⟨isOver line, fun _ _ => rfl⟩
      | cons first rest =>
          have isFirst : first ∈ c.waiting (pid, cond) := by
            rw [line]
            exact List.mem_cons_self
          obtain ⟨e, present, -, rfl⟩ := Conditions.mem_waiting.1 isFirst
          have signalled := represents.condSignal present
          have others (id : ThreadId) (isOther : id ≠ e.who) :
              (w.state.condSignal e.who).threads id = w.state.threads id := by
            rw [condSignal_eq]
            exact Function.update_of_ne isOther _ _
          have distinct := represents.waiting_nodup (pid, cond)
          rw [line] at distinct enough
          cases all with
          | false =>
              have woken : c.woken (pid, cond) false = {e.who} := by
                unfold Conditions.woken
                rw [line]
                rfl
              rw [woken]
              exact ⟨signalled, fun id isOther =>
                others id (Finset.notMem_singleton.1 isOther)⟩
          | true =>
              have behind : (c.release {e.who}).waiting (pid, cond) = rest := by
                rw [Conditions.waiting_release, line, List.filter_cons_of_neg
                  (by simp), List.filter_eq_self]
                intro id isBehind
                rw [decide_eq_true_eq, Finset.mem_singleton]
                rintro rfl
                exact (List.nodup_cons.1 distinct).1 isBehind
              have woken : c.woken (pid, cond) true =
                  {e.who} ∪ (c.release {e.who}).woken (pid, cond) true := by
                unfold Conditions.woken
                rw [if_pos rfl, if_pos rfl, behind, line, List.toFinset_cons]
                rfl
              obtain ⟨after, same⟩ := inductionHypothesis signalled
                (by rw [behind]; exact Nat.le_of_succ_le_succ enough)
                fun none => by
                  rw [Conditions.woken_nil none, Conditions.release_empty]
                  exact signalled
              rw [Conditions.release_release, ← woken] at after
              refine ⟨after, fun id absent => ?_⟩
              rw [woken, Finset.mem_union, not_or,
                Finset.mem_singleton] at absent
              exact (same id absent.2).trans (others id absent.1)

theorem Represents.waiting_length
    (represents : w.Represents c)
    (pid : Pid)
    {cond : Nat}
    (isCond : cond ≠ 0) :
    (c.waiting (pid, cond)).length ≤ w.state.nthreads := by
  have registered : c.waiting (pid, cond) ⊆ List.range w.state.nthreads :=
    fun id present => List.mem_range.2
      ((represents.mem_waiting isCond).1 present).1
  have fewer := ((represents.waiting_nodup (pid, cond)).subperm
    registered).length_le
  rw [List.length_range] at fewer
  exact fewer

/-- A signal or a broadcast of the code is one of conditions. -/
theorem Represents.condWake
    (represents : w.Represents c)
    (pid : Pid)
    {cond : Nat}
    (isCond : cond ≠ 0)
    (all : Bool) :
    (w.setState (w.state.condWake pid cond all)).Represents
        (c.release (c.woken (pid, cond) all)) ∧
      Condvars.released w.state (w.state.condWake pid cond all) =
        c.woken (pid, cond) all := by
  obtain ⟨after, others⟩ := represents.condWakeLoop pid isCond all
    (represents.waiting_length pid isCond)
  refine ⟨after, Finset.ext fun id => ?_⟩
  rw [mem_released]
  constructor
  · rintro ⟨-, unmarked, marked⟩
    by_contra absent
    have same : (w.state.condWake pid cond all).threads id =
        w.state.threads id := others id absent
    rw [same, unmarked] at marked
    cases marked
  · intro woken
    obtain ⟨e, present, -, rfl⟩ :=
      Conditions.mem_waiting.1 (Conditions.mem_woken woken)
    have queued := represents.queued e present
    exact ⟨queued.registered, queued.unsignaled,
      after.marked _ (Finset.mem_union_right _ woken)⟩

/-! ## Steps and runs -/

/-- Where a thread is in its wait changes, and its marks of time. -/
theorem Represents.staged
    (represents : w.Represents c)
    (change : ThreadRec → ThreadRec)
    (same : SamePlace (w.state.threads id) (change (w.state.threads id)))
    (stage : WaitStage)
    (timely : ∀ e ∈ c.line, e.who = id →
      ((w.setState (w.state.modifyThread id change)).setStage id
        stage).Timely e) :
    ((w.setState (w.state.modifyThread id change)).setStage id
      stage).Represents c := by
  refine represents.retimed rfl rfl (fun other => samePlace_update same other)
    (fun other => setStage_deadline (w.setState _) id other stage)
    fun e present => ?_
  by_cases isSame : e.who = id
  · exact timely e present isSame
  · have before := represents.timely e present
    have sameThread : ((w.setState (w.state.modifyThread id change)).setStage
        id stage).state.threads e.who = w.state.threads e.who :=
      Function.update_of_ne isSame _ _
    have sameWait : ((w.setState (w.state.modifyThread id change)).setStage
        id stage).wait e.who = w.wait e.who :=
      Function.update_of_ne isSame _ _
    refine ⟨?_, ?_, ?_⟩ <;> rw [sameWait]
    · rw [sameThread]
      exact before.deadline
    · rw [sameThread]
      exact before.timedOut
    · exact before.late

theorem stage_setStage
    {stage : WaitStage}
    (waits : w.wait id ≠ none)
    (next : WaitStage)
    (isAt : ((w.setStage id next).wait id).map Wait.stage = some stage) :
    stage = next := by
  obtain ⟨wait, isWait⟩ := Option.ne_none_iff_exists'.1 waits
  unfold setStage setWait at isAt
  dsimp only at isAt
  rw [Function.update_self, isWait] at isAt
  exact (Option.some.inj isAt).symm

theorem At.waits
    {stage : WaitStage}
    (isAt : w.At id stage) : w.wait id ≠ none := by
  intro noWait
  have stage := isAt.2
  rw [noWait] at stage
  cases stage

/-- A thread that sees no signal, and one that looks again. -/
theorem Represents.unsignaled
    (represents : w.Represents c)
    (change : ThreadRec → ThreadRec)
    (same : SamePlace (w.state.threads id) (change (w.state.threads id)))
    (waits : w.wait id ≠ none)
    {stage : WaitStage}
    (awake : stage = .looking ∨ stage = .blocking) :
    ((w.setState (w.state.modifyThread id change)).setStage id
      stage).Represents c := by
  refine represents.staged change same stage fun e _ isSame => ?_
  subst isSame
  have other {next : WaitStage}
      (apart : next = .parked ∨ next = .late)
      (isAt : (((w.setState (w.state.modifyThread e.who change)).setStage e.who
        stage).wait e.who).map Wait.stage = some next) : False := by
    have isStage := @stage_setStage (w.setState _) e.who next waits stage isAt
    subst isStage
    obtain rfl | rfl := apart <;> obtain awake | awake := awake <;> cases awake
  exact ⟨fun isAt => (other (.inl rfl) isAt).elim,
    fun isAt => (other (.inl rfl) isAt).elim,
    fun isAt => (other (.inr rfl) isAt).elim⟩

/-- A thread is about to give the baton up. -/
theorem Represents.parking
    (represents : w.Represents c)
    {wait : Wait}
    (isWait : w.wait id = some wait) :
    ((w.setState (w.state.setDeadline id
      (deadlineWord wait.deadline))).setStage id .parked).Represents c := by
  refine represents.staged
    (fun t =>
      { t with deadline := deadlineWord wait.deadline, timedOut := false })
    ⟨rfl, rfl, rfl, rfl, .rfl⟩ .parked fun e present isSame => ?_
  subst isSame
  change Timely ((w.setState (w.state.setDeadline e.who
    (deadlineWord wait.deadline))).setStage e.who .parked) e
  have waits : w.wait e.who ≠ none := by
    rw [isWait]
    exact Option.some_ne_none _
  have itself : ((w.setState (w.state.setDeadline e.who
      (deadlineWord wait.deadline))).setStage e.who .parked).state.threads e.who =
      { w.state.threads e.who with
        deadline := deadlineWord wait.deadline
        timedOut := false } :=
    Function.update_self _ _ _
  have deadline := (represents.queued e present).waits
  rw [isWait] at deadline
  refine ⟨fun _ => .inr ?_, fun _ timedOut => ?_, fun isAt => ?_⟩
  · rw [itself, ← Option.some.inj deadline]
  · rw [itself] at timedOut
    cases timedOut
  · cases @stage_setStage (w.setState _) e.who .late waits .parked isAt

/-- A thread looks whether its deadline passed. -/
theorem Represents.resumed
    (represents : w.Represents c)
    (isAt : w.At id .parked) :
    ((w.setState (w.state.takeTimedOut id).1).setStage id
      (if (w.state.takeTimedOut id).2 then .late else .looking)).Represents
        c := by
  have same : SamePlace (w.state.threads id)
      { w.state.threads id with timedOut := false } :=
    ⟨rfl, rfl, rfl, rfl, .rfl⟩
  split
  · next timedOut =>
      refine represents.staged (fun t => { t with timedOut := false }) same
        .late fun e present isSame => ?_
      subst isSame
      have late := (represents.timely e present).timedOut isAt.2 timedOut
      have other {next : WaitStage}
          (isNext : (((w.setState (w.state.takeTimedOut e.who).1).setStage
            e.who .late).wait e.who).map Wait.stage = some next) :
          next = .late :=
        @stage_setStage (w.setState _) e.who next isAt.waits .late isNext
      exact ⟨fun parked => (nomatch other parked),
        fun parked => (nomatch other parked), fun _ => late⟩
  · exact represents.unsignaled (fun t => { t with timedOut := false }) same
      isAt.waits (.inl rfl)

/-- Another operation of the schedule. -/
theorem Represents.other
    (represents : w.Represents c)
    {op : Op}
    {s : State}
    {answer : Answer}
    (possible : w.state.Possible op)
    (allows : w.Allows op)
    (apart : ∀ pid cond all, op ≠ .condWake pid cond all)
    (done : w.state.exec fuel op = some (s, answer)) :
    (w.setState s).Represents
      ((c.without (gone w.state s)).tick s.clockNs) := by
  cases conditions : op.onConditions with
  | false =>
      exact represents.framed (keepsWaits_of_exec conditions possible done)
        (fun _ isGone => (mem_gone.1 isGone).2.2)
        fun id inside staying exited => mem_gone.2 ⟨inside, staying, exited⟩
  | true =>
      cases op with
      | condEnqueue => cases allows.1
      | condWake pid cond all => exact absurd rfl (apart pid cond all)
      | setDeadline id deadline =>
          obtain ⟨rfl, -⟩ := Prod.mk.inj (Option.some.inj done)
          have retimed : (w.setState
              (w.state.setDeadline id deadline)).Represents c := by
            have same : SamePlace (w.state.threads id)
                { w.state.threads id with
                  deadline := deadline
                  timedOut := false } :=
              ⟨rfl, rfl, rfl, rfl, .rfl⟩
            refine represents.retimed rfl rfl
              (fun other => samePlace_update same other) (fun _ => rfl)
              fun e present => ?_
            have before := represents.timely e present
            by_cases isSame : e.who = id
            · subst isSame
              have itself : (w.state.setDeadline e.who deadline).threads e.who =
                  { w.state.threads e.who with
                    deadline := deadline
                    timedOut := false } :=
                Function.update_self _ _ _
              have waits := (represents.queued e present).waits
              by_cases some : deadline = 0
              · subst some
                refine ⟨fun _ => .inl ?_, fun _ timedOut => ?_, before.late⟩
                · exact itself ▸ rfl
                · have marked : ((w.state.setDeadline e.who 0).threads
                      e.who).timedOut = true := timedOut
                  rw [itself] at marked
                  cases marked
              · rw [allows.2 e.who (if_neg some)] at waits
                cases waits
            · have same : (w.state.setDeadline id deadline).threads e.who =
                  w.state.threads e.who :=
                Function.update_of_ne isSame _ _
              exact ⟨same ▸ before.deadline, same ▸ before.timedOut,
                before.late⟩
          exact retimed.settled w.state
      | _ => cases conditions

theorem setDeadline_state
    (s : State)
    (id other : ThreadId)
    (deadline : Nat) :
    ((s.setDeadline id deadline).threads other).state =
      (s.threads other).state := by
  unfold State.setDeadline State.modifyThread
  dsimp only
  by_cases same : other = id
  · subst same
    rw [Function.update_self]
  · rw [Function.update_of_ne same]

/-- A thread that is not queued any more leaves no queue. -/
theorem condLeave_eq
    {s : State}
    (none : (s.threads id).condKey = 0) :
    (s.condLeave id).1 = (s.takeSignaled id).1 := by
  unfold State.condLeave State.takeSignaled State.modifyThread
  dsimp only
  rw [← none]

/-- What was done to conditions, and then who is gone and the time. -/
theorem run_seen
    {c c' : Conditions ThreadId Key}
    {shown : List (Conditions.Event ThreadId Key)}
    (run : (Conditions.system ThreadId Key).Run c shown c')
    (gone : Finset ThreadId)
    (now : Nat) :
    (Conditions.system ThreadId Key).Run c
      (shown ++ [.exit gone, .clock now]) ((c'.without gone).tick now) := by
  rw [show shown ++ [Conditions.Event.exit gone, .clock now] =
    shown ++ [.exit gone] ++ [.clock now] by simp]
  exact (run.tail (.exit gone)).tail (.clock now)

theorem run_one
    {c c' : Conditions ThreadId Key}
    {event : Conditions.Event ThreadId Key}
    (step : Conditions.Step c event c') :
    (Conditions.system ThreadId Key).Run c [event] c' := by
  have none : (Conditions.system ThreadId Key).Run c [] c := .refl c
  exact none.tail step

/-- Every step of the code is matched by steps of conditions that show the
same. -/
theorem Represents.matched
    {label : Action × List (Conditions.Event ThreadId Key)}
    (represents : w.Represents c)
    (step : Condvars.system.step w label later) :
    ∃ after, (Conditions.system ThreadId Key).Run c label.2 after ∧
      later.Represents after := by
  obtain ⟨action, events⟩ := label
  obtain ⟨possible, ⟨fuel, done⟩, same⟩ := step
  dsimp only at possible done same ⊢
  subst same
  unfold Condvars.seen
  have none : (Conditions.system ThreadId Key).Run c [] c := .refl c
  cases action with
  | enqueue id cond deadline =>
      obtain rfl := Option.some.inj done
      obtain ⟨⟨holds, isCond⟩, noWait⟩ := possible
      have enqueued := represents.enqueued holds isCond noWait deadline
      refine ⟨_, run_seen (run_one (.enqueue _ deadline (fun e present => ?_)
        ?_)) _ _, enqueued.settled w.state⟩
      · rintro rfl
        have waits := (represents.queued e present).waits
        rw [noWait] at waits
        cases waits
      · rw [represents.released]
        exact fun released => released.2.2.2 noWait
  | look id =>
      have waits := possible.waits
      have staying := possible.1.2.2
      have same := Option.some.inj done
      cases signaled : (w.state.threads id).signaled with
      | true =>
          have isReleased := (represents.released_iff staying waits).2 signaled
          have shown : w.shown later (.look id) = [.finish id true] :=
            if_pos signaled
          rw [shown, same.symm.trans (if_pos signaled)]
          exact ⟨_, run_seen (run_one (.signaled isReleased)) _ _,
            (represents.signaled isReleased).settled w.state⟩
      | false =>
          have looked := represents.unsignaled
            (fun t => { t with signaled := false })
            ⟨rfl, rfl, rfl, signaled.symm, .rfl⟩ waits (.inr rfl)
          have unsignaled : ¬(w.state.takeSignaled id).2 = true :=
            Bool.eq_false_iff.1 signaled
          have shown : w.shown later (.look id) = [] := if_neg unsignaled
          rw [shown, same.symm.trans (if_neg unsignaled)]
          exact ⟨_, run_seen none _ _, looked.settled w.state⟩
  | block id =>
      obtain ⟨wait, isWait, done⟩ := Option.bind_eq_some_iff.1 done
      split at done
      · obtain rfl := Option.some.inj done
        have looked := represents.unsignaled
          (fun t =>
            { t with
              timedOut := false
              wakesSeen := (w.state.procs t.pid).outsideWakes })
          ⟨rfl, rfl, rfl, rfl, .rfl⟩ possible.waits (.inl rfl)
        exact ⟨_, run_seen none _ _, looked.settled w.state⟩
      · obtain ⟨s, yielded, rfl⟩ := Option.map_eq_some_iff.1 done
        obtain ⟨⟨later, handoff⟩, handed, rfl⟩ :=
          Option.map_eq_some_iff.1 yielded
        have parking := represents.parking isWait
        have same (other : ThreadId) : ((w.state.setDeadline id
            (deadlineWord wait.deadline)).threads other).state =
            (w.state.threads other).state :=
          setDeadline_state w.state id other _
        refine ⟨_, run_seen none _ _, parking.framed
          (keepsWaits_handOff ?_ handed) (fun _ isGone =>
            (mem_gone.1 isGone).2.2) fun other inside staying exited => ?_⟩
        · rintro _ ⟨⟩ exited
          exact absurd ((same id).symm.trans exited) possible.1.2.2
        · exact mem_gone.2 ⟨inside, same other ▸ staying, exited⟩
  | resume id =>
      obtain rfl := Option.some.inj done
      exact ⟨_, run_seen none _ _,
        (represents.resumed possible.1).settled w.state⟩
  | leave id =>
      obtain rfl := Option.some.inj done
      have waits := possible.waits
      have staying := possible.1.2.2
      unfold Condvars.shown
      dsimp only
      obtain ⟨e, present, rfl⟩ | isReleased :=
        represents.cases_of_wait staying waits
      · have unmarked : (w.state.condLeave e.who).2 = false :=
          (represents.queued e present).unsignaled
        rw [unmarked]
        exact ⟨_, run_seen (run_one (.timedOut present
            ((represents.timely e present).late possible.2))) _ _,
          (represents.timedOut present).settled w.state⟩
      · have marked : (w.state.condLeave id).2 = true :=
          represents.marked id isReleased
        have same : (w.state.condLeave id).1 = (w.state.takeSignaled id).1 :=
          condLeave_eq ((represents.released id).1 isReleased).2.2.1
        rw [marked, same]
        exact ⟨_, run_seen (run_one (.signaled isReleased)) _ _,
          (represents.signaled isReleased).settled w.state⟩
  | other op =>
      obtain ⟨⟨s, answer⟩, executed, rfl⟩ := Option.map_eq_some_iff.1 done
      by_cases wakes : ∃ pid cond all, op = .condWake pid cond all
      · obtain ⟨pid, cond, all, rfl⟩ := wakes
        obtain ⟨rfl, -⟩ := Prod.mk.inj (Option.some.inj executed)
        obtain ⟨woken, same⟩ := represents.condWake pid possible.1 all
        refine ⟨_, run_seen (run_one ?_) _ _, woken.settled w.state⟩
        change Conditions.Step c (.wake (pid, cond) all
          (Condvars.released w.state (w.state.condWake pid cond all))) _
        rw [same]
        exact .wake (pid, cond) all
      · push Not at wakes
        have after := represents.other possible.1 possible.2 wakes executed
        have shown : w.shown (w.setState s) (.other op) = [] := by
          cases op <;> first | rfl | exact absurd rfl (wakes _ _ _)
        rw [shown]
        exact ⟨_, run_seen none _ _, after⟩

theorem represents_init (isInit : Condvars.system.init w) :
    w.Represents {} := by
  obtain ⟨⟨seed, quantumLo, quantumHi, names, latencyNs, same⟩, noWait⟩ :=
    isInit
  have blank (id : ThreadId) : w.state.threads id = {} := by
    rw [same]
    rfl
  have empty : w.state.nthreads = 0 := by
    rw [same]
    rfl
  refine ⟨.nil, nofun, nofun, nofun, fun id inside => ?_, fun id => ?_,
    nofun, fun id _ => ?_⟩
  · rw [empty] at inside
    exact absurd inside (Nat.not_lt_zero id)
  · exact iff_of_false (Finset.notMem_empty id) fun released =>
      released.2.2.2 (noWait id)
  · rw [blank]
    exact ⟨rfl, noWait id⟩

/-- In every run the waits of threads on condition variables are those of
conditions: a signal releases the first in line, a broadcast all of them, a
wait reports a signal if and only if one released it, and it is over without
one only after its deadline, when it has left the line. -/
theorem conditions_of_run
    {start : Condvars}
    {labels : List (Action × List (Conditions.Event ThreadId Key))}
    (isInit : Condvars.system.init start)
    (run : Condvars.system.Run start labels w) :
    ∃ c, (Conditions.system ThreadId Key).Run {} (labels.flatMap Prod.snd) c ∧
      w.Represents c :=
  Transition.Run.simulated Represents Prod.snd
    (fun represents step => represents.matched step) run
    (represents_init isInit)

/-- Two threads of a process wait on a condition.  The second gives up after its
deadline and then signals the first. -/
def twoWaits : List Action :=
  [.other (.addProc 0 none), .other (.addThread 0), .other (.addThread 0),
    .other (.handOff none 0), .enqueue 1 7 none, .look 1, .block 1,
    .enqueue 0 7 (some 5), .look 0, .block 0, .resume 0, .leave 0,
    .other (.condWake 0 7 false), .other (.handOff (some (0, .blocked, 3)) 0),
    .resume 1, .look 1]

/-- The first thread is signaled, and both waits are over. -/
theorem conditions_of_run_twoWaits :
    ∃ labels w c, labels.map Prod.fst = twoWaits ∧
      Condvars.system.Run { state := State.initial 1 1 1 [] 0 } labels w ∧
      (Conditions.system ThreadId Key).Run {} (labels.flatMap Prod.snd) c ∧
      w.Represents c ∧ w.wait 0 = none ∧ w.wait 1 = none := by
  obtain ⟨w, played, facts⟩ := Option.map_eq_some_iff.mp
    (by decide +kernel : (play 20 twoWaits
      { state := State.initial 1 1 1 [] 0 }).map (fun w =>
        decide (w.wait 0 = none ∧ w.wait 1 = none)) = some true)
  obtain ⟨labels, actions, run⟩ := run_play played
  have isInit : Condvars.system.init { state := State.initial 1 1 1 [] 0 } :=
    ⟨⟨1, 1, 1, [], 0, rfl⟩, fun _ => rfl⟩
  obtain ⟨c, shown, represents⟩ := conditions_of_run isInit run
  exact ⟨labels, w, c, actions, run, shown, represents,
    of_decide_eq_true facts⟩

end Condvars
end Derp
