import Derp.Kqueue.Defs

/-!
# What a kqueue promises

What the kernel promises about a registration is told by what its process asked for and
what was reported so far: a registration is added with flags and stands until it is
deleted, it is silenced by a disable or by an event it dispatches, and it goes with the
event if it is one-shot.
-/

namespace Derp

namespace Kqueue

inductive Key
  | socket (fd : Nat) (filter : Filter)
  | watch (ident : Nat) (filter : WatchFilter)
deriving DecidableEq

/-- A death is reported once. -/
def Key.isDeath : Key → Bool
  | .watch _ .proc => true
  | _ => false

end Kqueue

open Kqueue

def QueueEvent.key : QueueEvent → Key
  | .socket e => .socket e.fd e.filter
  | .watch e => .watch e.ident e.filter

namespace Kqueue

/-- What a process asks of a registration. -/
structure Ask where
  add : Bool
  delete : Bool
  enable : Bool
  disable : Bool
  flags : RegFlags

/-- What is known of a registration that stands. -/
structure Standing where
  flags : RegFlags
  enabled : Bool
deriving DecidableEq

/-- A deleted registration is gone whatever else is asked; a new one is enabled. -/
def Ask.answer (ask : Ask) (st : Option Standing) : Option Standing :=
  if ask.delete then none
  else
    let st := if ask.add then some ⟨ask.flags, (st.map Standing.enabled).getD true⟩ else st
    st.map fun s => { s with enabled := !ask.disable && (ask.enable || s.enabled) }

/-- What is left of a registration after an event. -/
def Standing.reported (k : Key) (st : Standing) : Option Standing :=
  if st.flags.oneshot || k.isDeath then none
  else if st.flags.dispatch then some { st with enabled := false }
  else some st

end Kqueue

namespace QueueAct

/-- What is asked of the registration of a key. -/
def ask (k : Key) : QueueAct → Option Ask
  | .change ev _ =>
      if k = .socket ev.fd ev.filter then
        some ⟨ev.add, ev.delete, ev.enable, ev.disable, ev.flags⟩
      else none
  | .watch ev =>
      if k = .watch ev.ident ev.filter then
        some ⟨ev.add, ev.delete, ev.enable, ev.disable, ev.flags⟩
      else none
  | .closed fd =>
      match k with
      | .socket fd' _ => if fd' = fd then some ⟨false, true, false, false, {}⟩ else none
      | .watch _ _ => none
  | .world _ => none
  | .collect _ _ => none

/-- An event of the key is reported. -/
def Reports (k : Key) : QueueAct → Prop
  | .collect _ events => k ∈ events.map QueueEvent.key
  | _ => False

instance (k : Key) (act : QueueAct) : Decidable (act.Reports k) := by
  cases act <;> unfold Reports <;> infer_instance

def next (k : Key) (act : QueueAct) (st : Option Standing) : Option Standing :=
  match act.ask k with
  | some ask => ask.answer st
  | none => if act.Reports k then st.bind (Standing.reported k) else st

def Adds (k : Key) (act : QueueAct) : Prop :=
  ∃ ask, act.ask k = some ask ∧ ask.delete = false ∧ ask.add = true

def Enables (k : Key) (act : QueueAct) : Prop :=
  ∃ ask, act.ask k = some ask ∧ ask.delete = false ∧ ask.enable = true

def Disables (k : Key) (act : QueueAct) : Prop :=
  ∃ ask, act.ask k = some ask ∧ ask.delete = false ∧ ask.disable = true

end QueueAct

namespace Kqueue

variable {k : Key} {act : QueueAct} {before between : List QueueAct} {st : Option Standing}

/-- How a registration stands after all that happened. -/
def standing (k : Key) (acts : List QueueAct) : Option Standing :=
  acts.foldl (fun st act => act.next k st) none

theorem standing_append (acts more : List QueueAct) :
    standing k (acts ++ more) = more.foldl (fun st act => act.next k st) (standing k acts) :=
  List.foldl_append

theorem standing_snoc (acts : List QueueAct) (act : QueueAct) :
    standing k (acts ++ [act]) = act.next k (standing k acts) :=
  standing_append acts [act]

/-- The registration was gone at some time, and was added again. -/
def Renewed (k : Key) (before between : List QueueAct) : Prop :=
  ∃ first act last, between = first ++ act :: last ∧ act.Adds k ∧
    standing k (before ++ first) = none

theorem Renewed.snoc (renewed : Renewed k before between) (act : QueueAct) :
    Renewed k before (between ++ [act]) := by
  obtain ⟨first, adds, last, rfl, isAdd, gone⟩ := renewed
  exact ⟨first, adds, last ++ [act], by rw [List.append_assoc, List.cons_append], isAdd, gone⟩

/-- The registration is gone or silenced. -/
def Silent (st : Option Standing) : Prop := ∀ s ∈ st, s.enabled = false

theorem silent_none : Silent none := fun _ none => nomatch none

theorem next_of_ask {ask : Ask} (asks : act.ask k = some ask) :
    act.next k st = ask.answer st := by
  unfold QueueAct.next
  rw [asks]

theorem next_of_reports (reports : act.Reports k) :
    act.next k st = st.bind (Standing.reported k) := by
  cases act with
  | collect room events => exact if_pos reports
  | _ => exact reports.elim

theorem next_of_not (unasked : act.ask k = none) (unheard : ¬ act.Reports k) :
    act.next k st = st := by
  unfold QueueAct.next
  rw [unasked]
  exact if_neg unheard

theorem next_change_self (ev : Change) (sock : SockId) (st : Option Standing) :
    (QueueAct.change ev sock).next (.socket ev.fd ev.filter) st =
      Ask.answer ⟨ev.add, ev.delete, ev.enable, ev.disable, ev.flags⟩ st :=
  next_of_ask (if_pos rfl)

theorem next_change_other {ev : Change} (sock : SockId) (other : k ≠ .socket ev.fd ev.filter)
    (st : Option Standing) : (QueueAct.change ev sock).next k st = st :=
  next_of_not (if_neg other) id

theorem next_watch_self (ev : WatchChange) (st : Option Standing) :
    (QueueAct.watch ev).next (.watch ev.ident ev.filter) st =
      Ask.answer ⟨ev.add, ev.delete, ev.enable, ev.disable, ev.flags⟩ st :=
  next_of_ask (if_pos rfl)

theorem next_watch_other {ev : WatchChange} (other : k ≠ .watch ev.ident ev.filter)
    (st : Option Standing) : (QueueAct.watch ev).next k st = st :=
  next_of_not (if_neg other) id

theorem next_closed_socket (fd fd' : Nat) (filter : Filter) (st : Option Standing) :
    (QueueAct.closed fd).next (.socket fd' filter) st = if fd' = fd then none else st := by
  split
  · rename_i same
    have asks : (QueueAct.closed fd).ask (.socket fd' filter) =
        some ⟨false, true, false, false, {}⟩ := if_pos same
    exact next_of_ask asks
  · rename_i other
    have unasked : (QueueAct.closed fd).ask (.socket fd' filter) = none := if_neg other
    exact next_of_not unasked id

/-- What is gone comes back by an add. -/
theorem next_of_none (unadded : ¬ act.Adds k) : act.next k none = none := by
  unfold QueueAct.next
  split
  · rename_i ask asks
    unfold Ask.answer
    dsimp only
    split
    · rfl
    · split
      · rename_i kept added
        exact absurd ⟨ask, asks, eq_false_of_ne_true kept, added⟩ unadded
      · rfl
  · exact ite_self none

/-- What is silenced speaks again by an enable, or by an add if it was gone. -/
theorem Silent.next (silent : Silent st) (enables : ¬ act.Enables k)
    (adds : st = none → ¬ act.Adds k) : Silent (act.next k st) := by
  cases st with
  | none =>
      rw [next_of_none (adds rfl)]
      exact silent_none
  | some s =>
      have off : s.enabled = false := silent s rfl
      unfold QueueAct.next
      split
      · rename_i ask asks
        unfold Ask.answer
        dsimp only
        split
        · exact silent_none
        · rename_i kept
          have quiet : ask.enable = false := by
            by_contra on
            exact enables ⟨ask, asks, eq_false_of_ne_true kept, Bool.eq_true_of_not_eq_false on⟩
          intro later isLater
          split at isLater
          · obtain rfl := Option.some.inj isLater
            dsimp only [Option.map_some, Option.getD_some]
            rw [quiet, off, Bool.false_or, Bool.and_false]
          · obtain rfl := Option.some.inj isLater
            dsimp only
            rw [quiet, off, Bool.false_or, Bool.and_false]
      · split
        · intro later isLater
          rw [Option.bind_some] at isLater
          unfold Standing.reported at isLater
          split at isLater
          · cases isLater
          · split at isLater
            · obtain rfl := Option.some.inj isLater
              rfl
            · obtain rfl := Option.some.inj isLater
              exact off
        · exact silent

/-- A registration that is gone stays gone until it is added. -/
theorem gone_until_added (gone : standing k before = none)
    (later : (standing k (before ++ between)).isSome) : ∃ act ∈ between, act.Adds k := by
  induction between using List.reverseRecOn with
  | nil =>
      rw [List.append_nil, gone] at later
      cases later
  | append_singleton between act ih =>
      by_cases adds : act.Adds k
      · exact ⟨act, List.mem_append_right _ (List.mem_singleton_self act), adds⟩
      · cases stood : standing k (before ++ between) with
        | none =>
            rw [← List.append_assoc, standing_snoc, stood, next_of_none adds] at later
            cases later
        | some s =>
            obtain ⟨other, present, added⟩ := ih (by rw [stood]; rfl)
            exact ⟨other, List.mem_append_left _ present, added⟩

/-- A registration that is silenced stays so until it is enabled, or added anew. -/
theorem silent_until_enabled (silent : Silent (standing k before)) {s : Standing}
    (later : standing k (before ++ between) = some s) (enabled : s.enabled = true) :
    (∃ act ∈ between, act.Enables k) ∨ Renewed k before between := by
  by_contra! never
  obtain ⟨unenabled, unrenewed⟩ := never
  have still : Silent (standing k (before ++ between)) := by
    clear later
    induction between using List.reverseRecOn with
    | nil => rwa [List.append_nil]
    | append_singleton between act ih =>
        rw [← List.append_assoc, standing_snoc]
        refine (ih (fun other present => unenabled other (List.mem_append_left _ present))
          fun renewed => unrenewed (renewed.snoc act)).next ?_ ?_
        · exact unenabled act (List.mem_append_right _ (List.mem_singleton_self act))
        · exact fun gone adds => unrenewed ⟨between, act, [], rfl, adds, gone⟩
  rw [still s later] at enabled
  cases enabled

/-- What is left after an event says nothing more if it is one-shot or dispatches. -/
theorem reported_cases (k : Key) (s : Standing) :
    (s.flags.oneshot = true → s.reported k = none) ∧
      (s.flags.dispatch = true → Silent (s.reported k)) := by
  constructor
  · intro oneshot
    unfold Standing.reported
    rw [oneshot, Bool.true_or, if_pos rfl]
  · intro dispatch
    unfold Standing.reported
    rw [if_pos dispatch]
    split
    · exact silent_none
    · intro later isLater
      obtain rfl := Option.some.inj isLater
      rfl

theorem silent_of_disables (disables : act.Disables k) (st : Option Standing) :
    Silent (act.next k st) := by
  obtain ⟨ask, asks, kept, disabled⟩ := disables
  rw [next_of_ask asks]
  unfold Ask.answer
  rw [kept, if_neg Bool.false_ne_true, disabled]
  intro later isLater
  obtain ⟨s, -, rfl⟩ := Option.map_eq_some_iff.mp isLater
  rfl

end Kqueue

end Derp
