import Derp.Replay.Defs

/-!
# What is read from a report

Every line tells one thing, and the last line that tells it counts.  Of the processes
that were lives of one entry, the one that ranks highest gives the entry's status.
-/

namespace Derp

namespace Ending

section Last

variable {α β : Type} {f : α → Option β} {items items' : List α} {item : α} {value : β}

/-- The last thing that is told. -/
def lastOf (f : α → Option β) (items : List α) : Option β := (items.filterMap f).getLast?

@[simp] theorem lastOf_nil : lastOf f [] = none := rfl

theorem lastOf_append : lastOf f (items ++ items') = (lastOf f items').or (lastOf f items) := by
  unfold lastOf
  rw [List.filterMap_append, List.getLast?_append]

theorem lastOf_concat : lastOf f (items ++ [item]) = (f item).or (lastOf f items) := by
  rw [lastOf_append]
  unfold lastOf
  cases told : f item with
  | none => rw [List.filterMap_cons_none told]; rfl
  | some value => rw [List.filterMap_cons_some told]; rfl

theorem lastOf_map {γ : Type} (g : γ → α) (items : List γ) :
    lastOf f (items.map g) = lastOf (fun item => f (g item)) items := by
  unfold lastOf
  rw [List.filterMap_map]
  rfl

theorem lastOf_congr {g : α → Option β} (same : ∀ item ∈ items, f item = g item) :
    lastOf f items = lastOf g items := by
  unfold lastOf
  rw [List.filterMap_congr same]

theorem lastOf_eq_none (silent : ∀ item ∈ items, f item = none) : lastOf f items = none := by
  unfold lastOf
  rw [List.filterMap_eq_nil_iff.mpr silent]
  rfl

/-- What is told once, or always in the same way. -/
theorem lastOf_eq_some (present : item ∈ items) (told : f item = some value)
    (same : ∀ other ∈ items, ∀ value', f other = some value' → value' = value) :
    lastOf f items = some value := by
  have isTold : value ∈ items.filterMap f := List.mem_filterMap.mpr ⟨item, present, told⟩
  unfold lastOf
  rw [List.getLast?_eq_some_getLast (List.ne_nil_of_mem isTold)]
  obtain ⟨other, among, told'⟩ :=
    List.mem_filterMap.mp (List.getLast_mem (List.ne_nil_of_mem isTold))
  rw [same other among _ told']

theorem eq_none_of_lastOf (silent : lastOf f items = none) : ∀ item ∈ items, f item = none :=
  List.filterMap_eq_nil_iff.mp (List.getLast?_eq_none_iff.mp silent)

section Pieces

variable {γ : Type} {own handed : γ → List α} {pieces later : List γ} {piece : γ}

theorem lastOf_flatMap_of_silent (silent : ∀ piece ∈ pieces, ∀ item ∈ own piece, f item = none) :
    lastOf f (pieces.flatMap fun piece => own piece ++ handed piece) =
      lastOf f (pieces.flatMap handed) := by
  induction pieces with
  | nil => rfl
  | cons piece pieces ih =>
      rw [List.flatMap_cons, List.flatMap_cons, lastOf_append, lastOf_append, lastOf_append,
        ih fun other present => silent other (List.mem_cons_of_mem _ present),
        lastOf_eq_none (silent piece List.mem_cons_self), Option.or_none]

/-- What a piece tells by itself stands, unless what is handed on behind tells otherwise. -/
theorem lastOf_flatMap_of_own (isOwn : lastOf f (own piece) = some value)
    (silent : ∀ piece ∈ later, ∀ item ∈ own piece, f item = none) :
    lastOf f ((piece :: later).flatMap fun piece => own piece ++ handed piece) =
      (lastOf f ((piece :: later).flatMap handed)).or (some value) := by
  rw [List.flatMap_cons, List.flatMap_cons, lastOf_append, lastOf_append, lastOf_append, isOwn,
    lastOf_flatMap_of_silent silent, Option.or_assoc]

end Pieces

end Last

/-! ## Lines -/

/-- The value of a line that has the key. -/
def keyed (key line : Text) : Option Text :=
  match Text.splitOnce ['='] line with
  | some (key', value) => if key' = key then some value else none
  | none => none

/-- The entry of a line about that process. -/
def keyedEntry (process line : Text) : Option Nat :=
  (keyed (process ++ ENTRY) line).bind (Text.parseUnsigned 64)

theorem stripSuffix_eq_some {ending text front : Text} :
    Text.stripSuffix ending text = some front ↔ text = front ++ ending := by
  constructor
  · intro stripped
    unfold Text.stripSuffix at stripped
    split_ifs at stripped with isSuffix
    obtain ⟨start, rfl⟩ := List.isSuffixOf_iff_suffix.mp isSuffix
    rw [List.length_append, Nat.add_sub_cancel, List.take_left, Option.some_inj] at stripped
    rw [stripped]
  · rintro rfl
    exact Text.stripSuffix_append front ending

theorem append_ne_of_getLast {front front' ending ending' : Text}
    (other : ending.getLast? ≠ ending'.getLast?) (isEnding : ending ≠ [])
    (isEnding' : ending' ≠ []) : front ++ ending ≠ front' ++ ending' := by
  intro same
  have := congrArg List.getLast? same
  rw [List.getLast?_append_of_ne_nil _ isEnding, List.getLast?_append_of_ne_nil _ isEnding'] at this
  exact other this

theorem append_status_ne (process process' : Text) : process ++ STATUS ≠ process' ++ ENTRY :=
  append_ne_of_getLast (by decide) (by decide) (by decide)

section Fields

variable {r : Reading} {key value process : Text}

theorem statusOf_process (r : Reading) (key value process : Text) :
    (r.process key value).statusOf.get process =
      if key = process ++ STATUS then some value else r.statusOf.get process := by
  unfold Reading.process
  cases isStatus : Text.stripSuffix STATUS key with
  | some process' =>
      obtain rfl := stripSuffix_eq_some.mp isStatus
      rw [Assoc.get_insert]
      exact if_congr (List.append_left_inj STATUS).symm rfl rfl
  | none =>
      have other : key ≠ process ++ STATUS := fun same => by
        rw [same, Text.stripSuffix_append] at isStatus
        cases isStatus
      rw [if_neg other]
      dsimp only
      repeat' split
      all_goals rfl

theorem entryOf_process (r : Reading) (key value process : Text) :
    (r.process key value).ending.entryOf.get process =
      if key = process ++ ENTRY then
        (Text.parseUnsigned 64 value).or (r.ending.entryOf.get process)
      else r.ending.entryOf.get process := by
  unfold Reading.process
  cases isStatus : Text.stripSuffix STATUS key with
  | some process' =>
      obtain rfl := stripSuffix_eq_some.mp isStatus
      rw [if_neg (append_status_ne process' process)]
  | none =>
      dsimp only
      cases isEntry : Text.stripSuffix ENTRY key with
      | some process' =>
          obtain rfl := stripSuffix_eq_some.mp isEntry
          cases isNumber : Text.parseUnsigned 64 value with
          | some entry =>
              dsimp only
              rw [Assoc.get_insert]
              exact if_congr (List.append_left_inj ENTRY).symm rfl rfl
          | none =>
              dsimp only
              rw [Option.none_or, ite_self]
      | none =>
          have other : key ≠ process ++ ENTRY := fun same => by
            rw [same, Text.stripSuffix_append] at isEntry
            cases isEntry
          rw [if_neg other]
          dsimp only
          repeat' split
          all_goals rfl

/-- A line about a process tells nothing about the run. -/
theorem run_process (r : Reading) (key value : Text) :
    (r.process key value).ending.failure = r.ending.failure ∧
      (r.process key value).ending.failureAt = r.ending.failureAt ∧
        (r.process key value).ending.scheduleHash = r.ending.scheduleHash := by
  unfold Reading.process
  repeat' split
  all_goals exact ⟨rfl, rfl, rfl⟩

theorem keyed_process {r : Reading} (isKeyed : r.ending.entryOf.Keyed) (key value : Text) :
    (r.process key value).ending.entryOf.Keyed := by
  unfold Reading.process
  repeat' split
  all_goals first | exact isKeyed | exact isKeyed.insert _ _

end Fields

/-! ## All lines -/

section Read

variable {line process : Text}

theorem field_eq_process {r : Reading} {key value : Text} {front ending : Text}
    (isKey : key = front ++ ending) (other : ending.getLast? ≠ some 'e')
    (other' : ending.getLast? ≠ some 't') (other'' : ending.getLast? ≠ some 'h')
    (isEnding : ending ≠ []) : r.field key value = r.process key value := by
  have last : key.getLast? = ending.getLast? := by
    rw [isKey, List.getLast?_append_of_ne_nil _ isEnding]
  unfold Reading.field
  rw [if_neg, if_neg, if_neg]
  · rintro rfl
    exact other'' last.symm
  · rintro rfl
    exact other' last.symm
  · rintro rfl
    exact other last.symm

theorem statusOf_line (r : Reading) (line process : Text) :
    (r.line line).statusOf.get process =
      (keyed (process ++ STATUS) line).or (r.statusOf.get process) := by
  unfold Reading.line keyed
  cases split : Text.splitOnce ['='] line with
  | none => rfl
  | some parts =>
      obtain ⟨key, value⟩ := parts
      dsimp only
      by_cases same : key = process ++ STATUS
      · rw [field_eq_process same (by decide) (by decide) (by decide) (by decide),
          statusOf_process, if_pos same, if_pos same]
        rfl
      · rw [if_neg same, Option.none_or]
        unfold Reading.field
        split_ifs
        · rfl
        · rfl
        · rfl
        · rw [statusOf_process, if_neg same]

theorem entryOf_line (r : Reading) (line process : Text) :
    (r.line line).ending.entryOf.get process =
      (keyedEntry process line).or (r.ending.entryOf.get process) := by
  unfold Reading.line keyedEntry keyed
  cases split : Text.splitOnce ['='] line with
  | none => rfl
  | some parts =>
      obtain ⟨key, value⟩ := parts
      dsimp only
      by_cases same : key = process ++ ENTRY
      · rw [field_eq_process same (by decide) (by decide) (by decide) (by decide),
          entryOf_process, if_pos same, if_pos same]
        rfl
      · rw [if_neg same, Option.bind_none, Option.none_or]
        unfold Reading.field
        split_ifs
        · rfl
        · rfl
        · rfl
        · rw [entryOf_process, if_neg same]

/-- What a line tells about the run. -/
theorem run_line (r : Reading) (line : Text) :
    (r.line line).ending.failure =
        ((keyed FAILURE line).map readFailure).getD r.ending.failure ∧
      (r.line line).ending.failureAt =
        ((keyed FAILURE_AT line).map fun value =>
          (Text.parseUnsigned 64 value).getD 0).getD r.ending.failureAt ∧
      (r.line line).ending.scheduleHash =
        (keyed SCHEDULE_HASH line).getD r.ending.scheduleHash := by
  unfold Reading.line keyed
  cases split : Text.splitOnce ['='] line with
  | none => exact ⟨rfl, rfl, rfl⟩
  | some parts =>
      obtain ⟨key, value⟩ := parts
      dsimp only
      unfold Reading.field
      by_cases isFailure : key = FAILURE
      · subst isFailure
        refine ⟨?_, ?_, ?_⟩
        · rw [if_pos rfl, if_pos rfl]; rfl
        · rw [if_pos rfl, if_neg (by decide)]; rfl
        · rw [if_pos rfl, if_neg (by decide)]; rfl
      by_cases isTime : key = FAILURE_AT
      · subst isTime
        refine ⟨?_, ?_, ?_⟩
        · rw [if_neg (by decide), if_pos rfl, if_neg (by decide)]; rfl
        · rw [if_neg (by decide), if_pos rfl, if_pos rfl]; rfl
        · rw [if_neg (by decide), if_pos rfl, if_neg (by decide)]; rfl
      by_cases isHash : key = SCHEDULE_HASH
      · subst isHash
        refine ⟨?_, ?_, ?_⟩
        · rw [if_neg (by decide), if_neg (by decide), if_pos rfl, if_neg (by decide)]; rfl
        · rw [if_neg (by decide), if_neg (by decide), if_pos rfl, if_neg (by decide)]; rfl
        · rw [if_neg (by decide), if_neg (by decide), if_pos rfl, if_pos rfl]; rfl
      · obtain ⟨failure, time, hash⟩ := run_process r key value
        rw [if_neg isFailure, if_neg isTime, if_neg isHash, if_neg isFailure, if_neg isTime,
          if_neg isHash]
        exact ⟨failure, time, hash⟩

theorem keyed_line {r : Reading} (isKeyed : r.ending.entryOf.Keyed) (line : Text) :
    (r.line line).ending.entryOf.Keyed := by
  unfold Reading.line
  split
  · exact isKeyed
  · unfold Reading.field
    split_ifs
    · exact isKeyed
    · exact isKeyed
    · exact isKeyed
    · exact keyed_process isKeyed _ _

theorem read_concat (lines : List Text) (line : Text) :
    read (lines ++ [line]) = (read lines).line line := List.foldl_concat ..

variable (lines : List Text)

theorem statusOf_read (process : Text) :
    (read lines).statusOf.get process = lastOf (keyed (process ++ STATUS)) lines := by
  induction lines using List.reverseRecOn with
  | nil => rfl
  | append_singleton lines line ih => rw [read_concat, statusOf_line, ih, lastOf_concat]

theorem entryOf_read (process : Text) :
    (read lines).ending.entryOf.get process = lastOf (keyedEntry process) lines := by
  induction lines using List.reverseRecOn with
  | nil => rfl
  | append_singleton lines line ih => rw [read_concat, entryOf_line, ih, lastOf_concat]

theorem failure_read :
    (read lines).ending.failure = (lastOf (keyed FAILURE) lines).bind readFailure := by
  induction lines using List.reverseRecOn with
  | nil => rfl
  | append_singleton lines line ih =>
      rw [read_concat, (run_line _ line).1, ih, lastOf_concat]
      cases keyed FAILURE line <;> rfl

theorem failureAt_read :
    (read lines).ending.failureAt =
      ((lastOf (keyed FAILURE_AT) lines).bind (Text.parseUnsigned 64)).getD 0 := by
  induction lines using List.reverseRecOn with
  | nil => rfl
  | append_singleton lines line ih =>
      rw [read_concat, (run_line _ line).2.1, ih, lastOf_concat]
      cases keyed FAILURE_AT line <;> rfl

theorem scheduleHash_read :
    (read lines).ending.scheduleHash = (lastOf (keyed SCHEDULE_HASH) lines).getD [] := by
  induction lines using List.reverseRecOn with
  | nil => rfl
  | append_singleton lines line ih =>
      rw [read_concat, (run_line _ line).2.2, ih, lastOf_concat]
      cases keyed SCHEDULE_HASH line <;> rfl

theorem keyed_read : (read lines).ending.entryOf.Keyed := by
  induction lines using List.reverseRecOn with
  | nil => exact Assoc.keyed_nil
  | append_singleton lines line ih =>
      rw [read_concat]
      exact keyed_line ih line

end Read

/-! ## Lives -/

section Lives

variable {entryOf : Assoc Text Nat} {statusOf : Assoc Text Text}

theorem mem_lives (isKeyed : entryOf.Keyed) {life : Life} :
    life ∈ lives entryOf ↔
      number life.process = some life.number ∧ entryOf.get life.process = some life.entry := by
  unfold lives
  rw [List.mem_insertionSort, List.mem_filterMap]
  constructor
  · rintro ⟨⟨process, entry⟩, present, isLife⟩
    obtain ⟨n, isNumber, rfl⟩ := Option.map_eq_some_iff.mp isLife
    exact ⟨isNumber, (Assoc.mem_iff_get isKeyed).mp present⟩
  · rintro ⟨isNumber, isEntry⟩
    refine ⟨(life.process, life.entry), (Assoc.mem_iff_get isKeyed).mpr isEntry, ?_⟩
    dsimp only
    rw [isNumber]
    rfl

theorem get_lastStatuses (lives : List Life) (statuses : Assoc Nat Text) (entry : Nat) :
    (lastStatuses statusOf lives statuses).get entry =
      (lastOf (fun life : Life =>
        if life.entry = entry then statusOf.get life.process else none) lives).or
          (statuses.get entry) := by
  induction lives generalizing statuses with
  | nil => rfl
  | cons life lives ih =>
      unfold lastStatuses
      rw [ih, ← List.singleton_append, lastOf_append, Option.or_assoc]
      congr 1
      unfold lastOf
      cases isStatus : statusOf.get life.process with
      | none =>
          rw [List.filterMap_cons_none (by rw [isStatus, ite_self])]
          rfl
      | some status =>
          dsimp only
          rw [Assoc.get_insert]
          split_ifs with same
          · rw [List.filterMap_cons_some (by rw [if_pos same, isStatus])]
            rfl
          · rw [List.filterMap_cons_none (by rw [if_neg same])]
            rfl

/-- The highest of the lives of an entry that have a status. -/
structure IsLast (statusOf : Assoc Text Text) (lives : List Life) (entry : Nat) (life : Life)
    (status : Text) : Prop where
  present : life ∈ lives
  isEntry : life.entry = entry
  isStatus : statusOf.get life.process = some status
  highest : ∀ other ∈ lives, other.entry = entry → (statusOf.get other.process).isSome →
    other.rank ≤ life.rank

theorem sorted_lives (entryOf : Assoc Text Nat) :
    (lives entryOf).Pairwise fun life life' => life.rank ≤ life'.rank := by
  have : Std.Total fun life life' : Life => life.rank ≤ life'.rank :=
    ⟨fun life life' => le_total life.rank life'.rank⟩
  have : IsTrans Life fun life life' => life.rank ≤ life'.rank := ⟨fun _ _ _ => le_trans⟩
  exact List.pairwise_insertionSort _ _

/-- An entry's status is that of the highest of its lives. -/
theorem exists_isLast {lives : List Life} (sorted : lives.Pairwise fun l l' => l.rank ≤ l'.rank)
    {entry : Nat} {status : Text}
    (isStatus : (lastStatuses statusOf lives []).get entry = some status) :
    ∃ life, IsLast statusOf lives entry life status := by
  rw [get_lastStatuses, Assoc.get_nil, Option.or_none] at isStatus
  induction lives using List.reverseRecOn with
  | nil => cases isStatus
  | append_singleton lives life ih =>
      rw [lastOf_concat] at isStatus
      have above : ∀ other ∈ lives, other.rank ≤ life.rank := fun other present =>
        (List.pairwise_append.mp sorted).2.2 other present life (List.mem_singleton_self life)
      cases told : (if life.entry = entry then statusOf.get life.process else none) with
      | some status' =>
          rw [told] at isStatus
          obtain rfl := Option.some.inj isStatus
          split_ifs at told with same
          refine ⟨life, List.mem_append_right _ (List.mem_singleton_self _), same, told, ?_⟩
          rintro other present - -
          obtain before | rfl := List.mem_append.mp present |>.imp_right List.mem_singleton.mp
          · exact above other before
          · exact le_rfl
      | none =>
          rw [told, Option.none_or] at isStatus
          obtain ⟨last, isLast⟩ := ih (List.pairwise_append.mp sorted).1 isStatus
          refine ⟨last, List.mem_append_left _ isLast.present, isLast.isEntry, isLast.isStatus, ?_⟩
          intro other present isEntry hasStatus
          obtain before | rfl := List.mem_append.mp present |>.imp_right List.mem_singleton.mp
          · exact isLast.highest other before isEntry hasStatus
          · rw [if_pos isEntry] at told
            rw [told] at hasStatus
            cases hasStatus

theorem get_isSome {lives : List Life} {life : Life} (present : life ∈ lives)
    (hasStatus : (statusOf.get life.process).isSome) :
    ((lastStatuses statusOf lives []).get life.entry).isSome := by
  rw [get_lastStatuses, Assoc.get_nil, Option.or_none]
  unfold lastOf
  rw [Option.isSome_iff_ne_none, Ne, List.getLast?_eq_none_iff]
  obtain ⟨status, isStatus⟩ := Option.isSome_iff_exists.mp hasStatus
  exact List.ne_nil_of_mem (List.mem_filterMap.mpr ⟨life, present, by rw [if_pos rfl, isStatus]⟩)

end Lives

end Ending

end Derp
