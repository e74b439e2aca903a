import Derp.Replay.Verdict

/-!
# Forged endings

A replay reads what guests print, the last line of it running into the report's first,
and what the report hands on, as it reads the report.  The ending that is read is the
run's exactly when these lines change nothing: when none tells otherwise of the run, and
the highest life of an entry that is told of has the status of the entry's last life.
-/

namespace Derp

open Ending RunOutcome

variable {o : RunOutcome} {text : Text}

/-! ## What a replay reads -/

namespace Ending

/-- The text that is read of these bytes: none, unless all of them are one. -/
def readToString (bytes : ByteArray) : Text := (bytes.utf8Decode?.map Array.toList).getD []

/-- How the replay of a run ended that wrote `stderr`. -/
def ofRun (stderr : ByteArray) (timedOut : Bool) : Ending :=
  { parse (readToString stderr) with timedOut }

theorem readToString_append (text text' : Text) :
    readToString (text.utf8Encode ++ text'.utf8Encode) = text ++ text' := by
  unfold readToString
  rw [← List.utf8Encode_append, List.utf8Decode?_utf8Encode]
  rfl

/-- Bytes in front of a text are one themselves if all of them are. -/
theorem valid_of_append {bytes : ByteArray} {text : List Char} (isText : text ≠ [])
    (valid : (bytes ++ text.utf8Encode).IsValidUTF8) : bytes.IsValidUTF8 := by
  let whole : String := ⟨_, valid⟩
  have isWhole : whole.toByteArray = bytes ++ text.utf8Encode := rfl
  have long : 0 < text.utf8Encode.size := by
    rw [Nat.pos_iff_ne_zero, Ne, ByteArray.size_eq_zero_iff, List.utf8Encode_eq_empty]
    exact isText
  have inside : (⟨bytes.size⟩ : String.Pos.Raw) < whole.rawEndPos := by
    rw [String.Pos.Raw.lt_iff, String.byteIdx_rawEndPos, ← String.size_toByteArray, isWhole,
      ByteArray.size_append]
    exact Nat.lt_add_of_pos_right long
  -- The text's first byte starts a character
  have first : (⟨bytes.size⟩ : String.Pos.Raw).IsValid whole := by
    refine String.Pos.Raw.isValid_iff_isUTF8FirstByte.2 (Or.inr ⟨inside, ?_⟩)
    have isByte : whole.getUTF8Byte ⟨bytes.size⟩ inside = text.utf8Encode[0] := by
      unfold String.getUTF8Byte
      simp only [isWhole]
      rw [ByteArray.getElem_append_right le_rfl]
      simp
    rw [isByte]
    exact ByteArray.isValidUTF8_utf8Encode.isUTF8FirstByte_getElem_zero long
  have front := (String.Pos.Raw.isValid_iff_isValidUTF8_extract_zero.1 first).2
  rw [isWhole, ByteArray.extract_append_eq_left rfl] at front
  exact front

theorem readToString_of_invalid {bytes : ByteArray} (invalid : ¬ bytes.IsValidUTF8) :
    readToString bytes = [] := by
  unfold readToString
  rw [← ByteArray.isSome_utf8Decode?_iff, Option.not_isSome_iff_eq_none] at invalid
  rw [invalid]
  rfl

end Ending

/-! ## The run's ending -/

namespace RunOutcome

theorem lastLife_eq_some {entry life : Nat} :
    o.lastLife entry = some life ↔
      o.specs[life]? = some (some entry) ∧
        ∀ other, o.specs[other]? = some (some entry) → other ≤ life := by
  have among : ∀ i, i ∈ (List.range o.specs.length).filter (fun life =>
      o.specs[life]? = some (some entry)) ↔ o.specs[i]? = some (some entry) := by
    intro i
    rw [List.mem_filter, List.mem_range, decide_eq_true_eq]
    exact ⟨fun both => both.2, fun isSpec => ⟨(List.getElem?_eq_some_iff.mp isSpec).1, isSpec⟩⟩
  have sorted : ((List.range o.specs.length).filter fun life =>
      o.specs[life]? = some (some entry)).Pairwise (· < ·) :=
    List.pairwise_lt_range.sublist List.filter_sublist
  unfold lastLife
  generalize (List.range o.specs.length).filter
    (fun life => o.specs[life]? = some (some entry)) = specs at among sorted ⊢
  have below : ∀ last, specs.getLast? = some last → ∀ i ∈ specs, i ≤ last := by
    intro last isLast i present
    obtain ⟨front, rfl⟩ := List.getLast?_eq_some_iff.mp isLast
    obtain before | same := List.mem_append.mp present |>.imp_right List.mem_singleton.mp
    · exact ((List.pairwise_append.mp sorted).2.2 i before last (List.mem_singleton_self _)).le
    · exact same.le
  constructor
  · intro isLast
    exact ⟨(among life).mp (List.mem_of_getLast? isLast),
      fun other isSpec => below life isLast other ((among other).mpr isSpec)⟩
  · rintro ⟨isSpec, highest⟩
    have present := (among life).mpr isSpec
    have isLast := List.getLast?_eq_some_getLast (List.ne_nil_of_mem present)
    have above := below _ isLast life present
    have := highest _ ((among _).mp (List.getLast_mem (List.ne_nil_of_mem present)))
    rw [isLast, Option.some_inj]
    omega

theorem failedLife_cases {entry life : Nat} (isFailed : o.failedLife = some (entry, life)) :
    entry < o.initial ∧ o.lastLife entry = some life := by
  unfold failedLife at isFailed
  obtain ⟨entry', inside, isLife⟩ := List.mem_filterMap.mp (List.mem_of_find?_eq_some isFailed)
  obtain ⟨life', isLast, same⟩ := Option.map_eq_some_iff.mp isLife
  obtain ⟨rfl, rfl⟩ := Prod.mk.inj same
  exact ⟨List.mem_range.mp (List.mem_filter.mp inside).1, isLast⟩

end RunOutcome

/-- The ending is the run's. -/
structure Ending.Tells (e : Ending) (o : RunOutcome) : Prop where
  failure : e.failure = o.failedLife.map fun failed => (failed.1, o.statusOf failed.2)
  failureAt : e.failureAt =
    (o.failedLife.map fun failed => o.totals.diedAt.getD failed.2 0).getD 0
  scheduleHash : e.scheduleHash = hex 16 o.totals.scheduleHash
  lastStatus : ∀ entry < o.initial, e.lastStatus.get entry = (o.lastLife entry).map o.statusOf

/-- Of two runs whose endings are told, one fails like the other if its entry that failed
the other ended with that status. -/
theorem failsLike_of_tells {e reference : Ending} {o' : RunOutcome} (tells : e.Tells o)
    (tells' : reference.Tells o') (same : o'.initial = o.initial) :
    e.failsLike reference = match o'.failedLife with
      | some (entry, life) => decide ((o.lastLife entry).map o.statusOf = some (o'.statusOf life))
      | none => false := by
  unfold failsLike
  rw [tells'.failure]
  cases isFailed : o'.failedLife with
  | none => rfl
  | some failed =>
      have inside := (failedLife_cases isFailed).1
      dsimp only [Option.map_some]
      rw [tells.lastStatus _ (same ▸ inside)]

/-! ## Foreign lines -/

/-- A process that is taken for a life of an entry, and the status that is read of it: the
foreign lines stand before what the launcher tells. -/
structure Told (o : RunOutcome) (text : Text) (life : Life) (status : Text) : Prop where
  isNumber : number life.process = some life.number
  isEntry : (lastOf (keyedEntry life.process) (foreign o text (o.lifeOf life.process))).or
    (o.ownEntry life.process) = some life.entry
  isStatus : (lastOf (keyed (life.process ++ STATUS))
    (foreign o text (o.processOf life.process))).or (o.ownStatus life.process) = some status

/-- The foreign lines change nothing. -/
structure Undisturbed (o : RunOutcome) (text : Text) : Prop where
  /-- No failure is told of but the run's -/
  failure : ∀ value,
    lastOf (keyed FAILURE) (foreign o text (o.failedLife.map fun _ => 0)) = some value →
      readFailure value = o.failedLife.map fun failed => (failed.1, o.statusOf failed.2)
  failureAt : ∀ value,
    lastOf (keyed FAILURE_AT) (foreign o text (o.failedLife.map fun _ => 0)) = some value →
      (Text.parseUnsigned 64 value).getD 0 =
        (o.failedLife.map fun failed => o.totals.diedAt.getD failed.2 0).getD 0
  /-- No hash, behind the run's -/
  scheduleHash : ∀ value, lastOf (keyed SCHEDULE_HASH) (foreign o text (some 0)) = some value →
    value = hex 16 o.totals.scheduleHash
  /-- The highest life told of an entry has the status of its last -/
  lives : ∀ life status, Told o text life status → life.entry < o.initial →
    (∀ life' status', Told o text life' status' → life'.entry = life.entry →
      life'.rank ≤ life.rank) →
        (o.lastLife life.entry).map o.statusOf = some status
  /-- An entry that has lives is told to have one -/
  present : ∀ entry < o.initial, o.lastLife entry ≠ none →
    ∃ life status, Told o text life status ∧ life.entry = entry

/-! ## The run as a whole -/

section Run

theorem readFailure_failed {failed : Nat × Nat} (isFailed : o.failedLife = some failed) :
    readFailure ("entry ".toList ++ Text.decimal failed.1 ++ ": ".toList ++ o.statusOf failed.2) =
      some (failed.1, o.statusOf failed.2) := by
  have small : failed.1 < 2 ^ 64 :=
    lt_of_lt_of_le (failedLife_cases isFailed).1 (o.started.trans o.few.le)
  have colon : ':' ∉ Text.decimal failed.1 := fun present =>
    absurd (Text.isDigit_of_mem_decimal present) (by decide)
  have split := Text.splitOnce_append [' '] colon (o.statusOf failed.2)
  rw [List.append_assoc] at split
  unfold readFailure
  rw [List.append_assoc, List.append_assoc, Text.stripPrefix_append]
  dsimp only
  rw [show ": ".toList = [':', ' '] from rfl, split]
  dsimp only
  rw [Text.parseUnsigned_decimal small]
  rfl

theorem parseUnsigned_diedAt (o : RunOutcome) (life : Nat) :
    Text.parseUnsigned 64 (Text.decimal (o.totals.diedAt.getD life 0)) =
      some (o.totals.diedAt.getD life 0) := by
  refine Text.parseUnsigned_decimal ?_
  rw [List.getD_eq_getElem?_getD]
  cases isTime : o.totals.diedAt[life]? with
  | none => decide
  | some time => exact o.totals.areTimes _ (List.mem_of_getElem? isTime)

/-- What is read where foreign lines stand before the launcher's own. -/
theorem or_iff {α β : Type} {f : Option α → β} {told own : Option α} {value : β}
    (isOwn : f own = value) :
    f (told.or own) = value ↔ ∀ found, told = some found → f (some found) = value := by
  cases told with
  | none =>
      constructor
      · rintro - found ⟨⟩
      · exact fun _ => isOwn
  | some found =>
      exact ⟨fun same _ isFound => isFound ▸ same, fun same => same found rfl⟩

variable (o : RunOutcome) (text : Text)

theorem failure_parse_iff :
    (parse (text ++ printRunReport o)).failure =
        (o.failedLife.map fun failed => (failed.1, o.statusOf failed.2)) ↔
      ∀ value,
        lastOf (keyed FAILURE) (foreign o text (o.failedLife.map fun _ => 0)) = some value →
          readFailure value = o.failedLife.map fun failed => (failed.1, o.statusOf failed.2) := by
  change (read _).ending.failure = _ ↔ _
  rw [failure_read, run_value text (by decide), told_failure, Option.map_map]
  refine @or_iff _ _ (fun told => told.bind readFailure) _ _ _ ?_
  cases isFailed : o.failedLife with
  | none => rfl
  | some failed => exact readFailure_failed isFailed

theorem failureAt_parse_iff :
    (parse (text ++ printRunReport o)).failureAt =
        (o.failedLife.map fun failed => o.totals.diedAt.getD failed.2 0).getD 0 ↔
      ∀ value,
        lastOf (keyed FAILURE_AT) (foreign o text (o.failedLife.map fun _ => 0)) = some value →
          (Text.parseUnsigned 64 value).getD 0 =
            (o.failedLife.map fun failed => o.totals.diedAt.getD failed.2 0).getD 0 := by
  change (read _).ending.failureAt = _ ↔ _
  rw [failureAt_read, run_value text (by decide), told_failureAt, Option.map_map]
  refine @or_iff _ _ (fun told => (told.bind (Text.parseUnsigned 64)).getD 0) _ _ _ ?_
  cases isFailed : o.failedLife with
  | none => rfl
  | some failed => exact congrArg (Option.getD · 0) (parseUnsigned_diedAt o failed.2)

theorem scheduleHash_parse_iff :
    (parse (text ++ printRunReport o)).scheduleHash = hex 16 o.totals.scheduleHash ↔
      ∀ value, lastOf (keyed SCHEDULE_HASH) (foreign o text (some 0)) = some value →
        value = hex 16 o.totals.scheduleHash := by
  change (read _).ending.scheduleHash = _ ↔ _
  rw [scheduleHash_read, run_value text (by decide), told_hash, Option.map_some]
  exact @or_iff _ _ (fun told => told.getD []) _ _ _ rfl

end Run

/-! ## Lives -/

section Lives

/-- The lives that are read. -/
def readLives (o : RunOutcome) (text : Text) : List Life :=
  lives (read (Text.lines (text ++ printRunReport o))).ending.entryOf

def readStatus (o : RunOutcome) (text : Text) : Assoc Text Text :=
  (read (Text.lines (text ++ printRunReport o))).statusOf

theorem told_iff {life : Life} {status : Text} :
    Told o text life status ↔
      life ∈ readLives o text ∧ (readStatus o text).get life.process = some status := by
  unfold readLives readStatus
  rw [mem_lives (keyed_read _), statusOf_read, entryOf_read]
  constructor
  · rintro ⟨isNumber, isEntry, isStatus⟩
    rw [status_value text isNumber, entry_value text isNumber]
    exact ⟨⟨isNumber, isEntry⟩, isStatus⟩
  · rintro ⟨⟨isNumber, isEntry⟩, isStatus⟩
    rw [entry_value text isNumber] at isEntry
    rw [status_value text isNumber] at isStatus
    exact ⟨isNumber, isEntry, isStatus⟩

/-- The status read of an entry is that of the highest life told of it. -/
theorem lastStatus_eq_some {entry : Nat} {status : Text} :
    (parse (text ++ printRunReport o)).lastStatus.get entry = some status ↔
      ∃ life, Told o text life status ∧ life.entry = entry ∧
        ∀ life' status', Told o text life' status' → life'.entry = entry →
          life'.rank ≤ life.rank := by
  have sorted := sorted_lives (read (Text.lines (text ++ printRunReport o))).ending.entryOf
  change (lastStatuses (readStatus o text) (readLives o text) []).get entry = _ ↔ _
  have highest : ∀ status', (lastStatuses (readStatus o text) (readLives o text) []).get entry =
      some status' → ∃ life, Told o text life status' ∧ life.entry = entry ∧
        ∀ life' status'', Told o text life' status'' → life'.entry = entry →
          life'.rank ≤ life.rank := by
    intro status' isStatus
    obtain ⟨life, isLast⟩ := exists_isLast sorted isStatus
    refine ⟨life, told_iff.mpr ⟨isLast.present, isLast.isStatus⟩, isLast.isEntry, ?_⟩
    intro life' status'' told isEntry
    obtain ⟨present, hasStatus⟩ := told_iff.mp told
    exact isLast.highest life' present isEntry (Option.isSome_iff_exists.mpr ⟨_, hasStatus⟩)
  constructor
  · exact highest status
  · rintro ⟨life, told, rfl, above⟩
    obtain ⟨present, hasStatus⟩ := told_iff.mp told
    obtain ⟨status', isStatus⟩ := Option.isSome_iff_exists.mp
      (get_isSome present (Option.isSome_iff_exists.mpr ⟨_, hasStatus⟩))
    obtain ⟨life', told', isEntry, above'⟩ := highest status' isStatus
    -- Two lives that rank highest are one process
    have ranks := le_antisymm (above life' status' told' isEntry) (above' life status told rfl)
    have same : life'.process = life.process := (Prod.mk.inj (toLex.injective ranks)).2
    have hasStatus' := (told_iff.mp told').2
    rw [same, hasStatus] at hasStatus'
    rw [hasStatus']
    exact isStatus

theorem lastStatus_eq_none {entry : Nat} :
    (parse (text ++ printRunReport o)).lastStatus.get entry = none ↔
      ∀ life status, Told o text life status → life.entry ≠ entry := by
  constructor
  · rintro absent life status told rfl
    obtain ⟨present, hasStatus⟩ := told_iff.mp told
    have isSome : ((lastStatuses (readStatus o text) (readLives o text) []).get
        life.entry).isSome := get_isSome present (Option.isSome_iff_exists.mpr ⟨_, hasStatus⟩)
    change (lastStatuses (readStatus o text) (readLives o text) []).get life.entry = none at absent
    rw [absent] at isSome
    cases isSome
  · intro notTold
    refine Option.eq_none_iff_forall_ne_some.mpr fun status isStatus => ?_
    obtain ⟨life, told, isEntry, -⟩ := lastStatus_eq_some.mp isStatus
    exact notTold life status told isEntry

end Lives

/-! ## The verdict -/

theorem tells_parse_iff (o : RunOutcome) (text : Text) :
    (parse (text ++ printRunReport o)).Tells o ↔ Undisturbed o text := by
  constructor
  · intro tells
    refine ⟨(failure_parse_iff o text).mp tells.failure,
      (failureAt_parse_iff o text).mp tells.failureAt,
      (scheduleHash_parse_iff o text).mp tells.scheduleHash,
      fun life status told inside highest => ?_, fun entry inside lived => ?_⟩
    · rw [← tells.lastStatus life.entry inside]
      exact lastStatus_eq_some.mpr ⟨life, told, rfl, highest⟩
    · by_contra notTold
      have silent := lastStatus_eq_none.mpr fun life status told isEntry =>
        notTold ⟨life, status, told, isEntry⟩
      rw [tells.lastStatus entry inside, Option.map_eq_none_iff] at silent
      exact lived silent
  · intro undisturbed
    refine ⟨(failure_parse_iff o text).mpr undisturbed.failure,
      (failureAt_parse_iff o text).mpr undisturbed.failureAt,
      (scheduleHash_parse_iff o text).mpr undisturbed.scheduleHash, fun entry inside => ?_⟩
    cases isStatus : (parse (text ++ printRunReport o)).lastStatus.get entry with
    | some status =>
        obtain ⟨life, told, rfl, highest⟩ := lastStatus_eq_some.mp isStatus
        exact (undisturbed.lives life status told inside highest).symm
    | none =>
        cases isLast : o.lastLife entry with
        | none => rfl
        | some last =>
            obtain ⟨life, status, told, isEntry⟩ := undisturbed.present entry inside
              (Option.ne_none_iff_exists'.mpr ⟨last, isLast⟩)
            exact absurd isEntry (lastStatus_eq_none.mp isStatus life status told)

theorem hex_ne_nil (digits n : Nat) : hex digits n ≠ [] := by
  unfold hex
  exact List.append_ne_nil_of_right_ne_nil _ Nat.toDigits_ne_nil

theorem printRunReport_ne_nil (o : RunOutcome) : printRunReport o ≠ [] := by
  unfold printRunReport
  rw [List.flatMap_cons]
  exact List.append_ne_nil_of_left_ne_nil (by simp) _

/-- The ending that is read behind what guests wrote is the run's exactly when they wrote a
text, and the lines that are not the launcher's change nothing.  Two such endings fail alike
by the two outcomes alone. -/
theorem tells_iff_undisturbed (o : RunOutcome) (written : ByteArray) (timedOut : Bool) :
    ((ofRun (written ++ (printRunReport o).utf8Encode) timedOut).Tells o ↔
        ∃ text : Text, written = text.utf8Encode ∧ Undisturbed o text) ∧
      ∀ (o' : RunOutcome) (reference : Ending), reference.Tells o' → o'.initial = o.initial →
        (ofRun (written ++ (printRunReport o).utf8Encode) timedOut).Tells o →
          (ofRun (written ++ (printRunReport o).utf8Encode) timedOut).failsLike reference =
            match o'.failedLife with
            | some (entry, life) =>
                decide ((o.lastLife entry).map o.statusOf = some (o'.statusOf life))
            | none => false := by
  refine ⟨?_, fun o' reference tells' same tells => failsLike_of_tells tells tells' same⟩
  have drop : ∀ e : Ending, ({ e with timedOut } : Ending).Tells o ↔ e.Tells o := fun e =>
    ⟨fun tells => ⟨tells.failure, tells.failureAt, tells.scheduleHash, tells.lastStatus⟩,
      fun tells => ⟨tells.failure, tells.failureAt, tells.scheduleHash, tells.lastStatus⟩⟩
  unfold ofRun
  rw [drop]
  constructor
  · intro tells
    by_cases valid : (written ++ (printRunReport o).utf8Encode).IsValidUTF8
    · obtain ⟨text, rfl⟩ := valid_of_append (printRunReport_ne_nil o) valid
      rw [readToString_append] at tells
      exact ⟨text, rfl, (tells_parse_iff o text).mp tells⟩
    · -- Nothing is read, and no hash is empty
      rw [readToString_of_invalid valid] at tells
      exact absurd tells.scheduleHash.symm (hex_ne_nil _ _)
  · rintro ⟨text, rfl, undisturbed⟩
    rw [readToString_append]
    exact (tells_parse_iff o text).mpr undisturbed

section OneGuest

/-- A run of one entry, whose process exits with 0, and whose program's path has two
lines. -/
def oneGuest : RunOutcome where
  guests :=
    [{ status := 0, report := [], image := some "/x".toList, program := some "/bin/a\nb".toList,
       stopped := false }]
  initial := 1
  daemons := [false]
  specs := [some 0]
  totals :=
    { switches := 3, expiries := 2, scheduleHash := 0xC0FFEE, threads := 1, netConnections := 0,
      netDatagrams := 0, netDropped := 0, netBytes := 0, netPassthrough := 0, crashesInjected := 0,
      shutdownsInjected := 0, shutdownsForced := 0, pauses := 0, pctChanges := 0, pctStarved := 0,
      restarts := 0, clockNs := 1000, diedAt := [900], stoppedAt := 0, areTimes := by decide }
  wallLimited := false
  isSpec := rfl
  isDaemon := rfl
  isEntry := by simp
  started := le_rfl
  few := by decide

/-- No line but the launcher's tells of a life. -/
theorem silent_oneGuest (owner : Option Nat) (process : Text) {ending : Text}
    (isEnding : ending ∈ [STATUS, ENTRY]) :
    lastOf (keyed (process ++ ending)) (foreign oneGuest "hello\n".toList owner) = none := by
  have handed : handedOn oneGuest 0 =
      ["p0.program=/bin/a".toList, "b".toList, "p0.image=/x".toList] := by
    decide +kernel
  have lines : guestLines oneGuest "hello\n".toList =
      ["hello".toList, "run.processes=1".toList] := by
    decide
  have keys : ∀ line ∈ guestLines oneGuest "hello\n".toList ++ handedOn oneGuest 0,
      ∀ ending ∈ [STATUS, ENTRY],
        ((Text.splitOnce ['='] line).all fun parts => !ending.isSuffixOf parts.1) = true := by
    rw [handed, lines]
    decide
  refine lastOf_eq_none fun line present => ?_
  have among : line ∈ guestLines oneGuest "hello\n".toList ++ handedOn oneGuest 0 := by
    cases owner with
    | none => exact present
    | some i =>
        obtain ⟨process, isProcess, isLine⟩ := List.mem_flatMap.mp present
        exact List.mem_append_right _
          (List.mem_flatMap.mpr ⟨process, List.mem_of_mem_drop isProcess, isLine⟩)
  have noKey := keys line among ending isEnding
  unfold keyed
  cases split : Text.splitOnce ['='] line with
  | none => rfl
  | some parts =>
      refine if_neg fun isKey => ?_
      have isSuffix : ending.isSuffixOf parts.1 = true :=
        List.isSuffixOf_iff_suffix.mpr (isKey ▸ List.suffix_append process ending)
      rw [split, Option.all_some, isSuffix] at noKey
      cases noKey

theorem lastOf_keyedEntry_of_silent {process : Text} {lines : List Text}
    (silent : lastOf (keyed (process ++ ENTRY)) lines = none) :
    lastOf (keyedEntry process) lines = none := by
  refine lastOf_eq_none fun line present => ?_
  unfold keyedEntry
  rw [eq_none_of_lastOf silent line present]
  rfl

/-- The one life told of is the launcher's own. -/
theorem told_oneGuest {life : Life} {status : Text}
    (told : Told oneGuest "hello\n".toList life status) :
    life.entry = 0 ∧ status = "exit 0".toList := by
  have isEntry := told.isEntry
  rw [lastOf_keyedEntry_of_silent (silent_oneGuest _ _ (by decide)), Option.none_or] at isEntry
  unfold ownEntry at isEntry
  obtain ⟨i, isProcess, isSpec⟩ := Option.bind_eq_some_iff.mp isEntry
  have isStatus := told.isStatus
  rw [silent_oneGuest _ _ (by decide), Option.none_or] at isStatus
  unfold ownStatus at isStatus
  rw [isProcess, Option.map_some, Option.some_inj] at isStatus
  obtain rfl : i = 0 := Nat.lt_one_iff.mp (processOf_eq_some.mp isProcess).1
  exact ⟨(Option.some.inj isSpec).symm, isStatus.symm⟩

theorem tells_iff_undisturbed_hello :
    (ofRun ("hello\n".toList.utf8Encode ++ (printRunReport oneGuest).utf8Encode) false).Tells
      oneGuest := by
  have own : Told oneGuest "hello\n".toList { number := 0, process := processName 0, entry := 0 }
      "exit 0".toList := by
    refine ⟨by decide, ?_, ?_⟩
    · rw [lastOf_keyedEntry_of_silent (silent_oneGuest _ _ (by decide))]
      decide
    · rw [silent_oneGuest _ _ (by decide)]
      decide
  have run : ∀ key ∈ [FAILURE, FAILURE_AT, SCHEDULE_HASH], ∀ owner ∈ [none, some 0],
      lastOf (keyed key) (foreign oneGuest "hello\n".toList owner) = none := by
    decide +kernel
  refine (tells_iff_undisturbed oneGuest _ false).1.mpr ⟨_, rfl, ?_, ?_, ?_, ?_, ?_⟩
  · intro value told
    cases (run FAILURE (by decide) _ (by decide)).symm.trans told
  · intro value told
    cases (run FAILURE_AT (by decide) _ (by decide)).symm.trans told
  · intro value told
    cases (run SCHEDULE_HASH (by decide) _ (by decide)).symm.trans told
  · rintro life status told - -
    obtain ⟨isEntry, rfl⟩ := told_oneGuest told
    rw [isEntry]
    decide
  · rintro entry inside -
    exact ⟨_, _, own, (Nat.lt_one_iff.mp inside).symm⟩

/-- One line of a guest makes a failure of a run that did not fail. -/
theorem not_tells_forged :
    ¬ ∀ (o : RunOutcome) (text : Text), (parse (text ++ printRunReport o)).Tells o := by
  intro tells
  have failure := (tells oneGuest "run.failure=entry 0: exit 1\n".toList).failure
  revert failure
  decide +kernel

end OneGuest

end Derp
