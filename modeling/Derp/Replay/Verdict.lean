import Derp.Replay.Reading

/-!
# Whose verdict it is

A report tells of the run and of its processes in lines of the launcher's own, and hands on
what it was given: the paths of programs, which may hold ends of lines, and what the
processes report.  What a key tells is read from its last line.
-/

namespace Derp

open Ending

/-! ## What is printed in one line -/

/-- Characters that neither end a line nor a key. -/
def Plain (text : Text) : Prop := ∀ c ∈ text, c ≠ '\n' ∧ c ≠ '\r' ∧ c ≠ '='

instance (text : Text) : Decidable (Plain text) :=
  List.decidableBAll (fun c => c ≠ '\n' ∧ c ≠ '\r' ∧ c ≠ '=') text

theorem Plain.append {text text' : Text} (plain : Plain text) (plain' : Plain text') :
    Plain (text ++ text') := fun c present =>
  (List.mem_append.mp present).elim (plain c) (plain' c)

theorem plain_decimal (n : Nat) : Plain (Text.decimal n) := by
  intro c present
  have isDigit := Text.isDigit_of_mem_decimal present
  refine ⟨?_, ?_, ?_⟩
  · rintro rfl
    cases isDigit
  · rintro rfl
    cases isDigit
  · rintro rfl
    cases isDigit

theorem plain_toDigits {base : Nat} (isBase : 1 < base) (n : Nat) :
    Plain (Nat.toDigits base n) := by
  induction n using Nat.strongRecOn with
  | _ n ih =>
      rw [Nat.toDigits_eq_if isBase]
      have digit : ∀ d : Nat, Plain [d.digitChar] := by
        intro d c present
        obtain rfl := List.mem_singleton.mp present
        exact ⟨Nat.digitChar_ne _ rfl, Nat.digitChar_ne _ rfl, Nat.digitChar_ne _ rfl⟩
      split
      · exact digit n
      · refine (ih (n / base) (Nat.div_lt_self (by omega) isBase)).append (digit _)

theorem plain_hex (digits n : Nat) : Plain (RunOutcome.hex digits n) := by
  refine Plain.append (fun c present => ?_) (plain_toDigits (by decide) n)
  obtain rfl := List.eq_of_mem_replicate present
  decide

theorem plain_describeStatus (g : Guest) : Plain (RunOutcome.describeStatus g) := by
  unfold RunOutcome.describeStatus
  split
  · decide
  · split
    · exact Plain.append (by decide) (plain_decimal _)
    · exact Plain.append (by decide) (plain_decimal _)
    · decide

theorem Plain.isLine {text : Text} (plain : Plain text) : Text.IsLine text :=
  ⟨fun present => (plain _ present).1 rfl,
    fun isLast => (plain _ (List.mem_of_getLast? isLast)).2.1 rfl⟩

namespace RunOutcome

theorem isLine_print {key value : Text} (isKey : '\n' ∉ key) (isLine : Text.IsLine value) :
    Text.IsLine (print (key, value)) := by
  constructor
  · unfold print
    rw [List.mem_append, List.mem_cons]
    rintro (inKey | same | inValue)
    · exact isKey inKey
    · cases same
    · exact isLine.1 inValue
  · unfold print
    rw [List.getLast?_append_of_ne_nil _ (List.cons_ne_nil _ _)]
    cases value with
    | nil =>
        change ['='].getLast? ≠ some '\r'
        decide
    | cons c value =>
        rw [List.getLast?_cons_cons]
        exact isLine.2

theorem keyed_print {key value : Text} (isKey : '=' ∉ key) (key' : Text) :
    keyed key' (print (key, value)) = if key = key' then some value else none := by
  have split : Text.splitOnce ['='] (print (key, value)) = some (key, value) := by
    have := Text.splitOnce_append [] isKey value
    rwa [List.append_assoc] at this
  unfold keyed
  rw [split]

/-- What a field of a report tells of a key. -/
def tells (key : Text) (field : Text × Text) : Option Text :=
  if field.1 = key then some field.2 else none

/-! ## The fields of a report -/

/-- The keys of the run's totals, but for the hash. -/
def TOTALS : List Text :=
  ["threads", "switches", "expiries", "net_connections", "net_datagrams", "net_dropped",
    "net_bytes", "net_passthrough", "pauses", "pct_changes", "pct_starved", "crashes_injected",
    "shutdowns_injected", "shutdowns_forced", "restarts", "clock_ns", "stopped_at",
    "wall_limited", "cpu_user_ns", "cpu_system_ns"].map fun key => "run.".toList ++ key.toList

variable {o : RunOutcome} {field : Text × Text} {i : Nat} {g : Guest}

theorem total_cases (present : field ∈ totalFields o) :
    field.1 ∈ TOTALS ∧ Plain field.2 ∨ field = (SCHEDULE_HASH, hex 16 o.totals.scheduleHash) := by
  have number : ∀ key value, "run.".toList ++ String.toList key ∈ TOTALS →
      (total key value).1 ∈ TOTALS ∧ Plain (total key value).2 ∨
        total key value = (SCHEDULE_HASH, hex 16 o.totals.scheduleHash) :=
    fun key value isKey => Or.inl ⟨isKey, plain_decimal value⟩
  revert field
  unfold totalFields
  rw [List.forall_mem_append, List.forall_mem_append, List.forall_mem_append]
  refine ⟨⟨⟨?_, ?_⟩, ?_⟩, ?_⟩
  · simp only [List.forall_mem_cons]
    refine ⟨number _ _ ?_, number _ _ ?_, number _ _ ?_, Or.inr trivial, number _ _ ?_,
      number _ _ ?_, number _ _ ?_, number _ _ ?_, number _ _ ?_, number _ _ ?_, number _ _ ?_,
      number _ _ ?_,
      number _ _ ?_, number _ _ ?_, number _ _ ?_, number _ _ ?_, number _ _ ?_,
      fun _ absent => absurd absent List.not_mem_nil⟩
    all_goals decide
  · split
    · intro field present
      rw [List.mem_singleton.mp present]
      exact number _ _ (by decide)
    · intro field absent
      cases absent
  · split
    · intro field present
      rw [List.mem_singleton.mp present]
      exact Or.inl (by decide)
    · intro field absent
      cases absent
  · simp only [List.forall_mem_cons]
    refine ⟨number _ _ ?_, number _ _ ?_, fun _ absent => absurd absent List.not_mem_nil⟩
    all_goals decide

/-- The fields of the run as a whole. -/
def runFields (o : RunOutcome) : List (Text × Text) := totalFields o ++ failureFields o

theorem hash_mem (o : RunOutcome) :
    (SCHEDULE_HASH, hex 16 o.totals.scheduleHash) ∈ runFields o := by
  refine List.mem_append_left _ ?_
  unfold totalFields
  exact List.mem_append_left _ (List.mem_append_left _ (List.mem_append_left _
    (.tail _ (.tail _ (.tail _ (.head _))))))

theorem mem_failureFields (present : field ∈ failureFields o) :
    ∃ entry life, o.failedLife = some (entry, life) ∧
      (field = (FAILURE,
          "entry ".toList ++ Text.decimal entry ++ ": ".toList ++ o.statusOf life) ∨
        field = (FAILURE_AT, Text.decimal (o.totals.diedAt.getD life 0))) := by
  unfold failureFields at present
  split at present
  · rename_i entry life isFailed
    rw [List.mem_cons, List.mem_singleton] at present
    exact ⟨entry, life, isFailed, present⟩
  · cases present

theorem plain_statusOf (o : RunOutcome) (life : Nat) : Plain (o.statusOf life) := by
  unfold statusOf
  split
  · exact plain_describeStatus _
  · decide

theorem plain_processName (i : Nat) : Plain (processName i) := by
  intro c present
  obtain rfl | inNumber := List.mem_cons.mp present
  · decide
  · exact plain_decimal i c inNumber

/-- A field of a process, with the process in its key. -/
def named (i : Nat) (field : Text × Text) : Text × Text := (processName i ++ field.1, field.2)

theorem own_cases (present : field ∈ ownFields o i g) :
    field = (STATUS, describeStatus g) ∨
      (∃ at_, field = (".died_at".toList, Text.decimal at_)) ∨
        ∃ entry, o.specs[i]? = some (some entry) ∧ field = (ENTRY, Text.decimal entry) := by
  unfold ownFields at present
  rw [List.mem_append, List.mem_append] at present
  obtain (isStatus | died) | isEntry := present
  · exact Or.inl (List.mem_singleton.mp isStatus)
  · split at died
    · exact Or.inr (Or.inl ⟨_, List.mem_singleton.mp died⟩)
    · cases died
  · split at isEntry
    · rename_i entry isSpec
      exact Or.inr (Or.inr ⟨entry, isSpec, List.mem_singleton.mp isEntry⟩)
    · cases isEntry

theorem own_key (present : field ∈ ownFields o i g) : ∃ rest, field.1 = '.' :: rest := by
  obtain rfl | ⟨_, rfl⟩ | ⟨_, -, rfl⟩ := own_cases present
  · exact ⟨_, rfl⟩
  · exact ⟨_, rfl⟩
  · exact ⟨_, rfl⟩

/-! ## Processes by name -/

theorem processName_injective : Function.Injective processName := by
  intro i j same
  exact Text.decimal_injective (List.cons.inj same).2

/-- The process of that name, if the run has one. -/
def processOf (o : RunOutcome) (process : Text) : Option Nat :=
  (List.range o.guests.length).find? fun i => processName i = process

theorem processOf_eq_some {process : Text} :
    o.processOf process = some i ↔ i < o.guests.length ∧ process = processName i := by
  unfold processOf
  constructor
  · intro found
    have isName := List.find?_some found
    exact ⟨List.mem_range.mp (List.mem_of_find?_eq_some found), (of_decide_eq_true isName).symm⟩
  · rintro ⟨inside, rfl⟩
    cases found : (List.range o.guests.length).find? fun j => processName j = processName i with
    | none =>
        have := List.find?_eq_none.mp found i (List.mem_range.mpr inside)
        exact absurd (decide_eq_true rfl) this
    | some j =>
        have isName := List.find?_some found
        rw [processName_injective (of_decide_eq_true isName)]

/-- The status the report gives of a process. -/
def ownStatus (o : RunOutcome) (process : Text) : Option Text :=
  (o.processOf process).map o.statusOf

/-- The entry the report gives of a process. -/
def ownEntry (o : RunOutcome) (process : Text) : Option Nat :=
  (o.processOf process).bind fun i => o.specs.getD i none

/-- The process of that name, if it is a life of an entry. -/
def lifeOf (o : RunOutcome) (process : Text) : Option Nat :=
  (o.processOf process).filter fun i => (o.specs.getD i none).isSome

theorem number_processName (small : i < 2 ^ 64) : number (processName i) = some i := by
  unfold number processName
  rw [show 'p' :: Text.decimal i = ['p'] ++ Text.decimal i from rfl, Text.stripPrefix_append]
  exact Text.parseUnsigned_decimal small

/-- The name of a process with a number has no dot in it. -/
theorem dot_notMem {process : Text} {n : Nat} (isNumber : number process = some n) :
    '.' ∉ process := by
  unfold number at isNumber
  obtain ⟨rest, stripped, parsed⟩ := Option.bind_eq_some_iff.mp isNumber
  unfold Text.stripPrefix at stripped
  split_ifs at stripped with isPrefix
  obtain ⟨rest', rfl⟩ := List.isPrefixOf_iff_prefix.mp isPrefix
  obtain rfl : rest' = rest := Option.some.inj stripped
  have digits : ∀ text : Text, text.all Char.isDigit = true → '.' ∉ text := fun text areDigits
    present => absurd (List.all_eq_true.mp areDigits _ present) (by decide)
  have noDot : '.' ∉ rest' := by
    unfold Text.parseUnsigned at parsed
    dsimp only at parsed
    split_ifs at parsed with isNumber
    split at isNumber
    · rw [List.mem_cons, not_or]
      exact ⟨by decide, digits _ isNumber.2.1⟩
    · exact digits _ isNumber.2.1
  rw [List.singleton_append, List.mem_cons, not_or]
  exact ⟨by decide, noDot⟩

theorem dot_notMem_processName (i : Nat) : '.' ∉ processName i := fun present => by
  obtain same | inNumber := List.mem_cons.mp present
  · exact absurd same (by decide)
  · exact absurd (Text.isDigit_of_mem_decimal inNumber) (by decide)

/-- A key is cut at its first dot in one way. -/
theorem append_dot_inj {front front' rest rest' : Text} (noDot : '.' ∉ front)
    (noDot' : '.' ∉ front') (same : front ++ '.' :: rest = front' ++ '.' :: rest') :
    front = front' ∧ rest = rest' := by
  have cut := Text.splitOnce_append [] noDot rest
  have cut' := Text.splitOnce_append [] noDot' rest'
  rw [List.append_assoc, List.cons_append, List.nil_append] at cut cut'
  rw [same, cut', Option.some_inj, Prod.mk.injEq] at cut
  exact ⟨cut.1.symm, cut.2.symm⟩

theorem getD_specs {entry : Nat} :
    o.specs.getD i none = some entry ↔ o.specs[i]? = some (some entry) := by
  rw [List.getD_eq_getElem?_getD]
  cases o.specs[i]? with
  | none =>
      constructor
      · rintro ⟨⟩
      · rintro ⟨⟩
  | some spec => exact ⟨congrArg some, Option.some.inj⟩

theorem lifeOf_eq_some {process : Text} :
    o.lifeOf process = some i ↔
      ∃ entry, o.specs[i]? = some (some entry) ∧ process = processName i := by
  unfold lifeOf
  rw [Option.filter_eq_some_iff, processOf_eq_some, Option.isSome_iff_exists]
  constructor
  · rintro ⟨⟨-, isName⟩, entry, isSpec⟩
    exact ⟨entry, getD_specs.mp isSpec, isName⟩
  · rintro ⟨entry, isSpec, isName⟩
    refine ⟨⟨?_, isName⟩, entry, getD_specs.mpr isSpec⟩
    rw [← o.isSpec]
    exact (List.getElem?_eq_some_iff.mp isSpec).1

theorem lifeOf_processName {entry : Nat} (isSpec : o.specs[i]? = some (some entry)) :
    o.lifeOf (processName i) = some i :=
  lifeOf_eq_some.mpr ⟨entry, isSpec, rfl⟩

theorem ownEntry_processName {entry : Nat} (isSpec : o.specs[i]? = some (some entry)) :
    o.ownEntry (processName i) = some entry ∧
      o.ownStatus (processName i) = some (o.statusOf i) := by
  have inside : i < o.guests.length := by
    rw [← o.isSpec]
    exact (List.getElem?_eq_some_iff.mp isSpec).1
  unfold ownEntry ownStatus
  rw [processOf_eq_some.mpr ⟨inside, rfl⟩]
  exact ⟨getD_specs.mpr isSpec, rfl⟩

theorem ownEntry_eq_none {process : Text} :
    o.ownEntry process = none ↔ o.lifeOf process = none := by
  unfold ownEntry lifeOf
  cases o.processOf process with
  | none => exact Iff.rfl
  | some i =>
      rw [Option.bind_some, Option.filter_some]
      cases o.specs.getD i none with
      | none => exact ⟨fun _ => rfl, fun _ => rfl⟩
      | some entry =>
          constructor
          · rintro ⟨⟩
          · rintro ⟨⟩

/-! ## Fields of one line -/

/-- The lines that a field takes. -/
def fieldLines (field : Text × Text) : List Text := Text.lines (print field ++ ['\n'])

/-- Printed in one line, whose key ends at the first `=`. -/
def PlainField (field : Text × Text) : Prop := Plain field.1 ∧ Plain field.2

theorem PlainField.fieldLines (plain : PlainField field) : fieldLines field = [print field] :=
  Text.lines_of_isLine (isLine_print plain.1.isLine.1 plain.2.isLine)

theorem PlainField.keyed (plain : PlainField field) (key : Text) :
    keyed key (print field) = tells key field :=
  keyed_print (fun inside => (plain.1 _ inside).2.2 rfl) key

theorem lines_fields (fields : List (Text × Text)) :
    Text.lines ((fields.map print).flatMap (· ++ ['\n'])) = fields.flatMap fieldLines := by
  induction fields with
  | nil => rfl
  | cons field fields ih =>
      rw [List.map_cons, List.flatMap_cons, List.append_assoc, List.singleton_append,
        Text.lines_append, ih, List.flatMap_cons]
      rfl

theorem lines_plain {fields : List (Text × Text)} (plain : ∀ field ∈ fields, PlainField field) :
    fields.flatMap fieldLines = fields.map print := by
  induction fields with
  | nil => rfl
  | cons field fields ih =>
      rw [List.flatMap_cons, (plain field List.mem_cons_self).fieldLines,
        ih fun other present => plain other (List.mem_cons_of_mem _ present)]
      rfl

theorem lastOf_plain {fields : List (Text × Text)} (plain : ∀ field ∈ fields, PlainField field)
    (key : Text) : lastOf (keyed key) (fields.map print) = lastOf (tells key) fields := by
  rw [lastOf_map]
  exact lastOf_congr fun field present => (plain field present).keyed key

theorem plain_run (present : field ∈ runFields o) : PlainField field := by
  obtain inTotals | inFailure := List.mem_append.mp present
  · obtain ⟨isKey, isValue⟩ | rfl := total_cases inTotals
    · have keys : ∀ key ∈ TOTALS, Plain key := by decide
      exact ⟨keys _ isKey, isValue⟩
    · have isKey : Plain SCHEDULE_HASH := by decide
      exact ⟨isKey, plain_hex _ _⟩
  · obtain ⟨entry, life, -, rfl | rfl⟩ := mem_failureFields inFailure
    · have isKey : Plain FAILURE := by decide
      have start : Plain "entry ".toList := by decide
      have between : Plain ": ".toList := by decide
      exact ⟨isKey,
        ((start.append (plain_decimal entry)).append between).append (plain_statusOf o life)⟩
    · have isKey : Plain FAILURE_AT := by decide
      exact ⟨isKey, plain_decimal _⟩

theorem plain_own (present : field ∈ ownFields o i g) : PlainField (named i field) := by
  have name := plain_processName i
  obtain rfl | ⟨_, rfl⟩ | ⟨_, -, rfl⟩ := own_cases present
  · have isKey : Plain STATUS := by decide
    exact ⟨name.append isKey, plain_describeStatus g⟩
  · have isKey : Plain ".died_at".toList := by decide
    exact ⟨name.append isKey, plain_decimal _⟩
  · have isKey : Plain ENTRY := by decide
    exact ⟨name.append isKey, plain_decimal _⟩

/-- The run's keys start like `run`, the processes' like `p`. -/
theorem head_run (present : field ∈ runFields o) : field.1.head? = some 'r' := by
  obtain inTotals | inFailure := List.mem_append.mp present
  · obtain ⟨isTotal, -⟩ | rfl := total_cases inTotals
    · have runs : ∀ key ∈ TOTALS, key.head? = some 'r' := by decide
      exact runs _ isTotal
    · have isRun : SCHEDULE_HASH.head? = some 'r' := by decide
      exact isRun
  · obtain ⟨entry, life, -, rfl | rfl⟩ := mem_failureFields inFailure
    · have isRun : FAILURE.head? = some 'r' := by decide
      exact isRun
    · have isRun : FAILURE_AT.head? = some 'r' := by decide
      exact isRun

/-- A key of the run that is none of the totals' is a failure's. -/
theorem told_run {key : Text} (noTotal : key ∉ TOTALS) (noHash : key ≠ SCHEDULE_HASH) :
    lastOf (tells key) (runFields o) = lastOf (tells key) (failureFields o) := by
  have silent : lastOf (tells key) (totalFields o) = none := by
    refine lastOf_eq_none fun field present => if_neg ?_
    rintro rfl
    obtain ⟨isTotal, -⟩ | rfl := total_cases present
    · exact noTotal isTotal
    · exact noHash rfl
  unfold runFields
  rw [lastOf_append, silent, Option.or_none]

theorem told_failure (o : RunOutcome) :
    lastOf (tells FAILURE) (runFields o) = o.failedLife.map fun failed =>
      "entry ".toList ++ Text.decimal failed.1 ++ ": ".toList ++ o.statusOf failed.2 := by
  rw [told_run (by decide) (by decide)]
  unfold failureFields
  cases o.failedLife with
  | none => rfl
  | some failed => rfl

theorem told_failureAt (o : RunOutcome) :
    lastOf (tells FAILURE_AT) (runFields o) = o.failedLife.map fun failed =>
      Text.decimal (o.totals.diedAt.getD failed.2 0) := by
  rw [told_run (by decide) (by decide)]
  unfold failureFields
  cases o.failedLife with
  | none => rfl
  | some failed => rfl

theorem told_hash (o : RunOutcome) :
    lastOf (tells SCHEDULE_HASH) (runFields o) = some (hex 16 o.totals.scheduleHash) := by
  refine lastOf_eq_some (hash_mem o) (if_pos rfl) fun field present value told => ?_
  unfold tells at told
  split_ifs at told with isKey
  obtain rfl := Option.some.inj told
  obtain inTotals | inFailure := List.mem_append.mp present
  · obtain ⟨isTotal, -⟩ | rfl := total_cases inTotals
    · rw [isKey] at isTotal
      exact absurd isTotal (by decide)
    · rfl
  · obtain ⟨entry, life, -, rfl | rfl⟩ := mem_failureFields inFailure
    · have other : FAILURE ≠ SCHEDULE_HASH := by decide
      exact absurd isKey other
    · have other : FAILURE_AT ≠ SCHEDULE_HASH := by decide
      exact absurd isKey other

/-! ## Whose lines are whose -/

/-- The lines that end no later than the report's first. -/
def guestLines (o : RunOutcome) (text : Text) : List Text :=
  Text.lines (text ++ firstLine o ++ ['\n'])

/-- What the launcher prints of a process by itself. -/
def ownLines (o : RunOutcome) (process : Guest × Nat) : List Text :=
  (ownFields o process.2 process.1).map fun field => print (named process.2 field)

/-- What it hands on takes as many lines as it is given. -/
def toldLines (process : Guest × Nat) : List Text :=
  (toldFields process.1).flatMap fun field => fieldLines (named process.2 field)

/-- The lines handed on of the processes from the `k`-th on. -/
def handedOn (o : RunOutcome) (k : Nat) : List Text := (o.guests.zipIdx.drop k).flatMap toldLines

/-- The lines that are not the launcher's own, and are read after its own of a process, or
after none. -/
def foreign (o : RunOutcome) (text : Text) : Option Nat → List Text
  | some i => handedOn o i
  | none => guestLines o text ++ handedOn o 0

theorem lines_report (o : RunOutcome) (text : Text) :
    Text.lines (text ++ printRunReport o) =
      guestLines o text ++ (runFields o).map print ++
        o.guests.zipIdx.flatMap fun process => ownLines o process ++ toldLines process := by
  have processes : ∀ process : Guest × Nat,
      (processFields o process.2 process.1).flatMap fieldLines =
        ownLines o process ++ toldLines process := by
    rintro ⟨g, i⟩
    have own : ((ownFields o i g).map (named i)).flatMap fieldLines = ownLines o (g, i) := by
      rw [lines_plain, List.map_map]
      · rfl
      · intro field present
        obtain ⟨field', isOwn, rfl⟩ := List.mem_map.mp present
        exact plain_own isOwn
    change ((guestFields o i g).map (named i)).flatMap fieldLines = _
    unfold guestFields
    rw [List.map_append, List.flatMap_append, own]
    congr 1
    unfold toldLines
    rw [List.flatMap_map]
  unfold printRunReport guestLines
  rw [List.flatMap_cons, ← List.append_assoc, ← List.append_assoc, List.append_assoc _ ['\n'],
    List.singleton_append, Text.lines_append, lines_fields]
  have later : (laterFields o).flatMap fieldLines = (runFields o).map print ++
      o.guests.zipIdx.flatMap fun process => ownLines o process ++ toldLines process := by
    change (runFields o ++ _).flatMap fieldLines = _
    rw [List.flatMap_append, lines_plain fun field => plain_run, List.flatMap_assoc]
    congr 1
    exact List.flatMap_congr fun process _ => processes process
  rw [later, ← List.append_assoc]

section Readings

variable {β : Type} {f : Text → Option β} {value : β} (text : Text)

/-- What the launcher itself does not tell is read among the foreign lines. -/
theorem lastOf_none (notRun : ∀ field ∈ runFields o, f (print field) = none)
    (notOwn : ∀ process ∈ o.guests.zipIdx, ∀ line ∈ ownLines o process, f line = none) :
    lastOf f (Text.lines (text ++ printRunReport o)) = lastOf f (foreign o text none) := by
  have silent : lastOf f ((runFields o).map print) = none := by
    rw [lastOf_map]
    exact lastOf_eq_none notRun
  rw [lines_report, lastOf_append, lastOf_append, silent, Option.none_or,
    lastOf_flatMap_of_silent notOwn]
  unfold foreign handedOn
  rw [lastOf_append, List.drop_zero]

/-- What is told of the run stands, unless a process's lines tell otherwise. -/
theorem lastOf_run (isRun : lastOf f ((runFields o).map print) = some value)
    (notOwn : ∀ process ∈ o.guests.zipIdx, ∀ line ∈ ownLines o process, f line = none) :
    lastOf f (Text.lines (text ++ printRunReport o)) =
      (lastOf f (foreign o text (some 0))).or (some value) := by
  rw [lines_report, lastOf_append, lastOf_append, isRun, Option.some_or,
    lastOf_flatMap_of_silent notOwn]
  rfl

/-- What is told of a process stands, unless lines handed on of it or of later ones tell
otherwise. -/
theorem lastOf_own (isGuest : o.guests[i]? = some g)
    (isOwn : lastOf f (ownLines o (g, i)) = some value)
    (notOwn : ∀ process ∈ o.guests.zipIdx, process.2 ≠ i → ∀ line ∈ ownLines o process,
      f line = none) :
    lastOf f (Text.lines (text ++ printRunReport o)) =
      (lastOf f (foreign o text (some i))).or (some value) := by
  have isProcess : o.guests.zipIdx[i]? = some (g, i) := by
    rw [List.getElem?_zipIdx, isGuest, Nat.zero_add]
    rfl
  obtain ⟨inside, same⟩ := List.getElem?_eq_some_iff.mp isProcess
  have drop : o.guests.zipIdx.drop i = (g, i) :: o.guests.zipIdx.drop (i + 1) := by
    rw [List.drop_eq_getElem_cons inside, same]
  have later : ∀ process ∈ o.guests.zipIdx.drop (i + 1), ∀ line ∈ ownLines o process,
      f line = none := by
    intro process present
    refine notOwn process (List.mem_of_mem_drop present) fun isFirst => ?_
    obtain ⟨k, more, rfl⟩ := List.mem_iff_getElem.mp present
    rw [List.getElem_drop, List.getElem_zipIdx] at isFirst
    dsimp only at isFirst
    omega
  rw [lines_report, ← List.take_append_drop i o.guests.zipIdx, drop, List.flatMap_append,
    ← List.append_assoc, lastOf_append, lastOf_flatMap_of_own isOwn later, Option.or_assoc,
    Option.some_or, ← drop]
  rfl

end Readings

/-! ## What is read of a key -/

section Keys

variable {process : Text}

theorem head_of_number {n : Nat} (isNumber : number process = some n) :
    process.head? = some 'p' := by
  unfold number Text.stripPrefix at isNumber
  split_ifs at isNumber with isPrefix
  · obtain ⟨rest, rfl⟩ := List.isPrefixOf_iff_prefix.mp isPrefix
    rfl
  · cases isNumber

/-- Own lines tell of the process itself. -/
theorem keyed_own {line rest : Text} {value : Text} (noDot : '.' ∉ process)
    (present : line ∈ ownLines o (g, i)) (told : keyed (process ++ '.' :: rest) line = some value) :
    process = processName i ∧ ('.' :: rest, value) ∈ ownFields o i g := by
  obtain ⟨field, isOwn, rfl⟩ := List.mem_map.mp present
  rw [(plain_own isOwn).keyed] at told
  unfold tells at told
  split_ifs at told with isKey
  obtain ⟨rest', isDot⟩ := own_key isOwn
  obtain ⟨key, value'⟩ := field
  dsimp only at isDot
  subst isDot
  obtain ⟨isName, rfl⟩ := append_dot_inj (dot_notMem_processName i) noDot isKey
  obtain rfl := Option.some.inj told
  exact ⟨isName.symm, isOwn⟩

theorem own_eq_none {line key : Text} (isRun : key.head? = some 'r')
    (present : line ∈ ownLines o (g, i)) : keyed key line = none := by
  obtain ⟨field, isOwn, rfl⟩ := List.mem_map.mp present
  rw [(plain_own isOwn).keyed]
  refine if_neg ?_
  rintro rfl
  exact absurd (Option.some.inj isRun) (by decide)

theorem run_eq_none {key : Text} (isProcess : key.head? = some 'p')
    (present : field ∈ runFields o) :
    keyed key (print field) = none := by
  rw [(plain_run present).keyed]
  refine if_neg ?_
  rintro rfl
  have isRun := head_run present
  rw [isProcess] at isRun
  exact absurd (Option.some.inj isRun) (by decide)

/-- What is read of the run: its own, if it tells that and nothing is told behind. -/
theorem run_value (text : Text) {key : Text} (isRun : key.head? = some 'r') :
    lastOf (keyed key) (Text.lines (text ++ printRunReport o)) =
      (lastOf (keyed key)
        (foreign o text ((lastOf (tells key) (runFields o)).map fun _ => 0))).or
          (lastOf (tells key) (runFields o)) := by
  have notOwn : ∀ process ∈ o.guests.zipIdx, ∀ line ∈ ownLines o process, keyed key line = none :=
    fun _ _ _ present => own_eq_none isRun present
  have plain := lastOf_plain (fun field (present : field ∈ runFields o) => plain_run present) key
  cases told : lastOf (tells key) (runFields o) with
  | none =>
      rw [Option.or_none]
      refine lastOf_none text (fun field present => ?_) notOwn
      rw [told, lastOf_map] at plain
      exact eq_none_of_lastOf plain field present
  | some value => exact lastOf_run text (plain.trans told) notOwn

/-- What is read of a process's status. -/
theorem status_value (text : Text) {n : Nat} (isNumber : number process = some n) :
    lastOf (keyed (process ++ STATUS)) (Text.lines (text ++ printRunReport o)) =
      (lastOf (keyed (process ++ STATUS)) (foreign o text (o.processOf process))).or
        (o.ownStatus process) := by
  have noDot := dot_notMem isNumber
  have isProcess : (process ++ STATUS).head? = some 'p' := by
    rw [List.head?_append, head_of_number isNumber]
    rfl
  unfold ownStatus
  cases found : o.processOf process with
  | none =>
      rw [Option.map_none, Option.or_none]
      refine lastOf_none text (fun field => run_eq_none isProcess)
        fun ⟨g, i⟩ isGuest line present => ?_
      refine Option.eq_none_iff_forall_ne_some.mpr fun value told => ?_
      obtain ⟨rfl, -⟩ := keyed_own noDot present told
      have inside := (List.getElem?_eq_some_iff.mp (List.mem_zipIdx_iff_getElem?.mp isGuest)).1
      rw [processOf_eq_some.mpr ⟨inside, rfl⟩] at found
      cases found
  | some i =>
      obtain ⟨inside, rfl⟩ := processOf_eq_some.mp found
      have isGuest : o.guests[i]? = some o.guests[i] := List.getElem?_eq_getElem inside
      have isStatus : o.statusOf i = describeStatus o.guests[i] := by
        unfold statusOf
        rw [isGuest]
      have only : ∀ line ∈ ownLines o (o.guests[i], i), ∀ value,
          keyed (processName i ++ STATUS) line = some value →
            value = describeStatus o.guests[i] := by
        intro line present value told
        obtain ⟨-, isField⟩ := keyed_own noDot present told
        obtain same | ⟨_, same⟩ | ⟨_, -, same⟩ := own_cases isField
        · exact (Prod.mk.inj same).2
        · exact absurd (Prod.mk.inj same).1 (by decide)
        · exact absurd (Prod.mk.inj same).1 (by decide)
      have isOwn : (STATUS, describeStatus o.guests[i]) ∈ ownFields o i o.guests[i] :=
        List.mem_append_left _ (List.mem_append_left _ (List.mem_singleton_self _))
      rw [Option.map_some, isStatus]
      refine lastOf_own text isGuest
        (lastOf_eq_some (List.mem_map.mpr ⟨_, isOwn, rfl⟩) ?_ only) ?_
      · rw [(plain_own isOwn).keyed]
        exact if_pos rfl
      · rintro ⟨g, j⟩ - other line present
        refine Option.eq_none_iff_forall_ne_some.mpr fun value told => ?_
        obtain ⟨same, -⟩ := keyed_own noDot present told
        exact other (processName_injective same).symm

/-- What is read of a process's entry. -/
theorem entry_value (text : Text) {n : Nat} (isNumber : number process = some n) :
    lastOf (keyedEntry process) (Text.lines (text ++ printRunReport o)) =
      (lastOf (keyedEntry process) (foreign o text (o.lifeOf process))).or
        (o.ownEntry process) := by
  have noDot := dot_notMem isNumber
  have isProcess : (process ++ ENTRY).head? = some 'p' := by
    rw [List.head?_append, head_of_number isNumber]
    rfl
  have parsed : ∀ {entry}, some entry ∈ o.specs →
      Text.parseUnsigned 64 (Text.decimal entry) = some entry := fun isSpec =>
    Text.parseUnsigned_decimal
      (lt_of_lt_of_le (o.isEntry _ isSpec) (o.started.trans o.few.le))
  have only : ∀ {g i}, ∀ line ∈ ownLines o (g, i), ∀ entry, keyedEntry process line = some entry →
      process = processName i ∧ o.specs[i]? = some (some entry) := by
    intro g i line present entry told
    obtain ⟨value, isValue, isEntry⟩ := Option.bind_eq_some_iff.mp told
    obtain ⟨isName, isField⟩ := keyed_own noDot present isValue
    refine ⟨isName, ?_⟩
    obtain same | ⟨_, same⟩ | ⟨entry', isSpec, same⟩ := own_cases isField
    · exact absurd (Prod.mk.inj same).1 (by decide)
    · exact absurd (Prod.mk.inj same).1 (by decide)
    · rw [(Prod.mk.inj same).2, parsed (List.mem_of_getElem? isSpec), Option.some_inj] at isEntry
      rw [isSpec, isEntry]
  cases found : o.lifeOf process with
  | none =>
      rw [ownEntry_eq_none.mpr found, Option.or_none]
      refine lastOf_none text (fun field present => ?_) fun ⟨g, i⟩ isGuest line present => ?_
      · unfold keyedEntry
        rw [run_eq_none isProcess present]
        rfl
      · refine Option.eq_none_iff_forall_ne_some.mpr fun entry told => ?_
        obtain ⟨rfl, isSpec⟩ := only line present entry told
        rw [lifeOf_processName isSpec] at found
        cases found
  | some i =>
      obtain ⟨entry, isSpec, rfl⟩ := lifeOf_eq_some.mp found
      have inside : i < o.guests.length := by
        rw [← o.isSpec]
        exact (List.getElem?_eq_some_iff.mp isSpec).1
      have isOwn : (ENTRY, Text.decimal entry) ∈ ownFields o i o.guests[i] := by
        unfold ownFields
        rw [isSpec]
        exact List.mem_append_right _ (List.mem_singleton_self _)
      rw [(ownEntry_processName isSpec).1]
      refine lastOf_own text (List.getElem?_eq_getElem inside)
        (lastOf_eq_some (List.mem_map.mpr ⟨_, isOwn, rfl⟩) ?_ fun line present entry' told => ?_) ?_
      · have isTold : tells (processName i ++ ENTRY) (named i (ENTRY, Text.decimal entry)) =
            some (Text.decimal entry) := if_pos rfl
        unfold keyedEntry
        rw [(plain_own isOwn).keyed, isTold, Option.bind_some,
          parsed (List.mem_of_getElem? isSpec)]
      · have isSpec' := (only line present entry' told).2
        exact (Option.some.inj (Option.some.inj (isSpec.symm.trans isSpec'))).symm
      · rintro ⟨g, j⟩ - other line present
        refine Option.eq_none_iff_forall_ne_some.mpr fun entry' told => ?_
        exact other (processName_injective (only line present entry' told).1).symm

end Keys

end RunOutcome

end Derp
