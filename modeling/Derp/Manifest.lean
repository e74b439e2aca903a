import Derp.Library.Text
import Mathlib.Data.List.Nodup

/-!
# Run files

The hosts and the processes of a run file, as they are checked when the file is read.
Every host has a directory in the scratch directory, named like the host, and the
launcher has files of its own next to them, which take what the guests print.
-/

namespace Derp

namespace Manifest

/-- Every character that counts as white space. -/
def isWhitespace (c : Char) : Bool :=
  [0x20, 0x85, 0xA0, 0x1680, 0x2028, 0x2029, 0x202F, 0x205F, 0x3000].contains c.toNat ||
    (0x9 ≤ c.toNat && c.toNat ≤ 0xD) || (0x2000 ≤ c.toNat && c.toNat ≤ 0x200A)

def splitWhitespace (line : Text) : List Text :=
  (line.splitOnP isWhitespace).filter (· ≠ [])

/-- What a run file is refused for. -/
inductive Refusal
  /-- A variable of the supervisor's own -/
  | reserved (name : Text)
  | tooManyHosts
  | outsideNetwork (other : Text)
  /-- What the checks of the other settings report -/
  | setting (report : Text)
  | hostName (name : Text)
  | declaredTwice (name : Text)
  /-- What the checks of a process's faults report -/
  | faults (report : Text)
  | noProgram (host : Text)
  | noProcesses
  | tooManyProcesses
deriving DecidableEq, Repr

/-- A process with everything spelled out. -/
structure RawFull where
  argv : List Text
  env : List (Text × Text)
  daemon : Bool
  /-- What is wrong with its faults, if anything -/
  faults : Option Text

inductive RawProcess
  | line (text : Text)
  | argv (words : List Text)
  | full (process : RawFull)

structure RawHost where
  name : Text
  files : List Text
  processes : List RawProcess

structure RawRun where
  env : List Text
  passEnv : List Text
  outsideNetwork : Option Text
  /-- What is wrong with the settings, if anything -/
  settings : Option Text
  hosts : List RawHost

structure Host where
  name : Text
  files : List Text
deriving DecidableEq, Repr

structure Process where
  /-- The host's place among the hosts -/
  host : Nat
  argv : List Text
  env : List (Text × Text)
  daemon : Bool
deriving DecidableEq, Repr

end Manifest

/-- What is read from a run file. -/
structure Manifest where
  hosts : List Manifest.Host
  processes : List Manifest.Process
deriving DecidableEq, Repr

namespace Manifest

def REWRITE_ : Text := "REWRITE_".toList

def DYLD_ : Text := "DYLD_".toList

def checkNames : List Text → Except Refusal Unit
  | [] => .ok ()
  | name :: names =>
      if REWRITE_.isPrefixOf name || DYLD_.isPrefixOf name then .error (.reserved name)
      else checkNames names

def MAX_HOSTS : Nat := 32

def MAX_PROCESSES : Nat := 256

def STDOUT : Text := "stdout.".toList

def STDERR : Text := "stderr.".toList

/-- A host's name is the name of its directory too. -/
def validHostName (name : Text) : Bool :=
  name ≠ [] && (name.map Char.utf8Size).sum ≤ 63 && !(['.'].isPrefixOf name) &&
    !(STDOUT.isPrefixOf name) && name.all fun c => c.isAlphanum || c == '-' || c == '.'

def eqIgnoreAsciiCase (name name' : Text) : Bool := Text.fold name == Text.fold name'

/-- The arguments, variables and kind of a process. -/
def RawProcess.read : RawProcess → Except Refusal (List Text × List (Text × Text) × Bool)
  | .line text => .ok (splitWhitespace text, [], false)
  | .argv words => .ok (words, [], false)
  | .full process =>
      match checkNames (process.env.map (·.1)) with
      | .error refusal => .error refusal
      | .ok () =>
          match process.faults with
          | some report => .error (.faults report)
          | none => .ok (process.argv, process.env, process.daemon)

/-- The processes of a host, one behind the other. -/
def addProcesses (host : RawHost) (index : Nat) :
    List RawProcess → List Process → Except Refusal (List Process)
  | [], processes => .ok processes
  | raw :: rest, processes =>
      match raw.read with
      | .error refusal => .error refusal
      | .ok (argv, env, daemon) =>
          if argv = [] then .error (.noProgram host.name)
          else addProcesses host index rest (processes ++ [{ host := index, argv, env, daemon }])

/-- The hosts, each checked against those in front of it. -/
def addHosts : List RawHost → Manifest → Except Refusal Manifest
  | [], m => .ok m
  | host :: rest, m =>
      if ¬ validHostName host.name then .error (.hostName host.name)
      else if m.hosts.any fun other => eqIgnoreAsciiCase other.name host.name then
        .error (.declaredTwice host.name)
      else
        match addProcesses host m.hosts.length host.processes m.processes with
        | .error refusal => .error refusal
        | .ok processes =>
            addHosts rest
              { hosts := m.hosts ++ [{ name := host.name, files := host.files }], processes }

/-- Whether guests may leave the virtual network. -/
def outsideNetwork : Option Text → Except Refusal Bool
  | none => .ok false
  | some word =>
      if word = "refuse".toList then .ok false
      else if word = "allow".toList then .ok true
      else .error (.outsideNetwork word)

/-- What must not be wrong with the rest of the file. -/
def checkSettings (raw : RawRun) : Except Refusal Unit :=
  match checkNames raw.env, checkNames raw.passEnv with
  | .error refusal, _ => .error refusal
  | .ok (), .error refusal => .error refusal
  | .ok (), .ok () =>
      if MAX_HOSTS < raw.hosts.length then .error .tooManyHosts
      else
        match outsideNetwork raw.outsideNetwork, raw.settings with
        | .error refusal, _ => .error refusal
        | .ok _, some report => .error (.setting report)
        | .ok _, none => .ok ()

def parse (raw : RawRun) : Except Refusal Manifest :=
  match checkSettings raw with
  | .error refusal => .error refusal
  | .ok () =>
      match addHosts raw.hosts { hosts := [], processes := [] } with
      | .error refusal => .error refusal
      | .ok m =>
          if m.processes = [] then .error .noProcesses
          else if MAX_PROCESSES < m.processes.length then .error .tooManyProcesses
          else .ok m

/-! ## Names in the scratch directory -/

def stdoutFile (index : Nat) : Text := STDOUT ++ Text.decimal index

def stderrFile (index : Nat) : Text := STDERR ++ Text.decimal index

/-- What the launcher makes in the scratch directory: the hosts' directories, and a file
each for what every process prints. -/
def scratchNames (m : Manifest) : List Text :=
  m.hosts.map (·.name) ++ ((List.range m.processes.length).map stdoutFile ++
    (List.range m.processes.length).map stderrFile)

/-- No two names are one to a file system that does not tell upper from lower case. -/
def Apart (names : List Text) : Prop := (names.map Text.fold).Nodup

instance (names : List Text) : Decidable (Apart names) := by
  unfold Apart
  infer_instance

/-- Hosts that were accepted: their names are valid, and differ in more than case. -/
structure Accepted (hosts : List Host) : Prop where
  valid : ∀ host ∈ hosts, validHostName host.name = true
  apart : Apart (hosts.map (·.name))

theorem Accepted.append {hosts : List Host} (accepted : Accepted hosts) {host : Host}
    (valid : validHostName host.name = true)
    (other : (hosts.any fun h => eqIgnoreAsciiCase h.name host.name) = false) :
    Accepted (hosts ++ [host]) := by
  constructor
  · intro h present
    obtain before | rfl := List.mem_append.mp present |>.imp_right List.mem_singleton.mp
    · exact accepted.valid h before
    · exact valid
  · unfold Apart
    rw [List.map_append, List.map_append, List.map_singleton, List.map_singleton]
    refine List.nodup_append.mpr ⟨accepted.apart, List.nodup_singleton _, ?_⟩
    intro name known name' isNew same
    obtain rfl := List.mem_singleton.mp isNew
    rw [List.map_map, List.mem_map] at known
    obtain ⟨h, before, isName⟩ := known
    rw [List.any_eq_false] at other
    exact other h before (beq_iff_eq.mpr (isName.trans same))

/-- Every host that is added was accepted. -/
theorem accepted_addHosts {raw : List RawHost} {m m' : Manifest} (accepted : Accepted m.hosts)
    (added : addHosts raw m = .ok m') : Accepted m'.hosts := by
  induction raw generalizing m with
  | nil =>
      obtain rfl := Except.ok.inj added
      exact accepted
  | cons host rest ih =>
      unfold addHosts at added
      split_ifs at added with invalid twice
      cases processes : addProcesses host m.hosts.length host.processes m.processes with
      | error refusal =>
          rw [processes] at added
          cases added
      | ok processes' =>
          rw [processes] at added
          exact ih (accepted.append (by simpa using invalid) (by simpa using twice)) added

theorem accepted_parse {raw : RawRun} {m : Manifest} (parsed : parse raw = .ok m) :
    Accepted m.hosts := by
  unfold parse at parsed
  cases isChecked : checkSettings raw with
  | error refusal =>
      rw [isChecked] at parsed
      cases parsed
  | ok done =>
      rw [isChecked] at parsed
      cases isAdded : addHosts raw.hosts { hosts := [], processes := [] } with
      | error refusal =>
          rw [isAdded] at parsed
          cases parsed
      | ok m' =>
          rw [isAdded] at parsed
          dsimp only at parsed
          split_ifs at parsed
          obtain rfl := Except.ok.inj parsed
          refine accepted_addHosts ⟨fun _ absent => absurd absent List.not_mem_nil, ?_⟩ isAdded
          exact List.nodup_nil

/-- What is printed by one of the processes is caught in a file of that name, in some mix
of upper and lower case. -/
def Captures (count : Nat) (name : Text) : Prop :=
  (Text.fold (name.take 7) = STDOUT ∨ Text.fold (name.take 7) = STDERR) ∧
    ∃ index < count, name.drop 7 = Text.decimal index

theorem fold_eq_append_decimal {name start : Text} (long : start.length = 7) (index : Nat) :
    Text.fold name = start ++ Text.decimal index ↔
      Text.fold (name.take 7) = start ∧ name.drop 7 = Text.decimal index := by
  have split : Text.fold name = Text.fold (name.take 7) ++ Text.fold (name.drop 7) := by
    rw [← Text.fold_append, List.take_append_drop]
  have digits : Text.fold (name.drop 7) = Text.decimal index ↔ name.drop 7 = Text.decimal index :=
    Text.fold_eq_iff fun _ => Text.isDigit_of_mem_decimal
  constructor
  · intro same
    have whole := congrArg List.length same
    rw [Text.length_fold, List.length_append, long] at whole
    have length : (Text.fold (name.take 7)).length = start.length := by
      rw [Text.length_fold, List.length_take, long]
      omega
    obtain ⟨front, back⟩ := List.append_inj (split.symm.trans same) length
    exact ⟨front, digits.mp back⟩
  · rintro ⟨front, back⟩
    rw [split, front, digits.mpr back]

theorem fold_stdoutFile (index : Nat) : Text.fold (stdoutFile index) = stdoutFile index := by
  unfold stdoutFile
  rw [Text.fold_append, Text.fold_decimal]
  rfl

theorem fold_stderrFile (index : Nat) : Text.fold (stderrFile index) = stderrFile index := by
  unfold stderrFile
  rw [Text.fold_append, Text.fold_decimal]
  rfl

theorem captures_iff {count : Nat} {name : Text} :
    Captures count name ↔
      ∃ index < count, Text.fold name = stdoutFile index ∨ Text.fold name = stderrFile index := by
  unfold stdoutFile stderrFile Captures
  constructor
  · rintro ⟨start, index, inside, rest⟩
    refine ⟨index, inside, ?_⟩
    rw [fold_eq_append_decimal rfl, fold_eq_append_decimal rfl]
    exact start.imp (⟨·, rest⟩) (⟨·, rest⟩)
  · rintro ⟨index, inside, same⟩
    rw [fold_eq_append_decimal rfl, fold_eq_append_decimal rfl] at same
    obtain ⟨start, rest⟩ | ⟨start, rest⟩ := same
    · exact ⟨Or.inl start, index, inside, rest⟩
    · exact ⟨Or.inr start, index, inside, rest⟩

/-- The launcher's own files are apart. -/
theorem apart_files (count : Nat) :
    Apart ((List.range count).map stdoutFile ++ (List.range count).map stderrFile) := by
  have range := List.nodup_range (n := count)
  unfold Apart
  rw [List.map_append, List.map_map, List.map_map,
    show Text.fold ∘ stdoutFile = stdoutFile from funext fold_stdoutFile,
    show Text.fold ∘ stderrFile = stderrFile from funext fold_stderrFile]
  refine List.nodup_append.mpr ⟨range.map ?_, range.map ?_, ?_⟩
  · intro i j same
    exact Text.decimal_injective (List.append_cancel_left same)
  · intro i j same
    exact Text.decimal_injective (List.append_cancel_left same)
  · intro name isOut name' isErr same
    obtain ⟨i, -, rfl⟩ := List.mem_map.mp isOut
    obtain ⟨j, -, rfl⟩ := List.mem_map.mp isErr
    have starts := (List.append_inj same rfl).1
    revert starts
    decide

/-- The names in the scratch directory of a run file that was accepted are apart exactly
when no host is named like a file of the launcher's. -/
theorem apart_iff_not_captures {raw : RawRun} {m : Manifest} (parsed : parse raw = .ok m) :
    Apart (scratchNames m) ↔ ∀ host ∈ m.hosts, ¬ Captures m.processes.length host.name := by
  have hosts := (accepted_parse parsed).apart
  have files := apart_files m.processes.length
  unfold Apart at hosts files
  unfold Apart scratchNames
  rw [List.map_append, List.nodup_append]
  constructor
  · rintro ⟨-, -, apart⟩ host present captured
    obtain ⟨index, inside, same⟩ := captures_iff.mp captured
    have isName : host.name ∈ m.hosts.map (·.name) := List.mem_map_of_mem present
    refine apart _ (List.mem_map_of_mem isName) (Text.fold host.name) ?_ rfl
    rw [List.map_append, List.mem_append]
    have isIndex := List.mem_range.mpr inside
    obtain isOut | isErr := same
    · exact Or.inl (List.mem_map.mpr ⟨stdoutFile index, List.mem_map_of_mem isIndex,
        (fold_stdoutFile index).trans isOut.symm⟩)
    · exact Or.inr (List.mem_map.mpr ⟨stderrFile index, List.mem_map_of_mem isIndex,
        (fold_stderrFile index).trans isErr.symm⟩)
  · intro free
    refine ⟨hosts, files, ?_⟩
    rintro name isHost name' isFile rfl
    rw [List.map_map, List.mem_map] at isHost
    obtain ⟨host, present, rfl⟩ := isHost
    refine free host present (captures_iff.mpr ?_)
    rw [List.map_append, List.map_map, List.map_map] at isFile
    obtain isOut | isErr := List.mem_append.mp isFile
    · obtain ⟨index, inside, same⟩ := List.mem_map.mp isOut
      exact ⟨index, List.mem_range.mp inside, Or.inl (same.symm.trans (fold_stdoutFile index))⟩
    · obtain ⟨index, inside, same⟩ := List.mem_map.mp isErr
      exact ⟨index, List.mem_range.mp inside, Or.inr (same.symm.trans (fold_stderrFile index))⟩

/-- A run file of hosts with the processes on them. -/
def runFile (hosts : List (String × List String)) : RawRun where
  env := []
  passEnv := []
  outsideNetwork := none
  settings := none
  hosts := hosts.map fun host =>
    { name := host.1.toList, files := [], processes := host.2.map fun line => .line line.toList }

/-- Two hosts with three processes; one has the name of a file that a fourth would have. -/
def twoHosts : RawRun :=
  runFile [("alpha", ["server --port 80", "client"]), ("Stderr.3", ["server --port 81"])]

theorem apart_iff_not_captures_alpha :
    ∃ m, parse twoHosts = .ok m ∧ Apart (scratchNames m) ∧
      ∀ host ∈ m.hosts, ¬ Captures m.processes.length host.name := by
  obtain ⟨m, parsed, apart⟩ : ∃ m, parse twoHosts = .ok m ∧ Apart (scratchNames m) :=
    ⟨_, rfl, by decide⟩
  exact ⟨m, parsed, apart, (apart_iff_not_captures parsed).1 apart⟩

def oneHost (name : String) : RawRun := runFile [(name, ["server --port 80"])]

/-- Only one spelling of one of the two kinds of names is refused. -/
theorem not_apart_stderr :
    (∃ m, parse (oneHost "stderr.0") = .ok m ∧ ¬ Apart (scratchNames m)) ∧
      ∃ m, parse (oneHost "Stdout.0") = .ok m ∧ ¬ Apart (scratchNames m) :=
  ⟨⟨_, rfl, by decide⟩, _, rfl, by decide⟩

end Manifest

end Derp
