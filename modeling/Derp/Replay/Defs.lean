import Derp.Library.Assoc
import Derp.Library.Text
import Mathlib.Data.Char
import Mathlib.Data.List.Lex
import Mathlib.Data.List.Sort
import Mathlib.Data.Prod.Lex

/-!
# Endings of replays

A run prints a report of itself, and a tool that replays the run reads from it how it
ended: which entry failed and when, and the status of every entry's last life.  The
report comes behind whatever the guests wrote to the same place.
-/

namespace Derp

/-- What a run's report says about how it ended. -/
structure Ending where
  failure : Option (Nat × Text)
  failureAt : Nat
  scheduleHash : Text
  /-- The status of each entry's last life -/
  lastStatus : Assoc Nat Text
  /-- Which entry each process was a life of -/
  entryOf : Assoc Text Nat
  /-- What each process ran: the program, and the executable made from it -/
  programOf : Assoc Text (Text × Text)
  timedOut : Bool
deriving DecidableEq, Repr

namespace Ending

def default : Ending where
  failure := none
  failureAt := 0
  scheduleHash := []
  lastStatus := []
  entryOf := []
  programOf := []
  timedOut := false

/-- Whether the run failed as the reference did: the same entry ended with the same
status, whatever else went wrong besides. -/
def failsLike (e reference : Ending) : Bool :=
  match reference.failure with
  | some (entry, status) => e.lastStatus.get entry = some status
  | none => false

/-! ## Reading -/

/-- What was read so far, and the status of every process. -/
structure Reading where
  ending : Ending
  statusOf : Assoc Text Text
deriving DecidableEq, Repr

def STATUS : Text := ".status".toList

def ENTRY : Text := ".entry".toList

def PROGRAM : Text := ".program".toList

def IMAGE : Text := ".image".toList

def FAILURE : Text := "run.failure".toList

def FAILURE_AT : Text := "run.failure_at".toList

def SCHEDULE_HASH : Text := "run.schedule_hash".toList

def readFailure (value : Text) : Option (Nat × Text) :=
  match Text.stripPrefix "entry ".toList value with
  | none => none
  | some rest =>
      match Text.splitOnce ": ".toList rest with
      | none => none
      | some (n, status) => (Text.parseUnsigned 64 n).map fun entry => (entry, status)

/-- A line that tells about a process. -/
def Reading.process (r : Reading) (key value : Text) : Reading :=
  match Text.stripSuffix STATUS key with
  | some process => { r with statusOf := r.statusOf.insert process value }
  | none =>
      match Text.stripSuffix ENTRY key with
      | some process =>
          match Text.parseUnsigned 64 value with
          | some entry =>
              { r with ending :=
                { r.ending with entryOf := r.ending.entryOf.insert process entry } }
          | none => r
      | none =>
          match Text.stripSuffix PROGRAM key with
          | some process =>
              let entry := (r.ending.programOf.get process).getD ([], [])
              { r with ending :=
                { r.ending with programOf := r.ending.programOf.insert process (value, entry.2) } }
          | none =>
              match Text.stripSuffix IMAGE key with
              | some process =>
                  let entry := (r.ending.programOf.get process).getD ([], [])
                  { r with ending :=
                    { r.ending with
                      programOf := r.ending.programOf.insert process (entry.1, value) } }
              | none => r

def Reading.field (r : Reading) (key value : Text) : Reading :=
  if key = FAILURE then { r with ending := { r.ending with failure := readFailure value } }
  else if key = FAILURE_AT then
    { r with ending :=
      { r.ending with failureAt := (Text.parseUnsigned 64 value).getD 0 } }
  else if key = SCHEDULE_HASH then { r with ending := { r.ending with scheduleHash := value } }
  else r.process key value

def Reading.line (r : Reading) (line : Text) : Reading :=
  match Text.splitOnce ['='] line with
  | none => r
  | some (key, value) => r.field key value

def read (lines : List Text) : Reading :=
  lines.foldl Reading.line { ending := default, statusOf := [] }

/-- The number of a process. -/
def number (process : Text) : Option Nat :=
  (Text.stripPrefix ['p'] process).bind (Text.parseUnsigned 64)

/-- A process that was a life of an entry. -/
structure Life where
  number : Nat
  process : Text
  entry : Nat
deriving DecidableEq, Repr

/-- Where a life stands among the lives. -/
def Life.rank (life : Life) : Nat ×ₗ Text := toLex (life.number, life.process)

/-- Processes are numbered in the order of their creation. -/
def lives (entryOf : Assoc Text Nat) : List Life :=
  (entryOf.filterMap fun (process, entry) =>
    (number process).map fun number => { number, process, entry }).insertionSort
    fun life life' => life.rank ≤ life'.rank

/-- The highest of an entry is its last life. -/
def lastStatuses (statusOf : Assoc Text Text) : List Life → Assoc Nat Text → Assoc Nat Text
  | [], statuses => statuses
  | life :: lives, statuses =>
      lastStatuses statusOf lives
        (match statusOf.get life.process with
        | some status => statuses.insert life.entry status
        | none => statuses)

def parse (stderr : Text) : Ending :=
  let r := read (Text.lines stderr)
  { r.ending with lastStatus := lastStatuses r.statusOf (lives r.ending.entryOf) [] }

end Ending

/-! ## Printing -/

/-- What became of a process. -/
structure Guest where
  /-- The raw wait status -/
  status : Nat
  /-- What the process reported of itself -/
  report : Assoc Text Text
  image : Option Text
  program : Option Text
  /-- Killed because the run reached its stop time -/
  stopped : Bool
deriving DecidableEq, Repr

def Guest.exitCode (g : Guest) : Option Nat :=
  if g.status &&& 0x7F = 0 then some (g.status >>> 8 &&& 0xFF) else none

def Guest.signal (g : Guest) : Option Nat :=
  if g.status &&& 0x7F ≠ 0x7F ∧ g.status &&& 0x7F ≠ 0 then some (g.status &&& 0x7F) else none

structure Totals where
  switches : Nat
  expiries : Nat
  scheduleHash : Nat
  threads : Nat
  netConnections : Nat
  netDatagrams : Nat
  netDropped : Nat
  netBytes : Nat
  netPassthrough : Nat
  crashesInjected : Nat
  shutdownsInjected : Nat
  shutdownsForced : Nat
  pauses : Nat
  pctChanges : Nat
  pctStarved : Nat
  restarts : Nat
  clockNs : Nat
  /-- When each process died (0: it did not) -/
  diedAt : List Nat
  /-- The run reached its stop time (0: it did not) -/
  stoppedAt : Nat
  areTimes : ∀ at_ ∈ diedAt, at_ < 2 ^ 64

/-- What became of a run: its processes in the order of their creation, each a life of
an entry of the run file or a guest's child. -/
structure RunOutcome where
  guests : List Guest
  /-- How many of them the launcher started itself -/
  initial : Nat
  daemons : List Bool
  specs : List (Option Nat)
  totals : Totals
  wallLimited : Bool
  isSpec : specs.length = guests.length
  isDaemon : daemons.length = initial
  isEntry : ∀ entry, some entry ∈ specs → entry < initial
  started : initial ≤ guests.length
  few : guests.length < 2 ^ 64

namespace RunOutcome

def RUN_WIDE : List Text :=
  ["switches", "expiries", "schedule_hash", "pauses", "pct_changes", "pct_starved"].map
    String.toList

/-- A number in so many hexadecimal digits at least. -/
def hex (digits n : Nat) : Text :=
  List.replicate (digits - (Nat.toDigits 16 n).length) '0' ++ Nat.toDigits 16 n

def describeStatus (g : Guest) : Text :=
  if g.stopped then "stopped".toList
  else
    match g.exitCode, g.signal with
    | some code, _ => "exit ".toList ++ Text.decimal code
    | none, some signal => "signal ".toList ++ Text.decimal signal
    | none, none => "abnormal".toList

/-- The process that was the last life of an entry. -/
def lastLife (o : RunOutcome) (entry : Nat) : Option Nat :=
  ((List.range o.specs.length).filter fun life => o.specs[life]? = some (some entry)).getLast?

/-- Whether a process ended otherwise than it should. -/
def isFailed (o : RunOutcome) (life : Nat) : Bool :=
  match o.guests[life]? with
  | some g => !g.stopped && g.exitCode ≠ some 0
  | none => false

/-- The run-file entry that failed the run, and the process that was its last life. -/
def failedLife (o : RunOutcome) : Option (Nat × Nat) :=
  (((List.range o.initial).filter fun entry => !o.daemons.getD entry false).filterMap fun entry =>
    (o.lastLife entry).map fun life => (entry, life)).find? fun (_, life) => o.isFailed life

def statusOf (o : RunOutcome) (life : Nat) : Text :=
  match o.guests[life]? with
  | some g => describeStatus g
  | none => []

/-- The sum of a number that guests report. -/
def cpu (o : RunOutcome) (key : Text) : Nat :=
  (o.guests.filterMap fun g => (g.report.get key).bind (Text.parseUnsigned 64)).sum

/-- A field of the run as a whole. -/
def total (key : String) (value : Nat) : Text × Text :=
  ("run.".toList ++ key.toList, Text.decimal value)

def totalFields (o : RunOutcome) : List (Text × Text) :=
  [total "threads" o.totals.threads, total "switches" o.totals.switches,
    total "expiries" o.totals.expiries, (Ending.SCHEDULE_HASH, hex 16 o.totals.scheduleHash),
    total "net_connections" o.totals.netConnections, total "net_datagrams" o.totals.netDatagrams,
    total "net_dropped" o.totals.netDropped, total "net_bytes" o.totals.netBytes,
    total "net_passthrough" o.totals.netPassthrough, total "pauses" o.totals.pauses,
    total "pct_changes" o.totals.pctChanges, total "pct_starved" o.totals.pctStarved,
    total "crashes_injected" o.totals.crashesInjected,
    total "shutdowns_injected" o.totals.shutdownsInjected,
    total "shutdowns_forced" o.totals.shutdownsForced, total "restarts" o.totals.restarts,
    total "clock_ns" o.totals.clockNs] ++
  (if o.totals.stoppedAt ≠ 0 then [total "stopped_at" o.totals.stoppedAt] else []) ++
  (if o.wallLimited then [("run.wall_limited".toList, "true".toList)] else []) ++
  [total "cpu_user_ns" (o.cpu "cpu_user_ns".toList),
    total "cpu_system_ns" (o.cpu "cpu_system_ns".toList)]

def failureFields (o : RunOutcome) : List (Text × Text) :=
  match o.failedLife with
  | some (entry, life) =>
      [(Ending.FAILURE, "entry ".toList ++ Text.decimal entry ++ ": ".toList ++ o.statusOf life),
        (Ending.FAILURE_AT, Text.decimal (o.totals.diedAt.getD life 0))]
  | none => []

def processName (i : Nat) : Text := 'p' :: Text.decimal i

/-- What the launcher tells of a process by itself. -/
def ownFields (o : RunOutcome) (i : Nat) (g : Guest) : List (Text × Text) :=
  [(Ending.STATUS, describeStatus g)] ++
  (match o.totals.diedAt[i]? with
    | some at_ => [(".died_at".toList, Text.decimal at_)]
    | none => []) ++
  (match o.specs[i]? with
    | some (some entry) => [(Ending.ENTRY, Text.decimal entry)]
    | _ => [])

/-- What it hands on of a process: the paths of its program, and what it reports. -/
def toldFields (g : Guest) : List (Text × Text) :=
  (match g.program, g.image with
    | some program, some image => [(Ending.PROGRAM, program), (Ending.IMAGE, image)]
    | _, _ => []) ++
  (g.report.filter fun field => field.1 ∉ RUN_WIDE).map fun field => ('.' :: field.1, field.2)

def guestFields (o : RunOutcome) (i : Nat) (g : Guest) : List (Text × Text) :=
  ownFields o i g ++ toldFields g

def processFields (o : RunOutcome) (i : Nat) (g : Guest) : List (Text × Text) :=
  (guestFields o i g).map fun field => (processName i ++ field.1, field.2)

def print (field : Text × Text) : Text := field.1 ++ '=' :: field.2

/-- The first line of the report, which guests' text may stand in front of. -/
def firstLine (o : RunOutcome) : Text := print (total "processes" o.guests.length)

/-- The lines behind the first. -/
def laterFields (o : RunOutcome) : List (Text × Text) :=
  totalFields o ++ failureFields o ++
    (o.guests.zipIdx.flatMap fun (g, i) => processFields o i g)

/-- The aggregated report: run-wide totals, then each process's own fields. -/
def printRunReport (o : RunOutcome) : Text :=
  (firstLine o :: (laterFields o).map print).flatMap (· ++ ['\n'])

end RunOutcome

end Derp
