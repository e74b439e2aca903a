import Derp.Settings.Values

/-!
# Command lines and run files

The settings of a run come from the command line, else from the run file, else they are the
defaults.  A tool that replays a run lays the command line over the run file and spells out
what comes of it as the options of every replay.
-/

namespace Derp

namespace Settings

/-! ## Settings -/

/-- How often a chosen thread is paused, and for how long. -/
structure Pauses where
  num : Nat
  den : Nat
  loNs : Nat
  hiNs : Nat
deriving DecidableEq, Repr

def Pauses.OFF : Pauses := { num := 0, den := 1, loNs := 10000, hiNs := 100000000 }

def Pauses.DEFAULT : Pauses := { Pauses.OFF with num := 1, den := 200 }

/-- How the next thread is chosen. -/
structure Scheduler where
  kind : Nat
  pctDepth : Nat
  pctHorizonNs : Nat
  pctStarveNs : Nat
deriving DecidableEq, Repr

def Scheduler.RANDOM : Scheduler :=
  { kind := SCHED_RANDOM, pctDepth := 3, pctHorizonNs := 0, pctStarveNs := 50000000 }

/-- What a run is told. -/
structure RunSettings where
  seed : Nat := 0
  memRate : Nat × Nat := (0, 1)
  quantum : Nat × Nat := (1000, 10000)
  netLatencyNs : Nat := 0
  switchNs : Nat := 10000
  pauses : Pauses := Pauses.DEFAULT
  scheduler : Scheduler := Scheduler.RANDOM
  heapSize : Nat := 32 * 2 ^ 30
  heapRelease : Bool := true
  /-- The virtual time at which the run is over, zero when its processes are -/
  stopAfterNs : Nat := 0
deriving DecidableEq, Repr

/-! ## Options -/

/-- The options of the command line. -/
inductive Opt
  | seed | memHookRate | quantum | manifest | scratch | capture | captureStderr | netLatency
  | switchCost | pause | pauseFor | scheduler | pctDepth | pctHorizon | pctStarve | heapSize
  | heapRelease | wallLimit | stopAfter | reseedAt | jobs | resolution | reseed | noSupervisor
  | aslr | native | verbose | runs
deriving DecidableEq, Repr

/-- The long name without the dashes. -/
def Opt.name : Opt → Text
  | seed => "seed".toList
  | memHookRate => "mem-hook-rate".toList
  | quantum => "quantum".toList
  | manifest => "manifest".toList
  | scratch => "scratch".toList
  | capture => "capture".toList
  | captureStderr => "capture-stderr".toList
  | netLatency => "net-latency".toList
  | switchCost => "switch-cost".toList
  | pause => "pause".toList
  | pauseFor => "pause-for".toList
  | scheduler => "scheduler".toList
  | pctDepth => "pct-depth".toList
  | pctHorizon => "pct-horizon".toList
  | pctStarve => "pct-starve".toList
  | heapSize => "heap-size".toList
  | heapRelease => "heap-release".toList
  | wallLimit => "wall-limit".toList
  | stopAfter => "stop-after".toList
  | reseedAt => "reseed-at".toList
  | jobs => "jobs".toList
  | resolution => "resolution".toList
  | reseed => "reseed".toList
  | noSupervisor => "no-supervisor".toList
  | aslr => "aslr".toList
  | native => "native".toList
  | verbose => "verbose".toList
  | runs => "runs".toList

def OPTIONS : List Opt :=
  [.seed, .memHookRate, .quantum, .manifest, .scratch, .capture, .captureStderr, .netLatency,
    .switchCost, .pause, .pauseFor, .scheduler, .pctDepth, .pctHorizon, .pctStarve, .heapSize,
    .heapRelease, .wallLimit, .stopAfter, .reseedAt, .jobs, .resolution, .reseed, .noSupervisor,
    .aslr, .native, .verbose, .runs]

def Opt.flag (o : Opt) : Text := '-' :: '-' :: o.name

/-- The option that an argument is, by its name or by its letter. -/
def optionOf (a : Text) : Option Opt :=
  if a = "-v".toList then some .verbose else OPTIONS.find? fun o => o.flag = a

def Opt.takesValue : Opt → Bool
  | capture | captureStderr | noSupervisor | aslr | native | verbose => false
  | _ => true

/-- An argument: a text, or what a text that is none is taken for where a value is due. -/
structure Arg where
  text : Text
  utf8 : Bool := true
deriving DecidableEq, Repr

/-- A command line as it was read. -/
structure Cli extends RunSettings where
  /-- Settings given on the command line, which a run file cannot override -/
  given : List Opt := []
  supervisor : Bool := true
  manifest : Option Text := none
  scratch : Option Text := none
  capture : Bool := false
  captureStderr : Bool := false
  wallLimitMs : Nat := 0
  reseedAt : Option Nat := none
  reseed : Nat := 0
  jobs : Nat := 4
  resolutionNs : Nat := 2000000
  disableAslr : Bool := true
  native : Bool := false
  runs : Nat := 100
  verbose : Bool := false
  help : Bool := false
  rest : List Arg := []
deriving DecidableEq, Repr

/-! ## Values -/

def DURATION_FORMAT : Text :=
  "a whole number with ns, us, ms or s, such as 250us; a bare number is milliseconds".toList

def bad (what v form : Text) : Text :=
  "bad ".toList ++ what ++ ' ' :: v ++ " (".toList ++ form ++ ")".toList

def okOr {α : Type} (report : Text) : Option α → Except Text α
  | some value => .ok value
  | none => .error report

/-- A duration that is not zero. -/
def positive (what v : Text) : Except Text Nat :=
  okOr (bad what v ("above zero; ".toList ++ DURATION_FORMAT)) (parsePositive v)

/-- A duration that may be zero. -/
def duration (what v : Text) : Except Text Nat :=
  okOr (bad what v DURATION_FORMAT) (parseDurationNs v)

/-- At least a microsecond. -/
def switchCost (v : Text) : Except Text Nat :=
  okOr (bad "switch cost".toList v ("at least 1us; ".toList ++ DURATION_FORMAT))
    ((parseDurationNs v).filter fun ns => 1000 ≤ ns)

/-- A number above zero. -/
def count (what v : Text) : Except Text Nat :=
  okOr (bad what v "a whole number above zero".toList)
    ((Text.parseUnsigned 32 v).filter fun n => 0 < n)

/-- Take the value of an option. -/
def Cli.set (cli : Cli) (o : Opt) (v : Text) : Except Text Cli :=
  match o with
  | .seed =>
      (okOr (bad "seed".toList v "a whole number from 0 to 18446744073709551615".toList)
        (Text.parseUnsigned 64 v)).map fun seed => { cli with seed := seed }
  | .memHookRate =>
      (okOr (bad "mem-hook rate".toList v "0, 1 or a fraction N/M, such as 1/16".toList)
        (parseRate v)).map fun rate => { cli with memRate := rate }
  | .quantum =>
      (okOr (bad "quantum".toList v "LO..HI, hook events, such as 1000..10000".toList)
        (parseQuantum v)).map fun quantum => { cli with quantum := quantum }
  | .manifest => .ok { cli with manifest := some v }
  | .scratch => .ok { cli with scratch := some v }
  | .netLatency =>
      (duration "net latency".toList v).map fun ns => { cli with netLatencyNs := ns }
  | .switchCost => (Settings.switchCost v).map fun ns => { cli with switchNs := ns }
  | .pause =>
      (okOr (bad "pause chance".toList v "off, or N/M".toList) (parseChance v)).map fun chance =>
        { cli with pauses := { cli.pauses with num := chance.1, den := chance.2 } }
  | .pauseFor =>
      (okOr (bad "pause length".toList v
        "LO..HI or one duration, above zero, such as 10us..100ms".toList)
        (parsePauseFor v)).map fun range =>
          { cli with pauses := { cli.pauses with loNs := range.1, hiNs := range.2 } }
  | .scheduler =>
      (okOr (bad "scheduler".toList v "random or pct".toList) (parseScheduler v)).map fun kind =>
        { cli with scheduler := { cli.scheduler with kind := kind } }
  | .pctDepth =>
      (okOr (bad "PCT depth".toList v "1 to 16".toList)
        ((Text.parseUnsigned 32 v).bind parsePctDepth)).map fun depth =>
          { cli with scheduler := { cli.scheduler with pctDepth := depth } }
  | .pctHorizon =>
      (positive "pct horizon".toList v).map fun ns =>
        { cli with scheduler := { cli.scheduler with pctHorizonNs := ns } }
  | .pctStarve =>
      (positive "pct starve".toList v).map fun ns =>
        { cli with scheduler := { cli.scheduler with pctStarveNs := ns } }
  | .heapSize =>
      (okOr (bad "heap size".toList v "64M to 4T, with K, M, G or T, such as 32G".toList)
        (parseSize v)).map fun size => { cli with heapSize := size }
  | .heapRelease =>
      (okOr (bad "heap release".toList v "on or off".toList) (parseOnOff v)).map fun on =>
        { cli with heapRelease := on }
  | .wallLimit =>
      (positive "wall-limit".toList v).map fun ns => { cli with wallLimitMs := ns / 1000000 }
  | .stopAfter => (positive "stop-after".toList v).map fun ns => { cli with stopAfterNs := ns }
  | .reseedAt =>
      (duration "reseed time".toList v).map fun ns => { cli with reseedAt := some ns }
  | .jobs => (count "job count".toList v).map fun n => { cli with jobs := n }
  | .resolution => (positive "resolution".toList v).map fun ns => { cli with resolutionNs := ns }
  | .reseed =>
      (okOr (bad "reseed value".toList v "a seed: a whole number".toList)
        (Text.parseUnsigned 64 v)).map fun seed => { cli with reseed := seed }
  | .runs => (count "run count".toList v).map fun n => { cli with runs := n }
  | .capture | .captureStderr | .noSupervisor | .aslr | .native | .verbose => .ok cli

/-- Take an option that has no value. -/
def Cli.turn (cli : Cli) : Opt → Cli
  | .capture => { cli with capture := true }
  | .captureStderr => { cli with captureStderr := true }
  | .noSupervisor => { cli with supervisor := false }
  | .aslr => { cli with disableAslr := false }
  | .native => { cli with native := true }
  | .verbose => { cli with verbose := true }
  | _ => cli

/-- An option was given. -/
def Cli.give (cli : Cli) (o : Opt) : Cli := { cli with given := cli.given ++ [o] }

/-! ## Reading a command line -/

/-- Read options until there are no more. -/
def parseArgs (cli : Cli) : List Arg → Except Text Cli
  | [] => .ok { cli with rest := [] }
  | arg :: args =>
      let a := arg.text
      if arg.utf8 = false then .ok { cli with rest := arg :: args }
      else if a = "-h".toList ∨ a = "--help".toList then
        .ok { cli with help := true, rest := arg :: args }
      else if a = "--".toList then .ok { cli with rest := args }
      else
        match optionOf a with
        | some o =>
            if o.takesValue then
              match args with
              | [] => .error (a ++ " needs a value".toList)
              | v :: args =>
                  match cli.set o v.text with
                  | .error report => .error report
                  | .ok cli => parseArgs (cli.give o) args
            else parseArgs ((cli.turn o).give o) args
        | none =>
            if a.head? = some '-' ∧ 1 < a.length then
              .error ("unknown option ".toList ++ a ++ " (derp --help lists them)".toList)
            else .ok { cli with rest := arg :: args }

def parseCli (args : List Arg) : Except Text Cli :=
  match parseArgs {} args with
  | .error report => .error report
  | .ok cli =>
      if Opt.reseed ∈ cli.given ∧ cli.reseedAt = none then
        .error "--reseed needs --reseed-at: from when?".toList
      else if cli.reseedAt ≠ none ∧ Opt.reseed ∉ cli.given then
        .error "--reseed-at needs --reseed: starting over from which seed?".toList
      else if cli.native ∧ Opt.memHookRate ∈ cli.given then
        .error "--mem-hook-rate does nothing with --native: nothing is rewritten".toList
      else .ok cli

inductive Command
  | copy | scan | rewrite | run | bench | again | bisect | suspects | rooms
deriving DecidableEq, Repr

def Command.name : Command → Text
  | copy => "copy".toList
  | scan => "scan".toList
  | rewrite => "rewrite".toList
  | run => "run".toList
  | bench => "bench".toList
  | again => "repeat".toList
  | bisect => "bisect".toList
  | suspects => "suspects".toList
  | rooms => "rooms".toList

def Command.runs (cmd : Command) : Bool := cmd = .run || cmd = .again

def Command.replays (cmd : Command) : Bool := cmd = .bisect || cmd = .suspects

/-- Whether a command acts on an option, with a run file or without. -/
def takesOption (cmd : Command) (runFile : Bool) : Opt → Bool
  | .verbose => true
  | .seed | .memHookRate => cmd ≠ .copy && cmd ≠ .rooms
  | .manifest => cmd.runs || cmd.replays
  | .quantum | .pause | .pauseFor | .scheduler | .pctDepth | .pctHorizon | .pctStarve
  | .heapSize | .heapRelease | .stopAfter => cmd.runs || cmd.replays
  | .wallLimit | .noSupervisor | .aslr | .native => cmd.runs
  | .scratch | .netLatency | .switchCost => runFile && (cmd.runs || cmd.replays)
  | .capture | .captureStderr | .reseedAt | .reseed => runFile && cmd.runs
  | .jobs => cmd.replays
  | .resolution => cmd = .bisect
  | .runs => cmd = .again || cmd = .bisect

/-- Options that a command would ignore are refused instead. -/
def checkOptions (cmd : Command) (cli : Cli) : Except Text Unit :=
  let runFile := cli.manifest.isSome
  match cli.given.find? fun o => !takesOption cmd runFile o with
  | none => .ok ()
  | some o =>
      let without :=
        if takesOption cmd true o then " without a run file (--manifest)".toList else []
      .error (o.flag ++ " does nothing for derp ".toList ++ cmd.name ++ without)

/-- The tool goes to work: its options are its own, a run file is named and nothing else. -/
structure Accepted (tool : Command) (cli : Cli) : Prop where
  replays : tool.replays
  noHelp : cli.help = false
  options : checkOptions tool cli = .ok ()
  alone : cli.rest = []
  manifest : cli.manifest.isSome

/-! ## Run files -/

/-- The settings of a run file, as they are written. -/
structure RunFile where
  seed : Option UInt64 := none
  quantum : Option Text := none
  memHookRate : Option Text := none
  netLatency : Option Text := none
  switchCost : Option Text := none
  heapSize : Option Text := none
  heapRelease : Option Text := none
  stopAfter : Option Text := none
  wallLimit : Option Text := none
  pauseChance : Option Text := none
  pauseFor : Option Text := none
  scheduler : Option Text := none
  pctDepth : Option UInt32 := none
  pctHorizon : Option Text := none
  pctStarve : Option Text := none

/-- What the run file has for an option. -/
def RunFile.setting (m : RunFile) : Opt → Option Text
  | .quantum => m.quantum
  | .memHookRate => m.memHookRate
  | .netLatency => m.netLatency
  | .switchCost => m.switchCost
  | .pause => m.pauseChance
  | .pauseFor => m.pauseFor
  | .scheduler => m.scheduler
  | .pctDepth => m.pctDepth.map fun d => Text.decimal d.toNat
  | .pctHorizon => m.pctHorizon
  | .pctStarve => m.pctStarve
  | .heapSize => m.heapSize
  | .heapRelease => m.heapRelease
  | .stopAfter => m.stopAfter
  | .wallLimit => m.wallLimit
  | _ => none

/-- The run file's setting, unless the command line gave it. -/
def Cli.layer (m : RunFile) (cli : Cli) (o : Opt) : Except Text Cli :=
  match m.setting o with
  | some v => if o ∈ cli.given then .ok cli else cli.set o v
  | none => .ok cli

/-- The settings of a run file as they are gone over. -/
def LAYERS : List Opt :=
  [.quantum, .memHookRate, .netLatency, .switchCost, .pause, .pauseFor, .scheduler, .pctDepth,
    .pctHorizon, .pctStarve, .heapSize, .heapRelease, .stopAfter, .wallLimit]

/-- The run file's seed is a number already. -/
def Cli.layerSeed (m : RunFile) (cli : Cli) : Cli :=
  match m.seed with
  | some seed => if Opt.seed ∈ cli.given then cli else { cli with seed := seed.toNat }
  | none => cli

/-- Pauses were asked for: a run without the scheduler refuses them. -/
def Cli.askPauses (m : RunFile) (cli : Cli) : Cli :=
  if m.pauseChance.isSome then cli.give .pause else cli

/-- The run's settings: the run file's, unless the command line gave them. -/
def withRunFileSettings (cli : Cli) (m : RunFile) : Except Text Cli :=
  (LAYERS.foldlM (Cli.layer m) (cli.layerSeed m)).map (Cli.askPauses m)

/-- The change points need a span of virtual time to fall in: their own, or the run's. -/
def schedulerOf (cli : Cli) : Except Text Scheduler :=
  let s := cli.scheduler
  if s.kind = SCHED_PCT ∧ s.pctHorizonNs = 0 then
    if cli.stopAfterNs = 0 then
      .error ("the PCT scheduler needs --pct-horizon or --stop-after: ".toList ++
        "the span of virtual time its change points fall in".toList)
    else .ok { s with pctHorizonNs := cli.stopAfterNs }
  else .ok s

/-- Pauses are off where there is nothing to pause, unless they were asked for. -/
def pausesOf (cli : Cli) : Pauses :=
  if cli.supervisor && !cli.native || Opt.pause ∈ cli.given then cli.pauses else Pauses.OFF

/-! ## Replays -/

/-- A setting as it is spelled out. -/
def shown (s : RunSettings) : Opt → Text
  | .seed => Text.decimal s.seed
  | .quantum => showRange s.quantum
  | .memHookRate => showFraction s.memRate
  | .netLatency => inNs s.netLatencyNs
  | .switchCost => inNs s.switchNs
  | .heapSize => Text.decimal s.heapSize
  | .heapRelease => if s.heapRelease then "on".toList else "off".toList
  | .pause => showFraction (s.pauses.num, s.pauses.den)
  | .pauseFor => inNs s.pauses.loNs ++ ['.', '.'] ++ inNs s.pauses.hiNs
  | .scheduler => if s.scheduler.kind = SCHED_PCT then "pct".toList else "random".toList
  | .pctDepth => Text.decimal s.scheduler.pctDepth
  | .pctStarve => inNs s.scheduler.pctStarveNs
  | .pctHorizon => inNs s.scheduler.pctHorizonNs
  | .stopAfter => inNs s.stopAfterNs
  | _ => []

/-- The settings that are spelled out. -/
def spelled (s : RunSettings) : List Opt :=
  [.seed, .quantum, .memHookRate, .netLatency, .switchCost, .heapSize, .heapRelease, .pause,
    .pauseFor, .scheduler, .pctDepth, .pctStarve] ++
    (if s.scheduler.pctHorizonNs ≠ 0 then [.pctHorizon] else []) ++
    if s.stopAfterNs ≠ 0 then [.stopAfter] else []

def pass (s : RunSettings) : List Text := (spelled s).flatMap fun o => [o.flag, shown s o]

/-- The run a tool replays, with the options of every replay. -/
def replayOf (cli : Cli) (m : RunFile) (tool : Command) : Except Text (Cli × List Text) :=
  if cli.native || !cli.supervisor || !cli.disableAslr then
    .error (tool.name ++ " replays supervised runs: ".toList ++
      "--native, --no-supervisor and --aslr do not apply".toList)
  else (withRunFileSettings cli m).map fun cli => (cli, pass cli.toRunSettings)

/-- The arguments of `run` that a replay has. -/
def replayArgs (pass : List Text) (dir path : Arg) : List Arg :=
  [{ text := "--verbose".toList }, { text := "--capture".toList }] ++
    pass.map (fun text => { text := text }) ++
    [{ text := "--scratch".toList }, dir, { text := "--manifest".toList }, path]

end Settings

end Derp
