import Derp.Settings.CommandLine

/-!
# Every replay is that run

Whatever settings are read are in the bounds of their forms, so that they can be spelled out
and read again.  A setting that is spelled out is given, and the run file's does not count.
The two settings that are left out when they are zero are zero only where the run file has
none, so that the run file gives none to the replay either.
-/

namespace Derp

namespace Settings

variable {cli cli' laid : Cli} {s : RunSettings} {m : RunFile} {o : Opt} {v : Text}

theorem map_okOr_eq_ok {α β : Type} {report : Text} {x : Option α} {f : α → β} {b : β} :
    (okOr report x).map f = .ok b ↔ ∃ a, x = some a ∧ f a = b := by
  cases x with
  | none =>
      constructor
      · intro isOk
        cases isOk
      · rintro ⟨a, isSome, -⟩
        cases isSome
  | some a =>
      constructor
      · intro isOk
        exact ⟨a, rfl, Except.ok.inj isOk⟩
      · rintro ⟨a', isSome, rfl⟩
        rw [Option.some.inj isSome]
        rfl

theorem except_bind_eq_ok {α β : Type} {x : Except Text α} {f : α → Except Text β} {b : β} :
    (x >>= f) = .ok b ↔ ∃ a, x = .ok a ∧ f a = .ok b := by
  cases x with
  | error report =>
      constructor
      · intro isOk
        cases isOk
      · rintro ⟨a, isOk, -⟩
        cases isOk
  | ok a =>
      constructor
      · intro isOk
        exact ⟨a, rfl, isOk⟩
      · rintro ⟨a', isOk, rest⟩
        rw [Except.ok.inj isOk]
        exact rest

/-! ## Bounds -/

/-- Settings as they can be read. -/
structure Valid (s : RunSettings) : Prop where
  seed : s.seed < 2 ^ 64
  memRate : IsFraction s.memRate
  quantum : IsQuantum s.quantum
  netLatency : s.netLatencyNs ≤ MAX_DURATION_NS
  switchCost : 1000 ≤ s.switchNs ∧ s.switchNs ≤ MAX_DURATION_NS
  chance : IsFraction (s.pauses.num, s.pauses.den)
  length : 0 < s.pauses.loNs ∧ s.pauses.loNs ≤ s.pauses.hiNs ∧ s.pauses.hiNs ≤ MAX_DURATION_NS
  kind : s.scheduler.kind = SCHED_RANDOM ∨ s.scheduler.kind = SCHED_PCT
  depth : 1 ≤ s.scheduler.pctDepth ∧ s.scheduler.pctDepth ≤ MAX_PCT_DEPTH
  horizon : s.scheduler.pctHorizonNs ≤ MAX_DURATION_NS
  starve : 0 < s.scheduler.pctStarveNs ∧ s.scheduler.pctStarveNs ≤ MAX_DURATION_NS
  heapSize : SizeInRange s.heapSize
  stopAfter : s.stopAfterNs ≤ MAX_DURATION_NS

/-- The defaults are settings that can be read. -/
theorem valid_default : Valid {} where
  seed := by decide
  memRate := by unfold IsFraction; decide
  quantum := by unfold IsQuantum; decide
  netLatency := by decide
  switchCost := by decide
  chance := by unfold IsFraction; decide
  length := by decide
  kind := .inl rfl
  depth := by decide
  horizon := by decide
  starve := by decide
  heapSize := by decide
  stopAfter := by decide

theorem of_parseScheduler {kind : Nat} (parsed : parseScheduler v = some kind) :
    kind = SCHED_RANDOM ∨ kind = SCHED_PCT := by
  unfold parseScheduler at parsed
  split at parsed
  · exact .inl (Option.some.inj parsed).symm
  · split at parsed
    · exact .inr (Option.some.inj parsed).symm
    · cases parsed

theorem of_parsePctDepth {d depth : Nat} (parsed : parsePctDepth d = some depth) :
    1 ≤ depth ∧ depth ≤ MAX_PCT_DEPTH := by
  unfold parsePctDepth at parsed
  split at parsed
  · rename_i inRange
    rwa [← Option.some.inj parsed]
  · cases parsed

/-- What is read for an option is in its bounds. -/
theorem Valid.set (valid : Valid cli.toRunSettings) (isSet : cli.set o v = .ok cli') :
    Valid cli'.toRunSettings := by
  cases o with
  | seed =>
      obtain ⟨seed, parsed, rfl⟩ := map_okOr_eq_ok.mp isSet
      exact { valid with seed := Text.parseUnsigned_lt parsed }
  | memHookRate =>
      obtain ⟨rate, parsed, rfl⟩ := map_okOr_eq_ok.mp isSet
      exact { valid with memRate := isFraction_of_parseRate parsed }
  | quantum =>
      obtain ⟨quantum, parsed, rfl⟩ := map_okOr_eq_ok.mp isSet
      exact { valid with quantum := isQuantum_of_parseQuantum parsed }
  | netLatency =>
      obtain ⟨ns, parsed, rfl⟩ := map_okOr_eq_ok.mp isSet
      exact { valid with netLatency := le_of_parseDurationNs parsed }
  | switchCost =>
      obtain ⟨ns, parsed, rfl⟩ := map_okOr_eq_ok.mp isSet
      obtain ⟨parsed, enough⟩ := Option.filter_eq_some_iff.mp parsed
      exact { valid with
        switchCost := ⟨of_decide_eq_true enough, le_of_parseDurationNs parsed⟩ }
  | pause =>
      obtain ⟨chance, parsed, rfl⟩ := map_okOr_eq_ok.mp isSet
      exact { valid with chance := isFraction_of_parseChance parsed }
  | pauseFor =>
      obtain ⟨range, parsed, rfl⟩ := map_okOr_eq_ok.mp isSet
      exact { valid with length := of_parsePauseFor parsed }
  | scheduler =>
      obtain ⟨kind, parsed, rfl⟩ := map_okOr_eq_ok.mp isSet
      exact { valid with kind := of_parseScheduler parsed }
  | pctDepth =>
      obtain ⟨depth, parsed, rfl⟩ := map_okOr_eq_ok.mp isSet
      obtain ⟨d, -, parsed⟩ := Option.bind_eq_some_iff.mp parsed
      exact { valid with depth := of_parsePctDepth parsed }
  | pctHorizon =>
      obtain ⟨ns, parsed, rfl⟩ := map_okOr_eq_ok.mp isSet
      exact { valid with horizon := (of_parsePositive parsed).2 }
  | pctStarve =>
      obtain ⟨ns, parsed, rfl⟩ := map_okOr_eq_ok.mp isSet
      exact { valid with starve := of_parsePositive parsed }
  | heapSize =>
      obtain ⟨size, parsed, rfl⟩ := map_okOr_eq_ok.mp isSet
      exact { valid with heapSize := sizeInRange_of_parseSize parsed }
  | stopAfter =>
      obtain ⟨ns, parsed, rfl⟩ := map_okOr_eq_ok.mp isSet
      exact { valid with stopAfter := (of_parsePositive parsed).2 }
  | heapRelease | wallLimit | reseedAt | jobs | resolution | reseed | runs =>
      obtain ⟨value, -, rfl⟩ := map_okOr_eq_ok.mp isSet
      exact { valid with }
  | manifest | scratch | capture | captureStderr | noSupervisor | aslr | native | verbose =>
      obtain rfl := Except.ok.inj isSet
      exact { valid with }

/-! ## Two settings that may be left out -/

/-- Settings that were read, the done ones on the command line or in the run file. -/
structure Read (done : List Opt) (s : RunSettings) : Prop where
  valid : Valid s
  horizon : Opt.pctHorizon ∈ done → 0 < s.scheduler.pctHorizonNs
  stopAfter : Opt.stopAfter ∈ done → 0 < s.stopAfterNs

variable {done fewer : List Opt}

theorem read_default : Read [] {} where
  valid := valid_default
  horizon := fun absent => nomatch absent
  stopAfter := fun absent => nomatch absent

theorem Read.subset (read : Read done s) (isSubset : fewer ⊆ done) : Read fewer s where
  valid := read.valid
  horizon := fun present => read.horizon (isSubset present)
  stopAfter := fun present => read.stopAfter (isSubset present)

/-- An option that is set leaves the horizon and the stop time alone or makes them positive. -/
theorem grows_of_set (isSet : cli.set o v = .ok cli') :
    (cli'.scheduler.pctHorizonNs = cli.scheduler.pctHorizonNs ∧ o ≠ .pctHorizon ∨
        0 < cli'.scheduler.pctHorizonNs) ∧
      (cli'.stopAfterNs = cli.stopAfterNs ∧ o ≠ .stopAfter ∨ 0 < cli'.stopAfterNs) := by
  cases o with
  | pctHorizon =>
      obtain ⟨ns, parsed, rfl⟩ := map_okOr_eq_ok.mp isSet
      exact ⟨.inr (of_parsePositive parsed).1, .inl ⟨rfl, Opt.noConfusion⟩⟩
  | stopAfter =>
      obtain ⟨ns, parsed, rfl⟩ := map_okOr_eq_ok.mp isSet
      exact ⟨.inl ⟨rfl, Opt.noConfusion⟩, .inr (of_parsePositive parsed).1⟩
  | manifest | scratch | capture | captureStderr | noSupervisor | aslr | native | verbose =>
      obtain rfl := Except.ok.inj isSet
      exact ⟨.inl ⟨rfl, Opt.noConfusion⟩, .inl ⟨rfl, Opt.noConfusion⟩⟩
  | _ =>
      obtain ⟨value, -, rfl⟩ := map_okOr_eq_ok.mp isSet
      exact ⟨.inl ⟨rfl, Opt.noConfusion⟩, .inl ⟨rfl, Opt.noConfusion⟩⟩

theorem Read.set (read : Read done cli.toRunSettings) (isSet : cli.set o v = .ok cli') :
    Read (o :: done) cli'.toRunSettings := by
  obtain ⟨horizon, stop⟩ := grows_of_set isSet
  refine ⟨read.valid.set isSet, fun present => ?_, fun present => ?_⟩
  · rcases horizon with ⟨alike, other⟩ | positive
    · rw [alike]
      exact read.horizon ((List.mem_cons.mp present).resolve_left other.symm)
    · exact positive
  · rcases stop with ⟨alike, other⟩ | positive
    · rw [alike]
      exact read.stopAfter ((List.mem_cons.mp present).resolve_left other.symm)
    · exact positive

/-- An option without a value is none of a run's settings. -/
theorem Read.turn (read : Read done cli.toRunSettings) (flag : o.takesValue = false) :
    Read (o :: done) (cli.turn o).toRunSettings := by
  have same : (cli.turn o).toRunSettings = cli.toRunSettings := by cases o <;> rfl
  rw [same]
  refine ⟨read.valid, fun present => ?_, fun present => ?_⟩
  · refine read.horizon ((List.mem_cons.mp present).resolve_left ?_)
    rintro rfl
    cases flag
  · refine read.stopAfter ((List.mem_cons.mp present).resolve_left ?_)
    rintro rfl
    cases flag

/-! ## What a command line gives -/

/-- What an option leaves as it was. -/
structure Beside (cli cli' : Cli) : Prop where
  given : cli'.given = cli.given
  supervisor : cli'.supervisor = cli.supervisor
  native : cli'.native = cli.native

theorem Beside.refl (cli : Cli) : Beside cli cli := ⟨rfl, rfl, rfl⟩

theorem Beside.trans {cli'' : Cli} (first : Beside cli cli') (second : Beside cli' cli'') :
    Beside cli cli'' where
  given := second.given.trans first.given
  supervisor := second.supervisor.trans first.supervisor
  native := second.native.trans first.native

theorem beside_of_set (isSet : cli.set o v = .ok cli') : Beside cli cli' := by
  cases o with
  | manifest | scratch | capture | captureStderr | noSupervisor | aslr | native | verbose =>
      obtain rfl := Except.ok.inj isSet
      exact ⟨rfl, rfl, rfl⟩
  | _ =>
      obtain ⟨value, -, rfl⟩ := map_okOr_eq_ok.mp isSet
      exact ⟨rfl, rfl, rfl⟩

theorem give_subset : (cli.give o).given ⊆ o :: cli.given := by
  intro other present
  rcases List.mem_append.mp present with before | isNew
  · exact List.mem_cons_of_mem o before
  · exact List.mem_singleton.mp isNew ▸ List.mem_cons_self

theorem give_turn_subset : ((cli.turn o).give o).given ⊆ o :: cli.given := by
  have same : (cli.turn o).given = cli.given := by cases o <;> rfl
  exact same ▸ give_subset

theorem Read.parseArgs {args : List Arg} (read : Read cli.given cli.toRunSettings)
    (parsed : parseArgs cli args = .ok cli') : Read cli'.given cli'.toRunSettings := by
  fun_induction Settings.parseArgs cli args with
  | case1 | case2 | case3 | case4 | case10 =>
      obtain rfl := Except.ok.inj parsed
      exact read
  | case5 | case6 | case9 => cases parsed
  | case7 =>
      rename_i isSet ih
      refine ih ((read.set isSet).subset ?_) parsed
      rw [← (beside_of_set isSet).given]
      exact give_subset
  | case8 =>
      rename_i flag ih
      exact ih ((read.turn (Bool.eq_false_of_not_eq_true flag)).subset give_turn_subset) parsed

theorem read_of_parseCli {args : List Arg} (parsed : parseCli args = .ok cli) :
    Read cli.given cli.toRunSettings := by
  unfold parseCli at parsed
  split at parsed
  · cases parsed
  · rename_i read
    split_ifs at parsed
    obtain rfl := Except.ok.inj parsed
    exact read_default.parseArgs read

/-! ## What a run file adds -/

/-- The settings of a run file that are there. -/
def RunFile.has (m : RunFile) (o : Opt) : Bool := (m.setting o).isSome

/-- What came of going over settings of a run file. -/
structure Laid (m : RunFile) (layers done : List Opt) (cli laid : Cli) : Prop where
  read : Read (done ++ layers.filter m.has) laid.toRunSettings
  beside : Beside cli laid
  /-- Every setting that counts was fit to be read -/
  parsed : ∀ o ∈ layers, ∀ v, m.setting o = some v → o ∉ cli.given →
    ∃ before after : Cli, before.set o v = .ok after

theorem laid_of_foldlM {layers : List Opt} (read : Read done cli.toRunSettings)
    (given : cli.given ⊆ done) (isLaid : layers.foldlM (Cli.layer m) cli = .ok laid) :
    Laid m layers done cli laid := by
  induction layers generalizing cli done with
  | nil =>
      obtain rfl := Except.ok.inj isLaid
      refine ⟨read.subset ?_, .refl cli, fun o absent => nomatch absent⟩
      rw [List.filter_nil, List.append_nil]
      exact List.Subset.refl done
  | cons o layers ih =>
      rw [List.foldlM_cons] at isLaid
      obtain ⟨next, isNext, isLaid⟩ := except_bind_eq_ok.mp isLaid
      unfold Cli.layer at isNext
      cases setting : m.setting o with
      | none =>
          rw [setting] at isNext
          obtain rfl := Except.ok.inj isNext
          have later := ih read given isLaid
          have skipped : (o :: layers).filter m.has = layers.filter m.has := by
            rw [List.filter_cons_of_neg]
            rw [RunFile.has, setting]
            exact Bool.false_ne_true
          refine ⟨skipped ▸ later.read, later.beside, fun other present v isSetting => ?_⟩
          rcases List.mem_cons.mp present with rfl | present
          · rw [setting] at isSetting
            cases isSetting
          · exact later.parsed other present v isSetting
      | some v =>
          rw [setting] at isNext
          dsimp only at isNext
          have counted : (o :: layers).filter m.has = o :: layers.filter m.has := by
            rw [List.filter_cons_of_pos]
            rw [RunFile.has, setting]
            rfl
          have gathered : done ++ (o :: layers).filter m.has ⊆
              (o :: done) ++ layers.filter m.has := by
            rw [counted]
            exact List.perm_middle.subset
          split at isNext
          · rename_i isGiven
            obtain rfl := Except.ok.inj isNext
            have later := ih read given isLaid
            refine ⟨later.read.subset (List.Subset.trans gathered ?_), later.beside, ?_⟩
            · refine List.append_subset.mpr ⟨List.cons_subset.mpr ⟨?_, ?_⟩, ?_⟩
              · exact List.mem_append_left _ (given isGiven)
              · exact List.subset_append_left _ _
              · exact List.subset_append_right _ _
            · intro other present v' isSetting absent
              rcases List.mem_cons.mp present with rfl | present
              · exact absurd isGiven absent
              · exact later.parsed other present v' isSetting absent
          · have beside := beside_of_set isNext
            have later := ih (read.set isNext)
              (beside.given ▸ List.subset_cons_of_subset o given) isLaid
            refine ⟨later.read.subset gathered, beside.trans later.beside, ?_⟩
            intro other present v' isSetting absent
            rcases List.mem_cons.mp present with rfl | present
            · rw [setting] at isSetting
              exact ⟨cli, next, Option.some.inj isSetting ▸ isNext⟩
            · exact later.parsed other present v' isSetting (beside.given ▸ absent)

theorem has_of_setting (setting : m.setting o = some v) : m.has o = true := by
  rw [RunFile.has, setting]
  rfl

/-- What the settings are once the command line is laid over the run file. -/
theorem laid_of_withRunFileSettings (read : Read cli.given cli.toRunSettings)
    (isLaid : withRunFileSettings cli m = .ok laid) :
    ∃ before, laid = before.askPauses m ∧ Laid m LAYERS cli.given cli before := by
  unfold withRunFileSettings at isLaid
  have seeded : Read cli.given (cli.layerSeed m).toRunSettings ∧ Beside cli (cli.layerSeed m) := by
    unfold Cli.layerSeed
    split
    · split
      · exact ⟨read, .refl cli⟩
      · rename_i seed _ _
        exact ⟨⟨{ read.valid with seed := seed.toNat_lt }, read.horizon, read.stopAfter⟩,
          rfl, rfl, rfl⟩
    · exact ⟨read, .refl cli⟩
  cases folded : LAYERS.foldlM (Cli.layer m) (cli.layerSeed m) with
  | error report =>
      rw [folded] at isLaid
      cases isLaid
  | ok before =>
      rw [folded] at isLaid
      have laid := laid_of_foldlM seeded.1 (seeded.2.given ▸ List.Subset.refl _) folded
      exact ⟨before, (Except.ok.inj isLaid).symm, laid.read, seeded.2.trans laid.beside,
        fun o present v setting absent =>
          laid.parsed o present v setting (seeded.2.given ▸ absent)⟩

/-! ## What is spelled out -/

/-- One setting of another run. -/
def Cli.take (s : RunSettings) (cli : Cli) : Opt → Cli
  | .seed => { cli with seed := s.seed }
  | .quantum => { cli with quantum := s.quantum }
  | .memHookRate => { cli with memRate := s.memRate }
  | .netLatency => { cli with netLatencyNs := s.netLatencyNs }
  | .switchCost => { cli with switchNs := s.switchNs }
  | .heapSize => { cli with heapSize := s.heapSize }
  | .heapRelease => { cli with heapRelease := s.heapRelease }
  | .pause => { cli with pauses := { cli.pauses with num := s.pauses.num, den := s.pauses.den } }
  | .pauseFor =>
      { cli with pauses := { cli.pauses with loNs := s.pauses.loNs, hiNs := s.pauses.hiNs } }
  | .scheduler => { cli with scheduler := { cli.scheduler with kind := s.scheduler.kind } }
  | .pctDepth => { cli with scheduler := { cli.scheduler with pctDepth := s.scheduler.pctDepth } }
  | .pctStarve =>
      { cli with scheduler := { cli.scheduler with pctStarveNs := s.scheduler.pctStarveNs } }
  | .pctHorizon =>
      { cli with scheduler := { cli.scheduler with pctHorizonNs := s.scheduler.pctHorizonNs } }
  | .stopAfter => { cli with stopAfterNs := s.stopAfterNs }
  | _ => cli

/-- The settings that are spelled out whatever they are. -/
def ALWAYS : List Opt :=
  [.seed, .quantum, .memHookRate, .netLatency, .switchCost, .heapSize, .heapRelease, .pause,
    .pauseFor, .scheduler, .pctDepth, .pctStarve]

theorem mem_spelled :
    o ∈ spelled s ↔ o ∈ ALWAYS ∨ o = .pctHorizon ∧ s.scheduler.pctHorizonNs ≠ 0 ∨
      o = .stopAfter ∧ s.stopAfterNs ≠ 0 := by
  unfold spelled
  rw [List.append_assoc, List.mem_append, List.mem_append]
  refine or_congr Iff.rfl (or_congr ?_ ?_)
  · split_ifs with isSet
    · simp [isSet]
    · simp [isSet]
  · split_ifs with isSet
    · simp [isSet]
    · simp [isSet]

/-- What is spelled out is read as it was. -/
theorem set_shown (valid : Valid s) (isSpelled : o ∈ spelled s) (cli : Cli) :
    cli.set o (shown s o) = .ok (cli.take s o) := by
  have read {α β : Type} {report : Text} {x : Option α} {f : α → β} {a : α} (parsed : x = some a) :
      (okOr report x).map f = .ok (f a) := map_okOr_eq_ok.mpr ⟨a, parsed, rfl⟩
  rcases mem_spelled.mp isSpelled with always | ⟨rfl, nonzero⟩ | ⟨rfl, nonzero⟩
  · cases o with
    | seed => exact read (Text.parseUnsigned_decimal valid.seed)
    | quantum => exact read (parseQuantum_showRange valid.quantum)
    | memHookRate => exact read (parseRate_showFraction valid.memRate)
    | netLatency => exact read (parseDurationNs_inNs valid.netLatency)
    | switchCost =>
        refine read (Option.filter_eq_some_iff.mpr ⟨parseDurationNs_inNs valid.switchCost.2, ?_⟩)
        exact decide_eq_true valid.switchCost.1
    | heapSize => exact read (parseSize_decimal valid.heapSize)
    | heapRelease =>
        refine read ?_
        unfold shown
        cases s.heapRelease <;> rfl
    | pause => exact read (parseChance_showFraction valid.chance)
    | pauseFor => exact read (parsePauseFor_inNs valid.length.1 valid.length.2.1 valid.length.2.2)
    | scheduler =>
        refine read ?_
        unfold shown
        rcases valid.kind with isRandom | isPct
        · rw [isRandom]
          rfl
        · rw [isPct]
          rfl
    | pctDepth =>
        have small : s.scheduler.pctDepth < 2 ^ 32 := valid.depth.2.trans_lt (by decide)
        refine read (Option.bind_eq_some_iff.mpr ⟨_, Text.parseUnsigned_decimal small, ?_⟩)
        exact if_pos valid.depth
    | pctStarve => exact read (parsePositive_inNs valid.starve.1 valid.starve.2)
    | _ => exact absurd always (by decide)
  · exact read (parsePositive_inNs (Nat.pos_of_ne_zero nonzero) valid.horizon)
  · exact read (parsePositive_inNs (Nat.pos_of_ne_zero nonzero) valid.stopAfter)

/-- One setting after the other. -/
def Cli.takeAll (s : RunSettings) (cli : Cli) (opts : List Opt) : Cli :=
  opts.foldl (fun cli o => (cli.take s o).give o) cli

theorem takeAll_settings (noHorizon : cli.scheduler.pctHorizonNs = 0)
    (noStop : cli.stopAfterNs = 0) : (cli.takeAll s (spelled s)).toRunSettings = s := by
  obtain ⟨seed, memRate, quantum, latency, switchNs, pauses, ⟨kind, depth, horizon, starve⟩, size,
    release, stopAfter⟩ := s
  unfold spelled
  dsimp only
  split_ifs with hasHorizon hasStop hasStop
  · rfl
  · obtain rfl := (not_not.mp hasStop).trans noStop.symm
    rfl
  · obtain rfl := (not_not.mp hasHorizon).trans noHorizon.symm
    rfl
  · obtain rfl := (not_not.mp hasHorizon).trans noHorizon.symm
    obtain rfl := (not_not.mp hasStop).trans noStop.symm
    rfl

theorem given_takeAll (opts : List Opt) :
    (cli.takeAll s opts).given = cli.given ++ opts := by
  induction opts generalizing cli with
  | nil => exact (List.append_nil _).symm
  | cons o opts ih =>
      have same : ((cli.take s o).give o).given = cli.given ++ [o] := by cases o <;> rfl
      refine (@ih ((cli.take s o).give o)).trans ?_
      rw [same, List.append_assoc, List.singleton_append]

/-- A run of the supervisor's, without another stream from some time on. -/
structure Supervised (cli : Cli) : Prop where
  supervisor : cli.supervisor = true
  native : cli.native = false
  noReseed : cli.reseedAt = none
  noHelp : cli.help = false

theorem Supervised.takeAll (supervised : Supervised cli) (opts : List Opt) :
    Supervised (cli.takeAll s opts) := by
  induction opts generalizing cli with
  | nil => exact supervised
  | cons o opts ih =>
      refine @ih ((cli.take s o).give o) ?_
      cases o <;> exact ⟨supervised.1, supervised.2, supervised.3, supervised.4⟩

/-! ## What a replay reads -/

theorem optionOf_flag (o : Opt) : optionOf o.flag = some o := by
  cases o <;> decide

/-- The name of an option is no other kind of argument. -/
theorem flag_ne (o : Opt) :
    ¬ (o.flag = "-h".toList ∨ o.flag = "--help".toList) ∧ o.flag ≠ "--".toList := by
  cases o <;> decide

theorem parseArgs_flag {args : List Arg} (flag : o.takesValue = false) :
    parseArgs cli ({ text := o.flag } :: args) = parseArgs ((cli.turn o).give o) args := by
  conv_lhs => unfold parseArgs
  dsimp only
  rw [if_neg Bool.noConfusion, if_neg (flag_ne o).1, if_neg (flag_ne o).2, optionOf_flag]
  dsimp only
  rw [flag, if_neg Bool.false_ne_true]

theorem parseArgs_value {args : List Arg} {v : Arg} (value : o.takesValue = true)
    (isSet : cli.set o v.text = .ok cli') :
    parseArgs cli ({ text := o.flag } :: v :: args) = parseArgs (cli'.give o) args := by
  conv_lhs => unfold parseArgs
  dsimp only
  rw [if_neg Bool.noConfusion, if_neg (flag_ne o).1, if_neg (flag_ne o).2, optionOf_flag]
  dsimp only
  rw [if_pos value, isSet]

theorem takesValue_of_mem_spelled (isSpelled : o ∈ spelled s) : o.takesValue = true := by
  rcases mem_spelled.mp isSpelled with always | ⟨rfl, -⟩ | ⟨rfl, -⟩
  · have each : ∀ o ∈ ALWAYS, o.takesValue = true := by decide
    exact each o always
  · rfl
  · rfl

/-- The settings that are spelled out are taken one after the other. -/
theorem parseArgs_spelled (valid : Valid s) {opts : List Opt} (areSpelled : opts ⊆ spelled s)
    (args : List Arg) :
    parseArgs cli ((opts.flatMap fun o => [o.flag, shown s o]).map (fun text => { text := text }) ++
      args) = parseArgs (cli.takeAll s opts) args := by
  induction opts generalizing cli with
  | nil => rfl
  | cons o opts ih =>
      obtain ⟨isSpelled, others⟩ := List.cons_subset.mp areSpelled
      refine Eq.trans ?_ (@ih ((cli.take s o).give o) others)
      exact parseArgs_value (takesValue_of_mem_spelled isSpelled) (set_shown valid isSpelled cli)

/-- What a replay starts from. -/
def noted : Cli := { verbose := true, capture := true, given := [.verbose, .capture] }

/-- The command line of a replay. -/
def replayed (s : RunSettings) (dir path : Text) : Cli :=
  { noted.takeAll s (spelled s) with
    scratch := some dir
    manifest := some path
    given := noted.given ++ spelled s ++ [.scratch, .manifest]
    rest := [] }

theorem parseArgs_replayArgs (valid : Valid s) (dir path : Arg) :
    parseArgs {} (replayArgs (pass s) dir path) = .ok (replayed s dir.text path.text) := by
  have given : (noted.takeAll s (spelled s)).given = noted.given ++ spelled s := given_takeAll _
  unfold replayArgs
  rw [List.append_assoc]
  refine (parseArgs_flag (o := .verbose) rfl).trans ?_
  refine (parseArgs_flag (o := .capture) rfl).trans ?_
  refine (parseArgs_spelled valid (List.Subset.refl _) _).trans ?_
  refine (parseArgs_value (o := .scratch) rfl rfl).trans ?_
  refine (parseArgs_value (o := .manifest) rfl rfl).trans ?_
  have noted' : ((({} : Cli).turn .verbose).give .verbose |>.turn .capture).give .capture =
      noted := rfl
  rw [noted']
  unfold parseArgs replayed Cli.give
  dsimp only
  rw [given, List.append_assoc]
  rfl

theorem mem_given_replayed {dir path : Text} :
    o ∈ (replayed s dir path).given ↔
      o ∈ [Opt.verbose, .capture, .scratch, .manifest] ∨ o ∈ spelled s := by
  have parts : (replayed s dir path).given =
      [.verbose, .capture] ++ spelled s ++ [.scratch, .manifest] := rfl
  have own : o ∈ [Opt.verbose, .capture, .scratch, .manifest] ↔
      o ∈ [Opt.verbose, .capture] ∨ o ∈ [Opt.scratch, .manifest] :=
    List.mem_append (s := [Opt.verbose, .capture])
  rw [parts, own, List.mem_append, List.mem_append]
  exact or_right_comm

theorem supervised_replayed {dir path : Text} : Supervised (replayed s dir path) := by
  have supervised : Supervised (noted.takeAll s (spelled s)) :=
    @Supervised.takeAll noted s ⟨rfl, rfl, rfl, rfl⟩ (spelled s)
  unfold replayed
  generalize noted.takeAll s (spelled s) = taken at supervised
  exact ⟨supervised.1, supervised.2, supervised.3, supervised.4⟩

theorem parseCli_replayArgs (valid : Valid s) (dir path : Arg) :
    parseCli (replayArgs (pass s) dir path) = .ok (replayed s dir.text path.text) := by
  have supervised : Supervised (replayed s dir.text path.text) := supervised_replayed
  have noReseed : Opt.reseed ∉ (replayed s dir.text path.text).given := by
    rw [mem_given_replayed, mem_spelled]
    rintro (present | present | ⟨same, -⟩ | ⟨same, -⟩)
    · exact absurd present (by decide)
    · exact absurd present (by decide)
    · cases same
    · cases same
  unfold parseCli
  rw [parseArgs_replayArgs valid]
  dsimp only
  rw [if_neg fun both => noReseed both.1, if_neg fun both => both.1 supervised.noReseed, if_neg]
  rintro ⟨native, -⟩
  rw [supervised.native] at native
  cases native

/-- A run with a run file takes every option of a replay. -/
theorem checkOptions_replayed {dir path : Text} :
    checkOptions .run (replayed s dir path) = .ok () := by
  have none : (replayed s dir path).given.find? (fun o => !takesOption .run true o) = none := by
    refine List.find?_eq_none.mpr fun o present => ?_
    rw [Bool.not_eq_true, Bool.not_eq_false']
    rcases mem_given_replayed.mp present with own | isSpelled
    · have each : ∀ o ∈ [Opt.verbose, .capture, .scratch, .manifest],
          takesOption .run true o = true := by decide
      exact each o own
    · rcases mem_spelled.mp isSpelled with always | ⟨rfl, -⟩ | ⟨rfl, -⟩
      · have each : ∀ o ∈ ALWAYS, takesOption .run true o = true := by decide
        exact each o always
      · rfl
      · rfl
  unfold checkOptions
  have runFile : (replayed s dir path).manifest.isSome = true := rfl
  rw [runFile]
  dsimp only
  rw [none]

/-! ## Laid over the run file again -/

/-- Settings that are given, and a limit that is fit to be read, change no other. -/
theorem layers_again {layers : List Opt}
    (fits : ∀ o ∈ layers, ∀ v, m.setting o = some v →
      o ∈ cli.given ∨ o = .wallLimit ∧ ∃ ns, parsePositive v = some ns) :
    ∃ laid, layers.foldlM (Cli.layer m) cli = .ok laid ∧
      laid.toRunSettings = cli.toRunSettings ∧ Beside cli laid := by
  induction layers generalizing cli with
  | nil => exact ⟨cli, rfl, rfl, .refl cli⟩
  | cons o layers ih =>
      have one : ∃ next, cli.layer m o = .ok next ∧ next.toRunSettings = cli.toRunSettings ∧
          Beside cli next := by
        unfold Cli.layer
        cases setting : m.setting o with
        | none => exact ⟨cli, rfl, rfl, .refl cli⟩
        | some v =>
            dsimp only
            rcases fits o List.mem_cons_self v setting with isGiven | ⟨rfl, ns, parsed⟩
            · rw [if_pos isGiven]
              exact ⟨cli, rfl, rfl, .refl cli⟩
            · split_ifs
              · exact ⟨cli, rfl, rfl, .refl cli⟩
              · exact ⟨_, map_okOr_eq_ok.mpr ⟨ns, parsed, rfl⟩, rfl, rfl, rfl, rfl⟩
      obtain ⟨next, isNext, same, beside⟩ := one
      obtain ⟨laid, isLaid, sameLaid, besideLaid⟩ := @ih next fun other present v setting =>
        beside.given ▸ fits other (List.mem_cons_of_mem o present) v setting
      refine ⟨laid, ?_, sameLaid.trans same, beside.trans besideLaid⟩
      rw [List.foldlM_cons]
      exact except_bind_eq_ok.mpr ⟨next, isNext, isLaid⟩

/-- A tool that replays runs has no option that a replay lacks. -/
theorem Accepted.takes {tool : Command} (accepted : Accepted tool cli) (isGiven : o ∈ cli.given) :
    takesOption tool true o = true := by
  have options := accepted.options
  unfold checkOptions at options
  rw [accepted.manifest] at options
  dsimp only at options
  split at options
  · rename_i none
    have takes := List.find?_eq_none.mp none o isGiven
    rwa [Bool.not_eq_true, Bool.not_eq_false'] at takes
  · cases options

/-- Arguments of `run` that make the run what other settings made it. -/
def Repeats (m : RunFile) (laid : Cli) (args : List Arg) : Prop :=
  ∃ cli again, parseCli args = .ok cli ∧ cli.help = false ∧ cli.rest = [] ∧
    checkOptions .run cli = .ok () ∧ withRunFileSettings cli m = .ok again ∧
    again.toRunSettings = laid.toRunSettings ∧ pausesOf again = pausesOf laid ∧
    schedulerOf again = schedulerOf laid

theorem settings_replayed {dir path : Text} : (replayed s dir path).toRunSettings = s := by
  have taken : (noted.takeAll s (spelled s)).toRunSettings = s := takeAll_settings rfl rfl
  unfold replayed
  generalize noted.takeAll s (spelled s) = cli at taken
  exact taken

theorem settings_askPauses : (cli.askPauses m).toRunSettings = cli.toRunSettings := by
  unfold Cli.askPauses
  split <;> rfl

theorem beside_askPauses : (cli.askPauses m).supervisor = cli.supervisor ∧
    (cli.askPauses m).native = cli.native := by
  unfold Cli.askPauses
  split <;> exact ⟨rfl, rfl⟩

/-- Under the supervisor pauses are as they are set. -/
theorem pausesOf_eq (supervisor : cli.supervisor = true) (native : cli.native = false) :
    pausesOf cli = cli.pauses := by
  unfold pausesOf
  rw [supervisor, native]
  rfl

theorem schedulerOf_congr (same : cli'.toRunSettings = cli.toRunSettings) :
    schedulerOf cli' = schedulerOf cli := by
  unfold schedulerOf
  rw [same]

/-- What the run file has is spelled out, but for a limit that no tool takes. -/
theorem Laid.given_replayed {tool : Command} {before : Cli} (accepted : Accepted tool cli)
    (laid : Laid m LAYERS cli.given cli before) (isLayer : o ∈ LAYERS)
    (setting : m.setting o = some v) (dir path : Text) :
    o ∈ (replayed before.toRunSettings dir path).given ∨
      o = .wallLimit ∧ ∃ ns, parsePositive v = some ns := by
  have done : o ∈ cli.given ++ LAYERS.filter m.has :=
    List.mem_append_right _ (List.mem_filter.mpr ⟨isLayer, has_of_setting setting⟩)
  have spelled (isSpelled : o ∈ spelled before.toRunSettings) :
      o ∈ (replayed before.toRunSettings dir path).given :=
    mem_given_replayed.mpr (.inr isSpelled)
  have kinds : ∀ o ∈ LAYERS, o ∈ ALWAYS ∨ o = .pctHorizon ∨ o = .stopAfter ∨ o = .wallLimit := by
    decide
  rcases kinds o isLayer with always | rfl | rfl | rfl
  · exact .inl (spelled (mem_spelled.mpr (.inl always)))
  · exact .inl (spelled (mem_spelled.mpr (.inr (.inl ⟨rfl, (laid.read.horizon done).ne'⟩))))
  · exact .inl (spelled (mem_spelled.mpr (.inr (.inr ⟨rfl, (laid.read.stopAfter done).ne'⟩))))
  · have absent : Opt.wallLimit ∉ cli.given := by
      intro isGiven
      have refused : ∀ tool : Command, tool.replays = true →
          takesOption tool true .wallLimit = false := by
        intro tool
        cases tool <;> decide
      have takes := accepted.takes isGiven
      rw [refused tool accepted.replays] at takes
      cases takes
    obtain ⟨_, _, isSet⟩ := laid.parsed _ isLayer v setting absent
    obtain ⟨ns, parsed, -⟩ := map_okOr_eq_ok.mp isSet
    exact .inr ⟨rfl, ns, parsed⟩

/-- Every replay is the run that the tool's command line and the run file make. -/
theorem replay_repeats {args : List Arg} {tool : Command} {options : List Text}
    (parsed : parseCli args = .ok cli) (accepted : Accepted tool cli)
    (spells : replayOf cli m tool = .ok (laid, options)) (dir path : Arg) :
    withRunFileSettings cli m = .ok laid ∧ Repeats m laid (replayArgs options dir path) := by
  unfold replayOf at spells
  split_ifs at spells with unfit
  cases isLaid : withRunFileSettings cli m with
  | error report =>
      rw [isLaid] at spells
      cases spells
  | ok laid' =>
      rw [isLaid] at spells
      obtain ⟨rfl, rfl⟩ := Prod.mk.inj (Except.ok.inj spells)
      refine ⟨rfl, ?_⟩
      obtain ⟨before, rfl, laid⟩ := laid_of_withRunFileSettings (read_of_parseCli parsed) isLaid
      rw [settings_askPauses]
      generalize replays : replayed before.toRunSettings dir.text path.text = replay
      have supervised : Supervised replay := replays ▸ supervised_replayed
      have settings : replay.toRunSettings = before.toRunSettings := replays ▸ settings_replayed
      -- The seed is spelled out, so the run file's does not count
      have seeded : replay.layerSeed m = replay := by
        have isGiven : Opt.seed ∈ replay.given :=
          replays ▸ mem_given_replayed.mpr (.inr (mem_spelled.mpr (.inl List.mem_cons_self)))
        unfold Cli.layerSeed
        split
        · exact if_pos isGiven
        · rfl
      obtain ⟨again, isAgain, same, beside⟩ := @layers_again replay m LAYERS
        fun o isLayer v setting =>
          replays ▸ laid.given_replayed accepted isLayer setting dir.text path.text
      have alike : (again.askPauses m).toRunSettings = (before.askPauses m).toRunSettings := by
        rw [settings_askPauses, settings_askPauses, same, settings]
      refine ⟨replay, again.askPauses m, ?_, supervised.noHelp, ?_, ?_, ?_, alike, ?_,
        schedulerOf_congr alike⟩
      · rw [parseCli_replayArgs laid.read.valid, replays]
      · exact replays ▸ rfl
      · exact replays ▸ checkOptions_replayed
      · unfold withRunFileSettings
        rw [seeded, isAgain]
        rfl
      · rw [Bool.or_eq_true, Bool.or_eq_true, not_or, not_or, Bool.not_eq_true,
          Bool.not_eq_true', Bool.not_eq_false] at unfit
        rw [pausesOf_eq, pausesOf_eq, alike]
        · rw [beside_askPauses.1, laid.beside.supervisor]
          exact unfit.1.2
        · rw [beside_askPauses.2, laid.beside.native]
          exact unfit.1.1
        · rw [beside_askPauses.1, beside.supervisor]
          exact supervised.supervisor
        · rw [beside_askPauses.2, beside.native]
          exact supervised.native

/-- A command line of a tool, and what is read of it. -/
def pctArgs : List Arg :=
  [{ text := "--manifest".toList }, { text := "run.yaml".toList },
    { text := "--scheduler".toList }, { text := "pct".toList },
    { text := "--stop-after".toList }, { text := "5s".toList }]

def pctCli : Cli :=
  { manifest := some "run.yaml".toList
    scheduler := { Scheduler.RANDOM with kind := SCHED_PCT }
    stopAfterNs := 5000000000
    given := [.manifest, .scheduler, .stopAfter] }

theorem replay_repeats_pct :
    Repeats { seed := some 7, quantum := some "1..20".toList }
      { pctCli with seed := 7, quantum := (1, 20) }
      (replayArgs (pass { pctCli.toRunSettings with seed := 7, quantum := (1, 20) })
        { text := "slot00".toList } { text := "run.yaml".toList }) := by
  have parsed : parseCli pctArgs = .ok pctCli := by decide +kernel
  have spells : replayOf pctCli { seed := some 7, quantum := some "1..20".toList } .bisect =
      .ok ({ pctCli with seed := 7, quantum := (1, 20) },
        pass { pctCli.toRunSettings with seed := 7, quantum := (1, 20) }) := rfl
  exact (replay_repeats parsed ⟨rfl, rfl, rfl, rfl, rfl⟩ spells _ _).2

end Settings

end Derp
