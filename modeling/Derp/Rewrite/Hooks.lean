import Derp.Rewrite.Trampolines
import Derp.Rng

/-!
# What is hooked in a function

The rewriter goes through the words of a function in address order.  It hooks
backward branches, calls, indirect branches, counter reads and a random part of
the memory accesses, but leaves data in the code and the words of exclusive
spans as they are.
-/

namespace Derp

namespace Rewrite

structure Options where
  seed : Nat := 0
  /-- Probability of hooking a memory instruction, as a fraction -/
  memRate : Nat × Nat := (0, 1)
deriving DecidableEq, Repr

structure Stats where
  functions : Nat := 0
  stackTaintedFunctions : Nat := 0
  words : Nat := 0
  branchSites : Nat := 0
  callSites : Nat := 0
  counterSites : Nat := 0
  memCandidates : Nat := 0
  memSites : Nat := 0
  /-- Sites out of reach, left alone -/
  unreachableSites : Nat := 0
  /-- Function-table entries without a symbol, left alone -/
  unnamedEntries : Nat := 0
  unnamedAddrs : List Nat := []
  rooms : Nat := 0
  roomBytes : Nat := 0
  sitesPerMb : List Nat := []
  exclusiveWords : Nat := 0
  dataInCodeWords : Nat := 0
  skippedBlrX30 : Nat := 0
  stubBytes : Nat := 0
  memSiteAddrs : List Nat := []
deriving DecidableEq, Repr

/-- What is carried from word to word. -/
structure Hooking where
  b : Builder
  stats : Stats := {}
  rng : Rng

/-- The class of every word, each at its own address. -/
def classesOf (start : Nat) (words : List Nat) : List Class :=
  words.mapIdx fun i w => decode w (start + i * 4)

/-- Whether the word behind a store-exclusive is its retry. -/
def isRetry (pc : Nat) : Option Class → Bool
  | some (.cbz _ _ _ target) => target ≤ pc
  | some (.bCond _ target) => target ≤ pc
  | _ => false

/-- The words of exclusive spans, and the retry branch right behind a store:
whether a span is open, and whether a store's retry comes next. -/
def exclusives (pc : Nat) (isOpen retry : Bool) : List Class → List Bool
  | [] => []
  | .exclusiveLoad :: classes => true :: exclusives (pc + 4) true false classes
  | .exclusiveStore :: classes =>
      true :: exclusives (pc + 4) false (isRetry pc classes.head?) classes
  | _ :: classes => (retry || isOpen) :: exclusives (pc + 4) isOpen false classes

namespace Hooking

/-- Write a trampoline for a site, and count it if there was one. -/
def hook (s : Hooking) (pc : Nat) (guard : Guard) (call : Bool) (tail : Tail)
    (count : Stats → Stats) : Hooking :=
  let (b, placed) := s.b.stub pc guard call tail
  { s with b, stats := if placed then count s.stats else s.stats }

def hookCounter (s : Hooking) (pc rt : Nat) : Hooking :=
  let (b, placed) := s.b.counterStub pc rt
  let stats := s.stats
  { s with
    b
    stats := if placed then { stats with counterSites := stats.counterSites + 1 } else stats }

def countBranch (stats : Stats) : Stats := { stats with branchSites := stats.branchSites + 1 }

def countCall (stats : Stats) : Stats := { stats with callSites := stats.callSites + 1 }

def countMem (pc : Nat) (stats : Stats) : Stats :=
  { stats with memSites := stats.memSites + 1, memSiteAddrs := stats.memSiteAddrs ++ [pc] }

/-- A memory access is hooked with the given probability, and not at all where
the function keeps its stack to itself. -/
def hookMem (opts : Options) (stackTainted : Bool) (s : Hooking) (pc word base : Nat) : Hooking :=
  if (base = SP ∨ base = FP) ∧ ¬ stackTainted then s
  else
    let s := { s with stats := { s.stats with memCandidates := s.stats.memCandidates + 1 } }
    if opts.memRate.1 = 0 then s
    else
      let (roll, rng) := s.rng.below opts.memRate.2
      let s := { s with rng }
      if roll < opts.memRate.1 then s.hook pc .none false (.replay word) (countMem pc) else s

def hookClass (opts : Options) (stackTainted : Bool) (s : Hooking) (pc word : Nat) :
    Class → Hooking
  | .b target =>
      -- Not an island even out of its function: x16 may be live.
      if target ≤ pc then s.hook pc .none false (.jump target false) countBranch else s
  | .bl target => s.hook pc .none true (.jump target true) countCall
  | .blr rn =>
      if rn = 30 then
        { s with stats := { s.stats with skippedBlrX30 := s.stats.skippedBlrX30 + 1 } }
      else s.hook pc .none true (.indirect rn) countCall
  | .br rn => s.hook pc .none false (.indirect rn) countBranch
  | .bCond cond target =>
      if target ≤ pc then s.hook pc (.cond cond) false (.jump target false) countBranch else s
  | .cbz sf rt nonzero target =>
      if target ≤ pc then
        s.hook pc (.cbz sf rt nonzero) false (.jump target false) countBranch
      else s
  | .tbz rt bit nonzero target =>
      if target ≤ pc then
        s.hook pc (.tbz rt bit nonzero) false (.jump target false) countBranch
      else s
  | .counter rt => if rt < 29 then s.hookCounter pc rt else s
  | .mem base => s.hookMem opts stackTainted pc word base
  | _ => s

/-- One word of a function, if it is neither data nor exclusive. -/
def hookWord (opts : Options) (dic : List (Nat × Nat)) (stackTainted : Bool) (s : Hooking)
    (pc word : Nat) (exclusive : Bool) (cls : Class) : Hooking :=
  let s := { s with stats := { s.stats with words := s.stats.words + 1 } }
  if dic.any fun data => data.1 ≤ pc ∧ pc < data.2 then
    { s with stats := { s.stats with dataInCodeWords := s.stats.dataInCodeWords + 1 } }
  else if exclusive then
    { s with stats := { s.stats with exclusiveWords := s.stats.exclusiveWords + 1 } }
  else s.hookClass opts stackTainted pc word cls

/-- Whether the function hands out a stack address. -/
def tainted (classes : List Class) : Bool := classes.any fun c => c = .stackAddr

/-- Every word of a function, in address order. -/
def hookFunction (opts : Options) (dic : List (Nat × Nat)) (s : Hooking) (start : Nat)
    (words : List Nat) : Hooking :=
  let classes := classesOf start words
  let stackTainted := tainted classes
  let exclusive := exclusives start false false classes
  let stats := { s.stats with
    functions := s.stats.functions + 1
    stackTaintedFunctions := s.stats.stackTaintedFunctions + stackTainted.toNat }
  (List.range words.length).foldl (fun s i =>
    s.hookWord opts dic stackTainted (start + i * 4) (words.getD i 0) (exclusive.getD i false)
      (classes.getD i .other)) { s with stats }

end Hooking

/-! ## What one word does to the builder -/

/-- What a word would become in an area, if it is of a class that is hooked. -/
def planOf (stackTainted : Bool) (pc word : Nat) : Class → Option (Area → Option Trampoline)
  | .b target =>
      if target ≤ pc then some fun a => a.trampoline pc .none false (.jump target false)
      else none
  | .bl target => some fun a => a.trampoline pc .none true (.jump target true)
  | .blr rn => if rn = 30 then none else some fun a => a.trampoline pc .none true (.indirect rn)
  | .br rn => some fun a => a.trampoline pc .none false (.indirect rn)
  | .bCond cond target =>
      if target ≤ pc then some fun a => a.trampoline pc (.cond cond) false (.jump target false)
      else none
  | .cbz sf rt nonzero target =>
      if target ≤ pc then
        some fun a => a.trampoline pc (.cbz sf rt nonzero) false (.jump target false)
      else none
  | .tbz rt bit nonzero target =>
      if target ≤ pc then
        some fun a => a.trampoline pc (.tbz rt bit nonzero) false (.jump target false)
      else none
  | .counter rt => if rt < 29 then some fun a => a.counterTrampoline pc rt else none
  | .mem base =>
      if (base = SP ∨ base = FP) ∧ ¬ stackTainted then none
      else some fun a => a.trampoline pc .none false (.replay word)
  | _ => none

/-- A site leaves the areas and the lists as they are, or puts one trampoline
into one area. -/
inductive Builder.Hooked (plan : Option (Area → Option Trampoline)) (pc : Nat) (b : Builder) :
    Builder → Prop
  | untouched {b' : Builder}
      (areas_eq : b'.areas = b.areas)
      (patches_eq : b'.patches = b.patches)
      (sites_eq : b'.sites = b.sites) :
      Builder.Hooked plan pc b b'
  | placed {b' : Builder} (i : Nat) (a : Area) (t : Trampoline) (p : Area → Option Trampoline)
      (isPlan : plan = some p)
      (isArea : b.areas[i]? = some a)
      (planned : p a = some t)
      (takes : a.takes t = true)
      (areas_eq : b'.areas = b.areas.modify i fun a => { a with code := a.code ++ t.words })
      (patches_eq : b'.patches = b.patches ++ [(pc, t.siteWord)])
      (sites_eq : b'.sites = b.sites ++ [t.site]) :
      Builder.Hooked plan pc b b'

variable
  {plan : Area → Option Trampoline}
  {pc : Nat}
  {b : Builder}

theorem Builder.Hooked.of_tried {b₀ : Builder} {result : Builder × Bool}
    (tried : Tried plan pc (List.range b.areas.length) b₀ result)
    (areas_eq : b₀.areas = b.areas) (patches_eq : b₀.patches = b.patches)
    (sites_eq : b₀.sites = b.sites) :
    Builder.Hooked (some plan) pc b result.1 := by
  cases tried with
  | unreachable refuses => exact .untouched areas_eq patches_eq sites_eq
  | placed i t isArea planned takes =>
      have inside : i < b.areas.length := List.mem_range.mp isArea
      have here : ({ b₀ with at_ := i } : Builder).area = b.areas[i] := by
        simp [area, areas_eq, List.getD_eq_getElem?_getD, inside]
      rw [here] at planned takes
      refine .placed i b.areas[i] t plan rfl (List.getElem?_eq_getElem inside) planned takes
        ?_ ?_ ?_
      · simp [place, wrote, modifyArea, areas_eq]
      · simp [place, wrote, modifyArea, patches_eq]
      · simp [place, wrote, modifyArea, sites_eq]

namespace Hooking

variable
  {opts : Options}
  {dic : List (Nat × Nat)}
  {stackTainted exclusive : Bool}
  {s : Hooking}
  {word : Nat}
  {cls : Class}

theorem hooked_hook (s : Hooking) (pc : Nat) (guard : Guard) (call : Bool) (tail : Tail)
    (count : Stats → Stats) :
    Builder.Hooked (some fun a => a.trampoline pc guard call tail) pc s.b
      (s.hook pc guard call tail count).b := by
  have tried := s.b.tried_stub pc guard call tail
  exact Builder.Hooked.of_tried tried rfl rfl rfl

theorem hooked_hookCounter (s : Hooking) (pc rt : Nat) :
    Builder.Hooked (some fun a => a.counterTrampoline pc rt) pc s.b (s.hookCounter pc rt).b := by
  have tried := s.b.tried_counterStub pc rt
  exact Builder.Hooked.of_tried tried rfl rfl rfl

theorem Builder.Hooked.refl {plan : Option (Area → Option Trampoline)} :
    Builder.Hooked plan pc b b := .untouched rfl rfl rfl

theorem hooked_hookMem (s : Hooking) (pc word base : Nat) :
    Builder.Hooked (planOf stackTainted pc word (.mem base)) pc s.b
      (s.hookMem opts stackTainted pc word base).b := by
  simp only [hookMem, planOf]
  split
  · exact Builder.Hooked.refl
  · split
    · exact Builder.Hooked.refl
    · split
      · exact hooked_hook { s with
          stats := { s.stats with memCandidates := s.stats.memCandidates + 1 },
          rng := (s.rng.below opts.memRate.2).2 } pc .none false (.replay word) (countMem pc)
      · exact Builder.Hooked.refl

/-- A word is hooked as the plan of its class says, or nothing is written. -/
theorem hooked_hookClass :
    Builder.Hooked (planOf stackTainted pc word cls) pc s.b
      (s.hookClass opts stackTainted pc word cls).b := by
  cases cls with
  | b target =>
      simp only [hookClass, planOf]
      split
      · exact hooked_hook ..
      · exact Builder.Hooked.refl
  | bl target => exact hooked_hook ..
  | bCond cond target =>
      simp only [hookClass, planOf]
      split
      · exact hooked_hook ..
      · exact Builder.Hooked.refl
  | cbz sf rt nonzero target =>
      simp only [hookClass, planOf]
      split
      · exact hooked_hook ..
      · exact Builder.Hooked.refl
  | tbz rt bit nonzero target =>
      simp only [hookClass, planOf]
      split
      · exact hooked_hook ..
      · exact Builder.Hooked.refl
  | br rn => exact hooked_hook ..
  | blr rn =>
      simp only [hookClass, planOf]
      split
      · exact Builder.Hooked.refl
      · exact hooked_hook ..
  | counter rt =>
      simp only [hookClass, planOf]
      split
      · exact hooked_hookCounter ..
      · exact Builder.Hooked.refl
  | mem base => exact hooked_hookMem ..
  | ret => exact Builder.Hooked.refl
  | exclusiveLoad => exact Builder.Hooked.refl
  | exclusiveStore => exact Builder.Hooked.refl
  | stackAddr => exact Builder.Hooked.refl
  | svc => exact Builder.Hooked.refl
  | other => exact Builder.Hooked.refl

/-- Data and exclusive words have no plan. -/
def wordPlan (dic : List (Nat × Nat)) (stackTainted : Bool) (pc word : Nat) (exclusive : Bool)
    (cls : Class) :
    Option (Area → Option Trampoline) :=
  if (dic.any fun data => data.1 ≤ pc ∧ pc < data.2) ∨ exclusive then none
  else planOf stackTainted pc word cls

theorem hooked_hookWord :
    Builder.Hooked (wordPlan dic stackTainted pc word exclusive cls) pc s.b
      (s.hookWord opts dic stackTainted pc word exclusive cls).b := by
  unfold hookWord wordPlan
  dsimp only
  by_cases isData : (dic.any fun data => decide (data.1 ≤ pc ∧ pc < data.2)) = true
  · rw [if_pos isData]
    exact Builder.Hooked.refl
  · rw [if_neg isData]
    cases exclusive with
    | true => exact Builder.Hooked.refl
    | false =>
        have open_ : ¬ ((dic.any fun data => decide (data.1 ≤ pc ∧ pc < data.2)) = true ∨
            false = true) := fun either => either.elim isData Bool.false_ne_true
        rw [if_neg open_, if_neg Bool.false_ne_true]
        exact hooked_hookClass
          (s := { s with stats := { s.stats with words := s.stats.words + 1 } })

/-- What a word of a function would become. -/
def planAt (dic : List (Nat × Nat)) (start : Nat) (words : List Nat) (i : Nat) :
    Option (Area → Option Trampoline) :=
  wordPlan dic (tainted (classesOf start words)) (start + i * 4) (words.getD i 0)
    ((exclusives start false false (classesOf start words)).getD i false)
    ((classesOf start words).getD i .other)

/-- The turn of one word in a function. -/
def hookAt (opts : Options) (dic : List (Nat × Nat)) (start : Nat) (words : List Nat)
    (s : Hooking) (i : Nat) : Hooking :=
  s.hookWord opts dic (tainted (classesOf start words)) (start + i * 4) (words.getD i 0)
    ((exclusives start false false (classesOf start words)).getD i false)
    ((classesOf start words).getD i .other)

/-- What the turn of every word keeps, a function keeps. -/
theorem hookFunction_rec {start : Nat} {words : List Nat} (motive : Nat → Hooking → Prop)
    (first : ∀ stats, motive 0 { s with stats })
    (next : ∀ i t, i < words.length → motive i t →
      motive (i + 1) (t.hookAt opts dic start words i)) :
    motive words.length (s.hookFunction opts dic start words) := by
  have upTo : ∀ n ≤ words.length, ∀ t : Hooking, motive 0 t →
      motive n ((List.range n).foldl (hookAt opts dic start words) t) := by
    intro n
    induction n with
    | zero => exact fun _ t isFirst => isFirst
    | succ n ih =>
        intro below t isFirst
        rw [List.range_succ, List.foldl_append, List.foldl_cons, List.foldl_nil]
        exact next n _ below (ih (by omega) t isFirst)
  exact upTo words.length le_rfl _ (first _)

/-- A function adds patches for its own words, each for a word with a plan. -/
theorem patches_hookFunction (opts : Options) (dic : List (Nat × Nat)) (s : Hooking) (start : Nat)
    (words : List Nat) :
    ∃ added, (s.hookFunction opts dic start words).b.patches = s.b.patches ++ added ∧
      ∀ patch ∈ added, ∃ i < words.length, patch.1 = start + i * 4 ∧
        (planAt dic start words i).isSome = true := by
  refine hookFunction_rec (fun n t => ∃ added, t.b.patches = s.b.patches ++ added ∧
    ∀ patch ∈ added, ∃ i < n, patch.1 = start + i * 4 ∧
      (planAt dic start words i).isSome = true) (fun _ => ⟨[], by simp⟩) ?_
  rintro i t inside ⟨added, patches, planned⟩
  have hooked : Builder.Hooked (planAt dic start words i) (start + i * 4) t.b
      (t.hookAt opts dic start words i).b := hooked_hookWord
  have later : ∀ patch ∈ added, ∃ j < i + 1, patch.1 = start + j * 4 ∧
      (planAt dic start words j).isSome = true := by
    intro patch isAdded
    obtain ⟨j, below, place, isPlan⟩ := planned patch isAdded
    exact ⟨j, by omega, place, isPlan⟩
  cases hooked with
  | untouched areas_eq patches_eq sites_eq =>
      exact ⟨added, patches_eq.trans patches, later⟩
  | placed j a t p isPlan isArea isTrampoline takes areas_eq patches_eq sites_eq =>
      refine ⟨added ++ [(start + i * 4, t.siteWord)], ?_, ?_⟩
      · rw [patches_eq, patches, List.append_assoc]
      · intro patch isAdded
        obtain old | isNew := List.mem_append.mp isAdded
        · exact later patch old
        · rw [List.mem_singleton.mp isNew]
          exact ⟨i, Nat.lt_succ_self i, rfl, by rw [isPlan]; rfl⟩

/-! ## When a word is hooked for certain -/

variable {a : Area} {t : Trampoline}

/-- The segment takes every trampoline that can be written. -/
theorem mem_patches_of_tried {b₀ : Builder} {result : Builder × Bool}
    (tried : Tried plan pc (List.range b.areas.length) b₀ result)
    (areas_eq : b₀.areas = b.areas)
    (isSegment : b.areas[0]? = some a)
    (unbounded : a.capacity = none)
    (planned : plan a = some t) :
    ∃ w, (pc, w) ∈ result.1.patches := by
  have filled : 0 < b.areas.length := (List.getElem?_eq_some_iff.mp isSegment).1
  have here : ({ b₀ with at_ := 0 } : Builder).area = a := by
    simp [Builder.area, areas_eq, List.getD_eq_getElem?_getD, isSegment]
  cases tried with
  | placed i t isArea isPlan takes =>
      exact ⟨t.siteWord, by simp [Builder.place, Builder.wrote]⟩
  | unreachable refuses =>
      have refused := refuses 0 (List.mem_range.mpr filled) t (by rw [here]; exact planned)
      rw [here] at refused
      simp [Area.takes, Area.fitting, unbounded] at refused

theorem mem_patches_hook {guard : Guard} {call : Bool} {tail : Tail} {count : Stats → Stats}
    (isSegment : s.b.areas[0]? = some a)
    (unbounded : a.capacity = none)
    (planned : a.trampoline pc guard call tail = some t) :
    ∃ w, (pc, w) ∈ (s.hook pc guard call tail count).b.patches :=
  mem_patches_of_tried (s.b.tried_stub pc guard call tail) rfl isSegment unbounded planned

/-- With every memory access hooked, a word whose plan the segment can take is
hooked. -/
theorem mem_patches_hookWord {p : Area → Option Trampoline}
    (always : opts.memRate = (1, 1))
    (notData : (dic.any fun data => decide (data.1 ≤ pc ∧ pc < data.2)) = false)
    (isSegment : s.b.areas[0]? = some a)
    (unbounded : a.capacity = none)
    (isPlan : planOf stackTainted pc word cls = some p)
    (planned : p a = some t) :
    ∃ w, (pc, w) ∈ (s.hookWord opts dic stackTainted pc word false cls).b.patches := by
  unfold hookWord
  dsimp only
  rw [notData, if_neg Bool.false_ne_true, if_neg Bool.false_ne_true]
  generalize isState : ({ s with stats := { s.stats with words := s.stats.words + 1 } } : Hooking) =
    u
  have isSegment : u.b.areas[0]? = some a := by
    rw [← isState]
    exact isSegment
  cases cls with
  | b target =>
      simp only [planOf] at isPlan
      split at isPlan
      · rename_i back
        cases isPlan
        simp only [hookClass, if_pos back]
        exact mem_patches_hook isSegment unbounded planned
      · cases isPlan
  | bl target =>
      cases isPlan
      exact mem_patches_hook isSegment unbounded planned
  | bCond cond target =>
      simp only [planOf] at isPlan
      split at isPlan
      · rename_i back
        cases isPlan
        simp only [hookClass, if_pos back]
        exact mem_patches_hook isSegment unbounded planned
      · cases isPlan
  | cbz sf rt nonzero target =>
      simp only [planOf] at isPlan
      split at isPlan
      · rename_i back
        cases isPlan
        simp only [hookClass, if_pos back]
        exact mem_patches_hook isSegment unbounded planned
      · cases isPlan
  | tbz rt bit nonzero target =>
      simp only [planOf] at isPlan
      split at isPlan
      · rename_i back
        cases isPlan
        simp only [hookClass, if_pos back]
        exact mem_patches_hook isSegment unbounded planned
      · cases isPlan
  | br rn =>
      cases isPlan
      exact mem_patches_hook isSegment unbounded planned
  | blr rn =>
      simp only [planOf] at isPlan
      split at isPlan
      · cases isPlan
      · rename_i other
        cases isPlan
        simp only [hookClass, if_neg other]
        exact mem_patches_hook isSegment unbounded planned
  | counter rt =>
      simp only [planOf] at isPlan
      split at isPlan
      · rename_i low
        cases isPlan
        simp only [hookClass, if_pos low]
        exact mem_patches_of_tried (u.b.tried_counterStub pc rt) rfl isSegment unbounded planned
      · cases isPlan
  | mem base =>
      simp only [planOf] at isPlan
      split at isPlan
      · cases isPlan
      · rename_i candidate
        cases isPlan
        have chosen : (u.rng.below 1).1 < 1 := u.rng.below_lt Nat.one_pos
        simp only [hookClass, hookMem, if_neg candidate, always, Nat.one_ne_zero, if_false,
          if_pos chosen]
        exact mem_patches_hook isSegment unbounded planned
  | _ => cases isPlan

end Hooking

end Rewrite

end Derp
