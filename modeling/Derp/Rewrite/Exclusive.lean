import Derp.Rewrite.Hooks
import Mathlib.Data.List.GetD
import Mathlib.Tactic.Tauto

/-!
# Exclusive spans

A store-exclusive fails when an interrupt lands between it and its load, at the
hardware's whim; so neither the words between the pair nor the way back to the
load may be hooked, or the count of hook events is not repeatable.  The words
between are never hooked.  The way back is free of hooks for some shapes of a
retry and not for others.
-/

namespace Derp

namespace Rewrite

variable
  {start : Nat}
  {words : List Nat}
  {classes : List Class}

/-- The word lies in a span: a load-exclusive, itself perhaps, and no
store-exclusive since. -/
def InSpan (classes : List Class) (k : Nat) : Prop :=
  ∃ j ≤ k, classes[j]? = some .exclusiveLoad ∧
    ∀ m, j < m → m < k → classes[m]? ≠ some .exclusiveStore

/-! ## What the scan marks -/

/-- A word the scan marks: a store, a word of a span, or the retry that the
scan tells from other branches. -/
def Marked (pc : Nat) (isOpen retry : Bool) (classes : List Class) (k : Nat) : Prop :=
  classes[k]? = some .exclusiveStore ∨ InSpan classes k ∨
    (isOpen = true ∧ ∀ m < k, classes[m]? ≠ some .exclusiveStore) ∨
    (k = 0 ∧ retry = true) ∨
    ∃ j, k = j + 1 ∧ classes[j]? = some .exclusiveStore ∧
      isRetry (pc + 4 * j) classes[j + 1]? = true

theorem inSpan_cons_succ {c : Class} {k : Nat} :
    InSpan (c :: classes) (k + 1) ↔
      InSpan classes k ∨
        (c = .exclusiveLoad ∧ ∀ m < k, classes[m]? ≠ some .exclusiveStore) := by
  constructor
  · rintro ⟨j, below, isLoad, free⟩
    cases j with
    | zero =>
        right
        refine ⟨by simpa using isLoad, fun m before => ?_⟩
        have := free (m + 1) (by omega) (by omega)
        simpa using this
    | succ j =>
        left
        refine ⟨j, by omega, by simpa using isLoad, fun m after before => ?_⟩
        have := free (m + 1) (by omega) (by omega)
        simpa using this
  · rintro (⟨j, below, isLoad, free⟩ | ⟨isLoad, free⟩)
    · refine ⟨j + 1, by omega, by simpa using isLoad, fun m after before => ?_⟩
      obtain ⟨m, rfl⟩ := Nat.exists_eq_add_of_lt (Nat.zero_lt_of_lt after)
      have := free m (by omega) (by omega)
      simpa using this
    · refine ⟨0, by omega, by simpa using isLoad, fun m after before => ?_⟩
      obtain ⟨m, rfl⟩ := Nat.exists_eq_add_of_lt after
      have := free m (by omega)
      simpa using this

/-- Whether a span is open behind a word. -/
def opens (isOpen : Bool) : Class → Bool
  | .exclusiveLoad => true
  | .exclusiveStore => false
  | _ => isOpen

/-- Whether the word behind this one is a store's retry. -/
def retries (pc : Nat) (c : Class) (next : Option Class) : Bool :=
  c = .exclusiveStore && isRetry pc next

theorem exclusives_cons (pc : Nat) (isOpen retry : Bool) (c : Class) (classes : List Class) :
    exclusives pc isOpen retry (c :: classes) =
      (decide (c = .exclusiveStore) || decide (c = .exclusiveLoad) || retry || isOpen) ::
        exclusives (pc + 4) (opens isOpen c) (retries pc c classes.head?) classes := by
  cases c <;> rfl

theorem opens_iff {isOpen : Bool} {c : Class} :
    opens isOpen c = true ↔ c = .exclusiveLoad ∨ (isOpen = true ∧ c ≠ .exclusiveStore) := by
  cases c <;> simp [opens]

theorem marked_zero {pc : Nat} {isOpen retry : Bool} {c : Class} :
    Marked pc isOpen retry (c :: classes) 0 ↔
      c = .exclusiveStore ∨ c = .exclusiveLoad ∨ isOpen = true ∨ retry = true := by
  have span : InSpan (c :: classes) 0 ↔ c = .exclusiveLoad := by
    constructor
    · rintro ⟨j, below, isLoad, _⟩
      obtain rfl : j = 0 := Nat.le_zero.mp below
      simpa using isLoad
    · rintro rfl
      exact ⟨0, le_rfl, rfl, fun m _ before => absurd before (Nat.not_lt_zero m)⟩
  unfold Marked
  rw [span]
  simp

theorem marked_succ {pc k : Nat} {isOpen retry : Bool} {c : Class} :
    Marked pc isOpen retry (c :: classes) (k + 1) ↔
      Marked (pc + 4) (opens isOpen c) (retries pc c classes.head?) classes k := by
  unfold Marked
  rw [inSpan_cons_succ, opens_iff, List.getElem?_cons_succ]
  have still : (∀ m < k + 1, (c :: classes)[m]? ≠ some .exclusiveStore) ↔
      c ≠ .exclusiveStore ∧ ∀ m < k, classes[m]? ≠ some .exclusiveStore := by
    constructor
    · intro free
      refine ⟨fun isStore => free 0 (Nat.succ_pos k) (by simp [isStore]), fun m before => ?_⟩
      have := free (m + 1) (by omega)
      simpa using this
    · rintro ⟨notStore, free⟩ m before
      cases m with
      | zero => simpa using notStore
      | succ m => simpa using free m (by omega)
  have retry_iff : (∃ j, k + 1 = j + 1 ∧ (c :: classes)[j]? = some .exclusiveStore ∧
      isRetry (pc + 4 * j) (c :: classes)[j + 1]? = true) ↔
      (k = 0 ∧ retries pc c classes.head? = true) ∨
        ∃ j, k = j + 1 ∧ classes[j]? = some .exclusiveStore ∧
          isRetry (pc + 4 + 4 * j) classes[j + 1]? = true := by
    constructor
    · rintro ⟨j, same, isStore, isNext⟩
      obtain rfl : j = k := by omega
      cases j with
      | zero =>
          left
          refine ⟨rfl, ?_⟩
          simp only [List.getElem?_cons_zero, Option.some_inj] at isStore
          simp only [Nat.mul_zero, Nat.add_zero, Nat.zero_add, List.getElem?_cons_succ] at isNext
          rw [List.head?_eq_getElem?]
          simp [retries, isStore, isNext]
      | succ j =>
          right
          refine ⟨j, rfl, by simpa using isStore, ?_⟩
          rw [show pc + 4 + 4 * j = pc + 4 * (j + 1) by omega]
          simpa using isNext
    · rintro (⟨rfl, isNext⟩ | ⟨j, rfl, isStore, isNext⟩)
      · simp only [retries, Bool.and_eq_true, decide_eq_true_eq, List.head?_eq_getElem?] at isNext
        exact ⟨0, rfl, by simp [isNext.1], by simpa using isNext.2⟩
      · refine ⟨j + 1, rfl, by simpa using isStore, ?_⟩
        rw [show pc + 4 * (j + 1) = pc + 4 + 4 * j by omega]
        simpa using isNext
  rw [still, retry_iff]
  constructor
  · rintro (isStore | (inside | ⟨isLoad, free⟩) | ⟨isOpen', notStore, free⟩ | ⟨impossible, _⟩ |
      next | later)
    · exact Or.inl isStore
    · exact Or.inr (Or.inl inside)
    · exact Or.inr (Or.inr (Or.inl ⟨Or.inl isLoad, free⟩))
    · exact Or.inr (Or.inr (Or.inl ⟨Or.inr ⟨isOpen', notStore⟩, free⟩))
    · cases impossible
    · exact Or.inr (Or.inr (Or.inr (Or.inl next)))
    · exact Or.inr (Or.inr (Or.inr (Or.inr later)))
  · rintro (isStore | inside | ⟨isLoad | ⟨isOpen', notStore⟩, free⟩ | next | later)
    · exact Or.inl isStore
    · exact Or.inr (Or.inl (Or.inl inside))
    · exact Or.inr (Or.inl (Or.inr ⟨isLoad, free⟩))
    · exact Or.inr (Or.inr (Or.inl ⟨isOpen', notStore, free⟩))
    · exact Or.inr (Or.inr (Or.inr (Or.inr (Or.inl next))))
    · exact Or.inr (Or.inr (Or.inr (Or.inr (Or.inr later))))

theorem exclusives_iff (pc : Nat) (isOpen retry : Bool) (classes : List Class) {k : Nat}
    (inside : k < classes.length) :
    (exclusives pc isOpen retry classes).getD k false = true ↔
      Marked pc isOpen retry classes k := by
  induction classes generalizing pc isOpen retry k with
  | nil => cases inside
  | cons c classes ih =>
      rw [exclusives_cons]
      cases k with
      | zero =>
          rw [marked_zero, List.getD_cons_zero]
          simp only [Bool.or_eq_true, decide_eq_true_eq]
          tauto
      | succ k =>
          rw [marked_succ, List.getD_cons_succ]
          exact ih _ _ _ (by simpa using inside)

/-- A word the scan marks in a whole function: a store, a word of a span, or a branch back
right behind a store. -/
def Scanned (start : Nat) (classes : List Class) (k : Nat) : Prop :=
  classes[k]? = some .exclusiveStore ∨ InSpan classes k ∨
    ∃ j, k = j + 1 ∧ classes[j]? = some .exclusiveStore ∧
      isRetry (start + 4 * j) classes[j + 1]? = true

theorem exclusives_start (start : Nat) {k : Nat} (inside : k < classes.length) :
    (exclusives start false false classes).getD k false = true ↔ Scanned start classes k := by
  rw [exclusives_iff start false false classes inside]
  unfold Marked Scanned
  simp only [Bool.false_eq_true, false_and, and_false, false_or]

/-! ## The way back from a failed store -/

/-- The register a store-exclusive reports in. -/
def statusRegister (w : Nat) : Nat := w >>> 16 &&& 0x1F

/-- Whether a word sets the flags from a register: `adds`, `subs` or `ands`, of
an immediate or of another register. -/
def compares (w r : Nat) : Bool :=
  let rn := w >>> 5 &&& 0x1F
  let rm := w >>> 16 &&& 0x1F
  (w &&& 0x3F800000 = 0x31000000 ∧ rn = r) ∨ (w &&& 0x3F000000 = 0x2B000000 ∧ (rn = r ∨ rm = r)) ∨
    (w &&& 0x7F800000 = 0x72000000 ∧ rn = r) ∨
    (w &&& 0x7F000000 = 0x6A000000 ∧ (rn = r ∨ rm = r))

/-- Whether control may go on to the next word: past a branch that is not taken, and behind
a call. -/
def Class.passes : Class → Bool
  | .b _ | .br _ | .ret => false
  | _ => true

/-- A branch that tests a store's status register, itself or through the flags. -/
def Tests (words : List Nat) (store branch : Nat) : Class → Prop
  | .cbz _ rt _ _ | .tbz rt _ _ _ => rt = statusRegister (words.getD store 0)
  | .bCond _ _ => ∃ k, store < k ∧ k < branch ∧
      compares (words.getD k 0) (statusRegister (words.getD store 0)) = true
  | _ => False

/-- A `cbz` or `tbz` on a store's status register that leads past a word ahead. -/
def TestsPast (start : Nat) (words : List Nat) (store back : Nat) : Class → Prop
  | .cbz _ rt nonzero target | .tbz rt _ nonzero target =>
      rt = statusRegister (words.getD store 0) ∧ nonzero = false ∧ start + back * 4 < target
  | _ => False

/-- Control may go through the words between two words, and none of them tests the status
register. -/
def Passes (start : Nat) (words : List Nat) (store lo hi : Nat) : Prop :=
  ∀ k, lo < k → k < hi → ∃ c, (classesOf start words)[k]? = some c ∧
    c.passes = true ∧ ¬ Tests words store k c

/-- A load-exclusive with the store-exclusive of its span, and the first branch behind that
which tests the store's status. -/
structure Attempt (start : Nat) (words : List Nat) (load store branch : Nat) : Prop where
  isLoad : (classesOf start words)[load]? = some .exclusiveLoad
  isStore : (classesOf start words)[store]? = some .exclusiveStore
  ordered : load < store
  paired : ∀ m, load < m → m < store → (classesOf start words)[m]? ≠ some .exclusiveStore
  after : store < branch
  passes : Passes start words store store branch

/-- A store's retry, and the words from the store back to the load: through a branch to the
load that tests the status, or past one ahead, to a `b` back that it leads past. -/
inductive Retry (start : Nat) (words : List Nat) (load store : Nat) : List Nat → Prop
  | test (branch : Nat) (c : Class)
      (attempt : Attempt start words load store branch)
      (isTest : (classesOf start words)[branch]? = some c)
      (tests : Tests words store branch c)
      (leads : c.target = some (start + load * 4)) :
      Retry start words load store (List.range' (store + 1) (branch - store))
  | skip (branch back : Nat) (c : Class)
      (attempt : Attempt start words load store branch)
      (isTest : (classesOf start words)[branch]? = some c)
      (tests : TestsPast start words store back c)
      (behind : branch < back)
      (passes : Passes start words store branch back)
      (isBack : (classesOf start words)[back]? = some (.b (start + load * 4))) :
      Retry start words load store (List.range' (store + 1) (back - store))

theorem Retry.attempt {load store : Nat} {path : List Nat}
    (retry : Retry start words load store path) :
    ∃ branch, Attempt start words load store branch := by
  cases retry with
  | test branch c attempt => exact ⟨branch, attempt⟩
  | skip branch back c attempt => exact ⟨branch, attempt⟩

/-! ## What is hooked of it -/

/-- How a function is rewritten: the options, the data in the code, where the
segment and the rooms are, and the functions before it. -/
structure Setting where
  opts : Options
  dic : List (Nat × Nat)
  /-- Address of the segment, in front of whose code is a header -/
  textAddr : Nat
  isPage : 0x4000 ∣ textAddr
  isAddress : textAddr < 2 ^ 64
  rooms : List (Nat × Nat)
  textBase : Nat
  before : List (Nat × List Nat)

namespace Setting

/-- When the function's turn comes. -/
def state (setting : Setting) : Hooking :=
  setting.before.foldl (fun s f => s.hookFunction setting.opts setting.dic f.1 f.2)
    { b := Builder.new (setting.textAddr + 32) setting.rooms setting.textBase,
      rng := Rng.seedFromU64 setting.opts.seed.toUInt64 }

/-- The patches a function adds. -/
def added (setting : Setting) (start : Nat) (words : List Nat) : List (Nat × Nat) :=
  (setting.state.hookFunction setting.opts setting.dic start words).b.patches.drop
    setting.state.b.patches.length

/-- Whether a word of the function is hooked. -/
def Patched (setting : Setting) (start : Nat) (words : List Nat) (k : Nat) : Prop :=
  start + k * 4 ∈ (setting.added start words).map Prod.fst

instance (setting : Setting) (start : Nat) (words : List Nat) (k : Nat) :
    Decidable (setting.Patched start words k) :=
  inferInstanceAs (Decidable (_ ∈ _))

/-- The hook events of an execution, given by the words it goes through. -/
def events (setting : Setting) (start : Nat) (words : List Nat) (trace : List Nat) : Nat :=
  trace.countP fun k => setting.Patched start words k

/-- Spans and retries are free of hooks, so however often an attempt fails, an
execution has the same hook events. -/
structure Spared (setting : Setting) (start : Nat) (words : List Nat) : Prop where
  span : ∀ load store k, (classesOf start words)[load]? = some .exclusiveLoad →
    (classesOf start words)[store]? = some .exclusiveStore →
    (∀ m, load < m → m < store → (classesOf start words)[m]? ≠ some .exclusiveStore) →
    load ≤ k → k ≤ store → ¬ setting.Patched start words k
  retry : ∀ load store path, Retry start words load store path →
    ∀ k ∈ path, ¬ setting.Patched start words k
  events_eq : ∀ load store path, Retry start words load store path →
    ∀ done attempt rest : List Nat, (∀ k ∈ attempt, load ≤ k ∧ k ≤ store) →
      setting.events start words (done ++ attempt ++ path ++ rest) =
        setting.events start words (done ++ rest)

end Setting

/-- Whether some options make a hook of a word of a class. -/
def Class.hookable (stackTainted : Bool) (pc : Nat) : Class → Bool
  | .b target | .bCond _ target | .cbz _ _ _ target | .tbz _ _ _ target => target ≤ pc
  | .bl _ | .br _ => true
  | .blr rn => rn ≠ 30
  | .counter rt => rt < 29
  | .mem base => stackTainted || (base ≠ SP && base ≠ FP)
  | _ => false

/-- A word that no options make a hook: the scan marks it, or it is of a class that is not
hooked there. -/
def Quiet (start : Nat) (words : List Nat) (k : Nat) : Prop :=
  Scanned start (classesOf start words) k ∨
    ∀ c, (classesOf start words)[k]? = some c →
      c.hookable (Hooking.tainted (classesOf start words)) (start + k * 4) = false

/-- The words of every way back are quiet.  So the branch that leads back is a `cbz`, `cbnz`
or `b.cond` right behind a store-exclusive, or lies in a span. -/
def Careful (start : Nat) (words : List Nat) : Prop :=
  ∀ load store path, Retry start words load store path → ∀ k ∈ path, Quiet start words k

theorem isSome_planOf {stackTainted : Bool} {pc word : Nat} (c : Class) :
    (planOf stackTainted pc word c).isSome = c.hookable stackTainted pc := by
  cases c with
  | mem base =>
      by_cases sp : base = SP <;> by_cases fp : base = FP <;> cases stackTainted <;>
        simp [planOf, Class.hookable, sp, fp]
  | blr rn => by_cases link : rn = 30 <;> simp [planOf, Class.hookable, link]
  | _ => simp [planOf, Class.hookable, apply_ite Option.isSome]

namespace Setting

variable {setting : Setting}

/-- A word that is hooked has a plan: it is neither data nor exclusive, and of a
class that is hooked. -/
theorem plan_of_patched {k : Nat} (patched : setting.Patched start words k) :
    k < words.length ∧ (Hooking.planAt setting.dic start words k).isSome = true := by
  obtain ⟨added, grown, planned⟩ :=
    Hooking.patches_hookFunction setting.opts setting.dic setting.state start words
  unfold Patched Setting.added at patched
  rw [grown, List.drop_left, List.mem_map] at patched
  obtain ⟨patch, isAdded, place⟩ := patched
  obtain ⟨i, inside, at_, isPlan⟩ := planned patch isAdded
  obtain rfl : i = k := by omega
  exact ⟨inside, isPlan⟩

theorem length_classesOf (start : Nat) (words : List Nat) :
    (classesOf start words).length = words.length := by
  simp [classesOf]

/-- What the scan marks is not hooked. -/
theorem not_patched_of_scanned {k : Nat}
    (scanned : Scanned start (classesOf start words) k) : ¬ setting.Patched start words k := by
  intro patched
  obtain ⟨inside, isPlan⟩ := plan_of_patched patched
  have isExclusive := (exclusives_start start (by rwa [length_classesOf])).mpr scanned
  unfold Hooking.planAt Hooking.wordPlan at isPlan
  rw [if_pos (Or.inr isExclusive)] at isPlan
  cases isPlan

/-- A hooked word is of a class that is hooked. -/
theorem hookable_of_patched {k : Nat} (patched : setting.Patched start words k) :
    ∃ c, (classesOf start words)[k]? = some c ∧
      c.hookable (Hooking.tainted (classesOf start words)) (start + k * 4) = true := by
  obtain ⟨inside, isPlan⟩ := plan_of_patched patched
  rw [← length_classesOf start] at inside
  refine ⟨(classesOf start words)[k], List.getElem?_eq_getElem inside, ?_⟩
  unfold Hooking.planAt Hooking.wordPlan at isPlan
  rw [List.getD_eq_getElem _ _ inside] at isPlan
  split at isPlan
  · cases isPlan
  · rwa [isSome_planOf] at isPlan

theorem not_patched_of_quiet {k : Nat} (quiet : Quiet start words k) :
    ¬ setting.Patched start words k := by
  obtain scanned | plain := quiet
  · exact not_patched_of_scanned scanned
  · intro patched
    obtain ⟨c, isClass, hookable⟩ := hookable_of_patched patched
    rw [plain c isClass] at hookable
    cases hookable

theorem events_eq_zero {trace : List Nat}
    (free : ∀ k ∈ trace, ¬ setting.Patched start words k) :
    setting.events start words trace = 0 := by
  unfold events
  rw [List.countP_eq_zero]
  exact fun k isOn => by simpa using free k isOn

/-- A careful function is spared, however it is rewritten. -/
theorem spared_of_careful (careful : Careful start words) (setting : Setting) :
    setting.Spared start words := by
  have span : ∀ load store k, (classesOf start words)[load]? = some .exclusiveLoad →
      (classesOf start words)[store]? = some .exclusiveStore →
      (∀ m, load < m → m < store → (classesOf start words)[m]? ≠ some .exclusiveStore) →
      load ≤ k → k ≤ store → ¬ setting.Patched start words k := by
    intro load store k isLoad isStore next from_ upTo
    refine not_patched_of_scanned (Or.inr (Or.inl ⟨load, from_, isLoad, fun m after before => ?_⟩))
    exact next m after (by omega)
  have retry : ∀ load store path, Retry start words load store path →
      ∀ k ∈ path, ¬ setting.Patched start words k :=
    fun load store path isRetry k isOn =>
      not_patched_of_quiet (careful load store path isRetry k isOn)
  refine ⟨span, retry, ?_⟩
  intro load store path isRetry done attempt rest inside
  obtain ⟨branch, paired⟩ := isRetry.attempt
  have again : setting.events start words attempt = 0 := events_eq_zero fun k isOn =>
    span load store k paired.isLoad paired.isStore paired.paired (inside k isOn).1
      (inside k isOn).2
  have back : setting.events start words path = 0 := events_eq_zero fun k isOn =>
    retry load store path isRetry k isOn
  unfold events at again back ⊢
  rw [List.countP_append, List.countP_append, List.countP_append, List.countP_append, again, back,
    Nat.add_zero]

end Setting

/-! ## A segment in reach -/

variable {pc target : Nat}

theorem isSome_b {x y : Nat}
    (near : offset x y % 4 = 0 ∧ -2 ^ 27 ≤ offset x y ∧ offset x y < 2 ^ 27) :
    (Stub.b x y).isSome = true := by
  have isFit : fits (offset x y) 26 = true := by
    simp only [fits, decide_eq_true_eq]
    exact near
  unfold Stub.b
  rw [if_pos isFit]
  rfl

/-- A distance is what two addresses differ by, around the end of the addresses. -/
theorem offset_of_eq {x y : Nat} {d : Int} (same : ((y : Int) - x - d) % 2 ^ 64 = 0)
    (small : -2 ^ 63 ≤ d ∧ d < 2 ^ 63) : offset x y = d := by
  rw [offset_eq]
  split <;> omega

/-- A page from which, and to which, both a branch and its target are in reach: half the way
between them. -/
theorem exists_page (near : -2 ^ 27 ≤ offset pc target ∧ offset pc target < 2 ^ 27) :
    ∃ page : Nat, 0x4000 ∣ page ∧ page < 2 ^ 64 ∧
      ∀ j ≤ 30, page + 32 + j * 4 < 2 ^ 64 ∧
        -2 ^ 27 + 32 ≤ offset pc (page + 32 + j * 4) ∧
        offset pc (page + 32 + j * 4) < 2 ^ 27 ∧
        -2 ^ 27 ≤ offset (page + 32 + j * 4) target ∧
        offset (page + 32 + j * 4) target < 2 ^ 27 := by
  obtain ⟨d, isOffset⟩ : ∃ d, offset pc target = d := ⟨_, rfl⟩
  have whole : ((target : Int) - pc - d) % 2 ^ 64 = 0 := by
    rw [offset_eq] at isOffset
    split at isOffset <;> omega
  rw [isOffset] at near
  obtain ⟨middle, isMiddle⟩ : ∃ middle : Nat, ((middle : Int) - pc - d / 2) % 2 ^ 64 = 0 ∧
      middle < 2 ^ 64 := ⟨((pc + d / 2) % 2 ^ 64).toNat, by omega, by omega⟩
  refine ⟨middle / 0x4000 * 0x4000, ⟨_, Nat.mul_comm _ _⟩, by omega, fun j small => ?_⟩
  have site : offset pc (middle / 0x4000 * 0x4000 + 32 + j * 4) =
      d / 2 - (middle % 0x4000 : Nat) + 32 + j * 4 := offset_of_eq (by omega) (by omega)
  have reached : offset (middle / 0x4000 * 0x4000 + 32 + j * 4) target =
      d - d / 2 + (middle % 0x4000 : Nat) - 32 - j * 4 := offset_of_eq (by omega) (by omega)
  rw [site, reached]
  omega

/-- The segment of a setting, when its turn comes first. -/
def segment (page : Nat) : Area := ({ base := page + 32 } : Area).opened

theorem wordAddr_segment {page j : Nat} (inside : page + 32 + j * 4 < 2 ^ 64) :
    (segment page).wordAddr j = page + 32 + j * 4 := by
  unfold segment Area.opened Area.wordAddr
  exact Nat.mod_eq_of_lt inside

/-- A page in reach of a site and of its target. -/
structure InReach (page pc target : Nat) : Prop where
  isPage : 0x4000 ∣ page
  siteWhole : 4 ∣ pc
  targetWhole : 4 ∣ target
  near : ∀ j ≤ 30, page + 32 + j * 4 < 2 ^ 64 ∧
    -2 ^ 27 + 32 ≤ offset pc (page + 32 + j * 4) ∧ offset pc (page + 32 + j * 4) < 2 ^ 27 ∧
    -2 ^ 27 ≤ offset (page + 32 + j * 4) target ∧ offset (page + 32 + j * 4) target < 2 ^ 27

theorem offset_mod (x y : Nat) : ((y : Int) - x - offset x y) % 2 ^ 64 = 0 := by
  rw [offset_eq]
  split <;> omega

namespace InReach

variable
  {page j : Nat}
  {guard : Guard}

theorem fromSite (reach : InReach page pc target) (small : j ≤ 30) :
    ∃ w, Stub.b pc ((segment page).wordAddr j) = some w := by
  obtain ⟨inside, below, above, _⟩ := reach.near j small
  have site := reach.siteWhole
  have isPage := reach.isPage
  have apart := offset_mod pc (page + 32 + j * 4)
  rw [wordAddr_segment inside, ← Option.isSome_iff_exists]
  exact isSome_b ⟨by omega, by omega, above⟩

theorem toTarget (reach : InReach page pc target) (small : j ≤ 30) :
    ∃ w, Stub.b ((segment page).wordAddr j) target = some w := by
  obtain ⟨inside, _, _, below, above⟩ := reach.near j small
  have whole := reach.targetWhole
  have isPage := reach.isPage
  have apart := offset_mod (page + 32 + j * 4) target
  rw [wordAddr_segment inside, ← Option.isSome_iff_exists]
  exact isSome_b ⟨by omega, below, above⟩

theorem back (reach : InReach page pc target) (small : j ≤ 30) :
    ∃ w, Stub.b ((segment page).wordAddr j) ((pc + 4) % 2 ^ 64) = some w := by
  obtain ⟨inside, below, above, _⟩ := reach.near j small
  have site := reach.siteWhole
  have isPage := reach.isPage
  have apart := offset_mod pc (page + 32 + j * 4)
  have same : offset (page + 32 + j * 4) ((pc + 4) % 2 ^ 64) =
      4 - offset pc (page + 32 + j * 4) := offset_of_eq (by omega) (by omega)
  rw [wordAddr_segment inside, ← Option.isSome_iff_exists]
  refine isSome_b ?_
  rw [same]
  omega

theorem toCommon (reach : InReach page pc target) (small : j ≤ 30) :
    ∃ w, Stub.bl ((segment page).wordAddr j) (segment page).common = some w := by
  obtain ⟨inside, _⟩ := reach.near j small
  have common : (segment page).common = (page + 32) % 2 ^ 64 := rfl
  have same : offset (page + 32 + j * 4) ((page + 32) % 2 ^ 64) = -(j * 4) :=
    offset_of_eq (by omega) (by omega)
  have reached : (Stub.b (page + 32 + j * 4) ((page + 32) % 2 ^ 64)).isSome = true := by
    refine isSome_b ?_
    rw [same]
    omega
  obtain ⟨w, isBranch⟩ := Option.isSome_iff_exists.mp reached
  rw [wordAddr_segment inside, common]
  exact ⟨w ||| 0x80000000, by unfold Stub.bl; rw [isBranch]; rfl⟩

/-- A site has a trampoline there if its own instruction can be displaced. -/
theorem trampoline (reach : InReach page pc target) (guard : Guard) (call : Bool) {tail : Tail}
    {words : List Nat}
    (isTail : (segment page).tailWords pc (14 + guard.width + 3) tail = some words)
    (few : words.length ≤ 2) :
    ∃ t, (segment page).trampoline pc guard call tail = some t := by
  have width : guard.width ≤ 1 := by
    unfold Guard.width
    split <;> omega
  obtain ⟨siteWord, isSite⟩ := reach.fromSite (j := 14) (by omega)
  obtain ⟨toCommon, isCommon⟩ := reach.toCommon (j := 14 + guard.width + 1) (by omega)
  obtain ⟨back, isBack⟩ := reach.back (j := 14 + guard.width + (words.length + 3)) (by omega)
  have length : (segment page).code.length = 14 := rfl
  have body : (segment page).bodyWords pc (14 + guard.width) tail =
      some (STR_X30_PRE :: toCommon :: LDR_X30_POST :: words) := by
    unfold Area.bodyWords
    rw [isCommon, isTail]
    rfl
  obtain ⟨called, isCalled⟩ : ∃ w, (if call then Stub.bl pc ((segment page).wordAddr 14)
      else Stub.b pc ((segment page).wordAddr 14)) = some w := by
    cases call with
    | true => exact ⟨siteWord ||| 0x80000000, by simp [Stub.bl, isSite]⟩
    | false => exact ⟨siteWord, by simp [isSite]⟩
  unfold Area.trampoline
  simp only [length, isCalled, body, Option.bind_some]
  split
  · exact ⟨_, rfl⟩
  · simp only [List.length_cons, Nat.add_assoc, Nat.reduceAdd] at isBack ⊢
    rw [isBack]
    exact ⟨_, rfl⟩

theorem jump (reach : InReach page pc target) (guard : Guard) (call island : Bool) :
    ∃ t, (segment page).trampoline pc guard call (.jump target island) = some t := by
  have width : guard.width ≤ 1 := by
    unfold Guard.width
    split <;> omega
  obtain ⟨tail, isTail⟩ := reach.toTarget (j := 14 + guard.width + 3) (by omega)
  exact reach.trampoline guard call (Area.tailWords_jump isTail island) (by simp)

theorem indirect (reach : InReach page pc target) (call : Bool) (rn : Nat) :
    ∃ t, (segment page).trampoline pc .none call (.indirect rn) = some t :=
  reach.trampoline .none call rfl (by simp)

theorem replay (reach : InReach page pc target) (word : Nat) :
    ∃ t, (segment page).trampoline pc .none false (.replay word) = some t := by
  obtain ⟨back, isBack⟩ := reach.back (j := 14 + Guard.none.width + 3 + 1) (by decide)
  have isTail : (segment page).tailWords pc (14 + Guard.none.width + 3) (.replay word) =
      some [word, back] := by
    rw [Area.tailWords_replay, isBack]
    rfl
  exact reach.trampoline .none false isTail (by simp)

theorem counter (reach : InReach page pc target) (rt : Nat) :
    ∃ t, (segment page).counterTrampoline pc rt = some t := by
  obtain ⟨siteWord, isSite⟩ := reach.fromSite (j := 14) (by omega)
  obtain ⟨back, isBack⟩ := reach.back (j := 21) (by omega)
  have length : (segment page).code.length = 14 := rfl
  unfold Area.counterTrampoline
  simp only [length, Nat.reduceAdd, isSite, isBack, Option.bind_some, Option.map_some]
  exact ⟨_, rfl⟩

end InReach

/-! ## A hooked retry -/

namespace Setting

variable {k : Nat} {page : Nat}

/-- The function comes first, everything before one word is data, and every
memory access is hooked. -/
def first (start k page : Nat) (isPage : 0x4000 ∣ page) (isAddress : page < 2 ^ 64) : Setting where
  opts := { memRate := (1, 1) }
  dic := [(start, start + k * 4)]
  textAddr := page
  isPage := isPage
  isAddress := isAddress
  rooms := []
  textBase := 0
  before := []

/-- A word that is not marked and has a plan is hooked in some setting. -/
theorem patched_first {isPage : 0x4000 ∣ page} {isAddress : page < 2 ^ 64} {c : Class}
    {p : Area → Option Trampoline} {t : Trampoline}
    (isClass : (classesOf start words)[k]? = some c)
    (notMarked : (exclusives start false false (classesOf start words)).getD k false = false)
    (isPlan : planOf (Hooking.tainted (classesOf start words)) (start + k * 4) (words.getD k 0) c =
      some p)
    (planned : p (segment page) = some t) :
    (first start k page isPage isAddress).Patched start words k := by
  have inside : k < words.length := by
    rw [← length_classesOf start]
    exact (List.getElem?_eq_some_iff.mp isClass).1
  have getClass : (classesOf start words).getD k .other = c := by
    rw [List.getD_eq_getElem?_getD, isClass]
    rfl
  have fresh : (first start k page isPage isAddress).state.b =
      { areas := [segment page], textBase := 0 } := Builder.new_eq ..
  have reached := @Hooking.hookFunction_rec { memRate := (1, 1) } [(start, start + k * 4)]
    (first start k page isPage isAddress).state start words
    (fun n t => (n ≤ k → t.b.areas = [segment page] ∧ t.b.patches = []) ∧
      (k < n → ∃ w, (start + k * 4, w) ∈ t.b.patches))
    (fun _ => ⟨fun _ => by rw [fresh]; exact ⟨rfl, rfl⟩, fun before => by omega⟩) ?_
  · obtain ⟨w, isPatch⟩ := reached.2 inside
    unfold Patched added
    rw [fresh]
    exact List.mem_map.mpr ⟨_, isPatch, rfl⟩
  · rintro i t _ ⟨before, after⟩
    obtain early | rfl | late : i < k ∨ i = k ∨ k < i := by omega
    · -- Data is passed over.
      have isData : ([(start, start + k * 4)].any fun data =>
          decide (data.1 ≤ start + i * 4 ∧ start + i * 4 < data.2)) = true := by
        simp only [List.any_cons, List.any_nil, Bool.or_false, decide_eq_true_eq]
        omega
      have same :
          (t.hookAt { memRate := (1, 1) } [(start, start + k * 4)] start words i).b = t.b := by
        unfold Hooking.hookAt Hooking.hookWord
        dsimp only
        rw [if_pos isData]
      rw [same]
      exact ⟨fun _ => before (by omega), fun impossible => by omega⟩
    · refine ⟨fun impossible => by omega, fun _ => ?_⟩
      have notData : ([(start, start + i * 4)].any fun data =>
          decide (data.1 ≤ start + i * 4 ∧ start + i * 4 < data.2)) = false := by
        simp only [List.any_cons, List.any_nil, Bool.or_false, decide_eq_false_iff_not]
        omega
      have isSegment : t.b.areas[0]? = some (segment page) := by
        rw [(before le_rfl).1]
        rfl
      unfold Hooking.hookAt
      rw [notMarked, getClass]
      exact Hooking.mem_patches_hookWord rfl notData isSegment rfl isPlan planned
    · refine ⟨fun impossible => by omega, fun _ => ?_⟩
      obtain ⟨w, isPatch⟩ := after late
      have hooked : Builder.Hooked (Hooking.planAt [(start, start + k * 4)] start words i)
          (start + i * 4) t.b
          (t.hookAt { memRate := (1, 1) } [(start, start + k * 4)] start words i).b :=
        Hooking.hooked_hookWord
      cases hooked with
      | untouched areas_eq patches_eq sites_eq => exact ⟨w, by rw [patches_eq]; exact isPatch⟩
      | placed j a u q isPlan isArea planned takes areas_eq patches_eq sites_eq =>
          exact ⟨w, by rw [patches_eq]; exact List.mem_append_left _ isPatch⟩

/-- A word that is not quiet is hooked in some setting. -/
theorem exists_patched
    (aligned : 4 ∣ start)
    (loud : ¬ Quiet start words k) :
    ∃ setting : Setting, setting.Patched start words k := by
  unfold Quiet at loud
  push Not at loud
  obtain ⟨notScanned, c, isClass, hookable⟩ := loud
  rw [ne_eq, Bool.not_eq_false] at hookable
  have isWord : k < words.length := by
    rw [← length_classesOf start]
    exact (List.getElem?_eq_some_iff.mp isClass).1
  have notMarked : (exclusives start false false (classesOf start words)).getD k false = false := by
    rw [Bool.eq_false_iff, ne_eq, exclusives_start start (by rwa [length_classesOf])]
    exact notScanned
  have decoded : c = decode words[k] (start + k * 4) := by
    have word := isClass
    unfold classesOf at word
    rw [List.getElem?_mapIdx, List.getElem?_eq_getElem isWord, Option.map_some,
      Option.some_inj] at word
    exact word.symm
  -- The page is half the way to where the word leads, or by the word itself.
  obtain ⟨target, leads, near⟩ : ∃ target, (∀ to_ ∈ c.leadsTo, to_ = target) ∧
      (offset (start + k * 4) target % 4 = 0 ∧ -2 ^ 27 ≤ offset (start + k * 4) target ∧
        offset (start + k * 4) target < 2 ^ 27) := by
    cases isTarget : c.leadsTo with
    | none =>
        refine ⟨start + k * 4, (fun _ none => nomatch none), ?_⟩
        rw [offset_of_eq (d := 0) (by omega) (by omega)]
        decide
    | some target =>
        obtain ⟨imm, bits, isField, isRel⟩ :=
          fieldTarget_decode words[k] (start + k * 4) _ (decoded ▸ isTarget)
        exact ⟨target, fun _ same => (Option.some_inj.mp same).symm, near_of_rel isField isRel⟩
  obtain ⟨page, isPage, isAddress, close⟩ := exists_page near.2
  have apart := offset_mod (start + k * 4) target
  have reach : InReach page (start + k * 4) target := ⟨isPage, by omega, by omega, close⟩
  refine ⟨first start k page isPage isAddress, ?_⟩
  cases c with
  | b to_ =>
      obtain rfl : to_ = target := leads to_ rfl
      obtain ⟨t, planned⟩ := reach.jump .none false false
      exact patched_first isClass notMarked (if_pos (of_decide_eq_true hookable)) planned
  | bCond cond to_ =>
      obtain rfl : to_ = target := leads to_ rfl
      obtain ⟨t, planned⟩ := reach.jump (.cond cond) false false
      exact patched_first isClass notMarked (if_pos (of_decide_eq_true hookable)) planned
  | cbz sf rt nonzero to_ =>
      obtain rfl : to_ = target := leads to_ rfl
      obtain ⟨t, planned⟩ := reach.jump (.cbz sf rt nonzero) false false
      exact patched_first isClass notMarked (if_pos (of_decide_eq_true hookable)) planned
  | tbz rt bit nonzero to_ =>
      obtain rfl : to_ = target := leads to_ rfl
      obtain ⟨t, planned⟩ := reach.jump (.tbz rt bit nonzero) false false
      exact patched_first isClass notMarked (if_pos (of_decide_eq_true hookable)) planned
  | bl to_ =>
      obtain rfl : to_ = target := leads to_ rfl
      obtain ⟨t, planned⟩ := reach.jump .none true true
      exact patched_first isClass notMarked rfl planned
  | br rn =>
      obtain ⟨t, planned⟩ := reach.indirect false rn
      exact patched_first isClass notMarked rfl planned
  | blr rn =>
      obtain ⟨t, planned⟩ := reach.indirect true rn
      exact patched_first isClass notMarked (if_neg (of_decide_eq_true hookable)) planned
  | counter rt =>
      obtain ⟨t, planned⟩ := reach.counter rt
      exact patched_first isClass notMarked (if_pos (of_decide_eq_true hookable)) planned
  | mem base =>
      obtain ⟨t, planned⟩ := reach.replay (words.getD k 0)
      refine patched_first isClass notMarked (if_neg fun kept => ?_) planned
      unfold Class.hookable at hookable
      obtain ⟨rfl | rfl, private_⟩ := kept <;> simp_all
  | _ => cases hookable

/-- A function that is spared in every setting is careful. -/
theorem careful_of_spared
    (aligned : 4 ∣ start)
    (spared : ∀ setting : Setting, setting.Spared start words) : Careful start words := by
  intro load store path retry k isOn
  by_contra loud
  obtain ⟨setting, patched⟩ := exists_patched aligned loud
  exact (spared setting).retry load store path retry k isOn patched

end Setting

/-- `ldxr x0, [x1]`, `add`, `stxr w2, x0, [x1]` and `cbnz w2` back to the load; `subs x3` and
`b.ne` back to it, which is no retry and is hooked. -/
def counting : List Nat :=
  [0xC85F7C20, 0x91000400, 0xC8027C20, 0x35FFFFA2, 0xF1000463, 0x54FFFF61]

theorem classesOf_counting : classesOf 0x100000000 counting =
    [.exclusiveLoad, .other, .exclusiveStore, .cbz false 2 true 0x100000000, .other,
      .bCond 1 0x100000000] := by decide

end Rewrite

end Derp
