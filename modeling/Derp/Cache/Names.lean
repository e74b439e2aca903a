import Derp.Library.Fields
import Derp.Rewrite.Hooks

/-!
# What the files of the cache are called

A rewritten copy is called after the program, the options and the time and size of
the program's file, so that it is found again; while it is made it has a name that is
taken apart by the process and a number.  No two copies share a name, and no file that
is being made has the name of a copy or of its table.
-/

namespace Derp

namespace Cache

/-- A file by its directory and its name there. -/
structure File where
  dir : Text
  name : Text
deriving DecidableEq, Repr

def File.path (file : File) : Text := file.dir ++ '/' :: file.name

/-- What the cache puts between a program's name and the rest of a copy's. -/
def cacheTag : Text := ".rw6-".toList

/-- A program that is to be rewritten: where its copies go, its file's name, the
options, and its file's time (in nanoseconds) and length. -/
structure Input where
  dir : Text
  file : Text
  opts : Rewrite.Options
  mtime : Nat
  len : Nat
deriving DecidableEq, Repr

namespace Input

/-- `out` -/
def copy (input : Input) : File where
  dir := input.dir
  name := input.file ++ cacheTag ++ Text.decimal input.opts.seed ++
    '-' :: Text.decimal input.opts.memRate.1 ++ "of".toList ++
    Text.decimal input.opts.memRate.2 ++ '-' :: Text.decimal input.mtime ++
    '-' :: Text.decimal input.len

/-- `tmp` -/
def temporary (input : Input) (pid number : Nat) : File where
  dir := input.dir
  name := '.' :: input.file ++ ".rw-tmp-".toList ++ Text.decimal pid ++
    '-' :: Text.decimal number

end Input

/-- Where the site table of a rewritten file is kept. -/
def sitesPath (rewritten : File) : File where
  dir := rewritten.dir
  name := rewritten.name ++ ".sites".toList

variable {input input' : Input} {pid pid' number number' : Nat} {file file' : File}

/-! ## Names taken apart from their ends -/

theorem cacheTag_eq : cacheTag = ".rw6".toList ++ ['-'] := rfl

/-- A copy's name with its numbers at the ends of its parts. -/
theorem Input.copy_name (input : Input) :
    input.copy.name =
      ((((input.file ++ ".rw6".toList) ++ '-' :: Text.decimal input.opts.seed) ++
        '-' :: Text.decimal input.opts.memRate.1) ++ ['o'] ++
        'f' :: Text.decimal input.opts.memRate.2) ++ '-' :: Text.decimal input.mtime ++
        '-' :: Text.decimal input.len := by
  simp only [copy, cacheTag_eq, List.append_assoc, List.cons_append, List.nil_append]
  rfl

theorem Input.temporary_name (input : Input) (pid number : Nat) :
    (input.temporary pid number).name =
      (('.' :: input.file ++ ".rw-tmp".toList) ++ '-' :: Text.decimal pid) ++
        '-' :: Text.decimal number := by
  simp only [temporary, List.append_assoc, List.cons_append]
  rfl

/-- No two inputs share a copy. -/
theorem Input.copy_injective (same : input.copy = input'.copy) : input = input' := by
  have dirs : input.dir = input'.dir := congrArg File.dir same
  have names := congrArg File.name same
  rw [copy_name, copy_name] at names
  obtain ⟨names, -, lens⟩ := Text.append_decimal_inj (by decide) (by decide) names
  obtain ⟨names, -, mtimes⟩ := Text.append_decimal_inj (by decide) (by decide) names
  obtain ⟨names, -, denominators⟩ := Text.append_decimal_inj (by decide) (by decide) names
  obtain ⟨names, -, numerators⟩ := Text.append_decimal_inj (by decide) (by decide)
    (List.append_cancel_right names)
  obtain ⟨names, -, seeds⟩ := Text.append_decimal_inj (by decide) (by decide) names
  have files := List.append_cancel_right names
  obtain ⟨_, _, ⟨_, _, _⟩, _, _⟩ := input
  obtain ⟨_, _, ⟨_, _, _⟩, _, _⟩ := input'
  simp only at dirs files lens mtimes denominators numerators seeds
  subst dirs files lens mtimes denominators numerators seeds
  rfl

/-- A file that is being made is the process's and the number's own. -/
theorem Input.temporary_injective
    (same : input.temporary pid number = input'.temporary pid' number') :
    pid = pid' ∧ number = number' := by
  have names := congrArg File.name same
  rw [temporary_name, temporary_name] at names
  obtain ⟨names, -, numbers⟩ := Text.append_decimal_inj (by decide) (by decide) names
  exact ⟨(Text.append_decimal_inj (by decide) (by decide) names).2.2, numbers⟩

/-- In front of its last two numbers a copy's name has a number, and that of a file that
is being made has not. -/
theorem Input.copy_ne_temporary : input.copy ≠ input'.temporary pid number := by
  intro same
  have names := congrArg File.name same
  rw [copy_name, temporary_name] at names
  obtain ⟨names, -, -⟩ := Text.append_decimal_inj (by decide) (by decide) names
  obtain ⟨names, -, -⟩ := Text.append_decimal_inj (by decide) (by decide) names
  have last : ('.' :: input'.file ++ ".rw-tmp".toList).getLast? = some 'p' := by
    rw [List.getLast?_append]
    rfl
  have isDigit : 'p'.isDigit = true := Text.isDigit_of_getLast? (names ▸ last)
  revert isDigit
  decide

/-! ## Tables -/

theorem sitesPath_injective : Function.Injective sitesPath := by
  intro file file' same
  have names : file.name = file'.name :=
    List.append_cancel_right (congrArg File.name same)
  have dirs : (sitesPath file).dir = (sitesPath file').dir := congrArg File.dir same
  cases file
  cases file'
  exact congrArg₂ File.mk dirs names

/-- The name ends in a number. -/
def File.Numbered (file : File) : Prop :=
  ∃ front mark n, file.name = front ++ mark :: Text.decimal n

theorem Input.copy_numbered (input : Input) : input.copy.Numbered :=
  ⟨_, '-', input.len, copy_name input⟩

theorem Input.temporary_numbered (input : Input) (pid number : Nat) :
    (input.temporary pid number).Numbered :=
  ⟨_, '-', number, temporary_name input pid number⟩

/-- A table is no copy and no file that becomes one. -/
theorem File.Numbered.ne_sitesPath (numbered : file.Numbered) : file ≠ sitesPath file' := by
  rintro rfl
  obtain ⟨front, mark, n, name⟩ := numbered
  have last : (sitesPath file').name.getLast? = some 's' := by
    change (file'.name ++ ".sites".toList).getLast? = _
    rw [List.getLast?_append]
    rfl
  have isDigit : 's'.isDigit = true := Text.isDigit_of_getLast? (name ▸ last)
  revert isDigit
  decide

/-! ## The program of a copy -/

/-- The program a guest takes itself for, by the path that it was started with. -/
def programName (exe : Text) : Text :=
  let file := ((Text.rsplitOnce '/' exe).map Prod.snd).getD exe
  (Text.frontOfLast cacheTag file).getD file

/-- A copy is run under the program's own name, whatever that is. -/
theorem programName_copy (input : Input) (isName : '/' ∉ input.file) :
    programName input.copy.path = input.file := by
  have digits (c : Char) (other : c.isDigit = false) (n : Nat) : c ∉ Text.decimal n :=
    fun present => Bool.false_ne_true (other.symm.trans (Text.isDigit_of_mem_decimal present))
  have noSlash : '/' ∉ input.copy.name := by
    simp [Input.copy, cacheTag, isName, digits '/' (by decide)]
  have noDot : '.' ∉ "rw6-".toList ++ (Text.decimal input.opts.seed ++
      '-' :: Text.decimal input.opts.memRate.1 ++ "of".toList ++
      Text.decimal input.opts.memRate.2 ++ '-' :: Text.decimal input.mtime ++
      '-' :: Text.decimal input.len) := by
    simp [digits '.' (by decide)]
  have front := Text.frontOfLast_append input.file noDot
  have name : input.copy.name = input.file ++ '.' :: "rw6-".toList ++
      (Text.decimal input.opts.seed ++ '-' :: Text.decimal input.opts.memRate.1 ++
        "of".toList ++ Text.decimal input.opts.memRate.2 ++
        '-' :: Text.decimal input.mtime ++ '-' :: Text.decimal input.len) := by
    simp only [Input.copy, cacheTag, List.append_assoc, List.cons_append]
    rfl
  rw [← name] at front
  unfold programName File.path
  rw [Text.rsplitOnce_append _ noSlash]
  exact congrArg (fun found => Option.getD found input.copy.name) front

end Cache

end Derp
