import Derp.Cache.Names
import Derp.Library.Transition
import Derp.Rewrite.Image
import Derp.Rewrite.SiteTable
import Mathlib.Logic.Function.Basic

/-!
# Filling the cache

Several processes, with several threads each, look for the rewritten copy of a program
and make one where there is none.  The image and its table are written and signed under
a name of their own, then the table takes its place, then the image.  A process can be
killed anywhere, while a `codesign` that it started goes on, and another be born with its
pid.  Whatever is found under a copy's name is the whole signed image, and its table is
there, as long as nobody begins to write under a name that such a `codesign` is at work on.
-/

namespace Derp

namespace Cache

open Macho
open Rewrite (Rewritten)

/-! ## Files and jobs -/

/-- What a file holds. -/
structure Stored where
  bytes : List UInt8
  mode : Nat
deriving DecidableEq, Repr

abbrev Disk := File → Option Stored

/-- What rewriting comes to. -/
structure Rewriter where
  /-- Whether the file is a rewritten one already; none if it cannot be read as a program. -/
  known : Input → Option Bool
  rewritten : Input → Option Rewritten
  /-- What `codesign` makes of an image in a file, whose name the signature may hold. -/
  sign : File → List UInt8 → List UInt8

/-- The rewriter at work on what the programs' files hold.  A file of another time or
length is another input. -/
def Rewriter.ofPrograms [Build] (program : Input → List UInt8)
    (sign : File → List UInt8 → List UInt8) : Rewriter where
  known input :=
    match MachO.parse (program input) with
    | .ok m => some (m.segment STUB_TEXT_SEGMENT).isSome
    | _ => none
  rewritten input :=
    match MachO.parse (program input) >>= fun m => Rewrite.rewrite m input.opts with
    | .ok r => some r
    | _ => none
  sign := sign

/-- The image, as a program that can be run. -/
def executable (r : Rewritten) : Stored where
  bytes := r.image
  mode := 0o755

/-- The file once it is signed. -/
def Rewriter.signs (rewriter : Rewriter) (file : File) (stored : Stored) : Stored :=
  { stored with bytes := rewriter.sign file stored.bytes }

/-- The signed image. -/
def Rewriter.signed (rewriter : Rewriter) (file : File) (r : Rewritten) : Stored :=
  rewriter.signs file (executable r)

def tableBytes (r : Rewritten) : List UInt8 :=
  (Rewrite.sitesToText r.sites).map fun c => c.toNat.toUInt8

/-- A rewritten program and the number of its temporary name. -/
structure Making where
  number : Nat
  made : Rewritten

/-- What a call of `cached_rewrite` does next. -/
inductive Stage
  /-- It reads whether the program is a rewritten one. -/
  | reads
  /-- It asks whether there is a copy. -/
  | looks
  /-- It takes a number for a temporary name. -/
  | numbers
  | rewrites (number : Nat)
  /-- It opens the file for the image, which cuts it to nothing. -/
  | creates (m : Making)
  | writes (m : Making)
  | permits (m : Making)
  | signs (m : Making)
  | createsTable (m : Making)
  | writesTable (m : Making)
  | movesTable (m : Making)
  | moves (m : Making)
  /-- It has returned the copy. -/
  | done
  /-- It has returned the program itself, which is a rewritten one. -/
  | itself
  | failed

namespace Stage

/-- The number of the temporary name. -/
def number : Stage → Option Nat
  | rewrites number => some number
  | creates m | writes m | permits m | signs m | createsTable m | writesTable m | movesTable m
  | moves m => some m.number
  | reads | looks | numbers | done | itself | failed => none

def IsOver : Stage → Prop
  | done | itself | failed => True
  | _ => False

instance (stage : Stage) : Decidable stage.IsOver := by
  cases stage <;> unfold IsOver <;> infer_instance

end Stage

/-- A call of `cached_rewrite`. -/
structure Job where
  input : Input
  stage : Stage

/-- A thread of a process. -/
abbrev Id := Nat × Nat

def Job.tmp (job : Job) (id : Id) (m : Making) : File := job.input.temporary id.1 m.number

/-- The disk, and the processes that fill the cache on it. -/
structure World where
  files : Disk
  /-- `NEXT_TMP` of each process. -/
  next : Nat → UInt32
  jobs : Id → Option Job
  /-- The files that a `codesign` is at work on, as it read them.  It does not end with the
  process that started it. -/
  signers : List (File × Stored)

/-- What happens next, to whom. -/
inductive Event
  /-- A thread calls `cached_rewrite`. -/
  | starts (id : Id) (input : Input)
  /-- A call goes on; a file that it creates has this mode. -/
  | goes (id : Id) (mode : Nat)
  /-- The file that a call is at work on holds this for now. -/
  | holds (id : Id) (part : List UInt8)
  /-- A `codesign` makes this of its file for now, or puts it aside. -/
  | works (file : File) (stored : Option Stored)
  /-- A `codesign` ends without success, or with nobody to tell of it. -/
  | gives (file : File)
  /-- A call of the system fails. -/
  | fails (id : Id)
  /-- A process is killed; its pid is free. -/
  | dies (pid : Nat)

/-! ## Steps -/

namespace Disk

def put (files : Disk) (file : File) (stored : Option Stored) : Disk :=
  Function.update files file stored

/-- The file is opened to be written anew. -/
def create (files : Disk) (file : File) (mode : Nat) : Disk :=
  files.put file (some { bytes := [], mode := ((files file).map Stored.mode).getD mode })

def alter (files : Disk) (file : File) (change : Stored → Stored) : Disk :=
  files.put file ((files file).map change)

/-- The file takes the other's place, if there is one to take it. -/
def rename (files : Disk) (file other : File) : Option Disk :=
  (files file).map fun stored => (files.put file none).put other (some stored)

end Disk

namespace World

variable (rewriter : Rewriter)

def setStage (w : World) (id : Id) (job : Job) (stage : Stage) : World :=
  { w with jobs := Function.update w.jobs id (some { job with stage }) }

def setFiles (w : World) (files : Disk) : World := { w with files }

/-- A `codesign` is started on the file. -/
def spawn (w : World) (file : File) : World :=
  { w with signers := (w.files file).toList.map (file, ·) ++ w.signers }

/-- A `codesign` is not at work on the file any more: the last that was started on it. -/
def reap (w : World) (file : File) : World :=
  { w with signers := w.signers.eraseP (·.1 = file) }

/-- What the last `codesign` to work on the file has read. -/
def read (w : World) (file : File) : Option Stored :=
  (w.signers.find? (·.1 = file)).map Prod.snd

/-- The next step of a call. -/
def go (w : World) (id : Id) (job : Job) (mode : Nat) : Option World :=
  match job.stage with
  | .reads =>
      match rewriter.known job.input with
      | none => some (w.setStage id job .failed)
      | some true => some (w.setStage id job .itself)
      | some false => some (w.setStage id job .looks)
  | .looks =>
      some (w.setStage id job (if (w.files job.input.copy).isSome then .done else .numbers))
  | .numbers =>
      some { w.setStage id job (.rewrites (w.next id.1).toNat) with
        next := Function.update w.next id.1 (w.next id.1 + 1) }
  | .rewrites number =>
      match rewriter.rewritten job.input with
      | none => some (w.setStage id job .failed)
      | some made => some (w.setStage id job (.creates { number, made }))
  | .creates m =>
      some ((w.setFiles (w.files.create (job.tmp id m) mode)).setStage id job (.writes m))
  | .writes m =>
      some ((w.setFiles (w.files.alter (job.tmp id m)
        ({ · with bytes := m.made.image }))).setStage id job (.permits m))
  | .permits m =>
      some (((w.setFiles (w.files.alter (job.tmp id m)
        ({ · with mode := 0o755 }))).setStage id job (.signs m)).spawn (job.tmp id m))
  | .signs m =>
      (w.read (job.tmp id m)).map fun stored =>
        ((w.setFiles (w.files.put (job.tmp id m)
          (some (rewriter.signs (job.tmp id m) stored)))).setStage id job
            (.createsTable m)).reap (job.tmp id m)
  | .createsTable m =>
      some ((w.setFiles (w.files.create (sitesPath (job.tmp id m)) mode)).setStage id
        job (.writesTable m))
  | .writesTable m =>
      some ((w.setFiles (w.files.alter (sitesPath (job.tmp id m))
        ({ · with bytes := tableBytes m.made }))).setStage id job (.movesTable m))
  | .movesTable m =>
      match w.files.rename (sitesPath (job.tmp id m)) (sitesPath job.input.copy) with
      | none => some (w.setStage id job .failed)
      | some files => some ((w.setFiles files).setStage id job (.moves m))
  | .moves m =>
      match w.files.rename (job.tmp id m) job.input.copy with
      | none => some (w.setStage id job .failed)
      | some files => some ((w.setFiles files).setStage id job .done)
  | .done | .itself | .failed => none

/-- The file that a call has open. -/
def workpiece (id : Id) (job : Job) : Option File :=
  match job.stage with
  | .writes m => some (job.tmp id m)
  | .writesTable m => some (sitesPath (job.tmp id m))
  | _ => none

/-- One event, if it can happen. -/
def perform (w : World) : Event → Option World
  | .starts id input =>
      if ∀ job ∈ w.jobs id, job.stage.IsOver then
        some { w with jobs := Function.update w.jobs id (some { input, stage := .reads }) }
      else none
  | .goes id mode => (w.jobs id).bind fun job => w.go rewriter id job mode
  | .holds id part =>
      (w.jobs id).bind fun job => (workpiece id job).map fun file =>
        w.setFiles (w.files.alter file ({ · with bytes := part }))
  | .works file stored =>
      if (w.read file).isSome then some (w.setFiles (w.files.put file stored)) else none
  | .gives file => some (w.reap file)
  | .fails id =>
      (w.jobs id).bind fun job =>
        if job.stage.IsOver then none else some (w.setStage id job .failed)
  | .dies pid =>
      some { w with
        next := Function.update w.next pid 0
        jobs := fun id => if id.1 = pid then none else w.jobs id }

end World

/-- The cache has no copies at first; what else there is on the disk is any. -/
def system (rewriter : Rewriter) : Transition World Event where
  init w := (∀ input, w.files (Input.copy input) = none ∧
    w.files (sitesPath (Input.copy input)) = none) ∧ (∀ id, w.jobs id = none) ∧ w.signers = []
  step w event later := w.perform rewriter event = some later

/-- No process counts to the end of its numbers, and none takes a name that a `codesign`
is at work on, which one with its pid has left behind. -/
def Event.isCareful (w : World) : Event → Bool
  | .goes id _ =>
      match w.jobs id with
      | some job =>
          match job.stage with
          | .numbers => w.next id.1 + 1 ≠ 0 ∧
              w.read (job.input.temporary id.1 (w.next id.1).toNat) = none
          | _ => true
      | none => true
  | _ => true

def careful (rewriter : Rewriter) : Transition World Event :=
  (system rewriter).restrict fun w event => event.isCareful w = true

/-! ## What holds of the disk -/

variable {rewriter : Rewriter} {files later : Disk} {w w' : World} {id : Id} {job : Job}

/-- The table of the input's copy is there. -/
def Disk.HasTable (files : Disk) (input : Input) (r : Rewritten) : Prop :=
  ∃ stored, files (sitesPath input.copy) = some stored ∧ stored.bytes = tableBytes r

/-- What has the name of a copy is one, and what has the name of a table is one. -/
structure Disk.Clean (rewriter : Rewriter) (files : Disk) : Prop where
  copies : ∀ input stored, files (Input.copy input) = some stored →
    ∃ r pid number, rewriter.rewritten input = some r ∧
      stored = rewriter.signed (input.temporary pid number) r ∧ files.HasTable input r
  tables : ∀ input stored, files (sitesPath (Input.copy input)) = some stored →
    ∃ r, rewriter.rewritten input = some r ∧ stored.bytes = tableBytes r

/-- A change of the disk that a call notices only if one of these files is what it makes. -/
structure Disk.Spares (rewriter : Rewriter) (own : File → Prop) (files later : Disk) :
    Prop where
  others : ∀ (input : Input) pid number, ¬ own (input.temporary pid number) →
    later (input.temporary pid number) = files (input.temporary pid number) ∧
      later (sitesPath (input.temporary pid number)) =
        files (sitesPath (input.temporary pid number))
  tables : ∀ input r, rewriter.rewritten input = some r → files.HasTable input r →
    later.HasTable input r
  copies : ∀ input, files (Input.copy input) ≠ none → later (Input.copy input) ≠ none

namespace Disk

variable {own : File → Prop} {file other : File} {input : Input} {pid number : Nat}
  {stored : Option Stored} {r : Rewritten}

theorem put_self : files.put file stored file = stored := Function.update_self ..

theorem put_of_ne (apart : other ≠ file) : files.put file stored other = files other :=
  Function.update_of_ne apart ..

theorem put_ne_none {found : Stored} : files.put file (some found) file ≠ none := by
  rw [put_self]
  exact Option.some_ne_none found

theorem alter_ne_none {change : Stored → Stored} (present : files file ≠ none) :
    files.alter file change file ≠ none := by
  obtain ⟨found, isThere⟩ := Option.ne_none_iff_exists'.1 present
  unfold alter
  rw [isThere]
  exact put_ne_none

theorem Spares.refl (own : File → Prop) (files : Disk) : Spares rewriter own files files :=
  ⟨fun _ _ _ _ => ⟨rfl, rfl⟩, fun _ _ _ => id, fun _ => id⟩

theorem Spares.trans {last : Disk} (first : Spares rewriter own files later)
    (second : Spares rewriter own later last) : Spares rewriter own files last where
  others input pid number notOwn :=
    have before := first.others input pid number notOwn
    have after := second.others input pid number notOwn
    ⟨after.1.trans before.1, after.2.trans before.2⟩
  tables input r made kept := second.tables input r made (first.tables input r made kept)
  copies input present := second.copies input (first.copies input present)

/-- The file is what a call makes, or the table of it. -/
def Draft (input : Input) (pid number : Nat) (file : File) : Prop :=
  file = input.temporary pid number ∨ file = sitesPath (input.temporary pid number)

theorem Draft.ne_copy (draft : Draft input pid number file) (published : Input) :
    file ≠ published.copy := by
  obtain rfl | rfl := draft
  · exact fun same => Input.copy_ne_temporary same.symm
  · exact fun same => published.copy_numbered.ne_sitesPath same.symm

theorem Draft.ne_table (draft : Draft input pid number file) (published : Input) :
    file ≠ sitesPath published.copy := by
  obtain rfl | rfl := draft
  · exact (input.temporary_numbered pid number).ne_sitesPath
  · exact fun same => Input.copy_ne_temporary (sitesPath_injective same).symm

theorem HasTable.put (kept : files.HasTable input r) (apart : sitesPath input.copy ≠ file) :
    (files.put file stored).HasTable input r := by
  obtain ⟨table, found, bytes⟩ := kept
  exact ⟨table, (put_of_ne apart).trans found, bytes⟩

/-! What is done to a file that is being made, is done out of sight. -/

theorem Clean.draft (clean : files.Clean rewriter) (draft : Draft input pid number file)
    (stored : Option Stored) : (files.put file stored).Clean rewriter := by
  refine ⟨fun published found isThere => ?_, fun published found isThere => ?_⟩
  · rw [put_of_ne (draft.ne_copy published).symm] at isThere
    obtain ⟨r, pid, number, made, same, kept⟩ := clean.copies published found isThere
    exact ⟨r, pid, number, made, same, kept.put (draft.ne_table published).symm⟩
  · rw [put_of_ne (draft.ne_table published).symm] at isThere
    exact clean.tables published found isThere

theorem Spares.draft (files : Disk) (draft : Draft input pid number file)
    (stored : Option Stored) :
    Spares rewriter (· = input.temporary pid number) files (files.put file stored) where
  others other pid' number' notOwn := by
    obtain rfl | rfl := draft
    · exact ⟨put_of_ne notOwn,
        put_of_ne (input.temporary_numbered pid number).ne_sitesPath.symm⟩
    · exact ⟨put_of_ne (other.temporary_numbered pid' number').ne_sitesPath,
        put_of_ne fun same => notOwn (sitesPath_injective same)⟩
  tables published _ _ kept := kept.put (draft.ne_table published).symm
  copies published present := by rwa [put_of_ne (draft.ne_copy published).symm]

/-! A table that takes its place is the one that may be there already, and so is a copy. -/

variable {table : Stored}

theorem Clean.putTable (clean : files.Clean rewriter) (made : rewriter.rewritten input = some r)
    (bytes : table.bytes = tableBytes r) :
    (files.put (sitesPath input.copy) (some table)).Clean rewriter := by
  refine ⟨fun published found isThere => ?_, fun published found isThere => ?_⟩
  · rw [put_of_ne published.copy_numbered.ne_sitesPath] at isThere
    obtain ⟨r', pid, number, made', same, kept⟩ := clean.copies published found isThere
    refine ⟨r', pid, number, made', same, ?_⟩
    by_cases isIt : published = input
    · subst isIt
      obtain rfl := Option.some.inj (made.symm.trans made')
      exact ⟨table, put_self, bytes⟩
    · exact kept.put fun same => isIt (Input.copy_injective (sitesPath_injective same))
  · by_cases isIt : published = input
    · subst isIt
      obtain rfl := Option.some.inj (put_self.symm.trans isThere)
      exact ⟨r, made, bytes⟩
    · rw [put_of_ne fun same => isIt (Input.copy_injective (sitesPath_injective same))]
        at isThere
      exact clean.tables published found isThere

theorem Spares.putTable (own : File → Prop) (files : Disk)
    (made : rewriter.rewritten input = some r) (bytes : table.bytes = tableBytes r) :
    Spares rewriter own files (files.put (sitesPath input.copy) (some table)) where
  others other pid number _ :=
    ⟨put_of_ne (other.temporary_numbered pid number).ne_sitesPath,
      put_of_ne fun same => Input.copy_ne_temporary (sitesPath_injective same).symm⟩
  tables published r' made' kept := by
    by_cases isIt : published = input
    · subst isIt
      obtain rfl := Option.some.inj (made.symm.trans made')
      exact ⟨table, put_self, bytes⟩
    · exact kept.put fun same => isIt (Input.copy_injective (sitesPath_injective same))
  copies published present := by rwa [put_of_ne published.copy_numbered.ne_sitesPath]

theorem Clean.putCopy (clean : files.Clean rewriter) (made : rewriter.rewritten input = some r)
    (kept : files.HasTable input r) (pid number : Nat) :
    (files.put input.copy (some (rewriter.signed (input.temporary pid number) r))).Clean
      rewriter := by
  refine ⟨fun published found isThere => ?_, fun published found isThere => ?_⟩
  · by_cases isIt : published = input
    · subst isIt
      obtain rfl := Option.some.inj (put_self.symm.trans isThere)
      exact ⟨r, pid, number, made, rfl, kept.put published.copy_numbered.ne_sitesPath.symm⟩
    · rw [put_of_ne fun same => isIt (Input.copy_injective same)] at isThere
      obtain ⟨r', pid', number', made', same, kept⟩ := clean.copies published found isThere
      exact ⟨r', pid', number', made', same, kept.put input.copy_numbered.ne_sitesPath.symm⟩
  · rw [put_of_ne input.copy_numbered.ne_sitesPath.symm] at isThere
    exact clean.tables published found isThere

theorem Spares.putCopy (own : File → Prop) (files : Disk) (input : Input) (copy : Stored) :
    Spares rewriter own files (files.put input.copy (some copy)) where
  others other pid number _ :=
    ⟨put_of_ne fun same => Input.copy_ne_temporary same.symm,
      put_of_ne input.copy_numbered.ne_sitesPath.symm⟩
  tables _ _ _ kept := kept.put input.copy_numbered.ne_sitesPath.symm
  copies published present := by
    by_cases isIt : published = input
    · rw [isIt]
      exact put_ne_none
    · rwa [put_of_ne fun same => isIt (Input.copy_injective same)]

end Disk

/-! ## What holds of a call -/

/-- What is there of what a call makes, by where the call is. -/
def Job.Working (rewriter : Rewriter) (files : Disk) (id : Id) (job : Job) : Prop :=
  match job.stage with
  | .reads | .looks | .numbers | .rewrites _ | .itself | .failed => True
  | .creates m => rewriter.rewritten job.input = some m.made
  | .writes m => rewriter.rewritten job.input = some m.made ∧ files (job.tmp id m) ≠ none
  | .permits m => rewriter.rewritten job.input = some m.made ∧
      ∃ stored, files (job.tmp id m) = some stored ∧ stored.bytes = m.made.image
  | .signs m => rewriter.rewritten job.input = some m.made
  | .createsTable m => rewriter.rewritten job.input = some m.made ∧
      files (job.tmp id m) = some (rewriter.signed (job.tmp id m) m.made)
  | .writesTable m => rewriter.rewritten job.input = some m.made ∧
      files (job.tmp id m) = some (rewriter.signed (job.tmp id m) m.made) ∧
      files (sitesPath (job.tmp id m)) ≠ none
  | .movesTable m => rewriter.rewritten job.input = some m.made ∧
      files (job.tmp id m) = some (rewriter.signed (job.tmp id m) m.made) ∧
      ∃ stored, files (sitesPath (job.tmp id m)) = some stored ∧
        stored.bytes = tableBytes m.made
  | .moves m => rewriter.rewritten job.input = some m.made ∧
      files (job.tmp id m) = some (rewriter.signed (job.tmp id m) m.made) ∧
      files.HasTable job.input m.made
  | .done => files job.input.copy ≠ none

/-- The disk is clean, and every call is where its files are. -/
structure Sound (rewriter : Rewriter) (w : World) : Prop where
  clean : w.files.Clean rewriter
  /-- The numbers of a process have been counted, -/
  counted : ∀ {id job number}, w.jobs id = some job → job.stage.number = some number →
    number < (w.next id.1).toNat
  /-- and each is one call's. -/
  apart : ∀ {id id' job job' number}, w.jobs id = some job → w.jobs id' = some job' →
    id.1 = id'.1 → job.stage.number = some number → job'.stage.number = some number → id = id'
  working : ∀ {id job}, w.jobs id = some job → job.Working rewriter w.files id
  /-- A `codesign` is at work on a file that is being made, -/
  drafts : ∀ {file stored}, (file, stored) ∈ w.signers →
    ∃ (input : Input) (pid number : Nat), file = input.temporary pid number
  /-- and if that is a call's, it is the call's `codesign`, and has read its image. -/
  signing : ∀ {id job number stored}, w.jobs id = some job → job.stage.number = some number →
    (job.input.temporary id.1 number, stored) ∈ w.signers →
      ∃ m, job.stage = .signs m ∧ stored = executable m.made
  /-- There is one for a file at most. -/
  single : (w.signers.map Prod.fst).Nodup

/-- A call does not notice what others do. -/
theorem Job.Working.spared {own : File → Prop} (working : job.Working rewriter files id)
    (spares : Disk.Spares rewriter own files later)
    (notOwn : ∀ number, job.stage.number = some number → ¬ own (job.input.temporary id.1 number)) :
    job.Working rewriter later id := by
  obtain ⟨input, stage⟩ := job
  have others := spares.others input id.1
  cases stage with
  | reads | looks | numbers | rewrites _ | itself | failed => trivial
  | creates m | signs m => exact working
  | done => exact spares.copies input working
  | writes m | permits m | createsTable m =>
      obtain ⟨same, -⟩ := others m.number (notOwn m.number rfl)
      simp only [Working, tmp] at working ⊢
      rw [same]
      exact working
  | writesTable m | movesTable m =>
      obtain ⟨same, sameTable⟩ := others m.number (notOwn m.number rfl)
      simp only [Working, tmp] at working ⊢
      rw [same, sameTable]
      exact working
  | moves m =>
      obtain ⟨same, -⟩ := others m.number (notOwn m.number rfl)
      obtain ⟨made, image, kept⟩ := working
      exact ⟨made, same.trans image, spares.tables input m.made made kept⟩

/-! ## Every step -/

theorem World.jobs_setStage {stage : Stage} {other : Id} {job' : Job}
    (now : (w.setStage id job stage).jobs other = some job') :
    other = id ∧ { job with stage := stage } = job' ∨
      other ≠ id ∧ w.jobs other = some job' := by
  change Function.update w.jobs id (some { job with stage := stage }) other = some job' at now
  by_cases isIt : other = id
  · rw [isIt, Function.update_self] at now
    exact .inl ⟨isIt, Option.some.inj now⟩
  · rw [Function.update_of_ne isIt] at now
    exact .inr ⟨isIt, now⟩

theorem World.mem_of_read {file : File} {stored : Stored} (isRead : w.read file = some stored) :
    (file, stored) ∈ w.signers := by
  obtain ⟨⟨file', stored'⟩, found, rfl⟩ := Option.map_eq_some_iff.1 isRead
  have isFile : file' = file := by simpa using List.find?_some found
  exact isFile ▸ List.mem_of_find?_eq_some found

theorem World.notMem_of_read {file : File} (unread : w.read file = none) (stored : Stored) :
    (file, stored) ∉ w.signers := fun present => by
  have notIt := List.find?_eq_none.1 (Option.map_eq_none_iff.1 unread) _ present
  exact notIt (decide_eq_true rfl)

/-- One that is at work on a file alone leaves it. -/
theorem notMem_eraseP {signers : List (File × Stored)} (single : (signers.map Prod.fst).Nodup)
    (file : File) (stored : Stored) : (file, stored) ∉ signers.eraseP (·.1 = file) := by
  induction signers with
  | nil => exact List.not_mem_nil
  | cons signer signers ih =>
      rw [List.map_cons, List.nodup_cons] at single
      by_cases isIt : signer.1 = file
      · rw [List.eraseP_cons_of_pos (by simpa using isIt)]
        exact fun present => single.1 (List.mem_map.2 ⟨_, present, isIt.symm⟩)
      · rw [List.eraseP_cons_of_neg (by simpa using isIt), List.mem_cons]
        rintro (rfl | present)
        · exact isIt rfl
        · exact ih single.2 present

/-- What a call makes has a name that no other call's has. -/
theorem Sound.own {number : Nat} (sound : Sound rewriter w) (there : w.jobs id = some job)
    (numbered : job.stage.number = some number) {other : Id} {job' : Job}
    (isOther : other ≠ id) (thereToo : w.jobs other = some job') {number' : Nat}
    (numberedToo : job'.stage.number = some number') :
    job'.input.temporary other.1 number' ≠ job.input.temporary id.1 number := by
  intro same
  obtain ⟨pids, rfl⟩ := Input.temporary_injective same
  exact isOther (sound.apart thereToo there pids numberedToo numbered)

/-- No `codesign` is at work on what a call makes that does not wait for one. -/
theorem Sound.unsigned {number : Nat} {stored : Stored}
    (sound : Sound rewriter w)
    (there : w.jobs id = some job)
    (numbered : job.stage.number = some number)
    (notSigns : ∀ m, job.stage ≠ .signs m) :
    (job.input.temporary id.1 number, stored) ∉ w.signers := by
  intro present
  obtain ⟨m, isStage, -⟩ := sound.signing there numbered present
  exact notSigns m isStage

/-- A call goes on: the disk stays clean, no other call notices, it keeps its number, and a
`codesign` that is started is its own. -/
theorem Sound.moved {own : File → Prop} {stage : Stage} {signers : List (File × Stored)}
    (sound : Sound rewriter w)
    (there : w.jobs id = some job)
    (clean : later.Clean rewriter)
    (spares : Disk.Spares rewriter own w.files later)
    (notOwn : ∀ other ≠ id, ∀ job', w.jobs other = some job' → ∀ number,
      job'.stage.number = some number → ¬ own (job'.input.temporary other.1 number))
    (same : ∀ number, stage.number = some number → job.stage.number = some number)
    (working : { job with stage := stage }.Working rewriter later id)
    (kept : ∀ entry ∈ signers, entry ∈ w.signers ∨
      ∃ m, stage = .signs m ∧ entry = (job.tmp id m, executable m.made))
    (signing : ∀ number stored, stage.number = some number →
      (job.input.temporary id.1 number, stored) ∈ signers →
        ∃ m, stage = .signs m ∧ stored = executable m.made)
    (single : (signers.map Prod.fst).Nodup) :
    Sound rewriter { (w.setFiles later).setStage id job stage with signers := signers } := by
  have before {other : Id} {job' : Job} {number : Nat}
      (thereNow : ((w.setFiles later).setStage id job stage).jobs other = some job')
      (numbered : job'.stage.number = some number) :
      ∃ job'', w.jobs other = some job'' ∧ job''.stage.number = some number := by
    obtain ⟨rfl, rfl⟩ | ⟨-, old⟩ := World.jobs_setStage thereNow
    · exact ⟨job, there, same number numbered⟩
    · exact ⟨job', old, numbered⟩
  refine ⟨clean, fun thereNow numbered => ?_, fun thereNow thereToo pids numbered too => ?_,
    fun {other job'} thereNow => ?_, fun {file stored} present => ?_,
    fun {other job' number stored} thereNow numbered present => ?_, single⟩
  · obtain ⟨job'', old, was⟩ := before thereNow numbered
    exact sound.counted old was
  · obtain ⟨_, old, was⟩ := before thereNow numbered
    obtain ⟨_, oldToo, wasToo⟩ := before thereToo too
    exact sound.apart old oldToo pids was wasToo
  · obtain ⟨rfl, rfl⟩ | ⟨isOther, old⟩ := World.jobs_setStage thereNow
    · exact working
    · exact (sound.working old).spared spares (notOwn other isOther job' old)
  · obtain was | ⟨m, -, isOwn⟩ := kept _ present
    · exact sound.drafts was
    · obtain ⟨rfl, rfl⟩ := Prod.mk.inj isOwn
      exact ⟨job.input, id.1, m.number, rfl⟩
  · obtain ⟨rfl, rfl⟩ | ⟨isOther, old⟩ := World.jobs_setStage thereNow
    · exact signing number stored numbered present
    · obtain was | ⟨m, rfl, isOwn⟩ := kept _ present
      · exact sound.signing old numbered was
      · exact absurd (Prod.mk.inj isOwn).1
          (sound.own there (same m.number rfl) isOther old numbered)

/-- A call goes on and leaves the disk as it is. -/
theorem Sound.turned {stage : Stage}
    (sound : Sound rewriter w)
    (there : w.jobs id = some job)
    (same : ∀ number, stage.number = some number →
      job.stage.number = some number ∧ ∀ m, job.stage ≠ .signs m)
    (working : { job with stage := stage }.Working rewriter w.files id) :
    Sound rewriter (w.setStage id job stage) :=
  sound.moved there sound.clean (Disk.Spares.refl (fun _ => False) w.files)
    (fun _ _ _ _ _ _ => not_false) (fun number isNumber => (same number isNumber).1) working
    (fun _ => .inl) (fun number _ isNumber present =>
      absurd present (sound.unsigned there (same number isNumber).1 (same number isNumber).2))
    sound.single

/-- A call goes on with what it makes. -/
theorem Sound.drafted {stage : Stage} {number : Nat} {file : File} {stored : Option Stored}
    (sound : Sound rewriter w)
    (there : w.jobs id = some job)
    (numbered : job.stage.number = some number)
    (draft : Disk.Draft job.input id.1 number file)
    (notSigns : ∀ m, job.stage ≠ .signs m)
    (same : ∀ n, stage.number = some n → n = number)
    (working : { job with stage := stage }.Working rewriter (w.files.put file stored) id) :
    Sound rewriter ((w.setFiles (w.files.put file stored)).setStage id job stage) :=
  sound.moved there (sound.clean.draft draft stored)
    (Disk.Spares.draft w.files draft stored)
    (fun _ isOther _ old _ isNumber => sound.own there numbered isOther old isNumber)
    (fun n isNumber => (same n isNumber) ▸ numbered) working
    (fun _ => .inl) (fun n _ isNumber present =>
      absurd present (sound.unsigned there ((same n isNumber) ▸ numbered) notSigns))
    sound.single

/-- A call takes a number. -/
theorem Sound.numbered
    (sound : Sound rewriter w)
    (there : w.jobs id = some job)
    (counts : w.next id.1 + 1 ≠ 0)
    (unused : w.read (job.input.temporary id.1 (w.next id.1).toNat) = none) :
    Sound rewriter { w.setStage id job (.rewrites (w.next id.1).toNat) with
      next := Function.update w.next id.1 (w.next id.1 + 1) } := by
  have more : (w.next id.1 + 1).toNat = (w.next id.1).toNat + 1 := by
    have small := (w.next id.1).toNat_lt
    have nonzero : (w.next id.1 + 1).toNat ≠ 0 := fun zero =>
      counts (UInt32.toNat_inj.1 zero)
    rw [UInt32.toNat_add] at nonzero ⊢
    change ((w.next id.1).toNat + 1) % 2 ^ 32 ≠ 0 at nonzero
    change ((w.next id.1).toNat + 1) % 2 ^ 32 = _
    omega
  -- The number is past all that were counted.
  have fresh {other : Id} {job' : Job} {number : Nat} (old : w.jobs other = some job')
      (pids : other.1 = id.1) (isNumber : job'.stage.number = some number) :
      number ≠ (w.next id.1).toNat := by
    have counted := sound.counted old isNumber
    rw [pids] at counted
    exact counted.ne
  refine ⟨sound.clean, fun {other job' number} thereNow isNumber => ?_,
    fun {other other' job' job'' number} thereNow thereToo pids isNumber isToo => ?_,
    fun {other job'} thereNow => ?_, sound.drafts,
    fun {other job' number stored} thereNow isNumber present => ?_, sound.single⟩
  · change number < (Function.update w.next id.1 (w.next id.1 + 1) other.1).toNat
    obtain ⟨rfl, rfl⟩ | ⟨-, old⟩ := World.jobs_setStage thereNow
    · rw [Function.update_self, ← Option.some.inj isNumber, more]
      exact Nat.lt_succ_self _
    · have counted := sound.counted old isNumber
      by_cases pids : other.1 = id.1
      · rw [pids] at counted ⊢
        rw [Function.update_self, more]
        exact Nat.lt_succ_of_lt counted
      · rwa [Function.update_of_ne pids]
  · obtain ⟨rfl, rfl⟩ | ⟨-, old⟩ := World.jobs_setStage thereNow
    · obtain ⟨rfl, rfl⟩ | ⟨-, oldToo⟩ := World.jobs_setStage thereToo
      · rfl
      · exact absurd (Option.some.inj isNumber).symm (fresh oldToo pids.symm isToo)
    · obtain ⟨rfl, rfl⟩ | ⟨-, oldToo⟩ := World.jobs_setStage thereToo
      · exact absurd (Option.some.inj isToo).symm (fresh old pids isNumber)
      · exact sound.apart old oldToo pids isNumber isToo
  · obtain ⟨rfl, rfl⟩ | ⟨-, old⟩ := World.jobs_setStage thereNow
    · trivial
    · exact sound.working old
  · obtain ⟨rfl, rfl⟩ | ⟨-, old⟩ := World.jobs_setStage thereNow
    · obtain rfl := Option.some.inj isNumber
      exact absurd present (World.notMem_of_read unused stored)
    · exact sound.signing old isNumber present

theorem Disk.rename_eq {file other : File} {stored : Stored} (there : files file = some stored) :
    files.rename file other = some ((files.put file none).put other (some stored)) := by
  unfold rename
  rw [there]
  rfl

/-- The table takes its place. -/
theorem Sound.published {m : Making} {table : Stored}
    (sound : Sound rewriter w)
    (there : w.jobs id = some job)
    (numbered : job.stage.number = some m.number)
    (made : rewriter.rewritten job.input = some m.made)
    (notSigns : ∀ m, job.stage ≠ .signs m)
    (image : w.files (job.tmp id m) = some (rewriter.signed (job.tmp id m) m.made))
    (bytes : table.bytes = tableBytes m.made) :
    Sound rewriter ((w.setFiles ((w.files.put (sitesPath (job.tmp id m)) none).put
      (sitesPath job.input.copy) (some table))).setStage id job (.moves m)) := by
  have draft : Disk.Draft job.input id.1 m.number (sitesPath (job.tmp id m)) := .inr rfl
  have isTemporary := job.input.temporary_numbered id.1 m.number
  refine sound.moved there ((sound.clean.draft draft none).putTable made bytes)
    ((Disk.Spares.draft w.files draft none).trans (Disk.Spares.putTable _ _ made bytes))
    (fun _ isOther _ old _ isNumber => sound.own there numbered isOther old isNumber)
    (fun number isNumber => numbered.trans isNumber) ⟨made, ?_, table, Disk.put_self, bytes⟩
    (fun _ => .inl) (fun number _ isNumber present =>
      absurd present (sound.unsigned there (numbered.trans isNumber) notSigns)) sound.single
  exact (Disk.put_of_ne isTemporary.ne_sitesPath).trans
    ((Disk.put_of_ne isTemporary.ne_sitesPath).trans image)

/-- The image takes its place. -/
theorem Sound.finished {m : Making}
    (sound : Sound rewriter w)
    (there : w.jobs id = some job)
    (numbered : job.stage.number = some m.number)
    (made : rewriter.rewritten job.input = some m.made)
    (kept : w.files.HasTable job.input m.made) :
    Sound rewriter ((w.setFiles ((w.files.put (job.tmp id m) none).put
      job.input.copy (some (rewriter.signed (job.tmp id m) m.made)))).setStage id job .done) := by
  have draft : Disk.Draft job.input id.1 m.number (job.tmp id m) := .inl rfl
  refine sound.moved there
    ((sound.clean.draft draft none).putCopy made (kept.put (draft.ne_table job.input).symm) _ _)
    ((Disk.Spares.draft w.files draft none).trans (Disk.Spares.putCopy _ _ job.input _))
    (fun _ isOther _ old _ isNumber => sound.own there numbered isOther old isNumber)
    (fun _ isNumber => nomatch isNumber) Disk.put_ne_none (fun _ => .inl)
    (fun _ _ isNumber => nomatch isNumber) sound.single

/-- `codesign` is started. -/
theorem Sound.spawned {m : Making}
    (sound : Sound rewriter w)
    (there : w.jobs id = some job)
    (isStage : job.stage = .permits m)
    (made : rewriter.rewritten job.input = some m.made) :
    Sound rewriter (((w.setFiles (w.files.put (job.tmp id m)
      (some (executable m.made)))).setStage id job (.signs m)).spawn (job.tmp id m)) := by
  have numbered : job.stage.number = some m.number := by
    rw [isStage]
    rfl
  have draft : Disk.Draft job.input id.1 m.number (job.tmp id m) := .inl rfl
  have isRead : ((w.files.put (job.tmp id m) (some (executable m.made))) (job.tmp id m)).toList.map
      (job.tmp id m, ·) ++ w.signers = (job.tmp id m, executable m.made) :: w.signers := by
    rw [Disk.put_self]
    rfl
  have notSigns : ∀ m', job.stage ≠ .signs m' := fun m' same => by
    rw [isStage] at same
    cases same
  refine sound.moved there (sound.clean.draft draft _) (Disk.Spares.draft w.files draft _)
    (fun _ isOther _ old _ isNumber => sound.own there numbered isOther old isNumber)
    (fun n isNumber => numbered.trans isNumber) made (fun entry present => ?_)
    (fun number stored isNumber present => ⟨m, rfl, ?_⟩) ?_
  · have among : entry ∈ (job.tmp id m, executable m.made) :: w.signers := by
      rw [← isRead]
      exact present
    exact (List.mem_cons.1 among).symm.imp_right fun same => ⟨m, rfl, same⟩
  · obtain rfl := Option.some.inj isNumber
    have among : (job.tmp id m, stored) ∈ (job.tmp id m, executable m.made) :: w.signers := by
      rw [← isRead]
      exact present
    obtain same | old := List.mem_cons.1 among
    · exact (Prod.mk.inj same).2
    · exact absurd old (sound.unsigned there numbered notSigns)
  · have single : (((job.tmp id m, executable m.made) :: w.signers).map Prod.fst).Nodup := by
      refine List.nodup_cons.2 ⟨fun present => ?_, sound.single⟩
      obtain ⟨⟨file, stored⟩, old, isFile⟩ := List.mem_map.1 present
      dsimp only at isFile
      subst isFile
      exact sound.unsigned there numbered notSigns old
    rw [← isRead] at single
    exact single

/-- `codesign` has ended well. -/
theorem Sound.signed {m : Making} {stored : Stored}
    (sound : Sound rewriter w)
    (there : w.jobs id = some job)
    (isStage : job.stage = .signs m)
    (made : rewriter.rewritten job.input = some m.made)
    (isRead : w.read (job.tmp id m) = some stored) :
    Sound rewriter (((w.setFiles (w.files.put (job.tmp id m)
      (some (rewriter.signs (job.tmp id m) stored)))).setStage id job
        (.createsTable m)).reap (job.tmp id m)) := by
  have numbered : job.stage.number = some m.number := by
    rw [isStage]
    rfl
  have draft : Disk.Draft job.input id.1 m.number (job.tmp id m) := .inl rfl
  -- It has read the image.
  obtain ⟨m', isStage', rfl⟩ := sound.signing there numbered (World.mem_of_read isRead)
  obtain rfl := Stage.signs.inj (isStage.symm.trans isStage')
  refine sound.moved there (sound.clean.draft draft _) (Disk.Spares.draft w.files draft _)
    (fun _ isOther _ old _ isNumber => sound.own there numbered isOther old isNumber)
    (fun n isNumber => numbered.trans isNumber) ⟨made, Disk.put_self⟩
    (fun entry present => .inl (List.mem_of_mem_eraseP present))
    (fun number stored isNumber present => ?_) (sound.single.sublist (List.eraseP_sublist.map _))
  obtain rfl := Option.some.inj isNumber
  exact absurd present (notMem_eraseP sound.single _ _)

/-- A `codesign` at work changes a file that no call goes on with before it has ended. -/
theorem Sound.works {file : File} {read : Stored}
    (sound : Sound rewriter w)
    (isRead : w.read file = some read)
    (stored : Option Stored) : Sound rewriter (w.setFiles (w.files.put file stored)) := by
  obtain ⟨input, pid, number, rfl⟩ := sound.drafts (World.mem_of_read isRead)
  have draft : Disk.Draft input pid number (input.temporary pid number) := .inl rfl
  refine ⟨sound.clean.draft draft stored, sound.counted, sound.apart, fun {id job} there => ?_,
    sound.drafts, sound.signing, sound.single⟩
  by_cases signs : ∃ m, job.stage = .signs m
  · obtain ⟨m, isStage⟩ := signs
    have working := sound.working there
    unfold Job.Working at working ⊢
    rw [isStage] at working ⊢
    exact working
  · refine (sound.working there).spared (Disk.Spares.draft w.files draft stored)
      fun number' isNumber same => signs ?_
    obtain ⟨m, isStage, -⟩ := sound.signing there isNumber (same ▸ World.mem_of_read isRead)
    exact ⟨m, isStage⟩

theorem Sound.reaped (sound : Sound rewriter w) (file : File) : Sound rewriter (w.reap file) :=
  ⟨sound.clean, sound.counted, sound.apart, sound.working,
    fun present => sound.drafts (List.mem_of_mem_eraseP present),
    fun there isNumber present => sound.signing there isNumber (List.mem_of_mem_eraseP present),
    sound.single.sublist (List.eraseP_sublist.map _)⟩

/-- One step of a call. -/
theorem Sound.go {mode : Nat}
    (sound : Sound rewriter w)
    (there : w.jobs id = some job)
    (counts : job.stage = .numbers → w.next id.1 + 1 ≠ 0 ∧
      w.read (job.input.temporary id.1 (w.next id.1).toNat) = none)
    (goes : w.go rewriter id job mode = some w') : Sound rewriter w' := by
  have working := sound.working there
  have noNumber {stage : Stage} (without : stage.number = none) :
      ∀ number, stage.number = some number →
        job.stage.number = some number ∧ ∀ m, job.stage ≠ .signs m := by
    intro number isNumber
    rw [without] at isNumber
    cases isNumber
  have notSigns {stage : Stage} (isStage : job.stage = stage)
      (other : ∀ m, stage ≠ .signs m) : ∀ m, job.stage ≠ .signs m := isStage ▸ other
  unfold World.go at goes
  unfold Job.Working at working
  cases isStage : job.stage with
  | reads =>
      rw [isStage] at goes
      dsimp only at goes
      split at goes <;> obtain rfl := Option.some.inj goes <;>
        exact sound.turned there (noNumber rfl) trivial
  | looks =>
      rw [isStage] at goes
      obtain rfl := Option.some.inj goes
      by_cases found : (w.files job.input.copy).isSome
      · rw [if_pos found]
        exact sound.turned there (noNumber rfl) (Option.isSome_iff_ne_none.1 found)
      · rw [if_neg found]
        exact sound.turned there (noNumber rfl) trivial
  | numbers =>
      rw [isStage] at goes
      obtain rfl := Option.some.inj goes
      obtain ⟨counts, unused⟩ := counts isStage
      exact sound.numbered there counts unused
  | rewrites number =>
      rw [isStage] at goes
      dsimp only at goes
      split at goes
      · obtain rfl := Option.some.inj goes
        exact sound.turned there (noNumber rfl) trivial
      · next made isMade =>
          obtain rfl := Option.some.inj goes
          exact sound.turned there
            (fun _ same => ⟨by rw [isStage]; exact same, notSigns isStage nofun⟩) isMade
  | creates m =>
      rw [isStage] at goes working
      obtain rfl := Option.some.inj goes
      refine sound.drafted there (by rw [isStage]; rfl) (.inl rfl) (notSigns isStage nofun)
        (fun n same => (Option.some.inj same).symm) ⟨working, Disk.put_ne_none⟩
  | writes m =>
      rw [isStage] at goes working
      obtain rfl := Option.some.inj goes
      obtain ⟨made, present⟩ := working
      obtain ⟨stored, found⟩ := Option.ne_none_iff_exists'.1 present
      refine sound.drafted there (by rw [isStage]; rfl) (.inl rfl) (notSigns isStage nofun)
        (fun n same => (Option.some.inj same).symm)
        ⟨made, { stored with bytes := m.made.image }, ?_, rfl⟩
      exact Disk.put_self.trans (congrArg _ found)
  | permits m =>
      rw [isStage] at goes working
      obtain rfl := Option.some.inj goes
      obtain ⟨made, stored, found, bytes⟩ := working
      have alters : w.files.alter (job.tmp id m) ({ · with mode := 0o755 }) =
          w.files.put (job.tmp id m) (some (executable m.made)) := by
        unfold Disk.alter executable
        rw [found, ← bytes]
        rfl
      rw [alters]
      exact sound.spawned there isStage made
  | signs m =>
      rw [isStage] at goes working
      obtain ⟨stored, isRead, rfl⟩ := Option.map_eq_some_iff.1 goes
      exact sound.signed there isStage working isRead
  | createsTable m =>
      rw [isStage] at goes working
      obtain rfl := Option.some.inj goes
      obtain ⟨made, image⟩ := working
      refine sound.drafted there (by rw [isStage]; rfl) (.inr rfl) (notSigns isStage nofun)
        (fun n same => (Option.some.inj same).symm) ⟨made, ?_, Disk.put_ne_none⟩
      exact (Disk.put_of_ne (job.input.temporary_numbered _ _).ne_sitesPath).trans image
  | writesTable m =>
      rw [isStage] at goes working
      obtain rfl := Option.some.inj goes
      obtain ⟨made, image, present⟩ := working
      obtain ⟨stored, found⟩ := Option.ne_none_iff_exists'.1 present
      refine sound.drafted there (by rw [isStage]; rfl) (.inr rfl) (notSigns isStage nofun)
        (fun n same => (Option.some.inj same).symm)
        ⟨made, ?_, { stored with bytes := tableBytes m.made }, ?_, rfl⟩
      · exact (Disk.put_of_ne (job.input.temporary_numbered _ _).ne_sitesPath).trans image
      · exact Disk.put_self.trans (congrArg _ found)
  | movesTable m =>
      rw [isStage] at goes working
      obtain ⟨made, image, table, found, bytes⟩ := working
      dsimp only at goes
      rw [Disk.rename_eq found] at goes
      obtain rfl := Option.some.inj goes
      exact sound.published there (by rw [isStage]; rfl) made (notSigns isStage nofun) image bytes
  | moves m =>
      rw [isStage] at goes working
      obtain ⟨made, image, kept⟩ := working
      dsimp only at goes
      rw [Disk.rename_eq image] at goes
      obtain rfl := Option.some.inj goes
      exact sound.finished there (by rw [isStage]; rfl) made kept
  | done | itself | failed =>
      rw [isStage] at goes
      cases goes

theorem World.setStage_self (there : w.jobs id = some job) : w.setStage id job job.stage = w := by
  have same : Function.update w.jobs id (some job) = w.jobs := by
    rw [← there, Function.update_eq_self]
  unfold setStage
  rw [same]

/-- A file that is at work on holds this or that, and the call is where it was. -/
theorem Sound.holds {file : File} {part : List UInt8}
    (sound : Sound rewriter w)
    (there : w.jobs id = some job)
    (isOpen : World.workpiece id job = some file) :
    Sound rewriter (w.setFiles (w.files.alter file ({ · with bytes := part }))) := by
  have thereToo : (w.setFiles (w.files.alter file ({ · with bytes := part }))).jobs id =
      some job := there
  have working := sound.working there
  rw [← World.setStage_self thereToo]
  unfold Job.Working at working
  unfold World.workpiece at isOpen
  split at isOpen
  · next m isStage =>
      rw [isStage] at working
      obtain rfl := Option.some.inj isOpen
      obtain ⟨made, present⟩ := working
      rw [isStage]
      exact sound.drafted there (by rw [isStage]; rfl) (.inl rfl) (by rw [isStage]; nofun)
        (fun n same => (Option.some.inj same).symm) ⟨made, Disk.alter_ne_none present⟩
  · next m isStage =>
      rw [isStage] at working
      obtain rfl := Option.some.inj isOpen
      obtain ⟨made, image, present⟩ := working
      rw [isStage]
      refine sound.drafted there (by rw [isStage]; rfl) (.inr rfl) (by rw [isStage]; nofun)
        (fun n same => (Option.some.inj same).symm) ⟨made, ?_, Disk.alter_ne_none present⟩
      exact (Disk.put_of_ne (job.input.temporary_numbered _ _).ne_sitesPath).trans image
  · cases isOpen

theorem Sound.starts
    (sound : Sound rewriter w)
    (id : Id)
    (input : Input) :
    Sound rewriter
      { w with jobs := Function.update w.jobs id (some { input, stage := .reads }) } := by
  have old {other : Id} {job : Job}
      (now : Function.update w.jobs id (some { input, stage := .reads }) other = some job) :
      job = { input, stage := .reads } ∨ w.jobs other = some job := by
    by_cases isIt : other = id
    · rw [isIt, Function.update_self] at now
      exact .inl (Option.some.inj now).symm
    · rw [Function.update_of_ne isIt] at now
      exact .inr now
  refine ⟨sound.clean, fun now isNumber => ?_, fun now nowToo pids isNumber isToo => ?_,
    fun now => ?_, sound.drafts, fun now isNumber present => ?_, sound.single⟩
  · obtain rfl | was := old now
    · cases isNumber
    · exact sound.counted was isNumber
  · obtain rfl | was := old now
    · cases isNumber
    · obtain rfl | wasToo := old nowToo
      · cases isToo
      · exact sound.apart was wasToo pids isNumber isToo
  · obtain rfl | was := old now
    · trivial
    · exact sound.working was
  · obtain rfl | was := old now
    · cases isNumber
    · exact sound.signing was isNumber present

/-- A process is killed.  What it was making is left behind, and perhaps a `codesign` that is
at work on that. -/
theorem Sound.dies (sound : Sound rewriter w) (pid : Nat) :
    Sound rewriter { w with
      next := Function.update w.next pid 0
      jobs := fun id => if id.1 = pid then none else w.jobs id } := by
  have old {other : Id} {job : Job}
      (now : (if other.1 = pid then none else w.jobs other) = some job) :
      other.1 ≠ pid ∧ w.jobs other = some job := by
    split at now
    · cases now
    · next isOther => exact ⟨isOther, now⟩
  refine ⟨sound.clean, fun {id _ _} now isNumber => ?_,
    fun now nowToo pids isNumber isToo => ?_, fun now => sound.working (old now).2, sound.drafts,
    fun now isNumber present => sound.signing (old now).2 isNumber present, sound.single⟩
  · change _ < (Function.update w.next pid 0 id.1).toNat
    rw [Function.update_of_ne (old now).1]
    exact sound.counted (old now).2 isNumber
  · exact sound.apart (old now).2 (old nowToo).2 pids isNumber isToo

theorem Sound.perform {event : Event}
    (sound : Sound rewriter w)
    (isCareful : event.isCareful w = true)
    (performed : w.perform rewriter event = some w') : Sound rewriter w' := by
  cases event with
  | starts id input =>
      unfold World.perform at performed
      dsimp only at performed
      split at performed
      · obtain rfl := Option.some.inj performed
        exact sound.starts id input
      · cases performed
  | goes id mode =>
      obtain ⟨job, there, goes⟩ := Option.bind_eq_some_iff.1 performed
      refine sound.go there (fun isStage => ?_) goes
      unfold Event.isCareful at isCareful
      dsimp only at isCareful
      rw [there] at isCareful
      dsimp only at isCareful
      rw [isStage] at isCareful
      exact of_decide_eq_true isCareful
  | holds id part =>
      obtain ⟨job, there, held⟩ := Option.bind_eq_some_iff.1 performed
      obtain ⟨file, isOpen, rfl⟩ := Option.map_eq_some_iff.1 held
      exact sound.holds there isOpen
  | works file stored =>
      unfold World.perform at performed
      dsimp only at performed
      split at performed
      · next isRead =>
          obtain rfl := Option.some.inj performed
          obtain ⟨read, isRead⟩ := Option.isSome_iff_exists.1 isRead
          exact sound.works isRead stored
      · cases performed
  | gives file =>
      obtain rfl := Option.some.inj performed
      exact sound.reaped file
  | fails id =>
      obtain ⟨job, there, fails⟩ := Option.bind_eq_some_iff.1 performed
      split at fails
      · cases fails
      · obtain rfl := Option.some.inj fails
        refine sound.turned there (fun number isNumber => ?_) trivial
        cases isNumber
  | dies pid =>
      obtain rfl := Option.some.inj performed
      exact sound.dies pid

theorem sound_of_init (init : (system rewriter).init w) : Sound rewriter w := by
  obtain ⟨empty, idle, none⟩ := init
  refine ⟨⟨fun input stored found => ?_, fun input stored found => ?_⟩,
    fun {id _ _} there => ?_, fun {id _ _ _ _} there => ?_, fun {id _} there => ?_,
    fun present => ?_, fun _ _ present => ?_, none ▸ List.nodup_nil⟩
  · rw [(empty input).1] at found
    cases found
  · rw [(empty input).2] at found
    cases found
  · rw [idle id] at there
    cases there
  · rw [idle id] at there
    cases there
  · rw [idle id] at there
    cases there
  · rw [none] at present
    cases present
  · rw [none] at present
    cases present

theorem Sound.of_reachable (reachable : (careful rewriter).Reachable w) : Sound rewriter w := by
  have initial : ∀ w, (careful rewriter).init w → Sound rewriter w := fun _ => sound_of_init
  have preserved : ∀ w event later, Sound rewriter w → (careful rewriter).step w event later →
      Sound rewriter later := fun _ _ _ sound ⟨isCareful, step⟩ => sound.perform isCareful step
  exact reachable.invariant initial preserved

/-! ## A process that is killed -/

/-- A rewriter that makes the same of every program. -/
def plain : Rewriter where
  known _ := some false
  rewritten _ := some
    { image := [7], stats := {}, sites := [{ yieldPc := 16, addr := 4, kind := .load }] }
  sign file image := UInt8.ofNat file.name.length :: image

def hello : Input where
  dir := "/w".toList
  file := "hello".toList
  opts := {}
  mtime := 5
  len := 7

def emptyDisk : World where
  files := fun _ => none
  next := fun _ => 0
  jobs := fun _ => none
  signers := []

theorem init_emptyDisk : (system plain).init emptyDisk :=
  ⟨fun _ => ⟨rfl, rfl⟩, fun _ => rfl, rfl⟩

/-- A call until it has started `codesign`. -/
def begun (pid : Nat) : List Event :=
  .starts (pid, 0) hello :: List.replicate 7 (.goes (pid, 0) 0o644)

/-- A process is killed while `codesign` is at work for it, another one makes the copy, and
one that is born with the pid of the first finds it. -/
def killed : List Event :=
  begun 1 ++ [.works (hello.temporary 1 0) (some { bytes := [9], mode := 0o755 }), .dies 1] ++
    begun 2 ++ List.replicate 5 (.goes (2, 0) 0o644) ++
    [.works (hello.temporary 1 0) none, .starts (1, 0) hello, .goes (1, 0) 0o644,
      .goes (1, 0) 0o644]

/-- A careful event. -/
def World.performCarefully (w : World) (event : Event) : Option World :=
  if event.isCareful w then w.perform plain event else none

theorem World.step_of_performCarefully {event : Event}
    (performed : w.performCarefully event = some w') : (careful plain).step w event w' := by
  unfold World.performCarefully at performed
  split at performed
  · next isCareful => exact ⟨isCareful, performed⟩
  · cases performed

/-- A process that is born with the pid, while the `codesign` goes on, moves into place what
that makes of its file. -/
def reused : List Event :=
  begun 1 ++ [.dies 1] ++ begun 1 ++ List.replicate 4 (.goes (1, 0) 0o644) ++
    [.works (hello.temporary 1 0) (some { bytes := [], mode := 0o755 }), .goes (1, 0) 0o644]

theorem not_complete_reused :
    ∃ w stored, (system plain).Reachable w ∧ w.files hello.copy = some stored ∧
      ∀ r file, plain.rewritten hello = some r → stored ≠ plain.signed file r := by
  obtain ⟨w, performed, copy⟩ := Option.map_eq_some_iff.1
    (by decide +kernel : (reused.foldlM (World.perform plain) emptyDisk).map
      (fun w => w.files hello.copy) = some (some { bytes := [], mode := 0o755 }))
  refine ⟨w, _, .foldlM id (.start init_emptyDisk) performed, copy, fun r file _ same => ?_⟩
  cases congrArg Stored.bytes same

end Cache

end Derp
