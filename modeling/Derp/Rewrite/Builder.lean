import Derp.Rewrite.Encode

/-!
# Writing trampolines

The builder holds the stretches of address space trampolines go to: the segment
that is added to the image, and the rooms the program was linked with.  A
trampoline is tried in one stretch after the other, and what an attempt wrote
that did not come off is taken back.
-/

namespace Derp

namespace Rewrite

def STUB_BASE : Nat := 0x7800000000

def SLOT_OFFSET : Nat := 0

def COUNTER_ENTRY_OFFSET : Nat := 8

/-- Behind the private page of the fixed region. -/
def COUNTER_OFFSET : Nat := 0x4000 + 16

inductive SiteKind
  | branch
  | call
  | load
  | store
  | counter
deriving DecidableEq, Repr

/-- A hooked instruction. -/
structure Site where
  /-- Where the shared body returns to in the site's trampoline -/
  yieldPc : Nat
  /-- The original instruction -/
  addr : Nat
  kind : SiteKind
deriving DecidableEq, Repr

/-- A branch from `site` to `target` is out of range. -/
structure OutOfRange where
  site : Nat
  target : Nat
deriving DecidableEq, Repr

/-- What a trampoline does after the counter check. -/
inductive Tail
  /-- With `island`, a far target may be reached through x16 -/
  | jump (target : Nat) (island : Bool)
  | indirect (rn : Nat)
  /-- Execute the displaced word, then go on behind the site -/
  | replay (word : Nat)
deriving DecidableEq, Repr

/-- What leads past a trampoline when a site's condition does not hold. -/
inductive Guard
  | none
  | cond (c : Nat)
  | cbz (sf : Bool) (rt : Nat) (nonzero : Bool)
  | tbz (rt bit : Nat) (nonzero : Bool)
deriving DecidableEq, Repr

/-- A stretch of address space trampolines are written to. -/
structure Area where
  base : Nat
  /-- Bytes it may hold, or as many as it takes -/
  capacity : Option Nat := none
  /-- Address of its copy of the shared body -/
  common : Nat := 0
  code : List Nat := []
deriving DecidableEq, Repr

structure Builder where
  /-- The segment first, then the rooms -/
  areas : List Area
  /-- The area being written -/
  at_ : Nat := 0
  textBase : Nat
  unreachable : Nat := 0
  /-- Sites tried, per MB of text -/
  siteBuckets : List Nat := []
  patches : List (Nat × Nat) := []
  sites : List Site := []
deriving DecidableEq, Repr

/-- Writing to the builder, which keeps what was written when it fails. -/
abbrev Emit := EStateM OutOfRange Builder

/-- The address of word `i` of the area. -/
def Area.wordAddr (a : Area) (i : Nat) : Nat := (a.base + i * 4) % 2 ^ 64

def Area.fitting (a : Area) : Bool :=
  match a.capacity with
  | none => true
  | some cap => a.code.length * 4 ≤ cap

namespace Builder

def area (b : Builder) : Area := b.areas.getD b.at_ { base := 0 }

def modifyArea (b : Builder) (f : Area → Area) : Builder :=
  { b with areas := b.areas.modify b.at_ f }

def pc (b : Builder) : Nat := b.area.wordAddr b.area.code.length

def len (b : Builder) : Nat := b.area.code.length

def push (b : Builder) (w : Nat) : Builder :=
  b.modifyArea fun a => { a with code := a.code ++ [w] }

def set (b : Builder) (i w : Nat) : Builder :=
  b.modifyArea fun a => { a with code := a.code.set i w }

end Builder

def emit (w : Nat) : Emit Unit := modify fun b => b.push w

/-- A word whose encoding is known to fit. -/
def unwrap (word : Option Nat) : Nat := word.getD 0

/-- A word whose encoding may be out of range. -/
def orFar (site target : Nat) : Option Nat → Emit Nat
  | some w => pure w
  | none => throw { site, target }

/-- The body every trampoline of an area calls: count the event and, when the
quantum is out, enter the scheduler. -/
def emitCommon : Emit Unit := do
  modify fun b => b.modifyArea fun a => { a with common := b.pc }
  emit STP_X0_X1_PRE
  emit (unwrap (Stub.movzX 0 STUB_BASE))
  emit (Stub.ldrXImm 1 0 COUNTER_OFFSET)
  emit SUB_X1_X1_1
  emit (Stub.strXImm 1 0 COUNTER_OFFSET)
  let cbzAt := (← get).len
  emit 0
  let resume := (← get).pc
  emit LDP_X0_X1_POST
  emit RET
  -- Expired
  let expired := (← get).pc
  modify fun b =>
    b.set cbzAt (unwrap (Stub.cbz true 1 false (b.area.wordAddr cbzAt) expired))
  emit STR_X30_PRE
  emit (Stub.ldrXImm 0 0 SLOT_OFFSET)
  let skipAt := (← get).len
  emit 0
  emit BLR_X0
  let skip := (← get).pc
  modify fun b => b.set skipAt (unwrap (Stub.cbz true 0 false (b.area.wordAddr skipAt) skip))
  emit LDR_X30_POST
  let pc := (← get).pc
  emit (unwrap (Stub.b pc resume))

/-- Whether a hooked memory instruction reads. -/
def isLoad (word : Nat) : Bool :=
  if word >>> 27 &&& 7 = 7 ∧ word &&& 1 <<< 26 = 0 then word >>> 22 &&& 3 ≠ 0
  else word &&& 1 <<< 22 ≠ 0

def emitTail (site : Nat) : Tail → Emit Unit
  | .jump target island => do
      let pc := (← get).pc
      match Stub.b pc target with
      | some w => emit w
      | none =>
          if ¬ island then throw { site := pc, target }
          else
            let page ← orFar site target (Stub.adrp 16 pc target)
            emit page
            emit (Stub.addImm 16 16 (target &&& 0xFFF))
            emit (Stub.br 16)
  | .indirect rn => emit (Stub.br rn)
  | .replay word => do
      emit word
      let pc := (← get).pc
      emit (← orFar pc ((site + 4) % 2 ^ 64) (Stub.b pc ((site + 4) % 2 ^ 64)))

def siteKind (call : Bool) : Tail → SiteKind
  | .replay word => if isLoad word then .load else .store
  | _ => if call then .call else .branch

/-- The word that leads past the trampoline when the condition does not hold. -/
def Guard.word (pc fallthrough : Nat) : Guard → Nat
  | .none => 0
  | .cond c => unwrap (Stub.bCond (invertCond c) pc fallthrough)
  | .cbz sf rt nonzero => unwrap (Stub.cbz sf rt (!nonzero) pc fallthrough)
  | .tbz rt bit nonzero => unwrap (Stub.tbz rt bit (!nonzero) pc fallthrough)

/-- What a trampoline does once its site's condition holds. -/
def emitBody (site : Nat) (call : Bool) (tail : Tail) : Emit Unit := do
  emit STR_X30_PRE
  let b ← get
  emit (← orFar site b.area.common (Stub.bl b.pc b.area.common))
  let yieldPc := (← get).pc
  emit LDR_X30_POST
  emitTail site tail
  modify fun b =>
    { b with sites := b.sites ++ [{ yieldPc, addr := site, kind := siteKind call tail }] }

/-- Write one trampoline to the current area, and record the site's patch. -/
def stubOrFar (site : Nat) (guard : Guard) (call : Bool) (tail : Tail) : Emit Unit := do
  let start := (← get).pc
  let siteWord ← orFar site start (if call then Stub.bl site start else Stub.b site start)
  modify fun b => { b with patches := b.patches ++ [(site, siteWord)] }
  let guardAt ←
    if guard = .none then pure none
    else do
      emit 0
      pure (some ((← get).len - 1))
  emitBody site call tail
  match guardAt with
  | none => pure ()
  | some spot =>
      let fallthrough := (← get).pc
      modify fun b => b.set spot (guard.word (b.area.wordAddr spot) fallthrough)
      emit (← orFar fallthrough ((site + 4) % 2 ^ 64)
        (Stub.b fallthrough ((site + 4) % 2 ^ 64)))

/-- The trampoline of a counter read, which calls the supervisor's entry. -/
def counterBody (site rt : Nat) : Emit Unit := do
  let start := (← get).pc
  let siteWord ← orFar site start (Stub.b site start)
  modify fun b => { b with patches := b.patches ++ [(site, siteWord)] }
  emit STR_X30_PRE
  emit STP_X0_X1_PRE
  emit (unwrap (Stub.movzX 0 STUB_BASE))
  emit (Stub.ldrXImm 1 0 COUNTER_ENTRY_OFFSET)
  emit BLR_X1
  let yieldPc := (← get).pc
  -- The entry reads the register's number and returns past it.
  emit rt
  emit LDR_X30_POST
  let pc := (← get).pc
  emit (← orFar pc ((site + 4) % 2 ^ 64) (Stub.b pc ((site + 4) % 2 ^ 64)))
  modify fun b => { b with sites := b.sites ++ [{ yieldPc, addr := site, kind := .counter }] }

namespace Builder

/-- Take back what was written after the marks. -/
def truncate (b : Builder) (mark : Nat × Nat × Nat) : Builder :=
  let b := b.modifyArea fun a => { a with code := a.code.take mark.1 }
  { b with patches := b.patches.take mark.2.1, sites := b.sites.take mark.2.2 }

/-- Try the areas in turn until one takes the trampoline. -/
def tryAreas (body : Emit Unit) : List Nat → Builder → Builder × Bool
  | [], b => ({ b with at_ := 0, unreachable := b.unreachable + 1 }, false)
  | area :: areas, b =>
      let b := { b with at_ := area }
      let mark := (b.len, b.patches.length, b.sites.length)
      match body b with
      | .ok _ b =>
          if b.area.fitting then ({ b with at_ := 0 }, true)
          else tryAreas body areas (b.truncate mark)
      | .error _ b => tryAreas body areas (b.truncate mark)

/-- One more site tried in the megabyte of text. -/
def count (b : Builder) (site : Nat) : Builder :=
  let bucket := (site - b.textBase) >>> 20
  let buckets := b.siteBuckets ++ List.replicate (bucket + 1 - b.siteBuckets.length) 0
  { b with siteBuckets := buckets.modify bucket (· + 1) }

/-- Whether a trampoline was written; if none was, the site stays as it is. -/
def stub (b : Builder) (site : Nat) (guard : Guard) (call : Bool) (tail : Tail) :
    Builder × Bool :=
  (b.count site).tryAreas (stubOrFar site guard call tail) (List.range b.areas.length)

def counterStub (b : Builder) (site rt : Nat) : Builder × Bool :=
  b.tryAreas (counterBody site rt) (List.range b.areas.length)

/-- The shared body in the area of each number. -/
def emitCommons (b : Builder) (areas : List Nat) : Builder :=
  areas.foldl (fun b area =>
    match emitCommon { b with at_ := area } with
    | .ok _ b => b
    | .error _ b => b) b

/-- Every area starts with its copy of the shared body. -/
def new (segment : Nat) (rooms : List (Nat × Nat)) (textBase : Nat) : Builder :=
  let areas := { base := segment } :: rooms.map fun room =>
    { base := room.1, capacity := some (room.2 - room.1) }
  { ({ areas, textBase } : Builder).emitCommons (List.range areas.length) with at_ := 0 }

end Builder

end Rewrite

end Derp
