import Derp.Library.Bytes
import Derp.Library.Transition

/-!
# The launcher's channel

Guests send messages to the launcher over one stream socket, each in a frame
that begins with its length.  A write may take only part of a frame, and a read
returns what has arrived; the launcher keeps what is not yet a whole frame.
Only the guest that holds the baton sends, so there is one send at a time, but
the launcher reads at any moment.
-/

namespace Derp

namespace Launch

/-- A message of a guest: its kind, the index of its process and its bytes. -/
structure Frame where
  kind : UInt8
  procIndex : UInt32
  payload : List UInt8
  payload_lt : payload.length + 5 < 2 ^ 32
  deriving DecidableEq

/-- The bytes that a message is sent as. -/
def encodeFrame (frame : Frame) : List UInt8 :=
  toLittleEndian 4 (frame.payload.length + 5) ++
    (frame.kind :: toLittleEndian 4 frame.procIndex.toNat) ++ frame.payload

theorem ofLittleEndian_take_lt (bytes : List UInt8) :
    ofLittleEndian (bytes.take 4) < 2 ^ 32 := by
  have bound := ofLittleEndian_lt (bytes.take 4)
  have width : 256 ^ (bytes.take 4).length ≤ 256 ^ 4 :=
    Nat.pow_le_pow_right (by decide) (by simp)
  exact bound.trans_le (width.trans (by decide))

/-- The first frame that has wholly arrived, and the bytes after it. -/
def decodeFrame (buf : List UInt8) : Option (Frame × List UInt8) :=
  let len := ofLittleEndian (buf.take 4)
  if arrived : 4 ≤ buf.length ∧ 5 ≤ len ∧ 4 + len ≤ buf.length then
    let body := (buf.take (4 + len)).drop 4
    some
      ({ kind := body.headD 0
         procIndex := UInt32.ofNat (ofLittleEndian ((body.drop 1).take 4))
         payload := body.drop 5
         payload_lt := by
           have := ofLittleEndian_take_lt buf
           simp only [body, len, List.length_drop, List.length_take]
           omega },
        buf.drop (4 + len))
  else none

theorem length_encodeFrame (frame : Frame) :
    (encodeFrame frame).length = 9 + frame.payload.length := by
  simp only [encodeFrame, List.length_append, List.length_cons,
    length_toLittleEndian]

theorem encodeFrame_ne_nil (frame : Frame) : encodeFrame frame ≠ [] := by
  apply List.ne_nil_of_length_pos
  rw [length_encodeFrame]
  omega

theorem decodeFrame_encodeFrame (frame : Frame) (rest : List UInt8) :
    decodeFrame (encodeFrame frame ++ rest) = some (frame, rest) := by
  have length := length_encodeFrame frame
  have split : encodeFrame frame ++ rest =
      toLittleEndian 4 (frame.payload.length + 5) ++
        ((frame.kind :: toLittleEndian 4 frame.procIndex.toNat) ++
          (frame.payload ++ rest)) := by
    simp only [encodeFrame, List.append_assoc]
  have len : ofLittleEndian ((encodeFrame frame ++ rest).take 4) =
      frame.payload.length + 5 := by
    rw [split, List.take_left' (by simp)]
    exact ofLittleEndian_toLittleEndian (by have := frame.payload_lt; omega)
  have whole : (encodeFrame frame ++ rest).take
      (4 + (frame.payload.length + 5)) = encodeFrame frame :=
    List.take_left' (by omega)
  have after : (encodeFrame frame ++ rest).drop
      (4 + (frame.payload.length + 5)) = rest :=
    List.drop_left' (by omega)
  have body : (encodeFrame frame).drop 4 =
      (frame.kind :: toLittleEndian 4 frame.procIndex.toNat) ++
        frame.payload := by
    rw [encodeFrame, List.append_assoc, List.drop_left' (by simp)]
  have proc : ofLittleEndian
      ((((encodeFrame frame).drop 4).drop 1).take 4) =
        frame.procIndex.toNat := by
    rw [body, List.cons_append, List.drop_succ_cons, List.drop_zero,
      List.take_left' (by simp)]
    exact ofLittleEndian_toLittleEndian frame.procIndex.toNat_lt
  have payload : ((encodeFrame frame).drop 4).drop 5 = frame.payload := by
    rw [body, List.drop_left' (by simp)]
  unfold decodeFrame
  rw [dif_pos]
  · simp only [len, whole, after, proc, payload]
    obtain ⟨kind, procIndex, bytes, bound⟩ := frame
    simp only [body, List.cons_append, List.headD_cons, UInt32.ofNat_toNat]
  · rw [len, List.length_append, length]
    omega

theorem decodeFrame_sound
    {buf rest : List UInt8}
    {frame : Frame}
    (decoded : decodeFrame buf = some (frame, rest)) :
    buf = encodeFrame frame ++ rest := by
  unfold decodeFrame at decoded
  dsimp only at decoded
  split_ifs at decoded with arrived
  obtain ⟨head, small, fits⟩ := arrived
  obtain ⟨isFrame, rfl⟩ := Prod.mk.inj (Option.some.inj decoded)
  have kind := congrArg Frame.kind isFrame
  have procIndex := congrArg Frame.procIndex isFrame
  have payload := congrArg Frame.payload isFrame
  dsimp only at kind procIndex payload
  clear isFrame decoded
  have spelled := toLittleEndian_ofLittleEndian (buf.take 4)
  rw [List.length_take, Nat.min_eq_left head] at spelled
  generalize ofLittleEndian (buf.take 4) = len at *
  generalize body : (buf.take (4 + len)).drop 4 = bytes at *
  have length : bytes.length = len := by
    rw [← body, List.length_drop, List.length_take]
    omega
  obtain ⟨first, others, rfl⟩ := List.exists_cons_of_length_pos
    (l := bytes) (by omega)
  rw [List.length_cons] at length
  rw [List.headD_cons] at kind
  rw [List.drop_succ_cons, List.drop_zero] at procIndex
  rw [List.drop_succ_cons] at payload
  have procs := toLittleEndian_ofLittleEndian (others.take 4)
  rw [List.length_take, Nat.min_eq_left (by omega)] at procs
  have counted : frame.payload.length + 5 = len := by
    rw [← payload, List.length_drop]
    omega
  have whole : buf.take (4 + len) = buf.take 4 ++ first :: others := by
    rw [List.take_add, ← body, List.drop_take, Nat.add_sub_cancel_left]
  have isHead : encodeFrame frame = buf.take 4 ++ first :: others := by
    unfold encodeFrame
    rw [counted, spelled, ← kind, ← procIndex,
      UInt32.toNat_ofNat_of_lt' (ofLittleEndian_take_lt others), procs,
      ← payload, List.append_assoc, List.cons_append, List.take_append_drop]
  rw [isHead, ← whole, List.take_append_drop]

/-- Frames as records that say where they end. -/
def frameFormat : RecordFormat UInt8 Frame where
  encode := encodeFrame
  decode := decodeFrame
  encode_ne_nil := encodeFrame_ne_nil
  decode_encode := decodeFrame_encodeFrame
  decode_sound := decodeFrame_sound

/-- The guests' end of the socket, the socket and the launcher's end of it. -/
structure Channel where
  /-- The frame that is being sent, and how many of its bytes are written. -/
  sending : Option (Frame × Nat) := none
  /-- Bytes that were written and are not yet read. -/
  stream : List UInt8 := []
  /-- What the launcher has read and not yet taken as a frame. -/
  buf : List UInt8 := []
  /-- Whether a drain has read and not yet cut off the frames. -/
  draining : Bool := false
  /-- The messages of the sends that answered true. -/
  sent : List Frame := []
  /-- How many bytes each send that answered false has put on the stream. -/
  refused : List Nat := []
  /-- What the drains have returned. -/
  returned : List Frame := []

inductive Action
  | begin (frame : Frame)
  /-- A write takes so many more bytes. -/
  | write (count : Nat)
  /-- A write answers -1, for a signal. -/
  | interrupted
  /-- A read of a drain returns so many bytes. -/
  | recv (count : Nat)
  /-- A read of a drain returns none: the frames that have arrived are cut off
  and returned. -/
  | drained
  deriving DecidableEq

namespace Channel

/-- What the code or the kernel does next. -/
def exec (c : Channel) : Action → Channel
  | .begin frame => { c with sending := some (frame, 0) }
  | .write count =>
      match c.sending with
      | none => c
      | some (frame, sent) =>
          let bytes := ((encodeFrame frame).drop sent).take count
          let sent := sent + count
          if sent < (encodeFrame frame).length then
            { c with
              stream := c.stream ++ bytes
              sending := some (frame, sent) }
          else
            { c with
              stream := c.stream ++ bytes
              sending := none
              sent := c.sent ++ [frame] }
  | .interrupted =>
      match c.sending with
      | none => c
      | some (_, sent) =>
          { c with
            sending := none
            refused := c.refused ++ [sent] }
  | .recv count =>
      { c with
        stream := c.stream.drop count
        buf := c.buf ++ c.stream.take count
        draining := true }
  | .drained =>
      let (frames, left) := frameFormat.read c.buf
      { c with
        buf := left
        draining := false
        returned := c.returned ++ frames }

/-- What may happen: one send at a time, and no more bytes than there are. -/
def Allows (c : Channel) : Action → Prop
  | .begin _ => c.sending = none
  | .write count =>
      ∃ frame sent, c.sending = some (frame, sent) ∧ 0 < count ∧
        sent + count ≤ (encodeFrame frame).length
  | .interrupted => c.sending.isSome
  | .recv count => 0 < count ∧ count ≤ 4096 ∧ count ≤ c.stream.length
  | .drained => True

/-- The channel of one run. -/
def system : Transition Channel Action where
  init := fun c => c = {}
  step := fun c action later => c.Allows action ∧ later = c.exec action

/-- The framing law: drains return the messages in order, all of them once the
stream is read; a drain leaves less than a frame; and a send that answered
false has put nothing on the stream. -/
structure Framed (c : Channel) : Prop where
  inOrder : c.returned <+: c.sent
  complete : c.sending = none → c.stream = [] → c.draining = false →
    c.returned = c.sent
  partLeft : c.draining = false → frameFormat.Part c.buf
  nothingPut : ∀ count ∈ c.refused, count = 0

/-- No write fails once part of the frame is written. -/
def Whole (c : Channel) : Action → Prop
  | .interrupted => ∀ frame sent, c.sending = some (frame, sent) → sent = 0
  | _ => True

/-- The bytes of the frame that is being sent that are written. -/
def pending (c : Channel) : List UInt8 :=
  match c.sending with
  | none => []
  | some (frame, sent) => (encodeFrame frame).take sent

/-- What every step keeps where no frame is cut short. -/
structure InStep (c : Channel) : Prop where
  written : ∀ {frame sent}, c.sending = some (frame, sent) →
    sent < (encodeFrame frame).length
  spelled : frameFormat.encodeAll c.returned ++ (c.buf ++ c.stream) =
    frameFormat.encodeAll c.sent ++ c.pending
  left : c.draining = false → frameFormat.decode c.buf = none
  nothingPut : ∀ count ∈ c.refused, count = 0

variable {c later : Channel}

/-- Less than a frame is being sent. -/
theorem InStep.part (inStep : c.InStep) : frameFormat.Part c.pending := by
  unfold pending
  cases sending : c.sending with
  | none =>
      let frame : Frame := ⟨0, 0, [], by decide⟩
      exact ⟨frame, List.nil_prefix, (encodeFrame_ne_nil frame).symm⟩
  | some both =>
      obtain ⟨frame, sent⟩ := both
      have below := inStep.written sending
      refine ⟨frame, List.take_prefix .., fun whole => ?_⟩
      have := congrArg List.length whole
      rw [List.length_take] at this
      change min sent (encodeFrame frame).length = (encodeFrame frame).length
        at this
      omega

/-- The law follows from what every step keeps. -/
theorem InStep.framed (inStep : c.InStep) : c.Framed := by
  obtain ⟨others, isSent, rest⟩ :=
    RecordFormat.prefix_of_encodeAll_append_eq inStep.part inStep.spelled
  refine
    { inOrder := ⟨others, isSent.symm⟩
      complete := ?_
      partLeft := fun rested =>
        RecordFormat.part_of_prefix inStep.part (inStep.left rested) rest
      nothingPut := inStep.nothingPut }
  intro idle empty rested
  have none := inStep.left rested
  rw [pending, idle, empty, List.append_nil, List.append_nil] at rest
  cases others with
  | nil => rw [isSent, List.append_nil]
  | cons record others =>
      rw [rest, RecordFormat.encodeAll_cons, frameFormat.decode_encode] at none
      cases none

theorem inStep_init : ({} : Channel).InStep where
  written := by intro frame sent isSent; cases isSent
  spelled := rfl
  left := by intro _; decide
  nothingPut := by simp

/-- Each step keeps the ends in step, if it cuts no frame short. -/
theorem InStep.exec
    {action : Action}
    (inStep : c.InStep)
    (allowed : c.Allows action)
    (whole : c.Whole action) : (c.exec action).InStep := by
  cases action with
  | begin frame =>
      have idle : c.sending = none := allowed
      refine { inStep with written := ?_, spelled := ?_ }
      · rintro frame' sent ⟨⟩
        exact List.length_pos_iff.mpr (encodeFrame_ne_nil frame)
      · have spelled := inStep.spelled
        rw [pending, idle] at spelled
        exact spelled
  | write count =>
      obtain ⟨frame, sent, isSending, positive, fits⟩ := allowed
      have below := inStep.written isSending
      have spelled := inStep.spelled
      rw [pending, isSending] at spelled
      dsimp only at spelled
      have more : (encodeFrame frame).take sent ++
          ((encodeFrame frame).drop sent).take count =
            (encodeFrame frame).take (sent + count) := List.take_add.symm
      have longer : frameFormat.encodeAll c.returned ++ (c.buf ++
          (c.stream ++ ((encodeFrame frame).drop sent).take count)) =
            frameFormat.encodeAll c.sent ++
              (encodeFrame frame).take (sent + count) := by
        rw [← more, ← List.append_assoc (frameFormat.encodeAll c.sent),
          ← spelled, List.append_assoc, List.append_assoc]
      unfold Channel.exec
      rw [isSending]
      dsimp only
      split_ifs with unfinished
      · refine { inStep with written := ?_, spelled := longer }
        rintro frame' sent' ⟨⟩
        exact unfinished
      · refine { inStep with written := ?_, spelled := ?_ }
        · rintro frame' sent' ⟨⟩
        · rw [List.take_of_length_le (l := encodeFrame frame)
            (i := sent + count) (by omega)] at longer
          refine longer.trans ?_
          rw [RecordFormat.encodeAll_append, pending, List.append_nil]
          exact congrArg _ (List.append_nil _).symm
  | interrupted =>
      obtain ⟨⟨frame, sent⟩, isSending⟩ := Option.isSome_iff_exists.mp allowed
      obtain rfl := whole frame sent isSending
      have spelled := inStep.spelled
      rw [pending, isSending] at spelled
      unfold Channel.exec
      rw [isSending]
      refine
        { inStep with
          written := ?_
          spelled := spelled
          nothingPut := ?_ }
      · rintro frame' sent' ⟨⟩
      · intro count present
        rcases List.mem_append.mp present with before | isLast
        · exact inStep.nothingPut count before
        · exact List.mem_singleton.mp isLast
  | recv count =>
      refine { inStep with spelled := ?_, left := ?_ }
      · refine Eq.trans ?_ inStep.spelled
        change _ ++ (c.buf ++ c.stream.take count ++ c.stream.drop count) = _
        rw [List.append_assoc, List.take_append_drop]
        rfl
      · rintro ⟨⟩
  | drained =>
      obtain ⟨spelled, undecoded⟩ := frameFormat.read_spec c.buf
      refine { inStep with spelled := ?_, left := fun _ => undecoded }
      refine Eq.trans ?_ inStep.spelled
      change frameFormat.encodeAll (c.returned ++ (frameFormat.read c.buf).1) ++
        ((frameFormat.read c.buf).2 ++ c.stream) = _
      rw [RecordFormat.encodeAll_append, List.append_assoc,
        ← List.append_assoc (frameFormat.encodeAll (frameFormat.read c.buf).1),
        ← spelled]

/-- The law holds in every run that cuts no frame short, and is broken by the
step that does. -/
theorem framed_of_whole (c : Channel) :
    ((system.restrict Whole).Reachable c → c.Framed) ∧
      ∀ action later, system.Reachable c → system.step c action later →
        ¬ c.Whole action → ¬ later.Framed := by
  constructor
  · intro reachable
    refine InStep.framed (reachable.invariant ?_ ?_)
    · rintro c rfl
      exact inStep_init
    · rintro c action later inStep ⟨whole, allowed, rfl⟩
      exact inStep.exec allowed whole
  · rintro action later - ⟨allowed, rfl⟩ short framed
    cases action with
    | interrupted =>
        refine short fun frame sent isSending => ?_
        refine framed.nothingPut sent ?_
        unfold Channel.exec
        rw [isSending]
        exact List.mem_append_right _ (List.mem_singleton_self sent)
    | begin _ => exact short trivial
    | write _ => exact short trivial
    | recv _ => exact short trivial
    | drained => exact short trivial

/-- A report without text. -/
def emptyReport : Frame where
  kind := 3
  procIndex := 0
  payload := []
  payload_lt := by decide

/-- A step that may happen leads to a reachable state. -/
theorem reachable_exec
    (reachable : system.Reachable c)
    (action : Action)
    (allowed : c.Allows action) : system.Reachable (c.exec action) :=
  .next reachable ⟨allowed, rfl⟩

/-- A message written in two writes and read in one drain is returned. -/
theorem framed_of_whole_twoWrites :
    ∃ c, (system.restrict Whole).Reachable c ∧ c.Framed ∧
      c.returned = [emptyReport] := by
  have step : ∀ {c : Channel} (action : Action),
      (system.restrict Whole).Reachable c → c.Whole action → c.Allows action →
        (system.restrict Whole).Reachable (c.exec action) :=
    fun _ before whole allowed => .next before ⟨whole, allowed, rfl⟩
  have started := step (.begin emptyReport) (.start rfl) trivial rfl
  have half := step (.write 4) started trivial
    ⟨emptyReport, 0, rfl, by decide, by decide⟩
  have written := step (.write 5) half trivial
    ⟨emptyReport, 4, rfl, by decide, by decide⟩
  have read := step (.recv 9) written trivial
    ⟨by decide, by decide, by decide⟩
  have done := step .drained read trivial trivial
  exact ⟨_, done, (framed_of_whole _).1 done, by decide⟩

/-- A signal after three bytes of a frame: the send answers false, and the next
message is never returned, for the launcher takes its length from both. -/
theorem not_framed_cutShort : ¬ ∀ c, system.Reachable c → c.Framed := by
  intro all
  have started := reachable_exec (.start rfl) (.begin emptyReport) rfl
  have part := reachable_exec started (.write 3)
    ⟨emptyReport, 0, rfl, by decide, by decide⟩
  have refused := reachable_exec part .interrupted rfl
  have again := reachable_exec refused (.begin emptyReport) rfl
  have written := reachable_exec again (.write 9)
    ⟨emptyReport, 0, rfl, by decide, by decide⟩
  have read := reachable_exec written (.recv 12)
    ⟨by decide, by decide, by decide⟩
  have done := reachable_exec read .drained trivial
  have lost := (all _ done).complete rfl rfl rfl
  exact absurd lost (by decide)

end Channel

end Launch

end Derp
