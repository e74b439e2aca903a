import Derp.Net.Defs
import Mathlib.Data.List.GetD

/-!
# What the rings hold

A flight ring holds records of a due time, a kind and a payload; the receive
ring of a datagram socket holds datagrams with their sources.  Both say where
they end, so a ring's contents parse in one way only.
-/

namespace Derp

/-- What a record in flight carries. -/
inductive FlightKind
  | bytes
  | dgram
  | fin
  deriving DecidableEq, Repr

def kBytes : UInt8 := 1
def kDgram : UInt8 := 2
def kFin : UInt8 := 3

def FlightKind.code : FlightKind → UInt8
  | .bytes => kBytes
  | .dgram => kDgram
  | .fin => kFin

/-- The kind a byte names, if it names one. -/
def FlightKind.ofCode (code : UInt8) : Option FlightKind :=
  if code = kBytes then some .bytes
  else if code = kDgram then some .dgram
  else if code = kFin then some .fin
  else none

/-- One payload on its way. -/
structure FlightRecord where
  due : Nat
  kind : FlightKind
  payload : List UInt8
  due_lt : due < 2 ^ 64
  payload_lt : payload.length < 2 ^ 32

/-- The header of a record in flight. -/
def flightHeader (due : Nat) (kind : FlightKind) (len : Nat) : List UInt8 :=
  toLittleEndian 8 due ++ (kind.code :: toLittleEndian 4 len)

/-- The due time in a record's header. -/
def headerDue (header : List UInt8) : Nat :=
  ofLittleEndian (header.take 8)

/-- The kind byte in a record's header. -/
def headerKind (header : List UInt8) : UInt8 :=
  header.getD 8 0

/-- The payload length in a record's header. -/
def headerLen (header : List UInt8) : Nat :=
  ofLittleEndian ((header.drop 9).take 4)

theorem headerDue_lt (header : List UInt8) : headerDue header < 2 ^ 64 := by
  have bound := ofLittleEndian_lt (header.take 8)
  have width : 256 ^ (header.take 8).length ≤ 256 ^ 8 :=
    Nat.pow_le_pow_right (by decide) (by simp)
  exact bound.trans_le (width.trans (by decide))

theorem headerLen_lt (header : List UInt8) : headerLen header < 2 ^ 32 := by
  have bound := ofLittleEndian_lt ((header.drop 9).take 4)
  have width : 256 ^ ((header.drop 9).take 4).length ≤ 256 ^ 4 :=
    Nat.pow_le_pow_right (by decide) (by simp)
  exact bound.trans_le (width.trans (by decide))

@[simp] theorem length_flightHeader (due : Nat) (kind : FlightKind) (len : Nat) :
    (flightHeader due kind len).length = flightHeaderLen := by
  simp [flightHeader, flightHeaderLen]

theorem headerDue_flightHeader
    {due : Nat}
    (fits : due < 2 ^ 64)
    (kind : FlightKind)
    (len : Nat) : headerDue (flightHeader due kind len) = due := by
  rw [headerDue, flightHeader, List.take_left' (by simp)]
  exact ofLittleEndian_toLittleEndian (by simpa using fits)

@[simp] theorem headerKind_flightHeader
    (due : Nat)
    (kind : FlightKind)
    (len : Nat) : headerKind (flightHeader due kind len) = kind.code := by
  rw [headerKind, flightHeader, List.getD_append_right _ _ _ _ (by simp)]
  simp

theorem headerLen_flightHeader
    (due : Nat)
    (kind : FlightKind)
    {len : Nat}
    (fits : len < 2 ^ 32) : headerLen (flightHeader due kind len) = len := by
  have split : flightHeader due kind len =
      (toLittleEndian 8 due ++ [kind.code]) ++ toLittleEndian 4 len := by
    simp [flightHeader]
  rw [headerLen, split, List.drop_left' (by simp),
    List.take_of_length_le (by simp)]
  exact ofLittleEndian_toLittleEndian (by simpa using fits)

@[simp] theorem FlightKind.ofCode_code (kind : FlightKind) :
    FlightKind.ofCode kind.code = some kind := by
  cases kind <;> rfl

theorem FlightKind.code_of_ofCode
    {code : UInt8}
    {kind : FlightKind}
    (named : FlightKind.ofCode code = some kind) : kind.code = code := by
  unfold FlightKind.ofCode at named
  split at named
  · next same => cases named; exact same.symm
  · split at named
    · next same => cases named; exact same.symm
    · split at named
      · next same => cases named; exact same.symm
      · cases named

namespace FlightRecord

def encode (record : FlightRecord) : List UInt8 :=
  flightHeader record.due record.kind record.payload.length ++ record.payload

/-- The first record of a flight ring's contents, and what follows it. -/
def decode (symbols : List UInt8) : Option (FlightRecord × List UInt8) :=
  let header := symbols.take flightHeaderLen
  let body := symbols.drop flightHeaderLen
  if flightHeaderLen ≤ symbols.length ∧
      headerLen header ≤ body.length then
    (FlightKind.ofCode (headerKind header)).map fun kind =>
      ({ due := headerDue header
         kind := kind
         payload := body.take (headerLen header)
         due_lt := headerDue_lt header
         payload_lt :=
          (List.length_take_le _ _).trans_lt (headerLen_lt header) },
       body.drop (headerLen header))
  else none

@[simp] theorem length_encode (record : FlightRecord) :
    record.encode.length = flightHeaderLen + record.payload.length := by
  simp [encode]

/-- Three facts read a record off the front of a ring's contents. -/
theorem headers_of_encode (record : FlightRecord) (rest : List UInt8) :
    (record.encode ++ rest).take flightHeaderLen =
        flightHeader record.due record.kind record.payload.length ∧
      (record.encode ++ rest).drop flightHeaderLen = record.payload ++ rest := by
  rw [encode, List.append_assoc]
  exact ⟨List.take_left' (by simp), List.drop_left' (by simp)⟩

theorem decode_encode (record : FlightRecord) (rest : List UInt8) :
    decode (record.encode ++ rest) = some (record, rest) := by
  obtain ⟨front, back⟩ := record.headers_of_encode rest
  have due := headerDue_flightHeader record.due_lt record.kind
    record.payload.length
  have len := headerLen_flightHeader record.due record.kind
    record.payload_lt
  have long : flightHeaderLen ≤ (record.encode ++ rest).length := by
    simp; omega
  unfold decode
  rw [if_pos ⟨long, by simp [front, back, len]⟩]
  simp only [front, back, due, len, headerKind_flightHeader,
    FlightKind.ofCode_code, Option.map_some, List.take_left',
    List.drop_left']

theorem decode_sound
    {symbols : List UInt8}
    {record : FlightRecord}
    {rest : List UInt8}
    (decoded : decode symbols = some (record, rest)) :
    symbols = record.encode ++ rest := by
  unfold decode at decoded
  by_cases long : flightHeaderLen ≤ symbols.length ∧
      headerLen (symbols.take flightHeaderLen) ≤
        (symbols.drop flightHeaderLen).length
  case neg =>
    rw [if_neg long] at decoded
    cases decoded
  case pos =>
    rw [if_pos long] at decoded
    simp only [Option.map_eq_some_iff, Prod.mk.injEq] at decoded
    obtain ⟨kind, named, rfl, rfl⟩ := decoded
    obtain ⟨longHeader, longBody⟩ := long
    have nine : 9 ≤ symbols.length :=
      le_trans (by decide) longHeader
    -- The header is the bytes its three fields spell.
    have header : symbols.take flightHeaderLen =
        flightHeader (headerDue (symbols.take flightHeaderLen)) kind
          (headerLen (symbols.take flightHeaderLen)) := by
      have eight : ((symbols.take flightHeaderLen).take 8).length = 8 := by
        simp only [List.length_take, flightHeaderLen] at *; omega
      have four :
          (((symbols.take flightHeaderLen).drop 9).take 4).length = 4 := by
        simp only [List.length_take, List.length_drop, flightHeaderLen] at *
        omega
      have due := toLittleEndian_ofLittleEndian
        ((symbols.take flightHeaderLen).take 8)
      have len := toLittleEndian_ofLittleEndian
        (((symbols.take flightHeaderLen).drop 9).take 4)
      rw [eight] at due
      rw [four] at len
      have at8 : 8 < (symbols.take flightHeaderLen).length := by
        simp only [List.length_take, flightHeaderLen] at *; omega
      have byte := FlightKind.code_of_ofCode named
      rw [headerKind, List.getD_eq_getElem _ _ at8] at byte
      have tail : ((symbols.take flightHeaderLen).drop 9).take 4 =
          (symbols.take flightHeaderLen).drop 9 := by
        apply List.take_of_length_le
        simp only [List.length_take, List.length_drop, flightHeaderLen]
        omega
      conv_lhs => rw [← List.take_append_drop 8 (symbols.take flightHeaderLen)]
      rw [flightHeader, headerDue, headerLen, due, len, byte, tail,
        List.drop_eq_getElem_cons at8]
    have length : ((symbols.drop flightHeaderLen).take
        (headerLen (symbols.take flightHeaderLen))).length =
        headerLen (symbols.take flightHeaderLen) := by
      rw [List.length_take]
      omega
    rw [encode, length, ← header, List.append_assoc,
      List.take_append_drop, List.take_append_drop]

end FlightRecord

/-- The format of a flight ring. -/
def flightFormat : RecordFormat UInt8 FlightRecord where
  encode := FlightRecord.encode
  decode := FlightRecord.decode
  encode_ne_nil := by
    intro record empty
    have := congrArg List.length empty
    simp [flightHeaderLen] at this
  decode_encode := FlightRecord.decode_encode
  decode_sound := FlightRecord.decode_sound

/-- The header of a datagram in a ring. -/
def dgramHeader (source : Addr) (dataLen : Nat) : List UInt8 :=
  toLittleEndian 4 dataLen ++ (toLittleEndian 4 source.ip.toNat ++
    (toLittleEndian 2 source.port.toNat ++
      [source.family.code, UInt8.ofNat source.path.length]))

@[simp] theorem length_dgramHeader (source : Addr) (dataLen : Nat) :
    (dgramHeader source dataLen).length = dgramHeaderLen := by
  simp [dgramHeader, dgramHeaderLen]

/-- A datagram as it lies in a ring. -/
structure Datagram where
  source : Addr
  data : List UInt8
  data_lt : data.length < 2 ^ 32

namespace Datagram

def encode (datagram : Datagram) : List UInt8 :=
  dgramHeader datagram.source datagram.data.length ++
    (datagram.source.path ++ datagram.data)

@[simp] theorem length_encode (datagram : Datagram) :
    datagram.encode.length =
      dgramHeaderLen + datagram.source.path.length + datagram.data.length := by
  simp [encode, Nat.add_assoc]

/-- The header fields that tell how long a datagram is. -/
theorem lengths_of_encode (datagram : Datagram) (rest : List UInt8) :
    ofLittleEndian ((datagram.encode ++ rest).take 4) =
        datagram.data.length ∧
      ((datagram.encode ++ rest).getD 11 0).toNat =
        datagram.source.path.length := by
  have short : datagram.source.path.length < 256 :=
    lt_of_le_of_lt datagram.source.path_le (by decide)
  constructor
  · rw [encode, dgramHeader, List.append_assoc, List.append_assoc,
      List.take_left' (by simp)]
    exact ofLittleEndian_toLittleEndian (by simpa using datagram.data_lt)
  · have split : datagram.encode ++ rest =
        (toLittleEndian 4 datagram.data.length ++
          (toLittleEndian 4 datagram.source.ip.toNat ++
            (toLittleEndian 2 datagram.source.port.toNat ++
              [datagram.source.family.code]))) ++
        (UInt8.ofNat datagram.source.path.length ::
          (datagram.source.path ++ datagram.data ++ rest)) := by
      simp [encode, dgramHeader]
    rw [split, List.getD_append_right _ _ _ _ (by simp)]
    simp [Nat.mod_eq_of_lt short]

end Datagram

/-- The contents of a datagram socket's receive ring. -/
def encodeDatagrams (datagrams : List Datagram) : List UInt8 :=
  datagrams.flatMap Datagram.encode

@[simp] theorem encodeDatagrams_nil : encodeDatagrams [] = [] := rfl

@[simp] theorem encodeDatagrams_cons
    (datagram : Datagram)
    (datagrams : List Datagram) :
    encodeDatagrams (datagram :: datagrams) =
      datagram.encode ++ encodeDatagrams datagrams := rfl

@[simp] theorem encodeDatagrams_append (first second : List Datagram) :
    encodeDatagrams (first ++ second) =
      encodeDatagrams first ++ encodeDatagrams second :=
  List.flatMap_append

end Derp
