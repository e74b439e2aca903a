import Mathlib.Data.List.Basic
import Mathlib.Algebra.Order.Ring.Nat
import Mathlib.Tactic.Ring

/-!
# Numbers and records as bytes

Little-endian numbers of a fixed width, and formats of records that say where
they end.  A sequence of such records is the concatenation of their encodings,
and parses back in one way only.
-/

universe u v

/-- The little-endian bytes of a number, its high part cut off at the width. -/
def toLittleEndian : (width : Nat) → Nat → List UInt8
  | 0, _ => []
  | width + 1, value =>
      UInt8.ofNat value :: toLittleEndian width (value / 256)

/-- The number that little-endian bytes spell. -/
def ofLittleEndian : List UInt8 → Nat
  | [] => 0
  | byte :: bytes => byte.toNat + 256 * ofLittleEndian bytes

@[simp] theorem length_toLittleEndian (width value : Nat) :
    (toLittleEndian width value).length = width := by
  induction width generalizing value with
  | zero => rfl
  | succ width inductionHypothesis =>
      simp [toLittleEndian, inductionHypothesis]

/-- A number that fits in the width survives the round trip. -/
theorem ofLittleEndian_toLittleEndian
    {width value : Nat}
    (fits : value < 256 ^ width) :
    ofLittleEndian (toLittleEndian width value) = value := by
  induction width generalizing value with
  | zero =>
      have : value = 0 := by simpa using fits
      simp [toLittleEndian, ofLittleEndian, this]
  | succ width inductionHypothesis =>
      have high : value / 256 < 256 ^ width := by
        rw [Nat.div_lt_iff_lt_mul (by omega), ← pow_succ]
        exact fits
      simp only [toLittleEndian, ofLittleEndian, inductionHypothesis high,
        UInt8.toNat_ofNat']
      omega

/-- Bytes of the given width spell a number below the width's bound. -/
theorem ofLittleEndian_lt (bytes : List UInt8) :
    ofLittleEndian bytes < 256 ^ bytes.length := by
  induction bytes with
  | nil => simp [ofLittleEndian]
  | cons byte bytes inductionHypothesis =>
      have := byte.toNat_lt
      simp only [ofLittleEndian, List.length_cons, pow_succ]
      omega

/-- The bytes of a spelled number are the bytes themselves. -/
theorem toLittleEndian_ofLittleEndian (bytes : List UInt8) :
    toLittleEndian bytes.length (ofLittleEndian bytes) = bytes := by
  induction bytes with
  | nil => rfl
  | cons byte bytes inductionHypothesis =>
      have small := byte.toNat_lt
      have low : UInt8.ofNat (byte.toNat + 256 * ofLittleEndian bytes) =
          byte := by
        apply UInt8.toNat_inj.mp
        rw [UInt8.toNat_ofNat']
        omega
      have high : (byte.toNat + 256 * ofLittleEndian bytes) / 256 =
          ofLittleEndian bytes := by omega
      simp only [List.length_cons, ofLittleEndian, toLittleEndian, low, high,
        inductionHypothesis]

/-- A format of records whose encodings say where they end. -/
structure RecordFormat (β : Type u) (ρ : Type v) where
  /-- The symbols of one record. -/
  encode : ρ → List β
  /-- The first record of a sequence of symbols, and what follows it. -/
  decode : List β → Option (ρ × List β)
  /-- No record is without symbols. -/
  encode_ne_nil : ∀ record, encode record ≠ []
  /-- An encoding is read back whatever follows it. -/
  decode_encode : ∀ record rest,
    decode (encode record ++ rest) = some (record, rest)
  /-- Only encodings are read. -/
  decode_sound : ∀ {symbols record rest},
    decode symbols = some (record, rest) → symbols = encode record ++ rest

namespace RecordFormat

variable {β : Type u} {ρ : Type v} (format : RecordFormat β ρ)

/-- The symbols of a sequence of records. -/
def encodeAll (records : List ρ) : List β :=
  records.flatMap format.encode

/-- Read a bounded number of records up to the end of the symbols. -/
def parseWithin : Nat → List β → Option (List ρ)
  | _, [] => some []
  | 0, _ :: _ => none
  | fuel + 1, symbols@(_ :: _) =>
      match format.decode symbols with
      | none => none
      | some (record, rest) =>
          (parseWithin fuel rest).map (record :: ·)

/-- The records a sequence of symbols consists of, if it does. -/
def parse (symbols : List β) : Option (List ρ) :=
  format.parseWithin symbols.length symbols

@[simp] theorem encodeAll_nil : format.encodeAll [] = [] := rfl

@[simp] theorem encodeAll_cons (record : ρ) (records : List ρ) :
    format.encodeAll (record :: records) =
      format.encode record ++ format.encodeAll records := rfl

@[simp] theorem encodeAll_append (first second : List ρ) :
    format.encodeAll (first ++ second) =
      format.encodeAll first ++ format.encodeAll second :=
  List.flatMap_append

theorem encode_length_pos (record : ρ) :
    0 < (format.encode record).length :=
  List.length_pos_iff.mpr (format.encode_ne_nil record)

/-- There are at most as many records as symbols. -/
theorem length_le_length_encodeAll (records : List ρ) :
    records.length ≤ (format.encodeAll records).length := by
  induction records with
  | nil => simp
  | cons record records inductionHypothesis =>
      have := format.encode_length_pos record
      simp only [encodeAll_cons, List.length_append, List.length_cons]
      omega

theorem encodeAll_eq_nil_iff (records : List ρ) :
    format.encodeAll records = [] ↔ records = [] := by
  cases records with
  | nil => simp
  | cons record records =>
      simp [encodeAll_cons, format.encode_ne_nil record]

theorem parseWithin_encodeAll
    (records : List ρ)
    {fuel : Nat}
    (enough : records.length ≤ fuel) :
    format.parseWithin fuel (format.encodeAll records) = some records := by
  induction records generalizing fuel with
  | nil => simp [parseWithin]
  | cons record records inductionHypothesis =>
      obtain ⟨fuel, rfl⟩ : ∃ less, fuel = less + 1 :=
        ⟨fuel - 1, by simp at enough; omega⟩
      obtain ⟨symbol, symbols, spelled⟩ :=
        List.exists_cons_of_ne_nil (format.encode_ne_nil record)
      have read := format.decode_encode record (format.encodeAll records)
      have tail : format.parseWithin fuel (format.encodeAll records) =
          some records := inductionHypothesis (by simpa using enough)
      rw [encodeAll_cons, spelled, List.cons_append]
      rw [spelled, List.cons_append] at read
      simp only [parseWithin, read, tail, Option.map_some]

/-- A sequence of records parses back to itself. -/
@[simp] theorem parse_encodeAll (records : List ρ) :
    format.parse (format.encodeAll records) = some records :=
  format.parseWithin_encodeAll records
    (format.length_le_length_encodeAll records)

theorem encodeAll_of_parseWithin
    {fuel : Nat}
    {symbols : List β}
    {records : List ρ}
    (parsed : format.parseWithin fuel symbols = some records) :
    symbols = format.encodeAll records := by
  induction fuel generalizing symbols records with
  | zero =>
      cases symbols with
      | nil =>
          have : records = [] := by simpa [parseWithin] using parsed.symm
          simp [this]
      | cons symbol symbols => simp [parseWithin] at parsed
  | succ fuel inductionHypothesis =>
      cases symbols with
      | nil =>
          have : records = [] := by simpa [parseWithin] using parsed.symm
          simp [this]
      | cons symbol symbols =>
          simp only [parseWithin] at parsed
          cases step : format.decode (symbol :: symbols) with
          | none => simp [step] at parsed
          | some result =>
              obtain ⟨record, rest⟩ := result
              simp only [step, Option.map_eq_some_iff] at parsed
              obtain ⟨tail, tailParsed, rfl⟩ := parsed
              rw [encodeAll_cons, ← inductionHypothesis tailParsed]
              exact format.decode_sound step

/-- What parses is the encoding of the records it parses into. -/
theorem parse_eq_some_iff
    (symbols : List β)
    (records : List ρ) :
    format.parse symbols = some records ↔
      symbols = format.encodeAll records := by
  constructor
  · exact format.encodeAll_of_parseWithin
  · rintro rfl
    exact format.parse_encodeAll records

/-- A sequence of symbols has at most one reading. -/
theorem encodeAll_injective : Function.Injective format.encodeAll := by
  intro first second equal
  have : some first = some second := by
    rw [← format.parse_encodeAll first, equal, format.parse_encodeAll]
  exact Option.some.inj this

/-- Read a bounded number of records, as far as there are whole ones. -/
def readWithin : Nat → List β → List ρ × List β
  | 0, symbols => ([], symbols)
  | fuel + 1, symbols =>
      match format.decode symbols with
      | none => ([], symbols)
      | some (record, rest) =>
          let (records, left) := readWithin fuel rest
          (record :: records, left)

/-- The whole records at the front of a sequence of symbols, and what is left
of it. -/
def read (symbols : List β) : List ρ × List β :=
  format.readWithin symbols.length symbols

theorem readWithin_spec
    {fuel : Nat}
    {symbols : List β}
    (enough : symbols.length ≤ fuel) :
    symbols = format.encodeAll (format.readWithin fuel symbols).1 ++
        (format.readWithin fuel symbols).2 ∧
      format.decode (format.readWithin fuel symbols).2 = none := by
  induction fuel generalizing symbols with
  | zero =>
      obtain rfl : symbols = [] := List.length_eq_zero_iff.mp (by omega)
      refine ⟨rfl, ?_⟩
      cases decoded : format.decode ([] : List β) with
      | none => exact decoded
      | some both =>
          have spelled := format.decode_sound decoded
          exact absurd (List.append_eq_nil_iff.mp spelled.symm).1
            (format.encode_ne_nil _)
  | succ fuel inductionHypothesis =>
      unfold readWithin
      cases decoded : format.decode symbols with
      | none => exact ⟨rfl, decoded⟩
      | some both =>
          have spelled := format.decode_sound decoded
          have positive := format.encode_length_pos both.1
          have lengths := congrArg List.length spelled
          rw [List.length_append] at lengths
          obtain ⟨whole, rest⟩ := @inductionHypothesis both.2 (by omega)
          refine ⟨?_, rest⟩
          rw [encodeAll_cons, List.append_assoc, ← whole]
          exact spelled

/-- What is read is spelled at the front, and no record is left whole. -/
theorem read_spec (symbols : List β) :
    symbols = format.encodeAll (format.read symbols).1 ++
        (format.read symbols).2 ∧
      format.decode (format.read symbols).2 = none :=
  format.readWithin_spec le_rfl

/-- A part of a record's symbols that is not all of them. -/
def Part (part : List β) : Prop :=
  ∃ record, part <+: format.encode record ∧ part ≠ format.encode record

/-- Part of a record does not start with a record. -/
theorem Part.not_encode_append
    {format : RecordFormat β ρ}
    {part rest : List β}
    (isPart : format.Part part)
    (record : ρ) : part ≠ format.encode record ++ rest := by
  rintro rfl
  obtain ⟨whole, ⟨suffix, spelled⟩, proper⟩ := isPart
  have decoded := format.decode_encode whole []
  rw [List.append_nil, ← spelled, List.append_assoc, format.decode_encode]
    at decoded
  obtain ⟨-, none⟩ := Prod.mk.inj (Option.some.inj decoded)
  refine proper ?_
  rw [← spelled, (List.append_eq_nil_iff.mp none).2, List.append_nil]

/-- Records at the front of a sequence that ends in part of one are the first
records of it. -/
theorem prefix_of_encodeAll_append_eq
    {format : RecordFormat β ρ}
    {first records : List ρ}
    {rest part : List β}
    (isPart : format.Part part)
    (same : format.encodeAll first ++ rest = format.encodeAll records ++ part) :
    ∃ others, records = first ++ others ∧
      rest = format.encodeAll others ++ part := by
  induction first generalizing records with
  | nil => exact ⟨records, rfl, same⟩
  | cons record first inductionHypothesis =>
      cases records with
      | nil =>
          rw [encodeAll_cons, List.append_assoc] at same
          exact absurd same.symm (isPart.not_encode_append record)
      | cons other records =>
          rw [encodeAll_cons, encodeAll_cons, List.append_assoc,
            List.append_assoc] at same
          have decoded := format.decode_encode record
            (format.encodeAll first ++ rest)
          rw [same, format.decode_encode] at decoded
          obtain ⟨rfl, tails⟩ := Prod.mk.inj (Option.some.inj decoded)
          obtain ⟨others, rfl, rest⟩ := inductionHypothesis tails.symm
          exact ⟨others, rfl, rest⟩

/-- The front of a sequence that ends in part of a record is itself part of
one, if no record is whole in it. -/
theorem part_of_prefix
    {format : RecordFormat β ρ}
    {records : List ρ}
    {left rest part : List β}
    (isPart : format.Part part)
    (undecoded : format.decode left = none)
    (same : left ++ rest = format.encodeAll records ++ part) :
    format.Part left := by
  cases records with
  | nil =>
      obtain ⟨record, within, proper⟩ := isPart
      have inside : left <+: part := ⟨rest, same⟩
      refine ⟨record, inside.trans within, ?_⟩
      rintro rfl
      exact proper (inside.eq_of_length_le within.length_le).symm
  | cons record records =>
      rw [encodeAll_cons, List.append_assoc] at same
      have decodes : ∀ more, left ≠ format.encode record ++ more := by
        rintro more rfl
        rw [format.decode_encode] at undecoded
        cases undecoded
      rcases List.append_eq_append_iff.mp same with
        ⟨more, spelled, -⟩ | ⟨more, spelled, -⟩
      · refine ⟨record, ⟨more, spelled.symm⟩, ?_⟩
        intro whole
        exact decodes [] (by rw [List.append_nil, whole])
      · exact absurd spelled (decodes more)

end RecordFormat
