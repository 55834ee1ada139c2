import Mathlib
import Mcast.Rpc.Codec

/-!
# The generated message classes

`rpc.pb.cc` and `echo_service.pb.cc`: classes of required length-delimited fields, numbered from 1
on, with one bit for each field that is present and the unknown fields of the input.  The functions
of the protobuf runtime that they call are parameters, with the laws of the wire format that the
classes rely on; so are the functions of `MessageLite` through which the library is used, with what
they promise of the virtual functions of a class.

A serialization is a sequence of pieces, one for each field that is present and one for each
unknown field.  The parser takes one piece after the other, so what it makes of a sequence of pieces
is told by what it makes of one.
-/

namespace Mcast
namespace Generated

/-! ## The runtime -/

/-- What `ReadTagWithCutoffNoLastTag` finds. -/
inductive Tag where
  /-- The input ends, where a message may end; the tag returned is zero. -/
  | finished
  /-- There is no whole tag; the tag returned is zero. -/
  | invalid
  | tag (value : UInt32) (rest : Bytes)

/-- The functions of `CodedInputStream`, `WireFormatLite` and `WireFormat`, on the bytes that are
still to be read. -/
structure Runtime (Unknown : Type) where
  readTag : Bytes → Tag
  /-- `ReadString` and `ReadBytes` into a string; a failure leaves something in it. -/
  readString : Bytes → Bytes → Except Bytes (Bytes × Bytes)
  /-- `SkipField`; a failure may leave a field behind. -/
  skipField : UInt32 → Bytes → Except (Option Unknown) (Unknown × Bytes)
  writeTag : UInt32 → Bytes
  /-- The length of a string and the string. -/
  writeDelimited : Bytes → Bytes
  unknownTag : Unknown → UInt32
  /-- An unknown field past its tag. -/
  writeUnknown : Unknown → Bytes
  stringSize : Bytes → Nat
  /-- The summand of `ComputeUnknownFieldsSize`. -/
  unknownSize : Unknown → Nat

/-- The wire format: what was written is read back, and a field that was cut off is not. -/
structure Runtime.Lawful {Unknown : Type} (runtime : Runtime Unknown) : Prop where
  readTag_nil : runtime.readTag [] = .finished
  readTag_writeTag : ∀ tag rest, tag ≠ 0 →
    runtime.readTag (runtime.writeTag tag ++ rest) = .tag tag rest
  readTag_truncated : ∀ tag kept, 0 < kept → kept < (runtime.writeTag tag).length →
    runtime.readTag ((runtime.writeTag tag).take kept) = .invalid
  readTag_shorter : ∀ input tag rest, runtime.readTag input = .tag tag rest →
    rest.length < input.length
  writeTag_length : ∀ tag, tag ≤ 127 → (runtime.writeTag tag).length = 1
  writeTag_nonempty : ∀ tag, 0 < (runtime.writeTag tag).length
  readString_writeDelimited : ∀ old bytes rest, bytes.length < 2 ^ 31 →
    runtime.readString old (runtime.writeDelimited bytes ++ rest) = .ok (bytes, rest)
  readString_truncated : ∀ old bytes kept, bytes.length < 2 ^ 31 →
    kept < (runtime.writeDelimited bytes).length →
      ∃ left, runtime.readString old ((runtime.writeDelimited bytes).take kept) = .error left
  readString_shorter : ∀ old input bytes rest, runtime.readString old input = .ok (bytes, rest) →
    rest.length ≤ input.length
  skipField_writeUnknown : ∀ u rest,
    runtime.skipField (runtime.unknownTag u) (runtime.writeUnknown u ++ rest) = .ok (u, rest)
  skipField_truncated : ∀ u kept, kept < (runtime.writeUnknown u).length →
    ∃ left, runtime.skipField (runtime.unknownTag u) ((runtime.writeUnknown u).take kept) = .error left
  skipField_tag : ∀ tag input u rest, runtime.skipField tag input = .ok (u, rest) →
    runtime.unknownTag u = tag
  skipField_left : ∀ tag input u, runtime.skipField tag input = .error (some u) →
    runtime.unknownTag u = tag
  skipField_shorter : ∀ tag input u rest, runtime.skipField tag input = .ok (u, rest) →
    rest.length ≤ input.length
  writeDelimited_longer : ∀ bytes, bytes.length < (runtime.writeDelimited bytes).length
  stringSize : ∀ bytes, (runtime.writeDelimited bytes).length = runtime.stringSize bytes
  unknownSize : ∀ u, (runtime.writeTag (runtime.unknownTag u)).length +
    (runtime.writeUnknown u).length = runtime.unknownSize u

/-! ## Message objects -/

/-- A message with `n` required fields: `_has_bits_[0]`, the strings and the unknown fields. -/
structure Message (Unknown : Type) (n : Nat) where
  hasBits : BitVec 32
  strings : Fin n → Bytes
  unknown : List Unknown

namespace Message

variable {Unknown : Type} {n : Nat}

/-- A new object. -/
def new : Message Unknown n where
  hasBits := 0
  strings := fun _ => []
  unknown := []

/-- `has_service` and its like. -/
def has (m : Message Unknown n) (i : Fin n) : Bool := m.hasBits &&& (1#32 <<< i.val) != 0

/-- `set_service` and its like, and a parsed string through `mutable_service`. -/
def set (m : Message Unknown n) (i : Fin n) (value : Bytes) : Message Unknown n :=
  { m with
    hasBits := m.hasBits ||| (1#32 <<< i.val)
    strings := Function.update m.strings i value }

/-- `clear_service` and `release_service`, and their like. -/
def clearField (m : Message Unknown n) (i : Fin n) : Message Unknown n :=
  { m with
    hasBits := m.hasBits &&& ~~~(1#32 <<< i.val)
    strings := Function.update m.strings i [] }

/-- `Clear`, which clears only the strings that are present. -/
def clear (m : Message Unknown n) : Message Unknown n where
  hasBits := 0
  strings := fun i => if m.has i then [] else m.strings i
  unknown := []

/-- The bits of all required fields. -/
def required (n : Nat) : BitVec 32 := BitVec.ofNat 32 (2 ^ n - 1)

def isInitialized (m : Message Unknown n) : Bool := m.hasBits &&& required n == required n

/-- `MergeFrom`. -/
def mergeFrom (m other : Message Unknown n) : Message Unknown n :=
  (List.finRange n).foldl (fun m i => if other.has i then m.set i (other.strings i) else m)
    { m with unknown := m.unknown ++ other.unknown }

/-- `CopyFrom` of another object. -/
def copyFrom (m other : Message Unknown n) : Message Unknown n := m.clear.mergeFrom other

end Message

/-! ## Parsing -/

section Functions

variable {Unknown : Type} {n : Nat} (runtime : Runtime Unknown)

/-- The tag of a length-delimited field: 10, 18, 26 and so on. -/
def tagOf (i : Fin n) : UInt32 := UInt32.ofNat (8 * (i.val + 1) + 2)

/-- The field that a tag belongs to: tags above the cutoff 127, other field numbers and other wire
types are unusual. -/
def field? (n : Nat) (tag : UInt32) : Option (Fin n) :=
  if tag ≤ 127 then
    let number := (tag >>> 3).toNat
    if inside : 1 ≤ number ∧ number ≤ n then
      if tag.toUInt8 = UInt8.ofNat (8 * number + 2) then some ⟨number - 1, by omega⟩ else none
    else none
  else none

/-- How `MergePartialFromCodedStream` ends: it returns true at a tag that is zero, which is the end
of a message only at the end of the input. -/
inductive Outcome where
  | success (consumed : Bool)
  | failure
  deriving DecidableEq

/-- `MergePartialFromCodedStream`. -/
def mergePartialFromCodedStream : Nat → Message Unknown n → Bytes → Message Unknown n × Outcome
  | 0, m, _ => (m, .failure)
  | fuel + 1, m, input =>
      match runtime.readTag input with
      | .finished => (m, .success true)
      | .invalid => (m, .success false)
      | .tag tag rest =>
          match field? n tag with
          | some i =>
              match runtime.readString (m.strings i) rest with
              | .ok (value, rest) => mergePartialFromCodedStream fuel (m.set i value) rest
              | .error left => (m.set i left, .failure)
          | none =>
              if tag = 0 then (m, .success false)
              else
                match runtime.skipField tag rest with
                | .ok (u, rest) =>
                    mergePartialFromCodedStream fuel { m with unknown := m.unknown ++ [u] } rest
                | .error left => ({ m with unknown := m.unknown ++ left.toList }, .failure)

/-! ## Serializing -/

/-- A field that is present, in a serialization. -/
def fieldBytes (m : Message Unknown n) (i : Fin n) : Bytes :=
  if m.has i then runtime.writeTag (tagOf i) ++ runtime.writeDelimited (m.strings i) else []

def unknownBytes (u : Unknown) : Bytes :=
  runtime.writeTag (runtime.unknownTag u) ++ runtime.writeUnknown u

/-- `SerializeWithCachedSizes`: the bytes written to the stream. -/
def serializeWithCachedSizes (m : Message Unknown n) : Bytes :=
  (List.finRange n).flatMap (fieldBytes runtime m) ++ m.unknown.flatMap (unknownBytes runtime)

/-- `InternalSerializeWithCachedSizesToArray`: each field moves `target`. -/
def internalSerializeWithCachedSizesToArray (m : Message Unknown n) (target : Bytes) : Bytes :=
  m.unknown.foldl (fun target u => target ++ unknownBytes runtime u)
    ((List.finRange n).foldl (fun target i => target ++ fieldBytes runtime m i) target)

/-- `RequiredFieldsByteSizeFallback`. -/
def requiredFieldsByteSizeFallback (m : Message Unknown n) : Nat :=
  (List.finRange n).foldl
    (fun total i => if m.has i then total + (1 + runtime.stringSize (m.strings i)) else total) 0

/-- `ByteSizeLong` of a class with several fields, which adds them up without a test when all are
present. -/
def byteSizeLong (m : Message Unknown n) : Nat :=
  let total := (m.unknown.map runtime.unknownSize).sum
  if (m.hasBits &&& Message.required n) ^^^ Message.required n = 0 then
    (List.finRange n).foldl (fun total i => total + (1 + runtime.stringSize (m.strings i))) total
  else total + requiredFieldsByteSizeFallback runtime m

/-- `ByteSizeLong` of a class with one field, which tests it. -/
def byteSizeLongSingle (m : Message Unknown 1) : Nat :=
  let total := (m.unknown.map runtime.unknownSize).sum
  if m.has 0 then total + (1 + runtime.stringSize (m.strings 0)) else total

/-- The functions of `MessageLite` that call the virtual functions of a class. -/
structure MessageLite (Unknown : Type) where
  /-- `ParseFromArray` on an object. -/
  parseFromArray : {n : Nat} → Message Unknown n → Bytes → Message Unknown n × Bool
  /-- `AppendToString` and `SerializeToString`, with no value where they return false. -/
  appendToString : {n : Nat} → Message Unknown n → Option Bytes

/-- `ParseFromArray` clears the object and merges the bytes into it, and accepts a complete message that
takes the whole input.  `AppendToString` writes an object that has its required fields and is not
larger than `INT_MAX`; what it does to an incomplete one depends on the build. -/
structure MessageLite.Lawful (lite : MessageLite Unknown) : Prop where
  parse_object : ∀ {n : Nat} (m : Message Unknown n) (bytes : Bytes),
    (lite.parseFromArray m bytes).1 =
      (mergePartialFromCodedStream runtime (bytes.length + 1) m.clear bytes).1
  parse_result : ∀ {n : Nat} (m : Message Unknown n) (bytes : Bytes),
    (lite.parseFromArray m bytes).2 = true ↔
      (mergePartialFromCodedStream runtime (bytes.length + 1) m.clear bytes).2 = .success true ∧
        (lite.parseFromArray m bytes).1.isInitialized = true
  append_complete : ∀ {n : Nat} (m : Message Unknown n), m.isInitialized = true →
    lite.appendToString m =
      if byteSizeLong runtime m ≤ 2 ^ 31 - 1 then
        some (internalSerializeWithCachedSizesToArray runtime m [])
      else none

end Functions

/-! ## Presence bits -/

theorem getLsbD_bit {i j : Nat} (inside : j < 32) : (1#32 <<< i).getLsbD j = decide (j = i) := by
  rw [BitVec.getLsbD_shiftLeft]
  rcases Nat.lt_trichotomy j i with less | rfl | more
  · simp [less, Nat.ne_of_lt less]
  · simp [inside]
  · have shifted : j - i ≠ 0 := by omega
    simp [shifted, Nat.ne_of_gt more]

theorem and_bit_ne_zero (x : BitVec 32) {i : Nat} (small : i < 32) :
    (x &&& (1#32 <<< i) != 0) = x.getLsbD i := by
  cases present : x.getLsbD i with
  | true =>
      have nonzero : x &&& (1#32 <<< i) ≠ 0 := by
        intro zero
        have here : (x &&& (1#32 <<< i)).getLsbD i = false := by simp [zero]
        rw [BitVec.getLsbD_and, getLsbD_bit small, present] at here
        simp at here
      simpa using nonzero
  | false =>
      have zero : x &&& (1#32 <<< i) = 0 := by
        apply BitVec.eq_of_getLsbD_eq
        intro j inside
        rw [BitVec.getLsbD_and, getLsbD_bit inside]
        by_cases same : j = i
        · subst same
          simp [present]
        · simp [same]
      simp [zero]

theorem getLsbD_required {n j : Nat} (inside : j < 32) :
    (Message.required n).getLsbD j = decide (j < n) := by
  rw [Message.required, BitVec.getLsbD_ofNat, Nat.testBit_two_pow_sub_one]
  simp [inside]

namespace Message

variable {Unknown : Type} {n : Nat} (small : n ≤ 15)

include small

theorem has_eq (m : Message Unknown n) (i : Fin n) : m.has i = m.hasBits.getLsbD i.val :=
  and_bit_ne_zero m.hasBits (by omega)

theorem has_set (m : Message Unknown n) (i j : Fin n) (value : Bytes) :
    (m.set i value).has j = (m.has j || decide (j = i)) := by
  rw [has_eq small, has_eq small]
  change (m.hasBits ||| (1#32 <<< i.val)).getLsbD j.val = _
  rw [BitVec.getLsbD_or, getLsbD_bit (by omega)]
  simp [Fin.ext_iff]

theorem has_new (i : Fin n) : (new : Message Unknown n).has i = false := by
  rw [has_eq small]
  simp [new]

theorem isInitialized_iff (m : Message Unknown n) :
    m.isInitialized = true ↔ ∀ i, m.has i = true := by
  rw [isInitialized, beq_iff_eq]
  constructor
  · intro complete i
    have bit := congrArg (fun x => x.getLsbD i.val) complete
    simp only [BitVec.getLsbD_and] at bit
    rw [getLsbD_required (by omega)] at bit
    rw [has_eq small]
    simpa using bit
  · intro all
    apply BitVec.eq_of_getLsbD_eq
    intro j inside
    rw [BitVec.getLsbD_and, getLsbD_required inside]
    by_cases member : j < n
    · have present := all ⟨j, member⟩
      rw [has_eq small] at present
      simp [present]
    · simp [member]

end Message

/-! ## Well-formed objects -/

section WellFormed

variable {Unknown : Type} {n : Nat} {runtime : Runtime Unknown}

/-- The invariant of the classes: a string that is not present is empty, there are no other bits,
and the unknown fields are none of the known ones. -/
structure Message.WellFormed (runtime : Runtime Unknown) (m : Message Unknown n) : Prop where
  absent : ∀ i, m.has i = false → m.strings i = []
  bits : ∀ j, n ≤ j → m.hasBits.getLsbD j = false
  unknown : ∀ u ∈ m.unknown,
    runtime.unknownTag u ≠ 0 ∧ field? n (runtime.unknownTag u) = none

namespace Message.WellFormed

theorem new : (Message.new : Message Unknown n).WellFormed runtime where
  absent := fun _ _ => rfl
  bits := fun _ _ => by simp [Message.new]
  unknown := by simp [Message.new]

/-- So clearing an object gives a new one. -/
theorem clear_eq_new {m : Message Unknown n} (wf : m.WellFormed runtime) :
    m.clear = Message.new := by
  have strings : m.clear.strings = fun _ => [] := by
    funext i
    change (if m.has i then [] else m.strings i) = []
    split
    · rfl
    · next missing => exact wf.absent i (by simpa using missing)
  rw [Message.new, ← strings]
  rfl

theorem addUnknown {m : Message Unknown n} {u : Unknown} (wf : m.WellFormed runtime)
    (nonzero : runtime.unknownTag u ≠ 0) (unusual : field? n (runtime.unknownTag u) = none) :
    Message.WellFormed runtime { m with unknown := m.unknown ++ [u] } where
  absent := wf.absent
  bits := wf.bits
  unknown := by
    intro v member
    rcases List.mem_append.mp member with old | last
    · exact wf.unknown v old
    · rw [List.mem_singleton.mp last]
      exact ⟨nonzero, unusual⟩

variable (small : n ≤ 15)

include small

theorem set {m : Message Unknown n} (wf : m.WellFormed runtime) (i : Fin n) (value : Bytes) :
    (m.set i value).WellFormed runtime where
  absent := by
    intro j missing
    rw [Message.has_set small] at missing
    have other : j ≠ i := by
      rintro rfl
      simp at missing
    change Function.update m.strings i value j = []
    rw [Function.update_of_ne other]
    exact wf.absent j (by simpa [other] using missing)
  bits := by
    intro j beyond
    by_cases inside : j < 32
    · change (m.hasBits ||| (1#32 <<< i.val)).getLsbD j = false
      have other : j ≠ i.val := by omega
      rw [BitVec.getLsbD_or, getLsbD_bit inside, wf.bits j beyond]
      simp [other]
    · exact BitVec.getLsbD_of_ge _ _ (by omega)
  unknown := wf.unknown

theorem clearField {m : Message Unknown n} (wf : m.WellFormed runtime) (i : Fin n) :
    (m.clearField i).WellFormed runtime where
  absent := by
    intro j missing
    change Function.update m.strings i [] j = []
    by_cases same : j = i
    · rw [same, Function.update_self]
    · rw [Function.update_of_ne same]
      apply wf.absent j
      rw [Message.has_eq small] at missing ⊢
      change (m.hasBits &&& ~~~(1#32 <<< i.val)).getLsbD j.val = false at missing
      have other : j.val ≠ i.val := fun equal => same (Fin.ext equal)
      have inside : j.val < 32 := by omega
      rw [BitVec.getLsbD_and, BitVec.getLsbD_not, getLsbD_bit inside] at missing
      simpa [inside, other] using missing
  bits := by
    intro j beyond
    change (m.hasBits &&& ~~~(1#32 <<< i.val)).getLsbD j = false
    rw [BitVec.getLsbD_and, wf.bits j beyond, Bool.false_and]
  unknown := wf.unknown

theorem mergeFrom {m other : Message Unknown n} (wf : m.WellFormed runtime)
    (from_ : other.WellFormed runtime) : (m.mergeFrom other).WellFormed runtime := by
  rw [Message.mergeFrom]
  generalize List.finRange n = indices
  have start : Message.WellFormed runtime { m with unknown := m.unknown ++ other.unknown } :=
    { absent := wf.absent
      bits := wf.bits
      unknown := by
        intro u member
        rcases List.mem_append.mp member with own | others
        · exact wf.unknown u own
        · exact from_.unknown u others }
  generalize Message.mk _ _ _ = merged at start
  induction indices generalizing merged with
  | nil => exact start
  | cons i indices ih =>
      rw [List.foldl_cons]
      apply ih
      split
      · exact start.set small i _
      · exact start

end Message.WellFormed

end WellFormed

/-! ## Merging -/

section Merging

variable {Unknown : Type} {n : Nat} {runtime : Runtime Unknown}

/-- The fields that `MergeFrom` copies. -/
def Message.copyFields (other : Message Unknown n) (m : Message Unknown n)
    (indices : List (Fin n)) : Message Unknown n :=
  indices.foldl (fun m i => if other.has i then m.set i (other.strings i) else m) m

theorem Message.copyFields_cons (other m : Message Unknown n) (i : Fin n)
    (indices : List (Fin n)) :
    other.copyFields m (i :: indices) =
      other.copyFields (if other.has i then m.set i (other.strings i) else m) indices := rfl

theorem Message.copyFields_unknown (other m : Message Unknown n) (indices : List (Fin n))
    (unknown : List Unknown) :
    other.copyFields { m with unknown } indices =
      { other.copyFields m indices with unknown } := by
  induction indices generalizing m with
  | nil => rfl
  | cons i indices ih =>
      rw [copyFields_cons, copyFields_cons, ← ih]
      split <;> rfl

theorem Message.unknown_copyFields (other m : Message Unknown n) (indices : List (Fin n)) :
    (other.copyFields m indices).unknown = m.unknown := by
  induction indices generalizing m with
  | nil => rfl
  | cons i indices ih =>
      rw [copyFields_cons, ih]
      split <;> rfl

theorem Message.strings_copyFields (other m : Message Unknown n) (indices : List (Fin n))
    (j : Fin n) :
    (other.copyFields m indices).strings j =
      if j ∈ indices ∧ other.has j = true then other.strings j else m.strings j := by
  induction indices generalizing m with
  | nil => simp [copyFields]
  | cons i indices ih =>
      rw [copyFields_cons, ih]
      by_cases same : j = i
      · subst same
        by_cases present : other.has j <;> simp [present, Message.set]
      · have kept : (if other.has i then m.set i (other.strings i) else m).strings j =
            m.strings j := by
          split
          · exact Function.update_of_ne same ..
          · rfl
        simp [kept, same]

theorem Message.getLsbD_copyFields (other m : Message Unknown n)
    (indices : List (Fin n)) {j : Nat} (inside : j < 32) :
    (other.copyFields m indices).hasBits.getLsbD j =
      (m.hasBits.getLsbD j || decide (∃ i ∈ indices, i.val = j ∧ other.has i = true)) := by
  induction indices generalizing m with
  | nil => simp [copyFields]
  | cons i indices ih =>
      rw [copyFields_cons, ih]
      have step : (if other.has i then m.set i (other.strings i) else m).hasBits.getLsbD j =
          (m.hasBits.getLsbD j || decide (i.val = j ∧ other.has i = true)) := by
        split
        · next present =>
            change (m.hasBits ||| (1#32 <<< i.val)).getLsbD j = _
            rw [BitVec.getLsbD_or, getLsbD_bit inside]
            simp [present, eq_comm]
        · next missing => simp [missing]
      rw [step, Bool.or_assoc]
      congr 1
      simp

/-- A copy is the object itself. -/
theorem Message.new_mergeFrom (small : n ≤ 15) {m : Message Unknown n}
    (wf : m.WellFormed runtime) : Message.new.mergeFrom m = m := by
  have merged : Message.new.mergeFrom m =
      { m.copyFields Message.new (List.finRange n) with unknown := m.unknown } := by
    rw [← Message.copyFields_unknown]
    rfl
  rw [merged]
  have strings : (m.copyFields Message.new (List.finRange n)).strings = m.strings := by
    funext i
    rw [Message.strings_copyFields]
    split
    · rfl
    · next missing =>
        refine (wf.absent i ?_).symm
        simpa using missing
  have bits : (m.copyFields Message.new (List.finRange n)).hasBits = m.hasBits := by
    apply BitVec.eq_of_getLsbD_eq
    intro j inside
    rw [Message.getLsbD_copyFields _ _ _ inside]
    by_cases member : j < n
    · have present := Message.has_eq small m ⟨j, member⟩
      have found : (∃ i ∈ List.finRange n, i.val = j ∧ m.has i = true) ↔
          m.has ⟨j, member⟩ = true := by
        constructor
        · rintro ⟨i, -, rfl, has⟩
          exact has
        · intro has
          exact ⟨⟨j, member⟩, List.mem_finRange _, rfl, has⟩
      simp only [found, ← present, Message.new]
      simp
    · have none_ : ¬ ∃ i ∈ List.finRange n, i.val = j ∧ m.has i = true := by
        rintro ⟨i, -, rfl, -⟩
        exact member i.isLt
      rw [wf.bits j (by omega), decide_eq_false none_]
      simp [Message.new]
  dsimp only
  rw [strings, bits]

end Merging

/-! ## Pieces -/

/-- One field of a serialization. -/
inductive Piece (Unknown : Type) (n : Nat) where
  | known (i : Fin n) (value : Bytes)
  | unknown (u : Unknown)

section Pieces

variable {Unknown : Type} {n : Nat} {runtime : Runtime Unknown}

/-- The tag of a piece, and what follows it. -/
def Piece.tag (runtime : Runtime Unknown) : Piece Unknown n → UInt32
  | .known i _ => tagOf i
  | .unknown u => runtime.unknownTag u

def Piece.body (runtime : Runtime Unknown) : Piece Unknown n → Bytes
  | .known _ value => runtime.writeDelimited value
  | .unknown u => runtime.writeUnknown u

def Piece.bytes (runtime : Runtime Unknown) (piece : Piece Unknown n) : Bytes :=
  runtime.writeTag (piece.tag runtime) ++ piece.body runtime

/-- What the parser makes of a piece. -/
def Message.apply (m : Message Unknown n) : Piece Unknown n → Message Unknown n
  | .known i value => m.set i value
  | .unknown u => { m with unknown := m.unknown ++ [u] }

/-- The pieces that the runtime can read back, and as what they were. -/
def Piece.Valid (runtime : Runtime Unknown) : Piece Unknown n → Prop
  | .known _ value => value.length < 2 ^ 31
  | .unknown u => runtime.unknownTag u ≠ 0 ∧ field? n (runtime.unknownTag u) = none

/-- The pieces of a serialization. -/
def Message.pieces (m : Message Unknown n) : List (Piece Unknown n) :=
  (List.finRange n).flatMap (fun i => if m.has i then [.known i (m.strings i)] else []) ++
    m.unknown.map .unknown

theorem serializeWithCachedSizes_eq (m : Message Unknown n) :
    serializeWithCachedSizes runtime m = m.pieces.flatMap (Piece.bytes runtime) := by
  rw [serializeWithCachedSizes, Message.pieces, List.flatMap_append, List.flatMap_assoc,
    List.flatMap_map]
  congr 1
  apply List.flatMap_congr
  intro i _
  rw [fieldBytes]
  split
  · rw [List.flatMap_singleton]
    rfl
  · rfl

theorem foldl_known (other m : Message Unknown n) (indices : List (Fin n)) :
    (indices.flatMap fun i => if other.has i then [.known i (other.strings i)] else []).foldl
      Message.apply m = other.copyFields m indices := by
  induction indices generalizing m with
  | nil => rfl
  | cons i indices ih =>
      rw [List.flatMap_cons, List.foldl_append, ih, Message.copyFields_cons]
      congr 1
      split <;> rfl

theorem foldl_unknown (m : Message Unknown n) (unknown : List Unknown) :
    (unknown.map .unknown).foldl Message.apply m =
      { m with unknown := m.unknown ++ unknown } := by
  induction unknown generalizing m with
  | nil => simp
  | cons u unknown ih => simp [ih, Message.apply]

/-- Taking the pieces of an object is merging the object. -/
theorem foldl_pieces (m other : Message Unknown n) :
    other.pieces.foldl Message.apply m = m.mergeFrom other := by
  rw [Message.pieces, List.foldl_append, foldl_known, foldl_unknown, Message.unknown_copyFields]
  exact (Message.copyFields_unknown ..).symm

theorem valid_pieces {m : Message Unknown n} (wf : m.WellFormed runtime)
    (short : ∀ i, (m.strings i).length < 2 ^ 31) :
    ∀ piece ∈ m.pieces, piece.Valid runtime := by
  intro piece member
  rw [Message.pieces, List.mem_append, List.mem_flatMap, List.mem_map] at member
  rcases member with ⟨i, -, known⟩ | ⟨u, unknown, rfl⟩
  · split at known
    · rw [List.mem_singleton.mp known]
      exact short i
    · cases known
  · exact wf.unknown u unknown

theorem tagOf_toNat (small : n ≤ 15) (i : Fin n) : (tagOf i).toNat = 8 * (i.val + 1) + 2 := by
  rw [tagOf, UInt32.toNat_ofNat_of_lt' (by change _ < 2 ^ 32; omega)]

theorem field?_tagOf (small : n ≤ 15) (i : Fin n) : field? n (tagOf i) = some i := by
  have value := tagOf_toNat small i
  have low : tagOf i ≤ 127 := by
    rw [UInt32.le_iff_toNat_le, value]
    change _ ≤ 127
    omega
  have number : (tagOf i >>> 3).toNat = i.val + 1 := by
    rw [UInt32.toNat_shiftRight, value]
    change (8 * (i.val + 1) + 2) >>> 3 = _
    rw [Nat.shiftRight_eq_div_pow]
    omega
  have byte : (tagOf i).toUInt8 = UInt8.ofNat (8 * (i.val + 1) + 2) := by
    apply UInt8.toNat_inj.mp
    rw [UInt32.toNat_toUInt8, value, UInt8.toNat_ofNat']
  simp only [field?, low, if_true, number, byte]
  rw [dif_pos (by omega)]
  simp

theorem tagOf_ne_zero (small : n ≤ 15) (i : Fin n) : tagOf i ≠ 0 := by
  intro zero
  have value := tagOf_toNat small i
  rw [zero] at value
  change 0 = _ at value
  omega

theorem tag_ne_zero (small : n ≤ 15) {piece : Piece Unknown n} (valid : piece.Valid runtime) :
    piece.tag runtime ≠ 0 := by
  cases piece with
  | known i value => exact tagOf_ne_zero small i
  | unknown u => exact valid.1

variable (lawful : runtime.Lawful) (small : n ≤ 15)

include lawful

/-- More fuel than bytes makes no difference. -/
theorem mergePartialFromCodedStream_fuel {fuel more : Nat} (m : Message Unknown n) {input : Bytes}
    (enough : input.length < fuel) (also : input.length < more) :
    mergePartialFromCodedStream runtime fuel m input =
      mergePartialFromCodedStream runtime more m input := by
  induction fuel generalizing more m input with
  | zero => omega
  | succ fuel ih =>
      obtain ⟨more, rfl⟩ := Nat.exists_eq_succ_of_ne_zero (by omega : more ≠ 0)
      simp only [mergePartialFromCodedStream]
      cases read : runtime.readTag input with
      | finished => rfl
      | invalid => rfl
      | tag tag rest =>
          have shorter := lawful.readTag_shorter input tag rest read
          dsimp only
          cases field? n tag with
          | some i =>
              dsimp only
              cases string : runtime.readString (m.strings i) rest with
              | error left => rfl
              | ok result =>
                  obtain ⟨value, last⟩ := result
                  have shortest := lawful.readString_shorter _ rest value last string
                  exact ih (m.set i value) (by omega) (by omega)
          | none =>
              dsimp only
              split
              · rfl
              · cases skipped : runtime.skipField tag rest with
                | error left => rfl
                | ok result =>
                    obtain ⟨u, last⟩ := result
                    have shortest := lawful.skipField_shorter tag rest u last skipped
                    exact ih _ (by omega) (by omega)

include small

/-- The parser takes one piece. -/
theorem mergePartialFromCodedStream_piece {piece : Piece Unknown n} (valid : piece.Valid runtime)
    (fuel : Nat) (m : Message Unknown n) (rest : Bytes) :
    mergePartialFromCodedStream runtime (fuel + 1) m (piece.bytes runtime ++ rest) =
      mergePartialFromCodedStream runtime fuel (m.apply piece) rest := by
  have read : runtime.readTag (piece.bytes runtime ++ rest) =
      .tag (piece.tag runtime) (piece.body runtime ++ rest) := by
    rw [Piece.bytes, List.append_assoc]
    exact lawful.readTag_writeTag _ _ (tag_ne_zero small valid)
  rw [mergePartialFromCodedStream, read]
  cases piece with
  | known i value =>
      simp only [Piece.tag, Piece.body, field?_tagOf small i,
        lawful.readString_writeDelimited _ value rest valid, Message.apply]
  | unknown u =>
      simp only [Piece.tag, Piece.body, valid.2, if_neg valid.1,
        lawful.skipField_writeUnknown u rest, Message.apply]

theorem mergePartialFromCodedStream_pieces {pieces : List (Piece Unknown n)}
    (valid : ∀ piece ∈ pieces, piece.Valid runtime) (fuel : Nat) (m : Message Unknown n)
    (rest : Bytes) :
    mergePartialFromCodedStream runtime (fuel + pieces.length) m
        (pieces.flatMap (Piece.bytes runtime) ++ rest) =
      mergePartialFromCodedStream runtime fuel (pieces.foldl Message.apply m) rest := by
  induction pieces generalizing m with
  | nil => rfl
  | cons piece pieces ih =>
      rw [List.forall_mem_cons] at valid
      rw [List.flatMap_cons, List.append_assoc, List.length_cons, ← Nat.add_assoc,
        mergePartialFromCodedStream_piece lawful small valid.1, ih valid.2, List.foldl_cons]

/-- It does not take a piece that was cut off. -/
theorem mergePartialFromCodedStream_truncated {piece : Piece Unknown n}
    (valid : piece.Valid runtime) (fuel : Nat) {kept : Nat} (m : Message Unknown n) (some_ : 0 < kept)
    (cut : kept < (piece.bytes runtime).length) :
    (mergePartialFromCodedStream runtime fuel m ((piece.bytes runtime).take kept)).2 ≠
      .success true := by
  cases fuel with
  | zero => simp [mergePartialFromCodedStream]
  | succ fuel =>
      rw [Piece.bytes, List.length_append] at cut
      rw [Piece.bytes, List.take_append]
      by_cases whole : (runtime.writeTag (piece.tag runtime)).length ≤ kept
      · rw [List.take_of_length_le whole]
        have short : kept - (runtime.writeTag (piece.tag runtime)).length <
            (piece.body runtime).length := by omega
        generalize kept - (runtime.writeTag (piece.tag runtime)).length = left at short
        rw [mergePartialFromCodedStream,
          lawful.readTag_writeTag _ _ (tag_ne_zero small valid)]
        cases piece with
        | known i value =>
            obtain ⟨partial_, failed⟩ := lawful.readString_truncated (m.strings i) value left valid short
            simp only [Piece.tag, Piece.body, field?_tagOf small i, failed]
            exact Outcome.noConfusion
        | unknown u =>
            obtain ⟨partial_, failed⟩ := lawful.skipField_truncated u left short
            simp only [Piece.tag, Piece.body, valid.2, if_neg valid.1, failed]
            exact Outcome.noConfusion
      · have none_ : kept - (runtime.writeTag (piece.tag runtime)).length = 0 := by omega
        rw [none_, List.take_zero, List.append_nil, mergePartialFromCodedStream,
          lawful.readTag_truncated _ kept some_ (by omega)]
        simp

end Pieces

/-! ## Sizes -/

section Sizes

variable {Unknown : Type} {n : Nat} {runtime : Runtime Unknown}

theorem foldl_add {α : Type} (size : α → Nat) (total : Nat) (list : List α) :
    list.foldl (fun total a => total + size a) total = total + (list.map size).sum := by
  induction list generalizing total with
  | nil => rfl
  | cons a list ih => rw [List.foldl_cons, ih, List.map_cons, List.sum_cons, Nat.add_assoc]

theorem foldl_append_flatMap {α : Type} (bytes : α → Bytes) (target : Bytes) (list : List α) :
    list.foldl (fun target a => target ++ bytes a) target = target ++ list.flatMap bytes := by
  induction list generalizing target with
  | nil => simp
  | cons a list ih => rw [List.foldl_cons, ih, List.flatMap_cons, List.append_assoc]

/-- Both serializers write the same bytes. -/
theorem internalSerializeWithCachedSizesToArray_eq (m : Message Unknown n) (target : Bytes) :
    internalSerializeWithCachedSizesToArray runtime m target =
      target ++ serializeWithCachedSizes runtime m := by
  rw [internalSerializeWithCachedSizesToArray, foldl_append_flatMap, foldl_append_flatMap,
    serializeWithCachedSizes, List.append_assoc]

theorem requiredFieldsByteSizeFallback_eq (m : Message Unknown n) :
    requiredFieldsByteSizeFallback runtime m =
      ((List.finRange n).map fun i =>
        if m.has i then 1 + runtime.stringSize (m.strings i) else 0).sum := by
  rw [← Nat.zero_add (List.sum _), ← foldl_add, requiredFieldsByteSizeFallback]
  congr 1
  funext total i
  split <;> rfl

theorem xor_required_eq_zero (m : Message Unknown n) :
    (m.hasBits &&& Message.required n) ^^^ Message.required n = 0 ↔ m.isInitialized = true := by
  rw [Message.isInitialized, beq_iff_eq]
  exact BitVec.xor_eq_zero_iff

theorem byteSizeLong_eq (small : n ≤ 15) (m : Message Unknown n) :
    byteSizeLong runtime m = (m.unknown.map runtime.unknownSize).sum +
      ((List.finRange n).map fun i =>
        if m.has i then 1 + runtime.stringSize (m.strings i) else 0).sum := by
  rw [byteSizeLong]
  split
  · next complete =>
      have all := (Message.isInitialized_iff small m).mp ((xor_required_eq_zero m).mp complete)
      rw [foldl_add]
      simp [all]
  · rw [requiredFieldsByteSizeFallback_eq]

theorem byteSizeLongSingle_eq (m : Message Unknown 1) :
    byteSizeLongSingle runtime m = byteSizeLong runtime m := by
  rw [byteSizeLong_eq (by decide), byteSizeLongSingle]
  rw [List.finRange_succ, List.map_cons, List.sum_cons]
  split <;> simp

theorem length_fieldBytes (lawful : runtime.Lawful) (small : n ≤ 15) (m : Message Unknown n)
    (i : Fin n) :
    (fieldBytes runtime m i).length =
      if m.has i then 1 + runtime.stringSize (m.strings i) else 0 := by
  have low : tagOf i ≤ 127 := by
    rw [UInt32.le_iff_toNat_le, tagOf_toNat small]
    change _ ≤ 127
    omega
  rw [fieldBytes]
  split
  · rw [List.length_append, lawful.writeTag_length _ low, lawful.stringSize]
  · rfl

/-- `ByteSizeLong` is the number of bytes that are written. -/
theorem length_serializeWithCachedSizes (lawful : runtime.Lawful) (small : n ≤ 15)
    (m : Message Unknown n) :
    (serializeWithCachedSizes runtime m).length = byteSizeLong runtime m := by
  have unknown (u : Unknown) : (unknownBytes runtime u).length = runtime.unknownSize u := by
    rw [unknownBytes, List.length_append, lawful.unknownSize]
  rw [serializeWithCachedSizes, List.length_append, List.length_flatMap, List.length_flatMap,
    byteSizeLong_eq small, Nat.add_comm]
  simp only [unknown, length_fieldBytes lawful small]

end Sizes

end Generated
end Mcast
