import Mcast.Rpc.Generated
import Mcast.Rpc.Wire

/-!
# Parsing and serializing message objects

An object of a generated class keeps its invariant through every operation, a parse that fails
included, so that `ParseFromArray` makes of the same bytes the same message on a used object as on a
new one.  What was serialized is parsed back, several serializations in a row as the merge of their
messages.  So the classes are what the codec takes them for.
-/

namespace Mcast
namespace Generated

section Objects

variable {Unknown : Type} {n : Nat} {runtime : Runtime Unknown} {lite : MessageLite Unknown}

/-- The parser keeps the invariant, also where it fails. -/
theorem Message.WellFormed.mergePartialFromCodedStream (lawful : runtime.Lawful) (small : n ≤ 15)
    {m : Message Unknown n} (wf : m.WellFormed runtime) (fuel : Nat) (input : Bytes) :
    (mergePartialFromCodedStream runtime fuel m input).1.WellFormed runtime := by
  induction fuel generalizing m input with
  | zero => exact wf
  | succ fuel ih =>
      simp only [Generated.mergePartialFromCodedStream]
      cases runtime.readTag input with
      | finished => exact wf
      | invalid => exact wf
      | tag tag rest =>
          dsimp only
          cases known : field? n tag with
          | some i =>
              dsimp only
              cases runtime.readString (m.strings i) rest with
              | error left => exact wf.set small i left
              | ok result => exact ih (wf.set small i result.1) result.2
          | none =>
              dsimp only
              split
              · exact wf
              · next nonzero =>
                  cases skipped : runtime.skipField tag rest with
                  | error left =>
                      cases left with
                      | none => simpa using wf
                      | some u =>
                          have same := lawful.skipField_left tag rest u skipped
                          exact wf.addUnknown (by rwa [same]) (by rwa [same])
                  | ok result =>
                      have same := lawful.skipField_tag tag rest result.1 result.2 skipped
                      exact ih (wf.addUnknown (by rwa [same]) (by rwa [same])) result.2

theorem Message.WellFormed.parseFromArray (lawful : runtime.Lawful) (glue : lite.Lawful runtime)
    (small : n ≤ 15) {m : Message Unknown n} (wf : m.WellFormed runtime) (bytes : Bytes) :
    (lite.parseFromArray m bytes).1.WellFormed runtime := by
  rw [glue.parse_object, wf.clear_eq_new]
  exact Message.WellFormed.new.mergePartialFromCodedStream lawful small _ bytes

/-! ## Used objects -/

/-- What can be done to an object. -/
inductive Operation (runtime : Runtime Unknown) (n : Nat) where
  | set (i : Fin n) (value : Bytes)
  | clearField (i : Fin n)
  | clear
  | mergeFrom (other : { other : Message Unknown n // other.WellFormed runtime })
  | copyFrom (other : { other : Message Unknown n // other.WellFormed runtime })
  | parseFromArray (bytes : Bytes)

def Message.operate (lite : MessageLite Unknown) (m : Message Unknown n) :
    Operation runtime n → Message Unknown n
  | .set i value => m.set i value
  | .clearField i => m.clearField i
  | .clear => m.clear
  | .mergeFrom other => m.mergeFrom other.1
  | .copyFrom other => m.copyFrom other.1
  | .parseFromArray bytes => (lite.parseFromArray m bytes).1

theorem Message.WellFormed.operate (lawful : runtime.Lawful) (glue : lite.Lawful runtime)
    (small : n ≤ 15) {m : Message Unknown n} (wf : m.WellFormed runtime)
    (operation : Operation runtime n) : (m.operate lite operation).WellFormed runtime := by
  cases operation with
  | set i value => exact wf.set small i value
  | clearField i => exact wf.clearField small i
  | clear =>
      change m.clear.WellFormed runtime
      rw [wf.clear_eq_new]
      exact .new
  | mergeFrom other => exact wf.mergeFrom small other.2
  | copyFrom other =>
      change (m.clear.mergeFrom other.1).WellFormed runtime
      rw [wf.clear_eq_new]
      exact Message.WellFormed.new.mergeFrom small other.2
  | parseFromArray bytes => exact wf.parseFromArray lawful glue small bytes

theorem wellFormed_of_operations (lawful : runtime.Lawful) (glue : lite.Lawful runtime)
    (small : n ≤ 15) (operations : List (Operation runtime n)) :
    (operations.foldl (Message.operate lite) Message.new).WellFormed runtime := by
  have keep (m : Message Unknown n) (wf : m.WellFormed runtime) :
      (operations.foldl (Message.operate lite) m).WellFormed runtime := by
    induction operations generalizing m with
    | nil => exact wf
    | cons operation operations ih => exact ih _ (wf.operate lawful glue small operation)
  exact keep _ .new

/-! ## Several serializations in a row -/

/-- The parser takes the serialization of an object as a merge with the object. -/
theorem mergePartialFromCodedStream_serialized (lawful : runtime.Lawful) (small : n ≤ 15)
    {m : Message Unknown n} (wf : m.WellFormed runtime)
    (short : ∀ i, (m.strings i).length < 2 ^ 31) (target : Message Unknown n) (rest : Bytes)
    {fuel more : Nat} (enough : (serializeWithCachedSizes runtime m ++ rest).length < fuel)
    (also : rest.length < more) :
    mergePartialFromCodedStream runtime fuel target (serializeWithCachedSizes runtime m ++ rest) =
      mergePartialFromCodedStream runtime more (target.mergeFrom m) rest := by
  rw [serializeWithCachedSizes_eq] at enough ⊢
  rw [mergePartialFromCodedStream_fuel lawful target enough
      (Nat.lt_add_right m.pieces.length enough),
    mergePartialFromCodedStream_pieces lawful small (valid_pieces wf short), foldl_pieces]
  apply mergePartialFromCodedStream_fuel lawful _ _ also
  rw [List.length_append] at enough
  omega

theorem mergePartialFromCodedStream_concatenated (lawful : runtime.Lawful) (small : n ≤ 15)
    {messages : List (Message Unknown n)} (wf : ∀ m ∈ messages, m.WellFormed runtime)
    (short : ∀ m ∈ messages, ∀ i, (m.strings i).length < 2 ^ 31) (target : Message Unknown n)
    {fuel : Nat} (enough : (messages.flatMap (serializeWithCachedSizes runtime)).length < fuel) :
    mergePartialFromCodedStream runtime fuel target
        (messages.flatMap (serializeWithCachedSizes runtime)) =
      (messages.foldl Message.mergeFrom target, .success true) := by
  induction messages generalizing target fuel with
  | nil =>
      obtain ⟨fuel, rfl⟩ := Nat.exists_eq_succ_of_ne_zero (Nat.ne_of_gt enough)
      simp only [List.flatMap_nil, mergePartialFromCodedStream, lawful.readTag_nil, List.foldl_nil]
  | cons m messages ih =>
      rw [List.forall_mem_cons] at wf short
      rw [List.flatMap_cons] at enough ⊢
      rw [mergePartialFromCodedStream_serialized lawful small wf.1 short.1 target _ enough
        (Nat.lt_succ_self _), ih wf.2 short.2 _ (Nat.lt_succ_self _), List.foldl_cons]

theorem has_mergeFrom (small : n ≤ 15) (m other : Message Unknown n) (i : Fin n) :
    (m.mergeFrom other).has i = (m.has i || other.has i) := by
  have merged : m.mergeFrom other = other.copyFields { m with unknown := m.unknown ++ other.unknown }
      (List.finRange n) := rfl
  rw [merged, Message.has_eq small, Message.getLsbD_copyFields _ _ _ (by omega),
    Message.has_eq small m]
  congr 1
  have found : (∃ j ∈ List.finRange n, j.val = i.val ∧ other.has j = true) ↔
      other.has i = true := by
    constructor
    · rintro ⟨j, -, same, has⟩
      rwa [Fin.ext same] at has
    · intro has
      exact ⟨i, List.mem_finRange i, rfl, has⟩
  simp only [found, Bool.decide_eq_true]

theorem has_foldl_mergeFrom (small : n ≤ 15) (messages : List (Message Unknown n))
    (m : Message Unknown n) (i : Fin n) :
    (messages.foldl Message.mergeFrom m).has i = true ↔
      m.has i = true ∨ ∃ other ∈ messages, other.has i = true := by
  induction messages generalizing m with
  | nil => simp
  | cons other messages ih =>
      rw [List.foldl_cons, ih, has_mergeFrom small]
      simp [or_assoc]

/-! ## Serializations that were cut off -/

/-- The number of pieces of an object. -/
def Message.count (m : Message Unknown n) : Nat :=
  (List.finRange n).countP m.has + m.unknown.length

theorem length_pieces (m : Message Unknown n) : m.pieces.length = m.count := by
  let piece (i : Fin n) : List (Piece Unknown n) :=
    if m.has i then [.known i (m.strings i)] else []
  have known (indices : List (Fin n)) :
      (indices.flatMap piece).length = indices.countP m.has := by
    induction indices with
    | nil => rfl
    | cons i indices ih =>
        rw [List.flatMap_cons, List.length_append, ih, List.countP_cons, Nat.add_comm]
        congr 1
        change (if m.has i then [_] else []).length = _
        split <;> rfl
  rw [Message.pieces, List.length_append, List.length_map, Message.count]
  congr 1
  exact known (List.finRange n)

theorem count_apply_le (small : n ≤ 15) (m : Message Unknown n) (piece : Piece Unknown n) :
    (m.apply piece).count ≤ m.count + 1 := by
  cases piece with
  | known i value =>
      have bits : (m.set i value).has = fun j => m.has j || (j == i) := by
        funext j
        rw [Message.has_set small, beq_eq_decide]
      have either (indices : List (Fin n)) :
          indices.countP (fun j => m.has j || (j == i)) ≤
            indices.countP m.has + indices.count i := by
        induction indices with
        | nil => exact Nat.le_refl _
        | cons j indices ih =>
            rw [List.countP_cons, List.countP_cons, List.count_cons]
            by_cases present : m.has j <;> by_cases same : j = i <;>
              simp [present, same] <;> omega
      have once := List.nodup_iff_count.mp (List.nodup_finRange n) i
      have few := either (List.finRange n)
      change (List.finRange n).countP (m.set i value).has + m.unknown.length ≤
        (List.finRange n).countP m.has + m.unknown.length + 1
      rw [bits]
      omega
  | unknown u =>
      simp only [Message.apply, Message.count, List.length_append, List.length_singleton]
      exact Nat.le_refl _

theorem count_foldl_le (small : n ≤ 15) (m : Message Unknown n) (pieces : List (Piece Unknown n)) :
    (pieces.foldl Message.apply m).count ≤ m.count + pieces.length := by
  induction pieces generalizing m with
  | nil => exact Nat.le_refl _
  | cons piece pieces ih =>
      have first := count_apply_le small m piece
      have others := ih (m.apply piece)
      rw [List.foldl_cons, List.length_cons]
      omega

theorem count_new (small : n ≤ 15) : (Message.new : Message Unknown n).count = 0 := by
  simp only [Message.count, Message.new, List.length_nil, Nat.add_zero, List.countP_eq_zero]
  intro i _
  rw [← Message.new, Message.has_new small]
  exact Bool.false_ne_true

/-- What is kept of a concatenation are whole parts and a strict part of the next one. -/
theorem exists_take_flatMap {α : Type} (bytes : α → Bytes) {parts : List α} {kept : Nat}
    (cut : kept < (parts.flatMap bytes).length) :
    ∃ whole next others rest, parts = whole ++ next :: others ∧ rest < (bytes next).length ∧
      (parts.flatMap bytes).take kept = whole.flatMap bytes ++ (bytes next).take rest := by
  induction parts generalizing kept with
  | nil => exact absurd cut (Nat.not_lt_zero _)
  | cons part parts ih =>
      rw [List.flatMap_cons, List.length_append] at cut
      rw [List.flatMap_cons, List.take_append]
      by_cases inside : kept < (bytes part).length
      · refine ⟨[], part, parts, kept, rfl, inside, ?_⟩
        rw [Nat.sub_eq_zero_of_le (Nat.le_of_lt inside)]
        simp
      · have shorter : kept - (bytes part).length < (parts.flatMap bytes).length := by omega
        obtain ⟨whole, next, others, rest, rfl, less, taken⟩ := ih shorter
        refine ⟨part :: whole, next, others, rest, rfl, less, ?_⟩
        rw [taken, List.take_of_length_le (by omega), List.flatMap_cons, List.append_assoc]

/-- Where the part of a serialization that was kept is accepted, it has fewer pieces. -/
theorem count_of_truncated (lawful : runtime.Lawful) (small : n ≤ 15) {m : Message Unknown n}
    (wf : m.WellFormed runtime) (short : ∀ i, (m.strings i).length < 2 ^ 31) {kept fuel : Nat}
    (cut : kept < (serializeWithCachedSizes runtime m).length) {merged : Message Unknown n}
    (enough : ((serializeWithCachedSizes runtime m).take kept).length < fuel)
    (accepted : mergePartialFromCodedStream runtime fuel Message.new
      ((serializeWithCachedSizes runtime m).take kept) = (merged, .success true)) :
    merged.count < m.count := by
  have valid := valid_pieces wf short
  rw [serializeWithCachedSizes_eq] at cut enough accepted
  obtain ⟨whole, next, others, rest, split, less, taken⟩ := exists_take_flatMap _ cut
  rw [split, List.forall_mem_append, List.forall_mem_cons] at valid
  rw [taken] at enough accepted
  rw [mergePartialFromCodedStream_fuel lawful _ enough
      (Nat.lt_add_right whole.length enough),
    mergePartialFromCodedStream_pieces lawful small valid.1] at accepted
  rcases Nat.eq_zero_or_pos rest with rfl | some_
  · obtain ⟨fuel, rfl⟩ := Nat.exists_eq_succ_of_ne_zero
      (Nat.ne_of_gt (Nat.zero_lt_of_lt enough))
    rw [List.take_zero, mergePartialFromCodedStream, lawful.readTag_nil] at accepted
    have merged_eq : whole.foldl Message.apply Message.new = merged :=
      (Prod.mk.inj accepted).1
    have few := count_foldl_le small (Message.new : Message Unknown n) whole
    rw [merged_eq, count_new small] at few
    rw [← length_pieces m, split, List.length_append, List.length_cons]
    omega
  · have refused := mergePartialFromCodedStream_truncated lawful small valid.2.1 fuel
      (whole.foldl Message.apply Message.new) some_ less
    rw [accepted] at refused
    exact absurd rfl refused

end Objects

/-! ## A runtime -/

/-- The runtime on inputs whose unknown fields are length-delimited. -/
structure Delimited where
  tag : UInt32
  bytes : { bytes : Bytes // bytes.length < 2 ^ 31 }
  delimited : tag.toNat % 8 = 2

namespace Delimited

def readDelimited (input : Bytes) : Option ({ bytes : Bytes // bytes.length < 2 ^ 31 } × Bytes) :=
  match Wire.readVarint 5 input with
  | none => none
  | some (length, rest) =>
      if fits : length < 2 ^ 31 ∧ length ≤ rest.length then
        some (⟨rest.take length, by rw [List.length_take]; omega⟩, rest.drop length)
      else none

def writeDelimited (bytes : Bytes) : Bytes := Wire.varint 5 bytes.length ++ bytes

def runtime : Runtime Delimited where
  readTag input :=
    if input = [] then .finished
    else
      match Wire.readVarint 5 input with
      | none => .invalid
      | some (value, rest) => .tag (UInt32.ofNat value) rest
  readString old input :=
    match readDelimited input with
    | none => .error old
    | some (bytes, rest) => .ok (bytes.1, rest)
  skipField tag input :=
    if delimited : tag.toNat % 8 = 2 then
      match readDelimited input with
      | none => .error (some { tag, bytes := ⟨[], Nat.two_pow_pos 31⟩, delimited })
      | some (bytes, rest) => .ok ({ tag, bytes, delimited }, rest)
    else .error none
  writeTag tag := Wire.varint 5 tag.toNat
  writeDelimited := writeDelimited
  unknownTag := tag
  writeUnknown u := writeDelimited u.bytes.1
  stringSize bytes := (Wire.varint 5 bytes.length).length + bytes.length
  unknownSize u := (Wire.varint 5 u.tag.toNat).length +
    ((Wire.varint 5 u.bytes.1.length).length + u.bytes.1.length)

theorem readVarint_truncated {groups value kept : Nat}
    (cut : kept < (Wire.varint groups value).length) :
    Wire.readVarint groups ((Wire.varint groups value).take kept) = none := by
  induction groups generalizing value kept with
  | zero => exact absurd cut (Nat.not_lt_zero _)
  | succ groups ih =>
      rw [Wire.varint] at cut ⊢
      cases kept with
      | zero => rw [List.take_zero, Wire.readVarint]
      | succ kept =>
          split at cut
          · simp at cut
          · next long =>
              have byte : (UInt8.ofNat (value % 128 + 128)).toNat = value % 128 + 128 := by
                simp
                omega
              rw [List.length_cons] at cut
              rw [if_neg long, List.take_succ_cons, Wire.readVarint, byte, if_neg (by omega),
                ih (Nat.lt_of_succ_lt_succ cut), Option.map_none]

theorem readVarint_shorter {groups value : Nat} {input rest : Bytes}
    (read : Wire.readVarint groups input = some (value, rest)) : rest.length < input.length := by
  induction groups generalizing input value with
  | zero => cases read
  | succ groups ih =>
      cases input with
      | nil => cases read
      | cons byte input =>
          rw [Wire.readVarint] at read
          split at read
          · cases read
            exact Nat.lt_succ_self _
          · obtain ⟨high, found, same⟩ := Option.map_eq_some_iff.mp read
            cases same
            exact Nat.lt_succ_of_lt (ih found)

theorem length_varint_pos (groups value : Nat) : 0 < (Wire.varint (groups + 1) value).length := by
  rw [Wire.varint]
  split <;> exact Nat.succ_pos _

theorem readDelimited_writeDelimited {bytes : Bytes} (short : bytes.length < 2 ^ 31)
    (rest : Bytes) : readDelimited (writeDelimited bytes ++ rest) = some (⟨bytes, short⟩, rest) := by
  have bounded : bytes.length < 128 ^ (4 + 1) := Nat.lt_trans short (by decide)
  simp only [readDelimited, writeDelimited, List.append_assoc, Wire.readVarint_varint bounded]
  have fits : bytes.length < 2 ^ 31 ∧ bytes.length ≤ (bytes ++ rest).length := by
    rw [List.length_append]
    omega
  rw [dif_pos fits]
  simp

theorem readDelimited_truncated {bytes : Bytes} {kept : Nat} (short : bytes.length < 2 ^ 31)
    (cut : kept < (writeDelimited bytes).length) :
    readDelimited ((writeDelimited bytes).take kept) = none := by
  have bounded : bytes.length < 128 ^ (4 + 1) := Nat.lt_trans short (by decide)
  rw [writeDelimited, List.length_append] at cut
  rw [readDelimited, writeDelimited, List.take_append]
  by_cases whole : (Wire.varint 5 bytes.length).length ≤ kept
  · rw [List.take_of_length_le whole, Wire.readVarint_varint bounded]
    dsimp only
    rw [dif_neg]
    rw [List.length_take]
    omega
  · have none_ : kept - (Wire.varint 5 bytes.length).length = 0 := by omega
    rw [none_, List.take_zero, List.append_nil, readVarint_truncated (by omega)]

theorem readDelimited_shorter {input rest : Bytes} {bytes : { bytes : Bytes // bytes.length < 2 ^ 31 }}
    (read : readDelimited input = some (bytes, rest)) : rest.length ≤ input.length := by
  rw [readDelimited] at read
  cases found : Wire.readVarint 5 input with
  | none => simp [found] at read
  | some result =>
      have shorter := readVarint_shorter found
      rw [found] at read
      dsimp only at read
      split at read
      · cases read
        rw [List.length_drop]
        omega
      · cases read

theorem lawful : runtime.Lawful where
  readTag_nil := rfl
  readTag_writeTag := by
    intro tag rest _
    have bounded : tag.toNat < 128 ^ (4 + 1) := Nat.lt_trans tag.toNat_lt (by decide)
    have nonempty : Wire.varint 5 tag.toNat ++ rest ≠ [] := by
      have positive := length_varint_pos 4 tag.toNat
      intro empty
      rw [(List.append_eq_nil_iff.mp empty).1] at positive
      cases positive
    simp only [runtime]
    rw [if_neg nonempty, Wire.readVarint_varint bounded]
    simp
  readTag_truncated := by
    intro tag kept some_ cut
    have nonempty : (Wire.varint 5 tag.toNat).take kept ≠ [] := by
      intro empty
      have length := congrArg List.length empty
      rw [List.length_take] at length
      change min kept (runtime.writeTag tag).length = 0 at length
      omega
    simp only [runtime]
    rw [if_neg nonempty, readVarint_truncated cut]
  readTag_shorter := by
    intro input tag rest read
    simp only [runtime] at read
    split at read
    · cases read
    · cases found : Wire.readVarint 5 input with
      | none => simp [found] at read
      | some result =>
          rw [found] at read
          cases read
          exact readVarint_shorter found
  writeTag_length := by
    intro tag low
    have value : tag.toNat < 128 := Nat.lt_succ_of_le low
    change (Wire.varint 5 tag.toNat).length = 1
    rw [Wire.varint, if_pos value]
    rfl
  writeTag_nonempty := fun tag => length_varint_pos 4 tag.toNat
  readString_writeDelimited := by
    intro old bytes rest short
    simp only [runtime, readDelimited_writeDelimited short]
  readString_truncated := by
    intro old bytes kept short cut
    refine ⟨old, ?_⟩
    simp only [runtime]
    rw [readDelimited_truncated short cut]
  readString_shorter := by
    intro old input bytes rest read
    simp only [runtime] at read
    cases found : readDelimited input with
    | none => simp [found] at read
    | some result =>
        rw [found] at read
        cases read
        exact readDelimited_shorter found
  skipField_writeUnknown := by
    intro u rest
    simp only [runtime, u.delimited, dif_pos, readDelimited_writeDelimited u.bytes.2]
  skipField_truncated := by
    intro u kept cut
    simp only [runtime, u.delimited, dif_pos]
    rw [readDelimited_truncated u.bytes.2 cut]
    exact ⟨_, rfl⟩
  skipField_tag := by
    intro tag input u rest skipped
    simp only [runtime] at skipped
    split at skipped
    · cases found : readDelimited input with
      | none => simp [found] at skipped
      | some result =>
          rw [found] at skipped
          cases skipped
          rfl
    · cases skipped
  skipField_left := by
    intro tag input u skipped
    simp only [runtime] at skipped
    split at skipped
    · cases found : readDelimited input with
      | none =>
          rw [found] at skipped
          cases skipped
          rfl
      | some result => simp [found] at skipped
    · cases skipped
  skipField_shorter := by
    intro tag input u rest skipped
    simp only [runtime] at skipped
    split at skipped
    · cases found : readDelimited input with
      | none => simp [found] at skipped
      | some result =>
          rw [found] at skipped
          cases skipped
          exact readDelimited_shorter found
    · cases skipped
  writeDelimited_longer := by
    intro bytes
    have positive := length_varint_pos 4 bytes.length
    change bytes.length < (Wire.varint 5 bytes.length ++ bytes).length
    rw [List.length_append]
    exact Nat.lt_add_of_pos_left positive
  stringSize := fun bytes => List.length_append
  unknownSize := by
    intro u
    simp only [runtime, writeDelimited, List.length_append]

/-- `MessageLite` in a Release build, which writes an incomplete message too. -/
def lite : MessageLite Delimited where
  parseFromArray m bytes :=
    let parsed := mergePartialFromCodedStream runtime (bytes.length + 1) m.clear bytes
    (parsed.1, parsed.2 == .success true && parsed.1.isInitialized)
  appendToString m :=
    if byteSizeLong runtime m ≤ 2 ^ 31 - 1 then
      some (internalSerializeWithCachedSizesToArray runtime m [])
    else none

theorem lite_lawful : lite.Lawful runtime where
  parse_object := fun _ _ => rfl
  parse_result := fun m bytes => by
    simp only [lite, Bool.and_eq_true, beq_iff_eq]
  append_complete := fun _ _ => rfl

end Delimited

/-! ## Results -/

section Results

variable {Unknown : Type} {n : Nat} {runtime : Runtime Unknown} {lite : MessageLite Unknown}

/-- `ParseFromArray` accepts the same bytes and makes of them the same message where the objects are the
same once they are cleared. -/
theorem parseFromArray_congr (glue : lite.Lawful runtime) {m other : Message Unknown n}
    (cleared : m.clear = other.clear) (bytes : Bytes) :
    lite.parseFromArray m bytes = lite.parseFromArray other bytes := by
  have object : (lite.parseFromArray m bytes).1 = (lite.parseFromArray other bytes).1 := by
    rw [glue.parse_object, glue.parse_object, cleared]
  refine Prod.ext object (Bool.eq_iff_iff.mpr ?_)
  rw [glue.parse_result, glue.parse_result, object, cleared]

/-- `ParseFromArray` on an object that has been used in any way, failed parses included, does what it
does on a new one, and a copy of a used object is the object. -/
theorem parse_of_used_object (lawful : runtime.Lawful) (glue : lite.Lawful runtime) (small : n ≤ 15)
    (operations others : List (Operation runtime n)) (bytes : Bytes) :
    let used := operations.foldl (Message.operate lite) Message.new
    let target := others.foldl (Message.operate lite) Message.new
    lite.parseFromArray used bytes = lite.parseFromArray Message.new bytes ∧
      target.copyFrom used = used := by
  have used := wellFormed_of_operations lawful glue small operations
  have target := wellFormed_of_operations lawful glue small others
  have fresh : (Message.new : Message Unknown n).WellFormed runtime := .new
  refine ⟨?_, ?_⟩
  · exact parseFromArray_congr glue (used.clear_eq_new.trans fresh.clear_eq_new.symm) bytes
  · rw [Message.copyFrom, target.clear_eq_new, Message.new_mergeFrom small used]

theorem parse_of_used_object_delimited :
    Delimited.lite.parseFromArray
        (([.set 0 [97], .parseFromArray [10, 1, 98, 26, 5, 99]] :
          List (Operation Delimited.runtime 3)).foldl (Message.operate Delimited.lite) Message.new)
        [18, 1, 100] =
      Delimited.lite.parseFromArray (Message.new : Message Delimited 3) [18, 1, 100] :=
  (parse_of_used_object Delimited.lawful Delimited.lite_lawful (by decide)
    [.set 0 [97], .parseFromArray [10, 1, 98, 26, 5, 99]] [] [18, 1, 100]).1

/-- Both serializers write the same bytes, whatever the object, and as many as `ByteSizeLong` counts,
also where it adds up the required fields without a test and where a class has one field. -/
theorem serializers_agree (lawful : runtime.Lawful) (small : n ≤ 15) (m : Message Unknown n)
    (target : Bytes) (single : Message Unknown 1) :
    internalSerializeWithCachedSizesToArray runtime m target =
        target ++ serializeWithCachedSizes runtime m ∧
      (serializeWithCachedSizes runtime m).length = byteSizeLong runtime m ∧
      (serializeWithCachedSizes runtime single).length = byteSizeLongSingle runtime single := by
  refine ⟨internalSerializeWithCachedSizesToArray_eq m target,
    length_serializeWithCachedSizes lawful small m, ?_⟩
  rw [byteSizeLongSingle_eq, length_serializeWithCachedSizes lawful (by decide)]

theorem serializers_agree_delimited :
    (serializeWithCachedSizes Delimited.runtime
        ((Message.new : Message Delimited 3).set 1 [97, 98])).length =
      byteSizeLong Delimited.runtime ((Message.new : Message Delimited 3).set 1 [97, 98]) :=
  (serializers_agree Delimited.lawful (by decide)
    ((Message.new : Message Delimited 3).set 1 [97, 98]) [] Message.new).2.1

/-- Several serializations in a row, incomplete ones too, are parsed as the merge of their messages,
which is accepted exactly when each required field is present in one of them. -/
theorem parse_of_concatenation (lawful : runtime.Lawful) (glue : lite.Lawful runtime)
    (small : n ≤ 15) (operations : List (Operation runtime n)) (messages : List (Message Unknown n))
    (wf : ∀ m ∈ messages, m.WellFormed runtime)
    (short : ∀ m ∈ messages, ∀ i, (m.strings i).length < 2 ^ 31) :
    let used := operations.foldl (Message.operate lite) Message.new
    let parsed := lite.parseFromArray used
      (messages.flatMap (serializeWithCachedSizes runtime))
    parsed.1 = messages.foldl Message.mergeFrom Message.new ∧
      (parsed.2 = true ↔ ∀ i, ∃ m ∈ messages, m.has i = true) := by
  intro used parsed
  have wf_used : used.WellFormed runtime := wellFormed_of_operations lawful glue small operations
  have merged := mergePartialFromCodedStream_concatenated lawful small wf short Message.new
    (Nat.lt_succ_self _)
  have object : parsed.1 = messages.foldl Message.mergeFrom Message.new := by
    rw [glue.parse_object, wf_used.clear_eq_new, merged]
  refine ⟨object, ?_⟩
  rw [glue.parse_result, wf_used.clear_eq_new, merged, object, Message.isInitialized_iff small]
  simp only [true_and]
  apply forall_congr'
  intro i
  rw [has_foldl_mergeFrom small, Message.has_new small]
  simp

theorem parse_of_concatenation_delimited :
    let first := (Message.new : Message Delimited 3).set 0 [97]
    let second := ((Message.new : Message Delimited 3).set 1 [98]).set 0 [99]
    (Delimited.lite.parseFromArray Message.new
        ([first, second].flatMap (serializeWithCachedSizes Delimited.runtime))).1 =
      (Message.new.mergeFrom first).mergeFrom second := by
  intro first second
  have fresh : (Message.new : Message Delimited 3).WellFormed Delimited.runtime := .new
  refine (parse_of_concatenation Delimited.lawful Delimited.lite_lawful (by decide) []
    [first, second] ?_ ?_).1
  · rw [List.forall_mem_cons, List.forall_mem_singleton]
    exact ⟨fresh.set (by decide) _ _, (fresh.set (by decide) _ _).set (by decide) _ _⟩
  · rw [List.forall_mem_cons, List.forall_mem_singleton]
    exact ⟨by decide, by decide⟩

end Results

end Generated

/-! ## The classes of `rpc.proto` -/

section RpcClasses

open Generated

variable {Unknown : Type}

/-- The object of `rpc::RpcRequest` that `CallMethod` fills. -/
def RpcRequest.object (request : RpcRequest) : Message Unknown 3 :=
  ((Message.new.set 0 request.service).set 1 request.method).set 2 request.argumentBytes

/-- The fields that the accessors of an object give. -/
def RpcRequest.ofObject (m : Message Unknown 3) : RpcRequest where
  service := m.strings 0
  method := m.strings 1
  argumentBytes := m.strings 2

/-- The object of `rpc::RpcResponse` that the service loop fills. -/
def RpcResponse.object (response : RpcResponse) : Message Unknown 1 :=
  Message.new.set ⟨0, Nat.one_pos⟩ response.responseMessage

def RpcResponse.ofObject (m : Message Unknown 1) : RpcResponse where
  responseMessage := m.strings ⟨0, Nat.one_pos⟩

/-- A generated class as the codec uses it. -/
def Generated.protobuf (lite : MessageLite Unknown) {n : Nat} {Value : Type}
    (object : Value → Message Unknown n) (ofObject : Message Unknown n → Value) :
    Protobuf Value where
  serialize value := lite.appendToString (object value)
  parse bytes :=
    let parsed := lite.parseFromArray Message.new bytes
    if parsed.2 then some (ofObject parsed.1) else none

variable {runtime : Runtime Unknown} {lite : MessageLite Unknown} {n : Nat}

/-- What `AppendToString` writes of a complete object, and that it is within the limit for strings. -/
theorem Generated.appended_eq (lawful : runtime.Lawful) (glue : lite.Lawful runtime) (small : n ≤ 15)
    {m : Message Unknown n} (complete : m.isInitialized = true) {bytes : Bytes}
    (written : lite.appendToString m = some bytes) :
    bytes = serializeWithCachedSizes runtime m ∧ ∀ i, (m.strings i).length < 2 ^ 31 := by
  rw [glue.append_complete m complete] at written
  split at written
  · next size =>
      rw [internalSerializeWithCachedSizesToArray_eq, List.nil_append] at written
      refine ⟨(Option.some.inj written).symm, fun i => ?_⟩
      have present := (Message.isInitialized_iff small m).mp complete i
      rw [byteSizeLong_eq small] at size
      let sizeOf (i : Fin n) : Nat := if m.has i then 1 + runtime.stringSize (m.strings i) else 0
      have summand : sizeOf i ≤ ((List.finRange n).map sizeOf).sum :=
        List.le_sum_of_mem (List.mem_map_of_mem (List.mem_finRange i))
      have total : ((List.finRange n).map sizeOf).sum ≤ 2 ^ 31 - 1 := by
        change _ + ((List.finRange n).map sizeOf).sum ≤ 2 ^ 31 - 1 at size
        omega
      have longer := lawful.writeDelimited_longer (m.strings i)
      rw [lawful.stringSize] at longer
      have value : sizeOf i = 1 + runtime.stringSize (m.strings i) := if_pos present
      omega
  · cases written

theorem Generated.parseFromArray_serialized (lawful : runtime.Lawful) (glue : lite.Lawful runtime)
    (small : n ≤ 15) {m : Message Unknown n} (wf : m.WellFormed runtime)
    (short : ∀ i, (m.strings i).length < 2 ^ 31) :
    (lite.parseFromArray Message.new (serializeWithCachedSizes runtime m)).1 = m ∧
      ((lite.parseFromArray (Message.new : Message Unknown n)
        (serializeWithCachedSizes runtime m)).2 = true ↔ m.isInitialized = true) := by
  have fresh : (Message.new : Message Unknown n).WellFormed runtime := .new
  have merged := mergePartialFromCodedStream_concatenated lawful small
    (List.forall_mem_singleton.mpr wf) (List.forall_mem_singleton.mpr short) Message.new
    (Nat.lt_succ_self _)
  rw [List.flatMap_singleton, List.foldl_cons, List.foldl_nil,
    Message.new_mergeFrom small wf] at merged
  have object : (lite.parseFromArray Message.new (serializeWithCachedSizes runtime m)).1 = m := by
    rw [glue.parse_object, fresh.clear_eq_new, merged]
  refine ⟨object, ?_⟩
  rw [glue.parse_result, fresh.clear_eq_new, merged, object]
  simp only [true_and]

theorem Generated.count_of_parseFromArray_truncated (lawful : runtime.Lawful)
    (glue : lite.Lawful runtime) (small : n ≤ 15) {m : Message Unknown n}
    (wf : m.WellFormed runtime) (short : ∀ i, (m.strings i).length < 2 ^ 31) {kept : Nat}
    (cut : kept < (serializeWithCachedSizes runtime m).length)
    (accepted : (lite.parseFromArray (Message.new : Message Unknown n)
      ((serializeWithCachedSizes runtime m).take kept)).2 = true) : n < m.count := by
  have fresh : (Message.new : Message Unknown n).WellFormed runtime := .new
  rw [glue.parse_result, glue.parse_object, fresh.clear_eq_new] at accepted
  generalize parsed : mergePartialFromCodedStream runtime _ Message.new _ = result at accepted
  obtain ⟨merged, outcome⟩ := result
  obtain ⟨rfl, complete⟩ := accepted
  have fewer := count_of_truncated lawful small wf short cut (Nat.lt_succ_self _) parsed
  have all := (Message.isInitialized_iff small merged).mp complete
  have full : (List.finRange n).countP merged.has = n := by
    rw [List.countP_eq_length.mpr fun i _ => all i, List.length_finRange]
  rw [Message.count, full] at fewer
  omega

/-- A class whose objects are well formed, complete and without unknown fields is what the codec takes
it for. -/
theorem Generated.protobuf_lawful (lawful : runtime.Lawful) (glue : lite.Lawful runtime)
    (small : n ≤ 15) {Value : Type} {object : Value → Message Unknown n}
    {ofObject : Message Unknown n → Value} (wf : ∀ value, (object value).WellFormed runtime)
    (complete : ∀ value, (object value).isInitialized = true)
    (plain : ∀ value, (object value).unknown = [])
    (inverse : ∀ value, ofObject (object value) = value) :
    (protobuf lite object ofObject).Lawful where
  parse_serialize := by
    intro value bytes written
    obtain ⟨rfl, short⟩ := appended_eq lawful glue small (complete value) written
    obtain ⟨same, accepted⟩ := parseFromArray_serialized lawful glue small (wf value) short
    change (if (lite.parseFromArray Message.new _).2 then some _ else none) = some value
    rw [if_pos (accepted.mpr (complete value)), same, inverse]
  not_parse_truncated := by
    intro value bytes kept written cut same
    obtain ⟨rfl, short⟩ := appended_eq lawful glue small (complete value) written
    change (if (lite.parseFromArray Message.new _).2 then some _ else none) = some value at same
    split at same
    · next accepted =>
        have fewer :=
          count_of_parseFromArray_truncated lawful glue small (wf value) short cut accepted
        -- An accepted object has all the fields, and this one has no more than those.
        have most := List.countP_le_length (p := (object value).has)
          (l := List.finRange n)
        rw [List.length_finRange] at most
        rw [Message.count, plain, List.length_nil] at fewer
        omega
    · cases same

/-- `CallMethod` and the service loop set every required field. -/
theorem RpcRequest.isInitialized_object (request : RpcRequest) :
    (request.object : Message Unknown 3).isInitialized = true := by
  rw [Message.isInitialized_iff (by decide)]
  intro i
  simp only [RpcRequest.object, Message.has_set (show 3 ≤ 15 by decide)]
  fin_cases i <;> simp

theorem RpcResponse.isInitialized_object (response : RpcResponse) :
    (response.object : Message Unknown 1).isInitialized = true := by
  rw [Message.isInitialized_iff (by decide)]
  intro i
  simp only [RpcResponse.object, Message.has_set (show 1 ≤ 15 by decide)]
  fin_cases i
  simp

/-- The classes of `rpc.proto` are lawful codecs of the requests and responses: what was serialized
is parsed back, and no part of it that was cut off is. -/
theorem rpc_classes_lawful (lawful : runtime.Lawful) (glue : lite.Lawful runtime) :
    (protobuf lite RpcRequest.object RpcRequest.ofObject).Lawful ∧
      (protobuf lite RpcResponse.object RpcResponse.ofObject).Lawful := by
  have wf {n : Nat} : (Message.new : Message Unknown n).WellFormed runtime := .new
  constructor
  · apply protobuf_lawful lawful glue (by decide)
    · intro request
      exact ((wf.set (by decide) 0 _).set (by decide) 1 _).set (by decide) 2 _
    · exact RpcRequest.isInitialized_object
    · intro request
      rfl
    · intro request
      rfl
  · apply protobuf_lawful lawful glue (by decide)
    · intro response
      exact wf.set (by decide) ⟨0, Nat.one_pos⟩ _
    · exact RpcResponse.isInitialized_object
    · intro response
      rfl
    · intro response
      rfl

theorem rpc_classes_lawful_delimited :
    (protobuf Delimited.lite RpcRequest.object RpcRequest.ofObject).Lawful ∧
      (protobuf Delimited.lite RpcRequest.object RpcRequest.ofObject).serialize
        ⟨[97], [98], []⟩ = some [10, 1, 97, 18, 1, 98, 26, 0] :=
  ⟨(rpc_classes_lawful Delimited.lawful Delimited.lite_lawful).1, by decide⟩

end RpcClasses

end Mcast
