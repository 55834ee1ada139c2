import Mathlib.Algebra.Group.Nat.Defs
import Mcast.Rpc.Codec

/-!
# The messages of `rpc.proto`

Both messages consist of required length-delimited fields, which the generated classes serialize in
the order of their numbers.  The parser given here accepts exactly these canonical serializations.
-/

namespace Mcast

/-- `rpc::RpcRequest`. -/
structure RpcRequest where
  service : Bytes
  method : Bytes
  argumentBytes : Bytes
  deriving DecidableEq, Repr

/-- `rpc::RpcResponse`. -/
structure RpcResponse where
  responseMessage : Bytes
  deriving DecidableEq, Repr

namespace Wire

/-- A base-128 number of at most `groups` bytes. -/
def varint : Nat → Nat → Bytes
  | 0, _ => []
  | groups + 1, value =>
      if value < 128 then [UInt8.ofNat value]
      else UInt8.ofNat (value % 128 + 128) :: varint groups (value / 128)

/-- Read a base-128 number of at most `groups` bytes. -/
def readVarint : Nat → Bytes → Option (Nat × Bytes)
  | 0, _ => none
  | _ + 1, [] => none
  | groups + 1, byte :: bytes =>
      if byte.toNat < 128 then some (byte.toNat, bytes)
      else (readVarint groups bytes).map fun high => (byte.toNat - 128 + 128 * high.1, high.2)

theorem readVarint_single {groups value : Nat} (single : value < 128) (rest : Bytes) :
    readVarint (groups + 1) (UInt8.ofNat value :: rest) = some (value, rest) := by
  have byte : (UInt8.ofNat value).toNat = value := by
    simp
    omega
  rw [readVarint, byte, if_pos single]

theorem readVarint_varint {groups value : Nat} (bounded : value < 128 ^ (groups + 1))
    (rest : Bytes) : readVarint (groups + 1) (varint (groups + 1) value ++ rest) =
      some (value, rest) := by
  induction groups generalizing value with
  | zero =>
      have single : value < 128 := by simpa using bounded
      rw [varint, if_pos single]
      exact readVarint_single single rest
  | succ groups ih =>
      rw [varint]
      split_ifs with single
      · exact readVarint_single single rest
      · have byte : (UInt8.ofNat (value % 128 + 128)).toNat = value % 128 + 128 := by
          simp
          omega
        have high : value / 128 < 128 ^ (groups + 1) := by
          rw [Nat.pow_succ] at bounded
          omega
        rw [List.cons_append, readVarint, byte, if_neg (by omega), ih high]
        simp only [Option.map_some, Option.some.injEq, Prod.mk.injEq, and_true]
        omega

/-- The tag of a length-delimited field. -/
def tag (number : UInt8) : UInt8 := 8 * number + 2

/-- A length-delimited field. -/
def field (number : UInt8) (bytes : Bytes) : Bytes :=
  tag number :: (varint 5 bytes.length ++ bytes)

/-- Read a length-delimited field and the bytes after it. -/
def readField (number : UInt8) : Bytes → Option (Bytes × Bytes)
  | [] => none
  | first :: bytes =>
      if first = tag number then
        (readVarint 5 bytes).bind fun length =>
          if length.1 ≤ length.2.length then
            some (length.2.take length.1, length.2.drop length.1)
          else none
      else none

theorem readField_field (number : UInt8) {bytes : Bytes} (bounded : bytes.length < 2 ^ 31)
    (rest : Bytes) : readField number (field number bytes ++ rest) = some (bytes, rest) := by
  have length : bytes.length < 128 ^ (4 + 1) := by omega
  rw [field, List.cons_append, List.append_assoc, readField, if_pos rfl, readVarint_varint length]
  simp

/-- The encoder that fails on messages above the size limit of protobuf, and the decoder that
accepts what this encoder produces. -/
def canonical {Message : Type} (encode : Message → Bytes) (decode : Bytes → Option Message) :
    Protobuf Message where
  serialize message := if (encode message).length < 2 ^ 31 then some (encode message) else none
  parse bytes := (decode bytes).filter fun message => encode message == bytes

/-- A canonical encoding is lawful when its decoder inverts its encoder. -/
theorem canonical_lawful {Message : Type} {encode : Message → Bytes}
    {decode : Bytes → Option Message}
    (inverse : ∀ message, (encode message).length < 2 ^ 31 → decode (encode message) = some message) :
    (canonical encode decode).Lawful where
  parse_serialize := by
    intro message bytes serialized
    simp only [canonical, Option.ite_none_right_eq_some, Option.some.injEq] at serialized
    obtain ⟨bounded, rfl⟩ := serialized
    simp [canonical, inverse message bounded]
  not_parse_truncated := by
    intro message bytes kept serialized truncated parsed
    simp only [canonical, Option.ite_none_right_eq_some, Option.some.injEq] at serialized
    obtain ⟨-, rfl⟩ := serialized
    simp only [canonical, Option.filter_eq_some_iff, beq_iff_eq] at parsed
    have length := congrArg List.length parsed.2
    rw [List.length_take] at length
    omega

def encodeRequest (request : RpcRequest) : Bytes :=
  field 1 request.service ++ (field 2 request.method ++ field 3 request.argumentBytes)

def decodeRequest (bytes : Bytes) : Option RpcRequest :=
  (readField 1 bytes).bind fun service =>
    (readField 2 service.2).bind fun method =>
      (readField 3 method.2).map fun argument =>
        { service := service.1, method := method.1, argumentBytes := argument.1 }

def encodeResponse (response : RpcResponse) : Bytes := field 1 response.responseMessage

def decodeResponse (bytes : Bytes) : Option RpcResponse :=
  (readField 1 bytes).map fun message => { responseMessage := message.1 }

def rpcRequest : Protobuf RpcRequest := canonical encodeRequest decodeRequest

def rpcResponse : Protobuf RpcResponse := canonical encodeResponse decodeResponse

theorem length_le_field (number : UInt8) (bytes : Bytes) :
    bytes.length ≤ (field number bytes).length := by
  simp only [field, List.length_cons, List.length_append]
  omega

theorem rpcRequest_lawful : rpcRequest.Lawful := by
  apply canonical_lawful
  intro request bounded
  have service := length_le_field 1 request.service
  have method := length_le_field 2 request.method
  have argument := length_le_field 3 request.argumentBytes
  simp only [encodeRequest, List.length_append] at bounded
  have last := readField_field 3 (show request.argumentBytes.length < 2 ^ 31 by omega) []
  rw [List.append_nil] at last
  rw [decodeRequest, encodeRequest, readField_field 1 (by omega), Option.bind_some,
    readField_field 2 (by omega), Option.bind_some, last]
  rfl

theorem rpcResponse_lawful : rpcResponse.Lawful := by
  apply canonical_lawful
  intro response bounded
  have message := length_le_field 1 response.responseMessage
  have whole := readField_field 1
    (show response.responseMessage.length < 2 ^ 31 by
      simp only [encodeResponse] at bounded
      omega) []
  rw [List.append_nil] at whole
  simp [decodeResponse, encodeResponse, whole]

end Wire

end Mcast
