import Mcast.Net.Transfer
import Mcast.Rpc.Codec

/-!
# What the codec reads

A frame on the stream is the byte of its type, a non-zero length in two bytes, the low one first,
and that many bytes of payload.  The read functions accept a stream exactly when it starts with a
frame whose payload parses, whatever the pieces in which it arrives and whatever an earlier frame
has left in the buffer.
-/

namespace Mcast.DefaultRpcCodec

open TcpConnection (delivered ending)

/-- The stream starts with a frame of this type. -/
inductive Framed (type : RpcCodec.MessageType) : Bytes → Bytes → Bytes → Prop
  | intro (low high : UInt8) (payload rest : Bytes)
      (length : payload.length = low.toNat + 256 * high.toNat) (positive : payload.length ≠ 0) :
      Framed type (type.code :: low :: high :: (payload ++ rest)) payload rest

/-- The stream starts with three bytes that are not the header of a frame of this type. -/
inductive Misheaded (type : RpcCodec.MessageType) : Bytes → Bytes → Prop
  | type (first low high : UInt8) (rest : Bytes) (other : first ≠ type.code) :
      Misheaded type (first :: low :: high :: rest) rest
  | length (rest : Bytes) : Misheaded type (type.code :: 0 :: 0 :: rest) rest

/-- The read function accepts the frames of a type whose payloads parse, and only these; it consumes
the frame that it accepts, or the header that it rejects. -/
structure Decodes {Message : Type} (proto : Protobuf Message) (type : RpcCodec.MessageType)
    (read : Buffer → List (Kernel Bytes) → Reading Message) : Prop where
  accepts_iff : ∀ buffer queue, (read buffer queue).status = some .ok ↔
    ∃ payload rest message, Framed type (delivered queue) payload rest ∧
      proto.parse payload = some message
  consumes : ∀ buffer queue payload rest, (read buffer queue).status = some .ok →
    Framed type (delivered queue) payload rest →
    (read buffer queue).message = proto.parse payload ∧ delivered (read buffer queue).queue = rest
  rejects : ∀ buffer queue rest, Misheaded type (delivered queue) rest →
    (∃ text, (read buffer queue).status = some (.error .invailArgument text)) ∧
    delivered (read buffer queue).queue = rest

/-! ## The header -/

theorem littleEndian_head (first low high : UInt8) :
    littleEndian [first, low, high] = first.toNat + 256 * (low.toNat + 256 * high.toNat) := by
  simp [littleEndian]

theorem packLen_head (first low high : UInt8) :
    packLen [first, low, high] = low.toNat + 256 * high.toNat := by
  have first_lt := first.toNat_lt
  have low_lt := low.toNat_lt
  have high_lt := high.toNat_lt
  rw [packLen, littleEndian_head, Nat.shiftRight_eq_div_pow,
    show (0xFFFF : Nat) = 2 ^ 16 - 1 from rfl, Nat.and_two_pow_sub_one_eq_mod]
  omega

theorem checkHead_head (type : RpcCodec.MessageType) (first low high : UInt8) :
    checkHead type [first, low, high] =
      if first ≠ type.code then .error .invailArgument (ascii "Message type error")
      else if low.toNat + 256 * high.toNat = 0 then
        .error .invailArgument (ascii " Message length error")
      else .ok := by
  have first_lt := first.toNat_lt
  have byte : littleEndian [first, low, high] &&& 0xFF = first.toNat := by
    rw [littleEndian_head, show (0xFF : Nat) = 2 ^ 8 - 1 from rfl, Nat.and_two_pow_sub_one_eq_mod]
    omega
  rw [checkHead, packLen_head, byte]
  simp only [ne_eq, UInt8.toNat_inj]

/-- The header of a stream of at least three bytes. -/
theorem read_head {queue : List (Kernel Bytes)} {first low high : UInt8} {body : Bytes}
    (stream : delivered queue = first :: low :: high :: body) :
    ∃ middle, TcpConnection.read 3 queue =
        { status := some .ok, bytes := [first, low, high], queue := middle } ∧
      delivered middle = body ∧ ending middle = ending queue := by
  obtain ⟨middle, result, remaining, same⟩ :=
    TcpConnection.read_delivered 3 queue (by rw [stream]; simp)
  rw [stream] at result remaining
  exact ⟨middle, result, remaining, same⟩

/-! ## The exits of the read functions -/

theorem readMessage_headless {Message : Type} (proto : Protobuf Message)
    (type : RpcCodec.MessageType) (buffer : Buffer) {queue : List (Kernel Bytes)}
    (short : (delivered queue).length < 3) :
    (readMessage proto type buffer queue).status = ending queue := by
  have head := (TcpConnection.read_short 3 queue short).1
  have failed := TcpConnection.ending_ne_ok queue
  rw [readMessage, head, if_neg failed]

theorem readMessage_rejected {Message : Type} (proto : Protobuf Message)
    {type : RpcCodec.MessageType} (buffer : Buffer) {queue : List (Kernel Bytes)}
    {first low high : UInt8} {body text : Bytes} {state : Status.State}
    (stream : delivered queue = first :: low :: high :: body)
    (rejected : checkHead type [first, low, high] = .error state text) :
    (readMessage proto type buffer queue).status = some (.error state text) ∧
      delivered (readMessage proto type buffer queue).queue = body := by
  obtain ⟨middle, head, remaining, -⟩ := read_head stream
  simp only [readMessage, head, if_true, rejected]
  exact ⟨trivial, remaining⟩

theorem readMessage_truncated {Message : Type} (proto : Protobuf Message)
    {type : RpcCodec.MessageType} (buffer : Buffer) {queue : List (Kernel Bytes)}
    {first low high : UInt8} {body : Bytes}
    (stream : delivered queue = first :: low :: high :: body)
    (accepted : checkHead type [first, low, high] = .ok)
    (short : body.length < low.toNat + 256 * high.toNat) :
    (readMessage proto type buffer queue).status = ending queue := by
  obtain ⟨middle, head, remaining, same⟩ := read_head stream
  have size : (buffer.resize (packLen [first, low, high])).size =
      low.toNat + 256 * high.toNat := by
    rw [Buffer.resize_size, packLen_head]
  have payload := (TcpConnection.read_short (buffer.resize (packLen [first, low, high])).size middle
    (by rw [remaining, size]; exact short)).1
  have failed := TcpConnection.ending_ne_ok queue
  rw [same] at payload
  simp only [readMessage, head, if_true, accepted, payload, if_neg failed]

theorem readMessage_complete {Message : Type} (proto : Protobuf Message)
    {type : RpcCodec.MessageType} (buffer : Buffer) {queue : List (Kernel Bytes)}
    {first low high : UInt8} {payload rest : Bytes}
    (stream : delivered queue = first :: low :: high :: (payload ++ rest))
    (accepted : checkHead type [first, low, high] = .ok)
    (length : payload.length = low.toNat + 256 * high.toNat) :
    ((readMessage proto type buffer queue).status = some .ok ↔
      ∃ message, proto.parse payload = some message) ∧
    (readMessage proto type buffer queue).message = proto.parse payload ∧
    delivered (readMessage proto type buffer queue).queue = rest := by
  obtain ⟨middle, head, remaining, -⟩ := read_head stream
  have size : (buffer.resize (packLen [first, low, high])).size = payload.length := by
    rw [Buffer.resize_size, packLen_head, length]
  obtain ⟨after, body, left, -⟩ :=
    TcpConnection.read_delivered (buffer.resize (packLen [first, low, high])).size middle
      (by rw [remaining, size, List.length_append]; omega)
  rw [remaining, size, List.take_left] at body
  rw [remaining, size, List.drop_left] at left
  have content : ((buffer.resize (packLen [first, low, high])).store 0 payload).content =
      payload := by
    rw [Buffer.store_content (Nat.le_of_eq size.symm),
      List.drop_eq_nil_of_le (by rw [Buffer.content_length]; exact Nat.le_of_eq size),
      List.append_nil]
  simp only [readMessage, head, if_true, accepted, size, body, content]
  cases parsed : proto.parse payload with
  | none => simp [left]
  | some message => simp [left]

/-- The header of a frame is accepted and announces the length of its payload. -/
theorem Framed.exists_header {type : RpcCodec.MessageType} {stream payload rest : Bytes}
    (framed : Framed type stream payload rest) :
    ∃ low high, stream = type.code :: low :: high :: (payload ++ rest) ∧
      checkHead type [type.code, low, high] = .ok ∧
      payload.length = low.toNat + 256 * high.toNat := by
  obtain ⟨low, high, payload, rest, length, positive⟩ := framed
  refine ⟨low, high, rfl, ?_, length⟩
  rw [checkHead_head, if_neg (not_not_intro rfl), if_neg (by rw [← length]; exact positive)]

theorem exists_head {stream : Bytes} (enough : 3 ≤ stream.length) :
    ∃ first low high body, stream = first :: low :: high :: body := by
  match stream, enough with
  | first :: low :: high :: body, _ => exact ⟨first, low, high, body, rfl⟩

theorem decodes {Message : Type} (proto : Protobuf Message) (type : RpcCodec.MessageType) :
    Decodes proto type (readMessage proto type) where
  accepts_iff := by
    intro buffer queue
    constructor
    · intro success
      have failed := TcpConnection.ending_ne_ok queue
      rcases Nat.lt_or_ge (delivered queue).length 3 with short | enough
      · rw [readMessage_headless proto type buffer short] at success
        exact absurd success failed
      obtain ⟨first, low, high, body, stream⟩ := exists_head enough
      cases checked : checkHead type [first, low, high] with
      | error state text =>
          rw [(readMessage_rejected proto buffer stream checked).1] at success
          cases success
      | ok =>
          rcases Nat.lt_or_ge body.length (low.toNat + 256 * high.toNat) with short | whole
          · rw [readMessage_truncated proto buffer stream checked short] at success
            exact absurd success failed
          have length : (body.take (low.toNat + 256 * high.toNat)).length =
              low.toNat + 256 * high.toNat := by
            rw [List.length_take, Nat.min_eq_left whole]
          rw [← List.take_append_drop (low.toNat + 256 * high.toNat) body] at stream
          obtain ⟨message, parsed⟩ :=
            (readMessage_complete proto buffer stream checked length).1.mp success
          rw [checkHead_head] at checked
          split_ifs at checked with same positive
          obtain rfl : first = type.code := not_not.mp same
          rw [stream]
          exact ⟨_, _, message, .intro low high _ _ length (by rw [length]; exact positive), parsed⟩
    · rintro ⟨payload, rest, message, framed, parsed⟩
      obtain ⟨low, high, stream, accepted, length⟩ := framed.exists_header
      exact (readMessage_complete proto buffer stream accepted length).1.mpr ⟨message, parsed⟩
  consumes := by
    intro buffer queue payload rest _ framed
    obtain ⟨low, high, stream, accepted, length⟩ := framed.exists_header
    exact (readMessage_complete proto buffer stream accepted length).2
  rejects := by
    intro buffer queue rest misheaded
    generalize stream : delivered queue = bytes at misheaded
    cases misheaded with
    | type first low high _ other =>
        have rejected := checkHead_head type first low high
        rw [if_pos other] at rejected
        obtain ⟨status, remaining⟩ := readMessage_rejected proto buffer stream rejected
        exact ⟨⟨_, status⟩, remaining⟩
    | length =>
        have rejected := checkHead_head type type.code 0 0
        rw [if_neg (not_not_intro rfl), if_pos (by simp)] at rejected
        obtain ⟨status, remaining⟩ := readMessage_rejected proto buffer stream rejected
        exact ⟨⟨_, status⟩, remaining⟩

/-- Both read functions accept exactly the frames of their own type. -/
theorem read_functions_decode {Request Response : Type} (requests : Protobuf Request)
    (responses : Protobuf Response) :
    Decodes requests .request (readRequestMessage requests) ∧
      Decodes responses .response (readResponeMessage responses) :=
  ⟨decodes requests .request, decodes responses .response⟩

end Mcast.DefaultRpcCodec
