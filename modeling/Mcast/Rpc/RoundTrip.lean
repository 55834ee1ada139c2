import Mcast.Rpc.Wire

/-!
# Frames that survive the stream

The writer stores bits 16 to 23 of the length in the second length byte of a header, while the
reader takes bits 8 to 15 from it.  A live read of a frame therefore announces the length of the
payload modulo 256, and a sequence of messages is read back exactly when every serialization is
shorter than 256 bytes, whatever the cut of the stream into chunks.
-/

namespace Mcast.DefaultRpcCodec

theorem header_length (type : RpcCodec.MessageType) (length : Nat) :
    (header type length).length = 3 := rfl

theorem littleEndian_header (type : RpcCodec.MessageType) {length : Nat} (bounded : length < 65536) :
    littleEndian (header type length) = type.code.toNat + 256 * (length % 256) := by
  have low : (UInt8.ofNat (length &&& 0xFF)).toNat = length % 256 := by
    rw [show (0xFF : Nat) = 2 ^ 8 - 1 from rfl, Nat.and_two_pow_sub_one_eq_mod]
    simp
  have high : (length >>> 16) &&& 0xFF = 0 := by
    rw [Nat.shiftRight_eq_div_pow, Nat.div_eq_of_lt bounded]
    rfl
  rw [header, littleEndian, littleEndian, littleEndian, littleEndian, low, high]
  simp

/-- The reader finds the length modulo 256 in the header that the writer stored. -/
theorem packLen_header (type : RpcCodec.MessageType) {length : Nat} (bounded : length < 65536) :
    packLen (header type length) = length % 256 := by
  have code : type.code.toNat < 256 := type.code.toNat_lt
  rw [packLen, littleEndian_header type bounded, Nat.shiftRight_eq_div_pow,
    show (0xFFFF : Nat) = 2 ^ 16 - 1 from rfl, Nat.and_two_pow_sub_one_eq_mod]
  omega

theorem checkHead_header (type : RpcCodec.MessageType) {length : Nat} (bounded : length < 65536) :
    checkHead type (header type length) =
      if length % 256 = 0 then .error .invailArgument (ascii " Message length error") else .ok := by
  have code : type.code.toNat < 256 := type.code.toNat_lt
  have same : littleEndian (header type length) &&& 0xFF = type.code.toNat := by
    rw [littleEndian_header type bounded, show (0xFF : Nat) = 2 ^ 8 - 1 from rfl,
      Nat.and_two_pow_sub_one_eq_mod]
    omega
  rw [checkHead, packLen_header type bounded, if_neg (not_not_intro same)]

/-- A live read of a stream that starts with an accepted header parses the announced bytes. -/
theorem readMessage_live {Message : Type} (proto : Protobuf Message) {type : RpcCodec.MessageType}
    (buffer : Buffer) {queue : List (Kernel Bytes)} {head body : Bytes} (three : head.length = 3)
    (live : ∀ report ∈ queue, TcpConnection.Live report)
    (stream : TcpConnection.arrived queue = head ++ body) (accepted : checkHead type head = .ok)
    (enough : packLen head ≤ body.length) :
    ∃ filled rest, (∀ report ∈ rest, TcpConnection.Live report) ∧
      TcpConnection.arrived rest = body.drop (packLen head) ∧
      readMessage proto type buffer queue =
        match proto.parse (body.take (packLen head)) with
        | some message =>
            { status := some .ok, message := some message, buffer := filled, queue := rest }
        | none =>
            { status := some (.error .failed (ascii "ParseFromArray failed"))
              buffer := filled
              queue := rest } := by
  obtain ⟨middle, first, middle_live, middle_stream⟩ :=
    TcpConnection.read_exact 3 queue live (by rw [stream, List.length_append]; omega)
  rw [stream, ← three, List.take_left'] at first
  rw [stream, ← three, List.drop_left'] at middle_stream
  rotate_left
  · rfl
  · rfl
  have size := Buffer.resize_size buffer (packLen head)
  obtain ⟨rest, second, rest_live, rest_stream⟩ :=
    TcpConnection.read_exact (buffer.resize (packLen head)).size middle middle_live
      (by rw [middle_stream, size]; exact enough)
  rw [middle_stream, size] at second rest_stream
  have content : ((buffer.resize (packLen head)).store 0 (body.take (packLen head))).content =
      body.take (packLen head) := by
    rw [Buffer.store_content (by rw [size, List.length_take]; omega),
      List.drop_eq_nil_of_le (by rw [Buffer.content_length, size, List.length_take]; omega),
      List.append_nil]
  refine ⟨(buffer.resize (packLen head)).store 0 (body.take (packLen head)), rest, rest_live,
    rest_stream, ?_⟩
  rw [three] at first
  cases parsed : proto.parse (body.take (packLen head)) with
  | none => simp only [readMessage, first, if_true, accepted, second, content, size, parsed]
  | some message => simp only [readMessage, first, if_true, accepted, second, content, size, parsed]

/-- Write messages one after another; the bytes sent when every write returns success. -/
def writeAll {Message : Type} (write : Buffer → Message → List (Kernel Nat) → Writing) :
    Buffer → List Message → List (Kernel Nat) → Option Bytes
  | _, [], _ => some []
  | buffer, message :: messages, queue =>
      let result := write buffer message queue
      if result.status = some .ok then
        (writeAll write result.buffer messages result.queue).map fun later => result.sent ++ later
      else none

/-- Read a number of messages; the messages and the unused reports when every read returns
success. -/
def readAll {Message : Type} (read : Buffer → List (Kernel Bytes) → Reading Message) :
    Nat → Buffer → List (Kernel Bytes) → Option (List Message × List (Kernel Bytes))
  | 0, _, queue => some ([], queue)
  | count + 1, buffer, queue =>
      let result := read buffer queue
      match result.status, result.message with
      | some .ok, some message =>
          (readAll read count result.buffer result.queue).map fun later =>
            (message :: later.1, later.2)
      | _, _ => none

/-- Messages that one side of a connection has written, and the reports through which the stream
that starts with their frames reaches the reads of the other side. -/
structure Exchange {Message : Type} (proto : Protobuf Message)
    (write : Buffer → Message → List (Kernel Nat) → Writing) where
  messages : List Message
  encodable : ∀ message ∈ messages, ∃ payload, proto.serialize message = some payload ∧
    1 ≤ payload.length ∧ payload.length ≤ 65534
  writer : Buffer
  sends : List (Kernel Nat)
  sent : Bytes
  written : writeAll write writer messages sends = some sent
  reader : Buffer
  arrivals : List (Kernel Bytes)
  live : ∀ report ∈ arrivals, TcpConnection.Live report
  /-- What follows the frames in the stream. -/
  tail : Bytes
  stream : TcpConnection.arrived arrivals = sent ++ tail

/-- As many reads as messages were written succeed, yield the messages in order, and leave exactly
the bytes after the frames. -/
def Exchange.Delivered {Message : Type} {proto : Protobuf Message}
    {write : Buffer → Message → List (Kernel Nat) → Writing} (exchange : Exchange proto write)
    (read : Buffer → List (Kernel Bytes) → Reading Message) : Prop :=
  ∃ rest, readAll read exchange.messages.length exchange.reader exchange.arrivals =
      some (exchange.messages, rest) ∧
    TcpConnection.arrived rest = exchange.tail

/-- Successful writes put the frames of the messages on the stream. -/
theorem writeAll_sent {Message : Type} {proto : Protobuf Message} {type : RpcCodec.MessageType}
    {buffer : Buffer} {messages : List Message} {queue : List (Kernel Nat)} {sent : Bytes}
    (written : writeAll (writeMessage proto type) buffer messages queue = some sent) :
    sent = messages.flatMap (frameOf proto type) := by
  induction messages generalizing buffer queue sent with
  | nil => exact (Option.some.inj written).symm
  | cons message messages ih =>
      simp only [writeAll] at written
      split_ifs at written with success
      obtain ⟨later, rest, rfl⟩ := Option.map_eq_some_iff.mp written
      rw [ih rest, writeMessage_sent success, List.flatMap_cons]

/-- A frame shorter than 256 bytes is read back. -/
theorem readMessage_short {Message : Type} {proto : Protobuf Message} (lawful : proto.Lawful)
    {type : RpcCodec.MessageType} (buffer : Buffer) {queue : List (Kernel Bytes)}
    {message : Message} {payload tail : Bytes} (serialized : proto.serialize message = some payload)
    (nonempty : 1 ≤ payload.length) (short : payload.length < 256)
    (live : ∀ report ∈ queue, TcpConnection.Live report)
    (stream : TcpConnection.arrived queue = frame type payload ++ tail) :
    ∃ filled rest, (∀ report ∈ rest, TcpConnection.Live report) ∧
      TcpConnection.arrived rest = tail ∧
      readMessage proto type buffer queue =
        { status := some .ok, message := some message, buffer := filled, queue := rest } := by
  have announced : packLen (header type payload.length) = payload.length := by
    rw [packLen_header type (by omega), Nat.mod_eq_of_lt short]
  have accepted : checkHead type (header type payload.length) = .ok := by
    rw [checkHead_header type (by omega), if_neg (by omega)]
  rw [frame, List.append_assoc] at stream
  obtain ⟨filled, rest, rest_live, remaining, result⟩ :=
    readMessage_live proto buffer (header_length type payload.length) live stream accepted
      (by rw [announced, List.length_append]; omega)
  rw [announced, List.drop_left'] at remaining
  rw [announced, List.take_left', lawful.parse_serialize message payload serialized] at result
  · exact ⟨filled, rest, rest_live, remaining, result⟩
  · rfl
  · rfl

/-- A frame of at least 256 bytes is never read back as its message. -/
theorem readMessage_long {Message : Type} {proto : Protobuf Message} (lawful : proto.Lawful)
    {type : RpcCodec.MessageType} (buffer : Buffer) {queue : List (Kernel Bytes)}
    {message : Message} {payload tail : Bytes} (serialized : proto.serialize message = some payload)
    (long : 256 ≤ payload.length) (bounded : payload.length ≤ 65534)
    (live : ∀ report ∈ queue, TcpConnection.Live report)
    (stream : TcpConnection.arrived queue = frame type payload ++ tail) :
    (readMessage proto type buffer queue).message ≠ some message := by
  have announced := packLen_header type (by omega : payload.length < 65536)
  have checked := checkHead_header type (by omega : payload.length < 65536)
  have truncated : payload.length % 256 < payload.length := by omega
  rw [frame, List.append_assoc] at stream
  by_cases empty : payload.length % 256 = 0
  · rw [if_pos empty] at checked
    obtain ⟨rest, first, -, -⟩ := TcpConnection.read_exact 3 queue live
      (by rw [stream, List.length_append, header_length]; omega)
    rw [stream, List.take_left' (header_length type payload.length)] at first
    simp [readMessage, first, checked]
  · rw [if_neg empty] at checked
    obtain ⟨filled, rest, -, -, result⟩ :=
      readMessage_live proto buffer (header_length type payload.length) live stream checked
        (by rw [announced, List.length_append]; omega)
    rw [announced, List.take_append_of_le_length (Nat.le_of_lt truncated)] at result
    have different := lawful.not_parse_truncated message payload _ serialized truncated
    rw [result]
    cases parsed : proto.parse (payload.take (payload.length % 256)) with
    | none => simp
    | some other =>
        rw [parsed] at different
        exact different

/-- Reads of a stream of frames give the messages back exactly when all frames are short. -/
theorem readAll_frames_iff {Message : Type} {proto : Protobuf Message} (lawful : proto.Lawful)
    {type : RpcCodec.MessageType} {messages : List Message}
    (encodable : ∀ message ∈ messages, ∃ payload, proto.serialize message = some payload ∧
      1 ≤ payload.length ∧ payload.length ≤ 65534)
    (buffer : Buffer) {queue : List (Kernel Bytes)} {tail : Bytes}
    (live : ∀ report ∈ queue, TcpConnection.Live report)
    (stream : TcpConnection.arrived queue = messages.flatMap (frameOf proto type) ++ tail) :
    (∃ rest, readAll (readMessage proto type) messages.length buffer queue =
        some (messages, rest) ∧ TcpConnection.arrived rest = tail) ↔
      ∀ message ∈ messages, ∀ payload, proto.serialize message = some payload →
        payload.length < 256 := by
  induction messages generalizing buffer queue with
  | nil => simpa [readAll] using stream
  | cons message messages ih =>
      obtain ⟨payload, serialized, nonempty, bounded⟩ := encodable message List.mem_cons_self
      have others := fun message member => encodable message (List.mem_cons_of_mem _ member)
      rw [List.flatMap_cons, List.append_assoc, frameOf_of_serialize serialized] at stream
      by_cases short : payload.length < 256
      · obtain ⟨filled, middle, middle_live, remaining, result⟩ :=
          readMessage_short lawful buffer serialized nonempty short live stream
        have step : readAll (readMessage proto type) (message :: messages).length buffer queue =
            (readAll (readMessage proto type) messages.length filled middle).map fun later =>
              (message :: later.1, later.2) := by
          simp only [List.length_cons, readAll, result]
        have first_short : ∀ other, proto.serialize message = some other → other.length < 256 := by
          intro other same
          obtain rfl : payload = other := Option.some.inj (serialized.symm.trans same)
          exact short
        rw [step, List.forall_mem_cons, ← ih others filled middle_live remaining]
        constructor
        · rintro ⟨rest, found, left⟩
          obtain ⟨⟨read, unused⟩, later, same⟩ := Option.map_eq_some_iff.mp found
          simp only [Prod.mk.injEq, List.cons.injEq, true_and] at same
          obtain ⟨rfl, rfl⟩ := same
          exact ⟨first_short, unused, later, left⟩
        · rintro ⟨-, rest, later, left⟩
          exact ⟨rest, by rw [later]; rfl, left⟩
      · have different := readMessage_long lawful buffer serialized (Nat.le_of_not_lt short) bounded
          live stream
        constructor
        · rintro ⟨rest, found, -⟩
          exfalso
          simp only [List.length_cons, readAll] at found
          split at found
          · next read status held =>
              obtain ⟨⟨later, unused⟩, -, same⟩ := Option.map_eq_some_iff.mp found
              simp only [Prod.mk.injEq, List.cons.injEq] at same
              rw [held, same.1.1] at different
              exact different rfl
          · simp at found
        · intro all_short
          exact absurd (all_short message List.mem_cons_self payload serialized) short

/-- Requests and responses survive framing exactly when their serializations are shorter than 256
bytes. -/
theorem delivered_iff_short {Request Response : Type} {requests : Protobuf Request}
    {responses : Protobuf Response} (requests_lawful : requests.Lawful)
    (responses_lawful : responses.Lawful) :
    (∀ exchange : Exchange requests (writeRequestMessage requests),
      exchange.Delivered (readRequestMessage requests) ↔
        ∀ request ∈ exchange.messages, ∀ payload, requests.serialize request = some payload →
          payload.length < 256) ∧
    (∀ exchange : Exchange responses (writeResponeMessage responses),
      exchange.Delivered (readResponeMessage responses) ↔
        ∀ response ∈ exchange.messages, ∀ payload, responses.serialize response = some payload →
          payload.length < 256) := by
  constructor
  · intro exchange
    have stream := exchange.stream
    rw [writeAll_sent exchange.written] at stream
    exact readAll_frames_iff requests_lawful exchange.encodable exchange.reader exchange.live stream
  · intro exchange
    have stream := exchange.stream
    rw [writeAll_sent exchange.written] at stream
    exact readAll_frames_iff responses_lawful exchange.encodable exchange.reader exchange.live
      stream

/-- A request for `Echo` of the text `hi`, which arrives in four pieces. -/
def echoExchange : Exchange Wire.rpcRequest (writeRequestMessage Wire.rpcRequest) where
  messages := [⟨ascii "EchoService", ascii "Echo", [0x0A, 2] ++ ascii "hi"⟩]
  encodable := by
    intro message member
    obtain rfl := List.mem_singleton.mp member
    exact ⟨_, rfl, by decide, by decide⟩
  writer := .empty
  sends := [.returned 20, .again .ok, .returned 100]
  sent := [1, 25, 0] ++ Wire.encodeRequest
    ⟨ascii "EchoService", ascii "Echo", [0x0A, 2] ++ ascii "hi"⟩
  written := by decide
  reader := .empty
  arrivals := [.returned [1], .again .ok, .returned [25, 0, 0x0A], .interrupted,
    .returned ([11] ++ ascii "EchoService"),
    .returned (Wire.field 2 (ascii "Echo") ++ Wire.field 3 ([0x0A, 2] ++ ascii "hi"))]
  live := by simp [TcpConnection.Live, Wire.field]
  tail := []
  stream := by decide

theorem delivered_iff_short_echoExchange :
    (∀ request ∈ echoExchange.messages, ∀ payload,
      Wire.rpcRequest.serialize request = some payload → payload.length < 256) ∧
    echoExchange.Delivered (readRequestMessage Wire.rpcRequest) := by
  have short : ∀ request ∈ echoExchange.messages, ∀ payload,
      Wire.rpcRequest.serialize request = some payload → payload.length < 256 := by
    intro request member payload serialized
    obtain rfl := List.mem_singleton.mp member
    obtain rfl := Option.some.inj serialized
    decide
  exact ⟨short, ((delivered_iff_short Wire.rpcRequest_lawful Wire.rpcResponse_lawful).1
    echoExchange).mpr short⟩

/-- The reply of `Echo` to a text of 250 characters. -/
def longReply : RpcResponse := ⟨[0x0A, 0xFA, 1] ++ List.replicate 250 0x61⟩

/-- A reply whose serialization has 256 bytes. -/
def longExchange : Exchange Wire.rpcResponse (writeResponeMessage Wire.rpcResponse) where
  messages := [longReply]
  encodable := by
    intro message member
    obtain rfl := List.mem_singleton.mp member
    exact ⟨Wire.encodeResponse longReply, by decide +kernel, by decide +kernel, by decide +kernel⟩
  writer := .empty
  sends := [.returned 259]
  sent := [2, 0, 0] ++ Wire.encodeResponse longReply
  written := by decide +kernel
  reader := .empty
  arrivals := [.returned ([2, 0, 0] ++ Wire.encodeResponse longReply)]
  live := by simp [TcpConnection.Live]
  tail := []
  stream := by decide +kernel

/-- The announced length of the long reply is zero, so that its read fails. -/
theorem long_reply_not_delivered :
    (readResponeMessage Wire.rpcResponse longExchange.reader longExchange.arrivals).status =
      some (.error .invailArgument (ascii " Message length error")) ∧
    ¬ longExchange.Delivered (readResponeMessage Wire.rpcResponse) := by
  have failed :
      (readResponeMessage Wire.rpcResponse longExchange.reader longExchange.arrivals).status =
        some (.error .invailArgument (ascii " Message length error")) := by
    decide +kernel
  refine ⟨failed, ?_⟩
  rintro ⟨rest, found, -⟩
  change readAll (readResponeMessage Wire.rpcResponse) 1 _ _ = _ at found
  simp [readAll, failed] at found

end Mcast.DefaultRpcCodec
