import Mcast.Rpc.Grammar
import Mcast.Rpc.RoundTrip
import Mcast.Rpc.Server

/-!
# The sizes that the codec can write

The size of a message is known only after its serialization, when `WriteMessage` checks it with
`CHECK_LT(pack_len, 0xFFFF)`, which ends the process.  Below that limit the header of a frame says
the length modulo 256.  A write therefore does its duty, to send a frame that the reader accepts or
to report an error, exactly for the messages whose serialization fails or has 1 to 255 bytes, and
so does a server that answers a request.
-/

namespace Mcast

namespace DefaultRpcCodec

open TcpConnection (delivered)

/-- The message has a serialization whose length fits in the two length bytes of a header. -/
def Encodable {Message : Type} (proto : Protobuf Message) (message : Message) : Prop :=
  ∃ payload, proto.serialize message = some payload ∧ 1 ≤ payload.length ∧ payload.length ≤ 0xFFFF

/-- A reader of any stream that starts with these bytes gets the message and consumes them. -/
def Accepted {Message : Type} (read : Buffer → List (Kernel Bytes) → Reading Message)
    (message : Message) (sent : Bytes) : Prop :=
  ∀ reader queue tail, delivered queue = sent ++ tail →
    (read reader queue).status = some .ok ∧ (read reader queue).message = some message ∧
      delivered (read reader queue).queue = tail

/-- However the kernel takes the bytes, the write of the message sends one frame that the reader
accepts or reports an error, and sends nothing of a message that cannot be encoded. -/
structure Reported {Message : Type} (proto : Protobuf Message)
    (write : Buffer → Message → List (Kernel Nat) → Writing)
    (read : Buffer → List (Kernel Bytes) → Reading Message) (message : Message) : Prop where
  alive : ∀ buffer queue, (write buffer message queue).aborted = false
  complete : ∀ buffer queue, (write buffer message queue).status = some .ok →
    Accepted read message (write buffer message queue).sent
  refused : ¬ Encodable proto message → ∀ buffer queue,
    (∃ state text, (write buffer message queue).status = some (.error state text)) ∧
      (write buffer message queue).sent = []
  /-- A write that has not returned waits for the kernel. -/
  returns : ∀ buffer queue, (write buffer message queue).status = none →
    (write buffer message queue).queue = []

/-- The serialization of the message fails or has 1 to 255 bytes. -/
def Short {Message : Type} (proto : Protobuf Message) (message : Message) : Prop :=
  ∀ payload, proto.serialize message = some payload → 1 ≤ payload.length ∧ payload.length ≤ 255

theorem frame_eq (type : RpcCodec.MessageType) {payload : Bytes} (bounded : payload.length < 65536) :
    ∃ low high : UInt8, frame type payload = type.code :: low :: high :: payload ∧
      low.toNat + 256 * high.toNat = payload.length % 256 := by
  refine ⟨_, _, rfl, ?_⟩
  rw [← packLen_header type bounded, header, packLen_head]

/-- The reader accepts the frame of a short message. -/
theorem accepted_frame {Message : Type} {proto : Protobuf Message} {type : RpcCodec.MessageType}
    {message : Message} {payload : Bytes} (parsed : proto.parse payload = some message)
    (positive : 1 ≤ payload.length) (short : payload.length ≤ 255) :
    Accepted (readMessage proto type) message (frame type payload) := by
  intro reader queue tail stream
  obtain ⟨low, high, bytes, length⟩ := frame_eq type (by omega : payload.length < 65536)
  have framed : Framed type (delivered queue) payload tail := by
    rw [stream, bytes]
    exact .intro low high payload tail (by omega) (by omega)
  have success := ((decodes proto type).accepts_iff reader queue).mpr
    ⟨payload, tail, message, framed, parsed⟩
  obtain ⟨read, rest⟩ := (decodes proto type).consumes reader queue payload tail success framed
  exact ⟨success, read.trans parsed, rest⟩

/-- A reader that accepts the frame of a message takes its length for the announced one. -/
theorem short_of_accepted {Message : Type} {proto : Protobuf Message}
    {type : RpcCodec.MessageType} {message : Message} {payload : Bytes}
    (bounded : payload.length < 65536)
    (accepted : Accepted (readMessage proto type) message (frame type payload)) :
    1 ≤ payload.length ∧ payload.length ≤ 255 := by
  obtain ⟨low, high, bytes, length⟩ := frame_eq type bounded
  have stream : delivered [.returned (frame type payload)] = frame type payload := by
    rw [bytes]
    simp [delivered, TcpConnection.endOfRead, TcpConnection.chunk]
  obtain ⟨success, -, consumed⟩ := accepted .empty [.returned (frame type payload)] []
    (by rw [stream, List.append_nil])
  obtain ⟨read, rest, -, framed, -⟩ := ((decodes proto type).accepts_iff _ _).mp success
  have remaining := ((decodes proto type).consumes _ _ read rest success framed).2
  rw [consumed] at remaining
  subst remaining
  rw [stream, bytes] at framed
  generalize whole : type.code :: low :: high :: payload = start at framed
  obtain ⟨low', high', read, rest, announced, positive⟩ := framed
  simp only [List.cons.injEq, List.append_nil, true_and] at whole
  obtain ⟨rfl, rfl, rfl⟩ := whole
  omega

/-- The assembly of a message that passes the check holds its frame. -/
theorem exists_assembled {Message : Type} {proto : Protobuf Message} {message : Message}
    {payload : Bytes} (type : RpcCodec.MessageType) (buffer : Buffer)
    (serialized : proto.serialize message = some payload) (bounded : payload.length < 0xFFFF) :
    ∃ assembled, assemble proto type buffer message = .frame assembled ∧
      assembled.content = frame type payload := by
  obtain ⟨assembled, complete⟩ : ∃ assembled,
      assemble proto type buffer message = .frame assembled :=
    assemble_of_serialize buffer serialized bounded
  exact ⟨assembled, complete, by rw [assemble_eq_frame complete, frameOf_of_serialize serialized]⟩

/-- The write of a message that passes the check sends its frame. -/
theorem writeMessage_of_serialize {Message : Type} {proto : Protobuf Message} {message : Message}
    {payload : Bytes} (type : RpcCodec.MessageType) (buffer : Buffer) (queue : List (Kernel Nat))
    (serialized : proto.serialize message = some payload) (bounded : payload.length < 0xFFFF) :
    ∃ assembled, writeMessage proto type buffer message queue =
      { status := (TcpConnection.write (frame type payload) queue).status
        sent := (TcpConnection.write (frame type payload) queue).bytes
        buffer := assembled
        queue := (TcpConnection.write (frame type payload) queue).queue } := by
  obtain ⟨assembled, complete, content⟩ := exists_assembled type buffer serialized bounded
  refine ⟨assembled, ?_⟩
  rw [writeMessage, complete]
  simp only [content]

theorem assemble_long {Message : Type} {proto : Protobuf Message} {message : Message}
    {payload : Bytes} (type : RpcCodec.MessageType) (buffer : Buffer)
    (serialized : proto.serialize message = some payload) (long : 0xFFFF ≤ payload.length) :
    assemble proto type buffer message = .aborted := by
  simp only [assemble, serialized, Buffer.append_size, Buffer.store_size, Buffer.resize_size,
    Nat.add_sub_cancel_left, if_neg (Nat.not_lt.mpr long)]

/-- A write that has not returned has used all reports. -/
theorem write_waiting {left : Bytes} {queue : List (Kernel Nat)}
    (waiting : (TcpConnection.write left queue).status = none) :
    (TcpConnection.write left queue).queue = [] := by
  induction queue generalizing left with
  | nil => cases left <;> rfl
  | cons report queue ih =>
      rcases eq_or_ne left [] with rfl | missing
      · simp [TcpConnection.write] at waiting
      rw [TcpConnection.write_cons_eq missing] at waiting ⊢
      cases ended : TcpConnection.endOfWrite report with
      | some status => simp [ended] at waiting
      | none =>
          simp only [ended, Transfer.after_status] at waiting
          exact ih waiting

/-- A write does its duty exactly on short messages. -/
theorem reported_iff {Message : Type} {proto : Protobuf Message} (type : RpcCodec.MessageType)
    (inverse : ∀ message payload, proto.serialize message = some payload →
      proto.parse payload = some message) (message : Message) :
    Reported proto (writeMessage proto type) (readMessage proto type) message ↔
      Short proto message := by
  constructor
  · intro reported payload serialized
    rcases Nat.lt_or_ge payload.length 0xFFFF with bounded | long
    · obtain ⟨assembled, written⟩ := writeMessage_of_serialize type .empty
        [.returned (frame type payload).length] serialized bounded
      obtain ⟨sent, success⟩ := TcpConnection.write_accepted (frame type payload)
        [.returned (frame type payload).length]
      have enough : TcpConnection.accepted [.returned (frame type payload).length] =
          (frame type payload).length := rfl
      rw [enough, List.take_length] at sent
      have accepted := reported.complete .empty [.returned (frame type payload).length]
        (by rw [written]; exact success.mpr (Nat.le_of_eq enough.symm))
      rw [written] at accepted
      simp only [sent] at accepted
      exact short_of_accepted (by omega) accepted
    · have alive := reported.alive .empty []
      rw [writeMessage, assemble_long type .empty serialized long] at alive
      cases alive
  · intro short
    cases serialized : proto.serialize message with
    | none =>
        have written : ∀ buffer queue, writeMessage proto type buffer message queue =
            { status := some (.error .failed (ascii "AppendToString failed"))
              buffer := (buffer.resize 3).store 0 [type.code]
              queue } := by
          intro buffer queue
          simp only [writeMessage, assemble, serialized]
        constructor
        · intro buffer queue
          rw [written]
        · intro buffer queue success
          rw [written] at success
          cases success
        · intro _ buffer queue
          rw [written]
          exact ⟨⟨_, _, rfl⟩, rfl⟩
        · intro buffer queue waiting
          rw [written] at waiting
          cases waiting
    | some payload =>
        obtain ⟨positive, bounded⟩ := short payload serialized
        have written := fun buffer queue =>
          writeMessage_of_serialize type buffer queue serialized (by omega)
        constructor
        · intro buffer queue
          obtain ⟨assembled, result⟩ := written buffer queue
          rw [result]
        · intro buffer queue success
          obtain ⟨assembled, result⟩ := written buffer queue
          rw [result] at success ⊢
          simp only [TcpConnection.write_complete _ _ success]
          exact accepted_frame (inverse message payload serialized) positive bounded
        · intro unencodable
          exact absurd ⟨payload, serialized, positive, by omega⟩ unencodable
        · intro buffer queue waiting
          obtain ⟨assembled, result⟩ := written buffer queue
          rw [result] at waiting ⊢
          exact write_waiting waiting

end DefaultRpcCodec

namespace RpcServer

open DefaultRpcCodec

/-- A server that has decoded a request and got this response for it goes on with its process: it
closes the connection because the response cannot be encoded, or it writes a frame that the reader
accepts. -/
def Answers {Request Response : Type} (requests : Protobuf Request) (responses : Protobuf Response)
    (request : Request) (response : Response) : Prop :=
  ∀ (count : Nat) (server : RpcServer count Request Response) (conn : Fin count),
    (server.connections conn).waiting = none →
    (server.connections conn).stage = .calling request →
    ∃ after, server.step requests responses (conn, .called (.replied response)) = some after ∧
      (after.connections conn).written = (server.connections conn).written ∧
      ((after.connections conn).stage = .closed ∧ ¬ Encodable responses response ∨
        (after.connections conn).stage =
            .writing after.buffer.block after.buffer.size after.buffer.size ∧
          Accepted (readResponeMessage responses) response after.buffer.content)

theorem step_called {count : Nat} {Request Response : Type} {requests : Protobuf Request}
    {responses : Protobuf Response} {server : RpcServer count Request Response} {conn : Fin count}
    {request : Request} (running : (server.connections conn).waiting = none)
    (calling : (server.connections conn).stage = .calling request) (outcome : Called Response) :
    server.step requests responses (conn, .called outcome) =
      (Connection.reply responses server.buffer (server.connections conn) outcome).map
        fun result =>
          { buffer := result.1, connections := Function.update server.connections conn result.2 } := by
  simp only [step, Connection.step, running, Connection.advance, calling]

theorem answers_iff {Request Response : Type} (requests : Protobuf Request)
    {responses : Protobuf Response}
    (inverse : ∀ message payload, responses.serialize message = some payload →
      responses.parse payload = some message) (request : Request) (response : Response) :
    Answers requests responses request response ↔ Short responses response := by
  constructor
  · intro answers payload serialized
    obtain ⟨after, stepped, -, outcome⟩ :=
      answers 1 { connections := fun _ => { stage := .calling request } } 0 rfl rfl
    rw [step_called rfl rfl] at stepped
    simp only [Connection.reply] at stepped
    rcases Nat.lt_or_ge payload.length 0xFFFF with bounded | long
    · obtain ⟨assembled, complete, content⟩ :=
        exists_assembled .response .empty serialized bounded
      rw [complete] at stepped
      simp only [Option.map_some, Option.some.injEq] at stepped
      subst stepped
      simp only [Function.update_self, reduceCtorEq, false_and, true_and, false_or] at outcome
      rw [content] at outcome
      exact short_of_accepted (by omega) outcome
    · rw [assemble_long .response .empty serialized long] at stepped
      cases stepped
  · intro short count server conn running calling
    rw [step_called running calling]
    simp only [Connection.reply]
    cases serialized : responses.serialize response with
    | none =>
        have incomplete : assemble responses .response server.buffer response =
            .incomplete ((server.buffer.resize 3).store 0 [RpcCodec.MessageType.response.code]) := by
          simp only [assemble, serialized]
        have unencodable : ¬ Encodable responses response := by
          rintro ⟨payload, encoded, -⟩
          rw [serialized] at encoded
          cases encoded
        rw [incomplete]
        refine ⟨_, rfl, ?_, .inl ⟨?_, unencodable⟩⟩
        · simp [Connection.close]
        · simp [Connection.close]
    | some payload =>
        obtain ⟨positive, bounded⟩ := short payload serialized
        obtain ⟨assembled, complete, content⟩ :=
          exists_assembled .response server.buffer serialized (by omega : payload.length < 0xFFFF)
        rw [complete]
        refine ⟨_, rfl, ?_, .inr ⟨?_, ?_⟩⟩
        · simp
        · simp
        · rw [content]
          exact accepted_frame (inverse response payload serialized) positive bounded

/-- Writes of requests and of responses, and servers, do their duty exactly on the messages whose
serialization fails or has 1 to 255 bytes. -/
theorem reported_iff_short {Request Response : Type} {requests : Protobuf Request}
    {responses : Protobuf Response}
    (requests_inverse : ∀ message payload, requests.serialize message = some payload →
      requests.parse payload = some message)
    (responses_inverse : ∀ message payload, responses.serialize message = some payload →
      responses.parse payload = some message) (request : Request) (response : Response) :
    (Reported requests (writeRequestMessage requests) (readRequestMessage requests) request ↔
      Short requests request) ∧
    (Reported responses (writeResponeMessage responses) (readResponeMessage responses) response ↔
      Short responses response) ∧
    (Answers requests responses request response ↔ Short responses response) :=
  ⟨reported_iff .request requests_inverse request,
    reported_iff .response responses_inverse response,
    answers_iff requests responses_inverse request response⟩

/-- A request for `Echo` of the text `hi`. -/
def hiRequest : RpcRequest := ⟨ascii "EchoService", ascii "Echo", [0x0A, 2] ++ ascii "hi"⟩

/-- Its response. -/
def hiResponse : RpcResponse := ⟨[0x0A, 2] ++ ascii "hi"⟩

theorem reported_iff_short_hiRequest :
    Reported Wire.rpcRequest (writeRequestMessage Wire.rpcRequest)
      (readRequestMessage Wire.rpcRequest) hiRequest ∧
    Reported Wire.rpcResponse (writeResponeMessage Wire.rpcResponse)
      (readResponeMessage Wire.rpcResponse) hiResponse ∧
    Answers Wire.rpcRequest Wire.rpcResponse hiRequest hiResponse := by
  have short_request : Short Wire.rpcRequest hiRequest := by
    intro payload serialized
    obtain rfl := Option.some.inj serialized
    decide
  have short_response : Short Wire.rpcResponse hiResponse := by
    intro payload serialized
    obtain rfl := Option.some.inj serialized
    decide
  obtain ⟨request, response, answer⟩ :=
    reported_iff_short Wire.rpcRequest_lawful.parse_serialize
      Wire.rpcResponse_lawful.parse_serialize hiRequest hiResponse
  exact ⟨request.mpr short_request, response.mpr short_response, answer.mpr short_response⟩

/-- The response of `Echo` to a text of 65535 characters. -/
def hugeResponse : RpcResponse := ⟨[0x0A, 0xFF, 0xFF, 3] ++ List.replicate 65535 0x61⟩

/-- The write of the huge response ends the process of the server. -/
theorem huge_response_aborts :
    (writeResponeMessage Wire.rpcResponse .empty hugeResponse []).aborted = true ∧
    ¬ Reported Wire.rpcResponse (writeResponeMessage Wire.rpcResponse)
      (readResponeMessage Wire.rpcResponse) hugeResponse ∧
    ¬ Answers Wire.rpcRequest Wire.rpcResponse hiRequest hugeResponse := by
  have length : (Wire.encodeResponse hugeResponse).length = 65543 := by
    have message : hugeResponse.responseMessage.length = 65539 := by
      rw [hugeResponse, List.length_append, List.length_replicate]
      rfl
    rw [Wire.encodeResponse, Wire.field, message, List.length_cons, List.length_append, message]
    rfl
  have serialized : Wire.rpcResponse.serialize hugeResponse =
      some (Wire.encodeResponse hugeResponse) := by
    simp only [Wire.rpcResponse, Wire.canonical, length]
    rfl
  have aborted : (writeResponeMessage Wire.rpcResponse .empty hugeResponse []).aborted = true := by
    rw [writeResponeMessage, writeMessage, assemble_long .response .empty serialized (by omega)]
  refine ⟨aborted, ?_, ?_⟩
  · intro reported
    rw [reported.alive] at aborted
    cases aborted
  · intro answers
    have short := (answers_iff Wire.rpcRequest Wire.rpcResponse_lawful.parse_serialize hiRequest
      hugeResponse).mp answers _ serialized
    omega

end RpcServer

end Mcast
