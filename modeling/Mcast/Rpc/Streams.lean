import Mcast.Rpc.Channel
import Mcast.Rpc.Isolation
import Mcast.Rpc.Limits

/-!
# Calls over byte streams

`RpcChannel::CallMethod` and the loops of `RpcServer::Start` joined by the two byte streams of each
connection.  The channel is that of the frame level, whose own queues of messages stay empty: here
its write and its read run on the reports of the kernel, a report of the kernel moves bytes between
a call and a stream, and the server is the one whose connections share a codec.

A stream that carries whole frames and a part of one more can be cut at the end of a frame only
where a frame ends.
-/

namespace Mcast

open DefaultRpcCodec RpcServer

/-- The bytes that an event takes from the stream to the server. -/
def RpcServer.Event.chunk {Response : Type} : Event Response → Bytes
  | .received (.returned bytes) => bytes
  | _ => []

/-- A channel, a server with its connections, and the bytes that are on their way between them. -/
structure RpcSystem (count : Nat) (Message : Type) where
  /-- The channel; its connections are numbered in the order in which they were made. -/
  channel : RpcChannel Message := {}
  /-- The number of connections made. -/
  used : Nat := 0
  /-- The buffer of the codec of the channel. -/
  buffer : Buffer := .empty
  /-- What the kernel has reported to the present `WriteRequestMessage`. -/
  writes : List (Kernel Nat) := []
  /-- What the kernel has reported to the present `ReadResponeMessage`. -/
  reads : List (Kernel Bytes) := []
  server : RpcServer count RpcRequest RpcResponse := {}
  /-- The bytes sent by the channel that the server has not received. -/
  upstream : Fin count → Bytes := fun _ => []
  downstream : Fin count → Bytes := fun _ => []

namespace RpcSystem

inductive Label (count : Nat) (Message : Type) where
  /-- `CallMethod` is called. -/
  | call (call : RpcChannel.Call Message)
  /-- `Connect` returns. -/
  | connected (status : Status)
  /-- A `send` of the channel returns, with the wait that may follow. -/
  | sent (report : Kernel Nat)
  /-- A `recv` of the channel returns. -/
  | received (report : Kernel Bytes)
  | setConnectParameter
  /-- A step of the loop of a connection other than the return of `CallServiceMethod`. -/
  | serve (k : Fin count) (event : Event RpcResponse)
  /-- `CallServiceMethod` returns in the loop of a connection. -/
  | serverCalled (k : Fin count) (invocation : Invocation Message)

section Steps

variable {count : Nat} {Message : Type} (requests : Protobuf RpcRequest)
  (responses : Protobuf RpcResponse) (registry : Registry Message)

/-- `CallMethod` goes on until it needs the next report of the kernel. -/
def settle (s : RpcSystem count Message) : Option (RpcSystem count Message) :=
  match s.channel.stage with
  | .writing call request =>
      let writing := writeRequestMessage requests s.buffer request s.writes
      if writing.aborted then none
      else
        match writing.status with
        | none => some s
        | some .ok =>
            some
              { s with
                channel := { s.channel with stage := .reading call }
                buffer := writing.buffer
                reads := [] }
        | some (.error state text) =>
            some
              { s with
                channel := s.channel.giveUp (.error state text)
                buffer := writing.buffer }
  | .reading call =>
      let reading := readResponeMessage responses s.buffer s.reads
      match reading.status with
      | none => some s
      | some .ok =>
          match reading.queue, reading.message with
          -- `recv` returns no more bytes than it was asked for
          | [], some reply =>
              some { s with channel := s.channel.fill call reply, buffer := reading.buffer }
          | _, _ => none
      | some (.error state text) =>
          some
            { s with
              channel := s.channel.giveUp (.error state text)
              buffer := reading.buffer }
  | _ => some s

/-- `CallMethod` after a successful `Connect`. -/
def join (s : RpcSystem count Message) (call : RpcChannel.Call Message) :
    RpcSystem count Message :=
  { s with
    channel := RpcChannel.prepare { s.channel with conn := some s.used } call
    used := s.used + 1
    writes := [] }

/-- A step of the loop of a connection, with the bytes that it receives and sends. -/
def serve (s : RpcSystem count Message) (k : Fin count) (event : Event RpcResponse) :
    Option (RpcSystem count Message) :=
  if k.val < s.used ∧ event.chunk <+: s.upstream k then
    (RpcServer.step requests responses s.server (k, event)).map fun server =>
      { s with
        server
        upstream := Function.update s.upstream k ((s.upstream k).drop (event.chunk).length)
        downstream := Function.update s.downstream k (s.downstream k ++
          (server.connections k).written.drop (s.server.connections k).written.length) }
  else none

def step (s : RpcSystem count Message) : Label count Message → Option (RpcSystem count Message)
  | .call call =>
      (s.channel.clientStep (.call call)).bind fun channel =>
        settle requests responses { s with channel, writes := [] }
  | .connected status =>
      match s.channel.stage, status with
      | .connecting call, .error state text =>
          some { s with channel := s.channel.afterConnect call (.error state text) }
      | .connecting call, .ok =>
          if s.used < count then settle requests responses (s.join call) else none
      | _, _ => none
  | .sent report =>
      match s.channel.stage, s.channel.conn with
      | .writing _ request, some k =>
          let writing := writeRequestMessage requests s.buffer request
          let sent := (writing (s.writes ++ [report])).sent.drop (writing s.writes).sent.length
          if inside : k < count then
            settle requests responses
              { s with
                writes := s.writes ++ [report]
                upstream := Function.update s.upstream ⟨k, inside⟩ (s.upstream ⟨k, inside⟩ ++ sent) }
          else none
      | _, _ => none
  | .received report =>
      match s.channel.stage, s.channel.conn with
      | .reading _, some k =>
          if inside : k < count then
            if TcpConnection.chunk report <+: s.downstream ⟨k, inside⟩ then
              settle requests responses
                { s with
                  reads := s.reads ++ [report]
                  downstream := Function.update s.downstream ⟨k, inside⟩
                    ((s.downstream ⟨k, inside⟩).drop (TcpConnection.chunk report).length) }
            else none
          else none
      | _, _ => none
  | .setConnectParameter =>
      (s.channel.clientStep .setConnectParameter).map fun channel => { s with channel }
  | .serve k event =>
      match event with
      | .called _ => none
      | event => s.serve requests responses k event
  | .serverCalled k invocation =>
      match (s.server.connections k).stage with
      | .calling request =>
          s.serve requests responses k (.called (answer registry request invocation))
      | _ => none

/-- The connections of the server do not disturb each other in the buffer of their codec. -/
def undisturbed (s : RpcSystem count Message) : Label count Message → Bool
  | .serve k event => s.server.undisturbed (k, event)
  | .serverCalled k invocation =>
      match (s.server.connections k).stage with
      | .calling request => s.server.undisturbed (k, .called (answer registry request invocation))
      | _ => true
  | _ => true

/-- The messages of a step have serializations of 1 to 255 bytes, if any. -/
def Modest : Label count Message → Prop
  | .call call => ∀ request, call.rpcRequest = some request → Short requests request
  | .serverCalled _ invocation => ∀ request reply,
      answer registry request invocation = .replied reply → Short responses reply
  | _ => True

end Steps

end RpcSystem

/-! ## Frames on a stream -/

section Streams

variable {Message : Type} {proto : Protobuf Message} {type : RpcCodec.MessageType}

/-- The message has a serialization whose length the header of its frame tells. -/
def Proper (proto : Protobuf Message) (message : Message) : Prop :=
  ∃ payload, proto.serialize message = some payload ∧ 1 ≤ payload.length ∧ payload.length ≤ 255

/-- Nothing, or a frame that has not been sent to its end. -/
def Cut (proto : Protobuf Message) (type : RpcCodec.MessageType) (part : Bytes) : Prop :=
  part = [] ∨ ∃ message rest, Proper proto message ∧ rest ≠ [] ∧
    frameOf proto type message = part ++ rest

/-- A stream carries these messages and a part of one more frame. -/
structure Carried (proto : Protobuf Message) (type : RpcCodec.MessageType) (stream : Bytes)
    (messages : List Message) (part : Bytes) : Prop where
  bytes : stream = messages.flatMap (frameOf proto type) ++ part
  proper : ∀ message ∈ messages, Proper proto message

theorem Proper.of_short {message : Message} {payload : Bytes} (short : Short proto message)
    (serialized : proto.serialize message = some payload) : Proper proto message :=
  ⟨payload, serialized, short payload serialized⟩

theorem Proper.framed {message : Message} (proper : Proper proto message) :
    ∃ payload, proto.serialize message = some payload ∧
      Framed type (frameOf proto type message) payload [] := by
  obtain ⟨payload, serialized, positive, short⟩ := proper
  obtain ⟨low, high, bytes, length⟩ := frame_eq type (by omega : payload.length < 65536)
  refine ⟨payload, serialized, ?_⟩
  rw [frameOf_of_serialize serialized, bytes]
  have framed : Framed type (type.code :: low :: high :: (payload ++ [])) payload [] :=
    .intro low high payload [] (by omega) (by omega)
  rwa [List.append_nil] at framed

/-- Two frames at the start of the same stream are the same. -/
theorem Framed.unique {first second payload other left right : Bytes}
    (framed : Framed type first payload []) (also : Framed type second other [])
    (same : first ++ left = second ++ right) : first = second ∧ payload = other ∧ left = right := by
  obtain ⟨low, high, stream, -, length⟩ := framed.exists_header
  obtain ⟨low', high', stream', -, length'⟩ := also.exists_header
  rw [List.append_nil] at stream stream'
  rw [stream, stream'] at same
  simp only [List.cons_append, List.cons.injEq, true_and] at same
  obtain ⟨rfl, rfl, bodies⟩ := same
  obtain ⟨rfl, rfl⟩ := List.append_inj bodies (length.trans length'.symm)
  exact ⟨stream.trans stream'.symm, rfl, rfl⟩

/-- A frame at the start of a stream that carries messages is that of the first message. -/
theorem Carried.first {taken later payload part : Bytes} {messages : List Message}
    (carried : Carried proto type (taken ++ later) messages part) (cut : Cut proto type part)
    (framed : Framed type taken payload []) :
    ∃ message rest, messages = message :: rest ∧ proto.serialize message = some payload ∧
      Carried proto type later rest part := by
  cases messages with
  | nil =>
      have bytes := carried.bytes
      rw [List.flatMap_nil, List.nil_append] at bytes
      rcases cut with rfl | ⟨message, rest, proper, more, whole⟩
      · obtain ⟨low, high, stream, -⟩ := framed.exists_header
        rw [stream] at bytes
        cases bytes
      · obtain ⟨other, -, also⟩ := proper.framed
        rw [← bytes, List.append_assoc] at whole
        rw [← List.append_nil (frameOf _ _ _)] at whole
        obtain ⟨-, -, none_⟩ := Framed.unique framed also whole.symm
        exact absurd (List.append_eq_nil_iff.mp none_).2 more
  | cons message rest =>
      have bytes := carried.bytes
      have proper := List.forall_mem_cons.mp carried.proper
      obtain ⟨other, serialized, also⟩ := proper.1.framed
      rw [List.flatMap_cons, List.append_assoc] at bytes
      obtain ⟨-, same, left⟩ := Framed.unique framed also bytes
      rw [← same] at serialized
      exact ⟨message, rest, rfl, serialized, left, proper.2⟩

/-- A header and as many bytes as it announces are a frame. -/
theorem framed_of_head {head payload : Bytes}
    (three : head.length = 3) (accepted : checkHead type head = .ok)
    (whole : payload.length = packLen head) : Framed type (head ++ payload) payload [] := by
  obtain ⟨first, low, high, body, rfl⟩ := exists_head (Nat.le_of_eq three.symm)
  obtain rfl : body = [] := List.length_eq_zero_iff.mp (by simpa using three)
  have positive := packLen_pos accepted
  rw [checkHead_head] at accepted
  split_ifs at accepted with same
  obtain rfl : first = type.code := not_not.mp same
  rw [packLen_head] at whole positive
  have framed : Framed type (type.code :: low :: high :: (payload ++ [])) payload [] :=
    .intro low high payload [] whole (by omega)
  rwa [List.append_nil] at framed

/-- What the server takes of a stream has been sent before. -/
theorem Carried.take {taken up chunk part : Bytes} {messages : List Message}
    (carried : Carried proto type (taken ++ up) messages part) (sent : chunk <+: up) :
    Carried proto type ((taken ++ chunk) ++ up.drop chunk.length) messages part := by
  obtain ⟨rest, rfl⟩ := sent
  rwa [List.drop_left, List.append_assoc]

/-- More of a frame is sent. -/
theorem Carried.extend {stream part : Bytes} {messages : List Message}
    (carried : Carried proto type stream messages part) (more : Bytes) :
    Carried proto type (stream ++ more) messages (part ++ more) where
  bytes := by rw [carried.bytes, List.append_assoc]
  proper := carried.proper

/-- A complete frame joins the messages of a stream. -/
theorem Carried.push {stream : Bytes} {messages : List Message} {message : Message}
    (carried : Carried proto type stream messages (frameOf proto type message))
    (proper : Proper proto message) : Carried proto type stream (messages ++ [message]) [] where
  bytes := by
    rw [carried.bytes, List.flatMap_append, List.flatMap_singleton, List.append_nil]
  proper := by
    intro other member
    rcases List.mem_append.mp member with old | last
    · exact carried.proper other old
    · rw [List.mem_singleton.mp last]
      exact proper

end Streams

end Mcast
