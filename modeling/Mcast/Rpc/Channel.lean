import Mcast.Rpc.Server
import Mcast.Rpc.Wire

/-!
# Calls on a channel against the loop of a server

`RpcChannel::CallMethod` connects if `conn_` is null, writes a request, reads one response, and
drops the connection on every failure.  The server answers the requests of a connection one after
another.  Frames travel intact, so a connection is a pair of queues of messages with the stage of
the server's loop; a dropped connection stays in the state and its server goes on.

Calls are numbered in the order in which they start.  A frame carries the number of the call from
which it stems, which is not part of the message and which no operation reads.
-/

namespace Mcast

namespace RpcServer

/-- A method of a registered service, with the classes of its request and its response. -/
structure Method (Message : Type) where
  requestPrototype : Protobuf Message
  responsePrototype : Protobuf Message

/-- `rpc_services_` and the descriptors of its services: the methods of a service by name. -/
abbrev Registry (Message : Type) := Bytes → Option (Bytes → Option (Method Message))

/-- What `CallMethodWithClosure` brings: its status, the reason with which the method failed the
controller, and the response that the method filled. -/
structure Invocation (Message : Type) where
  status : Status
  failure : Option Bytes
  response : Message

/-- `CallServiceMethod`: the response with its class, or the reason of the failed controller. -/
def callServiceMethod {Message : Type} (registry : Registry Message) (request : RpcRequest)
    (invocation : Invocation Message) : Except Bytes (Protobuf Message × Message) :=
  match registry request.service with
  | none => .error (ascii "can't find service" ++ request.service)
  | some item =>
      match item request.method with
      | none => .error (ascii "can't find method" ++ request.method)
      | some method =>
          match method.requestPrototype.parse request.argumentBytes with
          | none => .error (ascii "ParseFromString error")
          | some _ =>
              if invocation.status = .ok then
                match invocation.failure with
                | some reason => .error reason
                | none => .ok (method.responsePrototype, invocation.response)
              else .error invocation.status.errorText

/-- What the loop of a connection makes of a request. -/
def answer {Message : Type} (registry : Registry Message) (request : RpcRequest)
    (invocation : Invocation Message) : Called RpcResponse :=
  match callServiceMethod registry request invocation with
  | .error _ => .failed
  | .ok (prototype, response) =>
      match prototype.serialize response with
      | none => .unserialized
      | some buffer => .replied { responseMessage := buffer }

end RpcServer

namespace RpcChannel

open RpcServer

/-- The arguments of `CallMethod`, with the classes of the request and the response. -/
structure Call (Message : Type) where
  service : Bytes
  method : Bytes
  requestPrototype : Protobuf Message
  request : Message
  responsePrototype : Protobuf Message

/-- `rpc_req`, unless `SerializeToString` fails. -/
def Call.rpcRequest {Message : Type} (call : Call Message) : Option RpcRequest :=
  (call.requestPrototype.serialize call.request).map fun bytes =>
    { service := call.service, method := call.method, argumentBytes := bytes }

/-- A message on its way, with the number of its call. -/
structure Tagged (Content : Type) where
  number : Nat
  content : Content
  deriving DecidableEq, Repr

/-- Where the loop of the server stands. -/
inductive Serving where
  | reading
  | calling (request : Tagged RpcRequest)
  | writing (response : Tagged RpcResponse)
  | closed
  deriving DecidableEq, Repr

/-- A connection of the channel with the loop that serves it. -/
structure Link where
  requests : List (Tagged RpcRequest) := []
  responses : List (Tagged RpcResponse) := []
  serving : Serving := .reading
  deriving DecidableEq, Repr

/-- Where a call stands. -/
inductive Stage (Message : Type) where
  | idle
  /-- In `TcpConnector::Connect`. -/
  | connecting (call : Call Message)
  /-- In `WriteRequestMessage`. -/
  | writing (call : Call Message) (request : RpcRequest)
  /-- In `ReadResponeMessage`. -/
  | reading (call : Call Message)

inductive Label (Message : Type) where
  /-- `CallMethod` is called. -/
  | call (call : Call Message)
  /-- `Connect` returns. -/
  | connected (status : Status)
  /-- `WriteRequestMessage` returns; a failed write has not sent a whole frame. -/
  | wrote (status : Status)
  /-- `ReadResponeMessage` returns. -/
  | read (status : Status)
  /-- `SetConnectParameter`, between two calls. -/
  | setConnectParameter
  /-- `ReadRequestMessage` of the server returns a request. -/
  | serverRead (link : Nat)
  /-- `CallServiceMethod` returns. -/
  | serverCalled (link : Nat) (invocation : Invocation Message)
  /-- `WriteResponeMessage` of the server returns success. -/
  | serverWrote (link : Nat)
  /-- A read or write of the server fails, or its service is stopping. -/
  | serverClosed (link : Nat)

end RpcChannel

/-- A channel, its connections, and what its calls have done. -/
structure RpcChannel (Message : Type) where
  /-- `conn_`. -/
  conn : Option Nat := none
  stage : RpcChannel.Stage Message := .idle
  links : List RpcChannel.Link := []
  /-- The calls in the order in which they started. -/
  calls : List (RpcChannel.Call Message) := []
  /-- The calls whose controller was failed, with the reason. -/
  failed : List (Nat × Bytes) := []
  /-- The calls whose response was filled, with the reply and the parsed message. -/
  filled : List (Nat × RpcResponse × Message) := []
  /-- The calls whose `done` has run. -/
  done : List Nat := []
  /-- The replies that the server has computed, with the call and the request. -/
  computed : List (Nat × RpcRequest × RpcResponse) := []

namespace RpcChannel

open RpcServer

variable {Message : Type}

/-- The number of the call in progress. -/
def current (channel : RpcChannel Message) : Nat := channel.calls.length - 1

/-- `controller->SetFailed(reason)`. -/
def setFailed (channel : RpcChannel Message) (reason : Bytes) : RpcChannel Message :=
  { channel with failed := channel.failed ++ [(channel.current, reason)] }

/-- `done->Run()` and the return from `CallMethod`. -/
def runDone (channel : RpcChannel Message) : RpcChannel Message :=
  { channel with done := channel.done ++ [channel.current], stage := .idle }

/-- The end of `CallMethod` that every failure behind `Connect` reaches. -/
def giveUp (channel : RpcChannel Message) (status : Status) : RpcChannel Message :=
  let dropped := { channel with conn := none }
  match status with
  | .error _ text => (dropped.setFailed text).runDone
  | .ok => (dropped.setFailed (ascii "CallMethod SerializeToString failed")).runDone

/-- The part of `CallMethod` from the assertion of `conn_` to `WriteRequestMessage`. -/
def prepare (channel : RpcChannel Message) (call : Call Message) : RpcChannel Message :=
  match call.rpcRequest with
  | none => channel.giveUp .ok
  | some request => { channel with stage := .writing call request }

/-- `CallMethod` up to its first wait. -/
def start (channel : RpcChannel Message) (call : Call Message) : RpcChannel Message :=
  let entered := { channel with calls := channel.calls ++ [call] }
  match channel.conn with
  | none => { entered with stage := .connecting call }
  | some _ => entered.prepare call

/-- `CallMethod` after `Connect`. -/
def afterConnect (channel : RpcChannel Message) (call : Call Message) :
    Status → RpcChannel Message
  | .error _ text => (channel.setFailed text).runDone
  | .ok =>
      prepare { channel with conn := some channel.links.length, links := channel.links ++ [{}] } call

/-- `CallMethod` after a successful `ReadResponeMessage`. -/
def fill (channel : RpcChannel Message) (call : Call Message) (reply : RpcResponse) :
    RpcChannel Message :=
  match call.responsePrototype.parse reply.responseMessage with
  | some message =>
      { channel with filled := channel.filled ++ [(channel.current, reply, message)] }.runDone
  | none => channel.giveUp .ok

/-- Replace a connection. -/
def setLink (channel : RpcChannel Message) (k : Nat) (link : Link) : RpcChannel Message :=
  { channel with links := channel.links.set k link }

/-- A step of the channel. -/
def clientStep (channel : RpcChannel Message) : Label Message → Option (RpcChannel Message)
  | .call call =>
      match channel.stage with
      | .idle => some (channel.start call)
      | _ => none
  | .connected status =>
      match channel.stage with
      | .connecting call => some (channel.afterConnect call status)
      | _ => none
  | .wrote status =>
      match channel.stage, channel.conn with
      | .writing call request, some k =>
          match status, channel.links[k]? with
          | .error state text, _ => some (channel.giveUp (.error state text))
          | .ok, some link =>
              some
                { channel.setLink k
                    { link with requests := link.requests ++ [⟨channel.current, request⟩] } with
                  stage := .reading call }
          | .ok, none => none
      | _, _ => none
  | .read status =>
      match channel.stage, channel.conn with
      | .reading call, some k =>
          match status, channel.links[k]? with
          | .error state text, _ => some (channel.giveUp (.error state text))
          | .ok, some link =>
              match link.responses with
              | [] => none
              | reply :: later =>
                  some ((channel.setLink k { link with responses := later }).fill call reply.content)
          | .ok, none => none
      | _, _ => none
  | .setConnectParameter =>
      match channel.stage with
      | .idle => some { channel with conn := none }
      | _ => none
  | _ => none

/-- A step of the loop that serves a connection. -/
def serverStep (registry : Registry Message) (channel : RpcChannel Message) :
    Label Message → Option (RpcChannel Message)
  | .serverRead k =>
      match channel.links[k]? with
      | some ⟨request :: later, responses, .reading⟩ =>
          some (channel.setLink k ⟨later, responses, .calling request⟩)
      | _ => none
  | .serverCalled k invocation =>
      match channel.links[k]? with
      | some ⟨requests, responses, .calling request⟩ =>
          match answer registry request.content invocation with
          | .failed => some (channel.setLink k ⟨requests, responses, .closed⟩)
          | .unserialized => some (channel.setLink k ⟨requests, responses, .reading⟩)
          | .replied reply =>
              some
                { channel.setLink k ⟨requests, responses, .writing ⟨request.number, reply⟩⟩ with
                  computed := channel.computed ++ [(request.number, request.content, reply)] }
      | _ => none
  | .serverWrote k =>
      match channel.links[k]? with
      | some ⟨requests, responses, .writing response⟩ =>
          some (channel.setLink k ⟨requests, responses ++ [response], .reading⟩)
      | _ => none
  | .serverClosed k =>
      match channel.links[k]? with
      | some ⟨requests, responses, .reading⟩ =>
          some (channel.setLink k ⟨requests, responses, .closed⟩)
      | some ⟨requests, responses, .writing _⟩ =>
          some (channel.setLink k ⟨requests, responses, .closed⟩)
      | _ => none
  | _ => none

/-- A step of the channel or of the loop that serves one of its connections. -/
def step (registry : Registry Message) (channel : RpcChannel Message) (label : Label Message) :
    Option (RpcChannel Message) :=
  (channel.clientStep label).or (channel.serverStep registry label)

/-- A new channel, with a connection if one was passed to its constructor. -/
def initial (Message : Type) (connected : Bool) : RpcChannel Message :=
  if connected then { conn := some 0, links := [{}] } else {}

end RpcChannel

end Mcast
