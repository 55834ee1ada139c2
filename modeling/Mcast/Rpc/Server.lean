import Mathlib.Data.Fintype.Basic
import Mathlib.Logic.Function.Basic
import Mcast.Rpc.Codec
import Mcast.Transition

/-!
# The connection loops of `RpcServer`

Every connection of a server runs the loop of `RpcServer::Start` as a service of its own, and all of
them use the one `codec_` of the server.  A step of a connection is what its service does between
two kernel calls; the services interleave in any order.  While a service is inside `Read` or `Write`
it holds a pointer into the buffer of the codec, as the number of an allocation and an offset.  An
access through a pointer into an allocation that the buffer has left is undefined and has no
successor, as has the abort of the process by a failed `CHECK_LT`.
-/

namespace Mcast

namespace RpcServer

open DefaultRpcCodec

/-- Where the service of a connection stands in its loop. -/
inductive Stage (Request : Type) where
  /-- Before the test of `IsStopping`. -/
  | top
  /-- In `Read(&head, 3)`, with these bytes received. -/
  | head (bytes : Bytes)
  /-- In `Read(&buffer_[0], total)`, with `left` bytes missing. -/
  | payload (block total left : Nat)
  /-- In `CallServiceMethod`. -/
  | calling (request : Request)
  /-- In `Write(buffer_.data(), total)`, with `left` bytes missing. -/
  | writing (block total left : Nat)
  | closed
  deriving DecidableEq, Repr

/-- What a connection has received and sent, and whether its service is suspended or stopping. -/
structure Progress (Request Response : Type) where
  /-- The status of the wait for the socket in which the service is suspended. -/
  waiting : Option Status := none
  stopping : Bool := false
  /-- The requests decoded so far. -/
  requests : List Request := []
  /-- The responses passed to `WriteResponeMessage` so far. -/
  replies : List Response := []
  /-- The bytes sent so far. -/
  written : Bytes := []
  deriving DecidableEq, Repr

structure Connection (Request Response : Type) extends Progress Request Response where
  stage : Stage Request := .top
  deriving DecidableEq, Repr

/-- What the loop gets from `CallServiceMethod` and the serialization of its result. -/
inductive Called (Response : Type) where
  /-- The controller failed or there is no response. -/
  | failed
  /-- `SerializeToArray` failed. -/
  | unserialized
  | replied (response : Response)
  deriving DecidableEq, Repr

inductive Event (Response : Type) where
  /-- The test of `IsStopping`. -/
  | iterate
  | received (report : Kernel Bytes)
  | sent (report : Kernel Nat)
  /-- The wait for the socket returns. -/
  | woken
  | called (outcome : Called Response)
  /-- `StopService` sets the flag that `IsStopping` reads. -/
  | stop
  deriving DecidableEq, Repr

namespace Connection

variable {Request Response : Type}

/-- A read or write that fails ends the loop. -/
def close (connection : Connection Request Response) : Connection Request Response :=
  { connection with stage := .closed }

/-- The bytes that `Recv` stored reach the header. -/
def takeHead (buffer : Buffer) (connection : Connection Request Response) (bytes : Bytes) :
    Option (Buffer × Connection Request Response) :=
  if bytes.length < 3 then some (buffer, { connection with stage := .head bytes })
  else if bytes.length = 3 then
    match checkHead .request bytes with
    | .error _ _ => some (buffer, connection.close)
    | .ok =>
        let resized := buffer.resize (packLen bytes)
        some (resized,
          { connection with stage := .payload resized.block resized.size resized.size })
  else none

/-- `ParseFromArray` of the received payload. -/
def parsePayload (requests : Protobuf Request) (buffer : Buffer)
    (connection : Connection Request Response) : Connection Request Response :=
  match requests.parse buffer.content with
  | some request =>
      { connection with
        stage := .calling request
        requests := connection.requests ++ [request] }
  | none => connection.close

/-- `Recv` stores bytes through the pointer of a payload read. -/
def takePayload (requests : Protobuf Request) (buffer : Buffer)
    (connection : Connection Request Response) (block total left : Nat) (bytes : Bytes) :
    Option (Buffer × Connection Request Response) :=
  if bytes.length ≤ left ∧ block = buffer.block then
    let filled := buffer.store (total - left) bytes
    if left - bytes.length = 0 then some (filled, parsePayload requests filled connection)
    else some (filled, { connection with stage := .payload block total (left - bytes.length) })
  else none

/-- `Send` takes bytes through the pointer of a write. -/
def giveFrame (buffer : Buffer) (connection : Connection Request Response)
    (block total left count : Nat) : Option (Buffer × Connection Request Response) :=
  if count ≤ left ∧ block = buffer.block then
    let bytes := (buffer.memory.drop (total - left)).take count
    some (buffer,
      { connection with
        stage := if left - count = 0 then .top else .writing block total (left - count)
        written := connection.written ++ bytes })
  else none

/-- The branches after a kernel call that moved no bytes. -/
def stall {α : Type} (buffer : Buffer) (connection : Connection Request Response)
    (report : Kernel α) (outcome : Pass α) : Option (Buffer × Connection Request Response) :=
  match outcome with
  | .moved _ => none
  | .wait =>
      some (buffer, { connection with waiting := some (TcpConnection.waitStatus report) })
  | .retry => some (buffer, connection)
  | .leave _ => some (buffer, connection.close)

/-- The part of the loop after `CallServiceMethod`, up to the first `Send`. -/
def reply (responses : Protobuf Response) (buffer : Buffer)
    (connection : Connection Request Response) :
    Called Response → Option (Buffer × Connection Request Response)
  | .failed => some (buffer, connection.close)
  | .unserialized => some (buffer, { connection with stage := .top })
  | .replied response =>
      match assemble responses .response buffer response with
      | .aborted => none
      | .incomplete started => some (started, connection.close)
      | .frame assembled =>
          some (assembled,
            { connection with
              stage := .writing assembled.block assembled.size assembled.size
              replies := connection.replies ++ [response] })

/-- One step of the service of a connection that is not suspended. -/
def advance (requests : Protobuf Request) (responses : Protobuf Response) (buffer : Buffer)
    (connection : Connection Request Response) :
    Event Response → Option (Buffer × Connection Request Response)
  | .iterate =>
      match connection.stage with
      | .top =>
          some (buffer,
            { connection with stage := if connection.stopping then .closed else .head [] })
      | _ => none
  | .received report =>
      match connection.stage, TcpConnection.pass (Net.Tcp.recv report) with
      | .head bytes, .moved chunk => takeHead buffer connection (bytes ++ chunk)
      | .payload block total left, .moved chunk =>
          takePayload requests buffer connection block total left chunk
      | .head _, outcome => stall buffer connection report outcome
      | .payload _ _ _, outcome => stall buffer connection report outcome
      | _, _ => none
  | .sent report =>
      match connection.stage, TcpConnection.pass (Net.Tcp.send report) with
      | .writing block total left, .moved count =>
          giveFrame buffer connection block total left count
      | .writing _ _ _, outcome => stall buffer connection report outcome
      | _, _ => none
  | .called outcome =>
      match connection.stage with
      | .calling _ => reply responses buffer connection outcome
      | _ => none
  | .woken => none
  | .stop => some (buffer, { connection with stopping := true })

/-- One step of the service of a connection: a suspended service goes on when its wait returns, and
returns from its loop when the wait failed. -/
def step (requests : Protobuf Request) (responses : Protobuf Response) (buffer : Buffer)
    (connection : Connection Request Response) (event : Event Response) :
    Option (Buffer × Connection Request Response) :=
  match connection.waiting, event with
  | none, event => advance requests responses buffer connection event
  | some .ok, .woken => some (buffer, { connection with waiting := none })
  | some (.error _ _), .woken => some (buffer, { connection.close with waiting := none })
  | some _, .stop => some (buffer, { connection with stopping := true })
  | some _, _ => none

/-- The service is inside a payload read or a write, with a pointer into the buffer of the codec. -/
def usesBuffer (connection : Connection Request Response) : Bool :=
  match connection.stage with
  | .payload _ _ _ => true
  | .writing _ _ _ => true
  | _ => false

/-- The step resizes the buffer of the codec for a message of its own. -/
def claims (connection : Connection Request Response) (event : Event Response) : Bool :=
  match connection.stage, event with
  | .head bytes, .received (.returned chunk) =>
      bytes.length + chunk.length = 3 && checkHead .request (bytes ++ chunk) = .ok
  | .calling _, .called (.replied _) => true
  | _, _ => false

end Connection

end RpcServer

/-- A server with its codec and its connections, all of which start at the top of their loops. -/
structure RpcServer (count : Nat) (Request Response : Type) where
  /-- The buffer of `codec_`. -/
  buffer : Buffer := .empty
  connections : Fin count → RpcServer.Connection Request Response := fun _ => {}

namespace RpcServer

variable {count : Nat} {Request Response : Type}

/-- One step of the service of one connection. -/
def step (requests : Protobuf Request) (responses : Protobuf Response)
    (server : RpcServer count Request Response) (label : Fin count × Event Response) :
    Option (RpcServer count Request Response) :=
  (Connection.step requests responses server.buffer (server.connections label.1) label.2).map
    fun result =>
      { buffer := result.1, connections := Function.update server.connections label.1 result.2 }

/-- A connection does not resize the buffer of the codec while another one is inside a payload read
or a write. -/
def undisturbed (server : RpcServer count Request Response) (label : Fin count × Event Response) :
    Bool :=
  !(server.connections label.1).claims label.2 ||
    decide (∀ other, other ≠ label.1 → (server.connections other).usesBuffer = false)

end RpcServer

end Mcast
