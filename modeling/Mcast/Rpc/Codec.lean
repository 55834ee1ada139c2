import Mcast.Net.Connection

/-!
# The frames of `DefaultRpcCodec`

A frame is the message type, two length bytes and the serialized message.  The codec assembles and
receives frames in its member `buffer_`.  The buffer is modelled with its storage: the bytes of its
allocation, its size, and the number of the allocation, which changes when the string outgrows its
capacity and tells a pointer into the present allocation from a dangling one.

The generated protobuf classes enter as a pair of functions per message type.
-/

namespace Mcast

/-- `SerializeToString` and `AppendToString` of a generated message class, with no value where they
return false, and `ParseFromArray`. -/
structure Protobuf (Message : Type) where
  serialize : Message → Option Bytes
  parse : Bytes → Option Message

namespace Protobuf

/-- Parsing inverts serialization, and a truncated serialization does not parse to the same
message. -/
structure Lawful {Message : Type} (proto : Protobuf Message) : Prop where
  parse_serialize : ∀ message bytes, proto.serialize message = some bytes →
    proto.parse bytes = some message
  not_parse_truncated : ∀ message bytes kept, proto.serialize message = some bytes →
    kept < bytes.length → proto.parse (bytes.take kept) ≠ some message

end Protobuf

/-- The `std::string` in which a codec keeps a frame.  The last byte of the storage holds the
terminator of a string that fills its capacity. -/
structure Buffer where
  memory : Bytes
  size : Nat
  /-- The number of the allocation. -/
  block : Nat
  bounded : size < memory.length
  deriving DecidableEq

namespace Buffer

/-- The characters of the string. -/
def content (buffer : Buffer) : Bytes := buffer.memory.take buffer.size

@[simp] theorem content_length (buffer : Buffer) : buffer.content.length = buffer.size := by
  rw [content, List.length_take, Nat.min_eq_left (Nat.le_of_lt buffer.bounded)]

/-- The default constructed string, with the fifteen characters that fit in the object itself. -/
def empty : Buffer :=
  { memory := List.replicate 16 0, size := 0, block := 0, bounded := by simp }

/-- Store bytes through a pointer into the present allocation; a store past its end is undefined and
never happens. -/
def store (buffer : Buffer) (offset : Nat) (bytes : Bytes) : Buffer :=
  if inside : offset + bytes.length ≤ buffer.memory.length then
    { buffer with
      memory := overwrite buffer.memory offset bytes
      bounded := by
        rw [overwrite_length inside]
        exact buffer.bounded }
  else buffer

@[simp] theorem store_size (buffer : Buffer) (offset : Nat) (bytes : Bytes) :
    (buffer.store offset bytes).size = buffer.size := by
  unfold store
  split <;> rfl

@[simp] theorem store_block (buffer : Buffer) (offset : Nat) (bytes : Bytes) :
    (buffer.store offset bytes).block = buffer.block := by
  unfold store
  split <;> rfl

theorem store_memory {buffer : Buffer} {offset : Nat} {bytes : Bytes}
    (inside : offset + bytes.length ≤ buffer.memory.length) :
    (buffer.store offset bytes).memory = overwrite buffer.memory offset bytes := by
  rw [store, dif_pos inside]

/-- `resize`: new characters are zero, the terminator is stored after the last character, and a
string that outgrows its capacity moves to an allocation of at least twice the capacity. -/
def resize (buffer : Buffer) (size : Nat) : Buffer :=
  if fits : size < buffer.memory.length then
    if longer : buffer.size < size then
      { buffer with
        memory := overwrite buffer.memory buffer.size
          (List.replicate (size + 1 - buffer.size) 0)
        size
        bounded := by
          rw [overwrite_length]
          · exact fits
          · rw [List.length_replicate]
            omega }
    else if size < buffer.size then
      { buffer with
        memory := overwrite buffer.memory size [0]
        size
        bounded := by
          rw [overwrite_length]
          · exact fits
          · exact fits }
    else buffer
  else
    { memory := buffer.content ++
        List.replicate (max size (2 * (buffer.memory.length - 1)) + 1 - buffer.size) 0
      size
      block := buffer.block + 1
      bounded := by
        have bounded := buffer.bounded
        rw [List.length_append, content_length, List.length_replicate]
        omega }

@[simp] theorem resize_size (buffer : Buffer) (size : Nat) : (buffer.resize size).size = size := by
  unfold resize
  split_ifs <;> first | rfl | omega

theorem resize_content_take {buffer : Buffer} {size kept : Nat} (shorter : kept ≤ size)
    (present : kept ≤ buffer.size) :
    (buffer.resize size).memory.take kept = buffer.memory.take kept := by
  have bounded := buffer.bounded
  unfold resize
  split_ifs
  · exact overwrite_take_left present (Nat.le_of_lt bounded)
  · exact overwrite_take_left shorter (by omega)
  · rfl
  · rw [List.take_append_of_le_length (by rw [content_length]; exact present), content,
      List.take_take, Nat.min_eq_left present]

theorem store_content {buffer : Buffer} {bytes : Bytes} (inside : bytes.length ≤ buffer.size) :
    (buffer.store 0 bytes).content = bytes ++ buffer.content.drop bytes.length := by
  have bounded := buffer.bounded
  rw [content, store_size, store_memory (by omega), overwrite, List.take_zero, List.nil_append,
    List.take_append, List.take_of_length_le inside, content, List.drop_take, Nat.zero_add]

/-- `AppendToString` of a message with these bytes. -/
def append (buffer : Buffer) (bytes : Bytes) : Buffer :=
  (buffer.resize (buffer.size + bytes.length)).store buffer.size bytes

@[simp] theorem append_size (buffer : Buffer) (bytes : Bytes) :
    (buffer.append bytes).size = buffer.size + bytes.length := by
  rw [append, store_size, resize_size]

theorem append_content (buffer : Buffer) (bytes : Bytes) :
    (buffer.append bytes).content = buffer.content ++ bytes := by
  have bounded := (buffer.resize (buffer.size + bytes.length)).bounded
  rw [resize_size] at bounded
  rw [content, append_size, append, store_memory (Nat.le_of_lt bounded),
    overwrite_take_through (by omega), resize_content_take (by omega) (Nat.le_refl _)]
  rfl

end Buffer

/-- `RpcCodec::MessageType`. -/
inductive RpcCodec.MessageType where
  | invaild | request | response
  deriving DecidableEq, Repr

/-- The value of the enumerator, as the first byte of a frame. -/
def RpcCodec.MessageType.code : RpcCodec.MessageType → UInt8
  | invaild => 0
  | request => 1
  | response => 2

namespace DefaultRpcCodec

/-- The value of a little-endian word whose low bytes are these. -/
def littleEndian : Bytes → Nat
  | [] => 0
  | byte :: bytes => byte.toNat + 256 * littleEndian bytes

/-- `pack_len` of a header. -/
def packLen (head : Bytes) : Nat := (littleEndian head >>> 8) &&& 0xFFFF

/-- The checks that the read functions make on the header. -/
def checkHead (type : RpcCodec.MessageType) (head : Bytes) : Status :=
  if littleEndian head &&& 0xFF ≠ type.code.toNat then
    .error .invailArgument (ascii "Message type error")
  else if packLen head = 0 then .error .invailArgument (ascii " Message length error")
  else .ok

/-- A call of a read function: its status and message once it returns. -/
structure Reading (Message : Type) where
  status : Option Status
  message : Option Message := none
  buffer : Buffer
  queue : List (Kernel Bytes)

/-- The body shared by `ReadRequestMessage` and `ReadResponeMessage`. -/
def readMessage {Message : Type} (proto : Protobuf Message) (type : RpcCodec.MessageType)
    (buffer : Buffer) (queue : List (Kernel Bytes)) : Reading Message :=
  let head := TcpConnection.read 3 queue
  if head.status = some .ok then
    match checkHead type head.bytes with
    | .error state text => { status := some (.error state text), buffer, queue := head.queue }
    | .ok =>
        let resized := buffer.resize (packLen head.bytes)
        let payload := TcpConnection.read resized.size head.queue
        let filled := resized.store 0 payload.bytes
        if payload.status = some .ok then
          match proto.parse filled.content with
          | some message =>
              { status := some .ok, message := some message, buffer := filled,
                queue := payload.queue }
          | none =>
              { status := some (.error .failed (ascii "ParseFromArray failed"))
                buffer := filled
                queue := payload.queue }
        else { status := payload.status, buffer := filled, queue := payload.queue }
  else { status := head.status, buffer, queue := head.queue }

def readRequestMessage {Request : Type} (proto : Protobuf Request) :
    Buffer → List (Kernel Bytes) → Reading Request :=
  readMessage proto .request

def readResponeMessage {Response : Type} (proto : Protobuf Response) :
    Buffer → List (Kernel Bytes) → Reading Response :=
  readMessage proto .response

/-- The header that `WriteMessage` stores before a payload of this length. -/
def header (type : RpcCodec.MessageType) (length : Nat) : Bytes :=
  [type.code, UInt8.ofNat (length &&& 0xFF), UInt8.ofNat ((length >>> 16) &&& 0xFF)]

/-- The frame of a serialized message. -/
def frame (type : RpcCodec.MessageType) (payload : Bytes) : Bytes :=
  header type payload.length ++ payload

/-- The frame of a message that can be serialized. -/
def frameOf {Message : Type} (proto : Protobuf Message) (type : RpcCodec.MessageType)
    (message : Message) : Bytes :=
  match proto.serialize message with
  | some payload => frame type payload
  | none => []

theorem frameOf_of_serialize {Message : Type} {proto : Protobuf Message} {type : RpcCodec.MessageType}
    {message : Message} {payload : Bytes} (serialized : proto.serialize message = some payload) :
    frameOf proto type message = frame type payload := by
  rw [frameOf, serialized]

/-- What `WriteMessage` does before it writes to the connection. -/
inductive Assembly where
  | frame (buffer : Buffer)
  /-- `AppendToString` failed. -/
  | incomplete (buffer : Buffer)
  /-- `CHECK_LT(pack_len, 0xFFFF)` ended the process. -/
  | aborted
  deriving DecidableEq

def assemble {Message : Type} (proto : Protobuf Message) (type : RpcCodec.MessageType)
    (buffer : Buffer) (message : Message) : Assembly :=
  let started := (buffer.resize 3).store 0 [type.code]
  match proto.serialize message with
  | none => .incomplete started
  | some payload =>
      let appended := started.append payload
      let length := appended.size - 3
      if length < 0xFFFF then .frame (appended.store 0 (header type length)) else .aborted

/-- The buffer of a completed assembly holds the frame of the message. -/
theorem assemble_eq_frame {Message : Type} {proto : Protobuf Message} {type : RpcCodec.MessageType}
    {buffer assembled : Buffer} {message : Message}
    (complete : assemble proto type buffer message = .frame assembled) :
    assembled.content = frameOf proto type message := by
  unfold assemble at complete
  split at complete
  · simp at complete
  · next payload serialized =>
      simp only [Buffer.append_size, Buffer.store_size, Buffer.resize_size,
        Nat.add_sub_cancel_left] at complete
      split_ifs at complete with short
      obtain rfl := Assembly.frame.inj complete
      rw [Buffer.store_content (by simp [header]), Buffer.append_content,
        frameOf_of_serialize serialized, frame]
      rw [List.drop_append, List.drop_eq_nil_of_le (by simp [header])]
      simp [header]

theorem assemble_of_serialize {Message : Type} {proto : Protobuf Message}
    {type : RpcCodec.MessageType} {message : Message} {payload : Bytes} (buffer : Buffer)
    (serialized : proto.serialize message = some payload) (short : payload.length < 0xFFFF) :
    ∃ assembled, assemble proto type buffer message = .frame assembled := by
  unfold assemble
  simp [serialized, short]

/-- A call of a write function: its status once it returns, the bytes sent, and whether the process
was ended. -/
structure Writing where
  status : Option Status
  aborted : Bool := false
  sent : Bytes := []
  buffer : Buffer
  queue : List (Kernel Nat)

def writeMessage {Message : Type} (proto : Protobuf Message) (type : RpcCodec.MessageType)
    (buffer : Buffer) (message : Message) (queue : List (Kernel Nat)) : Writing :=
  match assemble proto type buffer message with
  | .aborted => { status := none, aborted := true, buffer, queue }
  | .incomplete started =>
      { status := some (.error .failed (ascii "AppendToString failed")), buffer := started, queue }
  | .frame assembled =>
      let transfer := TcpConnection.write assembled.content queue
      { status := transfer.status, sent := transfer.bytes, buffer := assembled,
        queue := transfer.queue }

/-- A write that returns success has sent the frame of its message. -/
theorem writeMessage_sent {Message : Type} {proto : Protobuf Message} {type : RpcCodec.MessageType}
    {buffer : Buffer} {message : Message} {queue : List (Kernel Nat)}
    (success : (writeMessage proto type buffer message queue).status = some .ok) :
    (writeMessage proto type buffer message queue).sent = frameOf proto type message := by
  unfold writeMessage at success ⊢
  split at success
  · simp at success
  · simp at success
  · next assembled complete =>
      rw [← assemble_eq_frame complete]
      exact TcpConnection.write_complete assembled.content queue success

def writeRequestMessage {Request : Type} (proto : Protobuf Request) :
    Buffer → Request → List (Kernel Nat) → Writing :=
  writeMessage proto .request

def writeResponeMessage {Response : Type} (proto : Protobuf Response) :
    Buffer → Response → List (Kernel Nat) → Writing :=
  writeMessage proto .response

end DefaultRpcCodec

end Mcast
