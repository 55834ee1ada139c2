import Mathlib.Data.Option.Basic
import Mcast.Rpc.Server

/-!
# A connection with frames of its own

A session serves one connection without a shared buffer: it keeps the payload bytes received so far
and the bytes of the reply not yet sent.  This file shows that a connection whose part of the buffer
of the codec is intact takes the steps of its session, and that a session writes the frames of its
responses.
-/

namespace Mcast.RpcServer

open DefaultRpcCodec

/-- Where a session stands in its loop. -/
inductive Phase (Request : Type) where
  | top
  | head (bytes : Bytes)
  | payload (total : Nat) (bytes : Bytes)
  | calling (request : Request)
  | writing (left : Bytes)
  | closed

structure Session (Request Response : Type) extends Progress Request Response where
  phase : Phase Request := .top

namespace Session

variable {Request Response : Type}

def close (session : Session Request Response) : Session Request Response :=
  { session with phase := .closed }

def takeHead (session : Session Request Response) (bytes : Bytes) :
    Option (Session Request Response) :=
  if bytes.length < 3 then some { session with phase := .head bytes }
  else if bytes.length = 3 then
    match checkHead .request bytes with
    | .error _ _ => some session.close
    | .ok => some { session with phase := .payload (packLen bytes) [] }
  else none

def parsePayload (requests : Protobuf Request) (session : Session Request Response)
    (bytes : Bytes) : Session Request Response :=
  match requests.parse bytes with
  | some request =>
      { session with phase := .calling request, requests := session.requests ++ [request] }
  | none => session.close

def takePayload (requests : Protobuf Request) (session : Session Request Response) (total : Nat)
    (bytes : Bytes) : Option (Session Request Response) :=
  if bytes.length ≤ total then
    if bytes.length = total then some (parsePayload requests session bytes)
    else some { session with phase := .payload total bytes }
  else none

def giveFrame (session : Session Request Response) (left : Bytes) (count : Nat) :
    Option (Session Request Response) :=
  if count ≤ left.length then
    some
      { session with
        phase := if left.drop count = [] then .top else .writing (left.drop count)
        written := session.written ++ left.take count }
  else none

def stall {α : Type} (session : Session Request Response) (report : Kernel α) :
    Pass α → Option (Session Request Response)
  | .moved _ => none
  | .wait => some { session with waiting := some (TcpConnection.waitStatus report) }
  | .retry => some session
  | .leave _ => some session.close

def reply (responses : Protobuf Response) (session : Session Request Response) :
    Called Response → Option (Session Request Response)
  | .failed => some session.close
  | .unserialized => some { session with phase := .top }
  | .replied response =>
      match responses.serialize response with
      | none => some session.close
      | some payload =>
          if payload.length < 0xFFFF then
            some
              { session with
                phase := .writing (frame .response payload)
                replies := session.replies ++ [response] }
          else none

def advance (requests : Protobuf Request) (responses : Protobuf Response)
    (session : Session Request Response) : Event Response → Option (Session Request Response)
  | .iterate =>
      match session.phase with
      | .top => some { session with phase := if session.stopping then .closed else .head [] }
      | _ => none
  | .received report =>
      match session.phase, TcpConnection.pass (Net.Tcp.recv report) with
      | .head bytes, .moved chunk => takeHead session (bytes ++ chunk)
      | .payload total bytes, .moved chunk => takePayload requests session total (bytes ++ chunk)
      | .head _, outcome => stall session report outcome
      | .payload _ _, outcome => stall session report outcome
      | _, _ => none
  | .sent report =>
      match session.phase, TcpConnection.pass (Net.Tcp.send report) with
      | .writing left, .moved count => giveFrame session left count
      | .writing _, outcome => stall session report outcome
      | _, _ => none
  | .called outcome =>
      match session.phase with
      | .calling _ => reply responses session outcome
      | _ => none
  | .woken => none
  | .stop => some { session with stopping := true }

/-- One step of a session. -/
def step (requests : Protobuf Request) (responses : Protobuf Response)
    (session : Session Request Response) (event : Event Response) :
    Option (Session Request Response) :=
  match session.waiting, event with
  | none, event => advance requests responses session event
  | some .ok, .woken => some { session with waiting := none }
  | some (.error _ _), .woken => some { session.close with waiting := none }
  | some _, .stop => some { session with stopping := true }
  | some _, _ => none

end Session

/-- The buffer holds what a connection at this stage has received or has still to send. -/
inductive Placed {Request : Type} (buffer : Buffer) : Stage Request → Phase Request → Prop where
  | top : Placed buffer .top .top
  | head (bytes : Bytes) : Placed buffer (.head bytes) (.head bytes)
  | payload {block total left : Nat} {bytes : Bytes} (valid : block = buffer.block)
      (size : buffer.size = total) (missing : 0 < left) (sum : bytes.length + left = total)
      (stored : buffer.memory.take bytes.length = bytes) :
      Placed buffer (.payload block total left) (.payload total bytes)
  | calling (request : Request) : Placed buffer (.calling request) (.calling request)
  | writing {block total left : Nat} {rest : Bytes} (valid : block = buffer.block)
      (length : left = rest.length) (missing : 0 < left) (inside : left ≤ total)
      (stored : (buffer.memory.drop (total - left)).take left = rest) :
      Placed buffer (.writing block total left) (.writing rest)
  | closed : Placed buffer .closed .closed

/-- A connection, with the buffer of its codec, behaves like a session. -/
structure Linked {Request Response : Type} (buffer : Buffer)
    (connection : Connection Request Response) (session : Session Request Response) : Prop where
  progress : connection.toProgress = session.toProgress
  placed : Placed buffer connection.stage session.phase

/-- Both steps are disabled, or both are enabled and lead to linked states. -/
def Agree {Request Response : Type} (concrete : Option (Buffer × Connection Request Response))
    (abstract : Option (Session Request Response)) : Prop :=
  Option.Rel (fun result session => Linked result.1 result.2 session) concrete abstract

section Simulation

variable {Request Response : Type} {buffer : Buffer} {progress : Progress Request Response}

theorem packLen_pos {bytes : Bytes} {type : RpcCodec.MessageType}
    (accepted : checkHead type bytes = .ok) : 0 < packLen bytes := by
  unfold checkHead at accepted
  split_ifs at accepted with wrong empty
  exact Nat.pos_of_ne_zero empty

theorem agree_takeHead (bytes : Bytes) (stage : Stage Request) (phase : Phase Request) :
    Agree (Connection.takeHead buffer { progress with stage } bytes)
      (Session.takeHead { progress with phase } bytes) := by
  unfold Connection.takeHead Session.takeHead
  split_ifs with short whole
  · exact .some ⟨rfl, .head bytes⟩
  · cases checked : checkHead .request bytes with
    | error state text => exact .some ⟨rfl, .closed⟩
    | ok =>
        have size := Buffer.resize_size buffer (packLen bytes)
        refine .some ⟨rfl, ?_⟩
        simp only [size]
        exact .payload rfl size (packLen_pos checked) (Nat.zero_add _) rfl
  · exact .none

theorem linked_parsePayload (requests : Protobuf Request) (stage : Stage Request)
    (phase : Phase Request) :
    Linked buffer (Connection.parsePayload requests buffer { progress with stage })
      (Session.parsePayload requests { progress with phase } buffer.content) := by
  unfold Connection.parsePayload Session.parsePayload
  cases requests.parse buffer.content with
  | none => exact ⟨rfl, .closed⟩
  | some request => exact ⟨rfl, .calling request⟩

theorem agree_takePayload (requests : Protobuf Request) {block total left : Nat} {bytes : Bytes}
    (chunk : Bytes) (stage : Stage Request) (phase : Phase Request) (valid : block = buffer.block)
    (size : buffer.size = total) (sum : bytes.length + left = total)
    (stored : buffer.memory.take bytes.length = bytes) :
    Agree (Connection.takePayload requests buffer { progress with stage } block total left chunk)
      (Session.takePayload requests { progress with phase } total (bytes ++ chunk)) := by
  have bounded := buffer.bounded
  unfold Connection.takePayload Session.takePayload
  simp only [List.length_append, valid, and_true]
  by_cases fits : chunk.length ≤ left
  · have offset : total - left = bytes.length := by omega
    have inside : bytes.length + chunk.length ≤ buffer.memory.length := by omega
    have filled : (buffer.store bytes.length chunk).memory.take (bytes.length + chunk.length) =
        bytes ++ chunk := by
      rw [Buffer.store_memory inside, overwrite_take_through (by omega), stored]
    have within : bytes.length + chunk.length ≤ total := by omega
    rw [if_pos fits, if_pos within, offset]
    by_cases complete : bytes.length + chunk.length = total
    · have finished : left - chunk.length = 0 := by omega
      rw [if_pos finished, if_pos complete]
      have content : (buffer.store bytes.length chunk).content = bytes ++ chunk := by
        rw [Buffer.content, Buffer.store_size, size, ← complete, filled]
      rw [← content]
      exact .some (linked_parsePayload requests stage phase)
    · have unfinished : ¬ left - chunk.length = 0 := by omega
      rw [if_neg unfinished, if_neg complete]
      exact .some ⟨rfl, .payload (by simp) (by simpa using size) (by omega)
        (by rw [List.length_append]; omega) (by rw [List.length_append]; exact filled)⟩
  · have beyond : ¬ bytes.length + chunk.length ≤ total := by omega
    rw [if_neg fits, if_neg beyond]
    exact .none

theorem agree_giveFrame {block total left : Nat} {rest : Bytes} (count : Nat)
    (stage : Stage Request) (phase : Phase Request) (valid : block = buffer.block)
    (length : left = rest.length) (inside : left ≤ total)
    (stored : (buffer.memory.drop (total - left)).take left = rest) :
    Agree (Connection.giveFrame buffer { progress with stage } block total left count)
      (Session.giveFrame { progress with phase } rest count) := by
  unfold Connection.giveFrame Session.giveFrame
  simp only [valid, and_true, ← length]
  by_cases fits : count ≤ left
  · have sent : (buffer.memory.drop (total - left)).take count = rest.take count := by
      rw [← stored, List.take_take, Nat.min_eq_left fits]
    have unsent : (buffer.memory.drop (total - (left - count))).take (left - count) =
        rest.drop count := by
      rw [← stored, List.drop_take, List.drop_drop]
      congr 2
      omega
    rw [if_pos fits, if_pos fits, sent]
    have done : rest.drop count = [] ↔ left - count = 0 := by
      rw [List.drop_eq_nil_iff]
      omega
    by_cases complete : left - count = 0
    · rw [if_pos complete, if_pos (done.mpr complete)]
      exact .some ⟨rfl, .top⟩
    · rw [if_neg complete, if_neg fun empty => complete (done.mp empty)]
      exact .some ⟨rfl, .writing rfl (by rw [List.length_drop, length]) (by omega) (by omega) unsent⟩
  · rw [if_neg fits, if_neg fits]
    exact .none

theorem agree_stall {α : Type} {stage : Stage Request} {phase : Phase Request}
    (placed : Placed buffer stage phase) (report : Kernel α) (outcome : Pass α) :
    Agree (Connection.stall buffer { progress with stage } report outcome)
      (Session.stall { progress with phase } report outcome) := by
  cases outcome with
  | moved amount => exact .none
  | wait => exact .some ⟨rfl, placed⟩
  | retry => exact .some ⟨rfl, placed⟩
  | leave status => exact .some ⟨rfl, .closed⟩

theorem assemble_eq_aborted {Message : Type} {proto : Protobuf Message} {type : RpcCodec.MessageType}
    {message : Message} {payload : Bytes} (serialized : proto.serialize message = some payload)
    (long : ¬ payload.length < 0xFFFF) : assemble proto type buffer message = .aborted := by
  unfold assemble
  simp [serialized, long]

theorem agree_reply (responses : Protobuf Response) (outcome : Called Response)
    (stage : Stage Request) (phase : Phase Request) :
    Agree (Connection.reply responses buffer { progress with stage } outcome)
      (Session.reply responses { progress with phase } outcome) := by
  cases outcome with
  | failed => exact .some ⟨rfl, .closed⟩
  | unserialized => exact .some ⟨rfl, .top⟩
  | replied response =>
      simp only [Connection.reply, Session.reply]
      cases serialized : responses.serialize response with
      | none =>
          have incomplete : ∃ started,
              assemble responses .response buffer response = .incomplete started := by
            unfold assemble
            simp [serialized]
          obtain ⟨started, incomplete⟩ := incomplete
          rw [incomplete]
          exact .some ⟨rfl, .closed⟩
      | some payload =>
          by_cases short : payload.length < 0xFFFF
          · obtain ⟨assembled, complete⟩ := assemble_of_serialize buffer serialized short
            have content := assemble_eq_frame complete
            rw [frameOf_of_serialize serialized] at content
            have size : assembled.size = (frame .response payload).length := by
              rw [← content, Buffer.content_length]
            rw [complete]
            simp only [if_pos short]
            refine .some ⟨rfl, .writing rfl size ?_ (Nat.le_refl _) ?_⟩
            · rw [size, frame, List.length_append]
              exact Nat.add_pos_left (by decide : 0 < 3) _
            · rw [Nat.sub_self, List.drop_zero]
              exact content
          · rw [assemble_eq_aborted serialized short]
            simp only [if_neg short]
            exact .none

/-- A connection and its session take the same steps. -/
theorem agree_advance (requests : Protobuf Request) (responses : Protobuf Response)
    {stage : Stage Request} {phase : Phase Request} (placed : Placed buffer stage phase)
    (event : Event Response) :
    Agree (Connection.advance requests responses buffer { progress with stage } event)
      (Session.advance requests responses { progress with phase } event) := by
  cases event with
  | iterate =>
      cases placed with
      | top =>
          simp only [Connection.advance, Session.advance]
          split_ifs
          · exact .some ⟨rfl, .closed⟩
          · exact .some ⟨rfl, .head []⟩
      | _ => exact .none
  | received report =>
      simp only [Connection.advance, Session.advance]
      cases placed with
      | head bytes =>
          cases outcome : TcpConnection.pass (Net.Tcp.recv report) with
          | moved chunk => exact agree_takeHead (bytes ++ chunk) _ _
          | _ => exact agree_stall (.head bytes) report _
      | payload valid size missing sum stored =>
          cases outcome : TcpConnection.pass (Net.Tcp.recv report) with
          | moved chunk => exact agree_takePayload requests chunk _ _ valid size sum stored
          | _ => exact agree_stall (.payload valid size missing sum stored) report _
      | _ => exact .none
  | sent report =>
      simp only [Connection.advance, Session.advance]
      cases placed with
      | writing valid length missing inside stored =>
          cases outcome : TcpConnection.pass (Net.Tcp.send report) with
          | moved count => exact agree_giveFrame count _ _ valid length inside stored
          | _ => exact agree_stall (.writing valid length missing inside stored) report _
      | _ => exact .none
  | woken => exact .none
  | called outcome =>
      cases placed with
      | calling request => exact agree_reply responses outcome _ _
      | _ => exact .none
  | stop => exact .some ⟨rfl, placed⟩

theorem agree_step (requests : Protobuf Request) (responses : Protobuf Response)
    {connection : Connection Request Response} {session : Session Request Response}
    (linked : Linked buffer connection session) (event : Event Response) :
    Agree (Connection.step requests responses buffer connection event)
      (Session.step requests responses session event) := by
  obtain ⟨progress, stage⟩ := connection
  obtain ⟨same, phase⟩ := session
  obtain ⟨equal, placed⟩ := linked
  obtain rfl : progress = same := equal
  simp only [Connection.step, Session.step]
  rcases waiting : progress.waiting with _ | _ | ⟨state, text⟩
  · exact agree_advance requests responses placed event
  · cases event with
    | woken => exact .some ⟨rfl, placed⟩
    | stop => exact .some ⟨rfl, placed⟩
    | _ => exact .none
  · cases event with
    | woken => exact .some ⟨rfl, .closed⟩
    | stop => exact .some ⟨rfl, placed⟩
    | _ => exact .none

end Simulation

section Frames

variable {Request Response : Type} {requests : Protobuf Request} {responses : Protobuf Response}

/-- The frames of the responses that a connection has been given to write. -/
def Progress.frames (responses : Protobuf Response) (progress : Progress Request Response) : Bytes :=
  progress.replies.flatMap (frameOf responses .response)

/-- A session has written the frames of its responses, up to the bytes that it has still to send. -/
def Session.Framed (responses : Protobuf Response) (session : Session Request Response) : Prop :=
  match session.phase with
  | .writing left => session.written ++ left = session.frames responses
  | .closed => session.written <+: session.frames responses
  | _ => session.written = session.frames responses

theorem Session.Framed.isPrefix {session : Session Request Response}
    (framed : session.Framed responses) : session.written <+: session.frames responses := by
  obtain ⟨progress, phase⟩ := session
  cases phase with
  | writing left => exact ⟨left, framed⟩
  | closed => exact framed
  | _ => exact ⟨[], (List.append_nil _).trans framed⟩

theorem Session.Framed.close {session : Session Request Response}
    (framed : session.Framed responses) : session.close.Framed responses := framed.isPrefix

theorem Session.Framed.stall {α : Type} {session next : Session Request Response}
    {report : Kernel α} {outcome : Pass α} (framed : session.Framed responses)
    (stepped : Session.stall session report outcome = some next) : next.Framed responses := by
  cases outcome with
  | moved amount => simp [Session.stall] at stepped
  | wait =>
      obtain rfl := Option.some.inj stepped
      exact framed
  | retry =>
      obtain rfl := Option.some.inj stepped
      exact framed
  | leave status =>
      obtain rfl := Option.some.inj stepped
      exact framed.close

theorem Session.Framed.takeHead {progress : Progress Request Response}
    {next : Session Request Response} {bytes received : Bytes}
    (framed : Session.Framed responses { progress with phase := .head received })
    (stepped : Session.takeHead { progress with phase := .head received } bytes = some next) :
    next.Framed responses := by
  unfold Session.takeHead at stepped
  split_ifs at stepped
  · obtain rfl := Option.some.inj stepped
    exact framed
  · cases checked : checkHead .request bytes with
    | ok =>
        rw [checked] at stepped
        obtain rfl := Option.some.inj stepped
        exact framed
    | error state text =>
        rw [checked] at stepped
        obtain rfl := Option.some.inj stepped
        exact framed.close

theorem Session.Framed.takePayload {progress : Progress Request Response}
    {next : Session Request Response} {total : Nat} {bytes received : Bytes}
    (framed : Session.Framed responses { progress with phase := .payload total received })
    (stepped : Session.takePayload requests { progress with phase := .payload total received } total
      bytes = some next) : next.Framed responses := by
  unfold Session.takePayload at stepped
  split_ifs at stepped
  · obtain rfl := Option.some.inj stepped
    unfold Session.parsePayload
    cases requests.parse bytes with
    | none => exact framed.close
    | some request => exact framed
  · obtain rfl := Option.some.inj stepped
    exact framed

theorem Session.Framed.giveFrame {progress : Progress Request Response}
    {next : Session Request Response} {left : Bytes} {amount : Nat}
    (framed : Session.Framed responses { progress with phase := .writing left })
    (stepped : Session.giveFrame { progress with phase := .writing left } left amount = some next) :
    next.Framed responses := by
  have whole : progress.written ++ left = progress.frames responses := framed
  unfold Session.giveFrame at stepped
  split_ifs at stepped with within done
  · obtain rfl := Option.some.inj stepped
    change progress.written ++ left.take amount = progress.frames responses
    rw [← whole, List.take_of_length_le (List.drop_eq_nil_iff.mp done)]
  · obtain rfl := Option.some.inj stepped
    change progress.written ++ left.take amount ++ left.drop amount = progress.frames responses
    rw [List.append_assoc, List.take_append_drop, whole]

theorem Session.Framed.reply {progress : Progress Request Response}
    {next : Session Request Response} {request : Request} {outcome : Called Response}
    (framed : Session.Framed responses { progress with phase := .calling request })
    (stepped : Session.reply responses { progress with phase := .calling request } outcome =
      some next) : next.Framed responses := by
  have whole : progress.written = progress.frames responses := framed
  cases outcome with
  | failed =>
      obtain rfl := Option.some.inj stepped
      exact framed.close
  | unserialized =>
      obtain rfl := Option.some.inj stepped
      exact framed
  | replied response =>
      simp only [Session.reply] at stepped
      cases serialized : responses.serialize response with
      | none =>
          rw [serialized] at stepped
          obtain rfl := Option.some.inj stepped
          exact framed.close
      | some payload =>
          rw [serialized] at stepped
          simp only [Option.ite_none_right_eq_some, Option.some.injEq] at stepped
          obtain ⟨-, rfl⟩ := stepped
          change progress.written ++ frame .response payload =
            (progress.replies ++ [response]).flatMap (frameOf responses .response)
          rw [whole, List.flatMap_append, List.flatMap_singleton, frameOf_of_serialize serialized]
          rfl

theorem Session.Framed.advance {session next : Session Request Response} {event : Event Response}
    (framed : session.Framed responses)
    (stepped : Session.advance requests responses session event = some next) :
    next.Framed responses := by
  obtain ⟨progress, phase⟩ := session
  cases event with
  | iterate =>
      cases phase with
      | top =>
          obtain rfl := Option.some.inj stepped
          cases progress.stopping with
          | false =>
              simp only [Bool.false_eq_true, if_false]
              exact framed
          | true =>
              simp only [if_true]
              exact framed.close
      | _ => simp [Session.advance] at stepped
  | received report =>
      cases phase with
      | head bytes =>
          simp only [Session.advance] at stepped
          cases outcome : TcpConnection.pass (Net.Tcp.recv report) with
          | moved chunk =>
              rw [outcome] at stepped
              exact framed.takeHead stepped
          | _ =>
              rw [outcome] at stepped
              exact framed.stall stepped
      | payload total bytes =>
          simp only [Session.advance] at stepped
          cases outcome : TcpConnection.pass (Net.Tcp.recv report) with
          | moved chunk =>
              rw [outcome] at stepped
              exact framed.takePayload stepped
          | _ =>
              rw [outcome] at stepped
              exact framed.stall stepped
      | _ => simp [Session.advance] at stepped
  | sent report =>
      cases phase with
      | writing left =>
          simp only [Session.advance] at stepped
          cases outcome : TcpConnection.pass (Net.Tcp.send report) with
          | moved amount =>
              rw [outcome] at stepped
              exact framed.giveFrame stepped
          | _ =>
              rw [outcome] at stepped
              exact framed.stall stepped
      | _ => simp [Session.advance] at stepped
  | woken => simp [Session.advance] at stepped
  | called outcome =>
      cases phase with
      | calling request => exact framed.reply stepped
      | _ => simp [Session.advance] at stepped
  | stop =>
      obtain rfl := Option.some.inj stepped
      exact framed

theorem Session.Framed.step {session next : Session Request Response} {event : Event Response}
    (framed : session.Framed responses)
    (stepped : Session.step requests responses session event = some next) :
    next.Framed responses := by
  obtain ⟨progress, phase⟩ := session
  simp only [Session.step] at stepped
  rcases waiting : progress.waiting with _ | _ | ⟨state, text⟩
  · rw [waiting] at stepped
    exact framed.advance stepped
  · rw [waiting] at stepped
    cases event with
    | woken =>
        obtain rfl := Option.some.inj stepped
        exact framed
    | stop =>
        obtain rfl := Option.some.inj stepped
        exact framed
    | _ => simp at stepped
  · rw [waiting] at stepped
    cases event with
    | woken =>
        obtain rfl := Option.some.inj stepped
        exact framed.close
    | stop =>
        obtain rfl := Option.some.inj stepped
        exact framed
    | _ => simp at stepped

end Frames

end Mcast.RpcServer
