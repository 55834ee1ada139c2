import Mathlib
import Mcast.Rpc.Pairing
import Mcast.Rpc.Streams

/-!
# From bytes to frames

Every undisturbed run of calls over byte streams is a run of the channel at the level of frames, as
long as the messages are short enough for their headers.  What ties the two is told connection by
connection: the bytes that the server has taken and those that are still on the stream make up the
frames of the queued requests, and a part of the frame that is being written; the same holds of the
responses on the connection that the channel keeps.
-/

namespace Mcast

open DefaultRpcCodec RpcServer

namespace RpcServer

/-! ## What a step of a session does -/

section Effects

variable {Request Response : Type} {requests : Protobuf Request} {responses : Protobuf Response}

/-- The stages in which the loop waits for the socket. -/
def Phase.blocks : Phase Request → Bool
  | .head _ => true
  | .payload _ _ => true
  | .writing _ => true
  | _ => false

/-- Only a read or a write waits. -/
def Session.Ready (session : Session Request Response) : Prop :=
  session.waiting ≠ none → session.phase.blocks = true

/-- How a step moves the loop, with the bytes that it sends. -/
inductive Effect (requests : Protobuf Request) (responses : Protobuf Response) :
    Phase Request → Event Response → Phase Request → Bytes → Prop
  | quiet (phase : Phase Request) (event : Event Response) (idle : event.chunk = []) :
      Effect requests responses phase event phase []
  | begin (event : Event Response) (idle : event.chunk = []) :
      Effect requests responses .top event (.head []) []
  | close (phase : Phase Request) (event : Event Response)
      (free : ∀ request, phase ≠ .calling request) :
      Effect requests responses phase event .closed []
  | head (bytes chunk : Bytes) (short : (bytes ++ chunk).length < 3) :
      Effect requests responses (.head bytes) (.received (.returned chunk))
        (.head (bytes ++ chunk)) []
  | headed (bytes chunk : Bytes) (three : (bytes ++ chunk).length = 3)
      (accepted : checkHead .request (bytes ++ chunk) = .ok) :
      Effect requests responses (.head bytes) (.received (.returned chunk))
        (.payload (packLen (bytes ++ chunk)) []) []
  | payload (total : Nat) (bytes chunk : Bytes) (short : (bytes ++ chunk).length < total) :
      Effect requests responses (.payload total bytes) (.received (.returned chunk))
        (.payload total (bytes ++ chunk)) []
  | parsed (total : Nat) (bytes chunk : Bytes) (request : Request)
      (whole : (bytes ++ chunk).length = total)
      (parse : requests.parse (bytes ++ chunk) = some request) :
      Effect requests responses (.payload total bytes) (.received (.returned chunk))
        (.calling request) []
  | failed (request : Request) :
      Effect requests responses (.calling request) (.called .failed) .closed []
  | unserialized (request : Request) :
      Effect requests responses (.calling request) (.called .unserialized) .top []
  | unwritten (request : Request) (response : Response)
      (incomplete : responses.serialize response = none) :
      Effect requests responses (.calling request) (.called (.replied response)) .closed []
  | replied (request : Request) (response : Response) (payload : Bytes)
      (serialized : responses.serialize response = some payload) :
      Effect requests responses (.calling request) (.called (.replied response))
        (.writing (frame .response payload)) []
  | writing (left : Bytes) (event : Event Response) (count : Nat) (idle : event.chunk = [])
      (more : left.drop count ≠ []) :
      Effect requests responses (.writing left) event (.writing (left.drop count))
        (left.take count)
  | written (left : Bytes) (event : Event Response) (idle : event.chunk = []) :
      Effect requests responses (.writing left) event .top left

theorem Event.chunk_received {report : Kernel Bytes} (stalled : ∀ bytes,
    TcpConnection.pass (Net.Tcp.recv report) ≠ .moved bytes) :
    (Event.received report : Event Response).chunk = [] := by
  cases report with
  | returned bytes =>
      cases bytes with
      | nil => rfl
      | cons byte bytes => exact absurd rfl (stalled (byte :: bytes))
  | _ => rfl

/-- A kernel call that moved no bytes leaves the loop where it is, or ends it. -/
theorem Session.effect_stall {α : Type} {session next : Session Request Response}
    {report : Kernel α} {outcome : Pass α} {event : Event Response}
    (blocks : session.phase.blocks = true) (running : session.waiting = none)
    (idle : event.chunk = []) (stepped : Session.stall session report outcome = some next) :
    ∃ sent, Effect requests responses session.phase event next.phase sent ∧
      next.written = session.written ++ sent ∧ next.Ready := by
  have free : ∀ request, session.phase ≠ .calling request := by
    intro request calling
    rw [calling] at blocks
    cases blocks
  cases outcome with
  | moved amount => cases stepped
  | wait =>
      obtain rfl := Option.some.inj stepped
      exact ⟨[], .quiet _ _ idle, (List.append_nil _).symm, fun _ => blocks⟩
  | retry =>
      obtain rfl := Option.some.inj stepped
      exact ⟨[], .quiet _ _ idle, (List.append_nil _).symm, fun _ => blocks⟩
  | leave status =>
      obtain rfl := Option.some.inj stepped
      exact ⟨[], .close _ _ free, (List.append_nil _).symm, fun waits => absurd running waits⟩

theorem Session.effect_received {session next : Session Request Response}
    {report : Kernel Bytes} (running : session.waiting = none)
    (stepped : Session.advance requests responses session (.received report) = some next) :
    ∃ sent, Effect requests responses session.phase (.received report) next.phase sent ∧
      next.written = session.written ++ sent ∧ next.Ready := by
  obtain ⟨progress, phase⟩ := session
  cases phase with
  | head bytes =>
      simp only [Session.advance] at stepped
      cases outcome : TcpConnection.pass (Net.Tcp.recv report) with
      | moved chunk =>
          obtain rfl := TcpConnection.eq_returned_of_pass_recv outcome
          simp only [outcome, Session.takeHead] at stepped
          split_ifs at stepped with short three
          · obtain rfl := Option.some.inj stepped
            exact ⟨[], .head bytes chunk short, (List.append_nil _).symm,
              fun waits => absurd running waits⟩
          · cases checked : checkHead .request (bytes ++ chunk) with
            | error state text =>
                rw [checked] at stepped
                obtain rfl := Option.some.inj stepped
                exact ⟨[], .close _ _ (fun request same => by cases same), (List.append_nil _).symm,
                  fun waits => absurd running waits⟩
            | ok =>
                rw [checked] at stepped
                obtain rfl := Option.some.inj stepped
                exact ⟨[], .headed bytes chunk three checked, (List.append_nil _).symm,
                  fun waits => absurd running waits⟩
      | _ =>
          rw [outcome] at stepped
          refine Session.effect_stall rfl running (Event.chunk_received ?_) stepped
          intro bytes moved
          rw [outcome] at moved
          cases moved
  | payload total bytes =>
      simp only [Session.advance] at stepped
      cases outcome : TcpConnection.pass (Net.Tcp.recv report) with
      | moved chunk =>
          obtain rfl := TcpConnection.eq_returned_of_pass_recv outcome
          simp only [outcome, Session.takePayload] at stepped
          split_ifs at stepped with fits whole
          · obtain rfl := Option.some.inj stepped
            simp only [Session.parsePayload]
            cases parse : requests.parse (bytes ++ chunk) with
            | none =>
                exact ⟨[], .close _ _ (fun request same => by cases same), (List.append_nil _).symm,
                  fun waits => absurd running waits⟩
            | some request =>
                exact ⟨[], .parsed total bytes chunk request whole parse, (List.append_nil _).symm,
                  fun waits => absurd running waits⟩
          · obtain rfl := Option.some.inj stepped
            exact ⟨[], .payload total bytes chunk (Nat.lt_of_le_of_ne fits whole),
              (List.append_nil _).symm, fun waits => absurd running waits⟩
      | _ =>
          rw [outcome] at stepped
          refine Session.effect_stall rfl running (Event.chunk_received ?_) stepped
          intro bytes moved
          rw [outcome] at moved
          cases moved
  | _ => simp [Session.advance] at stepped

theorem Session.effect_sent {session next : Session Request Response} {report : Kernel Nat}
    (running : session.waiting = none)
    (stepped : Session.advance requests responses session (.sent report) = some next) :
    ∃ sent, Effect requests responses session.phase (.sent report) next.phase sent ∧
      next.written = session.written ++ sent ∧ next.Ready := by
  obtain ⟨progress, phase⟩ := session
  cases phase with
  | writing left =>
      simp only [Session.advance] at stepped
      cases outcome : TcpConnection.pass (Net.Tcp.send report) with
      | moved count =>
          simp only [outcome, Session.giveFrame] at stepped
          split_ifs at stepped with fits ended
          · obtain rfl := Option.some.inj stepped
            have all : left.take count = left :=
              List.take_of_length_le (List.drop_eq_nil_iff.mp ended)
            refine ⟨left, .written left _ rfl, ?_, fun waits => absurd running waits⟩
            simp only [all]
          · obtain rfl := Option.some.inj stepped
            exact ⟨left.take count, .writing left (.sent report) count rfl ended, rfl,
              fun waits => absurd running waits⟩
      | _ =>
          rw [outcome] at stepped
          exact Session.effect_stall rfl running rfl stepped
  | _ => simp [Session.advance] at stepped

theorem Session.effect_called {session next : Session Request Response}
    {outcome : Called Response} (running : session.waiting = none)
    (stepped : Session.advance requests responses session (.called outcome) = some next) :
    ∃ sent, Effect requests responses session.phase (.called outcome) next.phase sent ∧
      next.written = session.written ++ sent ∧ next.Ready := by
  obtain ⟨progress, phase⟩ := session
  cases phase with
  | calling request =>
      cases outcome with
      | failed =>
          obtain rfl := Option.some.inj stepped
          exact ⟨[], .failed request, (List.append_nil _).symm, fun waits => absurd running waits⟩
      | unserialized =>
          obtain rfl := Option.some.inj stepped
          exact ⟨[], .unserialized request, (List.append_nil _).symm,
            fun waits => absurd running waits⟩
      | replied response =>
          simp only [Session.advance, Session.reply] at stepped
          cases serialized : responses.serialize response with
          | none =>
              rw [serialized] at stepped
              obtain rfl := Option.some.inj stepped
              exact ⟨[], .unwritten request response serialized, (List.append_nil _).symm,
                fun waits => absurd running waits⟩
          | some payload =>
              simp only [serialized] at stepped
              split_ifs at stepped
              obtain rfl := Option.some.inj stepped
              exact ⟨[], .replied request response payload serialized, (List.append_nil _).symm,
                fun waits => absurd running waits⟩
  | _ => simp [Session.advance] at stepped

/-- Every step of a session has one of the effects. -/
theorem Session.effect {session next : Session Request Response} {event : Event Response}
    (ready : session.Ready) (stepped : Session.step requests responses session event = some next) :
    ∃ sent, Effect requests responses session.phase event next.phase sent ∧
      next.written = session.written ++ sent ∧ next.Ready := by
  obtain ⟨progress, phase⟩ := session
  simp only [Session.step] at stepped
  rcases waiting : progress.waiting with _ | _ | ⟨state, text⟩
  · rw [waiting] at stepped
    cases event with
    | iterate =>
        cases phase with
        | top =>
            obtain rfl := Option.some.inj stepped
            refine ⟨[], ?_, (List.append_nil _).symm, fun waits => absurd waiting waits⟩
            cases progress.stopping with
            | true => exact .close _ _ (fun request same => by cases same)
            | false => exact .begin _ rfl
        | _ => simp [Session.advance] at stepped
    | received report => exact Session.effect_received waiting stepped
    | sent report => exact Session.effect_sent waiting stepped
    | woken => simp [Session.advance] at stepped
    | called outcome => exact Session.effect_called waiting stepped
    | stop =>
        obtain rfl := Option.some.inj stepped
        exact ⟨[], .quiet _ _ rfl, (List.append_nil _).symm, ready⟩
  · have blocks : phase.blocks = true := ready (by rw [waiting]; exact Option.some_ne_none _)
    rw [waiting] at stepped
    cases event with
    | woken =>
        obtain rfl := Option.some.inj stepped
        exact ⟨[], .quiet _ _ rfl, (List.append_nil _).symm, fun _ => blocks⟩
    | stop =>
        obtain rfl := Option.some.inj stepped
        exact ⟨[], .quiet _ _ rfl, (List.append_nil _).symm, fun _ => blocks⟩
    | _ => simp at stepped
  · have blocks : phase.blocks = true := ready (by rw [waiting]; exact Option.some_ne_none _)
    rw [waiting] at stepped
    cases event with
    | woken =>
        obtain rfl := Option.some.inj stepped
        refine ⟨[], .close _ _ ?_, (List.append_nil _).symm, fun waits => absurd rfl waits⟩
        rintro request rfl
        cases blocks
    | stop =>
        obtain rfl := Option.some.inj stepped
        exact ⟨[], .quiet _ _ rfl, (List.append_nil _).symm, fun _ => blocks⟩
    | _ => simp at stepped

end Effects

end RpcServer

/-! ## A connection at both levels -/

namespace RpcSystem

/-- The bytes of the next frame that the loop of the server has received. -/
inductive Taken {Request : Type} : Phase Request → Bytes → Prop
  | top : Taken .top []
  | head (bytes : Bytes) (short : bytes.length < 3) : Taken (.head bytes) bytes
  | payload (head bytes : Bytes) (three : head.length = 3) (accepted : checkHead .request head = .ok) :
      Taken (.payload (packLen head) bytes) (head ++ bytes)
  | calling (request : Request) : Taken (.calling request) []
  | writing (left : Bytes) : Taken (.writing left) []

/-- The loop of the server at both levels, with the bytes that it has sent of the present frame. -/
inductive Answering (responses : Protobuf RpcResponse) :
    Phase RpcRequest → RpcChannel.Serving → Bytes → Prop
  | top : Answering responses .top .reading []
  | head (bytes : Bytes) : Answering responses (.head bytes) .reading []
  | payload (total : Nat) (bytes : Bytes) : Answering responses (.payload total bytes) .reading []
  | calling (request : RpcChannel.Tagged RpcRequest) :
      Answering responses (.calling request.content) (.calling request) []
  | writing (part left : Bytes) (response : RpcChannel.Tagged RpcResponse) (more : left ≠ [])
      (proper : Proper responses response.content)
      (frame : frameOf responses .response response.content = part ++ left) :
      Answering responses (.writing left) (.writing response) part
  | closed (part : Bytes) (cut : Cut responses .response part) :
      Answering responses .closed .closed part

/-- A connection at both levels.  Of the connection that the channel keeps it is known how far the
channel has written its request and read its response. -/
structure LinkMirrors (requests : Protobuf RpcRequest) (responses : Protobuf RpcResponse)
    (phase : Phase RpcRequest) (up down : Bytes) (current : Prop) (sent got : Bytes)
    (link : RpcChannel.Link) : Prop where
  up : phase ≠ .closed → ∃ taken part, Taken phase taken ∧
    Carried requests .request (taken ++ up) (link.requests.map RpcChannel.Tagged.content) part ∧
    (current → part = sent) ∧ (¬ current → Cut requests .request part)
  down : ∃ part, Answering responses phase link.serving part ∧
    (current → Carried responses .response (got ++ down)
      (link.responses.map RpcChannel.Tagged.content) part)

/-- One connection of the channel has been replaced. -/
structure Replaces {Message : Type} (channel after : RpcChannel Message) (k : Nat)
    (link : RpcChannel.Link) : Prop where
  same : after = { channel with links := after.links, computed := after.computed }
  length : after.links.length = channel.links.length
  found : after.links[k]? = some link
  others : ∀ j, j ≠ k → after.links[j]? = channel.links[j]?

section Links

variable {Message : Type} {requests : Protobuf RpcRequest} {responses : Protobuf RpcResponse}
  {registry : Registry Message} {channel : RpcChannel Message} {k : Nat}
  {link : RpcChannel.Link}

theorem Replaces.refl (found : channel.links[k]? = some link) :
    Replaces channel channel k link := ⟨rfl, rfl, found, fun _ _ => rfl⟩

theorem Replaces.trans {middle after : RpcChannel Message} {other : RpcChannel.Link}
    (first : Replaces channel middle k link) (second : Replaces middle after k other) :
    Replaces channel after k other where
  same := by
    have same := second.same
    rw [first.same] at same
    exact same
  length := second.length.trans first.length
  found := second.found
  others j different := (second.others j different).trans (first.others j different)

theorem Replaces.setLink (found : channel.links[k]? = some link) (other : RpcChannel.Link)
    (computed : List (Nat × RpcRequest × RpcResponse)) :
    Replaces channel { channel.setLink k other with computed } k other where
  same := rfl
  length := List.length_set
  found := List.getElem?_set_self (List.getElem?_eq_some_iff.mp found).1
  others _ different := List.getElem?_set_ne (Ne.symm different)

theorem step_serverRead {request : RpcChannel.Tagged RpcRequest}
    {later : List (RpcChannel.Tagged RpcRequest)}
    {replies : List (RpcChannel.Tagged RpcResponse)}
    (found : channel.links[k]? = some ⟨request :: later, replies, .reading⟩) :
    channel.step registry (.serverRead k) =
      some (channel.setLink k ⟨later, replies, .calling request⟩) := by
  simp only [RpcChannel.step, RpcChannel.clientStep, RpcChannel.serverStep, found, Option.none_or]

theorem step_serverWrote {queued : List (RpcChannel.Tagged RpcRequest)}
    {replies : List (RpcChannel.Tagged RpcResponse)} {response : RpcChannel.Tagged RpcResponse}
    (found : channel.links[k]? = some ⟨queued, replies, .writing response⟩) :
    channel.step registry (.serverWrote k) =
      some (channel.setLink k ⟨queued, replies ++ [response], .reading⟩) := by
  simp only [RpcChannel.step, RpcChannel.clientStep, RpcChannel.serverStep, found, Option.none_or]

theorem step_closedWriting {queued : List (RpcChannel.Tagged RpcRequest)}
    {replies : List (RpcChannel.Tagged RpcResponse)} {response : RpcChannel.Tagged RpcResponse}
    (found : channel.links[k]? = some ⟨queued, replies, .writing response⟩) :
    channel.step registry (.serverClosed k) =
      some (channel.setLink k ⟨queued, replies, .closed⟩) := by
  simp only [RpcChannel.step, RpcChannel.clientStep, RpcChannel.serverStep, found, Option.none_or]

theorem step_closedReading {queued : List (RpcChannel.Tagged RpcRequest)}
    {replies : List (RpcChannel.Tagged RpcResponse)}
    (found : channel.links[k]? = some ⟨queued, replies, .reading⟩) :
    channel.step registry (.serverClosed k) =
      some (channel.setLink k ⟨queued, replies, .closed⟩) := by
  simp only [RpcChannel.step, RpcChannel.clientStep, RpcChannel.serverStep, found, Option.none_or]

/-- The loop of the server may end wherever it is not in a call. -/
theorem step_serverClosed {phase : Phase RpcRequest} {part : Bytes}
    (answering : Answering responses phase link.serving part)
    (free : ∀ request, phase ≠ .calling request) (found : channel.links[k]? = some link) :
    ∃ labels after, Transition.run (RpcChannel.step registry) channel labels = some after ∧
      Replaces channel after k { link with serving := .closed } := by
  obtain ⟨queued, replies, serving⟩ := link
  have closing (open_ : channel.step registry (.serverClosed k) =
      some (channel.setLink k ⟨queued, replies, .closed⟩)) :
      ∃ labels after, Transition.run (RpcChannel.step registry) channel labels = some after ∧
        Replaces channel after k ⟨queued, replies, .closed⟩ :=
    ⟨[.serverClosed k], _, Transition.run_cons_eq_some.mpr ⟨_, open_, rfl⟩,
      Replaces.setLink found _ channel.computed⟩
  cases answering with
  | calling request => exact absurd rfl (free _)
  | closed cut => exact ⟨[], channel, rfl, .refl found⟩
  | writing left response more proper frame => exact closing (step_closedWriting found)
  | _ => exact closing (step_closedReading found)

theorem Answering.cut {phase : Phase RpcRequest} {serving : RpcChannel.Serving} {part : Bytes}
    (answering : Answering responses phase serving part) : Cut responses .response part := by
  cases answering with
  | writing part left response more proper frame =>
      exact .inr ⟨response.content, left, proper, more, frame⟩
  | closed part cut => exact cut
  | _ => exact .inl rfl

/-- A frame that a reader has parsed is that of the oldest message on the stream. -/
theorem exists_oldest {Content : Type} {proto : Protobuf Content} {type : RpcCodec.MessageType}
    (lawful : proto.Lawful) {taken payload later part : Bytes} {content : Content}
    {queue : List (RpcChannel.Tagged Content)} (framed : Framed type taken payload [])
    (parse : proto.parse payload = some content) (cut : Cut proto type part)
    (carried : Carried proto type (taken ++ later) (queue.map RpcChannel.Tagged.content) part) :
    ∃ tagged others, queue = tagged :: others ∧ tagged.content = content ∧
      Carried proto type later (others.map RpcChannel.Tagged.content) part := by
  obtain ⟨message, rest, messages, serialized, left⟩ := carried.first cut framed
  cases queue with
  | nil => cases messages
  | cons tagged others =>
      rw [List.map_cons, List.cons.injEq] at messages
      obtain ⟨rfl, rfl⟩ := messages
      have same := lawful.parse_serialize _ _ serialized
      rw [parse] at same
      exact ⟨tagged, others, rfl, (Option.some.inj same).symm, left⟩

/-- `CallServiceMethod` returns in the loop of the server. -/
theorem step_serverCalled (registry : Registry Message) (invocation : Invocation Message)
    {queued : List (RpcChannel.Tagged RpcRequest)}
    {replies : List (RpcChannel.Tagged RpcResponse)} {request : RpcChannel.Tagged RpcRequest}
    (found : channel.links[k]? = some ⟨queued, replies, .calling request⟩) :
    channel.step registry (.serverCalled k invocation) =
      match answer registry request.content invocation with
      | .failed => some (channel.setLink k ⟨queued, replies, .closed⟩)
      | .unserialized => some (channel.setLink k ⟨queued, replies, .reading⟩)
      | .replied reply =>
          some
            { channel.setLink k ⟨queued, replies, .writing ⟨request.number, reply⟩⟩ with
              computed := channel.computed ++ [(request.number, request.content, reply)] } := by
  cases outcome : answer registry request.content invocation <;>
    simp only [RpcChannel.step, RpcChannel.clientStep, RpcChannel.serverStep, found, outcome,
      Option.none_or]

theorem run_single {label : RpcChannel.Label Message} {after : RpcChannel Message}
    (stepped : channel.step registry label = some after) :
    Transition.run (RpcChannel.step registry) channel [label] = some after :=
  Transition.run_cons_eq_some.mpr ⟨after, stepped, rfl⟩

/-- A step of the loop of a connection is matched at the level of frames. -/
theorem LinkMirrors.serve (lawful : requests.Lawful) {phase next : Phase RpcRequest}
    {event : Event RpcResponse} {up down sent got new : Bytes} {current : Prop}
    (mirrors : LinkMirrors requests responses phase up down current sent got link)
    (cut : Cut requests .request sent)
    (effect : Effect requests responses phase event next new) (arrived : event.chunk <+: up)
    (answered : ∀ request outcome, phase = .calling request → event = .called outcome →
      ∃ invocation, answer registry request invocation = outcome ∧
        ∀ reply, outcome = .replied reply → Short responses reply)
    (found : channel.links[k]? = some link) :
    ∃ labels after other, Transition.run (RpcChannel.step registry) channel labels = some after ∧
      Replaces channel after k other ∧
      LinkMirrors requests responses next (up.drop event.chunk.length) (down ++ new) current sent
        got other := by
  obtain ⟨upward, part, answering, downward⟩ := mirrors
  obtain ⟨queued, replies, serving⟩ := link
  cases effect with
  | quiet _ _ idle =>
      refine ⟨[], channel, _, rfl, .refl found, ?_, part, answering, ?_⟩
      · rwa [idle, List.length_nil, List.drop_zero]
      · rwa [List.append_nil]
  | begin _ idle =>
      cases answering
      refine ⟨[], channel, _, rfl, .refl found, fun _ => ?_, [], .head [], ?_⟩
      · obtain ⟨taken, rest, before, carried⟩ := upward (by rintro ⟨⟩)
        cases before
        rw [idle, List.length_nil, List.drop_zero]
        exact ⟨[], rest, .head [] (by decide), carried⟩
      · rwa [List.append_nil]
  | close _ _ free =>
      obtain ⟨labels, after, execution, replaces⟩ := step_serverClosed answering free found
      refine ⟨labels, after, _, execution, replaces, fun opened => absurd rfl opened, part,
        .closed part answering.cut, ?_⟩
      rwa [List.append_nil]
  | head bytes chunk short =>
      cases answering
      refine ⟨[], channel, _, rfl, .refl found, fun _ => ?_, [], .head _, ?_⟩
      · obtain ⟨taken, rest, before, carried, same⟩ := upward (by rintro ⟨⟩)
        cases before
        exact ⟨bytes ++ chunk, rest, .head _ short, carried.take arrived, same⟩
      · rwa [List.append_nil]
  | headed bytes chunk three accepted =>
      cases answering
      refine ⟨[], channel, _, rfl, .refl found, fun _ => ?_, [], .payload _ _, ?_⟩
      · obtain ⟨taken, rest, before, carried, same⟩ := upward (by rintro ⟨⟩)
        cases before
        refine ⟨bytes ++ chunk ++ [], rest, .payload _ [] three accepted, ?_, same⟩
        rw [List.append_nil]
        exact carried.take arrived
      · rwa [List.append_nil]
  | payload total bytes chunk short =>
      cases answering
      refine ⟨[], channel, _, rfl, .refl found, fun _ => ?_, [], .payload _ _, ?_⟩
      · obtain ⟨taken, rest, before, carried, same⟩ := upward (by rintro ⟨⟩)
        cases before with
        | payload head bytes three accepted =>
            refine ⟨head ++ (bytes ++ chunk), rest, .payload _ _ three accepted, ?_, same⟩
            rw [← List.append_assoc]
            exact carried.take arrived
      · rwa [List.append_nil]
  | parsed total bytes chunk request whole parse =>
      cases answering
      obtain ⟨taken, rest, before, carried, same⟩ := upward (by rintro ⟨⟩)
      cases before with
      | payload head bytes three accepted =>
          have left : Carried requests .request ((head ++ (bytes ++ chunk)) ++ up.drop chunk.length)
              (queued.map RpcChannel.Tagged.content) rest := by
            rw [← List.append_assoc head]
            exact carried.take arrived
          have partial_ : Cut requests .request rest := by
            by_cases kept : current
            · rw [same.1 kept]
              exact cut
            · exact same.2 kept
          obtain ⟨tagged, later, rfl, rfl, carried⟩ :=
            exists_oldest lawful (framed_of_head three accepted whole) parse partial_ left
          refine ⟨[.serverRead k], _, ⟨later, replies, .calling tagged⟩,
            run_single (step_serverRead found), Replaces.setLink found _ channel.computed,
            fun _ => ?_, [], .calling tagged, ?_⟩
          · exact ⟨[], rest, .calling _, carried, same⟩
          · rwa [List.append_nil]
  | failed request =>
      cases answering with
      | calling tagged =>
          obtain ⟨invocation, outcome, -⟩ := answered _ _ rfl rfl
          have stepped := step_serverCalled registry invocation found
          rw [outcome] at stepped
          refine ⟨[.serverCalled k invocation], _, _, run_single stepped,
            Replaces.setLink found _ channel.computed, fun opened => absurd rfl opened, [],
            .closed [] (.inl rfl), ?_⟩
          rwa [List.append_nil]
  | unserialized request =>
      cases answering with
      | calling tagged =>
          obtain ⟨invocation, outcome, -⟩ := answered _ _ rfl rfl
          have stepped := step_serverCalled registry invocation found
          rw [outcome] at stepped
          refine ⟨[.serverCalled k invocation], _, _, run_single stepped,
            Replaces.setLink found _ channel.computed, fun _ => ?_, [], .top, ?_⟩
          · obtain ⟨taken, rest, before, carried⟩ := upward (by rintro ⟨⟩)
            cases before
            exact ⟨[], rest, .top, carried⟩
          · rwa [List.append_nil]
  | unwritten request response incomplete =>
      cases answering with
      | calling tagged =>
          obtain ⟨invocation, outcome, -⟩ := answered _ _ rfl rfl
          have stepped := step_serverCalled registry invocation found
          rw [outcome] at stepped
          have writing := Replaces.setLink found ⟨queued, replies, .writing ⟨tagged.number, response⟩⟩
            (channel.computed ++ [(tagged.number, tagged.content, response)])
          refine ⟨[.serverCalled k invocation, .serverClosed k], _, ⟨queued, replies, .closed⟩,
            Transition.run_cons_eq_some.mpr ⟨_, stepped, run_single (step_closedWriting writing.found)⟩,
            writing.trans (Replaces.setLink writing.found _ _), fun opened => absurd rfl opened, [],
            .closed [] (.inl rfl), ?_⟩
          rwa [List.append_nil]
  | replied request response payload serialized =>
      cases answering with
      | calling tagged =>
          obtain ⟨invocation, outcome, short⟩ := answered _ _ rfl rfl
          have stepped := step_serverCalled registry invocation found
          rw [outcome] at stepped
          refine ⟨[.serverCalled k invocation], _, _, run_single stepped,
            Replaces.setLink found _ _, fun _ => ?_, [], .writing [] _ _ ?_ ?_ ?_, ?_⟩
          · obtain ⟨taken, rest, before, carried⟩ := upward (by rintro ⟨⟩)
            cases before
            exact ⟨[], rest, .writing _, carried⟩
          · exact List.cons_ne_nil _ _
          · exact .of_short (short _ rfl) serialized
          · exact frameOf_of_serialize serialized
          · rwa [List.append_nil]
  | writing left _ count idle more =>
      cases answering with
      | writing part left response _ proper frame =>
          refine ⟨[], channel, _, rfl, .refl found, fun _ => ?_, part ++ left.take count,
            .writing _ _ response more proper ?_, fun kept => ?_⟩
          · obtain ⟨taken, rest, before, carried⟩ := upward (by rintro ⟨⟩)
            cases before
            rw [idle, List.length_nil, List.drop_zero]
            exact ⟨[], rest, .writing _, carried⟩
          · rw [List.append_assoc, List.take_append_drop, frame]
          · rw [← List.append_assoc]
            exact (downward kept).extend (left.take count)
  | written left _ idle =>
      cases answering with
      | writing part left response _ proper frame =>
          refine ⟨[.serverWrote k], _, ⟨queued, replies ++ [response], .reading⟩,
            run_single (step_serverWrote found), Replaces.setLink found _ channel.computed,
            fun _ => ?_, [], .top, fun kept => ?_⟩
          · obtain ⟨taken, rest, before, carried⟩ := upward (by rintro ⟨⟩)
            cases before
            rw [idle, List.length_nil, List.drop_zero]
            exact ⟨[], rest, .top, carried⟩
          · have complete := (downward kept).extend new
            rw [← frame] at complete
            rw [List.map_append, List.map_singleton, ← List.append_assoc]
            exact complete.push proper

end Links

/-! ## The system at both levels -/

section System

variable {count : Nat} {Message : Type} {requests : Protobuf RpcRequest}
  {responses : Protobuf RpcResponse} {registry : Registry Message}

/-- A channel with the queues of its connections and the replies computed for it. -/
def onFrames (channel : RpcChannel Message) (links : List RpcChannel.Link)
    (computed : List (Nat × RpcRequest × RpcResponse)) : RpcChannel Message :=
  { channel with links, computed }

theorem giveUp_onFrames (channel : RpcChannel Message) (links : List RpcChannel.Link)
    (computed : List (Nat × RpcRequest × RpcResponse)) (status : Status) :
    (onFrames channel links computed).giveUp status =
      onFrames (channel.giveUp status) links computed := by
  cases status <;> rfl

theorem prepare_onFrames (channel : RpcChannel Message) (links : List RpcChannel.Link)
    (computed : List (Nat × RpcRequest × RpcResponse)) (call : RpcChannel.Call Message) :
    (onFrames channel links computed).prepare call =
      onFrames (channel.prepare call) links computed := by
  rw [RpcChannel.prepare, RpcChannel.prepare]
  cases call.rpcRequest with
  | none => exact giveUp_onFrames channel links computed .ok
  | some request => rfl

theorem start_onFrames (channel : RpcChannel Message) (links : List RpcChannel.Link)
    (computed : List (Nat × RpcRequest × RpcResponse)) (call : RpcChannel.Call Message) :
    (onFrames channel links computed).start call =
      onFrames (channel.start call) links computed := by
  obtain ⟨conn, stage, old, calls, failed, filled, done, replies⟩ := channel
  cases conn with
  | none => rfl
  | some k => exact prepare_onFrames ⟨some k, stage, old, calls ++ [call], failed, filled, done,
      replies⟩ links computed call

theorem fill_onFrames (channel : RpcChannel Message) (links : List RpcChannel.Link)
    (computed : List (Nat × RpcRequest × RpcResponse)) (call : RpcChannel.Call Message)
    (reply : RpcResponse) :
    (onFrames channel links computed).fill call reply =
      onFrames (channel.fill call reply) links computed := by
  rw [RpcChannel.fill, RpcChannel.fill]
  cases call.responsePrototype.parse reply.responseMessage with
  | none => exact giveUp_onFrames channel links computed .ok
  | some message => rfl

/-- The bytes of the present request that have been sent. -/
def sentBytes (requests : Protobuf RpcRequest) (s : RpcSystem count Message) : Bytes :=
  match s.channel.stage with
  | .writing _ request => (writeRequestMessage requests s.buffer request s.writes).sent
  | _ => []

/-- The bytes of the present response that have been received. -/
def gotBytes (s : RpcSystem count Message) : Bytes :=
  match s.channel.stage with
  | .reading _ => TcpConnection.delivered s.reads
  | _ => []

/-- The call in progress waits for the kernel. -/
def Paused (requests : Protobuf RpcRequest) (s : RpcSystem count Message) : Prop :=
  match s.channel.stage with
  | .idle => True
  | .connecting call => s.channel.conn = none ∧
      ∀ request, call.rpcRequest = some request → Short requests request
  | .writing _ request => s.channel.conn ≠ none ∧ Short requests request
  | .reading _ => s.channel.conn ≠ none ∧ TcpConnection.ending s.reads = none

/-- What ties a system to the queues of frames, whether or not the call in progress has taken in the
last report of the kernel. -/
structure Unsettled (requests : Protobuf RpcRequest) (responses : Protobuf RpcResponse)
    (s : RpcSystem count Message) (sessions : Fin count → Session RpcRequest RpcResponse)
    (links : List RpcChannel.Link) : Prop where
  serves : Serves s.server sessions
  ready : ∀ k, (sessions k).Ready
  length : links.length = s.used
  bound : s.used ≤ count
  conn : ∀ k, s.channel.conn = some k → k < s.used
  links : ∀ (k : Fin count) link, links[k.val]? = some link →
    LinkMirrors requests responses (sessions k).phase (s.upstream k) (s.downstream k)
      (s.channel.conn = some k.val) (s.sentBytes requests) s.gotBytes link
  fresh : ∀ k : Fin count, s.used ≤ k.val →
    (sessions k).phase = .top ∧ s.upstream k = [] ∧ s.downstream k = []

structure Mirrors (requests : Protobuf RpcRequest) (responses : Protobuf RpcResponse)
    (s : RpcSystem count Message) (sessions : Fin count → Session RpcRequest RpcResponse)
    (links : List RpcChannel.Link) : Prop extends
    Unsettled requests responses s sessions links where
  paused : s.Paused requests
  cut : Cut requests .request (s.sentBytes requests)

/-- The channel can go on at the level of frames until it mirrors the system. -/
def Matched (requests : Protobuf RpcRequest) (responses : Protobuf RpcResponse)
    (registry : Registry Message) (channel : RpcChannel Message) (next : RpcSystem count Message) :
    Prop :=
  ∃ labels sessions links computed, Transition.run (RpcChannel.step registry) channel labels =
      some (onFrames next.channel links computed) ∧
    Mirrors requests responses next sessions links

theorem Matched.after {channel middle : RpcChannel Message} {next : RpcSystem count Message}
    {label : RpcChannel.Label Message} (stepped : channel.step registry label = some middle)
    (matched : Matched requests responses registry middle next) :
    Matched requests responses registry channel next := by
  obtain ⟨labels, sessions, links, computed, execution, mirrors⟩ := matched
  exact ⟨label :: labels, sessions, links, computed,
    Transition.run_cons_eq_some.mpr ⟨middle, stepped, execution⟩, mirrors⟩

theorem Mirrors.matched {s : RpcSystem count Message}
    {sessions : Fin count → Session RpcRequest RpcResponse} {links : List RpcChannel.Link}
    (mirrors : Mirrors requests responses s sessions links)
    (computed : List (Nat × RpcRequest × RpcResponse)) :
    Matched requests responses registry (onFrames s.channel links computed) s :=
  ⟨[], sessions, links, computed, rfl, mirrors⟩

/-- A step of the loop of a connection. -/
theorem Mirrors.serve (lawful : requests.Lawful) {s next : RpcSystem count Message}
    {sessions : Fin count → Session RpcRequest RpcResponse} {links : List RpcChannel.Link}
    {computed : List (Nat × RpcRequest × RpcResponse)} {k : Fin count}
    {event : Event RpcResponse} (mirrors : Mirrors requests responses s sessions links)
    (allowed : s.server.undisturbed (k, event) = true)
    (answered : ∀ request outcome, (s.server.connections k).stage = .calling request →
      event = .called outcome → ∃ invocation, answer registry request invocation = outcome ∧
        ∀ reply, outcome = .replied reply → Short responses reply)
    (stepped : s.serve requests responses k event = some next) :
    Matched requests responses registry (onFrames s.channel links computed) next := by
  rw [RpcSystem.serve] at stepped
  split_ifs at stepped with enabled
  obtain ⟨server, moved, rfl⟩ := Option.map_eq_some_iff.mp stepped
  obtain ⟨session, step, serves⟩ := mirrors.serves.step
    (Transition.restrict_eq_some.mpr ⟨allowed, moved⟩)
  have before := mirrors.serves.linked k
  have after := serves.linked k
  rw [Function.update_self] at after
  obtain ⟨new, effect, written, ready⟩ := Session.effect (mirrors.ready k) step
  have sent : (server.connections k).written.drop (s.server.connections k).written.length = new := by
    have new_written : (server.connections k).written = session.written :=
      congrArg Progress.written after.progress
    have old_written : (s.server.connections k).written = (sessions k).written :=
      congrArg Progress.written before.progress
    rw [new_written, old_written, written, List.drop_left]
  obtain ⟨link, found⟩ : ∃ link, links[k.val]? = some link := by
    rw [← mirrors.length] at enabled
    exact ⟨_, List.getElem?_eq_getElem enabled.1⟩
  have calling : ∀ request outcome, (sessions k).phase = .calling request →
      event = .called outcome → ∃ invocation, answer registry request invocation = outcome ∧
        ∀ reply, outcome = .replied reply → Short responses reply := by
    intro request outcome phase called
    refine answered request outcome ?_ called
    have placed := before.placed
    rw [phase] at placed
    generalize (s.server.connections k).stage = stage at placed
    cases placed
    rfl
  have queued : (onFrames s.channel links computed).links[k.val]? = some link := found
  obtain ⟨labels, channel, other, execution, replaces, own⟩ :=
    (mirrors.links k link found).serve lawful mirrors.cut effect enabled.2 calling queued
  refine ⟨labels, Function.update sessions k session, channel.links, channel.computed, ?_, ?_⟩
  · rw [execution, replaces.same]
    rfl
  · exact
      { serves
        ready := by
          intro j
          by_cases same : j = k
          · subst same
            rwa [Function.update_self]
          · rw [Function.update_of_ne same]
            exact mirrors.ready j
        length := replaces.length.trans mirrors.length
        bound := mirrors.bound
        conn := mirrors.conn
        links := by
          intro j present here
          by_cases same : j = k
          · subst same
            obtain rfl : present = other := Option.some.inj (here.symm.trans replaces.found)
            simp only [Function.update_self, sent]
            exact own
          · rw [replaces.others j.val (fun equal => same (Fin.ext equal))] at here
            simp only [Function.update_of_ne same]
            exact mirrors.links j present here
        fresh := by
          intro j unused
          have different : j ≠ k := by
            rintro rfl
            exact Nat.not_lt.mpr unused enabled.1
          simp only [Function.update_of_ne different]
          exact mirrors.fresh j unused
        paused := mirrors.paused
        cut := mirrors.cut }

/-! ## The channel -/

theorem Unsettled.exists_link {s : RpcSystem count Message}
    {sessions : Fin count → Session RpcRequest RpcResponse} {links : List RpcChannel.Link}
    {k : Fin count} (unsettled : Unsettled requests responses s sessions links)
    (conn : s.channel.conn = some k.val) : ∃ link, links[k.val]? = some link :=
  ⟨_, List.getElem?_eq_getElem (unsettled.length ▸ unsettled.conn k.val conn)⟩

/-- A change that the connections do not notice. -/
theorem Unsettled.keep {s next : RpcSystem count Message}
    {sessions : Fin count → Session RpcRequest RpcResponse} {links : List RpcChannel.Link}
    (unsettled : Unsettled requests responses s sessions links) (server : next.server = s.server)
    (upstream : next.upstream = s.upstream) (downstream : next.downstream = s.downstream)
    (used : next.used = s.used) (conn : next.channel.conn = s.channel.conn)
    (sent : next.sentBytes requests = s.sentBytes requests) (got : next.gotBytes = s.gotBytes) :
    Unsettled requests responses next sessions links where
  serves := by
    rw [server]
    exact unsettled.serves
  ready := unsettled.ready
  length := unsettled.length.trans used.symm
  bound := by
    rw [used]
    exact unsettled.bound
  conn k same := by
    rw [used]
    exact unsettled.conn k (conn ▸ same)
  links k link found := by
    rw [upstream, downstream, conn, sent, got]
    exact unsettled.links k link found
  fresh k unused := by
    rw [upstream, downstream]
    exact unsettled.fresh k (used ▸ unused)

/-- The channel drops its connection. -/
theorem Unsettled.drop {s next : RpcSystem count Message}
    {sessions : Fin count → Session RpcRequest RpcResponse} {links : List RpcChannel.Link}
    (unsettled : Unsettled requests responses s sessions links)
    (cut : Cut requests .request (s.sentBytes requests)) (server : next.server = s.server)
    (upstream : next.upstream = s.upstream) (downstream : next.downstream = s.downstream)
    (used : next.used = s.used) (conn : next.channel.conn = none) :
    Unsettled requests responses next sessions links where
  serves := by
    rw [server]
    exact unsettled.serves
  ready := unsettled.ready
  length := unsettled.length.trans used.symm
  bound := by
    rw [used]
    exact unsettled.bound
  conn k same := by
    rw [conn] at same
    cases same
  links k link found := by
    have gone : next.channel.conn ≠ some k.val := by
      rw [conn]
      exact (Option.some_ne_none _).symm
    obtain ⟨upward, part, answering, -⟩ := unsettled.links k link found
    refine ⟨fun opened => ?_, part, answering, fun kept => absurd kept gone⟩
    obtain ⟨taken, rest, before, carried, same⟩ := upward opened
    rw [upstream]
    refine ⟨taken, rest, before, carried, fun kept => absurd kept gone, fun _ => ?_⟩
    by_cases current : s.channel.conn = some k.val
    · rw [same.1 current]
      exact cut
    · exact same.2 current
  fresh k unused := by
    rw [upstream, downstream]
    exact unsettled.fresh k (used ▸ unused)

/-- One connection of the channel changes, the one that the channel keeps. -/
theorem Unsettled.replace {s next : RpcSystem count Message}
    {sessions : Fin count → Session RpcRequest RpcResponse} {links after : List RpcChannel.Link}
    {k : Fin count} {link : RpcChannel.Link}
    (unsettled : Unsettled requests responses s sessions links)
    (conn : s.channel.conn = some k.val) (same : next.channel.conn = some k.val)
    (server : next.server = s.server) (used : next.used = s.used)
    (upstream : ∀ j, j ≠ k → next.upstream j = s.upstream j)
    (downstream : ∀ j, j ≠ k → next.downstream j = s.downstream j)
    (length : after.length = links.length) (here : after[k.val]? = some link)
    (others : ∀ j, j ≠ k.val → after[j]? = links[j]?)
    (own : LinkMirrors requests responses (sessions k).phase (next.upstream k) (next.downstream k)
      True (next.sentBytes requests) next.gotBytes link) :
    Unsettled requests responses next sessions after where
  serves := by
    rw [server]
    exact unsettled.serves
  ready := unsettled.ready
  length := (length.trans unsettled.length).trans used.symm
  bound := by
    rw [used]
    exact unsettled.bound
  conn j equal := by
    rw [used]
    rw [same, ← conn] at equal
    exact unsettled.conn j equal
  links j present found := by
    by_cases equal : j = k
    · subst equal
      obtain rfl : present = link := Option.some.inj (found.symm.trans here)
      have current : (next.channel.conn = some j.val) = True := eq_true same
      simp only [current]
      exact own
    · have other : s.channel.conn ≠ some j.val := by
        rw [conn]
        exact fun equal' => equal (Fin.ext (Option.some.inj equal').symm)
      have still : next.channel.conn ≠ some j.val := by
        rw [same, ← conn]
        exact other
      rw [others j.val (fun equal' => equal (Fin.ext equal'))] at found
      obtain ⟨upward, part, answering, -⟩ := unsettled.links j present found
      refine ⟨fun opened => ?_, part, answering, fun kept => absurd kept still⟩
      obtain ⟨taken, rest, before, carried, partial_⟩ := upward opened
      rw [upstream j equal]
      exact ⟨taken, rest, before, carried, fun kept => absurd kept still,
        fun _ => partial_.2 other⟩
  fresh j unused := by
    rw [used] at unused
    have different : j ≠ k := by
      rintro rfl
      exact Nat.not_lt.mpr unused (unsettled.conn _ conn)
    rw [upstream j different, downstream j different]
    exact unsettled.fresh j unused

/-- A call that fails behind `Connect` leaves no connection. -/
theorem Unsettled.giveUp {s : RpcSystem count Message}
    {sessions : Fin count → Session RpcRequest RpcResponse} {links : List RpcChannel.Link}
    (unsettled : Unsettled requests responses s sessions links)
    (cut : Cut requests .request (s.sentBytes requests)) (status : Status) (buffer : Buffer)
    (reads : List (Kernel Bytes)) :
    Mirrors requests responses { s with channel := s.channel.giveUp status, buffer, reads } sessions
      links := by
  have conn : (s.channel.giveUp status).conn = none := by cases status <;> rfl
  have stage : (s.channel.giveUp status).stage = .idle := by cases status <;> rfl
  refine ⟨unsettled.drop cut rfl rfl rfl rfl conn, ?_, ?_⟩
  · simp only [Paused, stage]
  · simp only [sentBytes, stage]
    exact .inl rfl

/-- A write that has not returned success has sent a part of its frame. -/
theorem cut_of_write {request : RpcRequest} {buffer : Buffer} {writes : List (Kernel Nat)}
    (short : Short requests request)
    (unfinished : (writeRequestMessage requests buffer request writes).status ≠ some .ok) :
    Cut requests .request (writeRequestMessage requests buffer request writes).sent := by
  cases serialized : requests.serialize request with
  | none =>
      left
      simp only [writeRequestMessage, writeMessage, assemble, serialized]
  | some payload =>
      have bounded := short payload serialized
      obtain ⟨assembled, written⟩ := writeMessage_of_serialize .request buffer writes serialized
        (by omega)
      rw [writeRequestMessage, written] at unfinished ⊢
      have accepted := TcpConnection.write_accepted (frame .request payload) writes
      right
      refine ⟨request, (frame .request payload).drop (TcpConnection.accepted writes),
        .of_short short serialized, ?_, ?_⟩
      · intro ended
        exact unfinished (accepted.2.mpr (List.drop_eq_nil_iff.mp ended))
      · rw [frameOf_of_serialize serialized]
        simp only [accepted.1, List.take_append_drop]

/-- A write that has returned success had a serialization to write. -/
theorem exists_serialized_of_write {request : RpcRequest} {buffer : Buffer}
    {writes : List (Kernel Nat)}
    (success : (writeRequestMessage requests buffer request writes).status = some .ok) :
    ∃ payload, requests.serialize request = some payload := by
  cases serialized : requests.serialize request with
  | none => simp [writeRequestMessage, writeMessage, assemble, serialized] at success
  | some payload => exact ⟨payload, rfl⟩

section ClientSteps

variable {channel : RpcChannel Message} {links : List RpcChannel.Link}
  {computed : List (Nat × RpcRequest × RpcResponse)} {call : RpcChannel.Call Message}
  {request : RpcRequest} {k : Nat} {link : RpcChannel.Link}

theorem step_wrote_error (stage : channel.stage = .writing call request)
    (conn : channel.conn = some k) (state : Status.State) (text : Bytes) :
    (onFrames channel links computed).step registry (.wrote (.error state text)) =
      some (onFrames (channel.giveUp (.error state text)) links computed) := by
  have writing : (onFrames channel links computed).stage = .writing call request := stage
  have connected : (onFrames channel links computed).conn = some k := conn
  simp only [RpcChannel.step, RpcChannel.clientStep, writing, connected, giveUp_onFrames,
    Option.some_or]

theorem step_wrote_ok (stage : channel.stage = .writing call request)
    (conn : channel.conn = some k) (found : links[k]? = some link) :
    (onFrames channel links computed).step registry (.wrote .ok) =
      some (onFrames { channel with stage := .reading call }
        (links.set k { link with requests := link.requests ++ [⟨channel.current, request⟩] })
        computed) := by
  have writing : (onFrames channel links computed).stage = .writing call request := stage
  have connected : (onFrames channel links computed).conn = some k := conn
  have queued : (onFrames channel links computed).links[k]? = some link := found
  simp only [RpcChannel.step, RpcChannel.clientStep, writing, connected, queued, Option.some_or]
  rfl

theorem step_read_error (stage : channel.stage = .reading call)
    (conn : channel.conn = some k) (state : Status.State) (text : Bytes) :
    (onFrames channel links computed).step registry (.read (.error state text)) =
      some (onFrames (channel.giveUp (.error state text)) links computed) := by
  have reading : (onFrames channel links computed).stage = .reading call := stage
  have connected : (onFrames channel links computed).conn = some k := conn
  simp only [RpcChannel.step, RpcChannel.clientStep, reading, connected, giveUp_onFrames,
    Option.some_or]

theorem step_read_ok (stage : channel.stage = .reading call) (conn : channel.conn = some k)
    (found : links[k]? = some link) {reply : RpcChannel.Tagged RpcResponse}
    {later : List (RpcChannel.Tagged RpcResponse)} (replies : link.responses = reply :: later) :
    (onFrames channel links computed).step registry (.read .ok) =
      some (onFrames (channel.fill call reply.content)
        (links.set k { link with responses := later }) computed) := by
  have reading : (onFrames channel links computed).stage = .reading call := stage
  have connected : (onFrames channel links computed).conn = some k := conn
  have queued : (onFrames channel links computed).links[k]? = some link := found
  simp only [RpcChannel.step, RpcChannel.clientStep, reading, connected, queued, replies,
    Option.some_or]
  exact congrArg some (fill_onFrames channel _ computed call reply.content)

end ClientSteps

/-- `WriteRequestMessage` after a report of the kernel. -/
theorem Unsettled.settle_write {s next : RpcSystem count Message}
    {sessions : Fin count → Session RpcRequest RpcResponse} {links : List RpcChannel.Link}
    {computed : List (Nat × RpcRequest × RpcResponse)} {call : RpcChannel.Call Message}
    {request : RpcRequest} {k : Fin count}
    (unsettled : Unsettled requests responses s sessions links)
    (stage : s.channel.stage = .writing call request) (conn : s.channel.conn = some k.val)
    (short : Short requests request) (settled : settle requests responses s = some next) :
    Matched requests responses registry (onFrames s.channel links computed) next := by
  have sent : s.sentBytes requests =
      (writeRequestMessage requests s.buffer request s.writes).sent := by
    simp only [sentBytes, stage]
  simp only [settle, stage] at settled
  split_ifs at settled
  cases status : (writeRequestMessage requests s.buffer request s.writes).status with
  | none =>
      rw [status] at settled
      obtain rfl := Option.some.inj settled
      refine Mirrors.matched ⟨unsettled, ?_, ?_⟩ computed
      · simp only [Paused, stage, conn]
        exact ⟨Option.some_ne_none _, short⟩
      · rw [sent]
        exact cut_of_write short (by rw [status]; exact (Option.some_ne_none _).symm)
  | some result =>
      cases result with
      | error state text =>
          rw [status] at settled
          obtain rfl := Option.some.inj settled
          have cut : Cut requests .request (s.sentBytes requests) := by
            rw [sent]
            exact cut_of_write short (by rw [status]; rintro ⟨⟩)
          exact .after (step_wrote_error stage conn state text)
            ((unsettled.giveUp cut _ _ _).matched computed)
      | ok =>
          rw [status] at settled
          obtain rfl := Option.some.inj settled
          obtain ⟨link, found⟩ := unsettled.exists_link conn
          obtain ⟨payload, serialized⟩ := exists_serialized_of_write status
          have whole : (writeRequestMessage requests s.buffer request s.writes).sent =
              frameOf requests .request request := writeMessage_sent status
          have none_ : s.gotBytes = [] := by simp only [gotBytes, stage]
          refine .after (step_wrote_ok stage conn found)
            ⟨[], sessions, _, computed, rfl, ?_, ?_, ?_⟩
          · refine unsettled.replace conn conn rfl rfl (fun _ _ => rfl) (fun _ _ => rfl)
              List.length_set (List.getElem?_set_self (List.getElem?_eq_some_iff.mp found).1)
              (fun _ different => List.getElem?_set_ne (Ne.symm different)) ?_
            obtain ⟨upward, part, answering, downward⟩ := unsettled.links k link found
            refine ⟨fun opened => ?_, part, answering, fun _ => ?_⟩
            · obtain ⟨taken, rest, before, carried, same⟩ := upward opened
              rw [same.1 conn, sent, whole] at carried
              refine ⟨taken, [], before, ?_, fun _ => rfl, fun gone => absurd trivial gone⟩
              rw [List.map_append, List.map_singleton]
              exact carried.push (.of_short short serialized)
            · have kept := downward conn
              rwa [none_] at kept
          · simp only [Paused, conn]
            exact ⟨Option.some_ne_none _, rfl⟩
          · exact .inl rfl

/-- A transfer that has not returned waits for a report. -/
theorem ending_of_transfer {left : Nat} {reads : List (Kernel Bytes)}
    (waiting : (TcpConnection.read left reads).status = none) :
    TcpConnection.ending reads = none := by
  rcases Nat.lt_or_ge (TcpConnection.delivered reads).length left with short | enough
  · rwa [(TcpConnection.read_short left reads short).1] at waiting
  · obtain ⟨rest, result, -⟩ := TcpConnection.read_delivered left reads enough
    rw [result] at waiting
    cases waiting

theorem ending_of_read {buffer : Buffer} {reads : List (Kernel Bytes)}
    (waiting : (readResponeMessage responses buffer reads).status = none) :
    TcpConnection.ending reads = none := by
  simp only [readResponeMessage, readMessage] at waiting
  by_cases head : (TcpConnection.read 3 reads).status = some .ok
  · have enough : 3 ≤ (TcpConnection.delivered reads).length := by
      by_contra short
      rw [(TcpConnection.read_short 3 reads (Nat.lt_of_not_le short)).1] at head
      exact TcpConnection.ending_ne_ok reads head
    obtain ⟨middle, result, -, same⟩ := TcpConnection.read_delivered 3 reads enough
    rw [if_pos head] at waiting
    split at waiting
    · cases waiting
    · split_ifs at waiting
      · split at waiting <;> cases waiting
      · rw [result] at waiting
        rw [← same]
        exact ending_of_transfer waiting
  · rw [if_neg head] at waiting
    exact ending_of_transfer waiting

/-- What a successful read has received is a frame. -/
theorem framed_of_read {buffer : Buffer} {reads : List (Kernel Bytes)} {reply : RpcResponse}
    (success : (readResponeMessage responses buffer reads).status = some .ok)
    (used : (readResponeMessage responses buffer reads).queue = [])
    (message : (readResponeMessage responses buffer reads).message = some reply) :
    ∃ payload, Framed .response (TcpConnection.delivered reads) payload [] ∧
      responses.parse payload = some reply := by
  obtain ⟨payload, rest, other, framed, -⟩ :=
    ((decodes responses .response).accepts_iff buffer reads).mp success
  obtain ⟨parsed, left⟩ := (decodes responses .response).consumes buffer reads payload rest success
    framed
  rw [readResponeMessage] at used message
  rw [used] at left
  rw [message] at parsed
  obtain rfl : rest = [] := left.symm
  exact ⟨payload, framed, parsed.symm⟩

/-- A response is parsed, or the call gives up. -/
theorem Unsettled.fill {s : RpcSystem count Message}
    {sessions : Fin count → Session RpcRequest RpcResponse} {links : List RpcChannel.Link}
    {call : RpcChannel.Call Message} (unsettled : Unsettled requests responses s sessions links)
    (stage : s.channel.stage = .reading call) (none_ : s.reads = []) (reply : RpcResponse)
    (reads : List (Kernel Bytes)) :
    Mirrors requests responses { s with channel := s.channel.fill call reply, reads } sessions
      links := by
  have sent : s.sentBytes requests = [] := by simp only [sentBytes, stage]
  have got : s.gotBytes = [] := by
    simp only [gotBytes, stage, none_]
    rfl
  rw [RpcChannel.fill]
  cases call.responsePrototype.parse reply.responseMessage with
  | none => exact unsettled.giveUp (.inl sent) .ok s.buffer reads
  | some message =>
      exact ⟨unsettled.keep rfl rfl rfl rfl rfl sent.symm got.symm, trivial, .inl rfl⟩

/-- `ReadResponeMessage` after a report of the kernel. -/
theorem Unsettled.settle_read (lawful : responses.Lawful) {s next : RpcSystem count Message}
    {sessions : Fin count → Session RpcRequest RpcResponse} {links : List RpcChannel.Link}
    {computed : List (Nat × RpcRequest × RpcResponse)} {call : RpcChannel.Call Message}
    {k : Fin count} (unsettled : Unsettled requests responses s sessions links)
    (stage : s.channel.stage = .reading call) (conn : s.channel.conn = some k.val)
    (settled : settle requests responses s = some next) :
    Matched requests responses registry (onFrames s.channel links computed) next := by
  have sent : s.sentBytes requests = [] := by simp only [sentBytes, stage]
  have got : s.gotBytes = TcpConnection.delivered s.reads := by simp only [gotBytes, stage]
  simp only [settle, stage] at settled
  cases status : (readResponeMessage responses s.buffer s.reads).status with
  | none =>
      rw [status] at settled
      obtain rfl := Option.some.inj settled
      refine Mirrors.matched ⟨unsettled, ?_, .inl sent⟩ computed
      simp only [Paused, stage, conn]
      exact ⟨Option.some_ne_none _, ending_of_read status⟩
  | some result =>
      cases result with
      | error state text =>
          rw [status] at settled
          obtain rfl := Option.some.inj settled
          exact .after (step_read_error stage conn state text)
            ((unsettled.giveUp (.inl sent) _ _ _).matched computed)
      | ok =>
          rw [status] at settled
          simp only at settled
          split at settled
          · next reply used message =>
              obtain rfl := Option.some.inj settled
              obtain ⟨payload, framed, parse⟩ := framed_of_read status used message
              obtain ⟨link, found⟩ := unsettled.exists_link conn
              obtain ⟨upward, part, answering, downward⟩ := unsettled.links k link found
              have carried := downward conn
              rw [got] at carried
              obtain ⟨tagged, later, replies, rfl, left⟩ :=
                exists_oldest lawful framed parse answering.cut carried
              have popped : Unsettled requests responses
                  { s with
                    buffer := (readResponeMessage responses s.buffer s.reads).buffer
                    reads := [] } sessions (links.set k { link with responses := later }) := by
                refine unsettled.replace conn conn rfl rfl (fun _ _ => rfl) (fun _ _ => rfl)
                  List.length_set (List.getElem?_set_self (List.getElem?_eq_some_iff.mp found).1)
                  (fun _ different => List.getElem?_set_ne (Ne.symm different)) ?_
                refine ⟨fun opened => ?_, part, answering, fun _ => ?_⟩
                · obtain ⟨taken, rest, before, carried, same⟩ := upward opened
                  refine ⟨taken, rest, before, carried, fun _ => ?_, fun gone => absurd trivial gone⟩
                  rw [same.1 conn, sent]
                  simp only [sentBytes, stage]
                · simp only [gotBytes, stage]
                  exact left
              exact .after (step_read_ok stage conn found replies)
                ((popped.fill stage rfl tagged.content s.reads).matched computed)
          · cases settled

theorem accepted_append_le (writes : List (Kernel Nat)) (report : Kernel Nat) :
    TcpConnection.accepted writes ≤ TcpConnection.accepted (writes ++ [report]) := by
  induction writes with
  | nil => exact Nat.zero_le _
  | cons first writes ih =>
      rw [List.cons_append, TcpConnection.accepted, TcpConnection.accepted]
      cases TcpConnection.endOfWrite first with
      | some status => exact Nat.le_refl 0
      | none => exact Nat.add_le_add_left ih _

/-- A further report adds to the bytes that a write has sent. -/
theorem sent_isPrefix {request : RpcRequest} (short : Short requests request) (buffer : Buffer)
    (writes : List (Kernel Nat)) (report : Kernel Nat) :
    (writeRequestMessage requests buffer request writes).sent <+:
      (writeRequestMessage requests buffer request (writes ++ [report])).sent := by
  cases serialized : requests.serialize request with
  | none =>
      simp only [writeRequestMessage, writeMessage, assemble, serialized]
      exact List.nil_prefix
  | some payload =>
      have bounded := short payload serialized
      obtain ⟨first, before⟩ := writeMessage_of_serialize .request buffer writes serialized
        (by omega)
      obtain ⟨second, after⟩ := writeMessage_of_serialize .request buffer (writes ++ [report])
        serialized (by omega)
      rw [writeRequestMessage, before, after]
      simp only [(TcpConnection.write_accepted _ _).1]
      exact List.take_prefix_take_left (accepted_append_le writes report)

theorem sent_nil {request : RpcRequest} (short : Short requests request) (buffer : Buffer) :
    (writeRequestMessage requests buffer request []).sent = [] := by
  cases serialized : requests.serialize request with
  | none => simp only [writeRequestMessage, writeMessage, assemble, serialized]
  | some payload =>
      have bounded := short payload serialized
      obtain ⟨first, before⟩ := writeMessage_of_serialize .request buffer [] serialized
        (by omega)
      rw [writeRequestMessage, before]
      simp only [(TcpConnection.write_accepted _ _).1]
      rfl

theorem delivered_append {reads : List (Kernel Bytes)} (waiting : TcpConnection.ending reads = none)
    (report : Kernel Bytes) : TcpConnection.delivered (reads ++ [report]) =
      TcpConnection.delivered reads ++ TcpConnection.chunk report := by
  induction reads with
  | nil =>
      cases ended : TcpConnection.endOfRead report with
      | none => simp [TcpConnection.delivered, ended]
      | some status =>
          simp only [List.nil_append, TcpConnection.delivered, ended]
          cases report with
          | returned bytes =>
              cases bytes with
              | nil => rfl
              | cons byte bytes => cases ended
          | _ => rfl
  | cons first reads ih =>
      rw [TcpConnection.ending] at waiting
      rw [List.cons_append, TcpConnection.delivered, TcpConnection.delivered]
      cases ended : TcpConnection.endOfRead first with
      | some status =>
          rw [ended] at waiting
          cases waiting
      | none =>
          rw [ended] at waiting
          simp only [ih waiting, List.append_assoc]

/-- `CallMethod` from the assertion of `conn_` on. -/
theorem Unsettled.settle_prepare {s next : RpcSystem count Message}
    {sessions : Fin count → Session RpcRequest RpcResponse} {links : List RpcChannel.Link}
    {computed : List (Nat × RpcRequest × RpcResponse)} {call : RpcChannel.Call Message}
    {k : Fin count} (unsettled : Unsettled requests responses s sessions links)
    (sent : s.sentBytes requests = []) (got : s.gotBytes = [])
    (conn : s.channel.conn = some k.val)
    (short : ∀ request, call.rpcRequest = some request → Short requests request)
    (settled : settle requests responses { s with channel := s.channel.prepare call, writes := [] } =
      some next) :
    Matched requests responses registry (onFrames (s.channel.prepare call) links computed) next := by
  rw [RpcChannel.prepare] at settled ⊢
  cases serialized : call.rpcRequest with
  | none =>
      rw [serialized] at settled
      obtain rfl := Option.some.inj settled
      exact ⟨[], sessions, links, computed, rfl, unsettled.drop (.inl sent) rfl rfl rfl rfl rfl,
        trivial, .inl rfl⟩
  | some request =>
      rw [serialized] at settled
      have modest := short request serialized
      have started : Unsettled requests responses
          { s with channel := { s.channel with stage := .writing call request }, writes := [] }
          sessions links := by
        refine unsettled.keep rfl rfl rfl rfl rfl ?_ got.symm
        rw [sent]
        exact sent_nil modest s.buffer
      exact started.settle_write rfl conn modest settled

/-- A new connection carries nothing. -/
theorem Unsettled.connect {s : RpcSystem count Message}
    {sessions : Fin count → Session RpcRequest RpcResponse} {links : List RpcChannel.Link}
    (unsettled : Unsettled requests responses s sessions links)
    (sent : s.sentBytes requests = []) (got : s.gotBytes = []) (gone : s.channel.conn = none)
    (room : s.used < count) :
    Unsettled requests responses
      { s with channel := { s.channel with conn := some s.used }, used := s.used + 1 } sessions
      (links ++ [({} : RpcChannel.Link)]) where
  serves := unsettled.serves
  ready := unsettled.ready
  length := by
    rw [List.length_append, unsettled.length]
    rfl
  bound := room
  conn k same := by
    obtain rfl : s.used = k := Option.some.inj same
    exact Nat.lt_succ_self _
  links k link found := by
    rcases Nat.lt_trichotomy k.val links.length with old | new | beyond
    · rw [List.getElem?_append_left old] at found
      have other : some s.used ≠ some k.val := by
        rw [← unsettled.length]
        exact fun same => absurd (Option.some.inj same) (Nat.ne_of_gt old)
      obtain ⟨upward, part, answering, -⟩ := unsettled.links k link found
      refine ⟨fun opened => ?_, part, answering, fun kept => absurd kept other⟩
      obtain ⟨taken, rest, before, carried, same⟩ := upward opened
      refine ⟨taken, rest, before, carried, fun kept => absurd kept other, fun _ => same.2 ?_⟩
      rw [gone]
      exact (Option.some_ne_none _).symm
    · rw [List.getElem?_append_right (Nat.le_of_eq new.symm), new, Nat.sub_self] at found
      obtain rfl : ({} : RpcChannel.Link) = link := Option.some.inj found
      obtain ⟨phase, up, down⟩ := unsettled.fresh k (by rw [new, unsettled.length])
      have none_ : Carried requests .request ([] ++ []) [] [] := ⟨rfl, by simp⟩
      have nothing : Carried responses .response ([] ++ []) [] [] := ⟨rfl, by simp⟩
      change LinkMirrors requests responses (sessions k).phase (s.upstream k) (s.downstream k) _
        (s.sentBytes requests) s.gotBytes _
      rw [phase, up, down, sent, got]
      exact ⟨fun _ => ⟨[], [], .top, none_, fun _ => rfl, fun _ => .inl rfl⟩, [], .top,
        fun _ => nothing⟩
    · rw [List.getElem?_eq_none (by rw [List.length_append]; exact beyond)] at found
      cases found
  fresh k unused := unsettled.fresh k (Nat.le_of_succ_le unused)

/-- `CallMethod` is called. -/
theorem Mirrors.call {s next : RpcSystem count Message}
    {sessions : Fin count → Session RpcRequest RpcResponse} {links : List RpcChannel.Link}
    {computed : List (Nat × RpcRequest × RpcResponse)} {call : RpcChannel.Call Message}
    (mirrors : Mirrors requests responses s sessions links) (idle : s.channel.stage = .idle)
    (short : ∀ request, call.rpcRequest = some request → Short requests request)
    (settled : settle requests responses { s with channel := s.channel.start call, writes := [] } =
      some next) :
    Matched requests responses registry (onFrames s.channel links computed) next := by
  have sent : s.sentBytes requests = [] := by simp only [sentBytes, idle]
  have got : s.gotBytes = [] := by simp only [gotBytes, idle]
  have called : (onFrames s.channel links computed).step registry (.call call) =
      some (onFrames (s.channel.start call) links computed) := by
    have same : (onFrames s.channel links computed).stage = .idle := idle
    simp only [RpcChannel.step, RpcChannel.clientStep, same, start_onFrames, Option.some_or]
  refine .after called ?_
  have entered : Unsettled requests responses
      { s with channel := { s.channel with calls := s.channel.calls ++ [call] } } sessions links :=
    mirrors.toUnsettled.keep rfl rfl rfl rfl rfl rfl rfl
  cases conn : s.channel.conn with
  | none =>
      have started : s.channel.start call =
          { s.channel with calls := s.channel.calls ++ [call], stage := .connecting call } := by
        simp only [RpcChannel.start, conn]
      rw [started] at settled ⊢
      obtain rfl := Option.some.inj settled
      exact ⟨[], sessions, links, computed, rfl,
        mirrors.toUnsettled.keep rfl rfl rfl rfl rfl sent.symm got.symm, ⟨conn, short⟩, .inl rfl⟩
  | some k =>
      have started : s.channel.start call =
          RpcChannel.prepare { s.channel with calls := s.channel.calls ++ [call] } call := by
        simp only [RpcChannel.start, conn]
      rw [started] at settled ⊢
      have inside := Nat.lt_of_lt_of_le (mirrors.conn k conn) mirrors.bound
      have kept : s.channel.conn = some (⟨k, inside⟩ : Fin count).val := conn
      exact entered.settle_prepare sent got kept short settled

/-- `Connect` returns. -/
theorem Mirrors.connected {s next : RpcSystem count Message}
    {sessions : Fin count → Session RpcRequest RpcResponse} {links : List RpcChannel.Link}
    {computed : List (Nat × RpcRequest × RpcResponse)} {call : RpcChannel.Call Message}
    (mirrors : Mirrors requests responses s sessions links)
    (connecting : s.channel.stage = .connecting call) (room : s.used < count)
    (settled : settle requests responses (s.join call) = some next) :
    Matched requests responses registry (onFrames s.channel links computed) next := by
  have sent : s.sentBytes requests = [] := by simp only [sentBytes, connecting]
  have got : s.gotBytes = [] := by simp only [gotBytes, connecting]
  have paused := mirrors.paused
  simp only [Paused, connecting] at paused
  have joined := mirrors.toUnsettled.connect sent got paused.1 room
  have accepted : (onFrames s.channel links computed).step registry (.connected .ok) =
      some (onFrames (RpcChannel.prepare { s.channel with conn := some s.used } call)
        (links ++ [({} : RpcChannel.Link)]) computed) := by
    have same : (onFrames s.channel links computed).stage = .connecting call := connecting
    simp only [RpcChannel.step, RpcChannel.clientStep, same, Option.some_or]
    rw [RpcChannel.afterConnect, ← prepare_onFrames, ← mirrors.length]
    rfl
  have kept : some s.used = some (⟨s.used, room⟩ : Fin count).val := rfl
  exact .after accepted (joined.settle_prepare sent got kept paused.2 settled)

/-- `Connect` fails. -/
theorem Mirrors.refused {s : RpcSystem count Message}
    {sessions : Fin count → Session RpcRequest RpcResponse} {links : List RpcChannel.Link}
    {computed : List (Nat × RpcRequest × RpcResponse)} {call : RpcChannel.Call Message}
    (mirrors : Mirrors requests responses s sessions links)
    (connecting : s.channel.stage = .connecting call) (state : Status.State) (text : Bytes) :
    Matched requests responses registry (onFrames s.channel links computed)
      { s with channel := s.channel.afterConnect call (.error state text) } := by
  have sent : s.sentBytes requests = [] := by simp only [sentBytes, connecting]
  have got : s.gotBytes = [] := by simp only [gotBytes, connecting]
  have failed : (onFrames s.channel links computed).step registry (.connected (.error state text)) =
      some (onFrames (s.channel.afterConnect call (.error state text)) links computed) := by
    have same : (onFrames s.channel links computed).stage = .connecting call := connecting
    simp only [RpcChannel.step, RpcChannel.clientStep, same, Option.some_or]
    rfl
  exact .after failed ⟨[], sessions, links, computed, rfl,
    mirrors.toUnsettled.keep rfl rfl rfl rfl rfl sent.symm got.symm, trivial, .inl rfl⟩

/-- `SetConnectParameter` drops the connection. -/
theorem Mirrors.reset {s : RpcSystem count Message}
    {sessions : Fin count → Session RpcRequest RpcResponse} {links : List RpcChannel.Link}
    {computed : List (Nat × RpcRequest × RpcResponse)}
    (mirrors : Mirrors requests responses s sessions links) (idle : s.channel.stage = .idle) :
    Matched requests responses registry (onFrames s.channel links computed)
      { s with channel := { s.channel with conn := none, stage := .idle } } := by
  have dropped : (onFrames s.channel links computed).step registry .setConnectParameter =
      some (onFrames { s.channel with conn := none, stage := .idle } links computed) := by
    have same : (onFrames s.channel links computed).stage = .idle := idle
    simp only [RpcChannel.step, RpcChannel.clientStep, same, Option.some_or]
    rfl
  exact .after dropped ⟨[], sessions, links, computed, rfl,
    mirrors.toUnsettled.drop mirrors.cut rfl rfl rfl rfl rfl, trivial, .inl rfl⟩

/-- A `send` of the channel returns. -/
theorem Mirrors.sent {s next : RpcSystem count Message}
    {sessions : Fin count → Session RpcRequest RpcResponse} {links : List RpcChannel.Link}
    {computed : List (Nat × RpcRequest × RpcResponse)} {call : RpcChannel.Call Message}
    {request : RpcRequest} {k : Fin count} {report : Kernel Nat}
    (mirrors : Mirrors requests responses s sessions links)
    (stage : s.channel.stage = .writing call request) (conn : s.channel.conn = some k.val)
    (settled : settle requests responses
      { s with
        writes := s.writes ++ [report]
        upstream := Function.update s.upstream k (s.upstream k ++
          (writeRequestMessage requests s.buffer request (s.writes ++ [report])).sent.drop
            (writeRequestMessage requests s.buffer request s.writes).sent.length) } = some next) :
    Matched requests responses registry (onFrames s.channel links computed) next := by
  have paused := mirrors.paused
  simp only [Paused, stage] at paused
  obtain ⟨more, grown⟩ := sent_isPrefix paused.2 s.buffer s.writes report
  rw [← grown, List.drop_left] at settled
  obtain ⟨link, found⟩ := mirrors.toUnsettled.exists_link conn
  have extended : Unsettled requests responses
      { s with
        writes := s.writes ++ [report]
        upstream := Function.update s.upstream k (s.upstream k ++ more) } sessions links := by
    refine mirrors.toUnsettled.replace conn conn rfl rfl ?_ (fun _ _ => rfl) rfl found
      (fun _ _ => rfl) ?_
    · intro j different
      exact Function.update_of_ne different _ _
    · obtain ⟨upward, part, answering, downward⟩ := mirrors.links k link found
      refine ⟨fun opened => ?_, part, answering, fun _ => downward conn⟩
      obtain ⟨taken, rest, before, carried, same⟩ := upward opened
      have now : sentBytes requests
          { s with
            writes := s.writes ++ [report]
            upstream := Function.update s.upstream k (s.upstream k ++ more) } = rest ++ more := by
        rw [same.1 conn]
        simp only [sentBytes, stage, grown]
      refine ⟨taken, rest ++ more, before, ?_, fun _ => now.symm, fun gone => absurd trivial gone⟩
      dsimp only
      rw [Function.update_self, ← List.append_assoc]
      exact carried.extend more
  exact extended.settle_write stage conn paused.2 settled

/-- A `recv` of the channel returns. -/
theorem Mirrors.received (lawful : responses.Lawful) {s next : RpcSystem count Message}
    {sessions : Fin count → Session RpcRequest RpcResponse} {links : List RpcChannel.Link}
    {computed : List (Nat × RpcRequest × RpcResponse)} {call : RpcChannel.Call Message}
    {k : Fin count} {report : Kernel Bytes}
    (mirrors : Mirrors requests responses s sessions links)
    (stage : s.channel.stage = .reading call) (conn : s.channel.conn = some k.val)
    (arrived : TcpConnection.chunk report <+: s.downstream k)
    (settled : settle requests responses
      { s with
        reads := s.reads ++ [report]
        downstream := Function.update s.downstream k
          ((s.downstream k).drop (TcpConnection.chunk report).length) } = some next) :
    Matched requests responses registry (onFrames s.channel links computed) next := by
  have paused := mirrors.paused
  simp only [Paused, stage] at paused
  obtain ⟨link, found⟩ := mirrors.toUnsettled.exists_link conn
  have before : s.gotBytes = TcpConnection.delivered s.reads := by simp only [gotBytes, stage]
  have extended : Unsettled requests responses
      { s with
        reads := s.reads ++ [report]
        downstream := Function.update s.downstream k
          ((s.downstream k).drop (TcpConnection.chunk report).length) } sessions links := by
    refine mirrors.toUnsettled.replace conn conn rfl rfl (fun _ _ => rfl) ?_ rfl found
      (fun _ _ => rfl) ?_
    · intro j different
      exact Function.update_of_ne different _ _
    · obtain ⟨upward, part, answering, downward⟩ := mirrors.links k link found
      refine ⟨fun opened => ?_, part, answering, fun _ => ?_⟩
      · obtain ⟨taken, rest, before, carried, same⟩ := upward opened
        exact ⟨taken, rest, before, carried, fun _ => same.1 conn, fun gone => absurd trivial gone⟩
      · have now : gotBytes
            { s with
              reads := s.reads ++ [report]
              downstream := Function.update s.downstream k
                ((s.downstream k).drop (TcpConnection.chunk report).length) } =
              s.gotBytes ++ TcpConnection.chunk report := by
          rw [before]
          simp only [gotBytes, stage, delivered_append paused.2]
        rw [now]
        dsimp only
        rw [Function.update_self]
        exact (downward conn).take arrived
  exact extended.settle_read lawful stage conn settled

/-- Every undisturbed step with short messages is matched at the level of frames. -/
theorem Mirrors.step (requests_lawful : requests.Lawful) (responses_lawful : responses.Lawful)
    {s next : RpcSystem count Message}
    {sessions : Fin count → Session RpcRequest RpcResponse} {links : List RpcChannel.Link}
    {computed : List (Nat × RpcRequest × RpcResponse)} {label : Label count Message}
    (mirrors : Mirrors requests responses s sessions links)
    (modest : Modest requests responses registry label)
    (stepped : Transition.restrict (RpcSystem.step requests responses registry)
      (undisturbed registry) s label = some next) :
    Matched requests responses registry (onFrames s.channel links computed) next := by
  obtain ⟨allowed, stepped⟩ := Transition.restrict_eq_some.mp stepped
  cases label with
  | call call =>
      obtain ⟨channel, called, settled⟩ := Option.bind_eq_some_iff.mp stepped
      cases stage : s.channel.stage with
      | idle =>
          simp only [RpcChannel.clientStep, stage] at called
          obtain rfl := Option.some.inj called
          exact mirrors.call stage modest settled
      | _ => simp [RpcChannel.clientStep, stage] at called
  | connected status =>
      cases stage : s.channel.stage with
      | connecting call =>
          simp only [RpcSystem.step, stage] at stepped
          cases status with
          | error state text =>
              obtain rfl := Option.some.inj stepped
              exact mirrors.refused stage state text
          | ok =>
              simp only at stepped
              split_ifs at stepped with room
              exact mirrors.connected stage room stepped
      | _ => simp [RpcSystem.step, stage] at stepped
  | sent report =>
      cases stage : s.channel.stage with
      | writing call request =>
          cases conn : s.channel.conn with
          | none => simp [RpcSystem.step, stage, conn] at stepped
          | some k =>
              simp only [RpcSystem.step, stage, conn] at stepped
              split_ifs at stepped with inside
              have kept : s.channel.conn = some (⟨k, inside⟩ : Fin count).val := conn
              exact mirrors.sent stage kept stepped
      | _ => simp [RpcSystem.step, stage] at stepped
  | received report =>
      cases stage : s.channel.stage with
      | reading call =>
          cases conn : s.channel.conn with
          | none => simp [RpcSystem.step, stage, conn] at stepped
          | some k =>
              simp only [RpcSystem.step, stage, conn] at stepped
              split_ifs at stepped with inside arrived
              have kept : s.channel.conn = some (⟨k, inside⟩ : Fin count).val := conn
              exact mirrors.received responses_lawful stage kept arrived stepped
      | _ => simp [RpcSystem.step, stage] at stepped
  | setConnectParameter =>
      obtain ⟨channel, called, rfl⟩ := Option.map_eq_some_iff.mp stepped
      cases stage : s.channel.stage with
      | idle =>
          simp only [RpcChannel.clientStep, stage] at called
          obtain rfl := Option.some.inj called
          exact mirrors.reset stage
      | _ => simp [RpcChannel.clientStep, stage] at called
  | serve k event =>
      have uncalled : ∀ outcome, event ≠ .called outcome := by
        rintro outcome rfl
        cases stepped
      have served : s.serve requests responses k event = some next := by
        cases event with
        | called outcome => exact absurd rfl (uncalled outcome)
        | _ => exact stepped
      exact mirrors.serve requests_lawful allowed
        (fun _ outcome _ called => absurd called (uncalled outcome)) served
  | serverCalled k invocation =>
      simp only [RpcSystem.step] at stepped
      simp only [undisturbed] at allowed
      cases stage : (s.server.connections k).stage with
      | calling request =>
          rw [stage] at stepped allowed
          refine mirrors.serve requests_lawful allowed ?_ stepped
          intro other outcome calling called
          obtain rfl : request = other := by
            rw [stage] at calling
            exact Stage.calling.inj calling
          obtain rfl := Event.called.inj called
          exact ⟨invocation, rfl, fun reply replied => modest request reply replied⟩
      | _ =>
          rw [stage] at stepped
          cases stepped

theorem Mirrors.initial :
    Mirrors requests responses ({} : RpcSystem count Message) (fun _ => {}) [] where
  serves := .initial
  ready _ waits := absurd rfl waits
  length := rfl
  bound := Nat.zero_le _
  conn _ same := by cases same
  links _ _ found := by cases found
  fresh _ _ := ⟨rfl, rfl, rfl⟩
  paused := trivial
  cut := .inl rfl

/-- Every undisturbed run with short messages is matched at the level of frames. -/
theorem Mirrors.run (requests_lawful : requests.Lawful) (responses_lawful : responses.Lawful)
    {s next : RpcSystem count Message}
    {sessions : Fin count → Session RpcRequest RpcResponse} {links : List RpcChannel.Link}
    {computed : List (Nat × RpcRequest × RpcResponse)} {labels : List (Label count Message)}
    (mirrors : Mirrors requests responses s sessions links)
    (modest : ∀ label ∈ labels, Modest requests responses registry label)
    (execution : Transition.run (Transition.restrict (RpcSystem.step requests responses registry)
      (undisturbed registry)) s labels = some next) :
    Matched requests responses registry (onFrames s.channel links computed) next := by
  induction labels generalizing s sessions links computed with
  | nil =>
      obtain rfl := Option.some.inj execution
      exact mirrors.matched computed
  | cons label labels ih =>
      rw [List.forall_mem_cons] at modest
      obtain ⟨middle, first, rest⟩ := Transition.run_cons_eq_some.mp execution
      obtain ⟨early, sessions, links, computed, front, mirrors⟩ :=
        mirrors.step requests_lawful responses_lawful modest.1 first
      obtain ⟨late, sessions, links, computed, back, mirrors⟩ := ih mirrors modest.2 rest
      exact ⟨early ++ late, sessions, links, computed,
        Transition.run_append_eq_some.mpr ⟨_, front, back⟩, mirrors⟩

/-- Calls over byte streams, with every pattern of partial sends and receives, waits, errors and lost
connections, do what calls on whole frames do: a run of these gives the same calls the same fates,
and a call that completes has the reply that the server computed for its own request. -/
theorem frames_intact (requests_lawful : requests.Lawful) (responses_lawful : responses.Lawful)
    {labels : List (Label count Message)} {s : RpcSystem count Message}
    (modest : ∀ label ∈ labels, Modest requests responses registry label)
    (execution : Transition.run (Transition.restrict (RpcSystem.step requests responses registry)
      (undisturbed registry)) {} labels = some s) :
    ∃ frames channel, Transition.run (RpcChannel.step registry) (RpcChannel.initial Message false)
        frames = some channel ∧
      channel.calls = s.channel.calls ∧ channel.done = s.channel.done ∧
      channel.failed = s.channel.failed ∧ channel.filled = s.channel.filled ∧
      channel.conn = s.channel.conn ∧ channel.stage = s.channel.stage ∧
      RpcChannel.Paired registry channel := by
  obtain ⟨frames, sessions, links, computed, matched, -⟩ :=
    (Mirrors.initial : Mirrors requests responses _ _ []).run requests_lawful responses_lawful
      modest execution
  have sound : RpcChannel.Sound registry (onFrames s.channel links computed) :=
    Transition.run_preserves (fun _ _ _ sound stepped => RpcChannel.sound_step sound stepped)
      (RpcChannel.sound_initial registry false) matched
  exact ⟨frames, _, matched, rfl, rfl, rfl, rfl, rfl, rfl, sound.paired⟩

end System

/-- The connection of a server that has one. -/
def only : Fin 1 := ⟨0, Nat.one_pos⟩

/-- A call of `EchoService` whose frames are cut on both streams. -/
def echoBytes : List (Label 1 Bytes) :=
  [.call (RpcChannel.echoCall [97]), .connected .ok, .sent (.returned 10), .serve only .iterate,
    .serve only (.received (.returned [1, 24])), .sent (.again .ok), .sent (.returned 17),
    .serve only (.received (.returned [0])),
    .serve only (.received (.returned ([10, 11] ++ ascii "EchoService" ++ [18, 4] ++ ascii "Echo" ++
      [26, 3, 10, 1, 97]))),
    .serverCalled only ⟨.ok, none, [97]⟩, .serve only (.sent (.returned 5)),
    .received (.returned [2, 5, 0]), .serve only (.sent (.returned 3)), .received .interrupted,
    .received (.returned [10, 3, 10]), .received (.returned [1, 97])]

theorem short_of_serialize {Content : Type} {proto : Protobuf Content} {message : Content}
    {payload : Bytes} (serialized : proto.serialize message = some payload)
    (bounds : 1 ≤ payload.length ∧ payload.length ≤ 255) : Short proto message := by
  intro other same
  rw [serialized] at same
  obtain rfl := Option.some.inj same
  exact bounds

/-- The service of `echoRegistry` answers with what it was given. -/
theorem answer_echo {request : RpcRequest} {reply : RpcResponse}
    (answered : answer RpcChannel.echoRegistry request ⟨.ok, none, [97]⟩ = .replied reply) :
    reply = ⟨[10, 1, 97]⟩ := by
  have value : RpcChannel.echoPrototype.serialize [97] = some [10, 1, 97] := by decide +kernel
  cases called : callServiceMethod RpcChannel.echoRegistry request ⟨.ok, none, [97]⟩ with
  | error reason => simp [answer, called] at answered
  | ok result =>
      obtain rfl : result = (RpcChannel.echoPrototype, [97]) := by
        by_cases service : request.service = ascii "EchoService"
        · by_cases method : request.method = ascii "Echo"
          · simp only [callServiceMethod, RpcChannel.echoRegistry, service, method, if_true] at called
            split at called
            · cases called
            · exact (Except.ok.inj called).symm
          · simp [callServiceMethod, RpcChannel.echoRegistry, service, method] at called
        · simp [callServiceMethod, RpcChannel.echoRegistry, service] at called
      simp only [answer, called, value] at answered
      exact (Called.replied.inj answered).symm

theorem modest_echoBytes : ∀ label ∈ echoBytes,
    Modest Wire.rpcRequest Wire.rpcResponse RpcChannel.echoRegistry label := by
  have request : (RpcChannel.echoCall [97]).rpcRequest =
      some ⟨ascii "EchoService", ascii "Echo", [10, 1, 97]⟩ := by decide +kernel
  have request_bytes : Wire.rpcRequest.serialize ⟨ascii "EchoService", ascii "Echo", [10, 1, 97]⟩ =
      some ([10, 11] ++ ascii "EchoService" ++ [18, 4] ++ ascii "Echo" ++ [26, 3, 10, 1, 97]) := by
    decide +kernel
  have reply_bytes : Wire.rpcResponse.serialize ⟨[10, 1, 97]⟩ = some [10, 3, 10, 1, 97] := by
    decide +kernel
  simp only [echoBytes, List.forall_mem_cons, Modest, true_and, and_true, List.not_mem_nil,
    false_imp_iff, implies_true]
  constructor
  · intro other serialized
    rw [request] at serialized
    obtain rfl := Option.some.inj serialized
    exact short_of_serialize request_bytes (by decide +kernel)
  · intro _ reply answered
    rw [answer_echo answered]
    exact short_of_serialize reply_bytes (by decide)

theorem frames_intact_echoBytes :
    ∃ s : RpcSystem 1 Bytes, s.channel.filled = [(0, ⟨[10, 1, 97]⟩, [97])] ∧
      ∃ frames channel, Transition.run (RpcChannel.step RpcChannel.echoRegistry)
          (RpcChannel.initial Bytes false) frames = some channel ∧
        channel.filled = s.channel.filled := by
  have evaluated : (Transition.run (Transition.restrict
      (RpcSystem.step Wire.rpcRequest Wire.rpcResponse RpcChannel.echoRegistry)
      (undisturbed RpcChannel.echoRegistry)) ({} : RpcSystem 1 Bytes) echoBytes).map
        (fun s => s.channel.filled) = some [(0, ⟨[10, 1, 97]⟩, [97])] := by decide +kernel
  obtain ⟨s, execution, filled⟩ := Option.map_eq_some_iff.mp evaluated
  obtain ⟨frames, channel, matched, -, -, -, same, -⟩ :=
    frames_intact Wire.rpcRequest_lawful Wire.rpcResponse_lawful modest_echoBytes execution
  exact ⟨s, filled, frames, channel, matched, same⟩

end RpcSystem

end Mcast
