import Mcast.Rpc.Channel

/-!
# Every answer belongs to its call

The messages of a connection that are on their way, in the order in which the channel will see them,
only ever lose members on the server side.  The channel drops a connection unless it has read the
one answer to its one request, so that the connection it keeps carries nothing between two calls,
and nothing but the call in progress while it waits.  A response is therefore filled from the reply
that the server computed for the request of the same call.
-/

namespace Mcast.RpcChannel

open RpcServer

variable {Message : Type}

/-- The number of the message that the loop of the server holds. -/
def Serving.numbers : Serving → List Nat
  | .calling request => [request.number]
  | .writing response => [response.number]
  | _ => []

/-- The numbers of the messages on their way, the oldest first. -/
def Link.inFlight (link : Link) : List Nat :=
  link.responses.map Tagged.number ++ (link.serving.numbers ++ link.requests.map Tagged.number)

/-- The message is the request of the call with its number. -/
def Requested (calls : List (Call Message)) (request : Tagged RpcRequest) : Prop :=
  ∃ call, calls[request.number]? = some call ∧ call.rpcRequest = some request.content

/-- The message was computed for the request of the call with its number. -/
def Computed (computed : List (Nat × RpcRequest × RpcResponse)) (response : Tagged RpcResponse) :
    Prop :=
  ∃ request, (response.number, request, response.content) ∈ computed

/-- The messages of a connection are what their numbers say. -/
structure Link.Honest (calls : List (Call Message))
    (computed : List (Nat × RpcRequest × RpcResponse)) (link : Link) : Prop where
  requests : ∀ request ∈ link.requests, Requested calls request
  calling : ∀ request, link.serving = .calling request → Requested calls request
  writing : ∀ response, link.serving = .writing response → Computed computed response
  responses : ∀ response ∈ link.responses, Computed computed response

/-- The reply was computed from the request of the call with its number. -/
def Answered (registry : Registry Message) (calls : List (Call Message))
    (entry : Nat × RpcRequest × RpcResponse) : Prop :=
  ∃ call invocation, calls[entry.1]? = some call ∧ call.rpcRequest = some entry.2.1 ∧
    answer registry entry.2.1 invocation = .replied entry.2.2

/-- The response of the call was filled from the reply computed for its request. -/
def Filled (calls : List (Call Message)) (computed : List (Nat × RpcRequest × RpcResponse))
    (entry : Nat × RpcResponse × Message) : Prop :=
  ∃ call request, calls[entry.1]? = some call ∧ call.rpcRequest = some request ∧
    (entry.1, request, entry.2.1) ∈ computed ∧
    call.responsePrototype.parse entry.2.1.responseMessage = some entry.2.2

/-- What holds of the connections and the records of a channel at every stage. -/
structure Books (registry : Registry Message) (channel : RpcChannel Message) : Prop where
  links : ∀ link ∈ channel.links, link.Honest channel.calls channel.computed
  computed : ∀ entry ∈ channel.computed, Answered registry channel.calls entry
  filled : ∀ entry ∈ channel.filled, Filled channel.calls channel.computed entry
  answered : ∀ number ∈ channel.done, (∀ text, (number, text) ∉ channel.failed) →
    ∃ reply message, (number, reply, message) ∈ channel.filled
  failed : ∀ entry ∈ channel.failed, entry.1 ∈ channel.done

/-- The last call has started and `done` has run for the calls before it. -/
structure InCall (channel : RpcChannel Message) (call : Call Message) : Prop where
  last : channel.calls[channel.current]? = some call
  done : channel.done = List.range channel.current

/-- The connection of the channel carries no more than these messages. -/
def Carries (channel : RpcChannel Message) (numbers : List Nat) : Prop :=
  ∃ k link, channel.conn = some k ∧ channel.links[k]? = some link ∧
    link.inFlight.Sublist numbers

/-- What holds at the present stage of the channel. -/
def Poised (channel : RpcChannel Message) : Prop :=
  match channel.stage with
  | .idle =>
      channel.done = List.range channel.calls.length ∧
        (∀ text, (channel.current, text) ∈ channel.failed → channel.conn = none) ∧
        (channel.conn = none ∨ channel.Carries [])
  | .connecting call => channel.InCall call ∧ channel.conn = none
  | .writing call request =>
      channel.InCall call ∧ call.rpcRequest = some request ∧ channel.Carries []
  | .reading call => channel.InCall call ∧ channel.Carries [channel.current]

structure Sound (registry : Registry Message) (channel : RpcChannel Message) : Prop where
  books : Books registry channel
  poised : channel.Poised

section Records

variable {registry : Registry Message} {calls : List (Call Message)}
  {computed : List (Nat × RpcRequest × RpcResponse)}

theorem call_append {number : Nat} {call : Call Message} (found : calls[number]? = some call)
    (later : List (Call Message)) : (calls ++ later)[number]? = some call := by
  rw [List.getElem?_append_left (List.getElem?_eq_some_iff.mp found).1]
  exact found

theorem Requested.append {request : Tagged RpcRequest} (requested : Requested calls request)
    (later : List (Call Message)) : Requested (calls ++ later) request := by
  obtain ⟨call, found, same⟩ := requested
  exact ⟨call, call_append found later, same⟩

theorem Computed.append {response : Tagged RpcResponse} (old : Computed computed response)
    (later : List (Nat × RpcRequest × RpcResponse)) : Computed (computed ++ later) response := by
  obtain ⟨request, member⟩ := old
  exact ⟨request, List.mem_append_left later member⟩

theorem Link.Honest.append_calls {link : Link} (honest : link.Honest calls computed)
    (later : List (Call Message)) : link.Honest (calls ++ later) computed where
  requests request member := (honest.requests request member).append later
  calling request serving := (honest.calling request serving).append later
  writing := honest.writing
  responses := honest.responses

theorem Link.Honest.append_computed {link : Link} (honest : link.Honest calls computed)
    (later : List (Nat × RpcRequest × RpcResponse)) : link.Honest calls (computed ++ later) where
  requests := honest.requests
  calling := honest.calling
  writing response serving := (honest.writing response serving).append later
  responses response member := (honest.responses response member).append later

theorem Link.honest_fresh : Link.Honest calls computed {} where
  requests _ member := by simp at member
  calling _ serving := by simp at serving
  writing _ serving := by simp at serving
  responses _ member := by simp at member

/-- The records do not depend on the stage and the connection. -/
theorem Books.move {channel : RpcChannel Message} (books : Books registry channel)
    (conn : Option Nat) (stage : Stage Message) : Books registry { channel with conn, stage } :=
  ⟨books.links, books.computed, books.filled, books.answered, books.failed⟩

/-- The start of a call keeps the records. -/
theorem Books.enter {channel : RpcChannel Message} (books : Books registry channel)
    (call : Call Message) : Books registry { channel with calls := channel.calls ++ [call] } where
  links link member := (books.links link member).append_calls [call]
  computed entry member := by
    obtain ⟨other, invocation, found, request, reply⟩ := books.computed entry member
    exact ⟨other, invocation, call_append found [call], request, reply⟩
  filled entry member := by
    obtain ⟨other, request, found, rest⟩ := books.filled entry member
    exact ⟨other, request, call_append found [call], rest⟩
  answered := books.answered
  failed := books.failed

/-- A connection may be replaced by an honest one. -/
theorem Books.setLink {channel : RpcChannel Message} (books : Books registry channel) (k : Nat)
    {link : Link} (honest : link.Honest channel.calls channel.computed) :
    Books registry (channel.setLink k link) where
  links other member := by
    rcases List.mem_or_eq_of_mem_set member with old | rfl
    · exact books.links other old
    · exact honest
  computed := books.computed
  filled := books.filled
  answered := books.answered
  failed := books.failed

/-- A reply that the server computes for an honest request is recorded. -/
theorem Books.compute {channel : RpcChannel Message} (books : Books registry channel)
    {request : Tagged RpcRequest} (requested : Requested channel.calls request)
    {invocation : Invocation Message} {reply : RpcResponse}
    (replied : answer registry request.content invocation = .replied reply) :
    Books registry
      { channel with
        computed := channel.computed ++ [(request.number, request.content, reply)] } where
  links link member := (books.links link member).append_computed _
  computed entry member := by
    rcases List.mem_append.mp member with old | new
    · exact books.computed entry old
    · obtain rfl := List.mem_singleton.mp new
      obtain ⟨call, found, same⟩ := requested
      exact ⟨call, invocation, found, same, replied⟩
  filled entry member := by
    obtain ⟨call, other, found, same, recorded, parsed⟩ := books.filled entry member
    exact ⟨call, other, found, same, List.mem_append_left _ recorded, parsed⟩
  answered := books.answered
  failed := books.failed

end Records

section Returns

variable {registry : Registry Message} {channel : RpcChannel Message} {call : Call Message}

theorem InCall.length (inCall : channel.InCall call) :
    channel.calls.length = channel.current + 1 := by
  have bound := (List.getElem?_eq_some_iff.mp inCall.last).1
  unfold current at bound ⊢
  omega

/-- `done` has not run for the call in progress. -/
theorem InCall.current_not_mem (inCall : channel.InCall call) :
    channel.current ∉ channel.done := by
  rw [inCall.done]
  simp

/-- A call that fails its controller without a connection returns to a sound channel. -/
theorem sound_fail (books : Books registry channel) (inCall : channel.InCall call)
    (dropped : channel.conn = none) (text : Bytes) :
    Sound registry (channel.setFailed text).runDone where
  books :=
    { links := books.links
      computed := books.computed
      filled := books.filled
      answered := by
        intro number member unfailed
        rcases List.mem_append.mp member with old | new
        · exact books.answered number old
            fun reason failed => unfailed reason (List.mem_append_left _ failed)
        · obtain rfl := List.mem_singleton.mp new
          exact absurd (List.mem_append_right _ List.mem_cons_self) (unfailed text)
      failed := by
        intro entry member
        rcases List.mem_append.mp member with old | new
        · exact List.mem_append_left _ (books.failed entry old)
        · obtain rfl := List.mem_singleton.mp new
          exact List.mem_append_right _ List.mem_cons_self }
  poised := by
    refine ⟨?_, fun _ _ => dropped, .inl dropped⟩
    change channel.done ++ [channel.current] = List.range channel.calls.length
    rw [inCall.done, inCall.length, List.range_succ]

theorem sound_giveUp (books : Books registry channel) (inCall : channel.InCall call)
    (status : Status) : Sound registry (channel.giveUp status) := by
  have dropped : Books registry { channel with conn := none } := books.move none channel.stage
  have still : InCall { channel with conn := none } call := ⟨inCall.last, inCall.done⟩
  cases status with
  | ok => exact sound_fail dropped still rfl _
  | error state text => exact sound_fail dropped still rfl text

/-- A call that fills its response from the reply to its own request leaves a quiet connection. -/
theorem sound_filled (books : Books registry channel) (inCall : channel.InCall call)
    (quiet : channel.Carries []) {reply : RpcResponse} {message : Message}
    (filled : Filled channel.calls channel.computed (channel.current, reply, message)) :
    Sound registry
      { channel with filled := channel.filled ++ [(channel.current, reply, message)] }.runDone where
  books :=
    { links := books.links
      computed := books.computed
      filled := by
        intro entry member
        rcases List.mem_append.mp member with old | new
        · exact books.filled entry old
        · obtain rfl := List.mem_singleton.mp new
          exact filled
      answered := by
        intro number member unfailed
        rcases List.mem_append.mp member with old | new
        · obtain ⟨other, parsed, found⟩ := books.answered number old unfailed
          exact ⟨other, parsed, List.mem_append_left _ found⟩
        · obtain rfl := List.mem_singleton.mp new
          exact ⟨reply, message, List.mem_append_right _ List.mem_cons_self⟩
      failed := fun entry member => List.mem_append_left _ (books.failed entry member) }
  poised := by
    refine ⟨?_, ?_, .inr quiet⟩
    · change channel.done ++ [channel.current] = List.range channel.calls.length
      rw [inCall.done, inCall.length, List.range_succ]
    · intro text failed
      exact absurd (books.failed _ failed) inCall.current_not_mem

theorem sound_prepare (books : Books registry channel) (inCall : channel.InCall call)
    (quiet : channel.Carries []) : Sound registry (channel.prepare call) := by
  unfold prepare
  cases serialized : call.rpcRequest with
  | none => exact sound_giveUp books inCall .ok
  | some request =>
      exact ⟨books.move channel.conn _, ⟨inCall.last, inCall.done⟩, serialized, quiet⟩

end Returns

section Steps

variable {registry : Registry Message} {channel next : RpcChannel Message}

/-- A server may drop messages of a connection but not add any. -/
theorem Carries.setLink {numbers : List Nat} (carries : channel.Carries numbers) {k : Nat}
    {link after : Link} (found : channel.links[k]? = some link)
    (fewer : after.inFlight.Sublist link.inFlight) :
    (channel.setLink k after).Carries numbers := by
  obtain ⟨j, current, conn, present, contained⟩ := carries
  by_cases same : j = k
  · subst same
    obtain rfl : link = current := Option.some.inj (found.symm.trans present)
    have inside := (List.getElem?_eq_some_iff.mp found).1
    exact ⟨j, after, conn, List.getElem?_set_self inside, fewer.trans contained⟩
  · refine ⟨j, current, conn, ?_, contained⟩
    change (channel.links.set k after)[j]? = some current
    rw [List.getElem?_set_ne (Ne.symm same)]
    exact present

/-- A change of the connections that the channel does not notice. -/
theorem Poised.serve (poised : channel.Poised) (stage : next.stage = channel.stage)
    (conn : next.conn = channel.conn) (calls : next.calls = channel.calls)
    (done : next.done = channel.done) (failed : next.failed = channel.failed)
    (carries : ∀ numbers, channel.Carries numbers → next.Carries numbers) : next.Poised := by
  have current : next.current = channel.current := by rw [current, current, calls]
  have inCall : ∀ call, channel.InCall call → next.InCall call := by
    intro call inCall
    refine ⟨?_, ?_⟩
    · rw [calls, current]
      exact inCall.last
    · rw [done, current]
      exact inCall.done
  unfold Poised at poised ⊢
  rw [stage, conn, calls, done, failed, current]
  cases present : channel.stage with
  | idle =>
      simp only [present] at poised ⊢
      exact ⟨poised.1, poised.2.1, poised.2.2.imp id (carries _)⟩
  | connecting call =>
      simp only [present] at poised ⊢
      exact ⟨inCall call poised.1, poised.2⟩
  | writing call request =>
      simp only [present] at poised ⊢
      exact ⟨inCall call poised.1, poised.2.1, carries _ poised.2.2⟩
  | reading call =>
      simp only [present] at poised ⊢
      exact ⟨inCall call poised.1, carries _ poised.2⟩

/-- A step of a server that keeps its connection honest keeps the channel sound. -/
theorem Sound.setLink (sound : Sound registry channel) {k : Nat} {link after : Link}
    (found : channel.links[k]? = some link)
    (honest : after.Honest channel.calls channel.computed)
    (fewer : after.inFlight.Sublist link.inFlight) : Sound registry (channel.setLink k after) where
  books := sound.books.setLink k honest
  poised := sound.poised.serve rfl rfl rfl rfl rfl fun _ carries => carries.setLink found fewer

theorem sound_serverStep (sound : Sound registry channel) {label : Label Message}
    (stepped : channel.serverStep registry label = some next) : Sound registry next := by
  cases label with
  | serverRead k =>
      simp only [serverStep] at stepped
      split at stepped
      · next request later responses found =>
          obtain rfl := Option.some.inj stepped
          have honest := sound.books.links _ (List.mem_of_getElem? found)
          refine sound.setLink found ⟨?_, ?_, ?_, honest.responses⟩ ?_
          · exact fun other member => honest.requests other (List.mem_cons_of_mem _ member)
          · intro other serving
            obtain rfl := Serving.calling.inj serving
            exact honest.requests _ List.mem_cons_self
          · intro response serving
            simp at serving
          · simp [Link.inFlight, Serving.numbers]
      · simp at stepped
  | serverCalled k invocation =>
      simp only [serverStep] at stepped
      split at stepped
      · next requests responses request found =>
          have honest := sound.books.links _ (List.mem_of_getElem? found)
          have requested := honest.calling request rfl
          split at stepped
          · obtain rfl := Option.some.inj stepped
            exact sound.setLink found ⟨honest.requests, by simp, by simp, honest.responses⟩
              (by simp [Link.inFlight, Serving.numbers])
          · obtain rfl := Option.some.inj stepped
            exact sound.setLink found ⟨honest.requests, by simp, by simp, honest.responses⟩
              (by simp [Link.inFlight, Serving.numbers])
          · next reply replied =>
              obtain rfl := Option.some.inj stepped
              have recorded : Sound registry
                  { channel with
                    computed := channel.computed ++ [(request.number, request.content, reply)] } :=
                ⟨sound.books.compute requested replied,
                  sound.poised.serve rfl rfl rfl rfl rfl fun _ carries => carries⟩
              have after := honest.append_computed [(request.number, request.content, reply)]
              refine recorded.setLink found ⟨after.requests, by simp, ?_, after.responses⟩ ?_
              · intro response serving
                obtain rfl := Serving.writing.inj serving
                exact ⟨request.content, List.mem_append_right _ List.mem_cons_self⟩
              · simp [Link.inFlight, Serving.numbers]
      · simp at stepped
  | serverWrote k =>
      simp only [serverStep] at stepped
      split at stepped
      · next requests responses response found =>
          obtain rfl := Option.some.inj stepped
          have honest := sound.books.links _ (List.mem_of_getElem? found)
          refine sound.setLink found ⟨honest.requests, by simp, by simp, ?_⟩ ?_
          · intro other member
            rcases List.mem_append.mp member with old | new
            · exact honest.responses other old
            · obtain rfl := List.mem_singleton.mp new
              exact honest.writing _ rfl
          · simp [Link.inFlight, Serving.numbers]
      · simp at stepped
  | serverClosed k =>
      simp only [serverStep] at stepped
      split at stepped
      · next requests responses found =>
          obtain rfl := Option.some.inj stepped
          have honest := sound.books.links _ (List.mem_of_getElem? found)
          exact sound.setLink found ⟨honest.requests, by simp, by simp, honest.responses⟩
            (by simp [Link.inFlight, Serving.numbers])
      · next requests responses response found =>
          obtain rfl := Option.some.inj stepped
          have honest := sound.books.links _ (List.mem_of_getElem? found)
          exact sound.setLink found ⟨honest.requests, by simp, by simp, honest.responses⟩
            (by simp [Link.inFlight, Serving.numbers])
      · simp at stepped
  | _ => simp [serverStep] at stepped

theorem sound_start (sound : Sound registry channel) (idle : channel.stage = .idle)
    (call : Call Message) : Sound registry (channel.start call) := by
  have poised := sound.poised
  simp only [Poised, idle] at poised
  obtain ⟨done, -, quiet⟩ := poised
  have inCall : InCall { channel with calls := channel.calls ++ [call] } call := by
    have number : (channel.calls ++ [call]).length - 1 = channel.calls.length := by simp
    refine ⟨?_, ?_⟩
    · change (channel.calls ++ [call])[(channel.calls ++ [call]).length - 1]? = some call
      rw [number, List.getElem?_concat_length]
    · change channel.done = List.range ((channel.calls ++ [call]).length - 1)
      rw [number, done]
  have books := sound.books.enter call
  rcases quiet with unconnected | carries
  · have started : channel.start call =
        { channel with calls := channel.calls ++ [call], stage := .connecting call } := by
      simp only [start, unconnected]
    rw [started]
    exact ⟨books.move channel.conn _, ⟨inCall.last, inCall.done⟩, unconnected⟩
  · have started : channel.start call =
        prepare { channel with calls := channel.calls ++ [call] } call := by
      obtain ⟨k, link, conn, -⟩ := carries
      simp only [start, conn]
    rw [started]
    exact sound_prepare books inCall carries

theorem sound_afterConnect (books : Books registry channel) {call : Call Message}
    (inCall : channel.InCall call) (unconnected : channel.conn = none) (status : Status) :
    Sound registry (channel.afterConnect call status) := by
  cases status with
  | error state text => exact sound_fail books inCall unconnected text
  | ok =>
      refine sound_prepare ⟨?_, books.computed, books.filled, books.answered, books.failed⟩
        ⟨inCall.last, inCall.done⟩ ?_
      · intro link member
        rcases List.mem_append.mp member with old | new
        · exact books.links link old
        · obtain rfl := List.mem_singleton.mp new
          exact Link.honest_fresh
      · exact ⟨channel.links.length, {}, rfl, List.getElem?_concat_length, .refl _⟩

/-- A quiet connection carries the request that is written to it. -/
theorem Link.inFlight_request {link : Link} (quiet : link.inFlight.Sublist [])
    (request : Tagged RpcRequest) :
    Link.inFlight { link with requests := link.requests ++ [request] } = [request.number] := by
  have empty : link.inFlight = [] := List.sublist_nil.mp quiet
  simp only [Link.inFlight, List.append_eq_nil_iff, List.map_eq_nil_iff] at empty
  obtain ⟨responses, serving, requests⟩ := empty
  simp [Link.inFlight, responses, serving, requests]

/-- The answer that is read from a connection in lock-step is the answer to the present call, and
leaves the connection quiet. -/
theorem Link.inFlight_response {link : Link} {number : Nat} {reply : Tagged RpcResponse}
    {later : List (Tagged RpcResponse)} (alone : link.inFlight.Sublist [number])
    (first : link.responses = reply :: later) :
    reply.number = number ∧ Link.inFlight { link with responses := later } = [] := by
  simp only [Link.inFlight, first, List.map_cons, List.cons_append] at alone ⊢
  have short := alone.length_le
  have rest : later.map Tagged.number ++
      (link.serving.numbers ++ link.requests.map Tagged.number) = [] := by
    apply List.eq_nil_of_length_eq_zero
    simp only [List.length_cons, List.length_nil] at short
    omega
  rw [rest] at alone
  exact ⟨by simpa using alone, rest⟩

theorem sound_read (books : Books registry channel) {call : Call Message}
    (inCall : channel.InCall call) {k : Nat} {link : Link} (conn : channel.conn = some k)
    (found : channel.links[k]? = some link) (alone : link.inFlight.Sublist [channel.current])
    {reply : Tagged RpcResponse} {later : List (Tagged RpcResponse)}
    (first : link.responses = reply :: later) :
    Sound registry ((channel.setLink k { link with responses := later }).fill call reply.content) := by
  obtain ⟨number, quiet⟩ := Link.inFlight_response alone first
  have honest := books.links link (List.mem_of_getElem? found)
  have inside := (List.getElem?_eq_some_iff.mp found).1
  have taken : Link.Honest channel.calls channel.computed { link with responses := later } := by
    refine ⟨honest.requests, honest.calling, honest.writing, ?_⟩
    intro other member
    apply honest.responses
    rw [first]
    exact List.mem_cons_of_mem _ member
  have after := books.setLink k taken
  have still : InCall (channel.setLink k { link with responses := later }) call :=
    ⟨inCall.last, inCall.done⟩
  unfold fill
  cases parsed : call.responsePrototype.parse reply.content.responseMessage with
  | none => exact sound_giveUp after still .ok
  | some message =>
      refine sound_filled after still ⟨k, _, conn, List.getElem?_set_self inside, ?_⟩ ?_
      · rw [quiet]
      · obtain ⟨request, recorded⟩ := honest.responses reply (first ▸ List.mem_cons_self)
        obtain ⟨other, invocation, called, serialized, -⟩ := books.computed _ recorded
        rw [number] at recorded called
        obtain rfl : call = other := Option.some.inj (inCall.last.symm.trans called)
        exact ⟨call, request, inCall.last, serialized, recorded, parsed⟩

theorem sound_clientStep (sound : Sound registry channel) {label : Label Message}
    (stepped : channel.clientStep label = some next) : Sound registry next := by
  have books := sound.books
  have poised := sound.poised
  cases label with
  | call call =>
      cases stage : channel.stage with
      | idle =>
          simp only [clientStep, stage, Option.some.injEq] at stepped
          rw [← stepped]
          exact sound_start sound stage call
      | _ => simp [clientStep, stage] at stepped
  | connected status =>
      cases stage : channel.stage with
      | connecting call =>
          simp only [clientStep, stage, Option.some.injEq] at stepped
          simp only [Poised, stage] at poised
          rw [← stepped]
          exact sound_afterConnect books poised.1 poised.2 status
      | _ => simp [clientStep, stage] at stepped
  | wrote status =>
      cases stage : channel.stage with
      | writing call request =>
          simp only [Poised, stage] at poised
          obtain ⟨inCall, serialized, k, link, conn, found, quiet⟩ := poised
          cases status with
          | error state text =>
              simp only [clientStep, stage, conn, Option.some.injEq] at stepped
              rw [← stepped]
              exact sound_giveUp books inCall _
          | ok =>
              simp only [clientStep, stage, conn, found, Option.some.injEq] at stepped
              rw [← stepped]
              have honest := books.links link (List.mem_of_getElem? found)
              have inside := (List.getElem?_eq_some_iff.mp found).1
              have written : Link.Honest channel.calls channel.computed
                  { link with requests := link.requests ++ [⟨channel.current, request⟩] } := by
                refine ⟨?_, honest.calling, honest.writing, honest.responses⟩
                intro other member
                rcases List.mem_append.mp member with old | new
                · exact honest.requests other old
                · obtain rfl := List.mem_singleton.mp new
                  exact ⟨call, inCall.last, serialized⟩
              refine ⟨(books.setLink k written).move channel.conn _, ⟨inCall.last, inCall.done⟩, k,
                _, conn, List.getElem?_set_self inside, ?_⟩
              rw [Link.inFlight_request quiet]
              exact .refl _
      | _ => simp [clientStep, stage] at stepped
  | read status =>
      cases stage : channel.stage with
      | reading call =>
          simp only [Poised, stage] at poised
          obtain ⟨inCall, k, link, conn, found, alone⟩ := poised
          cases status with
          | error state text =>
              simp only [clientStep, stage, conn, Option.some.injEq] at stepped
              rw [← stepped]
              exact sound_giveUp books inCall _
          | ok =>
              simp only [clientStep, stage, conn, found] at stepped
              split at stepped
              · simp at stepped
              · next reply later first =>
                  obtain rfl := Option.some.inj stepped
                  exact sound_read books inCall conn found alone first
      | _ => simp [clientStep, stage] at stepped
  | setConnectParameter =>
      cases stage : channel.stage with
      | idle =>
          simp only [clientStep, stage, Option.some.injEq] at stepped
          simp only [Poised, stage] at poised
          rw [← stepped]
          exact ⟨books.move none .idle, poised.1, fun _ _ => rfl, .inl rfl⟩
      | _ => simp [clientStep, stage] at stepped
  | _ => simp [clientStep] at stepped

theorem sound_step (sound : Sound registry channel) {label : Label Message}
    (stepped : channel.step registry label = some next) : Sound registry next := by
  rcases Option.or_eq_some_iff.mp stepped with client | ⟨-, server⟩
  · exact sound_clientStep sound client
  · exact sound_serverStep sound server

theorem sound_initial (registry : Registry Message) (connected : Bool) :
    Sound registry (initial Message connected) := by
  cases connected with
  | false =>
      exact ⟨⟨by simp [initial], by simp [initial], by simp [initial], by simp [initial],
        by simp [initial]⟩, by simp [initial, Poised]⟩
  | true =>
      refine ⟨⟨?_, by simp [initial], by simp [initial], by simp [initial], by simp [initial]⟩, rfl,
        by simp [initial], .inr ⟨0, {}, rfl, rfl, .refl _⟩⟩
      intro link member
      obtain rfl := List.mem_singleton.mp member
      exact Link.honest_fresh

end Steps

/-- No call gets the answer to another one: a call whose `done` has run on an unfailed controller
has its response filled from the reply that the server computed for its own request, a failed call
leaves no connection, and `done` has run once for every call that has returned. -/
structure Paired (registry : Registry Message) (channel : RpcChannel Message) : Prop where
  answered : ∀ number ∈ channel.done, (∀ text, (number, text) ∉ channel.failed) →
    ∃ reply message, (number, reply, message) ∈ channel.filled
  filled : ∀ number reply message, (number, reply, message) ∈ channel.filled →
    ∃ call request invocation, channel.calls[number]? = some call ∧
      call.rpcRequest = some request ∧ (number, request, reply) ∈ channel.computed ∧
      answer registry request invocation = .replied reply ∧
      call.responsePrototype.parse reply.responseMessage = some message
  dropped : ∀ text, channel.stage = .idle → (channel.current, text) ∈ channel.failed →
    channel.conn = none
  returned : channel.stage = .idle → channel.done = List.range channel.calls.length
  running : channel.stage ≠ .idle → channel.done = List.range (channel.calls.length - 1)

theorem Sound.paired {registry : Registry Message} {channel : RpcChannel Message}
    (sound : Sound registry channel) : Paired registry channel where
  answered := sound.books.answered
  filled number reply message member := by
    obtain ⟨call, request, found, serialized, recorded, parsed⟩ := sound.books.filled _ member
    obtain ⟨other, invocation, -, -, replied⟩ := sound.books.computed _ recorded
    exact ⟨call, request, invocation, found, serialized, recorded, replied, parsed⟩
  dropped text idle failed := by
    have poised := sound.poised
    simp only [Poised, idle] at poised
    exact poised.2.1 text failed
  returned idle := by
    have poised := sound.poised
    simp only [Poised, idle] at poised
    exact poised.1
  running busy := by
    have poised := sound.poised
    cases stage : channel.stage with
    | idle => exact absurd stage busy
    | connecting call =>
        simp only [Poised, stage] at poised
        exact poised.1.done
    | writing call request =>
        simp only [Poised, stage] at poised
        exact poised.1.done
    | reading call =>
        simp only [Poised, stage] at poised
        exact poised.1.done

/-- Answers are never mismatched, for every sequence of calls and every pattern of failures. -/
theorem paired_of_run {registry : Registry Message} {connected : Bool}
    {labels : List (Label Message)} {channel : RpcChannel Message}
    (execution : Transition.run (step registry) (initial Message connected) labels =
      some channel) : Paired registry channel := by
  have sound : Sound registry channel :=
    Transition.run_preserves (fun _ _ _ sound stepped => sound_step sound stepped)
      (sound_initial registry connected) execution
  exact sound.paired

/-- The class of `EchoRequest` and `EchoResponse`, whose messages hold one text. -/
def echoPrototype : Protobuf Bytes :=
  Wire.canonical (Wire.field 1) fun bytes => (Wire.readField 1 bytes).map Prod.fst

/-- A server with `EchoService`. -/
def echoRegistry : Registry Bytes := fun service =>
  if service = ascii "EchoService" then
    some fun method =>
      if method = ascii "Echo" then some ⟨echoPrototype, echoPrototype⟩ else none
  else none

def echoCall (text : Bytes) : Call Bytes :=
  { service := ascii "EchoService"
    method := ascii "Echo"
    requestPrototype := echoPrototype
    request := text
    responsePrototype := echoPrototype }

/-- The first call is interrupted when its reply is on the way, and two more calls follow on a new
connection. -/
def echoTrace : List (Label Bytes) :=
  [.call (echoCall [0x61]), .connected .ok, .wrote .ok, .serverRead 0,
    .serverCalled 0 ⟨.ok, none, [0x61]⟩, .serverWrote 0, .read (.error .interrupt []),
    .call (echoCall [0x62]), .connected .ok, .wrote .ok, .serverRead 1,
    .serverCalled 1 ⟨.ok, none, [0x62]⟩, .serverWrote 1, .read .ok,
    .call (echoCall [0x63]), .wrote .ok, .serverClosed 0, .serverRead 1,
    .serverCalled 1 ⟨.ok, none, [0x63]⟩, .serverWrote 1, .read .ok]

theorem paired_of_run_echoTrace :
    ∃ channel,
      Transition.run (step echoRegistry) (initial Bytes false) echoTrace = some channel ∧
      channel.done = [0, 1, 2] ∧ channel.failed = [(0, [])] ∧
      channel.filled.map (fun entry => (entry.1, entry.2.2)) = [(1, [0x62]), (2, [0x63])] ∧
      Paired echoRegistry channel :=
  ⟨_, rfl, rfl, rfl, rfl, @paired_of_run Bytes echoRegistry false echoTrace _ rfl⟩

end Mcast.RpcChannel
